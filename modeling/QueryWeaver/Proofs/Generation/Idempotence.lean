import Mathlib
import QueryWeaver.Proofs.Generation.Layouts
import QueryWeaver.Proofs.Generation.Regeneration
import QueryWeaver.Proofs.Header.Resplice
/-!
A second run on the output of the first. The scan finds the segments as the first run left them, the
layout comes out the same, every block plans what it planned, and the header takes the same regions.
-/

namespace QueryWeaver

/-- No second occurrence of the marker follows the first. -/
def Text.Once (marker t : Text) : Prop :=
  ∀ a b, cut marker t = some (a, b) → cut marker b = none

instance (marker t : Text) : Decidable (Text.Once marker t) :=
  decidable_of_iff (∀ parts ∈ Text.cut marker t, Text.cut marker parts.2 = none) Prod.forall

namespace Generation

variable {σ : Type}

/-- Generated code in a layout: a function on a new line that shows the indent and the line
terminator. -/
structure Fitting (layout : Layout) (p : Char → Prop) (g : Text) : Prop where
  insertable : Token.Insertable p g
  indent : layout.indent ⊆ g
  newline : layout.newline <:+: g

theorem render_fitting {p : Char → Prop} (printable : Printable p) {layout : Layout}
    (spaced : layout.Spaced) (layoutClean : layout.Clean p) {a : Access} (clean : a.Clean p)
    (records : Registry) : Fitting layout p ((a.function records).render layout) where
  insertable :=
    { function := GeneratedFunction.render_isFunction printable layoutClean
        (clean.function printable records)
      breaks := by
        simp only [GeneratedFunction.render, List.append_assoc]
        rcases spaced.2 with feed | returns
        · rw [feed]
          rfl
        · rw [returns]
          rfl }
  indent := by
    intro c member
    simp only [GeneratedFunction.render, Access.function, List.flatMap_append, List.flatMap_cons,
      BodyStep.render, Layout.line, Layout.indentation, List.mem_append, member, true_or, or_true]
  newline := by
    simp only [GeneratedFunction.render, List.append_assoc]
    exact List.infix_append_left

theorem sniff_indent_congr {source source' : Text} (types : Collaborators)
    (same : '\t' ∈ source' ↔ '\t' ∈ source) :
    (Layout.sniff source' types).indent = (Layout.sniff source types).indent := by
  have tab (t : Text) : (t.any (· == '\t')) = true ↔ '\t' ∈ t := by
    simp
  simp only [Layout.sniff, tab, same]

theorem sniff_newline_congr {source source' : Text} (types : Collaborators)
    (same : Token.FeedsOnly source' ↔ Token.FeedsOnly source) :
    (Layout.sniff source' types).newline = (Layout.sniff source types).newline := by
  have equal : Text.contains Layout.crlf source' = Text.contains Layout.crlf source := by
    rw [← Text.contains_crlf, ← Text.contains_crlf] at same
    exact Bool.eq_iff_iff.mpr (by simpa using not_congr same)
  simp only [Layout.sniff, equal]

/-- The characters that generated code may have: a tab only if the source or the indent has one, a
carriage return only if the line terminator has one. -/
def Allowed (source : Text) (layout : Layout) (c : Char) : Prop :=
  (c = '\t' → '\t' ∈ source ∨ '\t' ∈ layout.indent) ∧ (c = '\r' → '\r' ∈ layout.newline)

theorem allowed_of_ne {source : Text} {layout : Layout} (c : Char) (returns : c ≠ '\r')
    (tab : c ≠ '\t') : Allowed source layout c :=
  ⟨fun same => absurd same tab, fun same => absurd same returns⟩

theorem allowed_printable (source : Text) (layout : Layout) :
    Printable (Allowed source layout) := by
  intro c range
  apply allowed_of_ne
  all_goals
    rintro rfl
    exact absurd range (by decide)

section

variable {source : Text} {layout : Layout} {tokens' : List Token}
  (rewritten : Token.Rewritten (Fitting layout (Allowed source layout)) (Token.tokenize source)
    tokens')
include rewritten

/-- The new text has a tab if and only if the source has one, unless an option sets the indent. -/
theorem rewritten_tab (sniffed : layout.indent = (Layout.sniff source .standard).indent) :
    '\t' ∈ Token.join tokens' ↔ '\t' ∈ source := by
  have shown : '\t' ∈ layout.indent ↔ '\t' ∈ source := by
    rw [sniffed]
    by_cases tab : '\t' ∈ source
    · simp [Layout.sniff, Layout.tab, tab]
    · simp [Layout.sniff, Layout.spaces, tab]
  constructor
  · intro member
    rcases rewritten.chars '\t' member with old | ⟨g, fits, new⟩
    · rwa [Token.join_tokenize] at old
    · rcases (fits.insertable.function.chars '\t' new).1 rfl with known | indent
      · exact known
      · exact shown.mp indent
  · intro member
    rcases rewritten.eq_or_infix with same | ⟨g, fits, inside⟩
    · rwa [same, Token.join_tokenize]
    · exact inside.subset (fits.indent (shown.mpr member))

theorem rewritten_feedsOnly
    (closed : ∀ token ∈ Token.tokenize source, token.isClosed = true)
    (sniffed : layout.newline = (Layout.sniff source .standard).newline) :
    Token.FeedsOnly (Token.join tokens') ↔ Token.FeedsOnly source := by
  constructor
  · intro feeds
    rcases rewritten.eq_or_infix with same | ⟨g, fits, inside⟩
    · rwa [same, Token.join_tokenize] at feeds
    · by_contra returns
      have crlf : layout.newline = Layout.crlf := by
        rw [← Text.contains_crlf, Bool.not_eq_false] at returns
        simp only [sniffed, Layout.sniff, returns, if_true]
      have part : Token.FeedsOnly Layout.crlf := feeds.infix (crlf ▸ fits.newline.trans inside)
      exact absurd ⟨rfl, rfl⟩ ((List.isChain_cons.mp part).1 '\n' rfl)
  · intro feeds
    have lf : layout.newline = Layout.lf := by
      simp [sniffed, Layout.sniff, (Text.contains_crlf source).mpr feeds]
    refine rewritten.feedsOnly (fun g fits => fits.insertable) (Token.lexed_tokenize source) closed
      ?_ (by rwa [Token.join_tokenize])
    intro g fits member
    have inside := (fits.insertable.function.chars '\r' member).2 rfl
    rw [lf] at inside
    exact absurd inside (by decide)

end

/-- No quote, brace or slash stands in the types, the placeholders and the type names that the
blocks give. -/
structure Spelled (segments : List Segment) : Prop where
  plans : PlansSpelled segments
  options : ∀ option ∈ configOptions segments, option.Spelled

instance (segments : List Segment) : Decidable (Spelled segments) :=
  decidable_of_iff (PlansSpelled segments ∧ ∀ option ∈ configOptions segments, option.Spelled)
    ⟨fun ⟨plans, options⟩ => ⟨plans, options⟩, fun ⟨plans, options⟩ => ⟨plans, options⟩⟩

theorem block_values {source : Text} (layout : Layout) {block : Block}
    (member : .annotated block ∈ Segment.ofSource source) :
    ∀ e ∈ Dictionary.entries block.annotations, Text.Over (Allowed source layout) e.2 := by
  obtain ⟨t, known, annotations⟩ := Segment.ofTokens_comment_of_block member
  have inside : t ⊆ source := by
    intro c here
    rw [← Token.join_tokenize source]
    exact List.mem_flatMap.mpr ⟨.comment t, known, here⟩
  intro e entry c here
  rw [annotations] at entry
  have value := Comment.annotations_over (fun c => c = '\t' → '\t' ∈ source)
    (fun tab => absurd tab (by decide)) (fun c here same => same ▸ inside here) e entry c here
  exact ⟨fun same => .inl (value.1 same), fun same => absurd same value.2⟩

theorem mem_blocks {segments : List Segment} {q : Block → Bool} {block : Block}
    (member : block ∈ (segments.filterMap Segment.block?).filter q) :
    .annotated block ∈ segments := by
  obtain ⟨segment, known, same⟩ := List.mem_filterMap.mp (List.mem_of_mem_filter member)
  cases segment with
  | plain t => cases same
  | annotated other =>
    cases same
    exact known

theorem configOptions_cons (segment : Segment) (r : List Segment) :
    configOptions (segment :: r) = configOptions [segment] ++ configOptions r := by
  simp only [configOptions, blocksFor]
  rw [← List.singleton_append, List.filterMap_append, List.filter_append, List.flatMap_append]

theorem configOptions_updated {ok : Text → Prop} {segments segments' : List Segment}
    (updated : List.Forall₂ (Segment.Updated ok) segments segments') :
    configOptions segments' = configOptions segments := by
  induction updated with
  | nil => rfl
  | @cons segment segment' r r' head _ ih =>
    have one : configOptions [segment'] = configOptions [segment] := by
      cases head with
      | same => rfl
      | code =>
        simp only [configOptions, blocksFor, List.filterMap_cons, Segment.block?,
          List.filterMap_nil, List.filter_cons, List.filter_nil]
        split <;> rfl
    rw [configOptions_cons, configOptions_cons segment, one, ih]

theorem resolveLayout_types {source : Text}
    (options : ∀ option ∈ configOptions (Segment.ofSource source), option.Spelled) :
    let layout := (resolveLayout .standard source (Segment.ofSource source)).1
    InertOver (Allowed source layout) layout.queryType ∧
      InertOver (Allowed source layout) layout.cursorType := by
  intro layout
  have printable := allowed_printable source layout
  have standard : InertOver (Allowed source layout) Collaborators.standard.queryType ∧
      InertOver (Allowed source layout) Collaborators.standard.cursorType :=
    ⟨.ofConst printable (by decide), .ofConst printable (by decide)⟩
  have each : ∀ option ∈ configOptions (Segment.ofSource source), ∀ name,
      option.typeName? = some name → InertOver (Allowed source layout) name := by
    intro option member name named c inside
    obtain ⟨block, config, given⟩ := List.mem_flatMap.mp member
    have values := block_values layout (mem_blocks config)
    exact ⟨options option member name named c inside,
      LayoutOption.ofAnnotations_chars values given named c inside⟩
  have types := Layout.foldl_set_keeps (Layout.sniff source .standard) standard each
  rwa [← resolveLayout_foldl .standard source (Segment.ofSource source)] at types

/-- The layout of a run is clean for the characters that its code may have. -/
theorem resolveLayout_clean {source : Text}
    (options : ∀ option ∈ configOptions (Segment.ofSource source), option.Spelled) :
    let layout := (resolveLayout .standard source (Segment.ofSource source)).1
    layout.Clean (Allowed source layout) ∧ Inert layout.queryType := by
  intro layout
  have spaced : layout.Spaced := (resolveLayout_reachable _ _ _).spaced
  have types := resolveLayout_types options
  refine ⟨⟨?_, ?_, types.2⟩, types.1.inert⟩
  · intro c member
    refine ⟨spaced.indent_inert c member, fun same => .inr (same ▸ member), ?_⟩
    rintro rfl
    rcases spaced.1 with tab | ⟨n, spaces⟩
    · rw [tab] at member
      exact absurd member (by decide)
    · rw [spaces] at member
      exact absurd (List.eq_of_mem_replicate member) (by decide)
  · intro c member
    refine ⟨spaced.newline_inert c member, ?_, fun same => same ▸ member⟩
    rintro rfl
    rcases spaced.2 with feed | returns
    · rw [feed] at member
      exact absurd member (by decide)
    · rw [returns] at member
      exact absurd member (by decide)

/-- The scan finds the regenerated segments in their text, and the same layout. -/
theorem regenerate_source (db : Database σ) {source : Text} (p : Progress σ)
    (closed : ∀ token ∈ Token.tokenize source, token.isClosed = true)
    (spelled : Spelled (Segment.ofSource source)) :
    let layout := (resolveLayout .standard source (Segment.ofSource source)).1
    let segments := (regenerate db layout (Segment.ofSource source) p).1
    Segment.ofSource (Segment.render segments) = segments ∧
      (resolveLayout .standard (Segment.render segments) segments).1 = layout := by
  intro layout segments
  have clean : layout.Clean (Allowed source layout) := (resolveLayout_clean spelled.options).1
  have spaced : layout.Spaced := (resolveLayout_reachable _ _ _).spaced
  have printable := allowed_printable source layout
  obtain ⟨names, failures, regenerated, -⟩ :=
    regenerate_regenerated db layout (Segment.ofSource source) p
  have updated : List.Forall₂ (Segment.Updated (Fitting layout (Allowed source layout)))
      (Segment.ofSource source) segments := by
    apply regenerated.updated
    intro block member plan planned known records
    have values := block_values layout (mem_blocks member)
    have access := Plan.clean allowed_of_ne planned (spelled.plans block member plan planned)
      values known
    exact render_fitting printable spaced clean access records
  obtain ⟨tokens, rewritten, cut⟩ := Segment.exists_rewritten (fun g fits => fits.insertable)
    (Token.lexed_tokenize source) updated
  have lexed := rewritten.lexed (fun g fits => fits.insertable) (Token.lexed_tokenize source) closed
  have text : Segment.render segments = Token.join tokens := by
    rw [← cut, Segment.render_ofTokens]
  refine ⟨?_, ?_⟩
  · rw [text, Segment.ofSource, Token.tokenize_join lexed, cut]
  · refine resolveLayout_congr (configOptions_updated updated).symm ?_ ?_
    · intro sniffed
      rw [text]
      exact sniff_indent_congr .standard (rewritten_tab rewritten sniffed)
    · intro sniffed
      rw [text]
      exact sniff_newline_congr .standard (rewritten_feedsOnly rewritten closed sniffed)

/-- The header takes the same regions again, or keeps what it has. -/
theorem spliceHeader_again {layout : Layout} {i : Interface} {header : Text} (r r' : Report)
    (clean : layout.Clean fun _ => True) (queryType : Inert layout.queryType) (plain : i.Plain)
    (once : Text.Once Marker.functionsBegin.text header) :
    (spliceHeader layout i (spliceHeader layout i header r).1 r').1 =
      (spliceHeader layout i header r).1 := by
  obtain ⟨functions, members⟩ := Regions.ofInterface_slashless clean plain queryType
  cases done : Header.splice (.ofInterface layout i) header with
  | error e => simp only [spliceHeader, done]
  | ok spliced =>
    rcases Header.splice_again functions members once done with again | ⟨e, again⟩
    · simp only [spliceHeader, done, again]
    · simp only [spliceHeader, done, again]

/-- A run on the output of a run gives the same source, header and list of functions, whatever the
database did in between. -/
theorem run_idempotent (db : Database σ) (memoryless : db.Memoryless) (source header : Text)
    (s s' : σ) (closed : ∀ token ∈ Token.tokenize source, token.isClosed = true)
    (spelled : Spelled (Segment.ofSource source))
    (once : Text.Once Marker.functionsBegin.text header) :
    let first := (run db .standard source header s).1
    let second := (run db .standard first.source first.header s').1
    second.source = first.source ∧ second.header = first.header ∧
      second.report.generated = first.report.generated := by
  intro first second
  obtain ⟨_, _, -, start, report⟩ := prepared_start db .standard source s
  obtain ⟨_, _, -, start', report'⟩ := prepared_start db .standard first.source s'
  obtain ⟨clean, queryType⟩ := resolveLayout_clean spelled.options
  obtain ⟨cut, resolved'⟩ := regenerate_source db (prepared db .standard source s) closed spelled
  -- both runs have this layout, and what it is does not matter any more
  obtain ⟨layout, resolved⟩ :
      ∃ layout, (resolveLayout .standard source (Segment.ofSource source)).1 = layout := ⟨_, rfl⟩
  simp only [resolved] at clean queryType cut resolved'
  have empty : (prepared db .standard source s).interface.Plain := start ▸ Interface.plain_empty
  have plain := regenerate_interface db layout spelled.plans empty
  obtain ⟨names, code, interface, generated, generated'⟩ :=
    regenerate_again layout memoryless (Segment.ofSource source) (start.trans start'.symm)
  have before : first = _ := run_eq rfl resolved db header s
  have text := congrArg Output.source before
  have head := congrArg Output.header before
  have list := congrArg (·.report.generated) before
  dsimp only at text head list
  rw [← text] at cut resolved'
  have after : second = _ := run_eq cut resolved' db first.header s'
  have text' := congrArg Output.source after
  have head' := congrArg Output.header after
  have list' := congrArg (·.report.generated) after
  dsimp only at text' head' list'
  have free : layout.Clean fun _ => True :=
    ⟨clean.indent.inert.free, clean.newline.inert.free, clean.cursorType.inert.free⟩
  refine ⟨?_, ?_, ?_⟩
  · rw [text', code, text]
  · rw [head', interface, head]
    exact spliceHeader_again _ _ free queryType plain once
  · rw [list', list, (spliceHeader_report ..).1, (spliceHeader_report ..).1, generated, generated',
      report, report']

/-- A database that accepts every statement and has no rows. -/
def silentDatabase : Database Unit where
  write _ s := (.ok (), s)
  read _ s := (.ok [], s)

/-- A configured type, then a statement with a brace in a literal and old code to replace. -/
def sampleTokens : List Token :=
  [.comment "// @-SQLGenConfig cursor_type: Cursor", .code "\n",
    .comment "/* @-SQLGenAccess @func int f @return int n\n @sql SELECT '\x7d' n WHERE 1=:a(int) */",
    .code "\nint f() \x7b\x7d\n"]

def sampleHeader : Text :=
  "//@-SQLGenFunctionsBegin//@-SQLGenFunctionsEnd//@-SQLGenVariablesBegin//@-SQLGenVariablesEnd"

theorem sample_idempotent :
    let first := (run silentDatabase .standard (Token.join sampleTokens) sampleHeader ()).1
    let second := (run silentDatabase .standard first.source first.header ()).1
    second.source = first.source ∧ second.header = first.header ∧
      second.report.generated = first.report.generated := by
  have tokens : Token.tokenize (Token.join sampleTokens) = sampleTokens :=
    Token.tokenize_join ⟨by decide +kernel, by decide, by decide, by decide +kernel, by decide,
      by decide, trivial⟩
  have closed : ∀ token ∈ sampleTokens, token.isClosed = true := by decide +kernel
  have spelled : Spelled (Segment.ofTokens sampleTokens) := by decide +kernel
  exact run_idempotent silentDatabase (fun _ _ _ => ⟨rfl, rfl⟩) _ _ () () (tokens.symm ▸ closed)
    (by rwa [Segment.ofSource, tokens]) (by decide +kernel)

end Generation
end QueryWeaver
