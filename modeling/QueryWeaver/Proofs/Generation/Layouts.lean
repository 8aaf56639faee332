import Mathlib
import QueryWeaver.Generation.Run
import QueryWeaver.Proofs.Access.Retokenize
import QueryWeaver.Proofs.Annotation.Values
import QueryWeaver.Proofs.Source.Rewritten
/-!
The layout of a run as a fold of options over the sniffed layout. It depends on the source through
its configuration blocks, and on whether the source has a tab and a line terminator of two
characters.
-/

namespace QueryWeaver

namespace Text

theorem contains_crlf (t : Text) : contains Layout.crlf t = false ↔ Token.FeedsOnly t := by
  have none : contains Layout.crlf t = false ↔ cut Layout.crlf t = none := by
    simp [contains]
  rw [none]
  constructor
  · intro missing
    induction t with
    | nil => exact .nil
    | cons c t ih =>
      refine List.isChain_cons.mpr ⟨?_, ih (by simp [contains]) (cut_none_right (t := [c]) missing)⟩
      rintro d head ⟨rfl, rfl⟩
      obtain ⟨r, rfl⟩ := List.head?_eq_some_iff.mp head
      rw [← List.singleton_append, ← List.singleton_append (l := r), ← List.append_assoc] at missing
      rw [show ['\r'] ++ ['\n'] = Layout.crlf from rfl, cut_prefix] at missing
      cases missing
  · intro feeds
    cases found : cut Layout.crlf t with
    | none => rfl
    | some parts =>
      obtain ⟨a, b⟩ := parts
      rw [cut_append found, List.append_assoc] at feeds
      have inside : Token.FeedsOnly (Layout.crlf ++ b) := feeds.right_of_append
      have pair := (List.isChain_cons.mp inside).1 '\n' rfl
      exact absurd ⟨rfl, rfl⟩ pair

end Text

/-- The options that a configuration block gives, in the order they apply. -/
def LayoutOption.ofAnnotations (a : Annotations) : List LayoutOption :=
  (keyed a ++ inline a).filterMap fun e => (parse e.1 e.2).toOption

/-- The type that an option names. -/
def LayoutOption.typeName? : LayoutOption → Option Text
  | queryType name => some name
  | cursorType name => some name
  | _ => none

/-- No quote, brace or slash stands in the name of a type. -/
def LayoutOption.Spelled (option : LayoutOption) : Prop :=
  ∀ name, option.typeName? = some name → Inert name

instance LayoutOption.decidableSpelled (option : LayoutOption) : Decidable option.Spelled :=
  decidable_of_iff (∀ name ∈ option.typeName?, Inert name) Iff.rfl

theorem LayoutOption.parse_typeName? {written value name : Text} {option : LayoutOption}
    (read : parse written value = .ok option) (named : option.typeName? = some name) :
    name = value := by
  simp only [parse] at read
  split at read
  next =>
    split at read
    all_goals
      cases read
      try cases named
  split at read
  next =>
    split at read
    all_goals
      cases read
      try cases named
  split at read
  next =>
    split at read
    next => cases read
    next =>
      cases read
      exact (Option.some.inj named).symm
  split at read
  next =>
    split at read
    next => cases read
    next =>
      cases read
      exact (Option.some.inj named).symm
  next => cases read

theorem LayoutOption.ofAnnotations_chars {p : Char → Prop} {a : Annotations}
    (values : ∀ e ∈ Dictionary.entries a, Text.Over p e.2) {option : LayoutOption} {name : Text}
    (member : option ∈ ofAnnotations a) (named : option.typeName? = some name) :
    Text.Over p name := by
  obtain ⟨e, known, read⟩ := List.mem_filterMap.mp member
  have same : name = e.2 := by
    cases parsed : parse e.1 e.2 with
    | error warning => simp [parsed, Except.toOption] at read
    | ok option' =>
      obtain rfl : option' = option := by simpa [parsed, Except.toOption] using read
      exact parse_typeName? parsed named
  rw [same]
  rcases List.mem_append.mp known with keyed | inline
  · exact values e (List.mem_of_mem_filter keyed)
  · obtain ⟨item, piece, cut⟩ := List.mem_filterMap.mp inline
    obtain ⟨⟨key, value⟩, found, rfl⟩ := Option.map_eq_some_iff.mp cut
    have part : Text.trim value ⊆ item := by
      intro c inside
      rw [Text.cut_append found]
      exact List.mem_append_right _ (Text.trimBy_subset _ _ inside)
    cases given : Dictionary.get? a Directive.config.key with
    | none =>
      rw [given] at piece
      obtain rfl : item = [] := by simpa [Text.pieces] using piece
      exact Text.over_nil.subset part
    | some text =>
      rw [given] at piece
      exact ((values _ (Dictionary.get?_mem given)).subset (Text.pieces_subset item piece)).subset
        part

namespace Layout

theorem applyOptions_foldl (layout : Layout) (options : List (Text × Text)) :
    (layout.applyOptions options).1 =
      (options.filterMap fun e => (LayoutOption.parse e.1 e.2).toOption).foldl set layout := by
  fun_induction layout.applyOptions options with
  | case1 => rfl
  | case2 layout key value r option parsed ih =>
    rw [List.filterMap_cons_some (by simp [parsed, Except.toOption]; rfl)]
    exact ih
  | case3 layout key value r warning parsed last warnings rest ih =>
    rw [rest] at ih
    rw [List.filterMap_cons_none (by simp [parsed, Except.toOption])]
    exact ih

/-- Options either leave a field or fix it, whatever it was before. -/
theorem foldl_set_field {α : Type} (field : Layout → α)
    (one : ∀ option : LayoutOption, (∀ layout : Layout, field (layout.set option) = field layout) ∨
      ∀ a b : Layout, field (a.set option) = field (b.set option))
    (options : List LayoutOption) :
    (∀ layout : Layout, field (options.foldl set layout) = field layout) ∨
      ∀ a b : Layout, field (options.foldl set a) = field (options.foldl set b) := by
  induction options using List.reverseRecOn with
  | nil => exact .inl fun _ => rfl
  | append_singleton options option ih =>
    simp only [List.foldl_append, List.foldl_cons, List.foldl_nil]
    rcases one option with leaves | fixes
    · simpa only [leaves] using ih
    · exact .inr fun a b => fixes _ _

theorem foldl_set_indent (options : List LayoutOption) :
    (∀ layout : Layout, (options.foldl set layout).indent = layout.indent) ∨
      ∀ a b : Layout, (options.foldl set a).indent = (options.foldl set b).indent :=
  foldl_set_field indent (fun option => by cases option <;> simp [set]) options

theorem foldl_set_newline (options : List LayoutOption) :
    (∀ layout : Layout, (options.foldl set layout).newline = layout.newline) ∨
      ∀ a b : Layout, (options.foldl set a).newline = (options.foldl set b).newline :=
  foldl_set_field newline (fun option => by cases option <;> simp [set]) options

theorem foldl_set_types (options : List LayoutOption) {a b : Layout}
    (query : a.queryType = b.queryType) (cursor : a.cursorType = b.cursorType) :
    (options.foldl set a).queryType = (options.foldl set b).queryType ∧
      (options.foldl set a).cursorType = (options.foldl set b).cursorType := by
  induction options generalizing a b with
  | nil => exact ⟨query, cursor⟩
  | cons option options ih => apply ih <;> cases option <;> simp [set, query, cursor]

/-- A property of the types that the options name holds of the types of the layout. -/
theorem foldl_set_keeps {P : Text → Prop} (layout : Layout) {options : List LayoutOption}
    (start : P layout.queryType ∧ P layout.cursorType)
    (each : ∀ option ∈ options, ∀ name, option.typeName? = some name → P name) :
    P (options.foldl set layout).queryType ∧ P (options.foldl set layout).cursorType := by
  induction options generalizing layout with
  | nil => exact start
  | cons option options ih =>
    refine ih _ ?_ fun o member => each o (List.mem_cons_of_mem option member)
    have here := each option (List.mem_cons_self ..)
    cases option with
    | indent text => exact start
    | newline text => exact start
    | queryType name => exact ⟨here name rfl, start.2⟩
    | cursorType name => exact ⟨start.1, here name rfl⟩

end Layout

namespace Generation

/-- The options of all configuration blocks, in file order. -/
def configOptions (segments : List Segment) : List LayoutOption :=
  (blocksFor .config segments).flatMap fun b => LayoutOption.ofAnnotations b.annotations

theorem resolveLayout_foldl (types : Collaborators) (source : Text) (segments : List Segment) :
    (resolveLayout types source segments).1 =
      (configOptions segments).foldl Layout.set (Layout.sniff source types) := by
  unfold resolveLayout configOptions
  rw [List.foldl_flatMap]
  refine (List.foldl_hom Prod.fst fun start block => ?_).symm
  rw [LayoutOption.ofAnnotations, ← Layout.applyOptions_foldl]
  rfl

theorem resolveLayout_reachable (types : Collaborators) (source : Text)
    (segments : List Segment) : (resolveLayout types source segments).1.Reachable := by
  unfold resolveLayout
  apply List.foldlRecOn (motive := fun (start : Layout × List Text) => start.1.Reachable)
  · exact .sniff source types
  · intro start reachable block _
    exact reachable.apply block.annotations

/-- Two sources with the same options have the same layout if they agree on what was not set. -/
theorem resolveLayout_congr {types : Collaborators} {source source' : Text}
    {segments segments' : List Segment} (options : configOptions segments = configOptions segments')
    (tab : (resolveLayout types source segments).1.indent = (Layout.sniff source types).indent →
      (Layout.sniff source' types).indent = (Layout.sniff source types).indent)
    (crlf : (resolveLayout types source segments).1.newline = (Layout.sniff source types).newline →
      (Layout.sniff source' types).newline = (Layout.sniff source types).newline) :
    (resolveLayout types source' segments').1 = (resolveLayout types source segments).1 := by
  rw [resolveLayout_foldl] at tab crlf
  rw [resolveLayout_foldl, resolveLayout_foldl, ← options]
  have names := Layout.foldl_set_types (configOptions segments)
    (a := Layout.sniff source' types) (b := Layout.sniff source types) rfl rfl
  have indent : ((configOptions segments).foldl Layout.set (Layout.sniff source' types)).indent =
      ((configOptions segments).foldl Layout.set (Layout.sniff source types)).indent := by
    rcases Layout.foldl_set_indent (configOptions segments) with leaves | fixes
    · rw [leaves, leaves, tab (leaves _)]
    · exact fixes _ _
  have newline : ((configOptions segments).foldl Layout.set (Layout.sniff source' types)).newline =
      ((configOptions segments).foldl Layout.set (Layout.sniff source types)).newline := by
    rcases Layout.foldl_set_newline (configOptions segments) with leaves | fixes
    · rw [leaves, leaves, crlf (leaves _)]
    · exact fixes _ _
  generalize (configOptions segments).foldl Layout.set (Layout.sniff source' types) = x at *
  generalize (configOptions segments).foldl Layout.set (Layout.sniff source types) = y at *
  cases x
  cases y
  simp_all

end Generation
end QueryWeaver
