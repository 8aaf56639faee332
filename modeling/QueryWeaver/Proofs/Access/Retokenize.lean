import QueryWeaver.Access.LayoutOption
import QueryWeaver.Proofs.Access.CodeText
import QueryWeaver.Proofs.Signature.Spellings
/-!
Generated code read back by the source scans. For any statement text it is one code token, and a
scan for the function at the head of a text gives back exactly the generated one.
-/

namespace QueryWeaver

/-- Names are identifiers and spellings of types are inert. The statement is free. -/
structure Access.WellSpelled (a : Access) : Prop where
  method : Spelling.isIdentifier a.signature.method = true
  enclosing : ∀ scope ∈ a.signature.enclosing, Signature.isQualifiedName scope = true
  fields : ∀ f ∈ a.fields, Spelling.isIdentifier f.name = true
  shape : Inert a.shape.spelling
  params : ∀ q ∈ a.query.params, Inert q.type ∧ Inert q.name

theorem Access.WellSpelled.clean {a : Access} (spelled : a.WellSpelled) :
    a.Clean fun _ => True where
  method := Spelling.isIdentifier_all spelled.method
  enclosing scope known :=
    Signature.qualifiedName_inert (fun _ _ => trivial) (spelled.enclosing scope known)
  spelling := spelled.shape.free
  fields f member := Spelling.isIdentifier_all (spelled.fields f member)
  params q member := ⟨(spelled.params q member).1.free, (spelled.params q member).2.free⟩
  sql _ _ := trivial

/-- The indents and line terminators that options can set. -/
def LayoutOption.Spacing : LayoutOption → Prop
  | indent text => text = Layout.tab ∨ ∃ n, text = Layout.spaces n
  | newline text => text = Layout.lf ∨ text = Layout.crlf
  | _ => True

theorem LayoutOption.indent?_spacing {value text : Text} (h : indent? value = some text) :
    (indent text).Spacing := by
  simp only [indent?] at h
  split at h
  next => exact .inl (Option.some.inj h).symm
  next =>
    obtain ⟨rest, -, h⟩ := Option.bind_eq_some_iff.mp h
    obtain ⟨n, -, h⟩ := Option.bind_eq_some_iff.mp h
    exact .inr ⟨n, (Option.some.inj h).symm⟩

theorem LayoutOption.newline?_spacing {value text : Text} (h : newline? value = some text) :
    (newline text).Spacing := by
  simp only [newline?] at h
  split at h
  next => exact .inl (Option.some.inj h).symm
  next =>
    split at h
    next => exact .inr (Option.some.inj h).symm
    next => simp at h

theorem LayoutOption.parse_spacing {written value : Text} {option : LayoutOption}
    (h : parse written value = .ok option) : option.Spacing := by
  simp only [parse] at h
  split at h
  next =>
    split at h
    next text known =>
      obtain rfl := Except.ok.inj h
      exact indent?_spacing known
    next => cases h
  split at h
  next =>
    split at h
    next text known =>
      obtain rfl := Except.ok.inj h
      exact newline?_spacing known
    next => cases h
  split at h
  next =>
    split at h
    next => cases h
    next =>
      obtain rfl := Except.ok.inj h
      trivial
  split at h
  next =>
    split at h
    next => cases h
    next =>
      obtain rfl := Except.ok.inj h
      trivial
  next => cases h

namespace Layout

/-- The layouts that a source and its configuration blocks can lead to. -/
inductive Reachable : Layout → Prop
  | sniff (source : Text) (types : Collaborators) : Reachable (sniff source types)
  | apply {layout : Layout} (annotations : Annotations) (reachable : Reachable layout) :
      Reachable (layout.apply annotations).1

def Spaced (layout : Layout) : Prop :=
  (LayoutOption.indent layout.indent).Spacing ∧ (LayoutOption.newline layout.newline).Spacing

theorem Spaced.set {layout : Layout} (spaced : layout.Spaced) {option : LayoutOption}
    (spacing : option.Spacing) : (layout.set option).Spaced := by
  cases option with
  | indent text => exact ⟨spacing, spaced.2⟩
  | newline text => exact ⟨spaced.1, spacing⟩
  | queryType name => exact spaced
  | cursorType name => exact spaced

theorem Spaced.applyOptions {layout : Layout} (spaced : layout.Spaced)
    (options : List (Text × Text)) : (layout.applyOptions options).1.Spaced := by
  fun_induction layout.applyOptions options with
  | case1 => exact spaced
  | case2 layout key value r option parsed ih =>
    exact ih (spaced.set (LayoutOption.parse_spacing parsed))
  | case3 layout key value r warning parsed last warnings rest ih =>
    simpa [rest] using ih spaced

theorem Reachable.spaced {layout : Layout} (reachable : layout.Reachable) : layout.Spaced := by
  induction reachable with
  | sniff source types =>
    constructor
    · by_cases tabs : source.any (· == '\t') = true
      · exact .inl (by simp [Layout.sniff, tabs])
      · exact .inr ⟨4, by simp [Layout.sniff, tabs]⟩
    · by_cases returns : Text.contains crlf source = true
      · exact .inr (by simp [Layout.sniff, returns])
      · exact .inl (by simp [Layout.sniff, returns])
  | apply annotations _ ih => exact ih.applyOptions _

theorem Spaced.indent_inert {layout : Layout} (spaced : layout.Spaced) : Inert layout.indent := by
  rcases spaced.1 with tab | ⟨n, spaces⟩
  · rw [tab]
    decide
  · rw [spaces]
    intro c member
    rw [List.eq_of_mem_replicate member]
    decide

theorem Spaced.newline_inert {layout : Layout} (spaced : layout.Spaced) :
    Inert layout.newline := by
  rcases spaced.2 with feed | returns
  · rw [feed]
    decide
  · rw [returns]
    decide

end Layout

theorem Access.generate_function {a : Access} {i next : Interface} {f : GeneratedFunction}
    (generated : a.generate i = .ok (f, next)) :
    f = a.function next.records ∧ Registry.register i.records a.shape a.fields = .ok next.records ∧
      next.prototypes = i.prototypes ++ [a.prototype] ∧
      next.members = Interface.addMember i.members a.member := by
  unfold Access.generate at generated
  cases registered : Registry.register i.records a.shape a.fields with
  | error e => simp [registered, bind, Except.bind] at generated
  | ok records =>
    simp only [registered, bind, Except.bind, pure, Except.pure, Except.ok.injEq,
      Prod.mk.injEq] at generated
    obtain ⟨rfl, rfl⟩ := generated
    exact ⟨rfl, rfl, rfl, rfl⟩

/-- Code generated for any statement is one code token, and the scan for a function cuts it back
off whatever follows. -/
theorem generated_one_token {a : Access} {layout : Layout} {i next : Interface}
    {f : GeneratedFunction} (reachable : layout.Reachable) (spelled : a.WellSpelled)
    (cursor : Inert layout.cursorType) (generated : a.generate i = .ok (f, next)) :
    Token.tokenize (f.render layout) = [.code (f.render layout)] ∧
      ∀ r, Stub.split? (f.render layout ++ r) = some (f.render layout, r) := by
  obtain ⟨rfl, -⟩ := Access.generate_function generated
  have printable : Printable fun _ => True := fun _ _ => trivial
  have layoutClean : layout.Clean fun _ => True :=
    ⟨reachable.spaced.indent_inert.free, reachable.spaced.newline_inert.free, cursor.free⟩
  have function := GeneratedFunction.render_isFunction printable layoutClean
    (spelled.clean.function printable next.records)
  exact ⟨function.tokenize, function.split?_append⟩

/-- A statement with quotes, braces, comment openers, a line feed and a backslash at its end. -/
def Access.sample : Access where
  signature := ⟨.plain "User", some "app::Users", "byName"⟩
  fields := [⟨"int64", "id"⟩, ⟨"string", "name"⟩]
  query := ⟨"SELECT id, '\x7b' AS name -- \"//\n FROM t /* \x7d */ WHERE n=? \\", [⟨"string", "n"⟩]⟩
  shape := .condRecord "User"
  columns := some ⟨["id"]⟩

theorem sample_one_token :
    Access.sample.WellSpelled ∧ ∃ f next, Access.sample.generate .empty = .ok (f, next) ∧
      Token.tokenize (f.render .standard) = [.code (f.render .standard)] ∧
      ∀ r, Stub.split? (f.render .standard ++ r) = some (f.render .standard, r) := by
  have spelled : Access.sample.WellSpelled :=
    { method := by decide
      enclosing := by decide
      fields := by decide
      shape := by decide
      params := by decide }
  have reachable : Layout.standard.Reachable := .sniff ['\t', '\r', '\n'] .standard
  obtain ⟨f, next, generated⟩ : ∃ f next, Access.sample.generate .empty = .ok (f, next) :=
    ⟨_, _, rfl⟩
  exact ⟨spelled, f, next, generated, generated_one_token reachable spelled (by decide) generated⟩

end QueryWeaver
