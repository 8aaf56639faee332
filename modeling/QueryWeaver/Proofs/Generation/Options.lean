import Mathlib
import QueryWeaver.Proofs.Generation.Layouts
/-!
What becomes of the options of a configuration block. Each is applied or gives one warning, but for
an item without a colon, which is passed over. A field of the layout has the last value applied to
it, so applying the options again changes nothing.
-/

namespace QueryWeaver

/-- A field of a layout that options set. -/
inductive LayoutField where
  | indent
  | newline
  | queryType
  | cursorType
  deriving DecidableEq, Repr

namespace LayoutField

def key : LayoutField → Text
  | indent => "tab"
  | newline => "newline"
  | queryType => "query_type"
  | cursorType => "cursor_type"

def get : LayoutField → Layout → Text
  | indent, layout => layout.indent
  | newline, layout => layout.newline
  | queryType, layout => layout.queryType
  | cursorType, layout => layout.cursorType

/-- The text that the value of an option stands for. -/
def read? : LayoutField → Text → Option Text
  | indent, value => LayoutOption.indent? value
  | newline, value => LayoutOption.newline? value
  | queryType, value => if value.isEmpty then none else some value
  | cursorType, value => if value.isEmpty then none else some value

/-- The option that gives the field a text. -/
def option : LayoutField → Text → LayoutOption
  | indent => .indent
  | newline => .newline
  | queryType => .queryType
  | cursorType => .cursorType

/-- The warning about a value that the field cannot read. -/
def refusal : LayoutField → Text → LayoutWarning
  | indent, value => .unsupportedTab value
  | newline, value => .unsupportedNewline value
  | queryType, _ => .missingTypeName queryType.key
  | cursorType, _ => .missingTypeName cursorType.key

theorem key_inj {field field' : LayoutField} (same : field.key = field'.key) : field = field' := by
  revert same
  cases field <;> cases field' <;> decide

/-- Layouts with the same fields are the same. -/
theorem ext_get {layout layout' : Layout} (same : ∀ field, get field layout = get field layout') :
    layout = layout' := by
  obtain ⟨indent, newline, queryType, cursorType⟩ := layout
  obtain ⟨indent', newline', queryType', cursorType'⟩ := layout'
  obtain rfl : indent = indent' := same .indent
  obtain rfl : newline = newline' := same .newline
  obtain rfl : queryType = queryType' := same .queryType
  obtain rfl : cursorType = cursorType' := same .cursorType
  rfl

end LayoutField

namespace LayoutOption

variable {written value : Text}

def field : LayoutOption → LayoutField
  | indent _ => .indent
  | newline _ => .newline
  | queryType _ => .queryType
  | cursorType _ => .cursorType

def text : LayoutOption → Text
  | indent text => text
  | newline text => text
  | queryType name => name
  | cursorType name => name

theorem option_eq {field : LayoutField} {text : Text} {o : LayoutOption} :
    field.option text = o ↔ field = o.field ∧ text = o.text := by
  cases field <;> cases o <;> simp [LayoutField.option, LayoutOption.field, LayoutOption.text]

/-- An option for the field, whose value is not yet read. -/
def readFor (field : LayoutField) (value : Text) : Except LayoutWarning LayoutOption :=
  match field.read? value with
  | some text => .ok (field.option text)
  | none => .error (field.refusal value)

theorem parse_field {field : LayoutField} (named : Text.trimEnd (· == ':') written = field.key) :
    parse written value = readFor field value := by
  dsimp only [parse]
  rw [named]
  cases field with
  | indent => exact if_pos rfl
  | newline => exact (if_neg (by decide)).trans (if_pos rfl)
  | queryType =>
    refine (if_neg (by decide)).trans ((if_neg (by decide)).trans ((if_pos rfl).trans ?_))
    cases value <;> rfl
  | cursorType =>
    refine (if_neg (by decide)).trans ((if_neg (by decide)).trans ((if_neg (by decide)).trans
      ((if_pos rfl).trans ?_)))
    cases value <;> rfl

theorem parse_unknown
    (unknown : ∀ field : LayoutField, Text.trimEnd (· == ':') written ≠ field.key) :
    parse written value = .error (.unknownOption (Text.trimEnd (· == ':') written)) :=
  (if_neg (unknown .indent)).trans <| (if_neg (unknown .newline)).trans <|
    (if_neg (unknown .queryType)).trans (if_neg (unknown .cursorType))

/-- An option is applied if its key is that of a field and its value one that the field can read. -/
theorem parse_eq_ok {o : LayoutOption} :
    parse written value = .ok o ↔
      Text.trimEnd (· == ':') written = o.field.key ∧ o.field.read? value = some o.text := by
  by_cases known : ∃ field : LayoutField, Text.trimEnd (· == ':') written = field.key
  · obtain ⟨field, named⟩ := known
    rw [parse_field named, named, readFor]
    constructor
    · intro parsed
      split at parsed
      next text read =>
        obtain ⟨rfl, rfl⟩ := option_eq.mp (Except.ok.inj parsed)
        exact ⟨rfl, read⟩
      next => cases parsed
    · rintro ⟨same, read⟩
      obtain rfl := LayoutField.key_inj same
      rw [read]
      exact congrArg Except.ok (option_eq.mpr ⟨rfl, rfl⟩)
  · have unknown : ∀ field : LayoutField, Text.trimEnd (· == ':') written ≠ field.key :=
      not_exists.mp known
    rw [parse_unknown unknown]
    constructor
    · intro parsed
      cases parsed
    · rintro ⟨named, -⟩
      exact absurd named (unknown _)

/-- The warning about an option that does not parse. -/
def warning? (written value : Text) : Option LayoutWarning :=
  match parse written value with
  | .ok _ => none
  | .error warning => some warning

end LayoutOption

namespace Layout

variable {layout : Layout} {options : List LayoutOption} {field : LayoutField}

theorem get_set (o : LayoutOption) :
    field.get (layout.set o) = if o.field = field then o.text else field.get layout := by
  cases o <;> cases field <;> rfl

/-- A field has the text of the last option for it. -/
theorem get_foldl_set :
    field.get (options.foldl set layout) =
      ((options.filter fun o => o.field = field).getLast?.map LayoutOption.text).getD
        (field.get layout) := by
  induction options using List.reverseRecOn with
  | nil => rfl
  | append_singleton options o ih =>
    rw [List.foldl_append, List.foldl_cons, List.foldl_nil, get_set, List.filter_append]
    by_cases own : o.field = field
    · simp [own]
    · simp [own, ih]

/-- Options that have been applied change nothing when they are applied again. -/
theorem foldl_set_again :
    options.foldl set (options.foldl set layout) = options.foldl set layout := by
  apply LayoutField.ext_get
  intro field
  rw [get_foldl_set, get_foldl_set]
  cases (options.filter fun o => o.field = field).getLast? <;> rfl

/-- The warnings are those of the options that do not parse, in the order of the options. -/
theorem applyOptions_warnings (layout : Layout) (options : List (Text × Text)) :
    (layout.applyOptions options).2 =
      options.filterMap fun e => LayoutOption.warning? e.1 e.2 := by
  fun_induction layout.applyOptions options with
  | case1 => rfl
  | case2 layout key value r option parsed ih =>
    rw [List.filterMap_cons_none (by simp [LayoutOption.warning?, parsed])]
    exact ih
  | case3 layout key value r warning parsed last warnings rest ih =>
    rw [rest] at ih
    rw [List.filterMap_cons_some (by simp [LayoutOption.warning?, parsed]; rfl)]
    exact congrArg (warning :: ·) ih

end Layout

/-- An option as its block has it: an entry of its own, or an item behind the directive. -/
inductive WrittenOption where
  | entry (key value : Text)
  | item (text : Text)
  deriving DecidableEq, Repr

namespace WrittenOption

/-- The items behind the directive that are not blank. -/
def items (a : Annotations) : List Text :=
  (Text.pieces ',' ((Dictionary.get? a Directive.config.key).getD [])).filter fun item =>
    item.any fun c => !isBlank c

/-- The options of a block: entries whose key is no directive in key order, then items. -/
def ofAnnotations (a : Annotations) : List WrittenOption :=
  ((LayoutOption.keyed a).map fun e => entry e.1 e.2) ++ (items a).map item

/-- The key and the value of an option. An item without a colon has none. -/
def parts? : WrittenOption → Option (Text × Text)
  | entry key value => some (key, value)
  | item text => (Text.cut [':'] text).map fun (key, value) => (Text.trim key, Text.trim value)

/-- What an option sets, if it is applied. -/
def applied? (w : WrittenOption) : Option LayoutOption :=
  w.parts?.bind fun parts => (LayoutOption.parse parts.1 parts.2).toOption

def warning? (w : WrittenOption) : Option LayoutWarning :=
  w.parts?.bind fun parts => LayoutOption.warning? parts.1 parts.2

/-- An item without a colon. -/
def Bare (w : WrittenOption) : Prop := ∃ text, w = item text ∧ ':' ∉ text

variable {w : WrittenOption}

theorem parts?_eq_none : w.parts? = none ↔ w.Bare := by
  cases w with
  | entry key value => simp [parts?, Bare]
  | item text => simp [parts?, Bare, Text.cut_eq_none_iff, List.singleton_infix_iff]

theorem applied?_eq_some {o : LayoutOption} :
    w.applied? = some o ↔ ∃ written value, w.parts? = some (written, value) ∧
      Text.trimEnd (· == ':') written = o.field.key ∧ o.field.read? value = some o.text := by
  have parsed (written value : Text) :
      (LayoutOption.parse written value).toOption = some o ↔
        Text.trimEnd (· == ':') written = o.field.key ∧ o.field.read? value = some o.text := by
    rw [← LayoutOption.parse_eq_ok]
    cases LayoutOption.parse written value <;> simp [Except.toOption]
  simp only [applied?, Option.bind_eq_some_iff, Prod.exists, parsed]

/-- An option is applied or gives a warning, but for a bare item, which does neither. -/
theorem settled : (w.applied?.isSome ∧ w.warning? = none ∧ ¬w.Bare) ∨
    (w.applied? = none ∧ w.warning?.isSome ∧ ¬w.Bare) ∨
      (w.applied? = none ∧ w.warning? = none ∧ w.Bare) := by
  rw [← parts?_eq_none]
  unfold applied? warning?
  cases w.parts? with
  | none => exact .inr (.inr ⟨rfl, rfl, rfl⟩)
  | some parts =>
    cases parsed : LayoutOption.parse parts.1 parts.2 with
    | ok o => exact .inl (by simp [parsed, LayoutOption.warning?, Except.toOption])
    | error warning =>
      exact .inr (.inl (by simp [parsed, LayoutOption.warning?, Except.toOption]))

/-- A blank item has no colon, so it makes no difference that it is no option. -/
theorem filterMap_parts? (a : Annotations) :
    (ofAnnotations a).filterMap parts? = LayoutOption.keyed a ++ LayoutOption.inline a := by
  have entries : ((LayoutOption.keyed a).map fun e => entry e.1 e.2).filterMap parts? =
      LayoutOption.keyed a := by
    rw [List.filterMap_map]
    exact List.filterMap_some
  have inline : ((items a).map item).filterMap parts? = LayoutOption.inline a := by
    rw [List.filterMap_map, items, List.filterMap_filter, LayoutOption.inline]
    refine List.filterMap_congr fun text _ => ?_
    split
    next => rfl
    next blank =>
      have missing : ':' ∉ text := fun inside => blank (List.any_eq_true.mpr ⟨':', inside, rfl⟩)
      exact (parts?_eq_none.mpr ⟨text, rfl, missing⟩).symm
  rw [ofAnnotations, List.filterMap_append, entries, inline]

end WrittenOption

namespace Layout

open WrittenOption (ofAnnotations)

variable (layout : Layout) (a : Annotations)

theorem apply_layout :
    (layout.apply a).1 = ((ofAnnotations a).filterMap WrittenOption.applied?).foldl set layout := by
  have applied : WrittenOption.applied? = fun w : WrittenOption =>
      w.parts?.bind fun parts => (LayoutOption.parse parts.1 parts.2).toOption := rfl
  rw [applied, ← List.filterMap_filterMap, WrittenOption.filterMap_parts?]
  exact applyOptions_foldl layout _

theorem apply_warnings :
    (layout.apply a).2 = (ofAnnotations a).filterMap WrittenOption.warning? := by
  have warning : WrittenOption.warning? = fun w : WrittenOption =>
      w.parts?.bind fun parts => LayoutOption.warning? parts.1 parts.2 := rfl
  rw [warning, ← List.filterMap_filterMap, WrittenOption.filterMap_parts?]
  exact applyOptions_warnings layout _

/-- Each option of a block is applied to its field or gives one warning, but for an item without a
colon. A field has the text of the last option applied to it, keys in order before items, and keeps
its own if there is none. The same block, applied again, changes nothing and warns the same. -/
theorem apply_options :
    ((LayoutOption.keyed a).Pairwise fun e e' => Text.precedes e.1 e'.1 = true) ∧
      (∀ w : WrittenOption,
        (∀ o, w.applied? = some o ↔ ∃ written value, w.parts? = some (written, value) ∧
          Text.trimEnd (· == ':') written = o.field.key ∧ o.field.read? value = some o.text) ∧
        ((w.applied?.isSome ∧ w.warning? = none ∧ ¬w.Bare) ∨
          (w.applied? = none ∧ w.warning?.isSome ∧ ¬w.Bare) ∨
            (w.applied? = none ∧ w.warning? = none ∧ w.Bare))) ∧
      (layout.apply a).2 = (ofAnnotations a).filterMap WrittenOption.warning? ∧
      (∀ field : LayoutField, field.get (layout.apply a).1 =
        ((((ofAnnotations a).filterMap WrittenOption.applied?).filter
          fun o => o.field = field).getLast?.map LayoutOption.text).getD (field.get layout)) ∧
      (layout.apply a).1.apply a = layout.apply a := by
  refine ⟨List.Pairwise.filter _ a.sorted,
    fun w => ⟨fun o => WrittenOption.applied?_eq_some, WrittenOption.settled⟩,
    apply_warnings layout a, fun field => ?_, ?_⟩
  · rw [apply_layout]
    exact get_foldl_set
  · apply Prod.ext
    · rw [apply_layout, apply_layout]
      exact foldl_set_again
    · rw [apply_warnings, apply_warnings]

/-- An item without a colon is passed over. -/
theorem bare_item_lost :
    let a : Annotations := Dictionary.ofList [(Directive.config.key, "newline unix")]
    ofAnnotations a = [.item "newline unix"] ∧ standard.apply a = (standard, []) := by
  decide +kernel

end Layout
end QueryWeaver
