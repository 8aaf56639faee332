import Mathlib
import QueryWeaver.Generation.Run
import QueryWeaver.Proofs.Access.CodeText
import QueryWeaver.Proofs.Annotation.Values
import QueryWeaver.Proofs.Signature.Spellings
/-!
What a block plans. Its names are identifiers, and its spellings stay inert when the types and the
placeholders of the annotations are.
-/

namespace QueryWeaver

theorem isWordChar_toUpper {c : Char} (word : (c.isAlphanum || c == '_') = true) :
    (c.toUpper.isAlphanum || c.toUpper == '_') = true := by
  by_cases alpha : c.isAlpha = true
  · simp [Char.isAlphanum, Char.isAlpha_toUpper_eq_isAlpha, alpha]
  · have lower : ¬c.isLower = true := fun lower => alpha (by simp [Char.isAlpha, lower])
    rwa [Char.toUpper_eq_of_not_isLower lower]

theorem CodeType.wrapper_inert {p : Char → Prop} (printable : Printable p) (type : Text) :
    InertOver p (wrapper type) := by
  have kept {c : Char} (word : (c.isAlphanum || c == '_') = true) : isInert c = true ∧ p c := by
    rcases Bool.or_eq_true_iff.mp word with alphanum | mark
    · have range := alphanum_range alphanum
      exact ⟨range.2.2.1, printable c range.1⟩
    · obtain rfl := eq_of_beq mark
      exact ⟨by decide, printable _ (by decide)⟩
  unfold wrapper
  refine .append (.ofConst printable (by decide)) ?_
  generalize stem : List.filter _ _ = l
  have words : ∀ c ∈ l, (c.isAlphanum || c == '_') = true := by
    rw [← stem]
    exact fun c member => (List.mem_filter.mp member).2
  cases l with
  | nil => simp [capitalize, InertOver]
  | cons c l =>
    intro x member
    rcases List.mem_cons.mp member with rfl | member
    · exact kept (isWordChar_toUpper (words c (by simp)))
    · exact kept (words x (by simp [member]))

namespace Shape

variable {p : Char → Prop} (printable : Printable p) {fields : List Field} {shape : Shape}

theorem recordName_eq {function type name : Text} (named : recordName function type = .ok name) :
    name = type := by
  unfold recordName at named
  split at named
  next => cases named
  next =>
    cases named
    rfl

theorem named_inert {function type : Text} {of : Text → Shape} (inert : InertOver p type)
    (spells : ∀ name, (of name).spelling = name)
    (named : (recordName function type).map of = .ok shape) : InertOver p shape.spelling := by
  cases known : recordName function type with
  | error e => simp [known, Except.map] at named
  | ok name =>
    simp only [known, Except.map, Except.ok.injEq] at named
    rw [← named, spells, recordName_eq known]
    exact inert

include printable

theorem inferCollection_inert {function inner : Text} (inert : InertOver p inner)
    (types : ∀ f ∈ fields, InertOver p f.type)
    (inferred : inferCollection function inner fields = .ok shape) :
    InertOver p shape.spelling := by
  unfold inferCollection at inferred
  split at inferred
  next => cases inferred
  next f =>
    cases inferred
    apply CodeType.stored_inert printable
    exact types f (by simp)
  next => exact named_inert inert (fun _ => rfl) inferred

theorem inferOptional_inert {function : Text} (types : ∀ f ∈ fields, InertOver p f.type)
    (inferred : inferOptional function fields = .ok shape) : InertOver p shape.spelling := by
  unfold inferOptional at inferred
  split at inferred
  next f =>
    cases inferred
    apply CodeType.stored_inert printable
    exact types f (by simp)
  next => cases inferred

theorem inferPlain_inert {function type : Text} (inert : InertOver p type)
    (types : ∀ f ∈ fields, InertOver p f.type)
    (inferred : inferPlain function type fields = .ok shape) : InertOver p shape.spelling := by
  unfold inferPlain at inferred
  split at inferred
  next =>
    cases inferred
    simp [spelling, InertOver]
  split at inferred
  next =>
    cases inferred
    simp [spelling, InertOver]
  split at inferred
  next => cases inferred
  next f =>
    split at inferred
    next =>
      cases inferred
      apply CodeType.stored_inert printable
      exact types f (by simp)
    next =>
      cases inferred
      exact CodeType.wrapper_inert printable f.type
  next => exact named_inert inert (fun _ => rfl) inferred

theorem infer_inert {s : Signature} (inferred : infer s fields = .ok shape)
    (inert : InertOver p s.returnType.spelling) (types : ∀ f ∈ fields, InertOver p f.type) :
    InertOver p shape.spelling := by
  simp only [infer] at inferred
  split at inferred
  next inner collection =>
    rw [collection] at inert
    exact inferCollection_inert printable inert types inferred
  next => exact inferOptional_inert printable types inferred
  next type plain =>
    rw [plain] at inert
    exact inferPlain_inert printable inert types inferred

end Shape

/-- A tab or a carriage return of a statement is written as an escape. -/
theorem escapeLiteral_chars (t : Text) : ∀ c ∈ escapeLiteral t, c ≠ '\r' ∧ c ≠ '\t' := by
  intro c member
  obtain ⟨x, -, escaped⟩ := List.mem_flatMap.mp member
  split_ifs at escaped with back quote feed returns tab
  · simp only [List.mem_cons, List.not_mem_nil, or_false, or_self] at escaped
    subst escaped
    decide
  all_goals try
    rcases List.mem_pair.mp escaped with rfl | rfl <;> decide
  obtain rfl := List.mem_singleton.mp escaped
  exact ⟨returns, tab⟩

/-- No quote, brace or slash stands in the types and the placeholders of the annotations. -/
structure Plan.Spelled (plan : Plan) : Prop where
  returnType : Inert plan.signature.returnType.spelling
  fields : ∀ f ∈ plan.fields, Inert f.type
  params : ∀ q ∈ plan.query.params, Inert q.type ∧ Inert q.name

instance Plan.decidableSpelled (plan : Plan) : Decidable plan.Spelled :=
  decidable_of_iff
    (Inert plan.signature.returnType.spelling ∧ (∀ f ∈ plan.fields, Inert f.type) ∧
      ∀ q ∈ plan.query.params, Inert q.type ∧ Inert q.name)
    ⟨fun ⟨returnType, fields, params⟩ => ⟨returnType, fields, params⟩,
      fun ⟨returnType, fields, params⟩ => ⟨returnType, fields, params⟩⟩

namespace Plan

theorem require_ok {α : Type} {error : Error} {value : α} {found : Option α}
    (required : require error found = .ok value) : found = some value := by
  cases found with
  | none => cases required
  | some x =>
    cases required
    rfl

/-- A planned block has closed code, and annotations that are read to the parts of the plan. -/
theorem ofBlock_parts {block : Block} {plan : Plan} (planned : ofBlock block = .ok plan) :
    block.unclosed = false ∧
    (∃ func, Dictionary.get? block.annotations "func" = some func ∧
      Signature.parse func = .ok plan.signature) ∧
    Field.parseList ((Dictionary.get? block.annotations "return").getD []) = .ok plan.fields ∧
    (∃ sql, block.annotations.nonempty? "sql" = some sql ∧
      plan.query = Placeholder.replaceAll sql) ∧
    Shape.infer plan.signature plan.fields = .ok plan.shape := by
  simp only [ofBlock, bind, Except.bind] at planned
  split at planned
  next => cases planned
  next func known =>
  split at planned
  next => cases planned
  next signature parsed =>
  split at planned
  next => cases planned
  next closed =>
  split at planned
  next => cases planned
  next fields listed =>
  split at planned
  next => cases planned
  next sql given =>
  split at planned
  next => cases planned
  next shape inferred =>
  cases planned
  exact ⟨by simpa using closed, ⟨func, require_ok known, parsed⟩, listed,
    ⟨sql, require_ok given, rfl⟩, inferred⟩

theorem ofBlock_code (block : Block) (code : Text) :
    ofBlock { block with code := code } = ofBlock block := rfl

theorem nonempty?_get {a : Annotations} {key value : Text}
    (given : a.nonempty? key = some value) : Dictionary.get? a key = some value := by
  unfold Annotations.nonempty? at given
  split at given
  next => cases given
  next => exact given

/-- A planned function is clean code as far as the values of its annotations are. -/
theorem clean {p : Char → Prop} (plain : ∀ c, c ≠ '\r' → c ≠ '\t' → p c) {block : Block}
    {plan : Plan} (planned : ofBlock block = .ok plan) (spelled : plan.Spelled)
    (values : ∀ e ∈ Dictionary.entries block.annotations, Text.Over p e.2)
    (columns : Option ColumnMap) : (Generation.accessOf plan columns).Clean p := by
  obtain ⟨-, ⟨func, known, parsed⟩, listed, ⟨sql, given, query⟩, inferred⟩ := ofBlock_parts planned
  have printable : Printable p := by
    intro c range
    refine plain c ?_ ?_
    all_goals
      rintro rfl
      exact absurd range (by decide)
  have inert {t u : Text} (inert : Inert t) (chars : Text.Over p u) (part : t ⊆ u) :
      InertOver p t := fun c member => ⟨inert c member, chars c (part member)⟩
  have funcChars := values _ (Dictionary.get?_mem known)
  have sqlChars := values _ (Dictionary.get?_mem (nonempty?_get given))
  have returnChars : Text.Over p ((Dictionary.get? block.annotations "return").getD []) := by
    cases declared : Dictionary.get? block.annotations "return" with
    | none => exact Text.over_nil
    | some value => exact values _ (Dictionary.get?_mem declared)
  obtain ⟨method, enclosing, returnType⟩ := Signature.parse_parts parsed
  have fields := Field.parseList_parts listed
  exact {
    method := method
    enclosing := by
      intro scope inside
      obtain ⟨name, named, part⟩ := enclosing scope inside
      exact (Signature.qualifiedName_inert printable named).subset part
    spelling := Shape.infer_inert printable inferred (inert spelled.returnType funcChars returnType)
      fun f member => inert (spelled.fields f member) returnChars (fields f member).2
    fields := fun f member => (fields f member).1
    params := by
      intro q member
      have parts := Placeholder.replaceAll_params sql q (query ▸ member)
      have free := spelled.params q member
      exact ⟨inert free.1 sqlChars parts.1, inert free.2 sqlChars parts.2⟩
    sql := fun c member =>
      have other := escapeLiteral_chars _ c member
      plain c other.1 other.2 }

end Plan
end QueryWeaver
