import Mathlib
import QueryWeaver.Access.Record
/-!
The registry from one registration to the next. It only grows: a record keeps its name and its
fields, and a flag that is set stays set.
-/

namespace QueryWeaver

namespace Registry

variable {registry next last : Registry} {name : Text} {needsExists : Bool} {shape : Shape}
  {fields : List Field}

/-- Every record stands under its own name. -/
def Named (registry : Registry) : Prop :=
  ∀ name record, Dictionary.get? registry name = some record → record.name = name

/-- Every record is still there with its fields, and with its flag if it had one. -/
def Grows (before after : Registry) : Prop :=
  ∀ name record, Dictionary.get? before name = some record →
    ∃ later, Dictionary.get? after name = some later ∧ later.fields = record.fields ∧
      (record.hasExists = true → later.hasExists = true)

/-- The record of that name has an existence flag. -/
def Flagged (registry : Registry) (name : Text) : Prop :=
  ∃ record, Dictionary.get? registry name = some record ∧ record.hasExists = true

theorem flagged_of_get? {record : Record} (known : Dictionary.get? registry name = some record) :
    Flagged registry name ↔ record.hasExists = true := by
  simp [Flagged, known]

theorem named_empty : Named Dictionary.empty := fun _ _ known => by cases known

theorem not_flagged_empty : ¬Flagged Dictionary.empty name := by
  intro flagged
  obtain ⟨record, found, -⟩ := flagged
  cases found

theorem Grows.refl (registry : Registry) : Grows registry registry :=
  fun _ record known => ⟨record, known, rfl, id⟩

theorem Grows.trans (first : Grows registry next) (second : Grows next last) :
    Grows registry last := by
  intro name record known
  obtain ⟨later, found, sameFields, flag⟩ := first name record known
  obtain ⟨final, found', sameFields', flag'⟩ := second name later found
  exact ⟨final, found', sameFields'.trans sameFields, flag' ∘ flag⟩

/-- What an addition puts under a name, for a name that is new and for one that is known. -/
theorem add_ok (named : Named registry) (added : add registry name needsExists fields = .ok next) :
    ∃ flag, next = Dictionary.insert registry name ⟨name, fields, flag⟩ ∧
      (flag = true ↔ Flagged registry name ∨ needsExists = true) ∧
      ∀ known, Dictionary.get? registry name = some known → known.fields = fields := by
  unfold add at added
  split at added
  next unknown =>
    cases added
    refine ⟨needsExists, rfl, ?_, ?_⟩
    · simp [Flagged, unknown]
    · intro known found
      rw [unknown] at found
      cases found
  next known found =>
    split at added
    next same =>
      cases added
      rw [named name known found]
      refine ⟨known.hasExists || needsExists, rfl, ?_, ?_⟩
      · simp [Flagged, found]
      · intro other found'
        rw [found] at found'
        cases found'
        exact same
    next => cases added

theorem insert_named (named : Named registry) (flag : Bool) :
    Named (Dictionary.insert registry name ⟨name, fields, flag⟩) := by
  intro other record found
  rw [Dictionary.get?_insert] at found
  split at found
  next same =>
    cases found
    exact same
  next => exact named other record found

theorem insert_grows {flag : Bool}
    (kept : ∀ known, Dictionary.get? registry name = some known →
      known.fields = fields ∧ (known.hasExists = true → flag = true)) :
    Grows registry (Dictionary.insert registry name ⟨name, fields, flag⟩) := by
  intro other record found
  rw [Dictionary.get?_insert]
  split
  next same =>
    subst same
    obtain ⟨sameFields, kept⟩ := kept record found
    exact ⟨_, rfl, sameFields.symm, kept⟩
  next => exact ⟨record, found, rfl, id⟩

theorem register_grows (named : Named registry)
    (registered : register registry shape fields = .ok next) :
    Named next ∧ Grows registry next := by
  unfold register at registered
  split at registered
  next =>
    cases registered
    exact ⟨named, .refl _⟩
  next =>
    obtain ⟨flag, rfl, set, same⟩ := add_ok named registered
    refine ⟨insert_named named flag, insert_grows ?_⟩
    intro known found
    exact ⟨same known found, fun flagged => set.mpr (.inl ⟨known, found, flagged⟩)⟩

/-- A successful registration leaves the record that the shape needs. -/
theorem register_provides (named : Named registry)
    (registered : register registry shape fields = .ok next)
    (needed : shape.record? = some (name, needsExists)) :
    ∃ record, Dictionary.get? next name = some record ∧
      record.fields = shape.recordFields fields ∧
      (needsExists = true → record.hasExists = true) := by
  simp only [register, needed] at registered
  obtain ⟨flag, rfl, set, -⟩ := add_ok named registered
  exact ⟨⟨name, shape.recordFields fields, flag⟩, by rw [Dictionary.get?_insert, if_pos rfl], rfl,
    fun needs => set.mpr (.inr needs)⟩

/-- A registration sets the flag of a shape that needs it, and no other. -/
theorem register_flagged (named : Named registry)
    (registered : register registry shape fields = .ok next) :
    Flagged next name ↔ Flagged registry name ∨ shape.record? = some (name, true) := by
  unfold register at registered
  split at registered
  next recordless =>
    cases registered
    simp [recordless]
  next other needsExists needed =>
    obtain ⟨flag, rfl, set, -⟩ := add_ok named registered
    rw [needed, Flagged, Dictionary.get?_insert]
    by_cases same : other = name
    · subst same
      simp [set]
    · simp [same, Flagged]

end Registry
end QueryWeaver
