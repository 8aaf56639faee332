import Mathlib
import QueryWeaver.Annotation.Comment
import QueryWeaver.Proofs.Text.Parts
/-!
The values of a comment's annotations. Their characters come from the comment, but for the spaces
that join lines, and none of them is a carriage return.
-/

namespace QueryWeaver

namespace Dictionary

variable {α : Type}

theorem lookup_mem {key : Text} {value : α} {l : List (Text × α)}
    (found : lookup key l = some value) : (key, value) ∈ l := by
  induction l with
  | nil => cases found
  | cons e l ih =>
    obtain ⟨k, v⟩ := e
    rw [lookup] at found
    split at found
    next same =>
      cases found
      exact same ▸ List.mem_cons_self ..
    next => exact List.mem_cons_of_mem _ (ih found)

theorem get?_mem {d : Dictionary α} {key : Text} {value : α} (found : d.get? key = some value) :
    (key, value) ∈ d.entries :=
  lookup_mem found

theorem mem_ofList {l : List (Text × α)} {e : Text × α} (member : e ∈ (ofList l).entries) :
    e ∈ l := by
  revert e
  unfold ofList
  apply List.foldlRecOn (motive := fun d => ∀ {e}, e ∈ entries d → e ∈ l)
  · rintro e ⟨⟩
  · intro d known entry listed e member
    rcases mem_insertEntry member with rfl | before
    · exact listed
    · exact known before

end Dictionary

namespace Comment

open Text (Over over_nil over_cons)

def EntriesOver (p : Char → Prop) (entries : List Entry) : Prop := ∀ e ∈ entries, Over p e.2

theorem entriesOver_nil {p : Char → Prop} : EntriesOver p [] := by
  simp [EntriesOver]

theorem entriesOver_cons {p : Char → Prop} {e : Entry} {l : List Entry} :
    EntriesOver p (e :: l) ↔ Over p e.2 ∧ EntriesOver p l :=
  List.forall_mem_cons

variable (p : Char → Prop)

/-- A character of a key that does not close the comment. -/
theorem blockKey_cons {c : Char} {r : Text} (closes : ∀ rest, c = '*' → r = '/' :: rest → False) :
    blockKey (c :: r) =
      if isBlank c then ([], c :: (blockValue r).1, (blockValue r).2)
      else (c :: (blockKey r).1, (blockKey r).2.1, (blockKey r).2.2) := by
  rw [blockKey.eq_def]
  split
  next same => cases same
  next rest same =>
    cases same
    exact (closes rest rfl rfl).elim
  next same =>
    cases same
    rfl

/-- A character of a key on a line that ends nothing. -/
theorem lineKey_cons {c : Char} {r : Text} (escapes : ∀ rest, c = '\\' → r = '@' :: rest → False)
    (other : c = '@' → False) :
    lineKey (c :: r) =
      if isBlank c then ([], (lineValue r).1, (lineValue r).2)
      else (c :: (lineKey r).1, (lineKey r).2.1, (lineKey r).2.2) := by
  rw [lineKey.eq_def]
  split
  next same => cases same
  next rest same =>
    cases same
    exact (escapes rest rfl rfl).elim
  next same =>
    cases same
    exact (other rfl).elim
  next same =>
    cases same
    rfl

theorem block_over :
    (∀ t, Over p t → EntriesOver p (blockOutside t)) ∧
    (∀ t, Over p t → Over p (blockKey t).2.1 ∧ EntriesOver p (blockKey t).2.2) ∧
    (∀ t, Over p t → Over p (blockValue t).1 ∧ EntriesOver p (blockValue t).2) := by
  apply blockOutside.mutual_induct
  all_goals intros
  case case1 => exact entriesOver_nil
  case case2 r key value entries read ih chars =>
    rw [blockOutside]
    exact entriesOver_cons.mpr (ih (over_cons.mp chars).2)
  case case3 c r other ih chars =>
    rw [blockOutside]
    · exact ih (over_cons.mp chars).2
    · exact other
  case case4 => exact ⟨over_nil, entriesOver_nil⟩
  case case5 r ih chars => exact ⟨over_nil, ih (over_cons.mp (over_cons.mp chars).2).2⟩
  case case6 c r closes blank value entries read ih chars =>
    obtain ⟨head, tail⟩ := over_cons.mp chars
    rw [blockKey_cons closes, if_pos blank]
    exact ⟨over_cons.mpr ⟨head, (ih tail).1⟩, (ih tail).2⟩
  case case7 c r closes word key value entries read ih chars =>
    rw [blockKey_cons closes, if_neg word]
    exact ih (over_cons.mp chars).2
  case case8 => exact ⟨over_nil, entriesOver_nil⟩
  case case9 r value entries read ih chars =>
    obtain ⟨mark, tail⟩ := over_cons.mp (over_cons.mp chars).2
    exact ⟨over_cons.mpr ⟨mark, (ih tail).1⟩, (ih tail).2⟩
  case case10 r key value entries read ih chars =>
    exact ⟨over_nil, entriesOver_cons.mpr (ih (over_cons.mp chars).2)⟩
  case case11 r ih chars => exact ⟨over_nil, ih (over_cons.mp (over_cons.mp chars).2).2⟩
  case case12 c r escapes other closes value entries read ih chars =>
    obtain ⟨head, tail⟩ := over_cons.mp chars
    rw [blockValue]
    · exact ⟨over_cons.mpr ⟨head, (ih tail).1⟩, (ih tail).2⟩
    all_goals assumption

theorem lineKey_over :
    (∀ t, Over p t → Over p (lineKey t).2.1 ∧ EntriesOver p (lineKey t).2.2) ∧
    (∀ t, Over p t → Over p (lineValue t).1 ∧ EntriesOver p (lineValue t).2) := by
  apply lineKey.mutual_induct
  all_goals intros
  case case1 => exact ⟨over_nil, entriesOver_nil⟩
  case case2 r key value entries read ih chars =>
    obtain ⟨mark, tail⟩ := over_cons.mp (over_cons.mp chars).2
    exact ⟨over_cons.mpr ⟨mark, (ih tail).1⟩, (ih tail).2⟩
  case case3 r key value entries read ih chars =>
    exact ⟨over_nil, entriesOver_cons.mpr (ih (over_cons.mp chars).2)⟩
  case case4 c r escapes other blank value entries read ih chars =>
    rw [lineKey_cons escapes other, if_pos blank]
    exact ih (over_cons.mp chars).2
  case case5 c r escapes other word key value entries read ih chars =>
    rw [lineKey_cons escapes other, if_neg word]
    exact ih (over_cons.mp chars).2
  case case6 => exact ⟨over_nil, entriesOver_nil⟩
  case case7 r value entries read ih chars =>
    obtain ⟨mark, tail⟩ := over_cons.mp (over_cons.mp chars).2
    exact ⟨over_cons.mpr ⟨mark, (ih tail).1⟩, (ih tail).2⟩
  case case8 r key value entries read ih chars =>
    exact ⟨over_nil, entriesOver_cons.mpr (ih (over_cons.mp chars).2)⟩
  case case9 c r escapes other value entries read ih chars =>
    obtain ⟨head, tail⟩ := over_cons.mp chars
    rw [lineValue]
    · exact ⟨over_cons.mpr ⟨head, (ih tail).1⟩, (ih tail).2⟩
    all_goals assumption

theorem line_over {t : Text} (chars : Over p t) : EntriesOver p (lineOutside t) := by
  fun_induction lineOutside t with
  | case1 => exact entriesOver_nil
  | case2 r ih => exact ih (over_cons.mp (over_cons.mp chars).2).2
  | case3 r key value entries read =>
    have rest := (lineKey_over p).1 r (over_cons.mp chars).2
    rw [read] at rest
    exact entriesOver_cons.mpr rest
  | case4 c r _ _ ih => exact ih (over_cons.mp chars).2

/-- Joined lines have no carriage return. -/
theorem joinLines_over {t : Text} (space : p ' ') (chars : Over p t) (broken : Bool) :
    Over (fun c => p c ∧ c ≠ '\r') (joinLines broken t) := by
  induction t generalizing broken with
  | nil => exact over_nil
  | cons c t ih =>
    obtain ⟨head, tail⟩ := over_cons.mp chars
    simp only [joinLines]
    split
    next => exact ih tail true
    next continues =>
      split
      next => exact over_cons.mpr ⟨⟨space, by decide⟩, ih tail true⟩
      next ends =>
        refine over_cons.mpr ⟨⟨head, ?_⟩, ih tail false⟩
        rintro rfl
        cases broken with
        | true => exact continues (by decide)
        | false => exact ends (by decide)

theorem annotations_over {comment : Text} (space : p ' ') (chars : Over p comment) :
    ∀ e ∈ Dictionary.entries (annotations comment), Over (fun c => p c ∧ c ≠ '\r') e.2 := by
  have collected {entries : List Entry} (chars : EntriesOver p entries) :
      ∀ e ∈ Dictionary.entries (collect entries), Over (fun c => p c ∧ c ≠ '\r') e.2 := by
    intro e member
    obtain ⟨raw, known, rfl⟩ := List.mem_map.mp (Dictionary.mem_ofList member)
    have value := chars raw (List.mem_of_mem_filter known)
    exact (joinLines_over p space value false).subset (Text.trimBy_subset _ _)
  unfold annotations
  split
  next r => exact collected (line_over p (chars.subset (Text.trimStart_subset _ _)))
  next => exact collected ((block_over p).1 comment chars)

end Comment
end QueryWeaver
