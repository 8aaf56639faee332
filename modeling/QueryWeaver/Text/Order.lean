import QueryWeaver.Text.Basic
/-!
The dictionary order of texts, character by character by code point. It is a strict linear order.
-/

namespace QueryWeaver

namespace Text

/-- Whether a text stands before another one; a proper beginning stands before the whole. -/
def precedes : Text → Text → Bool
  | [], [] => false
  | [], _ :: _ => true
  | _ :: _, [] => false
  | a :: r, b :: q => a.toNat < b.toNat || (a == b && precedes r q)

theorem precedes_irrefl (t : Text) : precedes t t = false := by
  induction t with
  | nil => rfl
  | cons c r ih => simp [precedes, ih]

theorem precedes_trans {a b c : Text} (h : precedes a b = true) (h' : precedes b c = true) :
    precedes a c = true := by
  induction a generalizing b c with
  | nil => cases b <;> cases c <;> simp_all [precedes]
  | cons x r ih =>
    cases b with
    | nil => simp [precedes] at h
    | cons y q =>
      cases c with
      | nil => simp [precedes] at h'
      | cons z p =>
        simp only [precedes, Bool.or_eq_true, Bool.and_eq_true, decide_eq_true_eq, beq_iff_eq]
          at h h' ⊢
        rcases h with h | ⟨rfl, h⟩
        · rcases h' with h' | ⟨rfl, -⟩
          · exact .inl (Nat.lt_trans h h')
          · exact .inl h
        · rcases h' with h' | ⟨rfl, h'⟩
          · exact .inl h'
          · exact .inr ⟨rfl, ih h h'⟩

theorem precedes_of_not {a b : Text} (h : precedes a b = false) (ne : a ≠ b) :
    precedes b a = true := by
  induction a generalizing b with
  | nil => cases b <;> simp_all [precedes]
  | cons x r ih =>
    cases b with
    | nil => rfl
    | cons y q =>
      simp only [precedes, Bool.or_eq_false_iff, Bool.and_eq_false_iff, decide_eq_false_iff_not,
        Nat.not_lt, beq_eq_false_iff_ne] at h
      simp only [precedes, Bool.or_eq_true, Bool.and_eq_true, decide_eq_true_eq, beq_iff_eq]
      by_cases eq : x = y
      · subst eq
        have rest : precedes r q = false := by simpa using h.2
        exact .inr ⟨rfl, ih rest fun same => ne (by rw [same])⟩
      · refine .inl (Nat.lt_of_le_of_ne h.1 fun same => eq ?_)
        exact (Char.toNat_inj.mp same).symm

end Text
end QueryWeaver
