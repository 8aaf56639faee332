import Mathlib
import QueryWeaver.Text.Basic
/-!
Byte offsets into texts put together: a slice between two parts of a text is what stands between
them.
-/

namespace QueryWeaver

namespace Text

@[simp] theorem size_nil : size [] = 0 := rfl

@[simp] theorem size_cons (c : Char) (t : Text) : size (c :: t) = c.utf8Size + size t := rfl

@[simp] theorem size_append (a b : Text) : size (a ++ b) = size a + size b := by
  induction a with
  | nil => simp
  | cons c a ih => simp [ih, Nat.add_assoc]

theorem size_takeWhile (p : Char → Bool) (t : Text) : size (t.takeWhile p) ≤ size t := by
  have whole := congrArg size (List.takeWhile_append_dropWhile (p := p) (l := t))
  rw [size_append] at whole
  omega

/-- A cut at the end of a first character leaves the rest to be cut. -/
theorem dropBytes_cons (c : Char) (t : Text) (n : Nat) :
    dropBytes (c.utf8Size + n) (c :: t) = dropBytes n t := by
  obtain ⟨k, size⟩ : ∃ k, c.utf8Size + n = k + 1 := ⟨_, (Nat.sub_one_add_one (by
    have := c.utf8Size_pos
    omega)).symm⟩
  rw [size, dropBytes, ← size, Nat.add_sub_cancel_left]

theorem takeBytes_cons (c : Char) (t : Text) (n : Nat) :
    takeBytes (c.utf8Size + n) (c :: t) = c :: takeBytes n t := by
  obtain ⟨k, size⟩ : ∃ k, c.utf8Size + n = k + 1 := ⟨_, (Nat.sub_one_add_one (by
    have := c.utf8Size_pos
    omega)).symm⟩
  rw [size, takeBytes, ← size, Nat.add_sub_cancel_left]

@[simp] theorem dropBytes_append (a b : Text) : dropBytes (size a) (a ++ b) = b := by
  induction a with
  | nil => simp [dropBytes]
  | cons c a ih => rw [List.cons_append, size_cons, dropBytes_cons, ih]

@[simp] theorem takeBytes_append (a b : Text) : takeBytes (size a) (a ++ b) = a := by
  induction a with
  | nil => simp [takeBytes]
  | cons c a ih => rw [List.cons_append, size_cons, takeBytes_cons, ih]

theorem slice_append (a b c : Text) : slice (a ++ (b ++ c)) (size a) (size a + size b) = b := by
  rw [slice, Nat.add_sub_cancel_left, dropBytes_append, takeBytes_append]

end Text
end QueryWeaver
