import Mathlib
import QueryWeaver.Proofs.Text.Bytes
import QueryWeaver.Proofs.Text.Parts
/-!
Byte ranges of a text. `slice?` cuts a range out of a text when the range is in order, ends within
the text, and has no end inside a character; there is no other range that it cuts out. The functions
called `sliced` in this library find their parts by byte offsets and cut each of them with `slice?`.
-/

namespace QueryWeaver

namespace Text

/-- Whether the offset is within the text and not inside a character. -/
def isBoundary : Nat → Text → Bool
  | 0, _ => true
  | _ + 1, [] => false
  | n + 1, c :: r => c.utf8Size ≤ n + 1 && isBoundary (n + 1 - c.utf8Size) r

/-- A byte range that can be cut out of a text. -/
structure IsRange (t : Text) (start stop : Nat) : Prop where
  ordered : start ≤ stop
  within : stop ≤ size t
  starts : Boundary t start
  stops : Boundary t stop

theorem boundary_cons {c : Char} {r : Text} {n : Nat} :
    Boundary (c :: r) (n + 1) ↔ c.utf8Size ≤ n + 1 ∧ Boundary r (n + 1 - c.utf8Size) := by
  constructor
  · rintro ⟨a, b, whole, sized⟩
    cases a with
    | nil => cases sized
    | cons d a =>
      obtain ⟨rfl, rfl⟩ := List.cons.inj whole
      rw [size_cons] at sized
      exact ⟨by omega, a, b, rfl, by omega⟩
  · rintro ⟨fits, a, b, rfl, sized⟩
    refine ⟨c :: a, b, rfl, ?_⟩
    rw [size_cons]
    omega

theorem isBoundary_iff (n : Nat) (t : Text) : isBoundary n t = true ↔ Boundary t n := by
  fun_induction isBoundary n t with
  | case1 t => exact iff_of_true rfl ⟨[], t, rfl, rfl⟩
  | case2 n =>
    refine iff_of_false (by simp) ?_
    rintro ⟨a, b, whole, sized⟩
    obtain ⟨rfl, -⟩ := List.append_eq_nil_iff.mp whole.symm
    cases sized
  | case3 n c r ih => rw [Bool.and_eq_true, decide_eq_true_iff, ih, boundary_cons]

instance (t : Text) (n : Nat) : Decidable (Boundary t n) :=
  decidable_of_iff _ (isBoundary_iff n t)

instance (t : Text) (start stop : Nat) : Decidable (IsRange t start stop) :=
  decidable_of_iff (start ≤ stop ∧ stop ≤ size t ∧ Boundary t start ∧ Boundary t stop)
    ⟨fun ⟨ordered, within, starts, stops⟩ => ⟨ordered, within, starts, stops⟩,
      fun ⟨ordered, within, starts, stops⟩ => ⟨ordered, within, starts, stops⟩⟩

/-- The text between two byte offsets, none unless they are a range of the text. -/
def slice? (t : Text) (start stop : Nat) : Option Text :=
  if IsRange t start stop then some (slice t start stop) else none

/-- The byte offset of the first occurrence of the marker. -/
def find? (marker t : Text) : Option Nat := (cut marker t).map fun (before, _) => size before

/-- A difference of offsets, none where it would be negative. -/
def minus? (m n : Nat) : Option Nat := if n ≤ m then some (m - n) else none

/-- The characters of a text that stands at byte `pos`, each with the offset where it begins. -/
def indexed (pos : Nat) : Text → List (Nat × Char)
  | [] => []
  | c :: r => (pos, c) :: indexed (pos + c.utf8Size) r

theorem size_snoc (a u : Text) (c : Char) :
    size (a ++ (u ++ [c])) = size (a ++ u) + c.utf8Size := by
  rw [← List.append_assoc, size_append]
  rfl

theorem boundary_append (a b : Text) : Boundary (a ++ b) (size a) := ⟨a, b, rfl, rfl⟩

theorem boundary_size (t : Text) : Boundary t (size t) := ⟨t, [], by simp, rfl⟩

theorem Boundary.le_size {t : Text} {n : Nat} (boundary : Boundary t n) : n ≤ size t := by
  obtain ⟨a, b, rfl, rfl⟩ := boundary
  rw [size_append]
  exact Nat.le_add_right _ _

theorem isRange_append (a m b : Text) : IsRange (a ++ (m ++ b)) (size a) (size a + size m) := by
  have stops := boundary_append (a ++ m) b
  rw [List.append_assoc, size_append] at stops
  refine ⟨Nat.le_add_right .., ?_, boundary_append a (m ++ b), stops⟩
  simp only [size_append]
  omega

/-- A range of a text is the place of one of its parts. -/
theorem IsRange.exists_parts {t : Text} {start stop : Nat} (range : IsRange t start stop) :
    ∃ a m b, t = a ++ (m ++ b) ∧ size a = start ∧ size a + size m = stop := by
  obtain ⟨a, rest, whole, starts⟩ := range.starts
  obtain ⟨front, b, whole', stops⟩ := range.stops
  have ordered := range.ordered
  have prefixes : a <+: front ∨ front <+: a :=
    List.prefix_or_prefix_of_prefix ⟨rest, whole.symm⟩ ⟨b, whole'.symm⟩
  rcases prefixes with ⟨m, rfl⟩ | ⟨m, rfl⟩
  · refine ⟨a, m, b, ?_, starts, ?_⟩
    · rw [whole', List.append_assoc]
    · rw [← stops, size_append]
  · -- The second end is in front of the first one, so both are the same.
    rw [size_append] at starts
    have same : size (front ++ m) = stop := by
      rw [size_append]
      omega
    exact ⟨front ++ m, [], rest, whole, by rw [size_append]; omega, by simpa using same⟩

theorem slice?_append (a m b : Text) :
    slice? (a ++ (m ++ b)) (size a) (size a + size m) = some m := by
  rw [slice?, if_pos (isRange_append a m b), slice_append]

theorem slice?_of_range {t : Text} {start stop : Nat} (range : IsRange t start stop) :
    slice? t start stop = some (slice t start stop) := if_pos range

theorem isRange_of_slice? {t m : Text} {start stop : Nat} (sliced : slice? t start stop = some m) :
    IsRange t start stop := by
  by_contra other
  rw [slice?, if_neg other] at sliced
  cases sliced

/-- What a range cuts out is the part of the text at its place. -/
theorem slice?_eq_some {t m : Text} {start stop : Nat} :
    slice? t start stop = some m ↔
      ∃ a b, t = a ++ (m ++ b) ∧ size a = start ∧ size a + size m = stop := by
  constructor
  · intro sliced
    obtain ⟨a, m', b, rfl, rfl, rfl⟩ := (isRange_of_slice? sliced).exists_parts
    rw [slice?_append] at sliced
    cases sliced
    exact ⟨a, b, rfl, rfl, rfl⟩
  · rintro ⟨a, b, rfl, rfl, rfl⟩
    exact slice?_append a m b

example : slice? "aé,ñ" 1 3 = some "é" ∧ slice? "aé,ñ" 2 3 = none ∧ slice? "aé,ñ" 4 7 = none := by
  decide

theorem slice?_front (a b : Text) : slice? (a ++ b) 0 (size a) = some a := by
  simpa using slice?_append [] a b

theorem slice?_behind (a b : Text) : slice? (a ++ b) (size a) (size (a ++ b)) = some b := by
  simpa using slice?_append a b []

@[simp] theorem indexed_nil (pos : Nat) : indexed pos [] = [] := rfl

@[simp] theorem indexed_cons (pos : Nat) (c : Char) (r : Text) :
    indexed pos (c :: r) = (pos, c) :: indexed (pos + c.utf8Size) r := rfl

theorem find?_eq_some {marker t : Text} {n : Nat} :
    find? marker t = some n ↔ ∃ before after, cut marker t = some (before, after) ∧
      size before = n := by
  rw [find?, Option.map_eq_some_iff]
  constructor
  · rintro ⟨⟨before, after⟩, found, sized⟩
    exact ⟨before, after, found, sized⟩
  · rintro ⟨before, after, found, sized⟩
    exact ⟨(before, after), found, sized⟩

theorem minus?_add (m n : Nat) : minus? (m + n) n = some m := by
  rw [minus?, if_pos (Nat.le_add_left n m), Nat.add_sub_cancel]

end Text
end QueryWeaver
