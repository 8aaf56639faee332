import Mathlib
import QueryWeaver.Proofs.Source.Balanced
/-!
Live braces, which stand outside literals, and the function that code begins with. It ends with the
brace that closes the first live open brace, and there is none where no live brace does.
-/

namespace QueryWeaver

namespace LiteralState

theorem marked_text (s : LiteralState) (t : Text) : (s.marked t).map Prod.fst = t := by
  induction t generalizing s with
  | nil => rfl
  | cons c t ih => rw [marked, List.map_cons, ih]

theorem marked_append (s : LiteralState) (t u : Text) :
    s.marked (t ++ u) = s.marked t ++ (s.run t).marked u := by
  induction t generalizing s with
  | nil => rfl
  | cons c t ih =>
    rw [List.cons_append, marked, ih]
    rfl

theorem marked_length (s : LiteralState) (t : Text) : (s.marked t).length = t.length := by
  rw [← List.length_map Prod.fst, marked_text]

end LiteralState

namespace Stub

def opening : Char × Bool := ('{', true)

def closing : Char × Bool := ('}', true)

/-- Characters among which every live brace has its partner. -/
inductive Nested : List (Char × Bool) → Prop
  | nil : Nested []
  | other {x : Char × Bool} {r : List (Char × Bool)} (notOpening : x ≠ opening)
      (notClosing : x ≠ closing) (rest : Nested r) : Nested (x :: r)
  | braces {a r : List (Char × Bool)} (inside : Nested a) (rest : Nested r) :
      Nested (opening :: (a ++ closing :: r))

/-- The characters end with the partner of their first live open brace. -/
def CloseFirst (m : List (Char × Bool)) : Prop :=
  ∃ a k, m = a ++ opening :: (k ++ [closing]) ∧ opening ∉ a ∧ Nested k

/-- No live brace is the partner of the first live open brace. -/
def LeaveOpen (m : List (Char × Bool)) : Prop :=
  ∃ a r, m = a ++ opening :: r ∧ opening ∉ a ∧ ∀ k q, Nested k → r ≠ k ++ closing :: q

/-- Splits after the live brace that brings the depth back to zero. -/
def cut : Nat → List (Char × Bool) → Option (List (Char × Bool) × List (Char × Bool))
  | _, [] => none
  | depth, x :: r =>
    if x = closing ∧ depth = 1 then some ([x], r)
    else
      let next := if x = opening then depth + 1 else if x = closing then depth - 1 else depth
      (cut next r).map fun q => (x :: q.1, q.2)

/-- Which function code begins with depends on its characters and which of them are live. -/
theorem splitFrom_marked (s : LiteralState) (depth : Nat) (t : Text) :
    splitFrom s depth t =
      (cut depth (s.marked t)).map fun q => (q.1.map Prod.fst, q.2.map Prod.fst) := by
  induction t generalizing s depth with
  | nil => rfl
  | cons c t ih =>
    have text := LiteralState.marked_text (s.step c) t
    rw [splitFrom, LiteralState.marked, cut]
    cases covered : s.covers c with
    | true => simp [opening, closing, ih, Function.comp_def]
    | false =>
      by_cases opens : c = '{'
      · simp [opening, closing, opens, ih, Function.comp_def]
      · by_cases closes : c = '}'
        · subst closes
          by_cases last : depth = 1
          · simp [closing, last, text]
          · simp [opening, closing, last, ih, Function.comp_def]
        · simp [opening, closing, opens, closes, ih, Function.comp_def]

theorem opensFrom_marked (s : LiteralState) (t : Text) :
    opensFrom s t = true ↔ opening ∈ s.marked t := by
  induction t generalizing s with
  | nil => simp [opensFrom, LiteralState.marked]
  | cons c t ih =>
    have here : opening = (c, !s.covers c) ↔ s.covers c = false ∧ c = '{' := by
      cases s.covers c <;> simp [opening, eq_comm (a := '{')]
    rw [opensFrom, LiteralState.marked, List.mem_cons, here, ← ih]
    simp

section

variable {depth : Nat} {a k m r : List (Char × Bool)} {x : Char × Bool}

theorem cut_opening (depth : Nat) (r : List (Char × Bool)) :
    cut depth (opening :: r) = (cut (depth + 1) r).map fun q => (opening :: q.1, q.2) := by
  have other : ¬(opening = closing ∧ depth = 1) := fun both => absurd both.1 (by decide)
  rw [cut, if_neg other, if_pos rfl]

theorem cut_other (notOpening : x ≠ opening) (notClosing : x ≠ closing) :
    cut depth (x :: r) = (cut depth r).map fun q => (x :: q.1, q.2) := by
  rw [cut, if_neg fun both => notClosing both.1, if_neg notOpening, if_neg notClosing]

theorem cut_last (r : List (Char × Bool)) : cut 1 (closing :: r) = some ([closing], r) := by
  rw [cut, if_pos ⟨rfl, rfl⟩]

theorem cut_closing (depth : Nat) (r : List (Char × Bool)) :
    cut (depth + 2) (closing :: r) =
      (cut (depth + 1) r).map fun q => (closing :: q.1, q.2) := by
  have further : ¬(closing = closing ∧ depth + 2 = 1) := by omega
  rw [cut, if_neg further, if_neg (by decide), if_pos rfl, Nat.add_sub_assoc (by decide)]

/-- A closing brace without an open one before it is passed over. -/
theorem cut_stray (r : List (Char × Bool)) :
    cut 0 (closing :: r) = (cut 0 r).map fun q => (closing :: q.1, q.2) := by
  rw [cut, if_neg (by decide), if_neg (by decide), if_pos rfl]

/-- Braces that have their partners do not change the depth. -/
theorem Nested.cut (nested : Nested k) (depth : Nat) (m : List (Char × Bool)) :
    cut (depth + 1) (k ++ m) = (cut (depth + 1) m).map fun q => (k ++ q.1, q.2) := by
  induction nested generalizing depth m with
  | nil => simp
  | other notOpening notClosing _ ih =>
    rw [List.cons_append, cut_other notOpening notClosing, ih, Option.map_map]
    rfl
  | @braces a r _ _ inside rest =>
    rw [List.cons_append, List.append_assoc, List.cons_append, cut_opening, inside, cut_closing,
      rest]
    simp [Function.comp_def]

/-- A scan that comes back to depth zero has met the partner of the brace before it. -/
theorem exists_nested {depth : Nat} {m : List (Char × Bool)}
    (found : (Stub.cut (depth + 1) m).isSome = true) :
    ∃ k q, m = k ++ closing :: q ∧ Nested k := by
  match m with
  | [] => cases found
  | x :: r =>
    by_cases closes : x = closing
    · exact ⟨[], r, by rw [closes]; rfl, .nil⟩
    by_cases opens : x = opening
    · subst opens
      rw [cut_opening, Option.isSome_map] at found
      obtain ⟨k, q, whole, nested⟩ := exists_nested found
      rw [whole, nested.cut, Option.isSome_map, cut_closing, Option.isSome_map] at found
      obtain ⟨k', q', behind, nested'⟩ := exists_nested found
      exact ⟨opening :: (k ++ closing :: k'), q', by simp [whole, behind], .braces nested nested'⟩
    · rw [cut_other opens closes, Option.isSome_map] at found
      obtain ⟨k, q, whole, nested⟩ := exists_nested found
      exact ⟨x :: k, q, congrArg (x :: ·) whole, .other opens closes nested⟩
termination_by m.length
decreasing_by
  all_goals simp_all
  omega

/-- The partner of a brace ends what it opens. -/
theorem cut_nested (nested : Nested k) (q : List (Char × Bool)) :
    Stub.cut 1 (k ++ closing :: q) = some (k ++ [closing], q) := by
  rw [nested.cut, cut_last]
  rfl

theorem cut_before (before : opening ∉ a) (m : List (Char × Bool)) :
    Stub.cut 0 (a ++ m) = (Stub.cut 0 m).map fun q => (a ++ q.1, q.2) := by
  induction a with
  | nil => simp
  | cons x a ih =>
    have here : x ≠ opening := (List.ne_of_not_mem_cons before).symm
    have before : opening ∉ a := List.not_mem_of_not_mem_cons before
    rw [List.cons_append]
    by_cases closes : x = closing
    · rw [closes, cut_stray, ih before, Option.map_map]
      rfl
    · rw [cut_other here closes, ih before, Option.map_map]
      rfl

theorem cut_first (before : opening ∉ a) (r : List (Char × Bool)) :
    Stub.cut 0 (a ++ opening :: r) = (Stub.cut 1 r).map fun q => (a ++ opening :: q.1, q.2) := by
  rw [cut_before before, cut_opening, Option.map_map]
  rfl

theorem cut_missing (missing : opening ∉ m) : Stub.cut 0 m = none := by
  have whole := cut_before missing []
  rwa [List.append_nil] at whole

theorem cut_iff {b : List (Char × Bool)} :
    Stub.cut 0 m = some (a, b) ↔ m = a ++ b ∧ CloseFirst a := by
  constructor
  · intro found
    by_cases opens : opening ∈ m
    · obtain ⟨u, r, whole, before⟩ := List.eq_append_cons_of_mem opens
      rw [whole, cut_first before] at found
      have some := Option.isSome_of_eq_some found
      rw [Option.isSome_map] at some
      obtain ⟨k, q, behind, nested⟩ := exists_nested some
      rw [behind, cut_nested nested] at found
      cases found
      refine ⟨by simp [whole, behind], u, k, rfl, before, nested⟩
    · rw [cut_missing opens] at found
      cases found
  · intro both
    obtain ⟨whole, u, k, stub, before, nested⟩ := both
    rw [whole, stub, List.append_assoc, List.cons_append, List.append_assoc, cut_first before]
    exact congrArg (Option.map _) (cut_nested nested b)

theorem cut_none_iff : Stub.cut 0 m = none ↔ opening ∉ m ∨ LeaveOpen m := by
  constructor
  · intro none
    by_cases opens : opening ∈ m
    · obtain ⟨a, r, whole, before⟩ := List.eq_append_cons_of_mem opens
      right
      refine ⟨a, r, whole, before, ?_⟩
      intro k q nested behind
      rw [whole, cut_first before, behind, cut_nested nested] at none
      cases none
    · exact .inl opens
  · intro either
    cases either with
    | inl missing => exact cut_missing missing
    | inr leaves =>
      obtain ⟨a, r, whole, before, never⟩ := leaves
      rw [whole, cut_first before, Option.map_eq_none_iff]
      by_contra found
      obtain ⟨k, q, behind, nested⟩ := exists_nested (Option.isSome_iff_ne_none.mpr found)
      exact never k q nested behind

end

variable {code f rest : Text}

/-- The first function of code ends with the partner of the first live open brace. -/
theorem split?_iff :
    split? code = some (f, rest) ↔
      f ++ rest = code ∧ CloseFirst (LiteralState.between.marked f) := by
  constructor
  · intro found
    rw [split?, splitFrom_marked] at found
    obtain ⟨⟨a, b⟩, cut, same⟩ := Option.map_eq_some_iff.mp found
    obtain ⟨whole, closes⟩ := cut_iff.mp cut
    cases same
    have text := LiteralState.marked_text .between code
    rw [whole, List.map_append] at text
    have marks : LiteralState.between.marked (a.map Prod.fst) = a := by
      rw [← text, LiteralState.marked_append] at whole
      exact (List.append_inj whole (by simp [LiteralState.marked_length])).1
    rw [marks]
    exact ⟨text, closes⟩
  · intro both
    obtain ⟨whole, closes⟩ := both
    rw [split?, splitFrom_marked, ← whole, LiteralState.marked_append, cut_iff.mpr ⟨rfl, closes⟩]
    simp [LiteralState.marked_text]

theorem split?_none_iff :
    split? code = none ↔ opening ∉ LiteralState.between.marked code ∨
      LeaveOpen (LiteralState.between.marked code) := by
  rw [split?, splitFrom_marked, Option.map_eq_none_iff, cut_none_iff]

end Stub
end QueryWeaver
