import Mathlib
import QueryWeaver.Proofs.Statement.Leftmost
import QueryWeaver.Proofs.Text.Ranges
/-!
Placeholders replaced by byte offsets. A loop looks for the next colon from an offset on, and cuts
out the text before a placeholder that begins there. The offset grows, no cut fails, and the
statement is that of the replacement from left to right.
-/

namespace QueryWeaver

namespace Placeholder

/-- The text from an offset on, and the offset of the first colon in it. -/
def colonFrom (sql : Text) (pos : Nat) : Option (Option Nat) :=
  (Text.slice? sql pos (Text.size sql)).map fun ahead =>
    (Text.find? [':'] ahead).map fun offset => pos + offset

/-- The placeholder that begins at an offset, and the offset behind it. -/
def readAt (sql : Text) (start : Nat) : Option (Option (Field × Nat)) :=
  (Text.slice? sql start (Text.size sql)).bind fun here =>
    match first? here with
    | none => some none
    | some (param, rest) =>
      (Text.minus? (Text.size sql) (Text.size rest)).map fun next => some (param, next)

theorem colonFrom_bounds {sql : Text} {pos start : Nat}
    (found : colonFrom sql pos = some (some start)) : pos ≤ start ∧ start < Text.size sql := by
  obtain ⟨ahead, sliced, some⟩ := Option.map_eq_some_iff.mp found
  obtain ⟨offset, here, rfl⟩ := Option.map_eq_some_iff.mp some
  obtain ⟨before, after, cut, rfl⟩ := Text.find?_eq_some.mp here
  obtain ⟨a, b, whole, place, ends⟩ := Text.slice?_eq_some.mp sliced
  have colon : (':' : Char).utf8Size = 1 := rfl
  rw [Text.cut_append cut] at ends
  simp only [Text.size_append, Text.size_cons] at ends
  omega

theorem readAt_bounds {sql : Text} {start next : Nat} {param : Field}
    (read : readAt sql start = some (some (param, next))) : start < next := by
  obtain ⟨here, sliced, continued⟩ := Option.bind_eq_some_iff.mp read
  obtain ⟨a, b, whole, place, ends⟩ := Text.slice?_eq_some.mp sliced
  split at continued
  next => cases continued
  next param' rest first =>
    obtain ⟨next', minus, same⟩ := Option.map_eq_some_iff.mp continued
    cases same
    obtain ⟨o, written, -⟩ := first?_occurrence first
    have positive : 0 < Text.size o.written := by
      have colon : (':' : Char).utf8Size = 1 := rfl
      rw [Occurrence.written, Text.size_cons]
      omega
    rw [written, Text.size_append] at ends
    rw [Text.minus?] at minus
    split at minus
    next =>
      have value := Option.some.inj minus
      omega
    next => cases minus

/-- The statement from offset `pos` on, where the text from `last` on is not written yet. -/
def slicedFrom (sql : Text) (last pos : Nat) : Option Query :=
  match _found : colonFrom sql pos with
  | none => none
  | some none => (Text.slice? sql last (Text.size sql)).map fun tail => ⟨tail, []⟩
  | some (some start) =>
    match _read : readAt sql start with
    | none => none
    | some none => slicedFrom sql last (start + 1)
    | some (some (param, next)) => do
      let before ← Text.slice? sql last start
      let q ← slicedFrom sql next next
      return ⟨before ++ '?' :: q.sql, param :: q.params⟩
termination_by Text.size sql - pos
decreasing_by
  · have bounds := colonFrom_bounds _found
    omega
  · have bounds := colonFrom_bounds _found
    have further := readAt_bounds _read
    omega

def sliced (sql : Text) : Option Query := slicedFrom sql 0 0

theorem colonFrom_append (a t : Text) :
    colonFrom (a ++ t) (Text.size a) =
      some ((Text.cut [':'] t).map fun (before, _) => Text.size (a ++ before)) := by
  rw [colonFrom, Text.slice?_behind]
  simp [Text.find?, Function.comp_def]

theorem readAt_none {t : Text} (none : first? t = none) (a : Text) :
    readAt (a ++ t) (Text.size a) = some Option.none := by
  rw [readAt, Text.slice?_behind, Option.bind_some, none]

theorem readAt_some {w rest : Text} {param : Field} (read : first? (w ++ rest) = some (param, rest))
    (a : Text) :
    readAt (a ++ (w ++ rest)) (Text.size a) = some (some (param, Text.size (a ++ w))) := by
  rw [readAt, Text.slice?_behind, Option.bind_some, read]
  have next : Text.minus? (Text.size (a ++ (w ++ rest))) (Text.size rest) =
      some (Text.size (a ++ w)) := by
    rw [← List.append_assoc, Text.size_append, Text.minus?_add]
  dsimp only
  rw [next]
  rfl

theorem replaceAll_char {c : Char} {r : Text} (none : first? (c :: r) = none) :
    replaceAll (c :: r) = ⟨c :: (replaceAll r).sql, (replaceAll r).params⟩ := by
  rw [replaceAll]
  split
  next read =>
    rw [none] at read
    cases read
  next => rfl

theorem replaceAll_param {c : Char} {r rest : Text} {param : Field}
    (read : first? (c :: r) = some (param, rest)) :
    replaceAll (c :: r) = ⟨'?' :: (replaceAll rest).sql, param :: (replaceAll rest).params⟩ := by
  rw [replaceAll]
  split
  next param' rest' read' =>
    rw [read] at read'
    cases read'
    rfl
  next none =>
    rw [none] at read
    cases read

/-- Text without a colon is left as it is. -/
theorem replaceAll_apart {u : Text} (apart : Text.cut [':'] u = none) (t : Text) :
    replaceAll (u ++ t) = ⟨u ++ (replaceAll t).sql, (replaceAll t).params⟩ := by
  induction u with
  | nil => rfl
  | cons c u ih =>
    have other : c ≠ ':' := by
      rintro rfl
      have here := Text.cut_prefix [':'] u
      rw [List.singleton_append, apart] at here
      cases here
    have none : first? (c :: (u ++ t)) = none := by
      unfold first?
      split
      next same => exact absurd (List.cons.inj same).1 other
      next => rfl
    rw [List.cons_append, replaceAll_char none, ih (Text.cut_none_right (t := [c]) apart)]
    rfl

theorem slicedFrom_last {sql : Text} {pos : Nat} (found : colonFrom sql pos = some none)
    (last : Nat) : slicedFrom sql last pos =
      (Text.slice? sql last (Text.size sql)).map fun tail => ⟨tail, []⟩ := by
  rw [slicedFrom]
  split <;> simp_all

theorem slicedFrom_passed {sql : Text} {pos start : Nat}
    (found : colonFrom sql pos = some (some start)) (read : readAt sql start = some none)
    (last : Nat) : slicedFrom sql last pos = slicedFrom sql last (start + 1) := by
  conv => lhs; rw [slicedFrom]
  split
  next => simp_all
  next => simp_all
  next start' found' =>
    rw [found] at found'
    cases found'
    split <;> simp_all

theorem slicedFrom_read {sql : Text} {pos start next : Nat} {param : Field}
    (found : colonFrom sql pos = some (some start))
    (read : readAt sql start = some (some (param, next))) (last : Nat) :
    slicedFrom sql last pos = (do
      let before ← Text.slice? sql last start
      let q ← slicedFrom sql next next
      return ⟨before ++ '?' :: q.sql, param :: q.params⟩) := by
  conv => lhs; rw [slicedFrom]
  split
  next => simp_all
  next => simp_all
  next start' found' =>
    rw [found] at found'
    cases found'
    split <;> simp_all

/-- From an offset on the loop writes what the replacement writes, behind the text still left. -/
theorem slicedFrom_eq (a u t : Text) :
    slicedFrom (a ++ (u ++ t)) (Text.size a) (Text.size (a ++ u)) =
      some ⟨u ++ (replaceAll t).sql, (replaceAll t).params⟩ := by
  induction n : t.length using Nat.strong_induction_on generalizing a u t with
  | _ n ih =>
  subst n
  have found := colonFrom_append (a ++ u) t
  rw [List.append_assoc] at found
  cases cut : Text.cut [':'] t with
  | none =>
    rw [cut] at found
    have whole := replaceAll_apart cut []
    rw [List.append_nil] at whole
    rw [slicedFrom_last found, Text.slice?_behind, whole, replaceAll]
    simp
  | some parts =>
    obtain ⟨before, after⟩ := parts
    rw [cut] at found
    have text := Text.cut_append cut
    have apart := replaceAll_apart (Text.cut_before cut (by simp)) (':' :: after)
    rw [List.append_assoc, List.singleton_append] at text
    subst text
    cases read : first? (':' :: after) with
    | none =>
      have passed := readAt_none read (a ++ u ++ before)
      have rest := ih after.length (by simp; omega) a (u ++ before ++ [':']) after rfl
      have colon : (':' : Char).utf8Size = 1 := rfl
      rw [Text.size_snoc, colon] at rest
      rw [List.append_assoc, List.append_assoc] at passed
      rw [slicedFrom_passed found passed, apart, replaceAll_char read]
      simpa using rest
    | some parts =>
      obtain ⟨param, rest⟩ := parts
      obtain ⟨o, written, -⟩ := first?_occurrence read
      have shorter : rest.length < (before ++ ':' :: after).length := by
        have size := congrArg List.length written
        simp only [Occurrence.written, List.length_append, List.length_cons] at size ⊢
        omega
      have behind := ih rest.length shorter (a ++ u ++ before ++ o.written) [] rest rfl
      have first := read
      rw [written] at first
      have next := readAt_some first (a ++ u ++ before)
      have front := Text.slice?_append a (u ++ before) (':' :: after)
      rw [← written] at next
      rw [← Text.size_append] at front
      simp only [List.append_assoc, List.append_nil, List.nil_append] at found next front behind
      rw [← written] at behind
      rw [slicedFrom_read found next, front, behind, apart, replaceAll_param read]
      simp

theorem sliced_eq (sql : Text) : sliced sql = some (replaceAll sql) := slicedFrom_eq [] [] sql

end Placeholder
end QueryWeaver
