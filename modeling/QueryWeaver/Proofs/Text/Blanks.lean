import Mathlib
import QueryWeaver.Statement.Word
import QueryWeaver.Text.Blank
/-!
Trims of a text with known ends, and blanks: none of them is a word character.
-/

namespace QueryWeaver

/-- A character in a class is none outside it. -/
theorem ne_of_class {p : Char → Bool} {c x : Char} (inside : p c = true) (outside : p x = false) :
    c ≠ x := by
  rintro rfl
  rw [inside] at outside
  cases outside

namespace Text

variable {p : Char → Bool} {t : Text}

theorem trimStart_append {a : Text} (blank : ∀ c ∈ a, p c = true) (t : Text) :
    trimStart p (a ++ t) = trimStart p t := List.dropWhile_append_of_pos blank

theorem trimEnd_append {a : Text} (blank : ∀ c ∈ a, p c = true) (t : Text) :
    trimEnd p (t ++ a) = trimEnd p t := by
  have reversed : ∀ c ∈ a.reverse, p c = true := by simpa using blank
  rw [trimEnd, List.reverse_append, List.dropWhile_append_of_pos reversed]
  rfl

theorem trimEnd_of_last (last : ∀ c ∈ t.getLast?, p c = false) : trimEnd p t = t := by
  cases t using List.reverseRecOn with
  | nil => rfl
  | append_singleton t c =>
    have other : p c = false := last c (by simp)
    simp [trimEnd, other]

theorem trimStart_of_head (head : ∀ c ∈ t.head?, p c = false) : trimStart p t = t := by
  cases t with
  | nil => rfl
  | cons c t =>
    have other : p c = false := head c rfl
    simp [trimStart, other]

/-- Trimming the start stops before a character that stays. -/
theorem trimStart_append_of_head (t : Text) {a : Text} (head : ∀ c ∈ a.head?, p c = false) :
    trimStart p (t ++ a) = trimStart p t ++ a := by
  induction t with
  | nil => exact trimStart_of_head head
  | cons c t ih =>
    by_cases drop : p c = true
    · simpa [trimStart, drop] using ih
    · simp [trimStart, drop]

theorem head?_trimStart (t : Text) : ∀ c ∈ (trimStart p t).head?, p c = false := by
  intro c first
  have other := List.head?_dropWhile_not p t
  rw [← trimStart, Option.mem_def.mp first] at other
  exact other

/-- A text that ends in a character that stays, between others that are trimmed. -/
theorem trimBy_between {a b : Text} {z : Char} (before : ∀ c ∈ a, p c = true)
    (after : ∀ c ∈ b, p c = true) (other : p z = false) (t : Text) :
    trimBy p (a ++ (t ++ z :: b)) = trimStart p t ++ [z] := by
  have start : trimStart p (t ++ z :: b) = (trimStart p t ++ [z]) ++ b := by
    rw [trimStart_append_of_head t (by simpa using other), List.append_assoc]
    rfl
  rw [trimBy, trimStart_append before, start, trimEnd_append after, trimEnd_of_last]
  rw [List.getLast?_concat]
  rintro c ⟨⟩
  exact other

theorem trimBy_last {z : Char} (other : p z = false) (t : Text) :
    trimBy p (t ++ [z]) = trimStart p t ++ [z] :=
  trimBy_between (a := []) (b := []) (by simp) (by simp) other t

theorem trimStart_again (t : Text) : trimStart p (trimStart p t) = trimStart p t :=
  trimStart_of_head (head?_trimStart t)

/-- Text without blanks, behind blanks. -/
theorem trim_solid {a : Text} (blank : ∀ c ∈ a, isBlank c = true)
    (solid : ∀ c ∈ t, isBlank c = false) : trim (a ++ t) = t := by
  rw [trim, trimBy, trimStart_append blank,
    trimStart_of_head fun c first => solid c (List.mem_of_mem_head? first),
    trimEnd_of_last fun c last => solid c (List.mem_of_getLast? last)]

end Text

/-- The code points of the blanks. -/
def blankPoints : List Nat :=
  [0x9, 0xA, 0xB, 0xC, 0xD, 0x20, 0x85, 0xA0, 0x1680, 0x2000, 0x2001, 0x2002, 0x2003, 0x2004,
    0x2005, 0x2006, 0x2007, 0x2008, 0x2009, 0x200A, 0x2028, 0x2029, 0x202F, 0x205F, 0x3000]

theorem isBlank_points {c : Char} (blank : isBlank c = true) : c.toNat ∈ blankPoints := by
  simp only [isBlank, Bool.or_eq_true, Bool.and_eq_true, decide_eq_true_eq, beq_iff_eq] at blank
  simp only [blankPoints, List.mem_cons, List.not_mem_nil, or_false]
  omega

/-- What holds of each blank by its code point holds of all blanks. -/
theorem blank_forall {P : Char → Prop} (each : ∀ n ∈ blankPoints, P (Char.ofNat n)) {c : Char}
    (blank : isBlank c = true) : P c := by
  have here := each c.toNat (isBlank_points blank)
  rwa [Char.ofNat_toNat] at here

theorem isTail_of_blank {c : Char} (blank : isBlank c = true) : WordMode.isTail c = false :=
  blank_forall (P := fun c => WordMode.isTail c = false) (by decide +kernel) blank

theorem fresh_blank {c : Char} (blank : isBlank c = true) : WordMode.fresh c = .plain := by
  have other (x : Char) (solid : isBlank x = false) : c ≠ x := ne_of_class blank solid
  have digit : c.isDigit = false :=
    blank_forall (P := fun c => c.isDigit = false) (by decide) blank
  have word : isWordChar c = false := (Bool.or_eq_false_iff.mp (isTail_of_blank blank)).1
  simp [WordMode.fresh, closingQuote?, other '\'' (by decide), other '"' (by decide),
    other '\x60' (by decide), other '[' (by decide), other '-' (by decide), other '/' (by decide),
    digit, word]

theorem isBlank_of_tail {c : Char} (tail : WordMode.isTail c = true) : isBlank c = false := by
  cases blank : isBlank c with
  | false => rfl
  | true => exact absurd tail (by simp [isTail_of_blank blank])

end QueryWeaver
