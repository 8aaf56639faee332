import Mathlib
import QueryWeaver.Signature.Spelling
/-!
Texts that no scan of code reacts to: they have no quote, no brace and no slash. Identifiers,
numerals and the fixed parts of generated code are such texts.
-/

namespace QueryWeaver

/-- Neither a quote nor a brace nor a slash. -/
def isInert (c : Char) : Bool := c != '"' && c != '\'' && c != '{' && c != '}' && c != '/'

def Inert (t : Text) : Prop := ∀ c ∈ t, isInert c = true

instance (t : Text) : Decidable (Inert t) := List.decidableBAll (isInert · = true) t

/-- Inert text over the characters that satisfy `p`. -/
def InertOver (p : Char → Prop) (t : Text) : Prop := ∀ c ∈ t, isInert c = true ∧ p c

/-- All characters but control characters satisfy `p`. -/
def Printable (p : Char → Prop) : Prop := ∀ c : Char, 32 ≤ c.toNat → p c

theorem isInert_iff {c : Char} :
    isInert c = true ↔ c ≠ '"' ∧ c ≠ '\'' ∧ c ≠ '{' ∧ c ≠ '}' ∧ c ≠ '/' := by
  simp only [isInert, Bool.and_eq_true, bne_iff_ne, and_assoc]

theorem alphanum_range {c : Char} (alphanum : c.isAlphanum = true) :
    32 ≤ c.toNat ∧ c.toNat < 128 ∧ isInert c = true ∧ c ≠ '\\' := by
  have range : 48 ≤ c.toNat ∧ c.toNat < 58 ∨ 65 ≤ c.toNat ∧ c.toNat < 91 ∨
      97 ≤ c.toNat ∧ c.toNat < 123 := by
    simp only [Char.isAlphanum, Char.isAlpha, Char.isUpper, Char.isLower, Char.isDigit,
      Bool.or_eq_true, Bool.and_eq_true, decide_eq_true_eq, ge_iff_le, UInt32.le_iff_toNat_le]
      at alphanum
    have value : c.val.toNat = c.toNat := rfl
    have marks : 'A'.val.toNat = 65 ∧ 'Z'.val.toNat = 90 ∧ 'a'.val.toNat = 97 ∧
        'z'.val.toNat = 122 ∧ '0'.val.toNat = 48 ∧ '9'.val.toNat = 57 := by decide
    omega
  have other (x : Char) (h : x.toNat < 48 ∨ 91 ≤ x.toNat ∧ x.toNat < 97 ∨ 123 ≤ x.toNat) :
      c ≠ x := by
    rintro rfl
    omega
  exact ⟨by omega, by omega, isInert_iff.mpr ⟨other _ (by decide), other _ (by decide),
    other _ (by decide), other _ (by decide), other _ (by decide)⟩, other _ (by decide)⟩

theorem wordChar_range {c : Char} (word : isWordChar c = true) :
    32 ≤ c.toNat ∧ isInert c = true ∧ c ≠ '\\' := by
  by_cases mark : c = '_'
  · subst mark
    decide
  by_cases ascii : c.toNat < 128
  · have alphanum : c.isAlphanum = true := by
      simpa [isWordChar, isAlphanumeric, ascii, mark] using word
    have range := alphanum_range alphanum
    exact ⟨range.1, range.2.2⟩
  · have other (x : Char) (h : x.toNat < 128) : c ≠ x := by
      rintro rfl
      omega
    exact ⟨by omega, isInert_iff.mpr ⟨other _ (by decide), other _ (by decide),
      other _ (by decide), other _ (by decide), other _ (by decide)⟩, other _ (by decide)⟩

namespace InertOver

variable {p : Char → Prop} {t u : Text}

theorem inert (h : InertOver p t) : Inert t := fun c member => (h c member).1

theorem append (first : InertOver p t) (second : InertOver p u) : InertOver p (t ++ u) := by
  intro c member
  rcases List.mem_append.mp member with member | member
  · exact first c member
  · exact second c member

theorem subset (h : InertOver p t) (sub : u ⊆ t) : InertOver p u := fun c member =>
  h c (sub member)

theorem ofConst (printable : Printable p)
    (h : (t.all fun c => isInert c && decide (32 ≤ c.toNat)) = true) : InertOver p t := by
  intro c member
  have := List.all_eq_true.mp h c member
  simp only [Bool.and_eq_true, decide_eq_true_eq] at this
  exact ⟨this.1, printable c this.2⟩

theorem ofWord (printable : Printable p) (h : t.all isWordChar = true) : InertOver p t := by
  intro c member
  have range := wordChar_range (List.all_eq_true.mp h c member)
  exact ⟨range.2.1, printable c range.1⟩

theorem ofNat (printable : Printable p) (n : Nat) : InertOver p (Text.ofNat n) := by
  intro c member
  have digit : c.isDigit = true := Nat.isDigit_of_mem_toDigits (by decide) (by decide) member
  have range := alphanum_range (c := c) (by simp [Char.isAlphanum, digit])
  exact ⟨range.2.2.1, printable c range.1⟩

theorem joinWith {parts : List Text} (separator : InertOver p u)
    (each : ∀ t ∈ parts, InertOver p t) : InertOver p (Text.joinWith u parts) := by
  fun_induction Text.joinWith u parts with
  | case1 => simp [InertOver]
  | case2 t => exact each t (by simp)
  | case3 t v r ih =>
    have rest := ih fun w member => each w (List.mem_cons_of_mem t member)
    exact ((each t (by simp)).append separator).append rest

end InertOver

theorem Inert.free {t : Text} (inert : Inert t) : InertOver (fun _ => True) t :=
  fun c member => ⟨inert c member, trivial⟩

end QueryWeaver
