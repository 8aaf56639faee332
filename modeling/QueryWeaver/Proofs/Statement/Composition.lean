import Mathlib
import QueryWeaver.Proofs.Statement.Closed
/-!
Texts put one behind the other. Where the first one leaves nothing open, the words of the whole are
those of both, the second ones moved behind the first text, and a comma between the two keeps their
parts apart.
-/

namespace QueryWeaver

namespace WordMode

/-- A character that a following one cannot continue leaves a plain mode, or one that is not open. -/
theorem step_ended {mode : WordMode} {c : Char} (isOpen : (mode.step c).isOpen = true)
    (other : isTail c = false) (dash : c ≠ '-') (slash : c ≠ '/') : mode.step c = plain := by
  have word : isWordChar c = false := (Bool.or_eq_false_iff.mp other).1
  have digit := isDigit_of_not_word word
  have fresh : (fresh c).isOpen = true → fresh c = plain := by
    intro isOpen
    cases quote : closingQuote? c with
    | some close => simp [WordMode.fresh, quote, WordMode.isOpen] at isOpen
    | none => simp [WordMode.fresh, quote, dash, slash, digit, word]
  cases mode with
  | plain => exact fresh isOpen
  | word | number =>
    rw [step, other] at isOpen ⊢
    exact fresh isOpen
  | dash =>
    rw [step, if_neg dash] at isOpen ⊢
    exact fresh isOpen
  | slash =>
    by_cases star : c = '*'
    · rw [step, if_pos star] at isOpen
      cases isOpen
    · rw [step, if_neg star] at isOpen ⊢
      exact fresh isOpen
  | through close =>
    by_cases last : c = close
    · rw [step, if_pos last]
    · rw [step, if_neg last] at isOpen
      cases isOpen
  | block star =>
    by_cases last : star = true ∧ c = '/'
    · rw [step, if_pos last]
    · rw [step, if_neg last] at isOpen
      cases isOpen

end WordMode

namespace Word

/-- The word that stands `k` bytes further on. -/
def shift (k : Nat) (w : Word) : Word := { w with start := k + w.start, stop := k + w.stop }

theorem scan_shift (s : WordScan) (k pos : Nat) (t : Text) :
    scan s (k + pos) t = (scan s pos t).map (shift k) := by
  induction t generalizing s pos with
  | nil => rfl
  | cons c t ih =>
    have rest := ih (s.step c) (pos + c.utf8Size)
    rw [← Nat.add_assoc] at rest
    rw [scan, scan, rest]
    split
    next => simp [shift, Nat.add_assoc]
    next => rfl

/-- The scan for words comes out of a text at depth zero, outside quotes and comments, and the text
ends in no character that the next one could continue. -/
structure Ended (t : Text) : Prop where
  isOpen : (WordScan.start.run t).mode.isOpen = true
  depth : (WordScan.start.run t).depth = 0
  last : ∀ c ∈ t.getLast?, WordMode.isTail c = false ∧ c ≠ '-' ∧ c ≠ '/'

theorem Ended.run {t : Text} (ended : Ended t) : WordScan.start.run t = .start := by
  have mode : (WordScan.start.run t).mode = .plain := by
    cases t using List.reverseRecOn with
    | nil => rfl
    | append_singleton t c =>
      have isOpen := ended.isOpen
      obtain ⟨other, dash, slash⟩ := ended.last c (by simp)
      rw [WordScan.run_append] at isOpen ⊢
      exact WordMode.step_ended isOpen other dash slash
  calc
    WordScan.start.run t =
        ⟨(WordScan.start.run t).mode, (WordScan.start.run t).depth⟩ := rfl
    _ = WordScan.start := by rw [mode, ended.depth]; rfl

theorem ofText_append {a : Text} (ended : Ended a) (b : Text) :
    ofText (a ++ b) = ofText a ++ (ofText b).map (shift (Text.size a)) := by
  have apart : Apart (WordScan.start.run a) b := by
    rw [ended.run]
    intro word
    cases word
  calc
    ofText (a ++ b) = scan .start 0 a ++ scan (WordScan.start.run a) (0 + Text.size a) b :=
      scan_append 0 apart
    _ = ofText a ++ scan .start (Text.size a + 0) b := by
      rw [ended.run, Nat.zero_add]
      rfl
    _ = ofText a ++ (ofText b).map (shift (Text.size a)) := by
      rw [scan_shift]
      rfl

end Word

namespace Nesting

theorem eq_start_of_isTop {s : Nesting} (top : s.isTop = true) : s = .start := by
  obtain ⟨quote, depth⟩ := s
  simpa [isTop, start] using top

/-- The parts in front of a comma at the top do not depend on what stands behind it. -/
theorem splitCommas_append {s : Nesting} {a : Text} (top : (s.run a).isTop = true) (b : Text) :
    s.splitCommas (a ++ ',' :: b) = s.splitCommas a ++ start.splitCommas b := by
  induction a generalizing s with
  | nil =>
    have here : s = .start := eq_start_of_isTop top
    subst here
    rfl
  | cons c a ih =>
    have rest := ih (s := s.step c) top
    have part : (s.step c).splitCommas a ≠ [] := splitCommas_ne_nil _ a
    rw [List.cons_append]
    cases comma : s.isTop && c == ',' with
    | true => simp [splitCommas, comma, rest]
    | false =>
      rw [splitCommas_cons comma, splitCommas_cons comma, rest]
      cases parts : (s.step c).splitCommas a with
      | nil => exact absurd parts part
      | cons p ps => rfl

theorem topLevelParts_append {a : Text} (top : (start.run a).isTop = true) (b : Text) :
    topLevelParts (a ++ ',' :: b) = topLevelParts a ++ topLevelParts b := by
  rw [topLevelParts, splitCommas_append top, List.map_append]
  rfl

end Nesting

/-- Both scans of a statement go on behind a text that leaves nothing open as they begin. -/
theorem scans_compose (a b : Text) :
    (Word.Ended a →
      Word.ofText (a ++ b) =
        Word.ofText a ++ (Word.ofText b).map (Word.shift (Text.size a))) ∧
    ((Nesting.start.run a).isTop = true →
      topLevelParts (a ++ ',' :: b) = topLevelParts a ++ topLevelParts b) := by
  constructor
  · intro ended
    exact Word.ofText_append ended b
  · intro top
    exact Nesting.topLevelParts_append top b

/-- A stray closing parenthesis, quoted signs, a name in brackets and a comment, all of them ended. -/
def sampleFront : Text := "a), f('(,é', [x\"], b_1$) /* ) ' , ' [ */ ] "

def sampleBehind : Text := "ñ_1 AS (b$, 'c'), 2d"

theorem sample_composes :
    Word.Ended sampleFront ∧ (Nesting.start.run sampleFront).isTop = true ∧
    Word.ofText (sampleFront ++ sampleBehind) =
      Word.ofText sampleFront ++ (Word.ofText sampleBehind).map (Word.shift 44) ∧
    topLevelParts (sampleFront ++ ',' :: sampleBehind) =
      topLevelParts sampleFront ++ topLevelParts sampleBehind := by
  have ended : Word.Ended sampleFront := by
    refine ⟨?_, ?_, ?_⟩
    · decide +kernel
    · decide +kernel
    · have last : sampleFront.getLast? = some ' ' := by decide
      rw [last]
      rintro c ⟨⟩
      decide
  have top : (Nesting.start.run sampleFront).isTop = true := by decide +kernel
  have composed := scans_compose sampleFront sampleBehind
  have size : Text.size sampleFront = 44 := by decide +kernel
  rw [size] at composed
  exact ⟨ended, top, composed.1 ended, composed.2 top⟩

end QueryWeaver
