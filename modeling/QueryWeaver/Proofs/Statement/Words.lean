import Mathlib
import QueryWeaver.Proofs.Text.Blanks
import QueryWeaver.Proofs.Text.Bytes
/-!
The words of a text put together from parts. A scan of the whole is the scans of the parts, unless
a word runs on from one into the next, and each word splits the text it stands in.
-/

namespace QueryWeaver

namespace WordMode

theorem isTail_of_word {c : Char} (word : isWordChar c = true) : isTail c = true := by
  simp [isTail, word]

theorem isDigit_of_not_word {c : Char} (other : isWordChar c = false) : c.isDigit = false := by
  cases digit : c.isDigit with
  | false => rfl
  | true =>
    have point : c.toNat < 128 := by
      simp only [Char.isDigit, Bool.and_eq_true, decide_eq_true_eq, ge_iff_le,
        UInt32.le_iff_toNat_le] at digit
      have value : c.val.toNat = c.toNat := rfl
      have last : '9'.val.toNat = 57 := by decide
      omega
    simp [isWordChar, isAlphanumeric, point, Char.isAlphanum, digit] at other

theorem fresh_word {c : Char} :
    fresh c = word ↔ isWordChar c = true ∧ c.isDigit = false := by
  unfold fresh closingQuote?
  constructor
  · intro begun
    split at begun
    next => cases begun
    next =>
      split at begun
      next => cases begun
      split at begun
      next => cases begun
      split at begun
      next => cases begun
      split at begun
      next digit word => exact ⟨word, by simpa using digit⟩
      next => cases begun
  · rintro ⟨word, digit⟩
    have other (x : Char) (plain : isTail x = false) : c ≠ x :=
      ne_of_class (isTail_of_word word) plain
    simp [other '\'' (by decide), other '"' (by decide), other '\x60' (by decide),
      other '[' (by decide), other '-' (by decide), other '/' (by decide), word, digit]

theorem step_word {c : Char} : word.step c = word ↔ isTail c = true := by
  by_cases tail : isTail c = true
  · simp [step, tail]
  · have other : fresh c ≠ word := fun begun => tail (isTail_of_word (fresh_word.mp begun).1)
    simp [step, tail, other]

/-- Outside a word, a character begins one only as a character that continues nothing. -/
theorem fresh_of_step {mode : WordMode} {c : Char} (other : mode ≠ word)
    (begun : mode.step c = word) : fresh c = word := by
  cases mode with
  | plain => exact begun
  | word => exact absurd rfl other
  | dash | slash | number | through _ | block _ =>
    simp only [step] at begun
    split at begun <;> first | exact begun | cases begun

end WordMode

/-- Whether a text is one word. -/
def isWord : Text → Bool
  | [] => false
  | c :: r => isWordChar c && !c.isDigit && r.all WordMode.isTail

theorem isWord_cases {t : Text} (word : isWord t = true) :
    ∃ c r, t = c :: r ∧ WordMode.fresh c = .word ∧ ∀ x ∈ t, WordMode.isTail x = true := by
  cases t with
  | nil => cases word
  | cons c r =>
    simp only [isWord, Bool.and_eq_true, Bool.not_eq_true', List.all_eq_true] at word
    obtain ⟨⟨first, digit⟩, tail⟩ := word
    exact ⟨c, r, rfl, WordMode.fresh_word.mpr ⟨first, digit⟩,
      List.forall_mem_cons.mpr ⟨WordMode.isTail_of_word first, tail⟩⟩

namespace WordScan

@[simp] theorem run_nil (s : WordScan) : s.run [] = s := rfl

@[simp] theorem run_cons (s : WordScan) (c : Char) (t : Text) : s.run (c :: t) = (s.step c).run t :=
  rfl

theorem run_append (s : WordScan) (a b : Text) : s.run (a ++ b) = (s.run a).run b :=
  List.foldl_append

theorem step_tail {c : Char} (tail : WordMode.isTail c = true) (depth : Nat) :
    (⟨.word, depth⟩ : WordScan).step c = ⟨.word, depth⟩ := by
  have opening := ne_of_class (x := '(') tail (by decide)
  have closing := ne_of_class (x := ')') tail (by decide)
  simp [step, nextDepth, WordMode.step, tail, opening, closing]

theorem run_tail {t : Text} (tail : ∀ c ∈ t, WordMode.isTail c = true) (depth : Nat) :
    (⟨.word, depth⟩ : WordScan).run t = ⟨.word, depth⟩ := by
  induction t with
  | nil => rfl
  | cons c t ih =>
    rw [run_cons, step_tail (tail c (by simp))]
    exact ih fun x member => tail x (List.mem_cons_of_mem c member)

/-- The state inside a word that has begun. -/
theorem step_begins {s : WordScan} {c : Char} (begins : s.begins c = true) :
    s.step c = ⟨.word, s.depth⟩ ∧ WordMode.isTail c = true := by
  obtain ⟨mode, depth⟩ := s
  simp only [WordScan.begins, Bool.and_eq_true, bne_iff_ne, ne_eq, beq_iff_eq] at begins
  obtain ⟨fresh, word⟩ := begins
  have begun := WordMode.fresh_of_step fresh word
  have tail := WordMode.isTail_of_word (WordMode.fresh_word.mp begun).1
  have opening := ne_of_class (x := '(') tail (by decide)
  have closing := ne_of_class (x := ')') tail (by decide)
  refine ⟨?_, tail⟩
  simp only [step] at word ⊢
  rw [word]
  simp [nextDepth, opening, closing]

theorem start_begins {c : Char} (fresh : WordMode.fresh c = .word) : start.begins c = true := by
  simp [begins, step, start, WordMode.step, fresh]

end WordScan

namespace Word

/-- No word runs on from a text scanned in state `s` into the next one. -/
def Apart (s : WordScan) (next : Text) : Prop :=
  s.mode = .word → ∀ c ∈ next.head?, WordMode.isTail c = false

theorem apart_of_head {s : WordScan} {c : Char} {t : Text} (other : WordMode.isTail c = false) :
    Apart s (c :: t) := by
  rintro - x ⟨⟩
  exact other

theorem takeWhile_apart {s : WordScan} {a b : Text} (word : s.mode = .word)
    (apart : Apart (s.run a) b) :
    (a ++ b).takeWhile WordMode.isTail = a.takeWhile WordMode.isTail := by
  induction a generalizing s with
  | nil =>
    cases b with
    | nil => rfl
    | cons c b => simp [apart word c rfl]
  | cons c a ih =>
    cases tail : WordMode.isTail c with
    | false => simp [tail]
    | true =>
      have next : (s.step c).mode = .word := by
        rw [WordScan.step, word]
        exact WordMode.step_word.mpr tail
      simp [tail, ih next apart]

/-- The rest of a word, up to a character that is not in it. -/
theorem takeWhile_tail {r v : Text} (tail : ∀ x ∈ r, WordMode.isTail x = true)
    (apart : ∀ x ∈ v.head?, WordMode.isTail x = false) :
    (r ++ v).takeWhile WordMode.isTail = r := by
  rw [List.takeWhile_append_of_pos tail]
  cases v with
  | nil => simp
  | cons c v => simp [apart c rfl]

theorem scan_append {s : WordScan} (pos : Nat) {a b : Text} (apart : Apart (s.run a) b) :
    scan s pos (a ++ b) = scan s pos a ++ scan (s.run a) (pos + Text.size a) b := by
  induction a generalizing s pos with
  | nil => rfl
  | cons c a ih =>
    have rest := ih (pos + c.utf8Size) apart
    rw [List.cons_append, scan, rest, scan, WordScan.run_cons, Text.size_cons, Nat.add_assoc]
    by_cases begins : s.begins c = true
    · have word : (s.step c).mode = .word := by rw [(WordScan.step_begins begins).1]
      rw [if_pos begins, if_pos begins, takeWhile_apart word apart]
      rfl
    · rw [if_neg begins, if_neg begins]

theorem scan_bounds {s : WordScan} {pos : Nat} {t : Text} {w : Word} (member : w ∈ scan s pos t) :
    pos ≤ w.start ∧ w.start < w.stop ∧ w.stop ≤ pos + Text.size t := by
  induction t generalizing s pos with
  | nil => simp [scan] at member
  | cons c t ih =>
    have later (inside : w ∈ scan (s.step c) (pos + c.utf8Size) t) :
        pos ≤ w.start ∧ w.start < w.stop ∧ w.stop ≤ pos + Text.size (c :: t) := by
      have bounds := ih inside
      rw [Text.size_cons]
      omega
    rw [scan] at member
    split at member
    next =>
      rcases List.mem_cons.mp member with rfl | member
      · have part := Text.size_takeWhile WordMode.isTail t
        have positive := c.utf8Size_pos
        simp only [Text.size_cons]
        omega
      · exact later member
    next => exact later member

/-- What a word says, wherever it stands. -/
def shape (w : Word) : Text × Nat := (w.text, w.depth)

/-- The position of a text does not change what its words say. -/
theorem scan_shapes (s : WordScan) (pos pos' : Nat) (t : Text) :
    (scan s pos t).map shape = (scan s pos' t).map shape := by
  induction t generalizing s pos pos' with
  | nil => rfl
  | cons c t ih =>
    rw [scan, scan]
    split
    next => exact congrArg ((c :: t.takeWhile WordMode.isTail, s.depth) :: ·) (ih (s.step c) _ _)
    next => exact ih (s.step c) _ _

theorem forall_of_shapes {P : Text → Nat → Prop} {words words' : List Word}
    (same : words.map shape = words'.map shape) (each : ∀ w ∈ words, P w.text w.depth) :
    ∀ w ∈ words', P w.text w.depth := by
  intro w member
  have here : shape w ∈ words.map shape := by
    rw [same]
    exact List.mem_map_of_mem member
  obtain ⟨x, inside, shaped⟩ := List.mem_map.mp here
  obtain ⟨text, depth⟩ := Prod.mk.inj shaped
  rw [← text, ← depth]
  exact each x inside

/-- Inside a word no word begins. -/
theorem scan_tail {t : Text} (tail : ∀ c ∈ t, WordMode.isTail c = true) (depth pos : Nat) :
    scan ⟨.word, depth⟩ pos t = [] := by
  induction t generalizing pos with
  | nil => rfl
  | cons c t ih =>
    rw [scan, WordScan.step_tail (tail c (by simp)), ih fun x member => tail x (by simp [member])]
    rfl

/-- A word that begins at the start of a text. -/
theorem scan_word {s : WordScan} (pos : Nat) {c : Char} {r v : Text} (begins : s.begins c = true)
    (tail : ∀ x ∈ r, WordMode.isTail x = true)
    (apart : ∀ x ∈ v.head?, WordMode.isTail x = false) :
    scan s pos (c :: r ++ v) =
      ⟨c :: r, pos, pos + Text.size (c :: r), s.depth⟩ ::
        scan ⟨.word, s.depth⟩ (pos + Text.size (c :: r)) v := by
  have run : s.run (c :: r) = ⟨.word, s.depth⟩ := by
    rw [WordScan.run_cons, (WordScan.step_begins begins).1, WordScan.run_tail tail]
  have whole : r.takeWhile WordMode.isTail = r := List.takeWhile_eq_self_iff.mpr tail
  rw [scan_append pos (by rw [run]; exact fun _ => apart), run, scan, if_pos begins, whole,
    (WordScan.step_begins begins).1, scan_tail tail]
  rfl

/-- A word in the text it stands in: the text before it, whose words are the earlier ones, and the
text after it, whose words are the later ones. -/
structure Splits (s : WordScan) (pos : Nat) (t u v : Text) (w : Word) : Prop where
  whole : t = u ++ (w.text ++ v)
  begins : ∃ c r, w.text = c :: r ∧ (s.run u).begins c = true ∧
    ∀ x ∈ r, WordMode.isTail x = true
  apart : ∀ x ∈ v.head?, WordMode.isTail x = false
  depth : w.depth = (s.run u).depth
  start : w.start = pos + Text.size u
  stop : w.stop = w.start + Text.size w.text

theorem Splits.scan {s : WordScan} {pos : Nat} {t u v : Text} {w : Word}
    (splits : Splits s pos t u v w) :
    scan s pos t = scan s pos u ++ w :: scan ⟨.word, w.depth⟩ w.stop v := by
  obtain ⟨rfl, ⟨c, r, text, begins, tail⟩, apart, depth, start, stop⟩ := splits
  have outside : (s.run u).mode ≠ .word := by
    simp only [WordScan.begins, Bool.and_eq_true, bne_iff_ne] at begins
    exact begins.1
  rw [scan_append pos fun inside => absurd inside outside, text,
    scan_word (pos + Text.size u) begins tail apart, ← text, ← depth, ← start, ← stop]

/-- Each word splits the text. -/
theorem scan_split {s : WordScan} {pos : Nat} {t : Text} {before after : List Word} {w : Word}
    (words : scan s pos t = before ++ w :: after) :
    ∃ u v, Splits s pos t u v w ∧ before = scan s pos u ∧
      after = scan ⟨.word, w.depth⟩ w.stop v := by
  -- It is enough to find a split with the same number of words before it.
  suffices found : ∃ u v, Splits s pos t u v w ∧ before.length = (scan s pos u).length by
    obtain ⟨u, v, splits, length⟩ := found
    obtain ⟨same, rest⟩ := List.append_inj (words.symm.trans splits.scan) length
    exact ⟨u, v, splits, same, (List.cons.inj rest).2⟩
  induction t generalizing s pos before with
  | nil => simp [scan] at words
  | cons c t ih =>
    have later {before' : List Word}
        (words : scan (s.step c) (pos + c.utf8Size) t = before' ++ w :: after) : ∃ u v,
        Splits s pos (c :: t) (c :: u) v w ∧
        before'.length = (scan (s.step c) (pos + c.utf8Size) u).length := by
      obtain ⟨u, v, splits, length⟩ := ih words
      obtain ⟨rfl, begins, apart, depth, start, stop⟩ := splits
      exact ⟨u, v, ⟨rfl, begins, apart, depth, by simp [start, Nat.add_assoc], stop⟩, length⟩
    rw [scan] at words
    by_cases begins : s.begins c = true
    · rw [if_pos begins] at words
      cases before with
      | nil =>
        obtain ⟨rfl, -⟩ := List.cons.inj words
        refine ⟨[], t.dropWhile WordMode.isTail,
          ⟨?_, ⟨c, _, rfl, begins, ?_⟩, ?_, rfl, rfl, rfl⟩, rfl⟩
        · simp
        · exact fun x member => List.mem_takeWhile_imp member
        · intro x member
          have := List.head?_dropWhile_not WordMode.isTail t
          rw [Option.mem_def.mp member] at this
          exact this
      | cons first before =>
        obtain ⟨u, v, splits, length⟩ := later (List.cons.inj words).2
        exact ⟨c :: u, v, splits, by simp [scan, begins, length]⟩
    · rw [if_neg begins] at words
      obtain ⟨u, v, splits, length⟩ := later words
      exact ⟨c :: u, v, splits, by simp [scan, begins, length]⟩

theorem splits_top {u word : Text} (top : WordScan.start.run u = .start) (one : isWord word = true)
    {v : Text} (apart : ∀ x ∈ v.head?, WordMode.isTail x = false) :
    Splits .start 0 (u ++ (word ++ v)) u v
      ⟨word, Text.size u, Text.size u + Text.size word, 0⟩ := by
  obtain ⟨c, r, rfl, fresh, tail⟩ := isWord_cases one
  refine ⟨rfl, ⟨c, r, rfl, ?_, fun x member => tail x (List.mem_cons_of_mem c member)⟩, apart,
    ?_, (Nat.zero_add _).symm, rfl⟩
  · rw [top]
    exact WordScan.start_begins fresh
  · rw [top]
    rfl

end Word
end QueryWeaver
