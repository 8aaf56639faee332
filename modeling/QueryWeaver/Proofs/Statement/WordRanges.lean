import Mathlib
import QueryWeaver.Proofs.Statement.Closed
import QueryWeaver.Proofs.Text.Ranges
/-!
The words of a text found by byte offsets. A loop over the characters looks one character ahead,
passes over quoted text and comments, and cuts each word out where it has ended. It always finds the
words of the scan, and these stand apart from each other.
-/

namespace QueryWeaver

namespace WordScan

/-- The characters behind the first `close`. -/
def skipThrough (close : Char) : List (Nat × Char) → List (Nat × Char)
  | [] => []
  | (_, c) :: r => if c = close then r else skipThrough close r

/-- The characters behind the first slash that directly follows a star. -/
def skipBlock : Bool → List (Nat × Char) → List (Nat × Char)
  | _, [] => []
  | star, (_, c) :: r => if star ∧ c = '/' then r else skipBlock (c == '*') r

/-- Where a word ends that has been read up to `stop`, and the characters behind it. -/
def skipTail (stop : Nat) : List (Nat × Char) → Nat × List (Nat × Char)
  | [] => (stop, [])
  | (i, c) :: r => if WordMode.isTail c then skipTail (i + c.utf8Size) r else (stop, (i, c) :: r)

theorem skipThrough_length (close : Char) (chars : List (Nat × Char)) :
    (skipThrough close chars).length ≤ chars.length := by
  fun_induction skipThrough close chars with
  | case1 => exact Nat.le_refl _
  | case2 => exact Nat.le_succ _
  | case3 _ _ _ _ ih => exact Nat.le_succ_of_le ih

theorem skipBlock_length (star : Bool) (chars : List (Nat × Char)) :
    (skipBlock star chars).length ≤ chars.length := by
  fun_induction skipBlock star chars with
  | case1 => exact Nat.le_refl _
  | case2 => exact Nat.le_succ _
  | case3 _ _ _ _ _ ih => exact Nat.le_succ_of_le ih

theorem skipTail_length (stop : Nat) (chars : List (Nat × Char)) :
    (skipTail stop chars).2.length ≤ chars.length := by
  fun_induction skipTail stop chars with
  | case1 => exact Nat.le_refl _
  | case2 _ _ _ _ _ ih => exact Nat.le_succ_of_le ih
  | case3 => exact Nat.le_refl _

def follows (chars : List (Nat × Char)) (c : Char) : Bool := chars.head?.map Prod.snd == some c

/-- The depth and the characters behind one that begins no word, with all that goes with it. -/
def passOver (depth : Nat) (c : Char) (r : List (Nat × Char)) : Nat × List (Nat × Char) :=
  match closingQuote? c with
  | some close => (depth, skipThrough close r)
  | none =>
    if c = '-' ∧ follows r '-' then (depth, skipThrough '\n' r)
    else if c = '/' ∧ follows r '*' then (depth, skipBlock false r.tail)
    else if c = '(' then (depth + 1, r)
    else if c = ')' then (depth - 1, r)
    else if c.isDigit then (depth, (skipTail 0 r).2)
    else (depth, r)

theorem passOver_length (depth : Nat) (c : Char) (r : List (Nat × Char)) :
    (passOver depth c r).2.length ≤ r.length := by
  unfold passOver
  split
  next close _ => exact skipThrough_length close r
  split
  next => exact skipThrough_length '\n' r
  split
  next =>
    calc
      (skipBlock false r.tail).length ≤ r.tail.length := skipBlock_length false r.tail
      _ ≤ r.length := by simp
  split
  next => exact Nat.le_refl _
  split
  next => exact Nat.le_refl _
  split
  next => exact skipTail_length 0 r
  next => exact Nat.le_refl _

end WordScan

namespace Word

open WordScan

/-- The words among the characters of `sql` that are left; none where a word cannot be cut out. -/
def slicedFrom (sql : Text) (depth : Nat) : List (Nat × Char) → Option (List Word)
  | [] => some []
  | (i, c) :: r =>
    if isWordChar c ∧ ¬c.isDigit then do
      let stop := (skipTail (i + c.utf8Size) r).1
      let text ← Text.slice? sql i stop
      let words ← slicedFrom sql depth (skipTail (i + c.utf8Size) r).2
      return ⟨text, i, stop, depth⟩ :: words
    else slicedFrom sql (passOver depth c r).1 (passOver depth c r).2
termination_by chars => chars.length
decreasing_by
  · exact Nat.lt_succ_of_le (skipTail_length _ r)
  · exact Nat.lt_succ_of_le (passOver_length depth c r)

def sliced (sql : Text) : Option (List Word) := slicedFrom sql 0 (Text.indexed 0 sql)

theorem follows_indexed (pos : Nat) (t : Text) (c : Char) :
    follows (Text.indexed pos t) c = true ↔ c ∈ t.head? := by
  cases t with
  | nil => simp [follows]
  | cons d t => simp [follows]

theorem scan_cons_idle {s : WordScan} {c : Char} (idle : s.begins c = false) (pos : Nat) (r : Text) :
    scan s pos (c :: r) = scan (s.step c) (pos + c.utf8Size) r := by
  rw [scan, idle]
  rfl

/-- Where the next character continues nothing a scan goes on as in the plain mode. -/
theorem scan_afresh {mode : WordMode} {t : Text} (isOpen : mode.isOpen = true)
    (afresh : ∀ c ∈ t.head?, mode.step c = .fresh c)
    (apart : mode = .word → ∀ c ∈ t.head?, WordMode.isTail c = false) (depth pos : Nat) :
    scan ⟨mode, depth⟩ pos t = scan ⟨.plain, depth⟩ pos t := by
  cases t with
  | nil => rfl
  | cons c r =>
    have step : (⟨mode, depth⟩ : WordScan).step c = (⟨.plain, depth⟩ : WordScan).step c := by
      rw [WordScan.step, WordScan.step, isOpen, afresh c rfl]
      rfl
    have begins : (⟨mode, depth⟩ : WordScan).begins c = (⟨.plain, depth⟩ : WordScan).begins c := by
      rw [WordScan.begins, WordScan.begins, step]
      by_cases word : mode = .word
      · have other : WordMode.fresh c ≠ .word := by
          intro begun
          have tail := WordMode.isTail_of_word (WordMode.fresh_word.mp begun).1
          rw [apart word c rfl] at tail
          cases tail
        have idle : (((⟨.plain, depth⟩ : WordScan).step c).mode == .word) = false :=
          beq_eq_false_iff_ne.mpr other
        rw [idle, Bool.and_false, Bool.and_false]
      · have outside : (mode != .word) = true := bne_iff_ne.mpr word
        rw [outside]
        rfl
    rw [scan, scan, step, begins]

/-- A scan that reaches the characters `chars` in the plain mode, with no word before them. -/
def Resumes (s : WordScan) (pos : Nat) (t : Text) (chars : List (Nat × Char)) : Prop :=
  ∃ u v, t = u ++ v ∧ chars = Text.indexed (pos + Text.size u) v ∧
    scan s pos t = scan ⟨.plain, s.depth⟩ (pos + Text.size u) v

theorem Resumes.here {s : WordScan} {pos : Nat} {t : Text}
    (same : scan s pos t = scan ⟨.plain, s.depth⟩ pos t) : Resumes s pos t (Text.indexed pos t) :=
  ⟨[], t, rfl, rfl, same⟩

theorem Resumes.cons {s : WordScan} {pos : Nat} {c : Char} {r : Text} {chars : List (Nat × Char)}
    (idle : s.begins c = false) (depth : (s.step c).depth = s.depth)
    (rest : Resumes (s.step c) (pos + c.utf8Size) r chars) : Resumes s pos (c :: r) chars := by
  obtain ⟨u, v, rfl, rfl, same⟩ := rest
  refine ⟨c :: u, v, rfl, ?_, ?_⟩
  · rw [Text.size_cons, Nat.add_assoc]
  · rw [scan_cons_idle idle, same, depth, Text.size_cons, Nat.add_assoc]

theorem resumes_through (close : Char) (depth pos : Nat) (t : Text) :
    Resumes ⟨.through close, depth⟩ pos t (skipThrough close (Text.indexed pos t)) := by
  induction t generalizing pos with
  | nil => exact .here rfl
  | cons c r ih =>
    by_cases last : c = close
    · rw [Text.indexed_cons, skipThrough, if_pos last]
      refine .cons ?_ ?_ (.here ?_)
      all_goals simp [WordScan.begins, WordScan.step, WordMode.step, WordMode.isOpen, nextDepth, last]
    · rw [Text.indexed_cons, skipThrough, if_neg last]
      have step : (⟨.through close, depth⟩ : WordScan).step c = ⟨.through close, depth⟩ := by
        simp [WordScan.step, WordMode.step, WordMode.isOpen, nextDepth, last]
      refine .cons ?_ ?_ ?_
      · simp [WordScan.begins, step]
      · rw [step]
      · rw [step]
        exact ih _

theorem resumes_block (star : Bool) (depth pos : Nat) (t : Text) :
    Resumes ⟨.block star, depth⟩ pos t (skipBlock star (Text.indexed pos t)) := by
  induction t generalizing star pos with
  | nil => exact .here rfl
  | cons c r ih =>
    by_cases last : star = true ∧ c = '/'
    · rw [Text.indexed_cons, skipBlock, if_pos last]
      refine .cons ?_ ?_ (.here ?_)
      all_goals simp [WordScan.begins, WordScan.step, WordMode.step, WordMode.isOpen, nextDepth, last]
    · rw [Text.indexed_cons, skipBlock, if_neg last]
      have step : (⟨.block star, depth⟩ : WordScan).step c = ⟨.block (c == '*'), depth⟩ := by
        simp [WordScan.step, WordMode.step, WordMode.isOpen, nextDepth, last]
      refine .cons ?_ ?_ ?_
      · simp [WordScan.begins, step]
      · rw [step]
      · rw [step]
        exact ih _ _

/-- Inside a word or a number the scan reaches what is behind it. -/
theorem resumes_tail {mode : WordMode} (inside : mode = .word ∨ mode = .number)
    (depth pos stop : Nat) (t : Text) :
    Resumes ⟨mode, depth⟩ pos t (skipTail stop (Text.indexed pos t)).2 := by
  have isOpen : mode.isOpen = true := by rcases inside with rfl | rfl <;> rfl
  induction t generalizing pos stop with
  | nil => exact .here rfl
  | cons c r ih =>
    rw [Text.indexed_cons, skipTail]
    cases tail : WordMode.isTail c with
    | true =>
      have opening := ne_of_class (x := '(') tail (by decide)
      have closing := ne_of_class (x := ')') tail (by decide)
      have step : (⟨mode, depth⟩ : WordScan).step c = ⟨mode, depth⟩ := by
        rcases inside with rfl | rfl <;>
          simp [WordScan.step, WordMode.step, nextDepth, tail, opening, closing]
      refine .cons ?_ ?_ ?_
      · rw [WordScan.begins, step]
        rcases inside with rfl | rfl <;> rfl
      · rw [step]
      · rw [step]
        exact ih _ _
    | false =>
      refine .here (scan_afresh isOpen ?_ ?_ depth pos)
      · rintro d ⟨⟩
        rcases inside with rfl | rfl <;> simp [WordMode.step, tail]
      · rintro - d ⟨⟩
        exact tail

theorem skipTail_stop (pos : Nat) (t : Text) :
    (skipTail pos (Text.indexed pos t)).1 = pos + Text.size (t.takeWhile WordMode.isTail) := by
  induction t generalizing pos with
  | nil => rfl
  | cons c r ih =>
    rw [Text.indexed_cons, skipTail]
    cases tail : WordMode.isTail c with
    | true =>
      rw [if_pos rfl, ih, List.takeWhile_cons_of_pos tail, Text.size_cons, Nat.add_assoc]
    | false => simp [tail]

/-- A sign that does not go together with the next character. -/
theorem resumes_sign {c : Char} {r : Text} (unquoted : closingQuote? c = none)
    (line : ¬(c = '-' ∧ '-' ∈ r.head?)) (block : ¬(c = '/' ∧ '*' ∈ r.head?))
    (plain : isWordChar c = false) (depth pos : Nat) :
    Resumes ⟨.fresh c, depth⟩ pos r (Text.indexed pos r) := by
  have digit := WordMode.isDigit_of_not_word plain
  have afresh : ∀ d ∈ r.head?, (WordMode.fresh c).step d = .fresh d := by
    intro d next
    by_cases dash : c = '-'
    · subst dash
      have other : d ≠ '-' := by
        rintro rfl
        exact line ⟨rfl, next⟩
      exact if_neg other
    by_cases slash : c = '/'
    · subst slash
      have other : d ≠ '*' := by
        rintro rfl
        exact block ⟨rfl, next⟩
      exact if_neg other
    simp [WordMode.fresh, unquoted, digit, plain, dash, slash, WordMode.step]
  refine .here (scan_afresh (WordMode.fresh_unquoted unquoted).1 afresh ?_ depth pos)
  intro word
  rw [WordMode.fresh_word, plain] at word
  cases word.1

/-- The loop passes over the same characters as the scan. -/
theorem resumes_passOver {c : Char} (other : WordMode.fresh c ≠ .word) (depth pos : Nat) (r : Text) :
    (passOver depth c (Text.indexed pos r)).1 = ((⟨.plain, depth⟩ : WordScan).step c).depth ∧
      Resumes ((⟨.plain, depth⟩ : WordScan).step c) pos r (passOver depth c (Text.indexed pos r)).2 := by
  unfold passOver
  simp only [follows_indexed]
  split
  next close quote =>
    rw [step_quote (WordMode.fits_plain (c :: r)) quote]
    exact ⟨rfl, resumes_through close depth pos r⟩
  next unquoted =>
    split
    next line =>
      obtain ⟨rfl, next⟩ := line
      obtain ⟨r', rfl⟩ := List.head?_eq_some_iff.mp next
      exact ⟨rfl, .cons rfl rfl (resumes_through '\n' depth _ r')⟩
    split
    next block =>
      obtain ⟨rfl, next⟩ := block
      obtain ⟨r', rfl⟩ := List.head?_eq_some_iff.mp next
      exact ⟨rfl, .cons rfl rfl (resumes_block false depth _ r')⟩
    split
    next opening =>
      subst opening
      exact ⟨rfl, .here rfl⟩
    split
    next closing =>
      subst closing
      exact ⟨rfl, .here rfl⟩
    split
    next line block opening closing digit =>
      have step : (⟨.plain, depth⟩ : WordScan).step c = ⟨.number, depth⟩ := by
        have sign (x : Char) (mark : x.isDigit = false) : c ≠ x := ne_of_class digit mark
        simp [WordScan.step, WordMode.step, WordMode.fresh, unquoted, nextDepth, opening, closing,
          digit, sign '-' (by decide), sign '/' (by decide)]
      rw [step]
      exact ⟨rfl, resumes_tail (.inr rfl) depth pos 0 r⟩
    next line block opening closing digit =>
      have plain : isWordChar c = false := by
        by_contra word
        exact other (WordMode.fresh_word.mpr ⟨by simpa using word, by simpa using digit⟩)
      have step : (⟨.plain, depth⟩ : WordScan).step c = ⟨.fresh c, depth⟩ := by
        simp [WordScan.step, WordMode.step, nextDepth, opening, closing]
      rw [step]
      exact ⟨rfl, resumes_sign unquoted line block plain depth pos⟩

/-- A word is cut out where it has ended. -/
theorem slice?_word (a : Text) (c : Char) (r : Text) :
    Text.slice? (a ++ c :: r) (Text.size a)
      (skipTail (Text.size a + c.utf8Size) (Text.indexed (Text.size a + c.utf8Size) r)).1 =
        some (c :: r.takeWhile WordMode.isTail) := by
  have text := Text.slice?_append a (c :: r.takeWhile WordMode.isTail)
    (r.dropWhile WordMode.isTail)
  rw [List.cons_append, List.takeWhile_append_dropWhile, Text.size_cons, ← Nat.add_assoc] at text
  rw [skipTail_stop, text]

/-- The loop finds the words of the scan, and cuts out each of them. -/
theorem slicedFrom_eq (a t : Text) (depth : Nat) :
    slicedFrom (a ++ t) depth (Text.indexed (Text.size a) t) =
      some (scan ⟨.plain, depth⟩ (Text.size a) t) := by
  induction n : t.length using Nat.strong_induction_on generalizing a t depth with
  | _ n ih =>
  subst n
  cases t with
  | nil =>
    rw [Text.indexed_nil, slicedFrom]
    rfl
  | cons c r =>
    -- What follows a passage is shorter, and the loop takes it up where the scan does.
    have later {s : WordScan} {chars : List (Nat × Char)}
        (resumes : Resumes s (Text.size a + c.utf8Size) r chars) :
        slicedFrom (a ++ c :: r) s.depth chars =
          some (scan s (Text.size a + c.utf8Size) r) := by
      obtain ⟨u, v, rfl, rfl, same⟩ := resumes
      have rest := ih v.length (by simp) (a ++ c :: u) v s.depth rfl
      have place : Text.size a + c.utf8Size + Text.size u = Text.size (a ++ c :: u) := by
        simp [Nat.add_assoc]
      rw [same, place, ← rest]
      simp
    have letter : (isWordChar c = true ∧ ¬c.isDigit = true) ↔ WordMode.fresh c = .word := by
      rw [Bool.not_eq_true, WordMode.fresh_word]
    rw [Text.indexed_cons, slicedFrom]
    by_cases word : WordMode.fresh c = .word
    · have begins : (⟨.plain, depth⟩ : WordScan).begins c = true := start_begins word
      have step := (step_begins begins).1
      have rest := later (resumes_tail (.inl rfl) depth _ (Text.size a + c.utf8Size) r)
      rw [if_pos (letter.mpr word)]
      dsimp only
      rw [slice?_word, rest, skipTail_stop, scan, begins, step]
      simp [Nat.add_assoc]
    · have begins : (⟨.plain, depth⟩ : WordScan).begins c = false := by
        simpa [WordScan.begins, WordScan.step, WordMode.step] using word
      obtain ⟨deep, resumes⟩ := resumes_passOver word depth (Text.size a + c.utf8Size) r
      rw [if_neg (mt letter.mp word), deep, later resumes, scan_cons_idle begins]

theorem sliced_eq (sql : Text) : sliced sql = some (ofText sql) := slicedFrom_eq [] sql 0

/-- What is left of a word keeps the next word away. -/
theorem start_behind_tail {depth pos : Nat} {t : Text} {w : Word}
    (member : w ∈ scan ⟨.word, depth⟩ pos t) :
    pos + Text.size (t.takeWhile WordMode.isTail) < w.start := by
  induction t generalizing pos with
  | nil => simp [scan] at member
  | cons c r ih =>
    have idle : (⟨.word, depth⟩ : WordScan).begins c = false := rfl
    rw [scan_cons_idle idle] at member
    cases tail : WordMode.isTail c with
    | true =>
      rw [step_tail tail] at member
      have behind := ih member
      rw [List.takeWhile_cons_of_pos tail, Text.size_cons]
      omega
    | false =>
      have behind := (scan_bounds member).1
      have positive := c.utf8Size_pos
      rw [List.takeWhile_cons_of_neg (by simp [tail]), Text.size_nil]
      omega

/-- The words stand one behind the other, and never side by side. -/
theorem scan_ordered (s : WordScan) (pos : Nat) (t : Text) :
    (scan s pos t).Pairwise fun w w' => w.stop < w'.start := by
  induction t generalizing s pos with
  | nil => exact .nil
  | cons c r ih =>
    cases begins : s.begins c with
    | false =>
      rw [scan_cons_idle begins]
      exact ih _ _
    | true =>
      rw [scan, if_pos begins]
      refine List.pairwise_cons.mpr ⟨?_, ih _ _⟩
      intro w member
      rw [(step_begins begins).1] at member
      calc
        pos + Text.size (c :: r.takeWhile WordMode.isTail) =
            pos + c.utf8Size + Text.size (r.takeWhile WordMode.isTail) := by
          rw [Text.size_cons, Nat.add_assoc]
        _ < w.start := start_behind_tail member

/-- A word is what its bytes are in the text. -/
theorem slice?_eq {sql : Text} {w : Word} (member : w ∈ ofText sql) :
    Text.slice? sql w.start w.stop = some w.text := by
  obtain ⟨before, after, words⟩ := List.append_of_mem member
  obtain ⟨u, v, splits, -, -⟩ := scan_split words
  obtain ⟨rfl, -, -, -, start, stop⟩ := splits
  rw [stop, start, Nat.zero_add]
  exact Text.slice?_append u w.text v

theorem isRange {sql : Text} {w : Word} (member : w ∈ ofText sql) :
    Text.IsRange sql w.start w.stop :=
  Text.isRange_of_slice? (slice?_eq member)

end Word
end QueryWeaver
