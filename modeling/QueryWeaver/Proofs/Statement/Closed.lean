import QueryWeaver.Proofs.Statement.Words
import QueryWeaver.Proofs.Text.Parts
import QueryWeaver.Statement.TopLevel
/-!
Closed SQL text: quotes, brackets and comments end, parentheses balance. Both scans of a statement
come out of it as they went in, and its words stand no higher than the text itself.
-/

namespace QueryWeaver

/-- Whether two characters in a row begin a comment. -/
def beginsComment (c d : Char) : Bool := (c == '-' && d == '-') || (c == '/' && d == '*')

/-- Text with closed quotes and brackets and balanced parentheses. Comments in it are closed where
they are allowed; where they are not, nothing outside quotes begins one. -/
inductive Closed (comments : Bool) : Text → Prop
  | nil : Closed comments []
  | char {c : Char} {r : Text} : closingQuote? c = none → c ≠ '(' → c ≠ ')' →
      (∀ d ∈ r.head?, beginsComment c d = false) → Closed comments r → Closed comments (c :: r)
  | quoted {first last : Char} {body r : Text} : closingQuote? first = some last → last ∉ body →
      Closed comments r → Closed comments (first :: (body ++ last :: r))
  | group {body r : Text} : Closed comments body → Closed comments r →
      Closed comments ('(' :: (body ++ ')' :: r))
  | line {body r : Text} : comments = true → '\n' ∉ body → Closed comments r →
      Closed comments ('-' :: '-' :: (body ++ '\n' :: r))
  | block {body r : Text} : comments = true → Text.contains ['*', '/'] body = false →
      Closed comments r → Closed comments ('/' :: '*' :: (body ++ '*' :: '/' :: r))

/-- A character that stands for itself in SQL text. -/
def isPlain (c : Char) : Bool := WordMode.isTail c || c == '.' || c == ' '

namespace WordMode

/-- Whether a character completes the opening of a comment. -/
def joins : WordMode → Char → Bool
  | dash, c => c == '-'
  | slash, c => c == '*'
  | _, _ => false

/-- A text can be read in this mode as if it stood alone. -/
structure Fits (mode : WordMode) (t : Text) : Prop where
  isOpen : mode.isOpen = true
  apart : ∀ c ∈ t.head?, mode.joins c = false

theorem fits_plain (t : Text) : Fits plain t := ⟨rfl, fun _ _ => rfl⟩

theorem fits_of_head {mode : WordMode} (isOpen : mode.isOpen = true) {c : Char}
    (dash : c ≠ '-') (star : c ≠ '*') (r : Text) : Fits mode (c :: r) := by
  refine ⟨isOpen, ?_⟩
  rintro d ⟨⟩
  cases mode <;> simp [joins, dash, star]

theorem closingQuote?_tail {c : Char} (tail : isTail c = true) : closingQuote? c = none := by
  have other (x : Char) (plain : isTail x = false) : c ≠ x := ne_of_class tail plain
  simp [closingQuote?, other '\'' (by decide), other '"' (by decide), other '\x60' (by decide),
    other '[' (by decide)]

/-- In an open mode, a character that opens no comment is read afresh unless it continues a word or
a number. -/
theorem step_cases {mode : WordMode} {c : Char} {r : Text} (fits : Fits mode (c :: r)) :
    mode.step c = fresh c ∨
      mode.step c = mode ∧ isTail c = true ∧ ∀ d, mode.joins d = false := by
  have apart := fits.apart c rfl
  cases mode with
  | plain => exact .inl rfl
  | dash | slash => exact .inl (by simp_all [step, joins])
  | word | number =>
    cases tail : isTail c with
    | false => exact .inl (by simp [step, tail])
    | true => exact .inr ⟨by simp [step, tail], rfl, fun _ => rfl⟩
  | through _ | block _ => exact absurd fits.isOpen (by simp [WordMode.isOpen])

theorem step_fresh {mode : WordMode} {c : Char} {r : Text} (fits : Fits mode (c :: r))
    (other : isTail c = false) : mode.step c = fresh c := by
  rcases step_cases fits with here | ⟨-, tail, -⟩
  · exact here
  · rw [other] at tail
    cases tail

theorem fresh_unquoted {c : Char} (unquoted : closingQuote? c = none) :
    (fresh c).isOpen = true ∧ ∀ d, (fresh c).joins d = true → beginsComment c d = true := by
  unfold fresh
  rw [unquoted]
  dsimp only
  split
  next dash => simp [isOpen, joins, beginsComment, dash]
  split
  next slash => simp [isOpen, joins, beginsComment, slash]
  split
  next => simp [isOpen, joins]
  split <;> simp [isOpen, joins]

theorem Fits.step {mode : WordMode} {c : Char} {r : Text} (fits : Fits mode (c :: r))
    (unquoted : closingQuote? c = none) (apart : ∀ d ∈ r.head?, beginsComment c d = false) :
    Fits (mode.step c) r := by
  obtain ⟨isOpen, joined⟩ := fresh_unquoted unquoted
  rcases step_cases fits with here | ⟨here, -, alone⟩
  · rw [here]
    refine ⟨isOpen, fun d next => ?_⟩
    cases joins : (fresh c).joins d with
    | false => rfl
    | true => exact absurd (joined d joins) (by simp [apart d next])
  · rw [here]
    exact ⟨fits.isOpen, fun d _ => alone d⟩

end WordMode

theorem isBlank_of_quote {first last : Char} (quote : closingQuote? first = some last) :
    isBlank first = false := by
  cases blank : isBlank first with
  | false => rfl
  | true =>
    have other (x : Char) (solid : isBlank x = false) : first ≠ x := ne_of_class blank solid
    simp [closingQuote?, other '\'' (by decide), other '"' (by decide), other '\x60' (by decide),
      other '[' (by decide)] at quote

/-- No opening quote is in a word. -/
theorem isTail_of_quote {first last : Char} (quote : closingQuote? first = some last) :
    WordMode.isTail first = false := by
  cases tail : WordMode.isTail first with
  | false => rfl
  | true =>
    rw [WordMode.closingQuote?_tail tail] at quote
    cases quote

namespace WordScan

theorem step_sign {s : WordScan} {c : Char} {r : Text} (fits : s.mode.Fits (c :: r))
    (other : WordMode.isTail c = false) :
    s.step c = ⟨WordMode.fresh c, nextDepth true s.depth c⟩ := by
  rw [step, WordMode.step_fresh fits other, fits.isOpen]

theorem step_blank {s : WordScan} (isOpen : s.mode.isOpen = true) {c : Char}
    (blank : isBlank c = true) : s.step c = ⟨.plain, s.depth⟩ := by
  have other (x : Char) (solid : isBlank x = false) : c ≠ x := ne_of_class blank solid
  rw [step_sign (WordMode.fits_of_head isOpen (other '-' (by decide)) (other '*' (by decide)) [])
    (isTail_of_blank blank), fresh_blank blank]
  simp [nextDepth, other '(' (by decide), other ')' (by decide)]

theorem step_quote {s : WordScan} {first last : Char} {r : Text} (fits : s.mode.Fits (first :: r))
    (quote : closingQuote? first = some last) : s.step first = ⟨.through last, s.depth⟩ := by
  have opening : first ≠ '(' := by
    rintro rfl
    cases quote
  have closing : first ≠ ')' := by
    rintro rfl
    cases quote
  rw [step_sign fits (isTail_of_quote quote)]
  simp [WordMode.fresh, quote, nextDepth, opening, closing]

/-- Reading `t` in state `s` ends in state `s'`, and the words that begin in `t` satisfy `P`. -/
structure Scans (P : Text → Nat → Prop) (s : WordScan) (t : Text) (s' : WordScan) : Prop where
  run : s.run t = s'
  words : ∀ pos, ∀ w ∈ Word.scan s pos t, P w.text w.depth

namespace Scans

variable {P : Text → Nat → Prop} {s s' s'' : WordScan}

theorem nil : Scans P s [] s := ⟨rfl, fun _ _ member => by cases member⟩

theorem mono {Q : Text → Nat → Prop} {t : Text} (scans : Scans P s t s')
    (imp : ∀ text depth, P text depth → Q text depth) : Scans Q s t s' :=
  ⟨scans.run, fun pos w member => imp _ _ (scans.words pos w member)⟩

theorem cons {c : Char} {r : Text} (rest : Scans P (s.step c) r s')
    (begun : s.begins c = true → P (c :: r.takeWhile WordMode.isTail) s.depth) :
    Scans P s (c :: r) s' := by
  refine ⟨rest.run, fun pos => ?_⟩
  rw [Word.scan]
  split
  next begins => exact List.forall_mem_cons.mpr ⟨begun begins, rest.words _⟩
  next => exact rest.words _

theorem append {a b : Text} (first : Scans P s a s') (second : Scans P s' b s'')
    (apart : Word.Apart s' b) : Scans P s (a ++ b) s'' := by
  refine ⟨by rw [run_append, first.run, second.run], fun pos => ?_⟩
  rw [Word.scan_append pos (by rwa [first.run]), first.run]
  exact List.forall_mem_append.mpr ⟨first.words _, second.words _⟩

/-- A character that is in no word. -/
theorem skip {c : Char} {r : Text} (rest : Scans P (s.step c) r s')
    (other : WordMode.isTail c = false) : Scans P s (c :: r) s' := by
  refine cons rest fun begins => ?_
  rw [(step_begins begins).2] at other
  cases other

theorem blanks {t : Text} (blank : ∀ c ∈ t, isBlank c = true) : Scans P start t start := by
  induction t with
  | nil => exact .nil
  | cons c t ih =>
    obtain ⟨first, others⟩ := List.forall_mem_cons.mp blank
    refine .skip ?_ (isTail_of_blank first)
    rw [step_blank rfl first]
    exact ih others

/-- Wordless text moves the words behind it and leaves what they say. -/
theorem shapes_behind {a : Text} (scans : Scans (fun _ _ => False) start a start) (t : Text) :
    (Word.ofText (a ++ t)).map Word.shape = (Word.ofText t).map Word.shape := by
  have wordless : Word.scan start 0 a = [] := List.eq_nil_iff_forall_not_mem.mpr (scans.words 0)
  have apart : Word.Apart (start.run a) t := by
    rw [scans.run]
    exact fun word => by cases word
  rw [Word.ofText, Word.scan_append 0 apart, wordless, scans.run, List.nil_append]
  exact Word.scan_shapes start _ 0 t

/-- Text that no word begins in, up to the character that closes it. -/
theorem through {close : Char} {body r : Text} {depth : Nat} (inside : close ∉ body)
    (rest : Scans P ⟨.plain, depth⟩ r s') :
    Scans P ⟨.through close, depth⟩ (body ++ close :: r) s' := by
  induction body with
  | nil =>
    refine cons (by simpa [WordScan.step, WordMode.step, nextDepth, WordMode.isOpen] using rest) ?_
    simp [begins, WordScan.step, WordMode.step]
  | cons c body ih =>
    obtain ⟨other, inside⟩ := not_or.mp (mt List.mem_cons.mpr inside)
    refine cons ?_ ?_
    · simpa [WordScan.step, WordMode.step, nextDepth, WordMode.isOpen, Ne.symm other]
        using ih inside
    · simp [begins, WordScan.step, WordMode.step, Ne.symm other]

/-- Text in parentheses. -/
theorem group {s₁ : WordScan} {body r : Text} (fits : s.mode.Fits ('(' :: (body ++ ')' :: r)))
    (inner : Scans P ⟨.plain, s.depth + 1⟩ body s₁) (isOpen : s₁.mode.isOpen = true)
    (depth : s₁.depth = s.depth + 1) (rest : Scans P ⟨.plain, s.depth⟩ r s') :
    Scans P s ('(' :: (body ++ ')' :: r)) s' := by
  have opened : s.step '(' = ⟨.plain, s.depth + 1⟩ := step_sign fits (by decide)
  have closed : s₁.step ')' = ⟨.plain, s.depth⟩ := by
    rw [step_sign (WordMode.fits_of_head isOpen (by decide) (by decide) r) (by decide), depth]
    rfl
  refine .skip ?_ (by decide)
  rw [opened]
  refine inner.append (.skip ?_ (by decide)) (Word.apart_of_head (by decide))
  rwa [closed]

/-- A block comment goes on as long as nothing closes it. -/
theorem unclosed {body : Text} (star : Bool) (inside : Text.cut ['*', '/'] body = none)
    (apart : star = true → '/' ∉ body.head?) (depth : Nat) :
    ∃ star', Scans P ⟨.block star, depth⟩ body ⟨.block star', depth⟩ := by
  induction body generalizing star with
  | nil => exact ⟨star, .nil⟩
  | cons c body ih =>
    have still : (⟨.block star, depth⟩ : WordScan).step c = ⟨.block (c == '*'), depth⟩ := by
      have unclosed : ¬(star = true ∧ c = '/') := by
        rintro ⟨star, rfl⟩
        exact apart star rfl
      simp [WordScan.step, WordMode.step, nextDepth, WordMode.isOpen, unclosed]
    have further : (c == '*') = true → '/' ∉ body.head? := by
      intro star first
      obtain ⟨rest, rfl⟩ := List.head?_eq_some_iff.mp first
      obtain rfl := beq_iff_eq.mp star
      cases inside.symm.trans (Text.cut_prefix ['*', '/'] rest)
    obtain ⟨star', rest⟩ := ih (c == '*') (Text.cut_none_right (t := [c]) inside) further
    refine ⟨star', cons (by rwa [still]) fun begins => ?_⟩
    have word := (step_begins begins).1
    rw [still] at word
    cases word

/-- A block comment from its opening to its end. -/
theorem block {body r : Text} (fits : s.mode.Fits ('/' :: '*' :: (body ++ '*' :: '/' :: r)))
    (inside : Text.cut ['*', '/'] body = none) (rest : Scans P ⟨.plain, s.depth⟩ r s') :
    Scans P s ('/' :: '*' :: (body ++ '*' :: '/' :: r)) s' := by
  have opened : s.step '/' = ⟨.slash, s.depth⟩ := step_sign fits (by decide)
  obtain ⟨star, inner⟩ := unclosed (P := P) false inside (by simp) s.depth
  have closing : Scans P ⟨.block star, s.depth⟩ ('*' :: '/' :: r) s' := by
    refine cons (cons ?_ ?_) ?_
    · simpa [WordScan.step, WordMode.step, nextDepth, WordMode.isOpen] using rest
    · simp [begins, WordScan.step, WordMode.step]
    · simp [begins, WordScan.step, WordMode.step]
  refine .skip ?_ (by decide)
  rw [opened]
  exact .skip (inner.append closing (Word.apart_of_head (by decide))) (by decide)

end Scans
end WordScan

namespace Closed

open WordScan

variable {comments : Bool} {t : Text}

/-- The scan for words comes out of closed text open and at the depth it had before. -/
theorem scans (closed : Closed comments t) {s : WordScan} (fits : s.mode.Fits t) :
    ∃ s', s'.mode.isOpen = true ∧ s'.depth = s.depth ∧
      Scans (fun _ depth => s.depth ≤ depth) s t s' := by
  induction closed generalizing s with
  | nil => exact ⟨s, fits.isOpen, rfl, .nil⟩
  | @char c r unquoted opening closing apart _ ih =>
    have step : s.step c = ⟨s.mode.step c, s.depth⟩ := by
      simp [WordScan.step, nextDepth, opening, closing]
    -- The mode may be half of a comment's opening: `apart` keeps the next character from being
    -- the other half.
    obtain ⟨s', isOpen, depth, rest⟩ := ih (s := s.step c) (by
      rw [step]
      exact fits.step unquoted apart)
    rw [step] at depth rest
    exact ⟨s', isOpen, depth, .cons (by rwa [step]) fun _ => Nat.le_refl _⟩
  | @quoted first last body r quote inside _ ih =>
    have other := isTail_of_quote quote
    obtain ⟨s', isOpen, depth, rest⟩ := ih (s := ⟨.plain, s.depth⟩) (WordMode.fits_plain r)
    refine ⟨s', isOpen, depth, .skip ?_ other⟩
    rw [step_quote fits quote]
    exact .through inside rest
  | @group body r _ _ ihBody ihRest =>
    obtain ⟨s₁, isOpen₁, depth₁, scansBody⟩ :=
      ihBody (s := ⟨.plain, s.depth + 1⟩) (WordMode.fits_plain body)
    obtain ⟨s₂, isOpen, depth₂, scansRest⟩ :=
      ihRest (s := ⟨.plain, s.depth⟩) (WordMode.fits_plain r)
    exact ⟨s₂, isOpen, depth₂, .group fits
      (scansBody.mono fun _ depth deeper => Nat.le_of_succ_le deeper) isOpen₁ depth₁ scansRest⟩
  | @line body r _ inside _ ih =>
    obtain ⟨s', isOpen, depth, rest⟩ := ih (s := ⟨.plain, s.depth⟩) (WordMode.fits_plain r)
    have dash : s.step '-' = ⟨.dash, s.depth⟩ := step_sign fits (by decide)
    refine ⟨s', isOpen, depth, .skip ?_ (by decide)⟩
    rw [dash]
    exact .skip (.through inside rest) (by decide)
  | @block body r _ inside _ ih =>
    obtain ⟨s', isOpen, depth, rest⟩ := ih (s := ⟨.plain, s.depth⟩) (WordMode.fits_plain r)
    exact ⟨s', isOpen, depth, .block fits (by simpa [Text.contains] using inside) rest⟩

/-- Closed text in parentheses, where what lies deeper is of no concern. -/
theorem group_scans {P : Text → Nat → Prop} {body r : Text} {s s' : WordScan}
    (closed : Closed comments body) (fits : s.mode.Fits ('(' :: (body ++ ')' :: r)))
    (deeper : ∀ text depth, s.depth < depth → P text depth)
    (rest : Scans P ⟨.plain, s.depth⟩ r s') : Scans P s ('(' :: (body ++ ')' :: r)) s' := by
  obtain ⟨s₁, isOpen, depth, inner⟩ :=
    closed.scans (s := ⟨.plain, s.depth + 1⟩) (WordMode.fits_plain body)
  exact .group fits (inner.mono fun text _ below => deeper text _ below) isOpen depth rest

end Closed

namespace Nesting

theorem step_plain {c : Char} (unquoted : closingQuote? c = none) (opening : c ≠ '(')
    (closing : c ≠ ')') (depth : Nat) : (⟨none, depth⟩ : Nesting).step c = ⟨none, depth⟩ := by
  simp [step, unquoted, WordScan.nextDepth, opening, closing]

theorem step_quote {first last : Char} (quote : closingQuote? first = some last) (depth : Nat) :
    (⟨none, depth⟩ : Nesting).step first = ⟨some last, depth⟩ := by
  simp [step, quote]

theorem step_inside {c last : Char} (other : c ≠ last) (depth : Nat) :
    (⟨some last, depth⟩ : Nesting).step c = ⟨some last, depth⟩ := by
  simp [step, other]

theorem step_last (last : Char) (depth : Nat) :
    (⟨some last, depth⟩ : Nesting).step last = ⟨none, depth⟩ := by
  simp [step]

@[simp] theorem run_nil (s : Nesting) : s.run [] = s := rfl

@[simp] theorem run_cons (s : Nesting) (c : Char) (t : Text) : s.run (c :: t) = (s.step c).run t :=
  rfl

theorem run_append (s : Nesting) (a b : Text) : s.run (a ++ b) = (s.run a).run b :=
  List.foldl_append

theorem run_inside {last : Char} {body : Text} (inside : last ∉ body) (depth : Nat) :
    (⟨some last, depth⟩ : Nesting).run body = ⟨some last, depth⟩ := by
  induction body with
  | nil => rfl
  | cons c body ih =>
    obtain ⟨other, inside⟩ := not_or.mp (mt List.mem_cons.mpr inside)
    rw [run_cons, step_inside (Ne.symm other), ih inside]

theorem splitCommas_ne_nil (s : Nesting) (t : Text) : s.splitCommas t ≠ [] := by
  cases t with
  | nil => simp [splitCommas]
  | cons c r =>
    rw [splitCommas]
    split
    next => simp
    split <;> simp

theorem splitCommas_cons {s : Nesting} {c : Char} (other : (s.isTop && c == ',') = false)
    (r : Text) : s.splitCommas (c :: r) = ((s.step c).splitCommas r).modifyHead (c :: ·) := by
  rw [splitCommas, other]
  have some : (s.step c).splitCommas r ≠ [] := splitCommas_ne_nil _ r
  cases parts : (s.step c).splitCommas r with
  | nil => exact absurd parts some
  | cons p ps => rfl

/-- Quoted text stays in one part. -/
theorem splitCommas_quoted {last : Char} {body : Text} (inside : last ∉ body) (depth : Nat)
    (r : Text) : (⟨some last, depth⟩ : Nesting).splitCommas (body ++ last :: r) =
      ((⟨none, depth⟩ : Nesting).splitCommas r).modifyHead (body ++ last :: ·) := by
  induction body with
  | nil =>
    rw [List.nil_append, splitCommas_cons rfl, step_last]
    rfl
  | cons c body ih =>
    obtain ⟨other, inside⟩ := not_or.mp (mt List.mem_cons.mpr inside)
    rw [List.cons_append, splitCommas_cons rfl, step_inside (Ne.symm other), ih inside,
      List.modifyHead_modifyHead]
    rfl

end Nesting

namespace Closed

/-- Closed text stays closed without the blanks in front. -/
theorem trimStart (closed : Closed comments t) : Closed comments (Text.trimStart isBlank t) := by
  have kept {t : Text} (closed : Closed comments t) (head : ∀ c ∈ t.head?, isBlank c = false) :
      Closed comments (Text.trimStart isBlank t) := by
    rwa [Text.trimStart_of_head head]
  induction closed with
  | nil => exact .nil
  | @char c r unquoted opening closing apart rest ih =>
    cases blank : isBlank c with
    | false => exact kept (.char unquoted opening closing apart rest) (by simpa using blank)
    | true => simpa [Text.trimStart, blank] using ih
  | quoted quote inside rest =>
    exact kept (.quoted quote inside rest) (by simpa using isBlank_of_quote quote)
  | group body rest => exact kept (.group body rest) (by simp; decide)
  | line allowed inside rest => exact kept (.line allowed inside rest) (by simp; decide)
  | block allowed inside rest => exact kept (.block allowed inside rest) (by simp; decide)

/-- Closed text leaves no quote and no parenthesis open. -/
theorem run_nesting (closed : Closed false t) (depth : Nat) :
    (⟨none, depth⟩ : Nesting).run t = ⟨none, depth⟩ := by
  induction closed generalizing depth with
  | nil => rfl
  | char unquoted opening closing _ _ ih =>
    rw [Nesting.run_cons, Nesting.step_plain unquoted opening closing, ih]
  | quoted quote inside _ ih =>
    rw [Nesting.run_cons, Nesting.step_quote quote, Nesting.run_append, Nesting.run_inside inside,
      Nesting.run_cons, Nesting.step_last, ih]
  | group _ _ ihBody ihRest =>
    have opened : (⟨none, depth⟩ : Nesting).step '(' = ⟨none, depth + 1⟩ := rfl
    have closed : (⟨none, depth + 1⟩ : Nesting).step ')' = ⟨none, depth⟩ := rfl
    rw [Nesting.run_cons, opened, Nesting.run_append, ihBody, Nesting.run_cons, closed, ihRest]
  | line allowed => cases allowed
  | block allowed => cases allowed

/-- No comma stands outside quotes and parentheses. -/
def Undivided (t : Text) : Prop := ∀ u v, t = u ++ ',' :: v → ¬Closed false u

/-- Undivided text stays in one part, and nested text in any case. -/
theorem splitCommas (closed : Closed false t) {depth : Nat} (undivided : depth = 0 → Undivided t)
    (rest : Text) :
    (⟨none, depth⟩ : Nesting).splitCommas (t ++ rest) =
      ((⟨none, depth⟩ : Nesting).splitCommas rest).modifyHead (t ++ ·) := by
  induction closed generalizing depth rest with
  | nil => exact (congrFun List.modifyHead_id _).symm
  | @char c r unquoted opening closing apart _ ih =>
    have step := Nesting.step_plain unquoted opening closing depth
    have kept : ((⟨none, depth⟩ : Nesting).isTop && c == ',') = false := by
      rw [Bool.and_eq_false_iff, beq_eq_false_iff_ne]
      by_cases top : depth = 0
      · refine .inr ?_
        rintro rfl
        exact undivided top [] r rfl .nil
      · exact .inl (by simp [Nesting.isTop, top])
    -- A closed prefix of the rest is one of the whole text with `c` in front.
    have further : depth = 0 → Undivided r := by
      rintro top u v rfl closed
      refine undivided top (c :: u) v rfl (.char unquoted opening closing ?_ closed)
      intro d first
      exact apart d (by simp [Option.mem_def.mp first])
    rw [List.cons_append, Nesting.splitCommas_cons kept, step, ih further,
      List.modifyHead_modifyHead]
    rfl
  | @quoted first last body r quote inside _ ih =>
    have step := Nesting.step_quote quote depth
    have kept : ((⟨none, depth⟩ : Nesting).isTop && first == ',') = false := by
      rw [Bool.and_eq_false_iff, beq_eq_false_iff_ne]
      refine .inr ?_
      rintro rfl
      cases quote
    have further : depth = 0 → Undivided r := by
      rintro top u v rfl closed
      exact undivided top (first :: (body ++ last :: u)) v (by simp) (.quoted quote inside closed)
    rw [List.cons_append, List.append_assoc, List.cons_append, Nesting.splitCommas_cons kept, step,
      Nesting.splitCommas_quoted inside, ih further, List.modifyHead_modifyHead,
      List.modifyHead_modifyHead]
    congr 1
    funext p
    simp
  | @group body r closedBody _ ihBody ihRest =>
    have further : depth = 0 → Undivided r := by
      rintro top u v rfl closed
      exact undivided top ('(' :: (body ++ ')' :: u)) v (by simp) (.group closedBody closed)
    have opened : (⟨none, depth⟩ : Nesting).step '(' = ⟨none, depth + 1⟩ := rfl
    have closed : (⟨none, depth + 1⟩ : Nesting).step ')' = ⟨none, depth⟩ := rfl
    rw [List.cons_append, List.append_assoc, List.cons_append,
      Nesting.splitCommas_cons (Bool.and_false _), opened, ihBody (by simp),
      Nesting.splitCommas_cons (Bool.and_false _), closed, ihRest further]
    simp only [List.modifyHead_modifyHead]
    congr 1
    funext p
    simp
  | line allowed => cases allowed
  | block allowed => cases allowed

theorem plain_append {a r : Text} (plain : ∀ c ∈ a, isPlain c = true) (rest : Closed comments r) :
    Closed comments (a ++ r) := by
  induction a with
  | nil => exact rest
  | cons c a ih =>
    have other (x : Char) (no : isPlain x = false) : c ≠ x :=
      ne_of_class (plain c (List.mem_cons_self ..)) no
    refine .char ?_ (other _ (by decide)) (other _ (by decide)) ?_
      (ih fun x member => plain x (List.mem_cons_of_mem c member))
    · simp [closingQuote?, other '\'' (by decide), other '"' (by decide),
        other '\x60' (by decide), other '[' (by decide)]
    · intro d _
      simp [beginsComment, other '-' (by decide), other '/' (by decide)]

/-- Plain text stays in one part. -/
theorem splitCommas_plain {a : Text} (plain : ∀ c ∈ a, isPlain c = true) (rest : Text) :
    Nesting.start.splitCommas (a ++ rest) =
      (Nesting.start.splitCommas rest).modifyHead (a ++ ·) := by
  have closed : Closed false a := by
    have whole := plain_append (r := []) plain (show Closed false [] from .nil)
    rwa [List.append_nil] at whole
  refine closed.splitCommas (fun _ => ?_) rest
  rintro u v rfl -
  exact ne_of_class (plain ',' (by simp)) (x := ',') (by decide) rfl

/-- The commas of a text, checked one by one. -/
theorem undivided_of_depth (nested : ∀ n < t.length, t[n]? = some ',' →
    (WordScan.start.run (t.take n)).mode.isOpen = true →
      (WordScan.start.run (t.take n)).depth ≠ 0) : Undivided t := by
  rintro u v rfl closed
  obtain ⟨s, isOpen, depth, scans⟩ := closed.scans (s := WordScan.start) (WordMode.fits_plain u)
  have inner := nested u.length (by simp) (by simp)
  rw [List.take_left, scans.run] at inner
  exact inner isOpen depth

end Closed

end QueryWeaver
