import QueryWeaver.Proofs.Statement.Comments
import QueryWeaver.Proofs.Statement.SelectList
import QueryWeaver.Proofs.Text.Inert
/-!
The kind of a statement behind blanks, comments and a `WITH` clause. Blanks and comments hold no
word, and a clause holds no statement keyword at the top, so the main statement decides.
-/

namespace QueryWeaver

open WordScan

/-- Blanks and closed comments. -/
inductive Gap : Text → Prop
  | nil : Gap []
  | blank {c : Char} {r : Text} : isBlank c = true → Gap r → Gap (c :: r)
  | line {body r : Text} : '\n' ∉ body → Gap r → Gap ('-' :: '-' :: (body ++ '\n' :: r))
  | block {body r : Text} : Text.contains ['*', '/'] body = false → Gap r →
      Gap ('/' :: '*' :: (body ++ '*' :: '/' :: r))

namespace WordScan

/-- The scan stands at the top, in nothing but a word. -/
structure Ready (s : WordScan) : Prop where
  mode : s.mode = .plain ∨ s.mode = .word
  depth : s.depth = 0

theorem ready_start : Ready start := ⟨.inl rfl, rfl⟩

theorem ready_word : Ready ⟨.word, 0⟩ := ⟨.inr rfl, rfl⟩

variable {s : WordScan}

theorem Ready.fits (ready : Ready s) (t : Text) : s.mode.Fits t := by
  rcases ready.mode with mode | mode <;> exact mode ▸ ⟨rfl, fun _ _ => rfl⟩

end WordScan

namespace Gap

variable {P : Text → Nat → Prop} {g r : Text} {s s' : WordScan}

/-- A gap holds no word, and the scan comes out of it at the depth it had. -/
theorem scans (gap : Gap g) (fits : s.mode.Fits g) :
    Scans P s g (if g = [] then s else ⟨.plain, s.depth⟩) := by
  have plain {r : Text} {depth : Nat}
      (ih : ∀ {s : WordScan}, s.mode.Fits r →
        Scans P s r (if r = [] then s else ⟨.plain, s.depth⟩)) :
      Scans P ⟨.plain, depth⟩ r ⟨.plain, depth⟩ := by
    have rest := ih (s := ⟨.plain, depth⟩) (WordMode.fits_plain r)
    rwa [ite_self] at rest
  induction gap generalizing s with
  | nil => exact .nil
  | @blank c r blank _ ih =>
    rw [if_neg (List.cons_ne_nil c r)]
    refine .skip ?_ (isTail_of_blank blank)
    rw [step_blank fits.isOpen blank]
    exact plain ih
  | @line body r inside _ ih =>
    rw [if_neg (List.cons_ne_nil _ _)]
    have dash : s.step '-' = ⟨.dash, s.depth⟩ := step_sign fits (by decide)
    refine .skip ?_ (by decide)
    rw [dash]
    exact .skip (.through inside (plain ih)) (by decide)
  | @block body r inside _ ih =>
    rw [if_neg (List.cons_ne_nil _ _)]
    exact .block fits (by simpa [Text.contains] using inside) (plain ih)

theorem head? (gap : Gap g) : ∀ c ∈ g.head?, WordMode.isTail c = false := by
  cases gap with
  | nil => simp
  | blank blank _ =>
    rintro c ⟨⟩
    exact isTail_of_blank blank
  | line | block =>
    rintro c ⟨⟩
    decide

/-- No word runs on into a gap, nor behind an empty one. -/
theorem apart (gap : Gap g) (behind : ∀ c ∈ r.head?, WordMode.isTail c = false) :
    ∀ c ∈ (g ++ r).head?, WordMode.isTail c = false := by
  cases g with
  | nil => exact behind
  | cons c g => exact gap.head?

theorem then_start (gap : Gap g) (ne : g ≠ []) (ready : Ready s) (rest : Scans P start r s') :
    Scans P s (g ++ r) s' := by
  have inside := gap.scans (P := P) (ready.fits g)
  rw [if_neg ne, ready.depth] at inside
  exact inside.append rest fun word => by cases word

theorem then_ready (gap : Gap g) (ready : Ready s)
    (rest : ∀ s : WordScan, Ready s → Scans P s r s') : Scans P s (g ++ r) s' := by
  by_cases empty : g = []
  · subst empty
    exact rest s ready
  · exact gap.then_start empty ready (rest start ready_start)

theorem then_top (gap : Gap g) (rest : Scans P start r s') : Scans P start (g ++ r) s' := by
  by_cases empty : g = []
  · simpa [empty] using rest
  · exact gap.then_start empty ready_start rest

theorem scans_top (gap : Gap g) : Scans P start g start := by
  simpa using gap.then_top (r := []) .nil

end Gap

theorem isDigit_of_alpha {c : Char} (alpha : c.isAlpha = true) : c.isDigit = false := by
  cases digit : c.isDigit with
  | false => rfl
  | true =>
    simp only [Char.isAlpha, Char.isUpper, Char.isLower, Char.isDigit, Bool.or_eq_true,
      Bool.and_eq_true, decide_eq_true_eq, ge_iff_le, UInt32.le_iff_toNat_le] at alpha digit
    have marks : 'A'.val.toNat = 65 ∧ 'a'.val.toNat = 97 ∧ '9'.val.toNat = 57 := by decide
    omega

/-- A text that is a keyword up to letter case is one word. -/
theorem isWord_of_sameLetters {t keyword : Text} (same : Text.sameLetters t keyword = true)
    (ne : keyword ≠ []) (letters : keyword.all Char.isAlpha = true) : isWord t = true := by
  have lower : t.map Char.toLower = keyword.map Char.toLower := beq_iff_eq.mp same
  have alpha : ∀ c ∈ t, c.isAlpha = true := by
    intro c member
    have known : c.toLower ∈ keyword.map Char.toLower := lower ▸ List.mem_map_of_mem member
    obtain ⟨k, inside, equal⟩ := List.mem_map.mp known
    rw [← Char.isAlpha_toLower_eq_isAlpha, ← equal, Char.isAlpha_toLower_eq_isAlpha]
    exact List.all_eq_true.mp letters k inside
  have word {c : Char} (letter : c.isAlpha = true) : isWordChar c = true := by
    have alphanum : c.isAlphanum = true := by simp [Char.isAlphanum, letter]
    simp [isWordChar, isAlphanumeric, (alphanum_range alphanum).2.1, alphanum]
  cases t with
  | nil => exact absurd (List.map_eq_nil_iff.mp lower.symm) ne
  | cons c t =>
    obtain ⟨first, others⟩ := List.forall_mem_cons.mp alpha
    simp only [isWord, word first, isDigit_of_alpha first, Bool.not_false, Bool.true_and,
      List.all_eq_true]
    exact fun x member => WordMode.isTail_of_word (word (others x member))

namespace StatementKind

theorem ofKeyword?_congr {t keyword : Text} (same : Text.sameLetters t keyword = true) :
    ofKeyword? t = ofKeyword? keyword := by
  rw [ofKeyword?, ofKeyword?]
  congr 2
  funext entry
  exact Text.sameLetters_congr same entry.1

/-- A word at the top is no statement keyword. -/
def Idle (text : Text) (depth : Nat) : Prop := depth = 0 → ofKeyword? text = none

/-- Words that are not at the top of a clause do not decide. -/
theorem ofWords_with {w : Word} {words rest : List Word}
    (opening : Text.sameLetters w.text "with" = true) (top : w.depth = 0)
    (idle : ∀ x ∈ words, Idle x.text x.depth) :
    ofWords (w :: (words ++ rest)) =
      ((rest.filter fun x => x.depth == 0).findSome? fun x => ofKeyword? x.text).getD other := by
  have none : (words.filter fun x => x.depth == 0).findSome? (fun x => ofKeyword? x.text) =
      Option.none := by
    rw [List.findSome?_eq_none_iff]
    intro x member
    obtain ⟨inside, depth⟩ := List.mem_filter.mp member
    exact idle x inside (beq_iff_eq.mp depth)
  have unkeyed : ofKeyword? w.text = Option.none :=
    (ofKeyword?_congr opening).trans (by decide)
  simp only [ofWords, unkeyed, opening, if_true, top, List.filter_append, List.findSome?_append,
    none, Option.none_or]

/-- Quoted tokens, one behind the other: a quote doubled inside a name ends one and begins one. -/
inductive Quoted : Text → Prop
  | one {first last : Char} {body : Text} : closingQuote? first = some last → last ∉ body →
      Quoted (first :: (body ++ [last]))
  | more {first last : Char} {body r : Text} : closingQuote? first = some last → last ∉ body →
      Quoted r → Quoted (first :: (body ++ last :: r))

/-- The name of a table expression: quoted, or a word that is no statement keyword. -/
def IsTableName (t : Text) : Prop := Quoted t ∨ isWord t = true ∧ ofKeyword? t = none

/-- What stands between the name and `AS`: a gap, with a list of columns in it or none. -/
inductive IsColumns : Text → Prop
  | none {g : Text} : Gap g → g ≠ [] → IsColumns g
  | list {g columns h : Text} : Gap g → Closed true columns → Gap h →
      IsColumns (g ++ '(' :: (columns ++ ')' :: h))

/-- What stands between `AS` and the body: a gap, with `MATERIALIZED` in it or nothing. -/
inductive IsHint : Text → Prop
  | none {g : Text} : Gap g → IsHint g
  | materialized {g keyword h : Text} : Gap g → g ≠ [] →
      Text.sameLetters keyword "materialized" = true → Gap h → IsHint (g ++ (keyword ++ h))

/-- A table expression: `name [(columns)] AS [MATERIALIZED] (body)`. -/
inductive IsTable : Text → Prop
  | mk {name columns as hint body : Text} : IsTableName name → IsColumns columns →
      Text.sameLetters as "as" = true → IsHint hint → Closed true body →
      IsTable (name ++ (columns ++ (as ++ (hint ++ '(' :: (body ++ [')'])))))

/-- Table expressions with a comma between each two. -/
inductive IsTables : Text → Prop
  | one {t : Text} : IsTable t → IsTables t
  | more {t g h r : Text} : IsTable t → Gap g → Gap h → IsTables r →
      IsTables (t ++ (g ++ ',' :: (h ++ r)))

/-- What opens a clause behind `WITH`: a gap, with `RECURSIVE` in it or nothing. -/
inductive IsOpening : Text → Prop
  | plain {g : Text} : Gap g → g ≠ [] → IsOpening g
  | recursive {g keyword h : Text} : Gap g → g ≠ [] →
      Text.sameLetters keyword "recursive" = true → Gap h → h ≠ [] →
      IsOpening (g ++ (keyword ++ h))

/-- A `WITH` clause up to the main statement. -/
inductive IsClause : Text → Prop
  | mk {keyword opening tables g : Text} : Text.sameLetters keyword "with" = true →
      IsOpening opening → tables = [] ∨ IsTables tables → Gap g →
      IsClause (keyword ++ (opening ++ (tables ++ g)))

section

variable {t r : Text} {s s' : WordScan}

/-- A keyword that is none of a statement, in any letter case. -/
theorem idle_keyword {keyword : Text} (same : Text.sameLetters t keyword = true)
    (ne : keyword ≠ []) (letters : keyword.all Char.isAlpha = true)
    (other : ofKeyword? keyword = none) (apart : ∀ c ∈ r.head?, WordMode.isTail c = false)
    (rest : Scans Idle ⟨.word, 0⟩ r s') : Scans Idle start (t ++ r) s' := by
  have idle : Idle t 0 := fun _ => (ofKeyword?_congr same).trans other
  exact (Scans.word (isWord_of_sameLetters same ne letters) idle).append rest fun _ => apart

theorem idle_group {body : Text} (ready : Ready s) (closed : Closed true body)
    (rest : Scans Idle start r s') : Scans Idle s ('(' :: (body ++ ')' :: r)) s' := by
  refine closed.group_scans (ready.fits _) ?_ (ready.depth.symm ▸ rest)
  intro _ depth deeper top
  omega

theorem Quoted.idle (quoted : Quoted t) (rest : Scans Idle start r s') :
    Scans Idle start (t ++ r) s' := by
  have token {first last : Char} {body r : Text} (quote : closingQuote? first = some last)
      (inside : last ∉ body) (rest : Scans Idle start r s') :
      Scans Idle start (first :: (body ++ last :: r)) s' := by
    refine .skip ?_ (isTail_of_quote quote)
    rw [step_quote (WordMode.fits_plain (first :: body)) quote]
    exact .through inside rest
  induction quoted with
  | one quote inside => simpa using token quote inside rest
  | more quote inside _ ih => simpa using token quote inside ih

theorem IsTableName.idle (name : IsTableName t) (apart : ∀ c ∈ r.head?, WordMode.isTail c = false)
    (rest : ∀ s : WordScan, Ready s → Scans Idle s r s') : Scans Idle start (t ++ r) s' := by
  rcases name with quoted | ⟨one, other⟩
  · exact quoted.idle (rest start ready_start)
  · exact (Scans.word one fun _ => other).append (rest _ ready_word) fun _ => apart

theorem IsColumns.apart (columns : IsColumns t) :
    ∀ c ∈ (t ++ r).head?, WordMode.isTail c = false := by
  cases columns with
  | none gap ne =>
    obtain ⟨c, g, rfl⟩ := List.exists_cons_of_ne_nil ne
    exact gap.head?
  | list gap closed gap' =>
    rw [List.append_assoc]
    exact gap.apart (by simp [show WordMode.isTail '(' = false by decide])

theorem IsColumns.idle (columns : IsColumns t) (ready : Ready s) (rest : Scans Idle start r s') :
    Scans Idle s (t ++ r) s' := by
  cases columns with
  | none gap ne => exact gap.then_start ne ready rest
  | @list g columns h gap closed gap' =>
    have group := gap.then_ready ready fun s ready => idle_group ready closed (gap'.then_top rest)
    simpa using group

theorem IsHint.apart (hint : IsHint t) (behind : ∀ c ∈ r.head?, WordMode.isTail c = false) :
    ∀ c ∈ (t ++ r).head?, WordMode.isTail c = false := by
  cases hint with
  | none gap => exact gap.apart behind
  | materialized gap ne _ _ =>
    obtain ⟨c, g, rfl⟩ := List.exists_cons_of_ne_nil ne
    exact gap.head?

theorem IsHint.idle (hint : IsHint t) (behind : ∀ c ∈ r.head?, WordMode.isTail c = false)
    (rest : ∀ s : WordScan, Ready s → Scans Idle s r s') :
    Scans Idle ⟨.word, 0⟩ (t ++ r) s' := by
  cases hint with
  | none gap => exact gap.then_ready ready_word rest
  | @materialized g keyword h gap ne same gap' =>
    have last := gap'.then_ready ready_word rest
    have word := idle_keyword same (by decide) (by decide) (by decide) (gap'.apart behind) last
    simpa using gap.then_start ne ready_word word

/-- A table expression is passed over at the top. -/
theorem IsTable.idle (table : IsTable t) (rest : Scans Idle start r s') :
    Scans Idle start (t ++ r) s' := by
  obtain @⟨_, _, _, _, body, name, columns, as, hint, closed⟩ := table
  have opening : ∀ c ∈ ('(' :: (body ++ ')' :: r)).head?, WordMode.isTail c = false := by
    simp [show WordMode.isTail '(' = false by decide]
  have group (s : WordScan) (ready : Ready s) := idle_group ready closed rest
  have keyword := idle_keyword as (by decide) (by decide) (by decide) (hint.apart opening)
    (hint.idle opening group)
  have whole := name.idle columns.apart fun s ready => columns.idle ready keyword
  simpa using whole

theorem IsTables.idle (tables : IsTables t) (rest : Scans Idle start r s') :
    Scans Idle start (t ++ r) s' := by
  induction tables with
  | one table => exact table.idle rest
  | more table before after _ ih =>
    have comma : Scans Idle start (',' :: _) s' := .skip (after.then_top ih) (by decide)
    simpa using table.idle (before.then_top comma)

theorem IsOpening.apart (opening : IsOpening t) :
    ∀ c ∈ (t ++ r).head?, WordMode.isTail c = false := by
  cases opening with
  | plain gap ne | recursive gap ne _ _ _ =>
    obtain ⟨c, g, rfl⟩ := List.exists_cons_of_ne_nil ne
    exact gap.head?

/-- Behind its first word a clause is passed over at the top. -/
theorem IsOpening.idle (opening : IsOpening t) (rest : Scans Idle start r s') :
    Scans Idle ⟨.word, 0⟩ (t ++ r) s' := by
  cases opening with
  | plain gap ne => exact gap.then_start ne ready_word rest
  | @recursive g keyword h gap ne same gap' ne' =>
    have apart : ∀ c ∈ (h ++ r).head?, WordMode.isTail c = false := by
      obtain ⟨c, h, rfl⟩ := List.exists_cons_of_ne_nil ne'
      exact gap'.head?
    have word := idle_keyword same (by decide) (by decide) (by decide) apart
      (gap'.then_start ne' ready_word rest)
    simpa using gap.then_start ne ready_word word

end

/-- The words of a clause and its main statement: `WITH`, idle words, and those of the statement. -/
theorem IsClause.words {clause : Text} (isClause : IsClause clause) (main : Text) :
    ∃ w idle pos, Word.ofText (clause ++ main) = w :: (idle ++ Word.scan start pos main) ∧
      Text.sameLetters w.text "with" = true ∧ w.depth = 0 ∧ ∀ x ∈ idle, Idle x.text x.depth := by
  obtain @⟨keyword, opening, tables, g, same, opens, listed, gap⟩ := isClause
  have behind : Scans Idle ⟨.word, 0⟩ (opening ++ (tables ++ g)) start := by
    refine opens.idle ?_
    rcases listed with rfl | tables
    · exact gap.scans_top
    · exact tables.idle gap.scans_top
  have run : Word.Apart ((⟨.word, 0⟩ : WordScan).run (opening ++ (tables ++ g))) main := by
    rw [behind.run]
    exact fun word => by cases word
  obtain ⟨c, r, rfl, fresh, tail⟩ :=
    isWord_cases (isWord_of_sameLetters same (by decide) (by decide))
  let w : Word := ⟨c :: r, 0, 0 + Text.size (c :: r), 0⟩
  have first : Word.scan start 0 (c :: r ++ (opening ++ (tables ++ g ++ main))) =
      w :: Word.scan ⟨.word, 0⟩ w.stop (opening ++ (tables ++ g ++ main)) :=
    Word.scan_word 0 (start_begins fresh) (fun x member => tail x (List.mem_cons_of_mem c member))
      opens.apart
  have rest := Word.scan_append w.stop run
  have whole : Word.ofText (c :: r ++ (opening ++ (tables ++ g)) ++ main) =
      w :: (Word.scan ⟨.word, 0⟩ w.stop (opening ++ (tables ++ g)) ++
        Word.scan start (w.stop + Text.size (opening ++ (tables ++ g))) main) := by
    rw [behind.run] at rest
    rw [← rest, Word.ofText]
    simpa only [List.append_assoc] using first
  exact ⟨w, _, _, whole, same, rfl, behind.words w.stop⟩

/-- Blanks and comments in front of a statement leave its kind as it is, and behind a `WITH` clause
the main statement decides. -/
theorem classify_behind :
    (∀ g sql, Gap g → classify (g ++ sql) = classify sql) ∧
    ∀ clause main w words kind, IsClause clause → Word.ofText main = w :: words → w.depth = 0 →
      ofKeyword? w.text = some kind →
      classify (clause ++ main) = kind ∧ classify main = kind := by
  constructor
  · intro g sql gap
    exact ofWords_congr (gap.scans_top.shapes_behind sql)
  · intro clause main w words kind isClause top depth keyword
    obtain ⟨opening, idle, pos, whole, same, first, each⟩ := isClause.words main
    obtain ⟨w', words', moved, shape, -⟩ := List.map_eq_cons_iff.mp
      ((Word.scan_shapes start pos 0 main).trans (congrArg (List.map Word.shape) top))
    obtain ⟨text', depth'⟩ := Prod.mk.inj shape
    constructor
    · rw [classify, whole, ofWords_with same first each, moved]
      simp [text', depth', depth, keyword]
    · simp [classify, top, ofWords, keyword]

/-- Keywords in a comment, in a quoted name and in the bodies, and a parenthesis in quotes. -/
def sampleClause : Text :=
  "With /* select */ RECURSIVE \"drop\"(n) AS materialized (SELECT ')'), t as (DELETE) "

theorem isClause_sample : IsClause sampleClause := by
  have space : Gap [' '] := .blank (by decide) .nil
  have word {t : Text} (plain : t.all isPlain = true) : Closed true t := by
    have whole := Closed.plain_append (List.all_eq_true.mp plain) (show Closed true [] from .nil)
    rwa [List.append_nil] at whole
  have opening : IsOpening (" /* select */ RECURSIVE " : Text) := by
    have inside : Text.contains ['*', '/'] (" select " : Text) = false := by decide
    have keyword : Text.sameLetters "RECURSIVE" "recursive" = true := by decide
    have before : Gap (" /* select */ " : Text) := .blank (by decide) (.block inside space)
    exact .recursive before (by decide) keyword space (by decide)
  have first : IsTable ("\"drop\"(n) AS materialized (SELECT ')')" : Text) := by
    have inside : '"' ∉ ("drop" : Text) := by decide
    have name : IsTableName ("\"drop\"" : Text) := .inl (.one rfl inside)
    have columns : Closed true ("n" : Text) := word (by decide)
    have as : Text.sameLetters "AS" "as" = true := by decide
    have keyword : Text.sameLetters "materialized" "materialized" = true := by decide
    have select : ("SELECT " : Text).all isPlain = true := by decide
    have quoted : Closed true ("')'" : Text) :=
      .quoted rfl (show '\'' ∉ [')'] by decide) .nil
    exact .mk name (.list .nil columns space) as (.materialized space (by decide) keyword space)
      (.plain_append (List.all_eq_true.mp select) quoted)
  have second : IsTable ("t as (DELETE)" : Text) := by
    have name : IsTableName ("t" : Text) := .inr (by decide)
    have as : Text.sameLetters "as" "as" = true := by decide
    have body : Closed true ("DELETE" : Text) := word (by decide)
    exact .mk name (.none space (by decide)) as (.none space) body
  have keyword : Text.sameLetters "With" "with" = true := by decide
  exact .mk keyword opening (.inr (.more first .nil space (.one second))) space

theorem sample_behind :
    classify (sampleClause ++ ("Update t SET n=(SELECT 1" : Text)) = .update := by
  have main : Word.ofText ("Update t SET n=(SELECT 1" : Text) =
      ⟨"Update", 0, 6, 0⟩ :: [⟨"t", 7, 8, 0⟩, ⟨"SET", 9, 12, 0⟩, ⟨"n", 13, 14, 0⟩,
        ⟨"SELECT", 16, 22, 1⟩] := by decide +kernel
  exact (classify_behind.2 sampleClause _ _ _ .update isClause_sample main rfl (by decide)).1

end StatementKind

end QueryWeaver
