import QueryWeaver.Proofs.Statement.Closed
import QueryWeaver.Proofs.Statement.ColumnList
/-!
Block comments in SQL text, and what a blank in the place of each closed one changes: no word, no
place where a column list begins or ends, and nothing in a list that holds no comment. The cuts
inside a list know no comments.
-/

namespace QueryWeaver

open WordScan

/-- The text behind a block comment at the start, if it opens outside quotes and is closed. -/
def behindComment? (mode : WordMode) (t : Text) : Option Text :=
  if mode.isOpen then
    (List.isPrefixOf? ['/', '*'] t).bind fun body => (Text.cut ['*', '/'] body).map Prod.snd
  else none

theorem behindComment?_eq {mode : WordMode} {t rest : Text}
    (found : behindComment? mode t = some rest) : mode.isOpen = true ∧ ∃ body,
      t = '/' :: '*' :: (body ++ '*' :: '/' :: rest) ∧ Text.cut ['*', '/'] body = none := by
  rw [behindComment?] at found
  split at found
  next isOpen =>
    obtain ⟨inner, opened, closed⟩ := Option.bind_eq_some_iff.mp found
    obtain ⟨⟨body, behind⟩, cut, rfl⟩ := Option.map_eq_some_iff.mp closed
    rw [List.isPrefixOf?_eq_some_iff_append_eq] at opened
    refine ⟨isOpen, body, ?_, Text.cut_before cut (by simp)⟩
    rw [← opened, Text.cut_append cut]
    simp
  next => cases found

theorem behindComment?_length {mode : WordMode} {t rest : Text}
    (found : behindComment? mode t = some rest) : rest.length < t.length := by
  obtain ⟨-, body, rfl, -⟩ := behindComment?_eq found
  simp
  omega

/-- SQL text read on from a mode, with a blank for each closed block comment outside quotes. -/
def blankFrom (mode : WordMode) (t : Text) : Text :=
  match t with
  | [] => []
  | c :: r =>
    match _ : behindComment? mode (c :: r) with
    | some rest => ' ' :: blankFrom .plain rest
    | none => c :: blankFrom (mode.step c) r
termination_by t.length
decreasing_by
  · exact behindComment?_length ‹_›
  · simp

/-- A text with a blank for each closed block comment outside quotes. -/
def blankComments (sql : Text) : Text := blankFrom .plain sql

theorem blankFrom_nil (mode : WordMode) : blankFrom mode [] = [] := by
  rw [blankFrom]

theorem blankFrom_behind {mode : WordMode} {t rest : Text}
    (found : behindComment? mode t = some rest) :
    blankFrom mode t = ' ' :: blankFrom .plain rest := by
  cases t with
  | nil =>
    obtain ⟨-, body, whole, -⟩ := behindComment?_eq found
    cases whole
  | cons c r =>
    rw [blankFrom]
    split
    next behind here =>
      rw [found] at here
      rw [Option.some.inj here]
    next here =>
      rw [found] at here
      cases here

theorem blankFrom_kept {mode : WordMode} {c : Char} {r : Text}
    (kept : behindComment? mode (c :: r) = none) :
    blankFrom mode (c :: r) = c :: blankFrom (mode.step c) r := by
  rw [blankFrom]
  split
  next here =>
    rw [kept] at here
    cases here
  next => rfl

theorem kept_of_ne {c : Char} (other : c ≠ '/') (mode : WordMode) (r : Text) :
    behindComment? mode (c :: r) = none := by
  cases found : behindComment? mode (c :: r) with
  | none => rfl
  | some rest =>
    obtain ⟨-, body, whole, -⟩ := behindComment?_eq found
    exact absurd (List.cons.inj whole).1 other

/-- A closed comment is nothing but blank to the scan for words. -/
theorem behindComment?_scans {s : WordScan} {t rest : Text}
    (found : behindComment? s.mode t = some rest) : ∃ comment, t = comment ++ rest ∧
      Scans (fun _ _ => False) s comment ⟨.plain, s.depth⟩ := by
  obtain ⟨isOpen, body, rfl, inside⟩ := behindComment?_eq found
  refine ⟨'/' :: '*' :: (body ++ '*' :: '/' :: []), by simp, .block ?_ inside .nil⟩
  exact WordMode.fits_of_head isOpen (by decide) (by decide) _

/-- Induction along a text comment by comment and character by character. -/
theorem comment_induction {motive : WordScan → Text → Prop} (nil : ∀ s, motive s [])
    (behind : ∀ (s : WordScan) (comment rest : Text), s.mode.isOpen = true →
      behindComment? s.mode (comment ++ rest) = some rest →
      Scans (fun _ _ => False) s comment ⟨.plain, s.depth⟩ → motive ⟨.plain, s.depth⟩ rest →
      motive s (comment ++ rest))
    (kept : ∀ (s : WordScan) (c : Char) (r : Text), behindComment? s.mode (c :: r) = none →
      motive (s.step c) r → motive s (c :: r)) (s : WordScan) (t : Text) : motive s t := by
  induction size : t.length using Nat.strong_induction_on generalizing s t with
  | _ n ih =>
    subst size
    cases t with
    | nil => exact nil s
    | cons c r =>
      cases found : behindComment? s.mode (c :: r) with
      | none => exact kept s c r found (ih r.length (by simp) (s.step c) r rfl)
      | some rest =>
        have isOpen := (behindComment?_eq found).1
        have shorter := behindComment?_length found
        obtain ⟨comment, whole, scans⟩ := behindComment?_scans found
        rw [whole] at found ⊢
        exact behind s comment rest isOpen found scans (ih rest.length shorter _ rest rfl)

theorem run_blankFrom (s : WordScan) (t : Text) : s.run (blankFrom s.mode t) = s.run t := by
  induction s, t using comment_induction with
  | nil s => rw [blankFrom_nil]
  | behind s comment rest isOpen found scans ih =>
    rw [blankFrom_behind found, run_cons, step_blank isOpen (by decide), ih, run_append, scans.run]
  | kept s c r none ih => rw [blankFrom_kept none, run_cons, run_cons, ← ih, step]

theorem takeWhile_blankFrom (s : WordScan) (t : Text) :
    (blankFrom s.mode t).takeWhile WordMode.isTail = t.takeWhile WordMode.isTail := by
  induction s, t using comment_induction with
  | nil s => rw [blankFrom_nil]
  | behind s comment rest isOpen found scans ih =>
    obtain ⟨-, body, whole, -⟩ := behindComment?_eq found
    rw [blankFrom_behind found, whole]
    rfl
  | kept s c r none ih =>
    rw [blankFrom_kept none, List.takeWhile_cons, List.takeWhile_cons]
    exact congrArg (fun rest => if WordMode.isTail c then c :: rest else []) ih

/-- The words say the same, at their old depths. -/
theorem scan_blankFrom (s : WordScan) (pos pos' : Nat) (t : Text) :
    (Word.scan s pos (blankFrom s.mode t)).map Word.shape =
      (Word.scan s pos' t).map Word.shape := by
  induction s, t using comment_induction generalizing pos pos' with
  | nil s => rw [blankFrom_nil]; rfl
  | behind s comment rest isOpen found scans ih =>
    have blank : ¬s.begins ' ' = true := by
      intro begins
      exact absurd (step_begins begins).2 (by decide)
    have wordless : Word.scan s pos' comment = [] :=
      List.eq_nil_iff_forall_not_mem.mpr (scans.words pos')
    have apart : Word.Apart (s.run comment) rest := by
      rw [scans.run]
      exact fun word => by cases word
    rw [blankFrom_behind found, Word.scan, if_neg blank, step_blank isOpen (by decide),
      Word.scan_append pos' apart, wordless, scans.run, List.nil_append]
    exact ih _ _
  | kept s c r none ih =>
    rw [blankFrom_kept none, Word.scan, Word.scan, ← takeWhile_blankFrom (s.step c) r]
    have rest := ih (pos + c.utf8Size) (pos' + c.utf8Size)
    split
    next => exact congrArg ((c :: _, s.depth) :: ·) rest
    next => exact rest

theorem behindComment?_append {mode : WordMode} {t rest : Text}
    (found : behindComment? mode t = some rest) (b : Text) :
    behindComment? mode (t ++ b) = some (rest ++ b) := by
  rw [behindComment?] at found ⊢
  split at found
  next isOpen =>
    obtain ⟨inner, opened, closed⟩ := Option.bind_eq_some_iff.mp found
    obtain ⟨⟨body, behind⟩, cut, rfl⟩ := Option.map_eq_some_iff.mp closed
    rw [List.isPrefixOf?_eq_some_iff_append_eq] at opened
    have longer : List.isPrefixOf? ['/', '*'] (t ++ b) = some (inner ++ b) := by
      rw [List.isPrefixOf?_eq_some_iff_append_eq, ← opened, List.append_assoc]
    rw [if_pos isOpen, longer, Option.bind_some, Text.cut_append_right cut]
    rfl
  next => cases found

/-- No comment that opens in a text is closed behind it, if its scan goes on as it stands. -/
theorem kept_append {s : WordScan} {c : Char} {r b : Text}
    (kept : behindComment? s.mode (c :: r) = none) (fits : (s.run (c :: r)).mode.Fits b) :
    behindComment? s.mode (c :: (r ++ b)) = none := by
  cases found : behindComment? s.mode (c :: (r ++ b)) with
  | none => rfl
  | some rest =>
    obtain ⟨isOpen, body, whole, -⟩ := behindComment?_eq found
    obtain ⟨rfl, behind⟩ := List.cons.inj whole
    have opened : s.step '/' = ⟨.slash, s.depth⟩ :=
      step_sign (WordMode.fits_of_head isOpen (by decide) (by decide) r) (by decide)
    -- The opening would be cut in two, or stand whole before `b` and leave the scan in a comment.
    cases r with
    | nil =>
      rw [run_cons, opened] at fits
      have joins := fits.apart '*' (by rw [← List.nil_append b, behind]; rfl)
      cases joins
    | cons d r =>
      obtain ⟨rfl, -⟩ := List.cons.inj behind
      have unclosed : Text.cut ['*', '/'] r = none := by
        rw [behindComment?, if_pos isOpen] at kept
        exact Option.map_eq_none_iff.mp kept
      obtain ⟨star, scans⟩ := Scans.unclosed (P := fun _ _ => True) false unclosed (by simp)
        s.depth
      rw [run_cons, opened, run_cons] at fits
      have inside : ((⟨.slash, s.depth⟩ : WordScan).step '*').run r = ⟨.block star, s.depth⟩ :=
        scans.run
      rw [inside] at fits
      cases fits.isOpen

/-- Where a scan goes on as it stands, so does the replacement of comments. -/
theorem blankFrom_append {s : WordScan} {a b : Text} (fits : (s.run a).mode.Fits b) :
    blankFrom s.mode (a ++ b) = blankFrom s.mode a ++ blankFrom (s.run a).mode b := by
  induction s, a using comment_induction with
  | nil s => rw [blankFrom_nil]; rfl
  | behind s comment rest isOpen found scans ih =>
    have longer := behindComment?_append found b
    rw [run_append, scans.run] at fits ⊢
    rw [blankFrom_behind found, blankFrom_behind longer, ih fits]
    rfl
  | kept s c r none ih =>
    have kept := kept_append none fits
    rw [List.cons_append, blankFrom_kept none, blankFrom_kept kept]
    exact congrArg (c :: ·) (ih fits)

theorem fits_of_begins {s : WordScan} {c : Char} (begins : s.begins c = true) (r : Text) :
    s.mode.Fits (c :: r) := by
  obtain ⟨opened, tail⟩ := step_begins begins
  have isOpen : s.mode.isOpen = true := by
    have word : s.mode.step c = .word := congrArg WordScan.mode opened
    cases mode : s.mode with
    | through _ | block _ =>
      rw [mode, WordMode.step] at word
      split at word <;> cases word
    | _ => rfl
  exact WordMode.fits_of_head isOpen (ne_of_class tail (by decide)) (ne_of_class tail (by decide)) r

theorem blankFrom_tail {a : Text} (tail : ∀ c ∈ a, WordMode.isTail c = true) (mode : WordMode) :
    blankFrom mode a = a := by
  induction a generalizing mode with
  | nil => exact blankFrom_nil mode
  | cons c a ih =>
    have other : c ≠ '/' := ne_of_class (tail c (List.mem_cons_self ..)) (by decide)
    rw [blankFrom_kept (kept_of_ne other mode a), ih fun x member => tail x (by simp [member])]

theorem blankFrom_word {t : Text} (apart : ∀ c ∈ t.head?, WordMode.isTail c = false) :
    blankFrom .word t = blankComments t := by
  cases t with
  | nil => rw [blankComments, blankFrom_nil, blankFrom_nil]
  | cons c r =>
    have same : behindComment? .word (c :: r) = behindComment? .plain (c :: r) := rfl
    have fresh : WordMode.word.step c = WordMode.plain.step c := by
      simp [WordMode.step, apart c rfl]
    cases found : behindComment? .plain (c :: r) with
    | none => rw [blankComments, blankFrom_kept found, blankFrom_kept (same.trans found), fresh]
    | some rest => rw [blankComments, blankFrom_behind found, blankFrom_behind (same.trans found)]

theorem blankFrom_head? {t : Text} (apart : ∀ c ∈ t.head?, WordMode.isTail c = false)
    (mode : WordMode) : ∀ c ∈ (blankFrom mode t).head?, WordMode.isTail c = false := by
  cases t with
  | nil => simp [blankFrom_nil]
  | cons c r =>
    cases found : behindComment? mode (c :: r) with
    | none => simpa [blankFrom_kept found] using apart
    | some rest =>
      rw [blankFrom_behind found]
      rintro x ⟨⟩
      decide

namespace Projection

variable {kind : StatementKind} {u list v : Text} {w : Word}

theorem EndsAt.blank {s : WordScan} (ends : EndsAt s v) : EndsAt s (blankFrom s.mode v) := by
  intro c r same
  cases v with
  | nil =>
    rw [blankFrom_nil] at same
    cases same
  | cons d v =>
    obtain ⟨begins, depth, keyword⟩ := ends d v rfl
    have other : d ≠ '/' := ne_of_class (step_begins begins).2 (by decide)
    rw [blankFrom_kept (kept_of_ne other _ v)] at same
    obtain ⟨rfl, rfl⟩ := List.cons.inj same
    have text := takeWhile_blankFrom (s.step d) v
    exact ⟨begins, depth, by rwa [← text] at keyword⟩

/-- Comments around a list leave it where it is. -/
theorem Lists.blank (lists : Lists kind u w list v) :
    Projection.list? (blankComments (u ++ (w.text ++ (list ++ v)))) kind =
      some (blankFrom .word list) := by
  obtain ⟨splits, begins, inside, ends⟩ := lists
  obtain ⟨-, ⟨c, r, text, opens, tail⟩, apart, depth, -, -⟩ := splits
  have top : start.run (blankComments u) = start.run u := run_blankFrom start u
  have opened : (start.run u).run w.text = ⟨.word, w.depth⟩ := by
    rw [text, run_cons, (step_begins opens).1, run_tail tail, depth]
  have letters : ∀ x ∈ w.text, WordMode.isTail x = true := by
    rw [text]
    exact List.forall_mem_cons.mpr ⟨(step_begins opens).2, tail⟩
  -- No comment runs across a cut: each of the three stands where a word begins or ends.
  have rest : blankFrom .word (list ++ v) = blankFrom .word list ++
      blankFrom ((⟨.word, w.depth⟩ : WordScan).run list).mode v := by
    cases v with
    | nil => rw [blankFrom_nil, List.append_nil, List.append_nil]
    | cons d v => exact blankFrom_append (s := ⟨.word, w.depth⟩) (fits_of_begins (ends d v rfl).1 v)
  have word : blankFrom (start.run u).mode (w.text ++ (list ++ v)) =
      w.text ++ blankFrom .word (list ++ v) := by
    rw [blankFrom_append (by rw [opened]; exact ⟨rfl, fun _ _ => rfl⟩), opened,
      blankFrom_tail letters]
  have whole : blankComments (u ++ (w.text ++ (list ++ v))) =
      blankComments u ++ (w.text ++ (blankFrom .word list ++
        blankFrom ((⟨.word, w.depth⟩ : WordScan).run list).mode v)) := by
    rw [← rest, ← word]
    refine blankFrom_append (s := start) ?_
    rw [text]
    exact fits_of_begins opens _
  let w' : Word := ⟨w.text, Text.size (blankComments u),
    Text.size (blankComments u) + Text.size w.text, w.depth⟩
  have lists' : Lists kind (blankComments u) w' (blankFrom .word list)
      (blankFrom ((⟨.word, w.depth⟩ : WordScan).run list).mode v) :=
    { splits :=
        { whole := rfl
          begins := ⟨c, r, text, by rwa [top], tail⟩
          apart := by rw [← rest]; exact blankFrom_head? apart _
          depth := by rw [top]; exact depth
          start := (Nat.zero_add _).symm
          stop := rfl }
      begins := by
        refine begins.congr (scan_blankFrom start 0 0 u).symm rfl ?_
        rw [← rest]
        exact (scan_blankFrom ⟨.word, w.depth⟩ _ _ _).symm
      inside := Word.forall_of_shapes (P := fun text depth => isEnd ⟨text, 0, 0, depth⟩ = false)
        (scan_blankFrom ⟨.word, w.depth⟩ _ _ _).symm inside
      ends := by
        have run := run_blankFrom ⟨.word, w.depth⟩ list
        rw [run]
        exact ends.blank }
  rw [whole]
  exact lists'.list?

/-- The list of a text without comments is the list of the text, without its comments. -/
theorem list?_blankComments (sql : Text) (kind : StatementKind) :
    list? (blankComments sql) kind = (list? sql kind).map blankComments := by
  cases found : list? sql kind with
  | none =>
    have same := scan_blankFrom start 0 0 sql
    exact list?_none.mpr (start?_congr same.symm (list?_none.mp found))
  | some list =>
    obtain ⟨u, w, v, rfl, lists⟩ := exists_lists found
    have apart : ∀ c ∈ list.head?, WordMode.isTail c = false := by
      intro c first
      exact lists.splits.apart c (by simp [Option.mem_def.mp first])
    rw [lists.blank, blankFrom_word apart]
    rfl

end Projection

/-- The kind of a statement depends on what its words say only. -/
theorem StatementKind.ofWords_congr {words words' : List Word}
    (same : words.map Word.shape = words'.map Word.shape) : ofWords words = ofWords words' := by
  have said (depth : Nat) (words : List Word) :
      (words.filter fun w => w.depth == depth).findSome? (fun w => ofKeyword? w.text) =
        ((words.map Word.shape).filter fun p => p.2 == depth).findSome?
          fun p => ofKeyword? p.1 := by
    rw [List.filter_map, List.findSome?_map]
    rfl
  cases words with
  | nil =>
    obtain rfl := List.map_eq_nil_iff.mp same.symm
    rfl
  | cons first rest =>
    obtain ⟨first', rest', rfl, here, later⟩ := List.map_eq_cons_iff.mp same.symm
    obtain ⟨text, depth⟩ := Prod.mk.inj here
    rw [ofWords, ofWords, said, said, later, text, depth]

/-- Comments outside a column list are transparent: a blank in the place of each closed one changes
neither the kind of the statement nor which text is the list. So it changes no column unless the
list itself holds a comment. -/
theorem blankComments_columns (sql : Text) (kind : StatementKind) :
    StatementKind.classify (blankComments sql) = StatementKind.classify sql ∧
    Projection.list? (blankComments sql) kind = (Projection.list? sql kind).map blankComments ∧
    ((∀ list ∈ Projection.list? sql kind, blankComments list = list) →
      Projection.columns? (blankComments sql) kind = Projection.columns? sql kind) := by
  have lists := Projection.list?_blankComments sql kind
  refine ⟨?_, lists, fun uncommented => Projection.columns?_congr ?_⟩
  · exact StatementKind.ofWords_congr (scan_blankFrom start 0 0 sql)
  · rw [lists]
    cases found : Projection.list? sql kind with
    | none => rfl
    | some list => exact congrArg some (uncommented list found)

/-- A comment inside the list is cut at its commas, and its parts shift the columns behind it. -/
theorem comment_shifts_columns :
    Projection.columns? ("SELECT a /* x, y */, b FROM t" : Text) .select =
      some (["a /* x", "y */", "b"] : List Text) ∧
    Projection.columns? (blankComments ("SELECT a /* x, y */, b FROM t" : Text)) .select =
      some (["a", "b"] : List Text) := by
  decide +kernel

end QueryWeaver
