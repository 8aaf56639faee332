import QueryWeaver.Proofs.Statement.Closed
import QueryWeaver.Statement.Projection
/-!
The entries of a column list: references and expressions with an alias. Each entry is scanned as
one part with no keyword of its own, and its column name is the identifier it ends in.
-/

namespace QueryWeaver

open WordScan

namespace Projection

/-- The keywords that a scan for a column list stops at or looks for. -/
def keywords : List Text :=
  "as" :: "select" :: "distinct" :: "all" :: "returning" :: endKeywords

end Projection

/-- `AS` in each letter case. -/
def asSpellings : List Text := ["as", "As", "aS", "AS"]

/-- Whether a text is an identifier and no keyword of a column list. -/
def isName (t : Text) : Bool := isWord t && !t.isOneOf Projection.keywords

/-- One entry of a column list. -/
inductive SelectItem where
  | reference (qualifier : List Text) (column : Text)
  | aliased (operand keyword column : Text)
  deriving DecidableEq, Repr

namespace SelectItem

def text : SelectItem → Text
  | reference qualifier column => qualifier.flatMap (· ++ ['.']) ++ column
  | aliased operand keyword column => operand ++ ' ' :: (keyword ++ ' ' :: column)

def column : SelectItem → Text
  | reference _ column => column
  | aliased _ _ column => column

/-- An expression that a column list may hold as it stands: closed, without comments or commas of
its own, and with no keyword but `AS` outside parentheses. -/
structure IsOperand (t : Text) : Prop where
  ne_nil : t ≠ []
  closed : Closed false t
  undivided : Closed.Undivided t
  keywords : ∀ w ∈ Word.ofText t, w.depth = 0 → w.text.isOneOf Projection.keywords = true →
    Text.sameLetters w.text "as" = true

def Valid : SelectItem → Prop
  | reference qualifier column => (∀ name ∈ qualifier, isName name = true) ∧ isName column = true
  | aliased operand keyword column =>
    IsOperand operand ∧ keyword ∈ asSpellings ∧ isName column = true

end SelectItem

theorem isName_word {t : Text} (name : isName t = true) : isWord t = true :=
  (Bool.and_eq_true_iff.mp name).1

theorem isName_other {t : Text} (name : isName t = true) :
    t.isOneOf Projection.keywords = false := by
  simpa using (Bool.and_eq_true_iff.mp name).2

/-- A name is no `AS`. -/
theorem isName_not_as {t : Text} (name : isName t = true) : Text.sameLetters t "as" = false :=
  Bool.eq_false_iff.mpr (List.any_eq_false.mp (isName_other name) _ (List.mem_cons_self ..))

theorem isWord_last {t : Text} (one : isWord t = true) :
    ∃ u z, t = u ++ [z] ∧ WordMode.isTail z = true := by
  obtain ⟨c, r, rfl, -, tail⟩ := isWord_cases one
  have ne : c :: r ≠ [] := by simp
  exact ⟨_, _, (List.dropLast_append_getLast ne).symm, tail _ (List.getLast_mem ne)⟩

theorem isName_tail {t : Text} (name : isName t = true) : ∀ c ∈ t, WordMode.isTail c = true := by
  obtain ⟨-, -, -, -, tail⟩ := isWord_cases (isName_word name)
  exact tail

theorem asSpellings_word {t : Text} (spelled : t ∈ asSpellings) :
    isWord t = true ∧ Text.sameLetters t "as" = true := by
  simp only [asSpellings, List.mem_cons, List.not_mem_nil, or_false] at spelled
  rcases spelled with rfl | rfl | rfl | rfl <;> decide

namespace WordScan

/-- A word at the top is a keyword of a column list only if it is `AS`. -/
def Unreserved (text : Text) (depth : Nat) : Prop :=
  depth = 0 → text.isOneOf Projection.keywords = true → Text.sameLetters text "as" = true

namespace Scans

variable {P : Text → Nat → Prop}

theorem word {t : Text} (one : isWord t = true) (holds : P t 0) : Scans P start t ⟨.word, 0⟩ := by
  obtain ⟨c, r, rfl, fresh, tail⟩ := isWord_cases one
  have begins := start_begins fresh
  have rest : ∀ x ∈ r, WordMode.isTail x = true := fun x member => tail x (by simp [member])
  have opened : start.step c = ⟨.word, 0⟩ := (step_begins begins).1
  refine ⟨by rw [run_cons, opened, run_tail rest], fun pos => ?_⟩
  have words := Word.scan_word (v := []) pos begins rest (by simp)
  rw [List.append_nil] at words
  rw [words]
  exact List.forall_mem_cons.mpr ⟨holds, by simp [Word.scan]⟩

theorem name {t : Text} (name : isName t = true) :
    Scans (fun text _ => text.isOneOf Projection.keywords = false) start t ⟨.word, 0⟩ :=
  word (isName_word name) (isName_other name)

theorem unreserved {s s' : WordScan} {t : Text}
    (scans : Scans (fun text _ => text.isOneOf Projection.keywords = false) s t s') :
    Scans Unreserved s t s' :=
  scans.mono fun text _ other _ keyword => by rw [other] at keyword; cases keyword

theorem reference {qualifier : List Text} {column : Text}
    (names : ∀ name ∈ qualifier, isName name = true) (last : isName column = true) :
    Scans (fun text _ => text.isOneOf Projection.keywords = false) start
      (SelectItem.text (.reference qualifier column)) ⟨.word, 0⟩ := by
  induction qualifier with
  | nil => exact name last
  | cons q qualifier ih =>
    have rest := ih fun n member => names n (List.mem_cons_of_mem q member)
    have first := name (names q (List.mem_cons_self ..))
    simp only [SelectItem.text, List.flatMap_cons, List.append_assoc] at rest ⊢
    exact first.append (.skip rest (by decide)) (Word.apart_of_head (by decide))

theorem spelling {t : Text} (spelled : t ∈ asSpellings) : Scans Unreserved start t ⟨.word, 0⟩ :=
  word (asSpellings_word spelled).1 fun _ _ => (asSpellings_word spelled).2

/-- A blank behind closed text and before the next word. -/
theorem space {s s' : WordScan} {r : Text} (rest : Scans P start r s')
    (isOpen : s.mode.isOpen = true) (top : s.depth = 0) : Scans P s (' ' :: r) s' := by
  refine .skip ?_ (by decide)
  rwa [step_blank isOpen (by decide), top]

theorem operand {t : Text} (operand : SelectItem.IsOperand t) :
    ∃ s, s.mode.isOpen = true ∧ s.depth = 0 ∧ Scans Unreserved start t s := by
  obtain ⟨s, isOpen, depth, scans⟩ := operand.closed.scans (s := start) (WordMode.fits_plain t)
  refine ⟨s, isOpen, depth, scans.run, fun pos => ?_⟩
  exact Word.forall_of_shapes (Word.scan_shapes start 0 pos t) operand.keywords

/-- An entry is scanned from the top into its last word. -/
theorem item {item : SelectItem} (valid : item.Valid) :
    Scans Unreserved start item.text ⟨.word, 0⟩ := by
  cases item with
  | reference qualifier column => exact (reference valid.1 valid.2).unreserved
  | aliased e keyword column =>
    obtain ⟨isOperand, spelled, named⟩ := valid
    obtain ⟨s, isOpen, top, first⟩ := operand isOperand
    have renamed : Scans Unreserved start (keyword ++ ' ' :: column) ⟨.word, 0⟩ :=
      (spelling spelled).append ((name named).unreserved.space rfl rfl)
        (Word.apart_of_head (by decide))
    exact first.append (renamed.space isOpen top) (Word.apart_of_head (by decide))

end Scans
end WordScan

namespace SelectItem

theorem reference_chars {qualifier : List Text} {column : Text}
    (names : ∀ name ∈ qualifier, isName name = true) (last : isName column = true) :
    ∀ c ∈ text (.reference qualifier column), WordMode.isTail c = true ∨ c = '.' := by
  intro c member
  simp only [text, List.mem_append, List.mem_flatMap, List.mem_singleton] at member
  rcases member with ⟨name, inside, member | dot⟩ | member
  · exact .inl (isName_tail (names name inside) c member)
  · exact .inr dot
  · exact .inl (isName_tail last c member)

/-- An entry stays in one part of the list. -/
theorem splitCommas_text {item : SelectItem} (valid : item.Valid) (rest : Text) :
    Nesting.start.splitCommas (item.text ++ rest) =
      (Nesting.start.splitCommas rest).modifyHead (item.text ++ ·) := by
  cases item with
  | reference qualifier column =>
    refine Closed.splitCommas_plain (fun c member => ?_) rest
    rcases reference_chars valid.1 valid.2 c member with tail | rfl
    · simp [isPlain, tail]
    · rfl
  | aliased operand keyword column =>
    obtain ⟨isOperand, spelled, named⟩ := valid
    obtain ⟨-, -, -, -, letters⟩ := isWord_cases (asSpellings_word spelled).1
    have plain : ∀ c ∈ ' ' :: (keyword ++ ' ' :: column), isPlain c = true := by
      intro c member
      simp only [List.mem_cons, List.mem_append] at member
      rcases member with rfl | member | rfl | member
      · rfl
      · simp [isPlain, letters c member]
      · rfl
      · simp [isPlain, isName_tail named c member]
    have first (rest : Text) : Nesting.start.splitCommas (operand ++ rest) =
        (Nesting.start.splitCommas rest).modifyHead (operand ++ ·) :=
      isOperand.closed.splitCommas (fun _ => isOperand.undivided) rest
    rw [text, List.append_assoc, first, Closed.splitCommas_plain plain, List.modifyHead_modifyHead]
    congr 1
    funext part
    simp

theorem text_last {item : SelectItem} (valid : item.Valid) :
    ∃ u z, item.text = u ++ [z] ∧ WordMode.isTail z = true := by
  cases item with
  | reference qualifier column =>
    obtain ⟨u, z, rfl, tail⟩ := isWord_last (isName_word valid.2)
    exact ⟨qualifier.flatMap (· ++ ['.']) ++ u, z, by simp [text], tail⟩
  | aliased operand keyword column =>
    obtain ⟨u, z, rfl, tail⟩ := isWord_last (isName_word valid.2.2)
    exact ⟨operand ++ ' ' :: (keyword ++ ' ' :: u), z, by simp [text], tail⟩

end SelectItem

namespace ColumnName

theorem unquote_unquoted {c : Char} (unquoted : closingQuote? c = none) (r : Text) :
    unquote (c :: r) = c :: r := by
  have other (x : Char) (quote : closingQuote? x ≠ none) : x ≠ c := by
    rintro rfl
    exact quote unquoted
  have missing : (quotePairs.findSome? fun q => inner? q.1 q.2 (c :: r)) = none := by
    simp [quotePairs, inner?, List.isPrefixOf?, other '"' (by decide), other '\x60' (by decide),
      other '[' (by decide), other '\'' (by decide)]
  rw [unquote, missing]
  rfl

theorem unquote_word {t : Text} (one : isWord t = true) : unquote t = t := by
  obtain ⟨c, r, rfl, -, tail⟩ := isWord_cases one
  exact unquote_unquoted (WordMode.closingQuote?_tail (tail c (List.mem_cons_self ..))) r

theorem ofExpression_trim {t : Text} (again : Text.trim (Text.trim t) = Text.trim t) :
    ofExpression (Text.trim t) = ofExpression t := by
  rw [ofExpression, again, ofExpression]

theorem splitLastBlank_none {t : Text} (solid : ∀ c ∈ t, isBlank c = false) (s : Nesting) :
    s.splitLastBlank t = none := by
  induction t generalizing s with
  | nil => rfl
  | cons c t ih =>
    rw [Nesting.splitLastBlank, ih fun x member => solid x (List.mem_cons_of_mem c member)]
    simp [solid c (List.mem_cons_self ..)]

/-- The last blank at the top, with nothing behind it that holds another. -/
theorem splitLastBlank_last {s : Nesting} {t r : Text} {c : Char} (top : (s.run t).isTop = true)
    (blank : isBlank c = true) (solid : ∀ x ∈ r, isBlank x = false) :
    s.splitLastBlank (t ++ c :: r) = some (t, c :: r) := by
  induction t generalizing s with
  | nil =>
    have here : s.isTop = true := top
    rw [List.nil_append, Nesting.splitLastBlank, splitLastBlank_none solid]
    simp [here, blank]
  | cons x t ih =>
    rw [List.cons_append, Nesting.splitLastBlank, ih top]

theorem not_as {w : Word} (other : Text.sameLetters w.text "as" = false) :
    w.isTop "as" = false := by
  rw [Word.isTop, other, Bool.and_false]

theorem explicitAlias?_none {expr : Text}
    (plain : ∀ w ∈ Word.ofText expr, w.isTop "as" = false) : explicitAlias? expr = none := by
  rw [explicitAlias?, List.find?_eq_none.mpr]
  · rfl
  · intro w member
    exact Bool.eq_false_iff.mp (plain w (List.mem_reverse.mp member))

theorem isReference_reference {qualifier : List Text} {column : Text}
    (names : ∀ name ∈ qualifier, isName name = true) (last : isName column = true) :
    isReference (SelectItem.text (.reference qualifier column)) = true := by
  have chars := SelectItem.reference_chars names last
  have first : startsWithDigit (SelectItem.text (.reference qualifier column)) = false := by
    cases qualifier with
    | nil =>
      obtain ⟨c, r, rfl, fresh, -⟩ := isWord_cases (isName_word last)
      exact (WordMode.fresh_word.mp fresh).2
    | cons q qualifier =>
      obtain ⟨c, r, rfl, fresh, -⟩ := isWord_cases (isName_word (names q (List.mem_cons_self ..)))
      exact (WordMode.fresh_word.mp fresh).2
  have plain : ∀ c ∈ SelectItem.text (.reference qualifier column),
      ¬(c == '(' || isSpacing c) = true := by
    intro c member
    rcases chars c member with tail | rfl
    · have other (x : Char) (no : WordMode.isTail x = false) : c ≠ x := ne_of_class tail no
      simp [isSpacing, other '(' (by decide), other ' ' (by decide), other '\t' (by decide),
        other '\r' (by decide), other '\n' (by decide)]
    · decide
  rw [isReference, first, List.any_eq_false.mpr plain]
  rfl

theorem ofExpression_reference {qualifier : List Text} {column : Text}
    (names : ∀ name ∈ qualifier, isName name = true) (last : isName column = true) :
    ofExpression (SelectItem.text (.reference qualifier column)) = column := by
  have scans := Scans.reference names last
  have chars := SelectItem.reference_chars names last
  have reference := isReference_reference names last
  have dotless : '.' ∉ column := fun member => absurd (isName_tail last '.' member) (by decide)
  set expr := SelectItem.text (.reference qualifier column) with text
  have solid : ∀ c ∈ expr, isBlank c = false := by
    intro c member
    rcases chars c member with tail | rfl
    · exact isBlank_of_tail tail
    · decide
  have trimmed : Text.trim expr = expr := Text.trim_solid (a := []) (by simp) solid
  have explicit : explicitAlias? expr = none := by
    refine explicitAlias?_none fun w member => not_as ?_
    have other := scans.words 0 w member
    exact Bool.eq_false_iff.mpr (List.any_eq_false.mp other _ (List.mem_cons_self ..))
  have implicit : implicitAlias? expr = none := by
    rw [implicitAlias?, splitLastBlank_none solid]
    rfl
  have found : (referenced? expr).getD expr = column := by
    rw [referenced?, if_pos reference]
    cases qualifier using List.reverseRecOn with
    | nil =>
      rw [text, SelectItem.text, List.flatMap_nil, List.nil_append, Text.cutLast_missing dotless]
      rfl
    | append_singleton qualifier q =>
      have whole : expr = (qualifier.flatMap (· ++ ['.']) ++ q) ++ '.' :: column := by
        simp [text, SelectItem.text]
      rw [whole, Text.cutLast_last dotless]
      rfl
  rw [ofExpression, trimmed, explicit, implicit]
  exact (congrArg unquote found).trans (unquote_word (isName_word last))

/-- The alias behind the last `AS` at the top. -/
theorem explicitAlias?_last {before keyword column : Text} (top : start.run before = start)
    (spelled : keyword ∈ asSpellings) (one : isWord column = true)
    (other : Text.sameLetters column "as" = false) :
    explicitAlias? (before ++ (keyword ++ ' ' :: column)) = some column := by
  obtain ⟨as, same⟩ := asSpellings_word spelled
  obtain ⟨-, -, -, -, tail⟩ := isWord_cases one
  have splits := Word.splits_top (v := ' ' :: column) top as (by simp [isTail_of_blank, isBlank])
  set w : Word := ⟨keyword, Text.size before, Text.size before + Text.size keyword, 0⟩ with word
  have here : w.isTop "as" = true := by rw [Word.isTop, word, same]; rfl
  have missing : (Word.scan ⟨.word, w.depth⟩ w.stop (' ' :: column)).reverse.find?
      (fun w => w.isTop "as") = none := by
    have last : Scans (fun text _ => Text.sameLetters text "as" = false) start column ⟨.word, 0⟩ :=
      .word one other
    have behind := (last.space (s := ⟨.word, 0⟩) rfl rfl).words w.stop
    exact List.find?_eq_none.mpr fun x member =>
      Bool.eq_false_iff.mp (not_as (behind x (List.mem_reverse.mp member)))
  have rest : Text.dropBytes w.stop (before ++ (keyword ++ ' ' :: column)) = ' ' :: column := by
    have whole := Text.dropBytes_append (before ++ keyword) (' ' :: column)
    rwa [Text.size_append, List.append_assoc] at whole
  have solid : Text.trim ([' '] ++ column) = column :=
    Text.trim_solid (by simp [isBlank]) fun c member => isBlank_of_tail (tail c member)
  rw [explicitAlias?, Word.ofText, splits.scan, List.reverse_append, List.reverse_cons,
    List.append_assoc, List.find?_append, missing, Option.none_or, List.singleton_append,
    List.find?_cons_of_pos (p := fun w : Word => w.isTop "as") here]
  exact congrArg some ((congrArg Text.trim rest).trans solid)

/-- Blanks leave the scan of a text where it starts. -/
theorem run_trimStart (t : Text) : start.run (Text.trimStart isBlank t) = start.run t := by
  have blanks : Scans (fun _ _ => False) start (t.takeWhile isBlank) start :=
    .blanks fun c member => List.mem_takeWhile_imp member
  conv_rhs => rw [← List.takeWhile_append_dropWhile (p := isBlank) (l := t), run_append, blanks.run]
  rfl

theorem ofExpression_aliased {operand keyword column : Text} (closed : Closed false operand)
    (spelled : keyword ∈ asSpellings) (one : isWord column = true)
    (other : Text.sameLetters column "as" = false) :
    ofExpression (operand ++ ' ' :: (keyword ++ ' ' :: column)) = column := by
  obtain ⟨c, r, head, -, letters⟩ := isWord_cases (asSpellings_word spelled).1
  obtain ⟨u, z, rfl, last⟩ := isWord_last one
  -- The operand may begin with blanks, or be nothing else; the keyword behind it stays.
  let before := Text.trimStart isBlank (operand ++ [' '])
  have top : start.run before = start := by
    obtain ⟨s, isOpen, top, scans⟩ := closed.scans (s := start) (WordMode.fits_plain operand)
    rw [run_trimStart, run_append, scans.run, run_cons, step_blank isOpen (by decide), top]
    rfl
  have trimmed : Text.trim (operand ++ ' ' :: (keyword ++ ' ' :: (u ++ [z]))) =
      before ++ (keyword ++ ' ' :: (u ++ [z])) := by
    have stays : ∀ x ∈ (keyword ++ ' ' :: u).head?, isBlank x = false := by
      rw [head]
      rintro x ⟨⟩
      exact isBlank_of_tail (letters _ (by simp [head]))
    have whole : operand ++ ' ' :: (keyword ++ ' ' :: (u ++ [z])) =
        (operand ++ [' '] ++ (keyword ++ ' ' :: u)) ++ [z] := by simp
    rw [whole, Text.trim, Text.trimBy_last (isBlank_of_tail last),
      Text.trimStart_append_of_head _ stays]
    simp [before]
  rw [ofExpression, trimmed, explicitAlias?_last top spelled one other]
  exact unquote_word one

end ColumnName

/-- The column of an entry is the name it ends in. -/
theorem SelectItem.ofExpression_text {item : SelectItem} (valid : item.Valid) :
    ColumnName.ofExpression item.text = item.column := by
  cases item with
  | reference qualifier column => exact ColumnName.ofExpression_reference valid.1 valid.2
  | aliased operand keyword column =>
    obtain ⟨isOperand, spelled, named⟩ := valid
    exact ColumnName.ofExpression_aliased isOperand.closed spelled (isName_word named)
      (isName_not_as named)

end QueryWeaver
