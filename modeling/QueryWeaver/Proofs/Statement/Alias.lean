import QueryWeaver.Proofs.Statement.SelectItem
/-!
Aliases with and without `AS`. With it the column has the name behind the last one; without it the
end of the expression in front decides whether the last word is a name or belongs to the expression.
-/

namespace QueryWeaver

open WordScan

namespace Word

/-- Blanks in front of a text move its words and leave what they say. -/
theorem shapes_trimStart (t : Text) :
    (ofText (Text.trimStart isBlank t)).map shape = (ofText t).map shape := by
  have blanks : Scans (fun _ _ => False) WordScan.start (t.takeWhile isBlank) WordScan.start :=
    .blanks fun c member => List.mem_takeWhile_imp member
  conv_rhs => rw [← List.takeWhile_append_dropWhile (p := isBlank) (l := t), blanks.shapes_behind]
  rfl

end Word

namespace ColumnName

/-- How an expression ends: in a run of word characters, in a quoted token or a parenthesis, or in a
sign that is in no such run though a number or an identifier may end in it. -/
inductive Ending where
  | word (text : Text)
  | closed
  | sign
  deriving DecidableEq, Repr

/-- A text with its end. -/
inductive Ends : Text → Ending → Prop
  | word {a w : Text} : w ≠ [] → w.all isWordChar = true →
      (∀ c ∈ a.getLast?, isWordChar c = false) → Ends (a ++ w) (.word w)
  | quoted {a body : Text} {first last : Char} : closingQuote? first = some last →
      Ends (a ++ first :: (body ++ [last])) .closed
  | group {a : Text} : Ends (a ++ [')']) .closed
  | sign {a : Text} {c : Char} : c = '.' ∨ c = '$' → Ends (a ++ [c]) .sign

/-- Whether a word behind such an end is taken for an alias. -/
def Ending.takesAlias : Ending → Bool
  | word text => !text.isOneOf notAliases
  | closed => true
  | sign => false

theorem isBlank_of_word {c : Char} (word : isWordChar c = true) : isBlank c = false :=
  isBlank_of_tail (WordMode.isTail_of_word word)

theorem isBlank_of_sign {c : Char} (sign : c = '.' ∨ c = '$') : isBlank c = false := by
  rcases sign with rfl | rfl <;> decide

/-- The character that closes a quoted token ends an operand and is in no word. -/
theorem closes_operand {first last : Char} (quote : closingQuote? first = some last) :
    endsOperand last = true ∧ WordMode.isTail last = false ∧ isBlank last = false := by
  unfold closingQuote? at quote
  split at quote
  next marks =>
    obtain rfl := Option.some.inj quote
    rcases marks with rfl | rfl | rfl <;> decide
  split at quote
  next =>
    obtain rfl := Option.some.inj quote
    decide
  next => cases quote

theorem lastWord_append {a w : Text} (word : w.all isWordChar = true)
    (apart : ∀ c ∈ a.getLast?, isWordChar c = false) : lastWord (a ++ w) = w := by
  have inside : ∀ c ∈ w.reverse, isWordChar c = true := by simpa using word
  have outside : a.reverse.takeWhile isWordChar = [] := by
    cases a using List.reverseRecOn with
    | nil => rfl
    | append_singleton a c => simp [apart c (by simp)]
  rw [lastWord, List.reverse_append, List.takeWhile_append_of_pos inside, outside, List.append_nil,
    List.reverse_reverse]

theorem isOperand_last {a : Text} {c : Char} (other : isWordChar c = false) :
    isOperand (a ++ [c]) = endsOperand c := by
  have wordless : lastWord (a ++ [c]) = [] := by
    simpa using lastWord_append (a := a ++ [c]) (w := []) rfl (by simpa using other)
  have free : Text.isOneOf [] notAliases = false := by decide
  rw [isOperand, wordless, free, List.getLast?_concat]
  simp

namespace Ends

variable {e : Text} {ending : Ending}

theorem isOperand (ends : Ends e ending) : isOperand e = ending.takesAlias := by
  cases ends with
  | @word a w ne word apart =>
    obtain ⟨u, z, rfl⟩ := (List.eq_nil_or_concat' w).resolve_left ne
    have last : isWordChar z = true := List.all_eq_true.mp word z (by simp)
    rw [ColumnName.isOperand, lastWord_append word apart, ← List.append_assoc, List.getLast?_concat]
    simp [endsOperand, last, Ending.takesAlias]
  | @quoted a body first last quote =>
    obtain ⟨closes, other, -⟩ := closes_operand quote
    have whole : a ++ first :: (body ++ [last]) = (a ++ first :: body) ++ [last] := by simp
    rw [whole, isOperand_last (Bool.or_eq_false_iff.mp other).1, closes]
    rfl
  | group =>
    rw [isOperand_last (by decide)]
    rfl
  | sign sign => rcases sign with rfl | rfl <;> rw [isOperand_last (by decide)] <;> rfl

theorem last (ends : Ends e ending) : ∃ a z, e = a ++ [z] ∧ isBlank z = false := by
  cases ends with
  | @word a w ne word _ =>
    obtain ⟨u, z, rfl⟩ := (List.eq_nil_or_concat' w).resolve_left ne
    exact ⟨a ++ u, z, by simp, isBlank_of_word (List.all_eq_true.mp word z (by simp))⟩
  | @quoted a body first last quote =>
    exact ⟨a ++ first :: body, last, by simp, (closes_operand quote).2.2⟩
  | @group a => exact ⟨a, ')', rfl, by decide⟩
  | @sign a c sign => exact ⟨a, c, rfl, isBlank_of_sign sign⟩

theorem trimStart (ends : Ends e ending) : Ends (Text.trimStart isBlank e) ending := by
  cases ends with
  | @word a w ne word apart =>
    obtain ⟨c, r, rfl⟩ := List.exists_cons_of_ne_nil ne
    have solid : isBlank c = false := isBlank_of_word (List.all_eq_true.mp word c (by simp))
    rw [Text.trimStart_append_of_head a (by simpa using solid)]
    refine .word ne word fun c last => apart c ?_
    -- What is left of `a` is a suffix, and so ends as `a` does.
    obtain ⟨blanks, whole⟩ := List.dropWhile_suffix isBlank (l := a)
    rw [← whole, List.getLast?_append, ← Text.trimStart, Option.mem_def.mp last]
    rfl
  | @quoted a body first last quote =>
    rw [Text.trimStart_append_of_head a (by simpa using isBlank_of_quote quote)]
    exact .quoted quote
  | @group a =>
    rw [Text.trimStart_append_of_head a (by simp; decide)]
    exact .group
  | @sign a c sign =>
    rw [Text.trimStart_append_of_head a (by simpa using isBlank_of_sign sign)]
    exact .sign sign

end Ends

/-- A text that ends inside a word ends in no quote. -/
theorem unquote_last {t : Text} (last : ∀ c ∈ t.getLast?, WordMode.isTail c = true) :
    unquote t = t := by
  have missing : (quotePairs.findSome? fun q => inner? q.1 q.2 t) = none := by
    rw [List.findSome?_eq_none_iff]
    rintro ⟨first, close⟩ pair
    have other : WordMode.isTail close = false := by
      revert pair
      simp only [quotePairs, List.mem_cons, Prod.mk.injEq, List.not_mem_nil, or_false]
      rintro (⟨-, rfl⟩ | ⟨-, rfl⟩ | ⟨-, rfl⟩ | ⟨-, rfl⟩) <;> decide
    cases found : inner? first close t with
    | none => rfl
    | some body =>
      obtain ⟨rest, opened, closed⟩ := Option.bind_eq_some_iff.mp found
      rw [List.isPrefixOf?_eq_some_iff_append_eq] at opened
      rw [List.isSuffixOf?_eq_some_iff_append_eq] at closed
      have ends : t = (first :: body) ++ [close] := by simp [← opened, ← closed]
      have ended := last close (by rw [ends, List.getLast?_concat]; rfl)
      rw [other] at ended
      cases ended
  rw [unquote, missing]
  rfl

theorem isAliasName_word {name : Text} (one : isWord name = true)
    (free : name.isOneOf notAliases = false) : isAliasName name = name.all isWordChar := by
  obtain ⟨c, r, rfl, fresh, -⟩ := isWord_cases one
  have digitless : startsWithDigit (c :: r) = false := (WordMode.fresh_word.mp fresh).2
  rw [isAliasName, unquote_word one, digitless, free]
  simp

/-- A word behind closed text and a blank is the alias, if both look the part. -/
theorem implicitAlias?_last {e name : Text} (closed : Closed false e)
    (ended : ∃ a z, e = a ++ [z] ∧ isBlank z = false) (one : isWord name = true)
    (free : name.isOneOf notAliases = false) :
    implicitAlias? (e ++ ' ' :: name) =
      if name.all isWordChar && isOperand e then some name else none := by
  obtain ⟨c, r, spelled, -, tail⟩ := isWord_cases one
  have solid : ∀ x ∈ name, isBlank x = false := fun x member => isBlank_of_tail (tail x member)
  have top : (Nesting.start.run e).isTop = true := by
    rw [Nesting.start, closed.run_nesting]
    rfl
  have cut := splitLastBlank_last top (c := ' ') (by decide) solid
  obtain ⟨a, z, rfl, stays⟩ := ended
  have head : Text.trimEnd isBlank (a ++ [z]) = a ++ [z] :=
    Text.trimEnd_of_last (by simpa using stays)
  have behind : Text.trim (' ' :: name) = name :=
    Text.trim_solid (a := [' ']) (by simp [isBlank]) solid
  have ne : (a ++ [z]).isEmpty = false := by simp
  have named : name.isEmpty = false := by simp [spelled]
  simp only [implicitAlias?, cut, Option.bind_eq_bind, Option.bind_some, head, behind, ne, named,
    isAliasName_word one free, Bool.or_self, Bool.false_eq_true, if_false]

theorem referenced?_blank {t : Text} (blank : ' ' ∈ t) : referenced? t = none := by
  have spaced : (t.any fun c => c == '(' || isSpacing c) = true :=
    List.any_eq_true.mpr ⟨' ', blank, by decide⟩
  rw [referenced?, isReference, spaced]
  rfl

/-- A word is no `AS` at the top. -/
def NotAs (text : Text) (depth : Nat) : Prop :=
  (depth == 0 && Text.sameLetters text "as") = false

/-- A word behind an expression without `AS` brings none. -/
theorem explicitAlias?_word {e name : Text} (closed : Closed false e)
    (plain : ∀ w ∈ Word.ofText e, w.isTop "as" = false) (one : isWord name = true)
    (other : Text.sameLetters name "as" = false) :
    explicitAlias? (Text.trimStart isBlank (e ++ ' ' :: name)) = none := by
  obtain ⟨s, isOpen, top, scans⟩ := closed.scans (s := start) (WordMode.fits_plain e)
  have first : Scans NotAs start e s :=
    ⟨scans.run, fun pos => Word.forall_of_shapes (Word.scan_shapes start 0 pos e) plain⟩
  have last : Scans NotAs start name ⟨.word, 0⟩ := .word one (by rw [NotAs, other]; rfl)
  have words := first.append (last.space isOpen top) (Word.apart_of_head (by decide))
  exact explicitAlias?_none
    (Word.forall_of_shapes (P := NotAs) (Word.shapes_trimStart _).symm (words.words 0))

/-- The column of a closed expression and a name behind it. With `AS`, in any letter case, it is the
name; without, it is where the expression ends as an operand does and the name holds no `$`, and
else the text of the whole. -/
theorem ofExpression_alias {e name : Text} {ending : Ending} (closed : Closed false e)
    (ends : Ends e ending) (plain : ∀ w ∈ Word.ofText e, w.isTop "as" = false)
    (one : isWord name = true) (free : name.isOneOf notAliases = false)
    (other : Text.sameLetters name "as" = false) :
    (∀ as ∈ asSpellings, ofExpression (e ++ ' ' :: (as ++ ' ' :: name)) = name) ∧
    ofExpression (e ++ ' ' :: name) =
      if name.all isWordChar && ending.takesAlias then name
      else Text.trimStart isBlank e ++ ' ' :: name := by
  refine ⟨fun as spelled => ofExpression_aliased closed spelled one other, ?_⟩
  obtain ⟨u, z, spelled, tail⟩ := isWord_last one
  set expr := Text.trimStart isBlank e ++ ' ' :: name with whole
  have ended : expr = (Text.trimStart isBlank e ++ ' ' :: u) ++ [z] := by simp [whole, spelled]
  have behind : Text.trimStart isBlank (e ++ ' ' :: name) = expr := by
    obtain ⟨a, y, rfl, stays⟩ := ends.last
    have stays : ∀ c ∈ (y :: ' ' :: name).head?, isBlank c = false := by simpa using stays
    rw [whole, Text.trimStart_append_of_head a (a := [y]) (by simpa using stays),
      List.append_assoc, List.append_assoc]
    exact Text.trimStart_append_of_head a stays
  have trimmed : Text.trim (e ++ ' ' :: name) = expr := by
    rw [Text.trim, Text.trimBy, behind]
    refine Text.trimEnd_of_last ?_
    rw [ended, List.getLast?_concat]
    simpa using isBlank_of_tail tail
  have explicit : explicitAlias? expr = none := behind ▸ explicitAlias?_word closed plain one other
  rw [ofExpression, trimmed, explicit,
    implicitAlias?_last closed.trimStart ends.trimStart.last one free, ends.trimStart.isOperand]
  split
  next => exact unquote_word one
  next =>
    rw [referenced?_blank (by simp [whole])]
    have unquoted : unquote expr = expr := by
      refine unquote_last ?_
      rw [ended, List.getLast?_concat]
      rintro c ⟨⟩
      exact tail
    exact unquoted

/-- An `AS` in parentheses, a parenthesis in quotes. -/
theorem sample_alias : ofExpression ("CAST(a AS int) || ')' total" : Text) = "total" := by
  have word {t r : Text} (plain : t.all isPlain = true) (rest : Closed false r) :
      Closed false (t ++ r) := .plain_append (List.all_eq_true.mp plain) rest
  have bar {r : Text} (rest : Closed false r) : Closed false ('|' :: r) :=
    .char rfl (by decide) (by decide) (by simp [beginsComment]) rest
  have quoted : Closed false ("')'" : Text) := .quoted rfl (show '\'' ∉ [')'] by decide) .nil
  have type : Closed false ("a AS int" : Text) := word (t := "a AS int") (by decide) .nil
  have closed : Closed false ("CAST(a AS int) || ')'" : Text) :=
    word (t := "CAST") (by decide) (.group type
      (word (t := " ") (by decide) (bar (bar (word (t := " ") (by decide) quoted)))))
  have ends : Ends ("CAST(a AS int) || ')'" : Text) .closed :=
    @Ends.quoted "CAST(a AS int) || " ")" '\'' '\'' rfl
  have plain : ∀ w ∈ Word.ofText "CAST(a AS int) || ')'", w.isTop "as" = false := by
    decide +kernel
  have one : isWord ("total" : Text) = true := by decide
  exact (ofExpression_alias closed ends plain one (by decide) (by decide)).2

/-- `END` completes its expression, yet hides a name behind it without `AS`. -/
theorem end_hides_alias :
    Closed false ("CASE WHEN a THEN b END" : Text) ∧
    Ends ("CASE WHEN a THEN b END" : Text) (.word "END") ∧
    (∀ w ∈ Word.ofText "CASE WHEN a THEN b END", w.isTop "as" = false) ∧
    isWord "x" = true ∧ Text.isOneOf "x" notAliases = false ∧ Text.sameLetters "x" "as" = false ∧
    ofExpression "CASE WHEN a THEN b END AS x" = "x" ∧
    ofExpression "CASE WHEN a THEN b END x" = "CASE WHEN a THEN b END x" := by
  have plain : ("CASE WHEN a THEN b END" : Text).all isPlain = true := by decide
  have closed := Closed.plain_append (List.all_eq_true.mp plain) (show Closed false [] from .nil)
  have apart : ∀ c ∈ ("CASE WHEN a THEN b " : Text).getLast?, isWordChar c = false := by
    rintro c ⟨⟩
    decide
  have ends : Ends ("CASE WHEN a THEN b END" : Text) (.word "END") :=
    .word (by decide) (by decide) apart
  rw [List.append_nil] at closed
  exact ⟨closed, ends, by decide +kernel⟩

end ColumnName

end QueryWeaver
