import Mathlib
import QueryWeaver.Proofs.Source.Tokens
/-!
Lists of tokens that the scan gives back. Where a token ends depends on the two characters after it
only, so a token stays a token when the text further on changes.
-/

namespace QueryWeaver

namespace Token

/-- Each token ends where the scan of the joined text ends it. -/
def Lexed : List Token → Prop
  | [] => True
  | code t :: r => t ≠ [] ∧ spanCode .between (t ++ join r) = (t, join r) ∧ Lexed r
  | comment t :: r => comment? (t ++ join r) = some (t, join r) ∧ Lexed r

theorem tokenize_comment {t body rest : Text} (opened : comment? t = some (body, rest)) :
    tokenize t = comment body :: tokenize rest := by
  cases t with
  | nil => cases opened
  | cons c r =>
    rw [tokenize]
    split
    next body' rest' same =>
      rw [opened] at same
      cases same
      rfl
    next none =>
      rw [opened] at none
      cases none

theorem tokenize_code {t : Text} (ne : t ≠ []) (plain : comment? t = none) :
    tokenize t = code (spanCode .between t).1 :: tokenize (spanCode .between t).2 := by
  cases t with
  | nil => exact absurd rfl ne
  | cons c r =>
    rw [tokenize]
    split
    next some =>
      rw [plain] at some
      cases some
    next => rfl

theorem spanCode_opens {s : LiteralState} {t : Text} (live : s.covers '/' = false)
    (opens : opensComment t = true) : spanCode s t = ([], t) := by
  cases t with
  | nil => cases opens
  | cons c r =>
    have slash : c = '/' := by
      unfold opensComment at opens
      split at opens <;> simp_all
    simp [spanCode, slash ▸ live, opens]

/-- Code that the scan passes over begins with no comment. -/
theorem comment?_none {t rest : Text} (ne : t ≠ [])
    (span : spanCode .between (t ++ rest) = (t, rest)) : comment? (t ++ rest) = none := by
  by_contra some
  have opens : opensComment (t ++ rest) = true := by
    rw [opensComment_iff]
    exact Option.isSome_iff_ne_none.mpr some
  rw [spanCode_opens rfl opens] at span
  exact ne (congrArg Prod.fst span).symm

theorem lexed_tokenize (t : Text) : Lexed (tokenize t) := by
  fun_induction tokenize t with
  | case1 => trivial
  | case2 c r body rest opened ih =>
    refine ⟨?_, ih⟩
    rw [join_tokenize, comment?_append opened]
    exact opened
  | case3 c r plain ih =>
    refine ⟨?_, ?_, ih⟩
    · intro empty
      have shorter := spanCode_length plain
      have whole := spanCode_append .between (c :: r)
      rw [empty, List.nil_append] at whole
      rw [whole] at shorter
      exact lt_irrefl _ shorter
    · rw [join_tokenize, spanCode_append]

theorem tokenize_join {tokens : List Token} (lexed : Lexed tokens) :
    tokenize (join tokens) = tokens := by
  induction tokens with
  | nil => simp [join, tokenize]
  | cons token r ih =>
    rw [join_cons]
    cases token with
    | code t =>
      obtain ⟨ne, span, rest⟩ := lexed
      rw [text, tokenize_code (by simp [ne]) (comment?_none ne span), span, ih rest]
    | comment t =>
      obtain ⟨opened, rest⟩ := lexed
      rw [text, tokenize_comment opened, ih rest]

theorem opensComment_take (t : Text) : opensComment t = opensComment (t.take 2) := by
  rcases t with _ | ⟨a, _ | ⟨b, r⟩⟩
  · rfl
  · rfl
  · rw [List.take_succ_cons, List.take_succ_cons, List.take_zero]
    unfold opensComment
    split <;> simp_all

theorem take_of_take {x y : Text} {n m : Nat} (le : n ≤ m) (same : x.take m = y.take m) :
    x.take n = y.take n := by
  have cut := congrArg (List.take n) same
  rwa [List.take_take, List.take_take, min_eq_left le] at cut

theorem take_append_congr {x y : Text} (t : Text) {n : Nat} (same : x.take n = y.take n) :
    (t ++ x).take n = (t ++ y).take n := by
  rw [List.take_append, List.take_append, take_of_take (Nat.sub_le n t.length) same]

theorem spanCode_congr {s : LiteralState} {t x y : Text} (span : spanCode s (t ++ x) = (t, x))
    (same : x.take 2 = y.take 2) : spanCode s (t ++ y) = (t, y) := by
  induction t generalizing s with
  | nil =>
    cases y with
    | nil => rfl
    | cons c r =>
      cases x with
      | nil => simp at same
      | cons c' r' =>
        have head : c' = c := by simpa using congrArg List.head? same
        have opens : opensComment (c :: r) = opensComment (c' :: r') := by
          rw [opensComment_take, ← same, ← opensComment_take]
        rw [List.nil_append, spanCode, head] at span
        rw [List.nil_append, spanCode, opens]
        split at span
        next stop => rw [if_pos (head ▸ stop)]
        next => simp at span
  | cons c t ih =>
    have opens : opensComment (c :: (t ++ y)) = opensComment (c :: (t ++ x)) := by
      rw [opensComment_take, opensComment_take (c :: (t ++ x))]
      exact congrArg opensComment (take_append_congr (c :: t) same.symm)
    rw [List.cons_append, spanCode] at span ⊢
    rw [opens]
    split at span
    next => simp at span
    next go =>
      rw [if_neg go]
      simp only [Prod.mk.injEq, List.cons.injEq, true_and] at span ⊢
      have rest := ih (Prod.ext span.1 span.2)
      exact ⟨congrArg Prod.fst rest, congrArg Prod.snd rest⟩

theorem Lexed.tail {token : Token} {r : List Token} (lexed : Lexed (token :: r)) : Lexed r := by
  cases token with
  | code t => exact lexed.2.2
  | comment t => exact lexed.2

/-- Whether a text begins with a line terminator. -/
def breaksLine : Text → Bool
  | '\n' :: _ => true
  | '\r' :: '\n' :: _ => true
  | _ => false

/-- A block comment has its end, and a line comment does not take a carriage return with it. -/
def isClosed : Token → Bool
  | code _ => true
  | comment ('/' :: '*' :: body) => ['*', '/'].isSuffixOf body
  | comment t => t.getLast? != some '\r'

theorem breaksLine_take (t : Text) : breaksLine t = breaksLine (t.take 2) := by
  rcases t with _ | ⟨a, _ | ⟨b, r⟩⟩
  · rfl
  · rfl
  · rw [List.take_succ_cons, List.take_succ_cons, List.take_zero]
    unfold breaksLine
    split <;> simp_all

theorem spanLine_breaks {t : Text} (breaks : breaksLine t = true) : spanLine t = ([], t) := by
  unfold breaksLine at breaks
  split at breaks
  · rfl
  · rfl
  · cases breaks

theorem spanLine_cons {c : Char} {r : Text} (goes : breaksLine (c :: r) = false) :
    spanLine (c :: r) = (c :: (spanLine r).1, (spanLine r).2) := by
  rw [spanLine]
  · rintro rfl
    cases goes
  · rintro r' rfl rfl
    cases goes

theorem spanBlock_cons {c d : Char} {r : Text} (goes : ¬(c = '*' ∧ d = '/')) :
    spanBlock (c :: d :: r) = (c :: (spanBlock (d :: r)).1, (spanBlock (d :: r)).2) := by
  rw [spanBlock]
  rintro r' rfl same
  cases same
  exact goes ⟨rfl, rfl⟩

theorem spanBlock_congr {t x : Text} (y : Text) (span : spanBlock (t ++ x) = (t, x))
    (closed : ['*', '/'] <:+ t) : spanBlock (t ++ y) = (t, y) := by
  induction t with
  | nil => simp at closed
  | cons c t ih =>
    cases t with
    | nil => simpa using closed.length_le
    | cons d t =>
      by_cases stop : c = '*' ∧ d = '/'
      · obtain ⟨rfl, rfl⟩ := stop
        have rest : t = [] := by
          simpa [spanBlock] using (congrArg Prod.fst span).symm
        rw [rest]
        rfl
      · have inside : ['*', '/'] <:+ d :: t := by
          rcases List.suffix_cons_iff.mp closed with whole | inside
          · simp only [List.cons.injEq] at whole
            exact absurd ⟨whole.1.symm, whole.2.1.symm⟩ stop
          · exact inside
        rw [List.cons_append, List.cons_append, spanBlock_cons stop] at span ⊢
        simp only [Prod.mk.injEq, List.cons.injEq, true_and] at span ⊢
        have rest := ih (Prod.ext span.1 span.2) inside
        exact ⟨congrArg Prod.fst rest, congrArg Prod.snd rest⟩

/-- A character in front of a text ends no line if it does not before another, unless it is a
carriage return at the end. -/
theorem breaksLine_cons {c : Char} {t x : Text} (y : Text)
    (closed : (c :: t).getLast? ≠ some '\r') (goes : breaksLine (c :: (t ++ x)) = false) :
    breaksLine (c :: (t ++ y)) = false := by
  cases t with
  | nil =>
    have feed : c ≠ '\n' := by
      rintro rfl
      cases goes
    have returns : c ≠ '\r' := by
      rintro rfl
      exact closed rfl
    unfold breaksLine
    split <;> simp_all
  | cons d t =>
    rw [breaksLine_take] at goes ⊢
    exact goes

theorem spanLine_congr {t x y : Text} (span : spanLine (t ++ x) = (t, x))
    (closed : t.getLast? ≠ some '\r') (ends : x.take 2 = y.take 2 ∨ breaksLine y = true) :
    spanLine (t ++ y) = (t, y) := by
  induction t with
  | nil =>
    rcases ends with same | breaks
    · cases y with
      | nil => rfl
      | cons c r =>
        apply spanLine_breaks
        rw [List.nil_append, breaksLine_take, ← same, ← breaksLine_take]
        by_contra goes
        cases x with
        | nil => simp at same
        | cons c' r' =>
          rw [List.nil_append, spanLine_cons (by simpa using goes)] at span
          cases span
    · exact spanLine_breaks breaks
  | cons c t ih =>
    have goes : breaksLine (c :: (t ++ x)) = false := by
      by_contra breaks
      rw [List.cons_append, spanLine_breaks (by simpa using breaks)] at span
      cases span
    have inside : t.getLast? ≠ some '\r' := by
      cases t with
      | nil => simp
      | cons d t => simpa [List.getLast?_cons_cons] using closed
    rw [List.cons_append, spanLine_cons goes] at span
    rw [List.cons_append, spanLine_cons (breaksLine_cons y closed goes)]
    simp only [Prod.mk.injEq, List.cons.injEq, true_and] at span ⊢
    have rest := ih (Prod.ext span.1 span.2) inside
    exact ⟨congrArg Prod.fst rest, congrArg Prod.snd rest⟩

theorem comment?_cases {w t x : Text} (opened : comment? w = some (t, x)) :
    (∃ b, t = '/' :: '*' :: b ∧ spanBlock (b ++ x) = (b, x)) ∨
      ∃ b, t = '/' :: '/' :: b ∧ spanLine (b ++ x) = (b, x) := by
  unfold comment? at opened
  split at opened
  next r =>
    obtain ⟨rfl, rfl⟩ := opened
    exact .inl ⟨_, rfl, by rw [spanBlock_append]⟩
  next r =>
    obtain ⟨rfl, rfl⟩ := opened
    exact .inr ⟨_, rfl, by rw [spanLine_append]⟩
  next => cases opened

theorem comment?_take {w t x : Text} (opened : comment? w = some (t, x)) (y : Text) :
    (t ++ x).take 2 = (t ++ y).take 2 := by
  rcases comment?_cases opened with ⟨b, rfl, -⟩ | ⟨b, rfl, -⟩ <;> rfl

/-- A comment ends in the same place before another text that begins alike, or on a new line. -/
theorem comment?_congr {t x y : Text} (opened : comment? (t ++ x) = some (t, x))
    (closed : (comment t).isClosed = true)
    (ends : x.take 2 = y.take 2 ∨ breaksLine y = true) : comment? (t ++ y) = some (t, y) := by
  rcases comment?_cases opened with ⟨b, rfl, span⟩ | ⟨b, rfl, span⟩
  · have block := spanBlock_congr y span (List.isSuffixOf_iff_suffix.mp closed)
    simp [comment?, block]
  · have last : b.getLast? ≠ some '\r' := by
      cases b with
      | nil => simp
      | cons c b => simpa [isClosed, List.getLast?_cons_cons] using closed
    simp [comment?, spanLine_congr span last ends]

end Token
end QueryWeaver
