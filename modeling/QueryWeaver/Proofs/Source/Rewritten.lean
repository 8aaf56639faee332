import Mathlib
import QueryWeaver.Proofs.Source.Balanced
import QueryWeaver.Proofs.Source.Lexed
/-!
Token lists in which the code after some comments gets another function at its head. The scan of
the new text gives back the new tokens, and the text keeps its other characters and their places.
-/

namespace QueryWeaver

namespace Stub

/-- What stays of a code when the function at its head, if there is one, is taken away. -/
def Leaves (code rest : Text) : Prop :=
  (∃ f, split? code = some (f, rest)) ∨ split? code = none ∧ rest = code

theorem Leaves.suffix {code rest : Text} (leaves : Leaves code rest) : rest <:+ code := by
  rcases leaves with ⟨f, cut⟩ | ⟨-, rfl⟩
  · exact ⟨f, split?_eq cut⟩
  · exact List.suffix_refl _

theorem step_closing {s : LiteralState} (outside : s.covers '}' = false) :
    s.step '}' = .between := by
  cases s with
  | quoted => cases outside
  | _ => rfl

theorem spanCode_tail {s : LiteralState} {c : Char} {t x : Text}
    (span : Token.spanCode s (c :: t ++ x) = (c :: t, x)) :
    Token.spanCode (s.step c) (t ++ x) = (t, x) := by
  rw [List.cons_append, Token.spanCode] at span
  split at span
  next => cases span
  next =>
    simp only [Prod.mk.injEq, List.cons.injEq, true_and] at span
    exact Prod.ext span.1 span.2

/-- A scan of code goes on between literals after the function at its head. -/
theorem splitFrom_spanCode {s : LiteralState} {d : Nat} {t f rest x : Text}
    (cut : splitFrom s d t = some (f, rest)) (span : Token.spanCode s (t ++ x) = (t, x)) :
    Token.spanCode .between (rest ++ x) = (rest, x) := by
  induction t generalizing s d f with
  | nil => cases cut
  | cons c t ih =>
    have later {d : Nat}
        (cut : (splitFrom (s.step c) d t).map (fun q => (c :: q.1, q.2)) = some (f, rest)) :
        Token.spanCode .between (rest ++ x) = (rest, x) := by
      obtain ⟨⟨f', rest'⟩, later, same⟩ := Option.map_eq_some_iff.mp cut
      cases same
      exact ih later (spanCode_tail span)
    simp only [splitFrom] at cut
    split at cut
    next => exact later cut
    next outside =>
      split at cut
      next => exact later cut
      split at cut
      next closing =>
        obtain ⟨rfl, -⟩ := closing
        cases cut
        rw [← step_closing (by simpa using outside)]
        exact spanCode_tail span
      split at cut
      all_goals exact later cut

theorem Leaves.spanCode {code rest x : Text} (leaves : Leaves code rest)
    (span : Token.spanCode .between (code ++ x) = (code, x)) :
    Token.spanCode .between (rest ++ x) = (rest, x) := by
  rcases leaves with ⟨f, cut⟩ | ⟨-, rfl⟩
  · exact splitFrom_spanCode cut span
  · exact span

end Stub

namespace Token

/-- Tokens before and after the code behind some comments gets a text that satisfies `ok` at its
head, in place of the function that stood there, if any. -/
inductive Rewritten (ok : Text → Prop) : List Token → List Token → Prop
  | nil : Rewritten ok [] []
  | keep (token : Token) {r r' : List Token} (tail : Rewritten ok r r') :
      Rewritten ok (token :: r) (token :: r')
  | claim {t u rest g : Text} {r r' : List Token} (leaves : Stub.Leaves u rest) (fits : ok g)
      (tail : Rewritten ok r r') :
      Rewritten ok (comment t :: code u :: r) (comment t :: code (g ++ rest) :: r')
  | insert {t g : Text} {r r' : List Token} (last : ∀ u q, r ≠ code u :: q) (fits : ok g)
      (tail : Rewritten ok r r') :
      Rewritten ok (comment t :: r) (comment t :: code g :: r')

/-- Function text on a new line. -/
structure Insertable (p : Char → Prop) (g : Text) : Prop where
  function : IsFunction p g
  breaks : breaksLine g = true

theorem breaksLine_append {g : Text} (breaks : breaksLine g = true) (x : Text) :
    breaksLine (g ++ x) = true := by
  unfold breaksLine at breaks
  split at breaks
  · rfl
  · rfl
  · cases breaks

/-- No line feed follows a carriage return. -/
def FeedsOnly (t : Text) : Prop := t.IsChain fun a b => ¬(a = '\r' ∧ b = '\n')

theorem FeedsOnly.append_of_head {t x y : Text} (before : FeedsOnly (t ++ x)) (after : FeedsOnly y)
    (same : x.head? = y.head?) : FeedsOnly (t ++ y) := by
  obtain ⟨first, -, bridge⟩ := List.isChain_append.mp before
  exact List.isChain_append.mpr ⟨first, after, same ▸ bridge⟩

theorem FeedsOnly.append_of_last {t y : Text} (first : FeedsOnly t) (after : FeedsOnly y)
    (last : t.getLast? ≠ some '\r') : FeedsOnly (t ++ y) := by
  refine List.isChain_append.mpr ⟨first, after, ?_⟩
  rintro a known b - ⟨rfl, -⟩
  exact last known

theorem feedsOnly_of_notMem {t : Text} (none : '\r' ∉ t) : FeedsOnly t := by
  induction t with
  | nil => exact .nil
  | cons c t ih =>
    have head : c ≠ '\r' := fun same => none (same ▸ List.mem_cons_self ..)
    have tail : FeedsOnly t := ih fun member => none (List.mem_cons_of_mem c member)
    exact List.isChain_cons.mpr ⟨fun b _ same => head same.1, tail⟩

theorem comment_getLast? {w t x : Text} (opened : comment? w = some (t, x))
    (closed : (comment t).isClosed = true) : t.getLast? ≠ some '\r' := by
  rcases comment?_cases opened with ⟨b, rfl, -⟩ | ⟨b, rfl, -⟩
  · obtain ⟨q, rfl⟩ := List.isSuffixOf_iff_suffix.mp closed
    have last : ('/' :: '*' :: (q ++ ['*', '/'])).getLast? = some '/' :=
      List.getLast?_append_of_ne_nil ('/' :: '*' :: q) (by simp)
    rw [last]
    decide
  · simpa [isClosed] using closed

namespace Rewritten

variable {ok : Text → Prop} {tokens tokens' : List Token}

/-- The new text begins like the old one. -/
theorem take (rewritten : Rewritten ok tokens tokens') (lexed : Lexed tokens) :
    (join tokens).take 2 = (join tokens').take 2 := by
  induction rewritten with
  | nil => rfl
  | keep token _ ih =>
    rw [join_cons, join_cons]
    exact take_append_congr token.text (ih lexed.tail)
  | claim => exact comment?_take lexed.1 _
  | insert => exact comment?_take lexed.1 _

theorem head? (rewritten : Rewritten ok tokens tokens') (lexed : Lexed tokens) :
    (join tokens).head? = (join tokens').head? := by
  have same := congrArg List.head? (rewritten.take lexed)
  rwa [List.head?_take, List.head?_take] at same

theorem chars (rewritten : Rewritten ok tokens tokens') :
    ∀ c ∈ join tokens', c ∈ join tokens ∨ ∃ g, ok g ∧ c ∈ g := by
  induction rewritten with
  | nil => simp [join]
  | keep token _ ih =>
    intro c member
    rw [join_cons, List.mem_append] at member ⊢
    rcases member with member | member
    · exact .inl (.inl member)
    · exact (ih c member).imp_left .inr
  | @claim t u rest g r r' leaves fits _ ih =>
    intro c member
    simp only [join_cons, text, List.mem_append] at member ⊢
    rcases member with member | (member | member) | member
    · exact .inl (.inl member)
    · exact .inr ⟨g, fits, member⟩
    · exact .inl (.inr (.inl (leaves.suffix.subset member)))
    · exact (ih c member).imp_left fun known => .inr (.inr known)
  | @insert t g r r' last fits _ ih =>
    intro c member
    simp only [join_cons, text, List.mem_append] at member ⊢
    rcases member with member | member | member
    · exact .inl (.inl member)
    · exact .inr ⟨g, fits, member⟩
    · exact (ih c member).imp_left .inr

/-- Nothing changed, or a new function stands in the text. -/
theorem eq_or_infix (rewritten : Rewritten ok tokens tokens') :
    tokens' = tokens ∨ ∃ g, ok g ∧ g <:+: join tokens' := by
  induction rewritten with
  | nil => exact .inl rfl
  | keep token _ ih =>
    rcases ih with rfl | ⟨g, fits, inside⟩
    · exact .inl rfl
    · exact .inr ⟨g, fits, inside.trans (by rw [join_cons]; exact List.infix_append_right)⟩
  | @claim t u rest g r r' leaves fits _ _ =>
    refine .inr ⟨g, fits, t, rest ++ join r', ?_⟩
    simp [join_cons, text]
  | @insert t g r r' last fits _ _ =>
    refine .inr ⟨g, fits, t, join r', ?_⟩
    simp [join_cons, text]

variable {p : Char → Prop} (insertable : ∀ g, ok g → Insertable p g)
include insertable

/-- The scan of the new text gives back the new tokens. -/
theorem lexed (rewritten : Rewritten ok tokens tokens') (lexed : Lexed tokens)
    (closed : ∀ token ∈ tokens, token.isClosed = true) : Lexed tokens' := by
  induction rewritten with
  | nil => trivial
  | keep token tail ih =>
    have same := tail.take lexed.tail
    have rest := ih lexed.tail fun token member => closed token (List.mem_cons_of_mem _ member)
    cases token with
    | code t => exact ⟨lexed.1, spanCode_congr lexed.2.1 same, rest⟩
    | comment t =>
      have shut := closed (comment t) (by simp)
      exact ⟨comment?_congr lexed.1 shut (.inl same), rest⟩
  | @claim t u rest g r r' leaves fits tail ih =>
    obtain ⟨opened, -, span, lexedTail⟩ := lexed
    obtain ⟨function, breaks⟩ := insertable g fits
    have shut := closed (comment t) (by simp)
    have left : spanCode .between (rest ++ join r') = (rest, join r') :=
      spanCode_congr (leaves.spanCode span) (tail.take lexedTail)
    refine ⟨?_, ?_, ?_, ih lexedTail fun token member => closed token (by simp [member])⟩
    · refine comment?_congr opened shut (.inr ?_)
      simpa [join_cons, text] using breaksLine_append breaks (rest ++ join r')
    · simp [function.ne_nil]
    · rw [List.append_assoc, function.spanCode_append, left]
  | @insert t g r r' last fits tail ih =>
    obtain ⟨opened, lexedTail⟩ := lexed
    obtain ⟨function, breaks⟩ := insertable g fits
    have shut := closed (comment t) (by simp)
    have stop : spanCode .between ([] ++ join r) = ([], join r) := by
      cases r with
      | nil => rfl
      | cons token r =>
        cases token with
        | code u => exact absurd rfl (last u r)
        | comment u =>
          refine spanCode_opens rfl ?_
          rw [opensComment_iff, List.nil_append, join_cons]
          exact Option.isSome_of_eq_some lexedTail.1
    refine ⟨?_, function.ne_nil, ?_,
      ih lexedTail fun token member => closed token (by simp [member])⟩
    · refine comment?_congr opened shut (.inr ?_)
      simpa [join_cons, text] using breaksLine_append breaks (join r')
    · have left := spanCode_congr stop (tail.take lexedTail)
      rw [List.nil_append] at left
      rw [function.spanCode_append, left, List.append_nil]

/-- Functions without a carriage return bring no new line terminator of two characters. -/
theorem feedsOnly (rewritten : Rewritten ok tokens tokens') (lexed : Lexed tokens)
    (closed : ∀ token ∈ tokens, token.isClosed = true) (plain : ∀ g, ok g → '\r' ∉ g)
    (feeds : FeedsOnly (join tokens)) : FeedsOnly (join tokens') := by
  have function {g : Text} (fits : ok g) {x : Text} (feeds : FeedsOnly x) : FeedsOnly (g ++ x) := by
    refine (feedsOnly_of_notMem (plain g fits)).append_of_last feeds ?_
    simp [(insertable g fits).function.getLast?]
  induction rewritten with
  | nil => exact .nil
  | keep token tail ih =>
    rw [join_cons] at feeds ⊢
    have rest := ih lexed.tail (fun token member => closed token (List.mem_cons_of_mem _ member))
      feeds.right_of_append
    exact feeds.append_of_head rest (tail.head? lexed.tail)
  | @claim t u rest g r r' leaves fits tail ih =>
    obtain ⟨opened, -, span, lexedTail⟩ := lexed
    have shut := closed (comment t) (by simp)
    simp only [join_cons, text, List.append_assoc] at feeds ⊢
    have after := feeds.right_of_append
    have rest' := ih lexedTail (fun token member => closed token (by simp [member]))
      after.right_of_append
    have left : FeedsOnly (rest ++ join r) := by
      obtain ⟨f, rfl⟩ := leaves.suffix
      rw [List.append_assoc] at after
      exact after.right_of_append
    have new := function fits (left.append_of_head rest' (tail.head? lexedTail))
    have first : FeedsOnly t := feeds.left_of_append
    exact first.append_of_last new (comment_getLast? opened shut)
  | @insert t g r r' last fits tail ih =>
    obtain ⟨opened, lexedTail⟩ := lexed
    have shut := closed (comment t) (by simp)
    simp only [join_cons, text] at feeds ⊢
    have rest := ih lexedTail (fun token member => closed token (by simp [member]))
      feeds.right_of_append
    have first : FeedsOnly t := feeds.left_of_append
    exact first.append_of_last (function fits rest) (comment_getLast? opened shut)

end Rewritten

end Token
end QueryWeaver
