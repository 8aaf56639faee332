import Mathlib
import QueryWeaver.Proofs.Source.Lexed
import QueryWeaver.Proofs.Text.Inert
import QueryWeaver.Source.Stub
import QueryWeaver.Source.Token
/-!
Code whose literals are closed and whose braces balance. A scan passes over it without meeting a
comment opener, and a function made of it is cut exactly at its last brace.
-/

namespace QueryWeaver

/-- The inside of a string literal: a quote or a line feed stands only behind a backslash, and no
backslash stands alone at the end. -/
def isLiteralBody : Text → Bool
  | [] => true
  | ['\\'] => false
  | '\\' :: _ :: r => isLiteralBody r
  | c :: r => c != '"' && c != '\n' && isLiteralBody r

namespace LiteralState

def isLive : LiteralState → Bool
  | quoted _ _ => false
  | _ => true

theorem covers_live {s : LiteralState} (c : Char) (live : s.isLive = true) :
    s.covers c = if s = number then c == '"' else isQuote c := by
  cases s with
  | quoted => cases live
  | _ => rfl

theorem step_live {s : LiteralState} (c : Char) (live : s.isLive = true) :
    s.step c = if s = number ∧ c = '\'' then number
      else if isIdentifierChar c then
        if s = between then (if c.isDigit then number else word) else s
      else if isQuote c then quoted c false
      else between := by
  cases s with
  | quoted => cases live
  | _ => rfl

theorem covers_inert {s : LiteralState} {c : Char} (live : s.isLive = true)
    (inert : isInert c = true) : s.covers c = false := by
  obtain ⟨double, single, -⟩ := isInert_iff.mp inert
  rw [covers_live c live]
  split_ifs <;> simp [isQuote, double, single]

theorem step_inert {s : LiteralState} {c : Char} (live : s.isLive = true)
    (inert : isInert c = true) : (s.step c).isLive = true := by
  obtain ⟨double, single, -⟩ := isInert_iff.mp inert
  have unquoted : isQuote c = false := by simp [isQuote, double, single]
  rw [step_live c live, if_neg (by simp [unquoted] : ¬isQuote c = true)]
  split_ifs
  all_goals first | rfl | exact live

theorem step_brace {s : LiteralState} {c : Char} (live : s.isLive = true)
    (brace : c = '{' ∨ c = '}') : s.covers c = false ∧ s.step c = between := by
  cases s with
  | quoted => cases live
  | _ => rcases brace with rfl | rfl <;> exact ⟨rfl, rfl⟩

theorem step_inside {c : Char} (backslash : c ≠ '\\') (quote : c ≠ '"') (feed : c ≠ '\n') :
    (quoted '"' false).step c = quoted '"' false := by
  simp [step, backslash, quote, feed]

theorem step_quote {s : LiteralState} (live : s.isLive = true) :
    s.covers '"' = true ∧ s.step '"' = quoted '"' false := by
  cases s with
  | quoted => cases live
  | _ => exact ⟨rfl, rfl⟩

end LiteralState

/-- A character of a literal that is neither an escape nor a backslash at the end. -/
theorem ne_backslash {c : Char} {r : Text} (notLast : c = '\\' → r = [] → False)
    (notEscape : ∀ d q, c = '\\' → r = d :: q → False) : c ≠ '\\' := by
  intro backslash
  cases r with
  | nil => exact notLast backslash rfl
  | cons d q => exact notEscape d q backslash rfl

namespace Stub

/-- A scan of the text from one literal state and brace depth to another, on which no slash stands
outside literals and the outermost brace is not closed. -/
inductive Passes : LiteralState → Nat → Text → LiteralState → Nat → Prop
  | nil (s : LiteralState) (d : Nat) : Passes s d [] s d
  | covered {s s' : LiteralState} {d d' : Nat} {c : Char} {t : Text} (inside : s.covers c = true)
      (rest : Passes (s.step c) d t s' d') : Passes s d (c :: t) s' d'
  | inert {s s' : LiteralState} {d d' : Nat} {c : Char} {t : Text} (outside : s.covers c = false)
      (inert : isInert c = true) (rest : Passes (s.step c) d t s' d') : Passes s d (c :: t) s' d'
  | opened {s s' : LiteralState} {d d' : Nat} {t : Text} (outside : s.covers '{' = false)
      (rest : Passes (s.step '{') (d + 1) t s' d') : Passes s d ('{' :: t) s' d'
  | closed {s s' : LiteralState} {d d' : Nat} {t : Text} (outside : s.covers '}' = false)
      (rest : Passes (s.step '}') (d + 1) t s' d') : Passes s (d + 2) ('}' :: t) s' d'

namespace Passes

variable {s s' s'' : LiteralState} {d d' d'' : Nat} {t u : Text}

theorem append (first : Passes s d t s' d') (second : Passes s' d' u s'' d'') :
    Passes s d (t ++ u) s'' d'' := by
  induction first with
  | nil => exact second
  | covered inside _ ih => exact .covered inside (ih second)
  | inert outside inert _ ih => exact .inert outside inert (ih second)
  | opened outside _ ih => exact .opened outside (ih second)
  | closed outside _ ih => exact .closed outside (ih second)

theorem splitFrom_append (passes : Passes s d t s' d') (r : Text) :
    splitFrom s d (t ++ r) = (splitFrom s' d' r).map fun q => (t ++ q.1, q.2) := by
  induction passes with
  | nil => simp
  | covered inside _ ih => simp [splitFrom, inside, ih, Function.comp_def]
  | @inert s _ _ _ c _ outside inert _ ih =>
    obtain ⟨-, -, opening, closing, -⟩ := isInert_iff.mp inert
    simp [splitFrom, outside, opening, closing, ih, Function.comp_def]
  | opened outside _ ih => simp [splitFrom, outside, ih, Function.comp_def]
  | closed outside _ ih => simp [splitFrom, outside, ih, Function.comp_def]

theorem spanCode_append (passes : Passes s d t s' d') (r : Text) :
    Token.spanCode s (t ++ r) =
      (t ++ (Token.spanCode s' r).1, (Token.spanCode s' r).2) := by
  have code (c : Char) (q : Text) (h : c ≠ '/') : Token.opensComment (c :: q) = false := by
    unfold Token.opensComment
    split <;> simp_all
  induction passes with
  | nil => simp
  | covered inside _ ih => simp [Token.spanCode, inside, ih]
  | @inert _ _ _ _ c _ outside inert _ ih =>
    obtain ⟨-, -, -, -, slash⟩ := isInert_iff.mp inert
    simp [Token.spanCode, code c _ slash, ih]
  | opened outside _ ih => simp [Token.spanCode, code _ _ (by decide : '{' ≠ '/'), ih]
  | closed outside _ ih => simp [Token.spanCode, code _ _ (by decide : '}' ≠ '/'), ih]

end Passes

theorem passes_inert (d : Nat) {t : Text} (inert : Inert t) {s : LiteralState}
    (live : s.isLive = true) : ∃ s' : LiteralState, s'.isLive = true ∧ Passes s d t s' d := by
  induction t generalizing s with
  | nil => exact ⟨s, live, .nil s d⟩
  | cons c r ih =>
    have head : isInert c = true := inert c (by simp)
    have tail : Inert r := fun x member => inert x (by simp [member])
    obtain ⟨s', live', passes⟩ := ih tail (LiteralState.step_inert live head)
    exact ⟨s', live', .inert (LiteralState.covers_inert live head) head passes⟩

theorem passes_body (d : Nat) {t : Text} (body : isLiteralBody t = true) :
    Passes (.quoted '"' false) d t (.quoted '"' false) d := by
  fun_induction isLiteralBody t with
  | case1 => exact .nil _ _
  | case2 => simp at body
  | case3 c r ih => exact .covered rfl (.covered rfl (ih body))
  | case4 c r notLast notEscape ih =>
    simp only [Bool.and_eq_true, bne_iff_ne, ne_eq] at body
    have stays := LiteralState.step_inside (ne_backslash notLast notEscape) body.1.1 body.1.2
    exact .covered rfl (by rw [stays]; exact ih body.2)

end Stub

/-- Code over the characters that satisfy `p`, its literals closed and its braces balanced. -/
inductive Balanced (p : Char → Prop) : Text → Prop
  | inert {t : Text} (inert : InertOver p t) : Balanced p t
  | literal {t : Text} (body : isLiteralBody t = true) (chars : ∀ c ∈ ['"'] ++ t, p c) :
      Balanced p (['"'] ++ t ++ ['"'])
  | braces {t : Text} (marks : p '{' ∧ p '}') (inside : Balanced p t) :
      Balanced p (['{'] ++ t ++ ['}'])
  | append {t u : Text} (first : Balanced p t) (second : Balanced p u) : Balanced p (t ++ u)

namespace Balanced

variable {p : Char → Prop} {t : Text}

theorem chars (balanced : Balanced p t) : ∀ c ∈ t, p c := by
  induction balanced with
  | inert inert => exact fun c member => (inert c member).2
  | literal body chars => grind
  | braces marks inside ih => grind
  | append first second ih ih' => grind

theorem flatMap {α : Type} {f : α → Text} {l : List α} (each : ∀ a ∈ l, Balanced p (f a)) :
    Balanced p (l.flatMap f) := by
  induction l with
  | nil => exact .inert (by simp [InertOver])
  | cons a l ih =>
    exact .append (each a (by simp)) (ih fun b member => each b (by simp [member]))

/-- Inside a brace a scan returns to the depth and to a place between literals. -/
theorem passes (balanced : Balanced p t) (d : Nat) {s : LiteralState} (live : s.isLive = true) :
    ∃ s' : LiteralState, s'.isLive = true ∧ Stub.Passes s (d + 1) t s' (d + 1) := by
  induction balanced generalizing s d with
  | inert inert => exact Stub.passes_inert (d + 1) (fun c member => (inert c member).1) live
  | literal body _ =>
    obtain ⟨covered, opened⟩ := LiteralState.step_quote live
    have inside := (Stub.passes_body (d + 1) body).append
      (.covered (c := '"') rfl (.nil LiteralState.between (d + 1)))
    exact ⟨.between, rfl, .covered covered (by rw [opened]; simpa using inside)⟩
  | braces _ _ ih =>
    obtain ⟨outside, opened⟩ := LiteralState.step_brace live (.inl rfl)
    obtain ⟨s', live', passes⟩ := ih (d + 1) (s := .between) rfl
    obtain ⟨outside', closed⟩ := LiteralState.step_brace live' (.inr rfl)
    have inside := passes.append (.closed outside' (by rw [closed]; exact .nil _ _))
    exact ⟨.between, rfl, .opened outside (by rw [opened]; simpa using inside)⟩
  | append _ _ ih ih' =>
    obtain ⟨s', live', passes⟩ := ih d live
    obtain ⟨s'', live'', passes'⟩ := ih' d live'
    exact ⟨s'', live'', passes.append passes'⟩

end Balanced

/-- The text of one function: an inert head and a balanced body in braces. -/
inductive IsFunction (p : Char → Prop) : Text → Prop
  | mk {head body : Text} (marks : p '{' ∧ p '}') (inert : InertOver p head)
      (balanced : Balanced p body) : IsFunction p (head ++ ['{'] ++ body ++ ['}'])

namespace IsFunction

variable {p : Char → Prop} {code : Text}

theorem chars (function : IsFunction p code) : ∀ c ∈ code, p c := by
  obtain ⟨marks, inert, balanced⟩ := function
  have := balanced.chars
  grind [InertOver]

theorem ne_nil (function : IsFunction p code) : code ≠ [] := by
  obtain ⟨⟩ := function
  simp

theorem getLast? (function : IsFunction p code) : code.getLast? = some '}' := by
  obtain ⟨⟩ := function
  exact List.getLast?_concat

/-- A scan passes over the text up to its last brace, which stands outside literals. -/
theorem passes (function : IsFunction p code) :
    ∃ (t : Text) (s : LiteralState), code = t ++ ['}'] ∧ s.isLive = true ∧
      Stub.Passes .between 0 t s 1 := by
  obtain ⟨_, inert, balanced⟩ := function
  obtain ⟨s, live, first⟩ :=
    Stub.passes_inert 0 (fun c member => (inert c member).1) (s := .between) rfl
  obtain ⟨outside, opened⟩ := LiteralState.step_brace live (.inl rfl)
  obtain ⟨s', live', second⟩ := balanced.passes 0 (s := .between) rfl
  refine ⟨_, s', rfl, live', ?_⟩
  have brace : Stub.Passes s 0 ['{'] .between 1 := .opened outside (by rw [opened]; exact .nil _ _)
  exact (first.append brace).append second

theorem split?_append (function : IsFunction p code) (r : Text) :
    Stub.split? (code ++ r) = some (code, r) := by
  obtain ⟨t, s, rfl, live, passes⟩ := function.passes
  obtain ⟨outside, -⟩ := LiteralState.step_brace live (.inr rfl)
  have last : Stub.splitFrom s 1 ('}' :: r) = some (['}'], r) := by
    simp [Stub.splitFrom, outside]
  simp [Stub.split?, passes.splitFrom_append, last]

theorem spanCode_append (function : IsFunction p code) (r : Text) :
    Token.spanCode .between (code ++ r) =
      (code ++ (Token.spanCode .between r).1, (Token.spanCode .between r).2) := by
  obtain ⟨t, s, rfl, live, passes⟩ := function.passes
  obtain ⟨outside, closed⟩ := LiteralState.step_brace live (.inr rfl)
  have last : Token.spanCode s ('}' :: r) =
      ('}' :: (Token.spanCode .between r).1, (Token.spanCode .between r).2) := by
    simp [Token.spanCode, Token.opensComment, closed]
  simp [passes.spanCode_append, last]

theorem comment?_append (function : IsFunction p code) (r : Text) :
    Token.comment? (code ++ r) = none := by
  obtain ⟨_, inert, _⟩ := function
  rename_i head body _ _
  cases head with
  | nil => rfl
  | cons c q =>
    obtain ⟨-, -, -, -, slash⟩ := isInert_iff.mp (inert c (by simp)).1
    unfold Token.comment?
    split <;> simp_all

theorem tokenize (function : IsFunction p code) : Token.tokenize code = [.code code] := by
  have span := function.spanCode_append []
  have plain := function.comment?_append []
  rw [List.append_nil] at span plain
  rw [Token.tokenize_code function.ne_nil plain, span]
  simp [Token.spanCode, Token.tokenize]

end IsFunction
end QueryWeaver
