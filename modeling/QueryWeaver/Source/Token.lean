import QueryWeaver.Source.Literal
/-!
A source text as code and comments. Joining the tokens of a text gives the text back, and a comment
opener inside a literal stays code.
-/

namespace QueryWeaver

inductive Token where
  | code (text : Text)
  | comment (text : Text)
  deriving DecidableEq, Repr

namespace Token

def text : Token → Text
  | code t => t
  | comment t => t

def join (tokens : List Token) : Text := tokens.flatMap text

def opensComment : Text → Bool
  | '/' :: '/' :: _ => true
  | '/' :: '*' :: _ => true
  | _ => false

/-- Splits before the first comment opener whose slash is outside literals. -/
def spanCode : LiteralState → Text → Text × Text
  | _, [] => ([], [])
  | s, c :: r =>
    if !s.covers c && opensComment (c :: r) then ([], c :: r)
    else
      let (ahead, rest) := spanCode (s.step c) r
      (c :: ahead, rest)

/-- Splits after the first `*/`; without one everything belongs to the comment. -/
def spanBlock : Text → Text × Text
  | [] => ([], [])
  | '*' :: '/' :: r => (['*', '/'], r)
  | c :: r =>
    let (body, rest) := spanBlock r
    (c :: body, rest)

/-- Splits before the line terminator, which is a line feed or a carriage return and a line feed. -/
def spanLine : Text → Text × Text
  | [] => ([], [])
  | '\n' :: r => ([], '\n' :: r)
  | '\r' :: '\n' :: r => ([], '\r' :: '\n' :: r)
  | c :: r =>
    let (body, rest) := spanLine r
    (c :: body, rest)

/-- The comment a text begins with, and what follows it. -/
def comment? : Text → Option (Text × Text)
  | '/' :: '*' :: r => let (body, rest) := spanBlock r; some ('/' :: '*' :: body, rest)
  | '/' :: '/' :: r => let (body, rest) := spanLine r; some ('/' :: '/' :: body, rest)
  | _ => none

theorem spanCode_append (s : LiteralState) (t : Text) :
    (spanCode s t).1 ++ (spanCode s t).2 = t := by
  induction t generalizing s with
  | nil => rfl
  | cons c r ih =>
    simp only [spanCode]
    split
    · rfl
    · simp [ih]

theorem spanBlock_append (t : Text) : (spanBlock t).1 ++ (spanBlock t).2 = t := by
  fun_induction spanBlock t with
  | case1 => rfl
  | case2 => rfl
  | case3 c r _ body rest eq ih => simpa [eq] using ih

theorem spanLine_append (t : Text) : (spanLine t).1 ++ (spanLine t).2 = t := by
  fun_induction spanLine t with
  | case1 => rfl
  | case2 => rfl
  | case3 => rfl
  | case4 c r _ _ body rest eq ih => simpa [eq] using ih

theorem comment?_append {t body rest : Text} (h : comment? t = some (body, rest)) :
    body ++ rest = t := by
  unfold comment? at h
  split at h
  · obtain ⟨rfl, rfl⟩ := h
    simp [spanBlock_append]
  · obtain ⟨rfl, rfl⟩ := h
    simp [spanLine_append]
  · simp at h

theorem comment?_length {t body rest : Text} (h : comment? t = some (body, rest)) :
    rest.length < t.length := by
  unfold comment? at h
  split at h
  next r =>
    obtain ⟨rfl, rfl⟩ := h
    have := congrArg List.length (spanBlock_append r)
    simp at this ⊢
    omega
  next r =>
    obtain ⟨rfl, rfl⟩ := h
    have := congrArg List.length (spanLine_append r)
    simp at this ⊢
    omega
  · simp at h

theorem opensComment_iff (t : Text) : opensComment t = (comment? t).isSome := by
  unfold opensComment comment?
  split <;> simp

/-- Code takes at least the first character of a text that begins with no comment. -/
theorem spanCode_length {c : Char} {r : Text} (h : comment? (c :: r) = none) :
    (spanCode .between (c :: r)).2.length < (c :: r).length := by
  have hopen : opensComment (c :: r) = false := by rw [opensComment_iff, h]; rfl
  have := congrArg List.length (spanCode_append (LiteralState.between.step c) r)
  simp [spanCode, hopen] at this ⊢
  omega

/-- The tokens of a text. Each comment and each code token starts between literals. -/
def tokenize (t : Text) : List Token :=
  match t with
  | [] => []
  | c :: r =>
    match _h : comment? (c :: r) with
    | some (body, rest) => comment body :: tokenize rest
    | none => code (spanCode .between (c :: r)).1 :: tokenize (spanCode .between (c :: r)).2
termination_by t.length
decreasing_by
  · exact comment?_length _h
  · exact spanCode_length _h

end Token
end QueryWeaver
