import QueryWeaver.Signature.Field
import QueryWeaver.Text.Blank
/-!
Placeholders `:name(type)` of a SQL text, replaced from left to right by question marks. Each
occurrence is one parameter.
-/

namespace QueryWeaver

/-- A statement with a question mark per parameter. -/
structure Query where
  sql : Text
  params : List Field
  deriving DecidableEq, Repr

namespace Placeholder

def isNameChar (c : Char) : Bool :=
  !isBlank c && c != '(' && c != ')' && c != ':' && c != ','

/-- The parameter whose `name(type)` follows a colon, and the text after it. -/
def after? (t : Text) : Option (Field × Text) :=
  let name := t.takeWhile isNameChar
  match t.dropWhile isNameChar with
  | '(' :: r =>
    let type := r.takeWhile (· != ')')
    match r.dropWhile (· != ')') with
    | ')' :: rest =>
      if name.isEmpty || type.isEmpty then none else some (⟨Text.trim type, name⟩, rest)
    | _ => none
  | _ => none

theorem after?_length {t rest : Text} {param : Field} (h : after? t = some (param, rest)) :
    rest.length < t.length := by
  unfold after? at h
  have bound (p : Char → Bool) (l : Text) : (l.dropWhile p).length ≤ l.length :=
    (List.dropWhile_suffix p).length_le
  simp only at h
  split at h
  next r eq =>
    split at h
    next rest' eq' =>
      split at h
      · simp at h
      · have h1 := bound isNameChar t
        have h2 := bound (· != ')') r
        rw [eq] at h1
        rw [eq'] at h2
        simp at h h1 h2
        obtain ⟨-, rfl⟩ := h
        omega
    · simp at h
  · simp at h

/-- The placeholder a text begins with, and the text after it. -/
def first? : Text → Option (Field × Text)
  | ':' :: r => after? r
  | _ => none

theorem first?_length {t rest : Text} {param : Field} (h : first? t = some (param, rest)) :
    rest.length < t.length := by
  unfold first? at h
  split at h
  · exact Nat.lt_succ_of_lt (after?_length h)
  · simp at h

/-- The statement of a text and its parameters, in order. -/
def replaceAll (t : Text) : Query :=
  match t with
  | [] => ⟨[], []⟩
  | c :: r =>
    match _h : first? (c :: r) with
    | some (param, rest) =>
      let q := replaceAll rest
      ⟨'?' :: q.sql, param :: q.params⟩
    | none =>
      let q := replaceAll r
      ⟨c :: q.sql, q.params⟩
termination_by t.length
decreasing_by
  · exact first?_length _h
  · simp

end Placeholder
end QueryWeaver
