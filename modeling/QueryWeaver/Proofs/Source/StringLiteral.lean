import Mathlib
import QueryWeaver.Proofs.Access.CodeText
import QueryWeaver.Proofs.Source.Braces
import QueryWeaver.Settings.Quoted
/-!
String literals of the generated language, read by its escape rules. The literal made of an escaped
text reads as that text, and the scan for comments takes all of it for a literal.
-/

namespace QueryWeaver

/-- A part of a string literal: a character, or the code of an octal or hexadecimal escape. -/
inductive LiteralPart where
  | char (c : Char)
  | code (n : Nat)
  deriving DecidableEq, Repr

namespace StringLiteral

def simpleEscape? : Char → Option Char
  | '\'' => some '\''
  | '"' => some '"'
  | '?' => some '?'
  | '\\' => some '\\'
  | 'a' => some '\x07'
  | 'b' => some '\x08'
  | 'f' => some '\x0c'
  | 'n' => some '\n'
  | 'r' => some '\r'
  | 't' => some '\t'
  | 'v' => some '\x0b'
  | _ => none

def isOctalDigit (c : Char) : Bool := '0' ≤ c && c ≤ '7'

/-- The code that digits at the front of a text stand for. -/
def code? (base : Nat) (digits t : Text) : Option (LiteralPart × Text) :=
  if digits.isEmpty then none else some (.code (Text.inBase base digits), t.drop digits.length)

/-- The character that a number of hexadecimal digits names. -/
def named? (digits : Nat) (t : Text) : Option (LiteralPart × Text) := do
  let (n, rest) ← SettingReader.hexDigits digits 0 t
  let char ← SettingReader.scalar? n
  some (.char char, rest)

/-- The escape behind a backslash. An octal code has up to three digits, a hexadecimal one as many
as stand there. -/
def escape? : Text → Option (LiteralPart × Text)
  | [] => none
  | c :: r =>
    match simpleEscape? c with
    | some char => some (.char char, r)
    | none =>
      if isOctalDigit c then code? 8 ((c :: r.take 2).takeWhile isOctalDigit) (c :: r)
      else if c = 'x' then code? 16 (r.takeWhile Text.isHexDigit) r
      else if c = 'u' then named? 4 r
      else if c = 'U' then named? 8 r
      else none

variable {t rest : Text} {part : LiteralPart}

theorem code?_length {base : Nat} {digits : Text} (read : code? base digits t = some (part, rest)) :
    rest.length ≤ t.length - 1 := by
  unfold code? at read
  split at read
  next => cases read
  next present =>
    cases read
    cases digits with
    | nil => exact absurd rfl present
    | cons c digits =>
      simp only [List.length_drop, List.length_cons]
      omega

theorem hexDigits_length {n value m : Nat}
    (read : SettingReader.hexDigits n value t = some (m, rest)) : rest.length ≤ t.length := by
  induction n generalizing value t with
  | zero =>
    obtain ⟨-, rfl⟩ := Prod.mk.inj (Option.some.inj read)
    exact Nat.le_refl _
  | succ n ih =>
    cases t with
    | nil => cases read
    | cons c r =>
      rw [SettingReader.hexDigits] at read
      obtain ⟨digit, -, read⟩ := Option.bind_eq_some_iff.mp read
      exact Nat.le_succ_of_le (ih read)

theorem named?_length {digits : Nat} (read : named? digits t = some (part, rest)) :
    rest.length ≤ t.length := by
  obtain ⟨⟨n, behind⟩, found, named⟩ := Option.bind_eq_some_iff.mp read
  obtain ⟨char, -, same⟩ := Option.bind_eq_some_iff.mp named
  cases same
  exact hexDigits_length found

theorem escape?_length (read : escape? t = some (part, rest)) : rest.length < t.length := by
  cases t with
  | nil => cases read
  | cons c r =>
    apply Nat.lt_succ_of_le
    rw [escape?] at read
    split at read
    next =>
      cases read
      exact Nat.le_refl _
    next =>
      split_ifs at read
      · exact code?_length read
      · exact Nat.le_trans (code?_length read) (Nat.sub_le ..)
      · exact named?_length read
      · exact named?_length read

/-- The parts of a literal up to its closing quote, and the text behind it. No literal runs over the
end of a line. -/
def parts? (t : Text) : Option (List LiteralPart × Text) :=
  match t with
  | [] => none
  | c :: r =>
    if c = '"' then some ([], r)
    else if c = '\n' ∨ c = '\r' then none
    else if c = '\\' then
      match _h : escape? r with
      | none => none
      | some (part, rest) => (parts? rest).map fun q => (part :: q.1, q.2)
    else (parts? r).map fun q => (.char c :: q.1, q.2)
termination_by t.length
decreasing_by
  · have := escape?_length _h
    simp only [List.length_cons]
    omega
  · exact Nat.lt_succ_self _

/-- The literal that a text begins with, and the text behind it. -/
def read? : Text → Option (List LiteralPart × Text)
  | '"' :: r => parts? r
  | _ => none

variable {c d : Char} {r : Text}

theorem parts?_quote (r : Text) : parts? ('"' :: r) = some ([], r) := by
  rw [parts?, if_pos rfl]

theorem parts?_escape (simple : simpleEscape? c = some d) :
    parts? ('\\' :: c :: r) = (parts? r).map fun q => (.char d :: q.1, q.2) := by
  have escape : escape? (c :: r) = some (.char d, r) := by simp only [escape?, simple]
  rw [parts?, if_neg (by decide), if_neg (by decide), if_pos rfl]
  split
  next missing =>
    rw [escape] at missing
    cases missing
  next found =>
    rw [escape] at found
    cases found
    rfl

theorem parts?_plain (quote : c ≠ '"') (backslash : c ≠ '\\') (feed : c ≠ '\n') (ret : c ≠ '\r') :
    parts? (c :: r) = (parts? r).map fun q => (.char c :: q.1, q.2) := by
  rw [parts?, if_neg quote, if_neg (by simp [feed, ret]), if_neg backslash]

/-- A character stands in a literal as it is or as a simple escape. -/
theorem escapeLiteral_cons (c : Char) (t : Text) :
    (∃ d, simpleEscape? d = some c ∧ escapeLiteral (c :: t) = '\\' :: d :: escapeLiteral t) ∨
      c ≠ '"' ∧ c ≠ '\\' ∧ c ≠ '\n' ∧ c ≠ '\r' ∧ escapeLiteral (c :: t) = c :: escapeLiteral t := by
  rw [escapeLiteral, List.flatMap_cons, ← escapeLiteral]
  split_ifs with backslash quote feed ret tab
  · exact .inl ⟨'\\', congrArg some backslash.symm, rfl⟩
  · exact .inl ⟨'"', congrArg some quote.symm, rfl⟩
  · exact .inl ⟨'n', congrArg some feed.symm, rfl⟩
  · exact .inl ⟨'r', congrArg some ret.symm, rfl⟩
  · exact .inl ⟨'t', congrArg some tab.symm, rfl⟩
  · exact .inr ⟨quote, backslash, feed, ret, rfl⟩

/-- An escaped text reads as that text. -/
theorem parts?_escapeLiteral (t r : Text) :
    parts? (escapeLiteral t ++ '"' :: r) = some (t.map .char, r) := by
  induction t with
  | nil => exact parts?_quote r
  | cons c t ih =>
    rcases escapeLiteral_cons c t with ⟨d, simple, written⟩ | ⟨quote, backslash, feed, ret, written⟩
    · rw [written, List.cons_append, List.cons_append, parts?_escape simple, ih]
      rfl
    · rw [written, List.cons_append, parts?_plain quote backslash feed ret, ih]
      rfl

end StringLiteral

namespace LiteralState

/-- The inside of a literal belongs to it, and a scan stays inside. -/
theorem marked_body {t : Text} (body : isLiteralBody t = true) :
    marked (quoted '"' false) t = t.map (·, false) ∧
      run (quoted '"' false) t = quoted '"' false := by
  fun_induction isLiteralBody t with
  | case1 => exact ⟨rfl, rfl⟩
  | case2 => simp at body
  | case3 c r ih =>
    obtain ⟨covered, inside⟩ := ih body
    have stays : ((quoted '"' false).step '\\').step c = quoted '"' false := rfl
    constructor
    · rw [marked, marked, stays, covered]
      rfl
    · exact inside
  | case4 c r notLast notEscape ih =>
    simp only [Bool.and_eq_true, bne_iff_ne, ne_eq] at body
    obtain ⟨covered, inside⟩ := ih body.2
    have stays := step_inside (ne_backslash notLast notEscape) body.1.1 body.1.2
    constructor
    · rw [marked, stays, covered]
      rfl
    · rw [run, List.foldl_cons, stays]
      exact inside

end LiteralState

namespace StringLiteral

/-- The literal reads as the text, whatever stands behind it. A scan from outside literals takes all
of it for a literal and is outside again at its end. -/
structure Spells (literal t : Text) : Prop where
  read : ∀ r, read? (literal ++ r) = some (t.map .char, r)
  covered : ∀ s : LiteralState, s.isLive = true → s.marked literal = literal.map (·, false)
  closed : ∀ s : LiteralState, s.isLive = true → s.run literal = .between

theorem spells_escapeLiteral (t : Text) : Spells ('"' :: (escapeLiteral t ++ ['"'])) t := by
  obtain ⟨covered, inside⟩ := LiteralState.marked_body (escapeLiteral_body t)
  refine ⟨?_, ?_, ?_⟩
  · intro r
    rw [List.cons_append, List.append_assoc]
    exact parts?_escapeLiteral t r
  · intro s live
    obtain ⟨opens, starts⟩ := LiteralState.step_quote live
    rw [LiteralState.marked, opens, starts, LiteralState.marked_append, covered, inside,
      List.map_cons, List.map_append]
    rfl
  · intro s live
    rw [LiteralState.run, List.foldl_cons, (LiteralState.step_quote live).2, List.foldl_append]
    exact congrArg (LiteralState.step · '"') inside

example : read? "\"a\\\"\\\\\\r\\n\");" =
    some (List.map LiteralPart.char ['a', '"', '\\', '\r', '\n'], (");" : Text)) := by
  decide +kernel

end StringLiteral
end QueryWeaver
