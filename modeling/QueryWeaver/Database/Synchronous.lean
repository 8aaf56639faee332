import QueryWeaver.Text.Hex
/-!
The values of the synchronous setting: words and numbers, of which three bits count, and what is
wrong with a value that is neither.
-/

namespace QueryWeaver

namespace Synchronous

/-- Words of the query language that cannot stand for a name. -/
def reservedWords : List Text := List.map String.toList
  ["add", "all", "alter", "and", "as", "autoincrement", "between", "case", "check", "collate",
    "commit", "constraint", "create", "deferrable", "distinct", "drop", "else", "escape", "except",
    "exists", "foreign", "from", "group", "having", "in", "index", "insert", "intersect", "into",
    "is", "isnull", "join", "limit", "not", "nothing", "notnull", "null", "order", "or", "primary",
    "references", "returning", "select", "set", "table", "then", "to", "transaction", "union",
    "unique", "update", "using", "values", "when", "where"]

/-- The digits of a hexadecimal number and the text after them. -/
def hexadecimal? (value : Text) : Option (Text × Text) :=
  match value with
  | '0' :: x :: digit :: r =>
    if (x = 'x' ∨ x = 'X') ∧ Text.isHexDigit digit then
      some ((digit :: r).takeWhile Text.isHexDigit, (digit :: r).dropWhile Text.isHexDigit)
    else none
  | _ => none

/-- Digits with an optional exponent. -/
def isDecimal (value : Text) : Bool :=
  match value.dropWhile Char.isDigit with
  | [] => true
  | c :: exponent => (c == 'e' || c == 'E') && (Text.toNat? exponent).isSome

def syntaxError (word : Text) : Text := "near \"" ++ word ++ "\": syntax error"

/-- Why a statement with the value does not compile. -/
def fault? (value : Text) : Option Text :=
  match value with
  | [] => some "incomplete input"
  | c :: _ =>
    if c.isDigit then
      match hexadecimal? value with
      | some (_, []) => none
      | some (_, rest) => some (syntaxError rest)
      | none =>
        if isDecimal value then none else some ("unrecognized token: \"" ++ value ++ "\"")
    else if value.isOneOf reservedWords then some (syntaxError value)
    else none

def maxWord : Nat := 2147483647

/-- Numbers that do not fit a signed word of 32 bits count as zero. -/
def word (n : Nat) : Nat := if n ≤ maxWord then n else 0

/-- The number at the beginning of a value. -/
def number? (value : Text) : Option Nat :=
  match hexadecimal? value with
  | some (digits, _) => some (word (Text.inBase 16 digits))
  | none => (Text.toNat? (value.takeWhile Char.isDigit)).map word

/-- Words that it does not know count as one. -/
def level (value : Text) : Nat :=
  match number? value with
  | some n => (n % 256 + 1) % 8 - 1
  | none =>
    if value.isOneOf ["off", "no", "false"] then 0
    else if value.isOneOf ["full"] then 2
    else if value.isOneOf ["extra"] then 3
    else 1

end Synchronous
end QueryWeaver
