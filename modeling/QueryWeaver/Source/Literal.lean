import QueryWeaver.Text.Basic
/-!
String and character literals of the generated language, followed one character at a time. A
backslash escapes the next character, an unescaped line feed ends a literal, and a quote inside a
number separates digits.
-/

namespace QueryWeaver

/-- Where a scan stands: between words, in a word, in a number, or in a literal. -/
inductive LiteralState where
  | between
  | word
  | number
  | quoted (quote : Char) (escaped : Bool)
  deriving DecidableEq, Repr

namespace LiteralState

def isIdentifierChar (c : Char) : Bool := c.isAlphanum || c == '_'

def isQuote (c : Char) : Bool := c == '"' || c == '\''

def step : LiteralState → Char → LiteralState
  | quoted quote true, _ => quoted quote false
  | quoted quote false, c =>
    if c = '\\' then quoted quote true
    else if c = quote ∨ c = '\n' then between
    else quoted quote false
  | s, c =>
    if s = number ∧ c = '\'' then number
    else if isIdentifierChar c then
      if s = between then (if c.isDigit then number else word) else s
    else if isQuote c then quoted c false
    else between

/-- Whether a character read in state `s` belongs to a literal; its quotes do. -/
def covers : LiteralState → Char → Bool
  | quoted _ _, _ => true
  | number, c => c == '"'
  | _, c => isQuote c

def run (s : LiteralState) (t : Text) : LiteralState := t.foldl step s

/-- Each character with whether it stands outside literals. -/
def marked : LiteralState → Text → List (Char × Bool)
  | _, [] => []
  | s, c :: r => (c, !s.covers c) :: marked (s.step c) r

end LiteralState
end QueryWeaver
