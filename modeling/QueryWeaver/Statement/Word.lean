import QueryWeaver.Text.Alphanumeric
/-!
The bare words of a SQL text with their byte ranges and parenthesis depths. Quoted text, bracketed
names and comments hold no words.
-/

namespace QueryWeaver

/-- What the last character read leaves open. `dash` and `slash` may begin a comment. -/
inductive WordMode where
  | plain
  | dash
  | slash
  | word
  | number
  /-- In quoted text or a line comment, through the closing character. -/
  | through (close : Char)
  | block (star : Bool)
  deriving DecidableEq, Repr

/-- The character that ends what an opening quote or bracket begins. -/
def closingQuote? (c : Char) : Option Char :=
  if c = '\'' ∨ c = '"' ∨ c = '\x60' then some c
  else if c = '[' then some ']'
  else none

namespace WordMode

def isTail (c : Char) : Bool := isWordChar c || c == '$'

/-- The mode after a character that continues nothing. -/
def fresh (c : Char) : WordMode :=
  match closingQuote? c with
  | some close => through close
  | none =>
    if c = '-' then dash
    else if c = '/' then slash
    else if c.isDigit then number
    else if isWordChar c then word
    else plain

def step : WordMode → Char → WordMode
  | through close, c => if c = close then plain else through close
  | block star, c => if star ∧ c = '/' then plain else block (c == '*')
  | word, c => if isTail c then word else fresh c
  | number, c => if isTail c then number else fresh c
  | dash, c => if c = '-' then through '\n' else fresh c
  | slash, c => if c = '*' then block false else fresh c
  | plain, c => fresh c

/-- Whether parentheses count. -/
def isOpen : WordMode → Bool
  | through _ => false
  | block _ => false
  | _ => true

end WordMode

structure WordScan where
  mode : WordMode
  depth : Nat
  deriving DecidableEq, Repr

namespace WordScan

def start : WordScan := ⟨.plain, 0⟩

def nextDepth (counted : Bool) (depth : Nat) (c : Char) : Nat :=
  if counted && c == '(' then depth + 1
  else if counted && c == ')' then depth - 1
  else depth

def step (s : WordScan) (c : Char) : WordScan :=
  ⟨s.mode.step c, nextDepth s.mode.isOpen s.depth c⟩

def run (s : WordScan) (t : Text) : WordScan := t.foldl step s

/-- Whether a word begins with a character read in state `s`. -/
def begins (s : WordScan) (c : Char) : Bool := s.mode != .word && (s.step c).mode == .word

end WordScan

/-- A word, its bytes `start` to `stop`, and the parentheses open around it. -/
structure Word where
  text : Text
  start : Nat
  stop : Nat
  depth : Nat
  deriving DecidableEq, Repr

namespace Word

/-- The words of a text that stands at byte `pos`. -/
def scan (s : WordScan) (pos : Nat) : Text → List Word
  | [] => []
  | c :: r =>
    let rest := scan (s.step c) (pos + c.utf8Size) r
    if s.begins c then
      let text := c :: r.takeWhile WordMode.isTail
      ⟨text, pos, pos + Text.size text, s.depth⟩ :: rest
    else rest

def ofText (sql : Text) : List Word := scan .start 0 sql

/-- Whether this is the keyword, in any letter case and outside parentheses. -/
def isTop (w : Word) (keyword : Text) : Bool := w.depth == 0 && Text.sameLetters w.text keyword

end Word
end QueryWeaver
