import QueryWeaver.Statement.Word
import QueryWeaver.Text.Blank
/-!
Places outside quotes and parentheses, and the cuts made there. Comments are not recognised here.
-/

namespace QueryWeaver

/-- The quote that is open, if any, and the number of open parentheses. -/
structure Nesting where
  quote : Option Char
  depth : Nat
  deriving DecidableEq, Repr

namespace Nesting

def start : Nesting := ⟨none, 0⟩

def step (s : Nesting) (c : Char) : Nesting :=
  match s.quote with
  | some close => if c = close then ⟨none, s.depth⟩ else s
  | none =>
    match closingQuote? c with
    | some close => ⟨some close, s.depth⟩
    | none => ⟨none, WordScan.nextDepth true s.depth c⟩

def run (s : Nesting) (t : Text) : Nesting := t.foldl step s

def isTop (s : Nesting) : Bool := s.quote.isNone && s.depth == 0

/-- The parts between the commas at the top. -/
def splitCommas (s : Nesting) : Text → List Text
  | [] => [[]]
  | c :: r =>
    if s.isTop && c == ',' then [] :: splitCommas (s.step c) r
    else match splitCommas (s.step c) r with
      | [] => [[c]]
      | p :: ps => (c :: p) :: ps

/-- Splits before the last blank at the top. -/
def splitLastBlank (s : Nesting) : Text → Option (Text × Text)
  | [] => none
  | c :: r =>
    match splitLastBlank (s.step c) r with
    | some (head, tail) => some (c :: head, tail)
    | none => if s.isTop && isBlank c then some ([], c :: r) else none

end Nesting

/-- The trimmed parts between the commas outside quotes and parentheses. -/
def topLevelParts (t : Text) : List Text := (Nesting.start.splitCommas t).map Text.trim

end QueryWeaver
