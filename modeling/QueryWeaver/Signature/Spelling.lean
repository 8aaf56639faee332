import QueryWeaver.Error
import QueryWeaver.Text.Alphanumeric
import QueryWeaver.Text.Blank
/-!
Spellings of types and names. A type is a run of word characters and colons with at most one
balanced group of angle brackets after it.
-/

namespace QueryWeaver

namespace Spelling

def isTypeChar (c : Char) : Bool := c == ':' || isWordChar c

def isIdentifier (t : Text) : Bool := !t.isEmpty && t.all isWordChar

/-- Splits after the bracket that closes the group; `depth` brackets are open. -/
def spanAngles : Nat → Text → Option (Text × Text)
  | _, [] => none
  | depth, c :: r =>
    if c = '<' then (spanAngles (depth + 1) r).map fun (group, rest) => (c :: group, rest)
    else if c = '>' then
      if depth ≤ 1 then some ([c], r)
      else (spanAngles (depth - 1) r).map fun (group, rest) => (c :: group, rest)
    else (spanAngles depth r).map fun (group, rest) => (c :: group, rest)

/-- The type a text begins with, and what follows it. -/
def type? (t : Text) : Option (Text × Text) :=
  let stem := t.takeWhile isTypeChar
  let rest := t.dropWhile isTypeChar
  if stem.isEmpty then none
  else match rest with
    | '<' :: _ =>
      match spanAngles 0 rest with
      | some (group, rest) => some (stem ++ group, rest)
      | none => some (stem, rest)
    | _ => some (stem, rest)

/-- A type and the text after the spacing that must follow it. -/
def typeThen? (t : Text) : Option (Text × Text) :=
  match type? t with
  | some (type, c :: r) => if isSpacing c then some (type, r.dropWhile isSpacing) else none
  | _ => none

/-- No angle bracket closes before it is opened, and all are closed; `depth` are open. -/
def anglesBalanced : Nat → Text → Bool
  | depth, [] => depth == 0
  | depth, c :: r =>
    if c = '<' then anglesBalanced (depth + 1) r
    else if c = '>' then depth != 0 && anglesBalanced (depth - 1) r
    else anglesBalanced depth r

def checkAngles (t : Text) : Except Error Unit :=
  if anglesBalanced 0 t then .ok () else .error (.invalidBlock t "unmatched '<' or '>' in type")

end Spelling
end QueryWeaver
