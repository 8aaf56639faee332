import QueryWeaver.Signature.Field
import QueryWeaver.Signature.Spelling
/-!
The list of result fields: `<type> <name>` separated by commas. A comma inside angle brackets
belongs to its type.
-/

namespace QueryWeaver

namespace Field

/-- The parts between the commas outside angle brackets; `depth` brackets are open. -/
def splitList : Nat → Text → List Text
  | _, [] => [[]]
  | depth, c :: r =>
    if c = ',' ∧ depth = 0 then [] :: splitList 0 r
    else
      let depth := if c = '<' then depth + 1 else if c = '>' then depth - 1 else depth
      match splitList depth r with
      | [] => [[c]]
      | p :: ps => (c :: p) :: ps

/-- Reads one `<type> <name>`, spacing around it allowed. -/
def parse? (t : Text) : Option Field := do
  let (type, name) ← Spelling.typeThen? (Text.trimBy isSpacing t)
  if Spelling.isIdentifier name then some ⟨type, name⟩ else none

def parseList? (t : Text) : Option (List Field) :=
  if t.all isSpacing then some [] else (splitList 0 t).mapM parse?

/-- Reads `<type> <name>[, <type> <name>...]`; spacing alone is the empty list. -/
def parseList (t : Text) : Except Error (List Field) := do
  Spelling.checkAngles t
  match parseList? t with
  | some fields => .ok fields
  | none =>
    .error (.invalidBlock t "malformed @return, expected '<type> <name>[, <type> <name>...]'")

end Field
end QueryWeaver
