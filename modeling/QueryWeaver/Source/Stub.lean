import QueryWeaver.Source.Literal
/-!
The function that code begins with: everything up to the brace that closes the first open brace,
where braces inside literals do not count.
-/

namespace QueryWeaver

namespace Stub

/-- Splits after the live brace that brings the depth back to zero. -/
def splitFrom : LiteralState → Nat → Text → Option (Text × Text)
  | _, _, [] => none
  | s, depth, c :: r =>
    let next := s.step c
    if s.covers c then (splitFrom next depth r).map fun (f, rest) => (c :: f, rest)
    else if c = '{' then (splitFrom next (depth + 1) r).map fun (f, rest) => (c :: f, rest)
    else if c = '}' ∧ depth = 1 then some ([c], r)
    else if c = '}' then (splitFrom next (depth - 1) r).map fun (f, rest) => (c :: f, rest)
    else (splitFrom next depth r).map fun (f, rest) => (c :: f, rest)

/-- The first function of the code and what follows it. -/
def split? (code : Text) : Option (Text × Text) := splitFrom .between 0 code

def opensFrom : LiteralState → Text → Bool
  | _, [] => false
  | s, c :: r => (!s.covers c && c == '{') || opensFrom (s.step c) r

/-- Whether a body is opened, closed or not. -/
def opensBody (code : Text) : Bool := opensFrom .between code

end Stub
end QueryWeaver
