/-!
Texts as lists of characters: their size in UTF-8, and the cuts, trims and numerals that the
scanners share.
-/

namespace QueryWeaver

abbrev Text := List Char

namespace Text

instance : Coe String Text := ⟨String.toList⟩

/-- Number of bytes of the UTF-8 encoding. -/
def size : Text → Nat
  | [] => 0
  | c :: r => c.utf8Size + size r

/-- The text left after its first `n` bytes; a cut inside a character drops that character. -/
def dropBytes : Nat → Text → Text
  | 0, t => t
  | _, [] => []
  | n + 1, c :: r => dropBytes (n + 1 - c.utf8Size) r

/-- The characters that begin in the first `n` bytes. -/
def takeBytes : Nat → Text → Text
  | 0, _ => []
  | _, [] => []
  | n + 1, c :: r => c :: takeBytes (n + 1 - c.utf8Size) r

/-- The text between two byte offsets. -/
def slice (t : Text) (start stop : Nat) : Text :=
  takeBytes (stop - start) (dropBytes start t)

/-- A byte offset that no character straddles. -/
def Boundary (t : Text) (n : Nat) : Prop := ∃ a b, t = a ++ b ∧ size a = n

def trimStart (p : Char → Bool) (t : Text) : Text := t.dropWhile p

def trimEnd (p : Char → Bool) (t : Text) : Text := (t.reverse.dropWhile p).reverse

def trimBy (p : Char → Bool) (t : Text) : Text := trimEnd p (trimStart p t)

/-- What stands before and after the first occurrence of `marker`. -/
def cut (marker : Text) : Text → Option (Text × Text)
  | [] => if marker.isEmpty then some ([], []) else none
  | c :: r =>
    match marker.isPrefixOf? (c :: r) with
    | some rest => some ([], rest)
    | none => (cut marker r).map fun (before, after) => (c :: before, after)

/-- What stands before and after the last occurrence of `marker`. -/
def cutLast (marker : Text) : Text → Option (Text × Text)
  | [] => if marker.isEmpty then some ([], []) else none
  | c :: r =>
    match cutLast marker r with
    | some (before, after) => some (c :: before, after)
    | none => (marker.isPrefixOf? (c :: r)).map fun rest => ([], rest)

def contains (marker t : Text) : Bool := (cut marker t).isSome

/-- The pieces between the occurrences of `sep`: one more than there are occurrences. -/
def pieces (sep : Char) : Text → List Text
  | [] => [[]]
  | c :: r =>
    if c = sep then [] :: pieces sep r
    else match pieces sep r with
      | [] => [[c]]
      | p :: ps => (c :: p) :: ps

def joinWith (sep : Text) : List Text → Text
  | [] => []
  | [t] => t
  | t :: u :: r => t ++ sep ++ joinWith sep (u :: r)

def lower (t : Text) : Text := t.map Char.toLower

/-- Equality up to the case of ASCII letters. -/
def sameLetters (a b : Text) : Bool := lower a == lower b

def isOneOf (t : Text) (words : List Text) : Bool := words.any (sameLetters t)

def dropPrefix (pre t : Text) : Text := (pre.isPrefixOf? t).getD t

def dropSuffix (suf t : Text) : Text := (suf.isSuffixOf? t).getD t

/-- Decimal digits, without leading zeros. -/
def ofNat (n : Nat) : Text := Nat.toDigits 10 n

def ofInt : Int → Text
  | .ofNat n => ofNat n
  | .negSucc n => '-' :: ofNat (n + 1)

def digitsValue (t : Text) : Nat := t.foldl (fun n c => 10 * n + (c.toNat - '0'.toNat)) 0

/-- A nonempty run of ASCII digits, as a number. -/
def toNat? (t : Text) : Option Nat :=
  if t ≠ [] ∧ t.all Char.isDigit then some (digitsValue t) else none

end Text
end QueryWeaver
