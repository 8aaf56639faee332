import QueryWeaver.Number.Extended
import QueryWeaver.Number.Shortest
import QueryWeaver.Text.Utf8
/-!
Stored values and their texts in a row.
-/

namespace QueryWeaver

inductive StoredValue where
  | null
  | integer (i : Int)
  | real (x : Binary64)
  | text (t : Text)
  | blob (bytes : List UInt8)

namespace StoredValue

def minInteger : Int := -9223372036854775808

def maxInteger : Int := 9223372036854775807

/-- A numeral with neither point nor exponent is an integer if it fits 64 bits; others are real. -/
def ofNumeral (n : Numeral) : StoredValue :=
  match n.integer? with
  | some i => if minInteger ≤ i ∧ i ≤ maxInteger then integer i else real (Extended.read n)
  | none => real (Extended.read n)

/-- Null is empty, numbers are decimal, and a blob is decoded with replacement characters. -/
def toText : StoredValue → Text
  | null => []
  | integer i => Text.ofInt i
  | real x => x.render
  | text t => t
  | blob bytes => Utf8.decode bytes

end StoredValue
end QueryWeaver
