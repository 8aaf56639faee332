import QueryWeaver.Number.Binary64
/-!
Decimal numerals with an optional point and an optional exponent, and the number nearest to one.
-/

namespace QueryWeaver

structure Numeral where
  negative : Bool
  /-- The digits before the point. -/
  whole : Text
  /-- The digits after the point, if there is one. -/
  fraction : Option Text
  /-- The sign and the digits of the exponent; no digits if there is none. -/
  powerNegative : Bool
  power : Text
  deriving DecidableEq, Repr

namespace Numeral

/-- A sign and the text after it. -/
def sign : Text → Bool × Text
  | '-' :: r => (true, r)
  | '+' :: r => (false, r)
  | t => (false, t)

/-- The sign and the digits of an exponent, which ends the text. -/
def exponent? : Text → Option (Bool × Text)
  | [] => some (false, [])
  | c :: r =>
    let (negative, digits) := sign r
    if (c = 'e' ∨ c = 'E') ∧ digits ≠ [] ∧ digits.all Char.isDigit then some (negative, digits)
    else none

/-- There is a digit before the point or after it. -/
def parse? (t : Text) : Option Numeral := do
  let (negative, t) := sign t
  let whole := t.takeWhile Char.isDigit
  let rest := t.dropWhile Char.isDigit
  let (fraction, rest) := match rest with
    | '.' :: r => (some (r.takeWhile Char.isDigit), r.dropWhile Char.isDigit)
    | r => (none, r)
  if (whole ++ fraction.getD []).isEmpty then none
  else
    let (powerNegative, power) ← exponent? rest
    return ⟨negative, whole, fraction, powerNegative, power⟩

def decimals (n : Numeral) : Text := n.fraction.getD []

def digits (n : Numeral) : Text := n.whole ++ n.decimals

def signed (negative : Bool) (n : Nat) : Int := if negative then -(n : Int) else n

/-- The nearest number; a tie goes to the even mantissa. -/
def nearest (n : Numeral) : Binary64 :=
  Binary64.ofDecimal n.negative (Text.digitsValue n.digits)
    (signed n.powerNegative (Text.digitsValue n.power) - n.decimals.length)

/-- The value of a numeral with neither point nor exponent. -/
def integer? (n : Numeral) : Option Int :=
  if n.fraction.isNone && n.power.isEmpty then
    some (signed n.negative (Text.digitsValue n.whole))
  else none

end Numeral
end QueryWeaver
