import QueryWeaver.Text.Basic
/-!
Binary floating point numbers of 64 bits as exact values, and the nearest such number to a ratio.
-/

namespace QueryWeaver

/-- A finite number is `mantissa` times two to the `exponent`. -/
inductive Binary64 where
  | finite (negative : Bool) (mantissa : Nat) (exponent : Int)
  | infinite (negative : Bool)
  deriving DecidableEq, Repr

namespace Binary64

def minExponent : Int := -1074

def maxExponent : Int := 971

/-- Mantissas of normal numbers lie from here to below twice this. -/
def hiddenBit : Nat := 1 <<< 52

/-- The integer nearest to a ratio; a tie goes to the even one. -/
def roundEven (num den : Nat) : Nat :=
  let q := num / den
  let twice := 2 * (num % den)
  if twice < den then q
  else if den < twice then q + 1
  else q + q % 2

/-- Two to a power that is not negative, and one for the others. -/
def pow2 (e : Int) : Nat := 1 <<< e.toNat

/-- Ten to a power that is not negative, and one for the others. -/
def pow10 (e : Int) : Nat := Nat.pow 10 e.toNat

/-- The exponent of a ratio that leaves a mantissa of so many binary digits. -/
def exponentFor (bits num den : Nat) : Int :=
  let e : Int := (Nat.log2 num : Int) - Nat.log2 den - (bits - 1 : Nat)
  if num * pow2 (-e) < den * pow2 e * (1 <<< (bits - 1)) then e - 1 else e

def precision : Nat := 53

/-- The exponent that makes the ratio a mantissa, unless the number is subnormal. -/
def exponentOf (num den : Nat) : Int := max (exponentFor precision num den) minExponent

/-- The largest finite number. -/
def largest : Nat := (2 * hiddenBit - 1) * pow2 maxExponent

/-- The number nearest to `num / den`; a tie goes to the even mantissa. -/
def ofRatio (negative : Bool) (num den : Nat) : Binary64 :=
  if num = 0 then finite negative 0 minExponent
  else
    let e := exponentOf num den
    let m := roundEven (num * pow2 (-e)) (den * pow2 e)
    let (m, e) := if m = 2 * hiddenBit then (hiddenBit, e + 1) else (m, e)
    if maxExponent < e then infinite negative else finite negative m e

/-- Ten to this power, and to all above it, is nearer to infinity than to a finite number. -/
def maxPower : Int := 310

/-- Ten to a power below this is nearest to zero. -/
def minPower : Int := -330

/-- The number nearest to `digits` times ten to the `exponent`. Powers far out of range are not
computed: digits below two to the `n` are below ten to the `n`. -/
def ofDecimal (negative : Bool) (digits : Nat) (exponent : Int) : Binary64 :=
  if digits = 0 then finite negative 0 minExponent
  else if maxPower < exponent then infinite negative
  else if exponent + Nat.log2 digits + 1 < minPower then finite negative 0 minExponent
  else ofRatio negative (digits * pow10 exponent) (pow10 (-exponent))

end Binary64
end QueryWeaver
