import QueryWeaver.Number.Binary64
/-!
The shortest decimal that reads back as a number: the fewest digits within its rounding interval,
and of two such decimals the nearer one. It is written without an exponent.
-/

namespace QueryWeaver

namespace Shortest

/-- A value with the ends of the interval of values that round to it, over one denominator. The
ends belong to it when `closed`. -/
structure Interval where
  low : Nat
  value : Nat
  high : Nat
  den : Nat
  closed : Bool

/-- The gap below the least normal mantissa is half the gap above it. -/
def interval (mantissa : Nat) (exponent : Int) : Interval :=
  let scale := Binary64.pow2 (exponent - 2)
  let half := if mantissa = Binary64.hiddenBit ∧ Binary64.minExponent < exponent then 1 else 2
  ⟨(4 * mantissa - half) * scale, 4 * mantissa * scale, (4 * mantissa + 2) * scale,
    Binary64.pow2 (2 - exponent), mantissa % 2 == 0⟩

/-- A decimal: `digits` times ten to the `exponent`. -/
structure Decimal where
  digits : Nat
  exponent : Int
  deriving DecidableEq, Repr

/-- Places before the point, counted from the first digit that is not zero. -/
def magnitude (i : Interval) : Int :=
  ((Nat.toDigits 10 (i.value * Binary64.pow10 400 / i.den)).length : Int) - 400

def contains (i : Interval) (d : Decimal) : Bool :=
  let scaled := d.digits * Binary64.pow10 d.exponent * i.den
  let low := i.low * Binary64.pow10 (-d.exponent)
  let high := i.high * Binary64.pow10 (-d.exponent)
  if i.closed then low ≤ scaled && scaled ≤ high else low < scaled && scaled < high

/-- The nearer of the two neighbours of the value on a decimal grid, if it lies in the interval;
else the other one, if that does. Of two that are equally near the upper one counts. -/
def onGrid? (i : Interval) (exponent : Int) : Option Decimal :=
  let num := i.value * Binary64.pow10 (-exponent)
  let den := i.den * Binary64.pow10 exponent
  let below : Decimal := ⟨num / den, exponent⟩
  let above : Decimal := ⟨num / den + 1, exponent⟩
  let (first, second) := if 2 * (num % den) < den then (below, above) else (above, below)
  if contains i first then some first
  else if contains i second then some second
  else none

/-- Seventeen digits always suffice. -/
def ofInterval (i : Interval) : Decimal :=
  let places := magnitude i
  ((List.range 17).findSome? fun (k : Nat) => onGrid? i (places - (k + 1))).getD ⟨0, 0⟩

def ofFinite (mantissa : Nat) (exponent : Int) : Decimal :=
  if mantissa = 0 then ⟨0, 0⟩ else ofInterval (interval mantissa exponent)

/-- The decimal without an exponent and without zeros at the end of its fraction. -/
def Decimal.render (d : Decimal) : Text :=
  if 0 ≤ d.exponent then Text.ofNat (d.digits * Binary64.pow10 d.exponent)
  else
    let unit := Binary64.pow10 (-d.exponent)
    let places := (-d.exponent).toNat
    let digits := Text.ofNat (d.digits % unit)
    let fraction := Text.trimEnd (· == '0')
      (List.replicate (places - digits.length) '0' ++ digits)
    Text.ofNat (d.digits / unit) ++ (if fraction.isEmpty then [] else '.' :: fraction)

end Shortest

/-- The text of a number; zero keeps its sign. -/
def Binary64.render (x : Binary64) : Text :=
  let signed (negative : Bool) (t : Text) : Text := if negative then '-' :: t else t
  match x with
  | infinite negative => signed negative "inf"
  | finite negative m e => signed negative (Shortest.ofFinite m e).render

end QueryWeaver
