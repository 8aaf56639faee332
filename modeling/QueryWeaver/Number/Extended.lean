import QueryWeaver.Number.Numeral
/-!
Binary numbers with 64 digits, and the reading of numerals by way of them: as many decimal digits
as fit a word of 64 bits are scaled by powers of ten, and each product is rounded. The result is
close to the number nearest to the numeral, but it need not be that number.
-/

namespace QueryWeaver

/-- A positive number: `mantissa` times two to the `exponent`. -/
structure Extended where
  mantissa : Nat
  exponent : Int
  deriving DecidableEq, Repr

namespace Extended

def precision : Nat := 64

/-- The nearest number to a ratio; a tie goes to the even mantissa. -/
def ofRatio (num den : Nat) : Extended :=
  let e := Binary64.exponentFor precision num den
  ⟨Binary64.roundEven (num * Binary64.pow2 (-e)) (den * Binary64.pow2 e), e⟩

def mul (a b : Extended) : Extended :=
  let product := ofRatio (a.mantissa * b.mantissa) 1
  ⟨product.mantissa, product.exponent + a.exponent + b.exponent⟩

/-- The number nearest to a power of ten. -/
def tenTo (power : Int) : Extended := ofRatio (Binary64.pow10 power) (Binary64.pow10 (-power))

/-- Scales by hundredth powers of ten first, then by tenth powers, then by ten itself. -/
def scale (power : Int) (x : Extended) : Extended :=
  let n := power.natAbs
  let factor (k : Int) : Extended := tenTo (if power < 0 then -k else k)
  let times (k : Int) (count : Nat) (x : Extended) : Extended := Nat.repeat (mul (factor k)) count x
  times 1 (n % 10) (times 10 (n % 100 / 10) (times 100 (n / 100) x))

/-- What is above the largest finite number is infinite. -/
def toBinary64 (negative : Bool) (x : Extended) : Binary64 :=
  let num := x.mantissa * Binary64.pow2 x.exponent
  let den := Binary64.pow2 (-x.exponent)
  if Binary64.largest * den < num then .infinite negative else Binary64.ofRatio negative num den

def maxWord : Nat := 18446744073709551615

/-- The number that the first digits stand for, as many as are sure to fit a word, and how many
they are. -/
def significand (digits : Text) : Nat × Nat :=
  digits.foldl
    (fun (n, taken) c =>
      if n < (maxWord - 9) / 10 then (10 * n + Text.digitsValue [c], taken + 1) else (n, taken))
    (0, 0)

def maxPower : Nat := 10000

/-- An exponent; the digits after it has passed the greatest one set it to that. -/
def power (digits : Text) : Nat :=
  digits.foldl (fun e c => if e < maxPower then 10 * e + Text.digitsValue [c] else maxPower) 0

/-- Multiplies by ten as often as fits a word, at most `left` times, and gives what is left. -/
def raise : (left n : Nat) → Nat × Nat
  | 0, n => (n, 0)
  | left + 1, n => if n < maxWord / 10 then raise left (10 * n) else (n, left + 1)

/-- Divides by ten as often as there is no remainder, at most `left` times. -/
def lower : (left n : Nat) → Nat × Nat
  | 0, n => (n, 0)
  | left + 1, n => if n % 10 = 0 then lower left (n / 10) else (n, left + 1)

/-- The number that digits times a power of ten are read as. -/
def ofDigits (negative : Bool) (n : Nat) (power : Int) : Binary64 :=
  if n = 0 then .finite negative 0 Binary64.minExponent
  else
    let (n, left) := if power < 0 then lower power.natAbs n else raise power.natAbs n
    if left = 0 then Binary64.ofRatio negative n 1
    else toBinary64 negative (scale (Numeral.signed (power < 0) left) (ofRatio n 1))

/-- The number that a numeral is read as. -/
def read (t : Numeral) : Binary64 :=
  let (n, taken) := significand t.digits
  ofDigits t.negative n
    (Numeral.signed t.powerNegative (power t.power) + t.whole.length - taken)

end Extended
end QueryWeaver
