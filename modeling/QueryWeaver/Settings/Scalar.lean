import QueryWeaver.Number.Numeral
import QueryWeaver.Settings.Value
import QueryWeaver.Text.Hex
/-!
Values of the settings notation that are not quoted: numbers, truth values, dates and times of day.
-/

namespace QueryWeaver

namespace SettingReader

/-- Digits of a base, single underscores allowed between them. -/
def digits? (isDigit : Char → Bool) (t : Text) : Option Text :=
  let runs := Text.pieces '_' t
  if runs.all fun run => !run.isEmpty && run.all isDigit then some runs.flatten else none

def isBinaryDigit (c : Char) : Bool := c == '0' || c == '1'

def isOctalDigit (c : Char) : Bool := '0' ≤ c && c ≤ '7'

def unsigned (t : Text) : Text :=
  match t with
  | '+' :: r => r
  | '-' :: r => r
  | t => t

/-- Decimal digits without a leading zero. -/
def decimal? (t : Text) : Option Nat := do
  let digits ← digits? Char.isDigit t
  if digits.head? = some '0' ∧ digits.length ≠ 1 then none else some (Text.inBase 10 digits)

def integer? (t : Text) : Option Int :=
  match t with
  | '0' :: 'x' :: r => (digits? Text.isHexDigit r).map fun d => (Text.inBase 16 d : Int)
  | '0' :: 'o' :: r => (digits? isOctalDigit r).map fun d => (Text.inBase 8 d : Int)
  | '0' :: 'b' :: r => (digits? isBinaryDigit r).map fun d => (Text.inBase 2 d : Int)
  | '-' :: r => (decimal? r).map fun n => -(n : Int)
  | t => (decimal? (unsigned t)).map fun n => (n : Int)

def isExponentMark (c : Char) : Bool := c == 'e' || c == 'E'

/-- A number with a fraction, an exponent or both, or one of the special numbers. -/
def isFractional (t : Text) : Bool :=
  let t := unsigned t
  let stem := t.takeWhile fun c => !isExponentMark c
  let power := t.dropWhile fun c => !isExponentMark c
  let powerOk := match power with
    | [] => true
    | _ :: r => (digits? Char.isDigit (unsigned r)).isSome
  match Text.cut ['.'] stem with
  | some (whole, fraction) =>
    (decimal? whole).isSome && (digits? Char.isDigit fraction).isSome && powerOk
  | none =>
    t = "inf" || t = "nan" || ((decimal? stem).isSome && !power.isEmpty && powerOk)

/-- Digits that stand for a number above all finite ones. -/
def isTooLarge (t : Text) : Bool :=
  (Numeral.parse? (t.filter (· != '_'))).map Numeral.nearest == some (.infinite false)

def isWordPart (c : Char) : Bool := c.isAlphanum || c == '_' || c == '+' || c == '-' || c == '.'

def minInteger : Int := -9223372036854775808

def maxInteger : Int := 9223372036854775807

/-- Integers have 64 bits. -/
def word? (t : Text) : Option SettingValue :=
  if t = "true" then some (.boolean true)
  else if t = "false" then some (.boolean false)
  else match integer? t with
    | some i => if minInteger ≤ i ∧ i ≤ maxInteger then some (.integer i) else none
    | none => if isFractional t && !isTooLarge t then some .fractional else none

def after? (c : Char) (t : Text) : Option Text := List.isPrefixOf? [c] t

/-- A number of exactly `n` digits from `low` to `high`. -/
def fixedNumber (n low high : Nat) (t : Text) : Option (Nat × Text) :=
  match Text.toNat? (t.take n) with
  | some value =>
    if (t.take n).length = n ∧ low ≤ value ∧ value ≤ high then some (value, t.drop n) else none
  | none => none

def isLeapYear (year : Nat) : Bool := year % 4 == 0 && (year % 100 != 0 || year % 400 == 0)

def daysOfMonth (year month : Nat) : Nat :=
  if month = 2 then if isLeapYear year then 29 else 28
  else if month = 4 ∨ month = 6 ∨ month = 9 ∨ month = 11 then 30
  else 31

/-- The text after a date. -/
def date? (t : Text) : Option Text := do
  let (year, r) ← fixedNumber 4 0 9999 t
  let (month, r) ← fixedNumber 2 1 12 (← after? '-' r)
  let (_, r) ← fixedNumber 2 1 (daysOfMonth year month) (← after? '-' r)
  return r

/-- The text after hours and minutes. -/
def clock? (t : Text) : Option Text := do
  let (_, r) ← fixedNumber 2 0 23 t
  let (_, r) ← fixedNumber 2 0 59 (← after? ':' r)
  return r

/-- The text after a time of day; a second may be a leap second and have a fraction. -/
def time? (t : Text) : Option Text := do
  let (_, r) ← fixedNumber 2 0 60 (← after? ':' (← clock? t))
  match r with
  | '.' :: digit :: rest => if digit.isDigit then return rest.dropWhile Char.isDigit else return r
  | r => return r

/-- The text after an offset from universal time, which need not be there. -/
def skipOffset (t : Text) : Text :=
  match t with
  | [] => []
  | c :: r =>
    if c = 'Z' ∨ c = 'z' then r
    else if c = '+' ∨ c = '-' then (clock? r).getD t
    else t

/-- The text after a date, a date with a time of day, or a time of day. -/
def moment? (t : Text) : Option Text :=
  match date? t with
  | none => time? t
  | some [] => some []
  | some (c :: r) =>
    if c = 'T' ∨ c = 't' ∨ c = ' ' then some (((time? r).map skipOffset).getD (c :: r))
    else some (c :: r)

end SettingReader
end QueryWeaver
