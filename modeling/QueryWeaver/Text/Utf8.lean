import QueryWeaver.Text.Basic
/-!
Text from UTF-8 bytes. Each longest run of bytes that begins a character and does not complete it
becomes one replacement character.
-/

namespace QueryWeaver

namespace Utf8

/-- A character begun: its bits so far, the bytes still due, and the range of the next one. -/
structure Partial where
  bits : Nat
  due : Nat
  low : Nat
  high : Nat
  deriving DecidableEq, Repr

def replacement : Char := Char.ofNat 0xFFFD

/-- What a byte of two to four begins; bytes that begin nothing give none. -/
def lead? (b : Nat) : Option Partial :=
  if 0xC2 ≤ b ∧ b ≤ 0xDF then some ⟨b - 0xC0, 1, 0x80, 0xBF⟩
  else if b = 0xE0 then some ⟨0, 2, 0xA0, 0xBF⟩
  else if b = 0xED then some ⟨0xD, 2, 0x80, 0x9F⟩
  else if 0xE1 ≤ b ∧ b ≤ 0xEF then some ⟨b - 0xE0, 2, 0x80, 0xBF⟩
  else if b = 0xF0 then some ⟨0, 3, 0x90, 0xBF⟩
  else if 0xF1 ≤ b ∧ b ≤ 0xF3 then some ⟨b - 0xF0, 3, 0x80, 0xBF⟩
  else if b = 0xF4 then some ⟨4, 3, 0x80, 0x8F⟩
  else none

/-- The characters that end with a byte, and what it leaves begun. -/
def fresh (b : Nat) : Text × Option Partial :=
  if b < 0x80 then ([Char.ofNat b], none)
  else match lead? b with
    | some p => ([], some p)
    | none => ([replacement], none)

def step : Option Partial → Nat → Text × Option Partial
  | none, b => fresh b
  | some p, b =>
    if p.low ≤ b ∧ b ≤ p.high then
      let bits := p.bits * 64 + (b - 0x80)
      if p.due ≤ 1 then ([Char.ofNat bits], none)
      else ([], some ⟨bits, p.due - 1, 0x80, 0xBF⟩)
    else
      let (chars, next) := fresh b
      (replacement :: chars, next)

def decodeFrom : Option Partial → List UInt8 → Text
  | none, [] => []
  | some _, [] => [replacement]
  | state, b :: r =>
    let (chars, next) := step state b.toNat
    chars ++ decodeFrom next r

def decode (bytes : List UInt8) : Text := decodeFrom none bytes

end Utf8
end QueryWeaver
