import QueryWeaver.Text.Basic
/-!
Blank characters: the Unicode property White_Space, and the four blanks that separate the parts of
a signature.
-/

namespace QueryWeaver

def isBlank (c : Char) : Bool :=
  (0x9 ≤ c.toNat && c.toNat ≤ 0xD) || c.toNat == 0x20 || c.toNat == 0x85 || c.toNat == 0xA0 ||
  c.toNat == 0x1680 || (0x2000 ≤ c.toNat && c.toNat ≤ 0x200A) || c.toNat == 0x2028 ||
  c.toNat == 0x2029 || c.toNat == 0x202F || c.toNat == 0x205F || c.toNat == 0x3000

/-- Space, tab, carriage return or line feed. -/
def isSpacing (c : Char) : Bool := c == ' ' || c == '\t' || c == '\r' || c == '\n'

namespace Text

def trim (t : Text) : Text := trimBy isBlank t

end Text
end QueryWeaver
