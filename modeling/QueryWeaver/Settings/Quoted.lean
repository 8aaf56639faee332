import QueryWeaver.Text.Hex
/-!
Strings of the settings notation: in double quotes with escapes or in single quotes without, on one
line or, between three quotes, on several. Ends of lines are shared with the rest of the notation.
-/

namespace QueryWeaver

namespace SettingReader

def isSpace (c : Char) : Bool := c == ' ' || c == '\t'

def skipSpace (t : Text) : Text := t.dropWhile isSpace

/-- Characters that may stand in comments and strings: no control characters but the tab. -/
def isPrintable (c : Char) : Bool := c == '\t' || (0x20 ≤ c.toNat && c.toNat != 0x7F)

/-- The end of a line, or of the document, and the text after it. -/
def lineEnd : Text → Option Text
  | [] => some []
  | '\n' :: r => some r
  | '\r' :: '\n' :: r => some r
  | _ => none

/-- A number of `n` hexadecimal digits. -/
def hexDigits : Nat → Nat → Text → Option (Nat × Text)
  | 0, value, t => some (value, t)
  | _, _, [] => none
  | n + 1, value, c :: r => do
    let digit ← Text.hexValue? c
    hexDigits n (16 * value + digit) r

/-- The character of a scalar value; surrogates are none. -/
def scalar? (n : Nat) : Option Char :=
  if n.isValidChar then some (Char.ofNat n) else none

def escaped (t : Text) : Option (Char × Text) :=
  match t with
  | [] => none
  | c :: r =>
    if c = 'b' then some ('\x08', r)
    else if c = 't' then some ('\t', r)
    else if c = 'n' then some ('\n', r)
    else if c = 'f' then some ('\x0c', r)
    else if c = 'r' then some ('\r', r)
    else if c = '"' ∨ c = '\\' then some (c, r)
    else if c = 'u' ∨ c = 'U' then do
      let (n, rest) ← hexDigits (if c = 'u' then 4 else 8) 0 r
      let char ← scalar? n
      return (char, rest)
    else none

/-- The rest of a string in double quotes. -/
def basicString : Nat → Text → Option (Text × Text)
  | 0, _ => none
  | _, [] => none
  | fuel + 1, c :: r =>
    if c = '"' then some ([], r)
    else do
      let (char, rest) ← if c = '\\' then escaped r else if isPrintable c then some (c, r) else none
      let (body, rest) ← basicString fuel rest
      return (char :: body, rest)

/-- The rest of a string in single quotes. -/
def literalString (t : Text) : Option (Text × Text) :=
  match t.dropWhile fun c => isPrintable c && c != '\'' with
  | '\'' :: rest => some (t.takeWhile fun c => isPrintable c && c != '\'', rest)
  | _ => none

/-- A string on one line. -/
def string? (fuel : Nat) : Text → Option (Text × Text)
  | '"' :: r => basicString fuel r
  | '\'' :: r => literalString r
  | _ => none

/-- Skips blanks and ends of lines. -/
def skipBlank : Text → Text
  | '\r' :: '\n' :: r => skipBlank r
  | c :: r => if isSpace c || c == '\n' then skipBlank r else c :: r
  | [] => []

/-- The rest of a string of several lines. An escaped end of line is dropped with the blanks after
it, and up to two quotes may stand before the three that close the string. -/
def multiline (quote : Char) : Nat → Text → Option (Text × Text)
  | 0, _ => none
  | _, [] => none
  | fuel + 1, c :: r =>
    match List.isPrefixOf? [quote, quote, quote] (c :: r), lineEnd (c :: r) with
    | some after, _ =>
      let extra := (after.take 2).takeWhile (· == quote)
      some (extra, after.drop extra.length)
    | none, some next => (multiline quote fuel next).map fun (body, rest) => ('\n' :: body, rest)
    | none, none =>
      if c = '\\' ∧ quote = '"' then
        match lineEnd (skipSpace r) with
        | some next => multiline quote fuel (skipBlank next)
        | none => do
          let (char, rest) ← escaped r
          let (body, rest) ← multiline quote fuel rest
          return (char :: body, rest)
      else if isPrintable c then
        (multiline quote fuel r).map fun (body, rest) => (c :: body, rest)
      else none

/-- An end of line right after the opening quotes is no part of the string. -/
def multilineString? (fuel : Nat) (quote : Char) (t : Text) : Option (Text × Text) :=
  multiline quote fuel ((lineEnd t).getD t)

/-- A string of either form. -/
def quoted? (fuel : Nat) (t : Text) : Option (Text × Text) :=
  match t with
  | '"' :: '"' :: '"' :: r => multilineString? fuel '"' r
  | '\'' :: '\'' :: '\'' :: r => multilineString? fuel '\'' r
  | t => string? fuel t

end SettingReader
end QueryWeaver
