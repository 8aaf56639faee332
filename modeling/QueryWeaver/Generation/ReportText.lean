import QueryWeaver.Generation.Report
/-!
The report as JSON text, two spaces per level, an empty list on one line.
-/

namespace QueryWeaver

namespace ReportText

def hexDigit (n : Nat) : Char := if n < 10 then Char.ofNat (48 + n) else Char.ofNat (87 + n)

/-- Control characters have an escape; all other characters but quote and backslash are raw. -/
def escape (c : Char) : Text :=
  if c = '"' then "\\\""
  else if c = '\\' then "\\\\"
  else if c = '\x08' then "\\b"
  else if c = '\x0c' then "\\f"
  else if c = '\n' then "\\n"
  else if c = '\r' then "\\r"
  else if c = '\t' then "\\t"
  else if c.toNat < 0x20 then "\\u00" ++ [hexDigit (c.toNat / 16), hexDigit (c.toNat % 16)]
  else [c]

def quoted (t : Text) : Text := ['"'] ++ t.flatMap escape ++ ['"']

def indent (depth : Nat) : Text := List.replicate (2 * depth) ' '

/-- Items on lines of their own between two delimiters that stand at `depth`. -/
def group (first last : Char) (depth : Nat) (items : List Text) : Text :=
  if items.isEmpty then [first, last]
  else [first, '\n'] ++ Text.joinWith [',', '\n'] (items.map fun t => indent (depth + 1) ++ t) ++
    ['\n'] ++ indent depth ++ [last]

def entry (key value : Text) : Text := quoted key ++ [':', ' '] ++ value

def texts (depth : Nat) (l : List Text) : Text := group '[' ']' depth (l.map quoted)

def failure (depth : Nat) (f : BlockFailure) : Text :=
  group '{' '}' depth [entry "function" (quoted f.function), entry "message" (quoted f.message)]

end ReportText

open ReportText in
def Report.pretty (r : Report) : Text :=
  group '{' '}' 0 [
    entry "generated" (texts 1 r.generated),
    entry "attempted" (Text.ofNat r.attempted),
    entry "failures" (group '[' ']' 1 (r.failures.map (failure 2))),
    entry "file_errors" (texts 1 r.fileErrors),
    entry "warnings" (texts 1 r.warnings)]

end QueryWeaver
