import QueryWeaver.Annotation.Basic
import QueryWeaver.Text.Blank
/-!
The two comment grammars. Both hold entries `@key value`; in a value a backslash before `@` makes
it an ordinary character, and a line break with the blanks and stars after it is one space.
-/

namespace QueryWeaver

/-- A key with its value as written. -/
abbrev Entry := Text × Text

namespace Comment

mutual

/-- The entries of a block comment, from a place outside any entry. -/
def blockOutside : Text → List Entry
  | [] => []
  | '@' :: r =>
    let (key, value, entries) := blockKey r
    (key, value) :: entries
  | _ :: r => blockOutside r

/-- The rest of a key, its value, and the entries after it. -/
def blockKey : Text → Text × Text × List Entry
  | [] => ([], [], [])
  | '*' :: '/' :: r => ([], [], blockOutside r)
  | c :: r =>
    if isBlank c then
      let (value, entries) := blockValue r
      ([], c :: value, entries)
    else
      let (key, value, entries) := blockKey r
      (c :: key, value, entries)

/-- The rest of a value and the entries after it. -/
def blockValue : Text → Text × List Entry
  | [] => ([], [])
  | '\\' :: '@' :: r =>
    let (value, entries) := blockValue r
    ('@' :: value, entries)
  | '@' :: r =>
    let (key, value, entries) := blockKey r
    ([], (key, value) :: entries)
  | '*' :: '/' :: r => ([], blockOutside r)
  | c :: r =>
    let (value, entries) := blockValue r
    (c :: value, entries)

end

mutual

/-- The entries of a line comment, before the first of them. -/
def lineOutside : Text → List Entry
  | [] => []
  | '\\' :: '@' :: r => lineOutside r
  | '@' :: r =>
    let (key, value, entries) := lineKey r
    (key, value) :: entries
  | _ :: r => lineOutside r

/-- The rest of a key, its value, and the entries after it. An escaped `@` goes to the value. -/
def lineKey : Text → Text × Text × List Entry
  | [] => ([], [], [])
  | '\\' :: '@' :: r =>
    let (key, value, entries) := lineKey r
    (key, '@' :: value, entries)
  | '@' :: r =>
    let (key, value, entries) := lineKey r
    ([], [], (key, value) :: entries)
  | c :: r =>
    if isBlank c then
      let (value, entries) := lineValue r
      ([], value, entries)
    else
      let (key, value, entries) := lineKey r
      (c :: key, value, entries)

/-- The rest of a value and the entries after it. -/
def lineValue : Text → Text × List Entry
  | [] => ([], [])
  | '\\' :: '@' :: r =>
    let (value, entries) := lineValue r
    ('@' :: value, entries)
  | '@' :: r =>
    let (key, value, entries) := lineKey r
    ([], (key, value) :: entries)
  | c :: r =>
    let (value, entries) := lineValue r
    (c :: value, entries)

end

def isLineBreak (c : Char) : Bool := c == '\r' || c == '\n'

/-- What is dropped after a line break: blanks, more breaks, and the stars that lead doc lines. -/
def isContinuation (c : Char) : Bool := c == ' ' || c == '\t' || c == '*' || isLineBreak c

/-- Joins the lines of a value; `broken` says that a line break was just passed. -/
def joinLines (broken : Bool) : Text → Text
  | [] => []
  | c :: r =>
    if broken && isContinuation c then joinLines true r
    else if !broken && isLineBreak c then ' ' :: joinLines true r
    else c :: joinLines false r

def cleanValue (raw : Text) : Text := Text.trim (joinLines false raw)

/-- Entries without a key are dropped, and the last value of a key counts. -/
def collect (entries : List Entry) : Annotations :=
  Dictionary.ofList <| (entries.filter fun e => !e.1.isEmpty).map fun e => (e.1, cleanValue e.2)

def ofBlock (comment : Text) : Annotations := collect (blockOutside comment)

def ofLine (comment : Text) : Annotations :=
  collect (lineOutside (Text.trimStart (· == '/') comment))

/-- The annotations of a comment, read by the grammar that its opener asks for. -/
def annotations : Text → Annotations
  | '/' :: '/' :: r => ofLine ('/' :: '/' :: r)
  | comment => ofBlock comment

end Comment
end QueryWeaver
