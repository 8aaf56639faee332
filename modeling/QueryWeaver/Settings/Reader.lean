import QueryWeaver.Settings.Document
import QueryWeaver.Settings.Quoted
import QueryWeaver.Settings.Scalar
/-!
The notation of settings documents: comments, table headers, dotted keys, arrays and tables on one
line. Keys have fewer than eighty parts, and values are nested less than eighty deep.
-/

namespace QueryWeaver

namespace SettingReader

/-- The most parts that a key has, and the most arrays and tables around a value. -/
def maxDepth : Nat := 79

def isBareKeyChar (c : Char) : Bool := c.isAlphanum || c == '_' || c == '-'

def simpleKey (fuel : Nat) (t : Text) : Option (Text × Text) :=
  match string? fuel t with
  | some key => some key
  | none =>
    let key := t.takeWhile isBareKeyChar
    if key.isEmpty then none else some (key, t.dropWhile isBareKeyChar)

/-- At most `parts` keys with dots between them. -/
def dottedKey (fuel : Nat) : Nat → Text → Option (List Text × Text)
  | 0, _ => none
  | parts + 1, t => do
    let (key, rest) ← simpleKey fuel t
    match skipSpace rest with
    | '.' :: r =>
      let (keys, rest) ← dottedKey fuel parts (skipSpace r)
      return (key :: keys, rest)
    | rest => return ([key], rest)

/-- The rest of a line that holds no more than a comment. -/
def restOfLine (t : Text) : Option Text :=
  match skipSpace t with
  | '#' :: r => lineEnd (r.dropWhile isPrintable)
  | rest => lineEnd rest

/-- Skips blanks, ends of lines and comments inside an array; the flag says whether a comment has
begun. -/
def skipLines : Bool → Text → Text
  | _, '\n' :: r => skipLines false r
  | _, '\r' :: '\n' :: r => skipLines false r
  | true, c :: r => if isPrintable c then skipLines true r else c :: r
  | false, c :: r =>
    if c = '#' then skipLines true r else if isSpace c then skipLines false r else c :: r
  | _, [] => []

mutual

/-- A value with room for `room` arrays and tables around what it holds. -/
def value : Nat → Nat → Text → Option (SettingValue × Text)
  | 0, _, _ => none
  | fuel + 1, room, t =>
    match t, room with
    | '[' :: _, 0 => none
    | '{' :: _, 0 => none
    | '[' :: r, room + 1 => do
      let (items, rest) ← arrayItems fuel room r
      return (.array items, rest)
    | '{' :: r, room + 1 => do
      let (entries, rest) ← inlineEntries fuel room (skipSpace r)
      return (.table (SettingEntries.toValues entries), rest)
    | t, _ =>
      match quoted? fuel t, moment? t with
      | some (s, rest), _ => some (.text s, rest)
      | none, some rest => some (.moment, rest)
      | none, none => (word? (t.takeWhile isWordPart)).map fun v => (v, t.dropWhile isWordPart)

/-- The rest of an array; a comma may follow its last item. -/
def arrayItems : Nat → Nat → Text → Option (List SettingValue × Text)
  | 0, _, _ => none
  | fuel + 1, room, t =>
    match skipLines false t with
    | ']' :: rest => some ([], rest)
    | t => do
      let (item, rest) ← value fuel room t
      match skipLines false rest with
      | ',' :: r =>
        let (items, rest) ← arrayItems fuel room r
        return (item :: items, rest)
      | ']' :: rest => return ([item], rest)
      | _ => none

/-- The rest of an inline table, which stands on one line. -/
def inlineEntries : Nat → Nat → Text → Option (SettingEntries × Text)
  | 0, _, _ => none
  | fuel + 1, room, t =>
    match t with
    | '}' :: rest => some ([], rest)
    | t => do
      let (pairs, rest) ← inlinePairs fuel room t
      let entries ← pairs.foldlM (fun entries (path, v) => SettingEntries.assign path v entries) []
      return (entries, rest)

def inlinePairs : Nat → Nat → Text → Option (List (List Text × SettingValue) × Text)
  | 0, _, _ => none
  | fuel + 1, room, t => do
    let (path, v, rest) ← keyValue fuel room t
    match skipSpace rest with
    | ',' :: r =>
      let (pairs, rest) ← inlinePairs fuel room (skipSpace r)
      return ((path, v) :: pairs, rest)
    | '}' :: rest => return ([(path, v)], rest)
    | _ => none

def keyValue : Nat → Nat → Text → Option (List Text × SettingValue × Text)
  | 0, _, _ => none
  | fuel + 1, room, t => do
    let (path, rest) ← dottedKey fuel maxDepth t
    match skipSpace rest with
    | '=' :: r =>
      let (v, rest) ← value fuel room (skipSpace r)
      return (path, v, rest)
    | _ => none

end

/-- One line with content, up to its end. -/
def line (fuel : Nat) (t : Text) : Option (SettingLine × Text) :=
  match t with
  | '[' :: '[' :: r => do
    let (path, rest) ← dottedKey fuel maxDepth (skipSpace r)
    match skipSpace rest with
    | ']' :: ']' :: rest => return (.arrayHeader path, rest)
    | _ => none
  | '[' :: r => do
    let (path, rest) ← dottedKey fuel maxDepth (skipSpace r)
    match skipSpace rest with
    | ']' :: rest => return (.header path, rest)
    | _ => none
  | t => do
    let (path, v, rest) ← keyValue fuel maxDepth t
    return (.assign path v, rest)

/-- The lines with content. Each step takes at least one character, so the length suffices; what
follows a character inside a line needs at most four steps more than there are characters. -/
def lines : Nat → Text → Option (List SettingLine)
  | 0, t => if t.isEmpty then some [] else none
  | fuel + 1, t =>
    match skipSpace t with
    | [] => some []
    | t =>
      match restOfLine t with
      | some next => lines fuel next
      | none => do
        let (content, rest) ← line (fuel + 5) t
        let next ← restOfLine rest
        let following ← lines fuel next
        return content :: following

end SettingReader

/-- The byte order mark, which may stand before a document. -/
def byteOrderMark : Char := '\uFEFF'

/-- The values of a document, or none if it is malformed. -/
def readSettings (document : Text) : Option (List (Text × SettingValue)) := do
  let document := Text.dropPrefix [byteOrderMark] document
  let lines ← SettingReader.lines document.length document
  let entries ← SettingEntries.ofLines lines
  return SettingEntries.toValues entries

end QueryWeaver
