import QueryWeaver.Settings.Value
/-!
A settings document as a tree of tables. A key is given once, a table has one header, and a table
made by dotted keys has none.
-/

namespace QueryWeaver

/-- How a table came to be: by its header, by the header of a table in it, or by a dotted key. -/
inductive TableOrigin where
  | header
  | implied
  | dotted
  deriving DecidableEq

inductive SettingNode where
  | value (v : SettingValue)
  | table (origin : TableOrigin) (entries : List (Text × SettingNode))
  | tables (items : List (List (Text × SettingNode)))

abbrev SettingEntries := List (Text × SettingNode)

namespace SettingEntries

def find? (key : Text) (entries : SettingEntries) : Option SettingNode :=
  (List.find? (fun e => e.1 == key) entries).map Prod.snd

/-- Replaces the node of a key, or appends one. -/
def put (key : Text) (node : SettingNode) : SettingEntries → SettingEntries
  | [] => [(key, node)]
  | (k, n) :: r => if k = key then (key, node) :: r else (k, n) :: put key node r

/-- Changes the table that a node stands for: of several the last one. -/
def alter (f : SettingEntries → Option SettingEntries) : SettingNode → Option SettingNode
  | .value _ => none
  | .table origin entries => (f entries).map (.table origin)
  | .tables items =>
    match items.getLast? with
    | none => none
    | some last => (f last).map fun changed => .tables (items.dropLast ++ [changed])

/-- Changes the table at a path, making the tables on the way that are not there. -/
def within (f : SettingEntries → Option SettingEntries) :
    List Text → SettingEntries → Option SettingEntries
  | [], entries => f entries
  | key :: path, entries => do
    let node ← alter (within f path) ((find? key entries).getD (.table .implied []))
    return put key node entries

def openTable (key : Text) (entries : SettingEntries) : Option SettingEntries :=
  match find? key entries with
  | none => some (put key (.table .header []) entries)
  | some (.table .implied inner) => some (put key (.table .header inner) entries)
  | some _ => none

def openArray (key : Text) (entries : SettingEntries) : Option SettingEntries :=
  match find? key entries with
  | none => some (put key (.tables [[]]) entries)
  | some (.tables items) => some (put key (.tables (items ++ [[]])) entries)
  | some _ => none

def isDotted : SettingNode → Bool
  | .table .dotted _ => true
  | _ => false

def hasHeader : SettingNode → Bool
  | .table .header _ => true
  | _ => false

/-- Gives a dotted key its value. The table that receives it must be made by dotted keys, unless
the key has one part, and none on the way may have a header. -/
def assign : List Text → SettingValue → SettingEntries → Option SettingEntries
  | [], _, _ => none
  | [key], v, entries =>
    match find? key entries with
    | none => some (put key (.value v) entries)
    | some _ => none
  | key :: next :: path, v, entries => do
    let node := (find? key entries).getD (.table .dotted [])
    if hasHeader node || (path.isEmpty && !isDotted node) then none
    else
      let changed ← alter (assign (next :: path) v) node
      return put key changed entries

/-- Splits a path before its last part. -/
def onLast (path : List Text) (f : Text → SettingEntries → Option SettingEntries)
    (entries : SettingEntries) : Option SettingEntries :=
  match path.getLast? with
  | none => none
  | some key => within (f key) path.dropLast entries

/-- Adds the lines to the document; `current` is the path of the table that assignments go to. -/
def addLines (current : List Text) : List SettingLine → SettingEntries → Option SettingEntries
  | [], entries => some entries
  | .header path :: r, entries => do addLines path r (← onLast path openTable entries)
  | .arrayHeader path :: r, entries => do addLines path r (← onLast path openArray entries)
  | .assign path v :: r, entries => do addLines current r (← within (assign path v) current entries)

def ofLines (lines : List SettingLine) : Option SettingEntries := addLines [] lines []

mutual

def nodeValue : SettingNode → SettingValue
  | .value v => v
  | .table _ entries => .table (toValues entries)
  | .tables items => .array (itemValues items)

def itemValues : List (List (Text × SettingNode)) → List SettingValue
  | [] => []
  | entries :: r => .table (toValues entries) :: itemValues r

def toValues : List (Text × SettingNode) → List (Text × SettingValue)
  | [] => []
  | (key, node) :: r => (key, nodeValue node) :: toValues r

end

end SettingEntries
end QueryWeaver
