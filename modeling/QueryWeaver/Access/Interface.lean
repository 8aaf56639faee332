import QueryWeaver.Access.Body
import QueryWeaver.Access.Record
import QueryWeaver.Statement.Placeholder
/-!
Generation of one function, and what the functions generated so far ask of the header: prototypes,
records and statement members.
-/

namespace QueryWeaver

/-- The projected column names of a statement, by position. -/
structure ColumnMap where
  names : List Text
  deriving DecidableEq, Repr

namespace ColumnMap

/-- The position of the first column of that name. -/
def indexOf? (columns : ColumnMap) (name : Text) : Option Nat :=
  columns.names.findIdx? fun n => n == name

end ColumnMap

structure Prototype where
  returnType : Text
  method : Text
  params : List Field
  deriving DecidableEq, Repr

/-- What the header has to declare. -/
structure Interface where
  /-- One per generated function, in order. -/
  prototypes : List Prototype
  records : Registry
  /-- Statement members in order of first use. -/
  members : List Text

namespace Interface

def empty : Interface := ⟨[], Dictionary.empty, []⟩

def renderPrototype (layout : Layout) (p : Prototype) : Text :=
  layout.line 1 (p.returnType ++ " " ++ p.method ++ "(" ++ renderParams p.params ++ ");")

def renderRecord (layout : Layout) (r : Record) : Text :=
  layout.line 1 ("struct " ++ r.name) ++ layout.line 1 ['{'] ++
    (if r.hasExists then layout.line 2 "bool exists;" else []) ++
    (r.fields.flatMap fun f => layout.line 2 (f.type ++ " " ++ f.name ++ ";")) ++
    layout.line 1 ['}', ';']

def renderMember (layout : Layout) (member : Text) : Text :=
  layout.line 1 (layout.queryType ++ " " ++ member ++ ";")

def declarationText (layout : Layout) (i : Interface) : Text :=
  i.prototypes.flatMap (renderPrototype layout)

/-- The records in name order. -/
def recordText (layout : Layout) (records : Registry) : Text :=
  (Dictionary.values records).flatMap (renderRecord layout)

def memberText (layout : Layout) (i : Interface) : Text :=
  i.members.flatMap (renderMember layout)

def addMember (members : List Text) (member : Text) : List Text :=
  if members.contains member then members else members ++ [member]

end Interface

/-- A data-access function to generate. Without columns it reads by name. -/
structure Access where
  signature : Signature
  fields : List Field
  query : Query
  shape : Shape
  columns : Option ColumnMap

namespace Access

def member (a : Access) : Text := '_' :: a.signature.method

/-- One parameter per placeholder name, as its first occurrence types it. -/
def distinctParams (params : List Field) : List Field :=
  params.foldl (fun seen p => if seen.any (·.name == p.name) then seen else seen ++ [p]) []

def params (a : Access) : List Field :=
  (distinctParams a.query.params).map fun p => ⟨CodeType.parameter p.type, p.name⟩

def column (a : Access) (name : Text) : ColumnRef :=
  match a.columns.bind (·.indexOf? name) with
  | some position => .index position
  | none => .named name

def firstColumn (a : Access) : Option ColumnRef := a.fields.head?.map fun f => a.column f.name

/-- Reads every field into the field of that name. -/
def readFields (a : Access) (object : Text) : List RowStep :=
  a.fields.map fun f => .read (some (a.column f.name)) (object ++ "." ++ f.name)

/-- What happens between the binds and the reset. `flagged` says that the record of a collection
has an existence flag. -/
def transfer (a : Access) (flagged : Bool) : List BodyStep :=
  let scope := a.signature.scopePrefix
  let type := a.shape.returnType scope
  match a.shape with
  | .mutation true => [.writeResult]
  | .mutation false => [.write]
  | .recordCollection record =>
    [.openCursor, .declareResult type false, .eachRow <|
      [.append, .nameLast (scope ++ record)] ++ (if flagged then [.markExists "obj"] else []) ++
        a.readFields "obj"]
  | .scalarCollection _ =>
    [.openCursor, .declareResult type false, .eachRow [.append, .read a.firstColumn "ret.back()"]]
  | .optional _ =>
    [.openCursor, .declareResult type false, .firstRow [.engage, .read a.firstColumn "*ret"]]
  | .rawScalar _ =>
    [.openCursor, .declareResult type true, .firstRow [.read a.firstColumn "ret"]]
  | .condScalar _ =>
    [.openCursor, .declareResult type true,
      .firstRow [.markExists "ret", .read a.firstColumn "ret.value"]]
  | .condRecord _ =>
    [.openCursor, .declareResult type true, .firstRow (.markExists "ret" :: a.readFields "ret")]

def returnsValue (a : Access) : Bool := a.shape != .mutation false

/-- Whether the record of a collection has an existence flag by now. -/
def flagged (records : Registry) : Shape → Bool
  | .recordCollection record => ((Dictionary.get? records record).map Record.hasExists).getD false
  | _ => false

def function (a : Access) (records : Registry) : GeneratedFunction where
  returnType := a.shape.returnType a.signature.scopePrefix
  qualifiedName := a.signature.qualifiedName
  params := a.params
  member := a.member
  body :=
    [.prepare a.query.sql] ++ a.query.params.map .bind ++ a.transfer (flagged records a.shape) ++
      (if a.query.params.isEmpty then [] else [.reset]) ++
      (if a.returnsValue then [.returnResult] else [])

def prototype (a : Access) : Prototype := ⟨a.shape.returnType [], a.signature.method, a.params⟩

/-- Generates the function and extends the interface. A record conflict changes nothing. -/
def generate (a : Access) (i : Interface) : Except Error (GeneratedFunction × Interface) := do
  let records ← Registry.register i.records a.shape a.fields
  return (a.function records,
    ⟨i.prototypes ++ [a.prototype], records, Interface.addMember i.members a.member⟩)

end Access
end QueryWeaver
