import QueryWeaver.Access.Layout
import QueryWeaver.Signature.Field
/-!
Generated functions as data, and their text. A function prepares its statement once, binds a value
per placeholder, reads or writes, and returns.
-/

namespace QueryWeaver

/-- A column of a cursor, by position or by name. -/
inductive ColumnRef where
  | index (position : Nat)
  | named (name : Text)
  deriving DecidableEq, Repr

/-- What a function does with one row. -/
inductive RowStep where
  | append
  | engage
  | nameLast (type : Text)
  | markExists (object : Text)
  /-- Reads a column into a target; without fields there is no column to name. -/
  | read (column : Option ColumnRef) (target : Text)
  deriving DecidableEq, Repr

inductive BodyStep where
  | prepare (sql : Text)
  | bind (param : Field)
  | openCursor
  | declareResult (type : Text) (zeroed : Bool)
  | eachRow (steps : List RowStep)
  | firstRow (steps : List RowStep)
  | write
  | writeResult
  | reset
  | returnResult
  deriving DecidableEq, Repr

structure GeneratedFunction where
  returnType : Text
  qualifiedName : Text
  params : List Field
  /-- The variable that keeps the prepared statement. -/
  member : Text
  body : List BodyStep
  deriving DecidableEq, Repr

namespace ColumnRef

def render : ColumnRef → Text
  | index position => Text.ofNat position
  | named name => "\"" ++ name ++ "\""

end ColumnRef

/-- The inside of a string literal that stands for `t`. -/
def escapeLiteral (t : Text) : Text :=
  t.flatMap fun c =>
    if c = '\\' then ['\\', '\\']
    else if c = '"' then ['\\', '"']
    else if c = '\n' then ['\\', 'n']
    else if c = '\r' then ['\\', 'r']
    else if c = '\t' then ['\\', 't']
    else [c]

namespace RowStep

def render : RowStep → Text
  | append => "ret.emplace_back();"
  | engage => "ret.emplace();"
  | nameLast type => type ++ "& obj=ret.back();"
  | markExists object => object ++ ".exists=true;"
  | read column target =>
    "cursor.get(" ++ (column.map ColumnRef.render).getD [] ++ ", " ++ target ++ ");"

end RowStep

namespace BodyStep

def renderRows (layout : Layout) (head : Text) (steps : List RowStep) : Text :=
  layout.line 1 head ++ layout.line 1 ['{'] ++
    (steps.flatMap fun s => layout.line 2 s.render) ++ layout.line 1 ['}']

def renderBind (member : Text) (param : Field) : Text :=
  if param.type = "blob" then
    member ++ ".bind(" ++ param.name ++ ".data(), " ++ param.name ++ ".size());"
  else member ++ ".bind(" ++ param.name ++ ");"

def render (layout : Layout) (member : Text) : BodyStep → Text
  | prepare sql =>
    layout.line 1 ("if(!" ++ member ++ ".prepared())") ++ layout.line 1 ['{'] ++
      layout.line 2 (member ++ "=db.prepare(\"" ++ escapeLiteral sql ++ "\");") ++
      layout.line 1 ['}']
  | bind param => layout.line 1 (renderBind member param)
  | openCursor => layout.line 1 (layout.cursorType ++ "& cursor=" ++ member ++ ".cursor();")
  | declareResult type zeroed =>
    layout.line 1 (type ++ " ret" ++ (if zeroed then ['{', '}', ';'] else [';']))
  | eachRow steps => renderRows layout "while(cursor.next())" steps
  | firstRow steps => renderRows layout "if(cursor.next())" steps
  | write => layout.line 1 (member ++ ".write();")
  | writeResult => layout.line 1 ("bool ret=" ++ member ++ ".write();")
  | reset => layout.line 1 (member ++ ".reset();")
  | returnResult => layout.line 1 "return ret;"

end BodyStep

def renderParams (params : List Field) : Text :=
  Text.joinWith ", " (params.map fun p => p.type ++ " " ++ p.name)

namespace GeneratedFunction

/-- The text after the annotated comment: it begins with a line terminator and ends in the closing
brace. -/
def render (layout : Layout) (f : GeneratedFunction) : Text :=
  layout.newline ++ f.returnType ++ " " ++ f.qualifiedName ++ "(" ++ renderParams f.params ++ ")" ++
    layout.newline ++ ['{'] ++ layout.newline ++
    (f.body.flatMap fun s => s.render layout f.member) ++ ['}']

end GeneratedFunction
end QueryWeaver
