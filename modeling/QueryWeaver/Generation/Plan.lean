import QueryWeaver.Access.Shape
import QueryWeaver.Annotation.Segment
import QueryWeaver.Signature.Fields
import QueryWeaver.Statement.Placeholder
import QueryWeaver.Statement.Projection
/-!
What a block asks for, read from its annotations without a database.
-/

namespace QueryWeaver

structure Plan where
  signature : Signature
  fields : List Field
  query : Query
  kind : StatementKind
  shape : Shape

namespace Plan

def unnamed : Text := "<unnamed>"

def missingSql : Text := "@sql is missing"

def unclosedBody : Text :=
  "function body following the annotation is not closed before the next comment"

/-- A value that must be there, or the reason it is missed. -/
def require {α : Type} (error : Error) : Option α → Except Error α
  | some value => .ok value
  | none => .error error

/-- The first fault decides: the signature, an open body, the fields, the statement, the shape. -/
def ofBlock (block : Block) : Except Error Plan := do
  let func ← require (.invalidBlock unnamed "@func is missing")
    (Dictionary.get? block.annotations "func")
  let signature ← Signature.parse func
  let function := signature.qualifiedName
  if block.unclosed then .error (.invalidBlock function unclosedBody)
  let fields ← Field.parseList ((Dictionary.get? block.annotations "return").getD [])
  let sql ← require (.invalidBlock function missingSql) (block.annotations.nonempty? "sql")
  let query := Placeholder.replaceAll sql
  let shape ← Shape.infer signature fields
  return ⟨signature, fields, query, .classify query.sql, shape⟩

def function (p : Plan) : Text := p.signature.qualifiedName

/-- A shape that reads rows needs a statement that gives some. -/
def warnings (p : Plan) : List Text :=
  if p.shape.readsRows && !p.kind.returnsRows p.query.sql then
    [p.function ++ ": " ++ p.kind.name ++ " statement does not return rows"]
  else []

end Plan
end QueryWeaver
