import QueryWeaver.Access.Shape
import QueryWeaver.Dictionary
/-!
The records that generated functions share. A record keeps the fields of its first use, and its
existence flag only turns on.
-/

namespace QueryWeaver

structure Record where
  name : Text
  /-- Stored types and names, in declaration order. -/
  fields : List Field
  hasExists : Bool
  deriving DecidableEq, Repr

namespace Record

def describe (fields : List Field) : Text :=
  Text.joinWith ", " (fields.map fun f => f.type ++ " " ++ f.name)

end Record

/-- The fields of the record a shape needs: a wrapper holds one value. -/
def Shape.recordFields (shape : Shape) (fields : List Field) : List Field :=
  match shape with
  | condScalar _ => (fields.take 1).map fun f => ⟨CodeType.stored f.type, "value"⟩
  | _ => fields.map fun f => ⟨CodeType.stored f.type, f.name⟩

abbrev Registry := Dictionary Record

namespace Registry

/-- Adds a record, or its existence flag to the record of the same name and fields. -/
def add (registry : Registry) (name : Text) (needsExists : Bool) (fields : List Field) :
    Except Error Registry :=
  match Dictionary.get? registry name with
  | none => .ok (Dictionary.insert registry name ⟨name, fields, needsExists⟩)
  | some known =>
    if known.fields = fields then
      .ok (Dictionary.insert registry name ⟨known.name, fields, known.hasExists || needsExists⟩)
    else .error (.recordConflict name (Record.describe known.fields) (Record.describe fields))

/-- Registers the record a shape needs, if any. -/
def register (registry : Registry) (shape : Shape) (fields : List Field) : Except Error Registry :=
  match shape.record? with
  | none => .ok registry
  | some (name, needsExists) => add registry name needsExists (shape.recordFields fields)

end Registry
end QueryWeaver
