import QueryWeaver.Access.CodeType
import QueryWeaver.Signature.Basic
/-!
The shape of a function: how its result is built from rows, decided by the declared return type and
the result fields.
-/

namespace QueryWeaver

inductive Shape where
  /-- One record per row. -/
  | recordCollection (record : Text)
  /-- One value per row. -/
  | scalarCollection (type : Text)
  /-- A value that is absent when no row matched. -/
  | optional (type : Text)
  /-- A write, whose outcome may be returned. -/
  | mutation (returnsBool : Bool)
  /-- A value that is known to exist. -/
  | rawScalar (type : Text)
  /-- A value with an existence flag. -/
  | condScalar (record : Text)
  /-- A record with an existence flag. -/
  | condRecord (record : Text)
  deriving DecidableEq, Repr

namespace Shape

def readsRows : Shape → Bool
  | mutation _ => false
  | _ => true

/-- The record a shape needs, and whether it needs the existence flag. -/
def record? : Shape → Option (Text × Bool)
  | recordCollection record => some (record, false)
  | condScalar record => some (record, true)
  | condRecord record => some (record, true)
  | _ => none

/-- The type of the result; `scope` qualifies records outside the class body. -/
def returnType (scope : Text) : Shape → Text
  | recordCollection record => "std::vector<" ++ scope ++ record ++ ">"
  | scalarCollection type => "std::vector<" ++ type ++ ">"
  | optional type => "std::optional<" ++ type ++ ">"
  | mutation true => "bool"
  | mutation false => "void"
  | rawScalar type => type
  | condScalar record => scope ++ record
  | condRecord record => scope ++ record

/-- A record cannot take the name of a builtin type. -/
def recordName (function type : Text) : Except Error Text :=
  if CodeType.isBuiltin type then
    .error (.invalidBlock function
      ("'" ++ type ++ "' cannot hold multiple @return fields, declare a record type"))
  else .ok type

def missingReturn (function : Text) : Error := .invalidBlock function "@return is missing"

def inferCollection (function inner : Text) : List Field → Except Error Shape
  | [] => .error (missingReturn function)
  | [field] => .ok (scalarCollection (CodeType.stored field.type))
  | _ => (recordName function inner).map recordCollection

def inferOptional (function : Text) : List Field → Except Error Shape
  | [field] => .ok (optional (CodeType.stored field.type))
  | fields => .error (.invalidBlock function
      ("optional return needs exactly one @return field, found " ++ Text.ofNat fields.length))

def inferPlain (function type : Text) (fields : List Field) : Except Error Shape :=
  if Text.sameLetters type "void" then .ok (mutation false)
  else if Text.sameLetters type "bool" then .ok (mutation true)
  else match fields with
    | [] => .error (missingReturn function)
    | [field] =>
      if field.isRaw then .ok (rawScalar (CodeType.stored field.type))
      else .ok (condScalar (CodeType.wrapper field.type))
    | _ => (recordName function type).map condRecord

def infer (signature : Signature) (fields : List Field) : Except Error Shape :=
  let function := signature.qualifiedName
  match signature.returnType with
  | .collection inner => inferCollection function inner fields
  | .optional _ => inferOptional function fields
  | .plain type => inferPlain function type fields

end Shape
end QueryWeaver
