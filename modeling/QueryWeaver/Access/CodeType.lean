import QueryWeaver.Signature.Field
/-!
Annotation types and their spellings in generated code.
-/

namespace QueryWeaver

namespace CodeType

def builtins : List Text :=
  ["string", "std::string", "blob", "int", "int64", "int64_t", "double", "bool", "void"]

def isBuiltin (type : Text) : Bool := builtins.contains type

/-- The spelling of a stored value; a raw mark is dropped. -/
def stored (type : Text) : Text :=
  let type := Text.dropSuffix Field.rawMark type
  if type = "string" ∨ type = "blob" then "std::string"
  else if type = "int64" then "int64_t"
  else type

/-- The spelling of a parameter: texts go by reference. -/
def parameter (type : Text) : Text :=
  if type = "string" ∨ type = "std::string" ∨ type = "blob" then "const std::string&"
  else stored type

def capitalize : Text → Text
  | [] => []
  | c :: r => c.toUpper :: r

/-- The record that holds an optional value of a type: `CondInt64` for `int64_t`. -/
def wrapper (type : Text) : Text :=
  let stem := Text.dropSuffix "_t" (Text.dropPrefix "std::" (Text.dropSuffix Field.rawMark type))
  "Cond" ++ capitalize (stem.filter fun c => c.isAlphanum || c == '_')

end CodeType
end QueryWeaver
