import QueryWeaver.Signature.Spelling
/-!
The signature of a function: its return type, the class it belongs to and its name.
-/

namespace QueryWeaver

inductive ReturnType where
  | plain (type : Text)
  | collection (inner : Text)
  | optional (inner : Text)
  deriving DecidableEq, Repr

namespace ReturnType

/-- The trimmed inner text of `wrapper<...>`, with or without the standard namespace in front. -/
def unwrap (wrapper type : Text) : Option Text := do
  let inner ← List.isPrefixOf? wrapper (Text.dropPrefix "std::" type)
  let inner ← List.isSuffixOf? ['>'] inner
  return Text.trim inner

def ofText (type : Text) : ReturnType :=
  match unwrap "vector<" type with
  | some inner => collection inner
  | none =>
    match unwrap "optional<" type with
    | some inner => optional inner
    | none => plain type

end ReturnType

structure Signature where
  returnType : ReturnType
  /-- The enclosing class, with its own scopes. -/
  enclosing : Option Text
  method : Text
  deriving DecidableEq, Repr

namespace Signature

def scopeMark : Text := "::"

def qualifiedName (s : Signature) : Text :=
  match s.enclosing with
  | some scope => scope ++ scopeMark ++ s.method
  | none => s.method

/-- What qualifies a type of the enclosing class outside its body. -/
def scopePrefix (s : Signature) : Text :=
  match s.enclosing with
  | some scope => scope ++ scopeMark
  | none => []

/-- The parts of a qualified name, cut at each double colon from the left. -/
def nameParts : Text → List Text
  | [] => [[]]
  | ':' :: ':' :: r => [] :: nameParts r
  | c :: r =>
    match nameParts r with
    | [] => [[c]]
    | p :: ps => (c :: p) :: ps

def isQualifiedName (t : Text) : Bool := (nameParts t).all Spelling.isIdentifier

def ofName (type name : Text) : Signature :=
  match Text.cutLast scopeMark name with
  | some (scope, method) => ⟨.ofText type, some scope, method⟩
  | none => ⟨.ofText type, none, name⟩

def parse? (func : Text) : Option Signature := do
  let (type, rest) ← Spelling.typeThen? (func.dropWhile isSpacing)
  let name := Text.dropSuffix "()" (Text.trimEnd isSpacing rest)
  if isQualifiedName name then some (ofName type name) else none

/-- Reads `<type> [Class::]method`, with an optional `()` after it. -/
def parse (func : Text) : Except Error Signature := do
  Spelling.checkAngles func
  match parse? func with
  | some s => .ok s
  | none =>
    .error (.invalidBlock func "malformed @func, expected '<returnType> [Class::]method'")

end Signature
end QueryWeaver
