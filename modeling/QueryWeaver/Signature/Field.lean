import QueryWeaver.Text.Basic
/-!
A type with a name: a declared result field, or a parameter of a statement.
-/

namespace QueryWeaver

structure Field where
  type : Text
  name : Text
  deriving DecidableEq, Repr

namespace Field

def rawMark : Text := "_raw"

/-- A raw field is known to exist and needs no wrapper. -/
def isRaw (f : Field) : Bool := rawMark.isSuffixOf f.type

def baseType (f : Field) : Text := Text.dropSuffix rawMark f.type

end Field
end QueryWeaver
