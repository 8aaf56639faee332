import QueryWeaver.Text.Basic
/-!
Result rows: column names with text values, in column order. A name may occur more than once.
-/

namespace QueryWeaver

structure Row where
  columns : List (Text × Text)
  deriving DecidableEq, Repr

inductive RowError where
  | noColumn (name : Text)
  deriving DecidableEq, Repr

namespace RowError

def message : RowError → Text
  | noColumn name => "no column named '" ++ name ++ "' in row"

end RowError

namespace Row

def empty : Row := ⟨[]⟩

def push (row : Row) (name value : Text) : Row := ⟨row.columns ++ [(name, value)]⟩

def size (row : Row) : Nat := row.columns.length

/-- The value of the first column of that name. -/
def get? (row : Row) (name : Text) : Option Text :=
  (row.columns.find? fun column => column.1 == name).map Prod.snd

def get (row : Row) (name : Text) : Except RowError Text :=
  match row.get? name with
  | some value => .ok value
  | none => .error (.noColumn name)

end Row
end QueryWeaver
