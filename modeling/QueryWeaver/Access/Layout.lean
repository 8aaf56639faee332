import QueryWeaver.Text.Basic
/-!
The layout of generated code: indent, line terminator, and the types of statements and cursors.
-/

namespace QueryWeaver

/-- The types that generated code works with. -/
structure Collaborators where
  queryType : Text
  cursorType : Text
  deriving DecidableEq, Repr

def Collaborators.standard : Collaborators := ⟨"sqlgen::DatabaseQuery", "sqlgen::DatabaseCursor"⟩

structure Layout where
  indent : Text
  newline : Text
  queryType : Text
  cursorType : Text
  deriving DecidableEq, Repr

namespace Layout

def tab : Text := ['\t']

def spaces (n : Nat) : Text := List.replicate n ' '

def lf : Text := ['\n']

def crlf : Text := ['\r', '\n']

def standard : Layout :=
  ⟨tab, crlf, Collaborators.standard.queryType, Collaborators.standard.cursorType⟩

/-- The layout a source already uses: four spaces if it has no tab, a line feed if it has no
carriage return with a line feed. -/
def sniff (source : Text) (types : Collaborators) : Layout :=
  ⟨if source.any (· == '\t') then tab else spaces 4, if Text.contains crlf source then crlf else lf,
    types.queryType, types.cursorType⟩

def indentation (layout : Layout) : Nat → Text
  | 0 => []
  | depth + 1 => layout.indent ++ layout.indentation depth

def line (layout : Layout) (depth : Nat) (text : Text) : Text :=
  layout.indentation depth ++ text ++ layout.newline

end Layout
end QueryWeaver
