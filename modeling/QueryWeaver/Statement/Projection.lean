import QueryWeaver.Statement.ColumnName
import QueryWeaver.Statement.Kind
/-!
The columns a statement gives: the list after `SELECT`, or after the `RETURNING` of a statement
that changes rows.
-/

namespace QueryWeaver

namespace Projection

/-- The keywords that end a column list. -/
def endKeywords : List Text :=
  ["from", "where", "group", "having", "order", "limit", "union", "intersect", "except", "window"]

/-- The byte after `SELECT`, and after a `DISTINCT` or `ALL` that directly follows it. -/
def selectStart (words : List Word) : Option Nat :=
  match words.dropWhile fun w => !w.isTop "select" with
  | [] => none
  | [select] => some select.stop
  | select :: next :: _ =>
    if next.isTop "distinct" || next.isTop "all" then some next.stop else some select.stop

def returningStart (words : List Word) : Option Nat :=
  (words.find? fun w => w.isTop "returning").map Word.stop

def start? (kind : StatementKind) (words : List Word) : Option Nat :=
  if kind = .select then selectStart words
  else if kind.isDml then returningStart words
  else none

def isEnd (w : Word) : Bool := w.depth == 0 && w.text.isOneOf endKeywords

/-- The byte range of the column list. -/
def range? (sql : Text) (kind : StatementKind) : Option (Nat × Nat) := do
  let words := Word.ofText sql
  let start ← start? kind words
  let stop := (words.find? fun w => start ≤ w.start && isEnd w).map Word.start
  return (start, stop.getD (Text.size sql))

/-- The column list without the blanks and semicolons around it. -/
def text? (sql : Text) (kind : StatementKind) : Option Text := do
  let (start, stop) ← range? sql kind
  return Text.trim (Text.trimEnd (· == ';') (Text.trim (Text.slice sql start stop)))

def isWildcard (part : Text) : Bool := part == ['*'] || List.isSuffixOf ['.', '*'] part

/-- The names of the columns in order; none when there is no column list or a wildcard in it. -/
def columns? (sql : Text) (kind : StatementKind) : Option (List Text) := do
  let text ← text? sql kind
  if text.isEmpty then none
  else
    let parts := topLevelParts text
    if parts.any isWildcard then none else some (parts.map ColumnName.ofExpression)

end Projection

/-- Whether a statement can give rows at all. -/
def StatementKind.returnsRows (kind : StatementKind) (sql : Text) : Bool :=
  kind = .select || kind = .other || (kind.isDml && (Projection.text? sql kind).isSome)

end QueryWeaver
