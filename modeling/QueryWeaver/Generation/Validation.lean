import QueryWeaver.Access.Interface
import QueryWeaver.Database.Basic
import QueryWeaver.Statement.Projection
/-!
The check of a statement against the schema, and of the declared fields against its columns.
-/

namespace QueryWeaver

namespace Validation

/-- The columns of a statement, all declared fields among them; none when they are not known. -/
def matchFields (function : Text) (query : Query) (kind : StatementKind) (fields : List Field) :
    Except Error (Option ColumnMap) :=
  match Projection.columns? query.sql kind with
  | none => .ok none
  | some names =>
    match fields.find? fun f => !names.contains f.name with
    | some missing => .error (.missingField missing.name query.sql function)
    | none => .ok (some ⟨names⟩)

/-- One probe of the database, then the fields. -/
def validate {σ : Type} (db : Database σ) (function : Text) (query : Query) (kind : StatementKind)
    (fields : List Field) (s : σ) : Except Error (Option ColumnMap) × σ :=
  match db.explain query.sql s with
  | (.error e, s) => (.error e, s)
  | (.ok _, s) => (matchFields function query kind fields, s)

end Validation
end QueryWeaver
