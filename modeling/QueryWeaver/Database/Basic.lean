import QueryWeaver.Database.Row
import QueryWeaver.Error
/-!
The two calls that generation makes to a database, over a state that each call may change.
-/

namespace QueryWeaver

structure Database (σ : Type) where
  /-- Executes statements and discards their rows. -/
  write : Text → σ → Except Error Unit × σ
  /-- Executes a statement and gives its rows as text. -/
  read : Text → σ → Except Error (List Row) × σ

inductive Call where
  | write (sql : Text)
  | read (sql : Text)
  deriving DecidableEq, Repr

namespace Database

variable {σ : Type}

def explainPrefix : Text := "EXPLAIN "

/-- Fails when the statement does not compile against the current schema. -/
def explain (db : Database σ) (sql : Text) (s : σ) : Except Error Unit × σ :=
  let (result, s) := db.read (explainPrefix ++ sql) s
  (result.map fun _ => (), s)

/-- The same database with the calls made so far beside its state. -/
def logged (db : Database σ) : Database (σ × List Call) where
  write sql s :=
    let (result, next) := db.write sql s.1
    (result, next, s.2 ++ [.write sql])
  read sql s :=
    let (result, next) := db.read sql s.1
    (result, next, s.2 ++ [.read sql])

end Database
end QueryWeaver
