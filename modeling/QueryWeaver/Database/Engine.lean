import QueryWeaver.Database.Command
import QueryWeaver.Database.Row
/-!
What a session needs of a database engine, and how the engine's failures are classified.
-/

namespace QueryWeaver

/-- A failure of the engine. A failure of the database itself has a result code. -/
structure EngineFailure where
  code : Option Int
  message : Text
  deriving DecidableEq, Repr

namespace EngineFailure

def display (f : EngineFailure) : Text :=
  match f.code with
  | some code => "error returned from database: (code: " ++ Text.ofInt code ++ ") " ++ f.message
  | none => f.message

/-- The low byte of the result code; the bytes above it extend it. -/
def primary? (f : EngineFailure) : Option Int := f.code.map fun code => code % 256

/-- Busy, locked or a locking protocol failure: the same command may succeed later. -/
def isTransient (f : EngineFailure) : Bool :=
  f.primary? == some 5 || f.primary? == some 6 || f.primary? == some 15

/-- The command did not compile. -/
def isCompileFailure (f : EngineFailure) : Bool := f.primary? == some 1

end EngineFailure

structure Engine (σ : Type) where
  /-- Opens a database file, or a private one in memory, with a busy timeout. -/
  connect : Text → Nat → σ → Except EngineFailure Unit × σ
  execute : Command → σ → Except EngineFailure (List Row) × σ

end QueryWeaver
