import QueryWeaver.Text.Basic
/-!
The report of a run, and when a run counts as successful.
-/

namespace QueryWeaver

/-- A block that was left as it was. -/
structure BlockFailure where
  function : Text
  message : Text
  deriving DecidableEq, Repr

structure Report where
  /-- Qualified names of the generated functions, in file order. -/
  generated : List Text
  /-- Number of blocks that ask for a function. -/
  attempted : Nat
  failures : List BlockFailure
  /-- Problems that left a whole file as it was. -/
  fileErrors : List Text
  warnings : List Text
  deriving DecidableEq, Repr

namespace Report

def empty : Report := ⟨[], 0, [], [], []⟩

/-- A file error always fails a run. A block failure fails it when `strict`, or when no function
was generated though some were asked for. -/
def isSuccess (r : Report) (strict : Bool) : Bool :=
  if !r.fileErrors.isEmpty then false
  else if strict then r.failures.isEmpty
  else r.attempted == 0 || !r.generated.isEmpty

def attempt (r : Report) : Report := { r with attempted := r.attempted + 1 }

def generate (r : Report) (name : Text) : Report := { r with generated := r.generated ++ [name] }

def fail (r : Report) (function message : Text) : Report :=
  { r with failures := r.failures ++ [⟨function, message⟩] }

def failFile (r : Report) (message : Text) : Report :=
  { r with fileErrors := r.fileErrors ++ [message] }

def warn (r : Report) (warnings : List Text) : Report :=
  { r with warnings := r.warnings ++ warnings }

end Report
end QueryWeaver
