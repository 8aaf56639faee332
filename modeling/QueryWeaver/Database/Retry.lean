import QueryWeaver.Database.Engine
import QueryWeaver.Error
import QueryWeaver.Settings.Basic
/-!
Execution of one command. A transient failure is retried under a longer busy timeout until the
attempts are used up; any other outcome ends the execution.
-/

namespace QueryWeaver

namespace Retry

variable {σ : Type}

def maxTimeoutMs : Nat := 120000

/-- The busy timeout after a number of attempts: doubled for each of the first eight. -/
def timeoutAfter (base attempt : Nat) : Nat := min (max base 50 <<< min attempt 8) maxTimeoutMs

def maxAttempts (settings : ConnectionSettings) : Nat := max settings.maxRetries.toNat 1

def baseTimeout (settings : ConnectionSettings) : Nat := settings.busyTimeoutMs.toNat

def setTimeout (engine : Engine σ) (ms : Nat) (s : σ) : Except Error Unit × σ :=
  let command := Command.setBusyTimeout ms
  match engine.execute command s with
  | (.ok _, s) => (.ok (), s)
  | (.error e, s) => (.error (.prepare command.sql e.display), s)

/-- The rows of a success; one that took more than one attempt sets the timeout back. -/
def succeed (engine : Engine σ) (base attempt : Nat) (rows : List Row) (s : σ) :
    Except Error (List Row) × σ :=
  if attempt ≤ 1 then (.ok rows, s)
  else
    let (result, s) := setTimeout engine base s
    (result.map fun _ => rows, s)

/-- The error of a failure that ends the execution. -/
def failure (command : Command) (attempt : Nat) (e : EngineFailure) : Error :=
  if e.isCompileFailure then .prepare command.sql e.message
  else .execution command.sql e.display attempt

/-- Attempt number `attempt`, with `left` more attempts allowed. -/
def attemptFrom (engine : Engine σ) (base : Nat) (command : Command) :
    (left attempt : Nat) → σ → Except Error (List Row) × σ
  | left, attempt, s =>
    match engine.execute command s with
    | (.ok rows, s) => succeed engine base attempt rows s
    | (.error e, s) =>
      match left with
      | 0 => (.error (failure command attempt e), s)
      | left + 1 =>
        if e.isTransient then
          let (_, s) := setTimeout engine (timeoutAfter base attempt) s
          attemptFrom engine base command left (attempt + 1) s
        else (.error (failure command attempt e), s)

def run (engine : Engine σ) (settings : ConnectionSettings) (command : Command) (s : σ) :
    Except Error (List Row) × σ :=
  attemptFrom engine (baseTimeout settings) command (maxAttempts settings - 1) 1 s

end Retry
end QueryWeaver
