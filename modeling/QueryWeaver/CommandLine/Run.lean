import QueryWeaver.CommandLine.Host
import QueryWeaver.CommandLine.Options
import QueryWeaver.CommandLine.Path
import QueryWeaver.Database.Session
import QueryWeaver.Generation.ReportText
import QueryWeaver.Generation.Run
/-!
The command line. Nothing is written before both files are copied to their backups, and a file is
written only if its text changed.
-/

namespace QueryWeaver

/-- What a run prints and whether it succeeds. -/
structure Outcome where
  output : Text
  errors : Text
  success : Bool
  deriving DecidableEq, Repr

namespace CommandLine

variable {m : Type → Type} [Monad m] {σ : Type}

def printLine (t : Text) : Text := t ++ ['\n']

def pairs? : List Text → Option (List (Text × Text))
  | [] => some []
  | [_] => none
  | name :: path :: r => (pairs? r).map ((name, path) :: ·)

def headerPath (o : Options) : Text := o.header.getD (Path.withExtension "h" o.source)

def introduction (o : Options) : Text :=
  if o.verbose then printLine ("Source: " ++ o.source) ++ printLine ("Header: " ++ headerPath o)
  else []

/-- Runs a step of which a failure ends the run; `context` says what could not be done. -/
def orFail {α : Type} (context : Text) (step : m (Except Text α)) : ExceptT Text m α :=
  ExceptT.mk do return (← step).mapError fun cause => context ++ ": " ++ cause

def readInput (h : Host m σ) (path : Text) : ExceptT Text m Text :=
  orFail ("cannot read " ++ path) (h.readFile path)

def backupPath (path stamp : Text) : Text := path ++ "." ++ stamp ++ ".sqlgenbackup"

def backup (h : Host m σ) (path : Text) : ExceptT Text m Unit := do
  let target := backupPath path (← h.timeStamp)
  orFail ("cannot back up " ++ path ++ " to " ++ target) (h.copyFile path target)

def writeIfChanged (h : Host m σ) (path old new : Text) : ExceptT Text m Unit := do
  if old ≠ new then orFail ("cannot write " ++ path) (h.writeFile path new)

/-- Both backups come before the first write. -/
def save (h : Host m σ) (o : Options) (source header : Text) (result : Generation.Output) :
    ExceptT Text m Unit := do
  backup h o.source
  backup h (headerPath o)
  writeIfChanged h o.source source result.source
  writeIfChanged h (headerPath o) header result.header

/-- A run over the texts on a session of its own, and the state in which it leaves the engine. -/
def generate (engine : Engine σ) (start : σ) (settings : Settings) (o : Options)
    (attachments : List (Text × Text)) (source header : Text) :
    Except Error Generation.Output × σ :=
  match Session.start engine settings.connection o.database attachments start with
  | (.error e, session) => (.error e, session.state)
  | (.ok _, session) =>
    let (result, session) :=
      Generation.run (Session.database engine) settings.types source header session
    let (_, session) := session.detachAll engine
    (.ok result, session.state)

/-- Reads the files, generates, and saves unless the run is dry. -/
def perform (h : Host m σ) (settings : Settings) (o : Options)
    (attachments : List (Text × Text)) : ExceptT Text m Report := do
  let source ← readInput h o.source
  let header ← readInput h (headerPath o)
  let start ← ExceptT.lift (h.beginSession o.database (attachments.map Prod.snd))
  let (result, left) := generate h.engine start settings o attachments source header
  ExceptT.lift (h.endSession left)
  match result with
  | .error e => throw e.message
  | .ok result =>
    unless o.dryRun do save h o source header result
    return result.report

def errorLines (report : Report) : Text :=
  (report.warnings.flatMap fun w => printLine ("warning: " ++ w)) ++
    (report.failures.flatMap fun f => printLine ("ERROR " ++ f.function ++ ": " ++ f.message)) ++
    report.fileErrors.flatMap fun e => printLine ("Error: " ++ e)

def verdict (report : Report) (success : Bool) : Text :=
  if success then "SQLGen: Ok."
  else "SQLGen: Failed. " ++ Text.ofNat report.generated.length ++ " of " ++
    Text.ofNat report.attempted ++ " function(s) generated"

def generatedLines (report : Report) : Text :=
  report.generated.flatMap fun name => printLine ("  ✓ " ++ name)

def present (o : Options) (report : Report) : Outcome :=
  let success := report.isSuccess o.strict
  match o.format with
  | .json => ⟨introduction o ++ printLine report.pretty, [], success⟩
  | .text =>
    ⟨introduction o ++ (if o.verbose then generatedLines report else []) ++
      printLine (verdict report success), errorLines report, success⟩

def failed (printed cause : Text) : Outcome := ⟨printed, printLine ("Error: " ++ cause), false⟩

def unpaired : Text := "attachments must be given as `name path` pairs"

def run (h : Host m σ) (o : Options) : m Outcome := do
  match pairs? o.attach with
  | none => return failed [] unpaired
  | some attachments =>
    match ← h.loadSettings o.config with
    | .error e => return failed [] e.message
    | .ok settings =>
      match ← (perform h settings o attachments).run with
      | .error cause => return failed (introduction o) cause
      | .ok report => return present o report

def versionText : Text := "sqlgen 0.3.0"

def usageText : Text := "Usage: sqlgen [OPTIONS] <DATABASE> <SOURCE> [ATTACH]..."

end CommandLine
end QueryWeaver
