import QueryWeaver.CommandLine.Run
import QueryWeaver.Database.MemoryEngine
import Std.Time
/-!
The program: the command line on the files of the machine it runs on.
-/

namespace QueryWeaver

namespace Machine

def string (t : Text) : String := String.ofList t

/-- The machine's text for a failure. -/
def failureText : IO.Error → Text
  | .noFileOrDirectory .. => "No such file or directory (os error 2)"
  | .permissionDenied .. => "Permission denied (os error 13)"
  | .inappropriateType .. => "Is a directory (os error 21)"
  | e => e.toString.toList

def attempt {α : Type} (action : IO α) : IO (Except Text α) := do
  try return .ok (← action)
  catch e => return .error (failureText e)

def succeeds {α : Type} (action : IO α) : IO Bool := return (← attempt action).isOk

def readFile (path : Text) : IO Text := return (← IO.FS.readFile (string path)).toList

/-- The user's settings directory, as the environment gives it. -/
def settingsDirectory : IO (Option String) := do
  match ← IO.getEnv "XDG_CONFIG_HOME" with
  | some directory => return some directory
  | none => return (← IO.getEnv "HOME").map fun home => home ++ "/.config"

def timeStamp : IO Text := return ((← Std.Time.PlainDateTime.now).format "uuuuMMdd-HHmmss").toList

/-- Whether a file can be made is found out by making it. -/
def databaseFile (path : Text) : IO DatabaseFile := do
  let path := string (Location.normal path)
  if ← succeeds (IO.FS.Handle.mk path .readWrite) then return .empty
  if ← succeeds (IO.FS.Handle.mk path .writeNew) then
    IO.FS.removeFile path
    return .absent
  return .unopenable

def createDatabase (path : Text) : IO Unit := do
  let _ ← IO.FS.Handle.mk (string (Location.normal path)) .append

def beginSession (database : Text) (attached : List Text) : IO MemoryEngine := do
  let files ← (Location.sessionFiles database attached).mapM fun path => do
    return (path, ← databaseFile path)
  return .fresh files

def host : Host IO MemoryEngine where
  readFile path := attempt (readFile path)
  isFile path := succeeds (readFile path)
  writeFile path text := attempt (IO.FS.writeFile (string path) (string text))
  copyFile path target := attempt do
    IO.FS.writeBinFile (string target) (← IO.FS.readBinFile (string path))
  userSettings := return (← settingsDirectory).map fun d => d.toList ++ "/sqlgen/config.toml"
  timeStamp := timeStamp
  engine := MemoryEngine.engine
  beginSession := beginSession
  endSession left := left.opened.forM createDatabase

end Machine

/-- Runs the command line and gives its exit code. -/
def execute (arguments : List Text) : IO UInt32 := do
  match Invocation.ofArguments arguments with
  | .version => IO.println (Machine.string CommandLine.versionText); return 0
  | .help => IO.println (Machine.string CommandLine.usageText); return 0
  | .rejected => IO.eprintln (Machine.string CommandLine.usageText); return 2
  | .run options =>
    let outcome ← CommandLine.run Machine.host options
    IO.print (Machine.string outcome.output)
    IO.eprint (Machine.string outcome.errors)
    return if outcome.success then 0 else 1

end QueryWeaver

def main (arguments : List String) : IO UInt32 :=
  QueryWeaver.execute (arguments.map String.toList)
