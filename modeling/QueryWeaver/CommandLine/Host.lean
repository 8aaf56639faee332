import QueryWeaver.Database.Engine
import QueryWeaver.Error
import QueryWeaver.Settings.Basic
/-!
What the command line asks of the machine it runs on, and the search for the settings file.
-/

namespace QueryWeaver

/-- Effects in a monad, and a database engine with its states. A failure is the machine's text for
it. -/
structure Host (m : Type → Type) (σ : Type) where
  readFile : Text → m (Except Text Text)
  isFile : Text → m Bool
  writeFile : Text → Text → m (Except Text Unit)
  /-- Copies a file to a path. -/
  copyFile : Text → Text → m (Except Text Unit)
  /-- The path of the user's settings file, which need not exist. -/
  userSettings : m (Option Text)
  timeStamp : m Text
  engine : Engine σ
  /-- The state of the engine before a session with a database, and with others attached to it. -/
  beginSession : Text → List Text → m σ
  /-- Puts the files into the state in which a session leaves them. -/
  endSession : σ → m Unit

namespace Host

variable {m : Type → Type} [Monad m] {σ : Type}

def localSettings : Text := "sqlgen.toml"

def settingsFrom (h : Host m σ) (path : Text) : m (Except Error Settings) := do
  match ← h.readFile path with
  | .error cause => return .error (.settings ("cannot read " ++ path ++ ": " ++ cause))
  | .ok document =>
    match Settings.parse? document with
    | some settings => return .ok settings
    | none => return .error (.settings path)

/-- The explicit file, else the one in the current directory, else the user's, else defaults. -/
def loadSettings (h : Host m σ) (explicit : Option Text) : m (Except Error Settings) := do
  match explicit with
  | some path => h.settingsFrom path
  | none =>
    if ← h.isFile localSettings then h.settingsFrom localSettings
    else
      match ← h.userSettings with
      | none => return .ok .standard
      | some path => if ← h.isFile path then h.settingsFrom path else return .ok .standard

end Host
end QueryWeaver
