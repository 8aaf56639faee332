import QueryWeaver.Database.Basic
import QueryWeaver.Database.Retry
/-!
A session on an engine: opened with its settings applied and its databases attached, it answers the
calls of a generation run.
-/

namespace QueryWeaver

structure Session (σ : Type) where
  state : σ
  settings : ConnectionSettings
  /-- Names and paths of the attached databases, in order. -/
  attached : List (Text × Text)

namespace Session

variable {σ : Type}

def execute (engine : Engine σ) (command : Command) (s : Session σ) :
    Except Error (List Row) × Session σ :=
  let (result, state) := Retry.run engine s.settings command s.state
  (result, { s with state := state })

def perform (engine : Engine σ) (command : Command) (s : Session σ) :
    Except Error Unit × Session σ :=
  let (result, s) := execute engine command s
  (result.map fun _ => (), s)

/-- Performs steps in order up to the first that fails. -/
def sequence : List (Session σ → Except Error Unit × Session σ) → Session σ →
    Except Error Unit × Session σ
  | [], s => (.ok (), s)
  | step :: r, s =>
    match step s with
    | (.ok _, s) => sequence r s
    | (.error e, s) => (.error e, s)

def attach (engine : Engine σ) (name path : Text) (s : Session σ) :
    Except Error Unit × Session σ :=
  match perform engine (.attach name path) s with
  | (.ok _, s) => (.ok (), { s with attached := s.attached ++ [(name, path)] })
  | (.error e, s) => (.error e, s)

/-- Forgets all attached databases and detaches them one by one. -/
def detachAll (engine : Engine σ) (s : Session σ) : Except Error Unit × Session σ :=
  sequence (s.attached.map fun (name, _) => perform engine (.detach name))
    { s with attached := [] }

/-- The commands that apply the settings, before the busy timeout. -/
def settingCommands (c : ConnectionSettings) : List Command :=
  [.setSynchronous c.synchronous, .setForeignKeys c.foreignKeys, .setPageSize c.pageSize.toNat] ++
    (if c.mmapSize = 0 then [] else [.setMmapSize c.mmapSize.toNat]) ++
    [.setCacheSize c.cacheSizeKib.toNat]

def applyTimeout (engine : Engine σ) (s : Session σ) : Except Error Unit × Session σ :=
  let (result, state) := Retry.setTimeout engine (Retry.baseTimeout s.settings) s.state
  (result, { s with state := state })

/-- The steps after the connection: settings, busy timeout, attachments. -/
def initialSteps (engine : Engine σ) (settings : ConnectionSettings)
    (attachments : List (Text × Text)) : List (Session σ → Except Error Unit × Session σ) :=
  (settingCommands settings).map (perform engine) ++ [applyTimeout engine] ++
    attachments.map fun (name, path) => attach engine name path

def invalidSynchronous (value : Text) : Text := "invalid synchronous setting '" ++ value ++ "'"

/-- Opens a database. Whatever fails is an error of the opening. -/
def start (engine : Engine σ) (settings : ConnectionSettings) (path : Text)
    (attachments : List (Text × Text)) (state : σ) : Except Error Unit × Session σ :=
  let s : Session σ := ⟨state, settings, []⟩
  if !settings.synchronous.all Char.isAlphanum then
    (.error (.opening path (invalidSynchronous settings.synchronous)), s)
  else
    match engine.connect path settings.busyTimeoutMs.toNat state with
    | (.error e, state) => (.error (.opening path e.display), { s with state := state })
    | (.ok _, state) =>
      let (result, s) := sequence (initialSteps engine settings attachments)
        { s with state := state }
      (result.mapError fun e => .opening path e.message, s)

/-- The session as the database of a run. -/
def database (engine : Engine σ) : Database (Session σ) where
  write sql s := perform engine (.statement sql) s
  read sql s := execute engine (.statement sql) s

end Session
end QueryWeaver
