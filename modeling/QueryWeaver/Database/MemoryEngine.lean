import QueryWeaver.Database.Engine
import QueryWeaver.Database.Location
import QueryWeaver.Database.Synchronous
import QueryWeaver.Text.Blank
/-!
An engine that keeps settings, attachments and whether a transaction is open. It compiles no other
statements: those have the outcomes that are laid out beforehand.
-/

namespace QueryWeaver

/-- What stands at the path of a database. -/
inductive DatabaseFile where
  /-- Nothing yet, in a directory that can take a file. -/
  | absent
  /-- A database without tables. -/
  | empty
  /-- A file that holds something else. -/
  | foreign
  | directory
  /-- A path that leads nowhere. -/
  | unopenable
  deriving DecidableEq, Repr

structure MemoryEngine where
  /-- What stands at each path that may be opened. -/
  files : List (Text × DatabaseFile)
  /-- The shortest paths of the files opened so far. -/
  opened : List Text
  /-- The main database. -/
  main : Location
  /-- Whether databases are kept in memory unless they say otherwise. -/
  inMemory : Bool
  /-- Whether the main database can be read. -/
  readable : Bool
  attached : List (Text × Location)
  /-- The names of the attached databases that an open transaction holds. -/
  held : Option (List Text)
  synchronous : Nat
  foreignKeys : Bool
  pageSize : Nat
  cacheSize : Int
  busyTimeout : Nat
  /-- The outcomes of the next statements. -/
  outcomes : List (Except EngineFailure (List Row))

namespace MemoryEngine

def fresh (files : List (Text × DatabaseFile)) : MemoryEngine :=
  let main : Location := ⟨.memory, [], false, Location.defaultSystem⟩
  ⟨files, [], main, true, true, [], none, 2, true, 4096, -2000, 0, []⟩

def maxAttached : Nat := 10

def compileFailure (message : Text) : EngineFailure := ⟨some 1, message⟩

/-- A reference that names no main database. -/
def referenceFailure (fault : LocationFault) : EngineFailure :=
  match fault with
  | .forbiddenMode _ => ⟨some 3, fault.message⟩
  | _ => compileFailure fault.message

/-- Why a database cannot be opened. -/
inductive OpenFault where
  | unopenable
  /-- What was opened cannot be read. -/
  | unreadable
  deriving DecidableEq, Repr

def OpenFault.code : OpenFault → Int
  | unopenable => 14
  | unreadable => 266

def OpenFault.message : OpenFault → Text
  | unopenable => "unable to open database file"
  | unreadable => "disk I/O error"

def connectFailure (fault : OpenFault) : EngineFailure := ⟨some fault.code, fault.message⟩

def attachFailure (path : Text) (fault : OpenFault) : EngineFailure :=
  ⟨some fault.code, "unable to open database: " ++ path⟩

def connectionLost : EngineFailure :=
  ⟨none, "attempted to communicate with a crashed background worker"⟩

def notDatabase : EngineFailure := ⟨some 26, "file is not a database"⟩

/-- What stands at a location after the files opened so far were made: a path that passes through
one of them leads nowhere. -/
def fileAt (e : MemoryEngine) (l : Location) : DatabaseFile :=
  match l.file? with
  | none => .empty
  | some path =>
    let found := ((e.files.find? fun f => f.1 == path).map Prod.snd).getD .unopenable
    if (Location.passed path).any e.opened.contains then .unopenable
    else if found = .absent ∧ e.opened.contains (Location.normal path) then .empty
    else found

/-- What opening a location meets. A directory opens like a file that is not changed, and the first
bytes of a database are read at once. -/
def openFault? (l : Location) (file : DatabaseFile) : Option OpenFault :=
  match file with
  | .unopenable => some .unopenable
  | .directory => some (if l.storage = .readOnlyFile then .unreadable else .unopenable)
  | .absent => if l.storage = .file then none else some .unopenable
  | .empty => none
  | .foreign => none

def markOpened (e : MemoryEngine) (l : Location) : MemoryEngine :=
  { e with opened := e.opened ++ (l.file?.map Location.normal).toList }

def minWord : Int := -2147483648

def maxWord : Int := 2147483647

/-- Numbers that do not fit a signed word of 32 bits count as zero. -/
def word (i : Int) : Int := if minWord ≤ i ∧ i ≤ maxWord then i else 0

/-- Opens the main database. A busy timeout must fit a signed word. -/
def connect (path : Text) (ms : Nat) (e : MemoryEngine) :
    Except EngineFailure Unit × MemoryEngine :=
  match Location.ofMainPath path with
  | .error fault => (.error (referenceFailure fault), e)
  | .ok l =>
    let file := e.fileAt l
    match openFault? l file with
    | some fault => (.error (connectFailure fault), e)
    | none =>
      let e := e.markOpened l
      if maxWord < ms then (.error connectionLost, e)
      else (.ok (), { e with
        main := l, inMemory := path == Location.memoryName, readable := file != .foreign,
        busyTimeout := ms })

def isPageSize (n : Nat) : Bool := 512 ≤ n && n ≤ 65536 && n == 1 <<< Nat.log2 n

/-- Attaches what stands at a location, for which a statement has the given path. A path that leads
nowhere cannot be compared with those of the databases that are open. -/
def attachAt (name path : Text) (l : Location) (e : MemoryEngine) :
    Except EngineFailure (List Row) × MemoryEngine :=
  let file := e.fileAt l
  if file = .unopenable then (.error (attachFailure path .unopenable), e)
  else if (e.main :: e.attached.map Prod.snd).any l.coincide then
    (.error (compileFailure "database is already attached"), e)
  else match openFault? l file with
    | some fault => (.error (attachFailure path fault), e)
    | none =>
      if file = .foreign then (.error notDatabase, e)
      else (.ok [], { e.markOpened l with attached := e.attached ++ [(name, l)] })

def attach (name path : Text) (e : MemoryEngine) :
    Except EngineFailure (List Row) × MemoryEngine :=
  if maxAttached ≤ e.attached.length then
    (.error (compileFailure ("too many attached databases - max " ++ Text.ofNat maxAttached)), e)
  else if name.isOneOf ("main" :: "temp" :: e.attached.map Prod.fst) then
    (.error (compileFailure ("database " ++ name ++ " is already in use")), e)
  else match Location.ofPath e.inMemory e.main.system path with
    | .error fault => (.error (compileFailure fault.message), e)
    | .ok l => attachAt name path l e

def detach (name : Text) (e : MemoryEngine) : Except EngineFailure (List Row) × MemoryEngine :=
  if name.isOneOf (e.held.getD []) then
    (.error (compileFailure ("database " ++ name ++ " is locked")), e)
  else if name.isOneOf (e.attached.map Prod.fst) then
    (.ok [], { e with attached := e.attached.filter fun a => !Text.sameLetters a.1 name })
  else (.error (compileFailure ("no such database: " ++ name)), e)

/-- A value that does not compile is refused before the database is read. -/
def setSynchronous (value : Text) (e : MemoryEngine) :
    Except EngineFailure (List Row) × MemoryEngine :=
  match Synchronous.fault? value with
  | some message => (.error (compileFailure message), e)
  | none =>
    if e.readable then (.ok [], { e with synchronous := Synchronous.level value })
    else (.error notDatabase, e)

def row (name value : Text) : List Row := [⟨[(name, value)]⟩]

/-- The value of a setting that a statement asks for. -/
def settingRows? (e : MemoryEngine) (sql : Text) : Option (List Row) :=
  match List.isPrefixOf? "PRAGMA " sql with
  | none => none
  | some name =>
    if name = "foreign_keys" then some (row name (Text.ofNat e.foreignKeys.toNat))
    else if name = "page_size" then some (row name (Text.ofNat e.pageSize))
    else if name = "cache_size" then some (row name (Text.ofInt e.cacheSize))
    else if name = "synchronous" then some (row name (Text.ofNat e.synchronous))
    else if name = "busy_timeout" then some (row "timeout" (Text.ofNat e.busyTimeout))
    else none

/-- Begins a transaction, which holds all databases. -/
def beginTransaction (e : MemoryEngine) : Except EngineFailure (List Row) × MemoryEngine :=
  if e.held.isSome then
    (.error (compileFailure "cannot start a transaction within a transaction"), e)
  else (.ok [], { e with held := some (e.attached.map Prod.fst) })

def tableLocked : EngineFailure := ⟨some 6, "database table is locked"⟩

/-- A checkpoint, for which no log is kept. It is refused inside a transaction. -/
def checkpoint (e : MemoryEngine) : Except EngineFailure (List Row) :=
  if e.held.isSome then .error tableLocked
  else .ok [⟨[("busy", "0"), ("log", "-1"), ("checkpointed", "-1")]⟩]

/-- What a statement does that the engine knows. -/
def perform? (e : MemoryEngine) (sql : Text) :
    Option (Except EngineFailure (List Row) × MemoryEngine) :=
  if sql = "BEGIN IMMEDIATE" then some e.beginTransaction
  else if sql = "PRAGMA wal_checkpoint" then some (e.checkpoint, e)
  else (e.settingRows? sql).map fun rows => (.ok rows, e)

/-- Performs statements up to the first that fails, and gives the rows of all of them. -/
def performAll? (e : MemoryEngine) :
    List Text → Option (Except EngineFailure (List Row) × MemoryEngine)
  | [] => some (.ok [], e)
  | sql :: r =>
    match e.perform? sql with
    | none => none
    | some (.error f, e) => some (.error f, e)
    | some (.ok rows, e) =>
      (performAll? e r).map fun (outcome, e) => (outcome.map (rows ++ ·), e)

def statements (sql : Text) : List Text :=
  ((Text.pieces ';' sql).map (Text.trimBy isSpacing)).filter fun t => !t.isEmpty

def statement (sql : Text) (e : MemoryEngine) : Except EngineFailure (List Row) × MemoryEngine :=
  match e.performAll? (statements sql) with
  | some answer => answer
  | none =>
    match e.outcomes with
    | [] => (.error (compileFailure "statements are not compiled here"), e)
    | outcome :: r => (outcome, { e with outcomes := r })

def execute (command : Command) (e : MemoryEngine) :
    Except EngineFailure (List Row) × MemoryEngine :=
  match command with
  | .setSynchronous value => setSynchronous value e
  | .setForeignKeys on => (.ok [], { e with foreignKeys := on })
  | .setPageSize bytes => (.ok [], if isPageSize bytes then { e with pageSize := bytes } else e)
  | .setMmapSize _ => (.ok [], e)
  | .setCacheSize kib => (.ok [], { e with cacheSize := word (-kib) })
  | .setBusyTimeout ms => (.ok [], { e with busyTimeout := (word ms).toNat })
  | .attach name path => attach name path e
  | .detach name => detach name e
  | .statement sql => statement sql e

def engine : Engine MemoryEngine := ⟨connect, execute⟩

end MemoryEngine
end QueryWeaver
