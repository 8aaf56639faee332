import QueryWeaver.CommandLine.Host
import QueryWeaver.Database.MemoryEngine
import QueryWeaver.Dictionary
/-!
Files kept in memory, as a host for the command line. A directory is what has files below it; the
current directory is the root of the store.
-/

namespace QueryWeaver

structure FileStore where
  /-- Texts by path: names with slashes between them. -/
  files : Dictionary Text
  /-- The absolute path of the current directory. -/
  root : Text
  userSettings : Option Text
  stamp : Text

/-- Why a path leads to no file. -/
inductive FileFault where
  | noEntry
  | notDirectory
  | isDirectory
  /-- Names and paths have a greatest length. -/
  | nameTooLong
  /-- No path holds the zero character. -/
  | zeroByte
  deriving DecidableEq, Repr

namespace FileFault

def message : FileFault → Text
  | noEntry => "No such file or directory (os error 2)"
  | notDirectory => "Not a directory (os error 20)"
  | isDirectory => "Is a directory (os error 21)"
  | nameTooLong => "File name too long (os error 36)"
  | zeroByte => "file name contained an unexpected NUL byte"

end FileFault

namespace FileStore

/-- Where a path leads: a file, a directory, or a name that a directory does not have. -/
inductive Place where
  | file (key : Text)
  | directory
  | absent (key : Text)
  deriving DecidableEq, Repr

/-- The most bytes of a name. -/
def maxName : Nat := 255

/-- The most bytes of a path. -/
def maxPath : Nat := 4095

/-- The most bytes of the absolute path of a database. -/
def maxDatabasePath : Nat := 504

/-- Where the path of a database leads. -/
inductive DatabasePlace where
  | inside (names : List Text)
  /-- A file in a directory above the store. -/
  | beside
  /-- A directory above the store. -/
  | directory
  | nowhere
  deriving DecidableEq, Repr

/-- The parts of a path that stay where they are. -/
def isIdle (part : Text) : Bool := part = [] || part = ['.']

def key (names : List Text) : Text := Text.joinWith ['/'] names

def isDirectory (s : FileStore) (names : List Text) : Bool :=
  names.isEmpty || s.files.keys.any fun k => List.isPrefixOf (key names ++ ['/']) k

/-- Follows the parts of a path from a directory of the store, or from outside it. -/
def walk (s : FileStore) : Option (List Text) → List Text → Except FileFault Place
  | _, [] => .ok .directory
  | at?, part :: r =>
    if isIdle part then walk s at? r
    else if maxName < Text.size part then .error .nameTooLong
    else if part = ['.', '.'] then
      match at? with
      | some (name :: names) => walk s (some (name :: names).dropLast) r
      | _ => walk s none r
    else match at? with
      | none => .error .noEntry
      | some names =>
        let next := names ++ [part]
        if s.files.contains (key next) then
          if r.isEmpty then .ok (.file (key next)) else .error .notDirectory
        else if s.isDirectory next then walk s (some next) r
        else if r.isEmpty then .ok (.absent (key next))
        else .error .noEntry

/-- Absolute paths lead outside unless they begin with the path of the current directory. -/
def locate (s : FileStore) (path : Text) : Except FileFault Place :=
  if path.any (· == '\x00') then .error .zeroByte
  else if maxPath < Text.size path then .error .nameTooLong
  else match path, List.isPrefixOf? (s.root ++ ['/']) path with
  | [], _ => .error .noEntry
  | _, some inside => s.walk (some []) (Text.pieces '/' inside)
  | '/' :: r, none => s.walk none (Text.pieces '/' r)
  | path, none => s.walk (some []) (Text.pieces '/' path)

def read (s : FileStore) (path : Text) : Except FileFault Text :=
  match s.locate path with
  | .ok (.file key) => .ok ((s.files.get? key).getD [])
  | .ok .directory => .error .isDirectory
  | .ok (.absent _) => .error .noEntry
  | .error fault => .error fault

def write (s : FileStore) (path text : Text) : Except FileFault FileStore :=
  match s.locate path with
  | .ok (.file key) => .ok { s with files := s.files.insert key text }
  | .ok (.absent key) => .ok { s with files := s.files.insert key text }
  | .ok .directory => .error .isDirectory
  | .error fault => .error fault

def copy (s : FileStore) (path target : Text) : Except FileFault FileStore := do
  s.write target (← s.read path)

def isFile (s : FileStore) (path : Text) : Bool :=
  match s.locate path with
  | .ok (.file _) => true
  | _ => false

/-- Follows the parts of a database path from a directory inside the store or above it. A part
below a file leads nowhere, but one that is missing can be taken back. -/
def walkDatabase (s : FileStore) : (inside : Bool) → (names parts : List Text) → DatabasePlace
  | true, names, [] => .inside names
  | false, [_], [] => .beside
  | false, [], [] => .directory
  | false, _, [] => .nowhere
  | inside, names, part :: r =>
    if isIdle part then walkDatabase s inside names r
    else if part = ['.', '.'] then
      if names.isEmpty then walkDatabase s false [] r
      else walkDatabase s inside names.dropLast r
    else if inside && s.files.contains (key names) then .nowhere
    else if maxName < Text.size part &&
        (if inside then s.isDirectory names else names.isEmpty) then .nowhere
    else walkDatabase s inside (names ++ [part]) r

def databasePlace (s : FileStore) (path : Text) : DatabasePlace :=
  match path, List.isPrefixOf? (s.root ++ ['/']) path with
  | _, some inside => s.walkDatabase true [] (Text.pieces '/' inside)
  | '/' :: r, none => s.walkDatabase false [] (Text.pieces '/' r)
  | path, none => s.walkDatabase true [] (Text.pieces '/' path)

/-- A file of at most one byte is a database without tables. -/
def databaseFile (s : FileStore) (path : Text) : DatabaseFile :=
  match s.databasePlace path with
  | .nowhere => .unopenable
  | .beside => .absent
  | .directory => .directory
  | .inside names =>
    match s.files.get? (key names) with
    | some text => if Text.size text ≤ 1 then .empty else .foreign
    | none =>
      if s.isDirectory names then .directory
      else if s.isDirectory names.dropLast ∧
          Text.size (s.root ++ ['/'] ++ key names) ≤ maxDatabasePath then .absent
      else .unopenable

def createDatabase (s : FileStore) (path : Text) : FileStore :=
  match s.databasePlace path, s.databaseFile path with
  | .inside names, .absent => { s with files := s.files.insert (key names) [] }
  | _, _ => s

/-- The engine with what stands at the paths that a session may open. -/
def beginSession (s : FileStore) (database : Text) (attached : List Text) : MemoryEngine :=
  .fresh ((Location.sessionFiles database attached).map fun path => (path, s.databaseFile path))

/-- Makes the files of the databases that a session opened. -/
def endSession (s : FileStore) (left : MemoryEngine) : FileStore :=
  left.opened.foldl createDatabase s

/-- Changes the store, or leaves it and reports the fault. -/
def update (change : FileStore → Except FileFault FileStore) :
    StateM FileStore (Except Text Unit) := do
  match change (← get) with
  | .ok next => set next; return .ok ()
  | .error fault => return .error fault.message

def host : Host (StateM FileStore) MemoryEngine where
  readFile path := return ((← get).read path).mapError FileFault.message
  isFile path := return (← get).isFile path
  writeFile path text := update fun s => s.write path text
  copyFile path target := update fun s => s.copy path target
  userSettings := return (← get).userSettings
  timeStamp := return (← get).stamp
  engine := MemoryEngine.engine
  beginSession database attached := return (← get).beginSession database attached
  endSession left := modify fun s => s.endSession left

end FileStore
end QueryWeaver
