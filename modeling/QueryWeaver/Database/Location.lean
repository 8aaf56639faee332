import QueryWeaver.Text.Hex
import QueryWeaver.Text.Utf8
/-!
Where a database is kept: what a path, or a reference that begins with `file:`, says about it. The
options of a reference go before what the session has by default, and what is attached is kept by
the file system of the main database unless its reference names another one.
-/

namespace QueryWeaver

inductive Storage where
  /-- Kept in memory, or in a temporary file. -/
  | memory
  /-- A file that has to be there and is not changed. -/
  | readOnlyFile
  /-- A file that has to be there. -/
  | existingFile
  /-- A file that is made if there is none. -/
  | file
  deriving DecidableEq, Repr

structure Location where
  storage : Storage
  /-- The path of the file, or the name of what is in memory. -/
  name : Text
  /-- Whether it is shared between connections; a session opens what is shared only once. -/
  shared : Bool
  /-- The file system that keeps it. -/
  system : Text
  deriving DecidableEq, Repr

/-- What is wrong with a reference. -/
inductive LocationFault where
  | authority (authority : Text)
  | cacheMode (mode : Text)
  | accessMode (mode : Text)
  /-- A mode allows no more than the mode before it. -/
  | forbiddenMode (mode : Text)
  | fileSystem (name : Text)
  deriving DecidableEq, Repr

def LocationFault.message : LocationFault → Text
  | authority name => "invalid uri authority: " ++ name
  | cacheMode mode => "no such cache mode: " ++ mode
  | accessMode mode => "no such access mode: " ++ mode
  | forbiddenMode mode => "access mode not allowed: " ++ mode
  | fileSystem name => "no such vfs: " ++ name

/-- How much a storage allows: to read, to change, to make. What is in memory allows all. -/
def Storage.rank : Storage → Nat
  | readOnlyFile => 1
  | existingFile => 2
  | file => 3
  | memory => 3

namespace Location

def memoryName : Text := ":memory:"

/-- The bytes of a part of a reference. A percent sign with two digits stands for a byte, and a
zero byte ends the part. -/
def bytes : Text → List UInt8
  | [] => []
  | '%' :: a :: b :: r =>
    match Text.hexValue? a, Text.hexValue? b with
    | some high, some low =>
      if high = 0 ∧ low = 0 then [] else UInt8.ofNat (16 * high + low) :: bytes r
    | _, _ => String.utf8EncodeChar '%' ++ bytes (a :: b :: r)
  | c :: r => String.utf8EncodeChar c ++ bytes r

def decode (part : Text) : Text := Utf8.decode (bytes part)

/-- The text after the authority, which can only be this machine. -/
def afterAuthority (t : Text) : Except LocationFault Text :=
  match List.isPrefixOf? "//" t with
  | none => .ok t
  | some r =>
    let authority := r.takeWhile (· != '/')
    if authority = "" ∨ authority = "localhost" then .ok (r.dropWhile (· != '/'))
    else .error (.authority authority)

/-- The options of a query, by name; those without a name do not count. -/
def options (query : Text) : List (Text × Text) :=
  let option (t : Text) : Text × Text :=
    let (name, value) := (Text.cut ['='] t).getD (t, [])
    (decode name, decode value)
  ((Text.pieces '&' query).map option).filter fun o => !o.1.isEmpty

def accessMode? (value : Text) : Option Storage :=
  if value = "memory" then some .memory
  else if value = "rwc" then some .file
  else if value = "rw" then some .existingFile
  else if value = "ro" then some .readOnlyFile
  else none

def applyOption (l : Location) (o : Text × Text) : Except LocationFault Location :=
  let (name, value) := o
  if name = "cache" then
    if value = "shared" then .ok { l with shared := true }
    else if value = "private" then .ok { l with shared := false }
    else .error (.cacheMode value)
  else if name = "mode" then
    match accessMode? value with
    | none => .error (.accessMode value)
    | some storage =>
      if storage = .memory ∨ storage.rank ≤ l.storage.rank then .ok { l with storage := storage }
      else .error (.forbiddenMode value)
  else .ok l

/-- The file systems that keep files on disk. -/
def fileSystems : List Text := ["unix", "unix-none", "unix-dotfile", "unix-excl"]

def defaultSystem : Text := "unix"

/-- Chooses a file system, of which one is in memory. -/
def onSystem (system : Text) (l : Location) : Except LocationFault Location :=
  if fileSystems.contains system then .ok { l with system := system }
  else if system = "memdb" then .ok { l with storage := .memory, system := system }
  else .error (.fileSystem system)

/-- What is named by a reference without its scheme. Of several file systems the last one counts. -/
def ofReference (l : Location) (t : Text) : Except LocationFault Location := do
  let body := (← afterAuthority t).takeWhile (· != '#')
  let options := options ((body.dropWhile (· != '?')).drop 1)
  let l ← options.foldlM applyOption { l with name := decode (body.takeWhile (· != '?')) }
  let chosen? := options.reverse.find? fun o => o.1 == "vfs".toList
  onSystem ((chosen?.map Prod.snd).getD l.system) l

/-- A name that is empty, or that says so, is in memory; without a name nothing is shared. -/
def settle (l : Location) : Location :=
  if l.name = "" then { l with storage := .memory, shared := false }
  else if l.name = memoryName then { l with storage := .memory }
  else l

/-- What a path names, in a session that keeps its databases in memory or in files, and on a file
system. -/
def ofPath (inMemory : Bool) (system path : Text) : Except LocationFault Location :=
  let storage := if inMemory then Storage.memory else .file
  match List.isPrefixOf? "file:" path with
  | some reference => (ofReference ⟨storage, [], inMemory, system⟩ reference).map settle
  | none => (onSystem system ⟨storage, path, false, system⟩).map settle

/-- What the path of a main database names. -/
def ofMainPath (path : Text) : Except LocationFault Location :=
  ofPath (path == memoryName) defaultSystem path

/-- The name of the directory above. -/
def parent : Text := ".."

/-- Adds a part to the names of a path. Empty parts and single dots do not count, and two dots take
back the name before them. -/
def addPart (names : List Text) (part : Text) : List Text :=
  if part = "" ∨ part = "." then names
  else if part = parent ∧ names.getLast?.any (· != parent) then names.dropLast
  else names ++ [part]

def names (path : Text) : List Text := (Text.pieces '/' path).foldl addPart []

/-- The path that names make, absolute if the given one is. -/
def pathLike (path : Text) (names : List Text) : Text :=
  (if path.head? = some '/' then ['/'] else []) ++ Text.joinWith ['/'] names

/-- The shortest path to the same file. -/
def normal (path : Text) : Text := pathLike path (names path)

/-- The paths of the directories in which a path looks up a name, also one that it takes back. -/
def passed (path : Text) : List Text :=
  let step (state : List Text × List (List Text)) (part : Text) : List Text × List (List Text) :=
    let next := addPart state.1 part
    (next, if state.1.length < next.length then state.2 ++ [state.1] else state.2)
  (((Text.pieces '/' path).foldl step ([], [])).2).map (pathLike path)

/-- Whether two locations share one database. -/
def coincide (a b : Location) : Bool :=
  a.shared && b.shared && a.system == b.system &&
    if a.storage == .memory then b.storage == .memory && a.name == b.name
    else b.storage != .memory && normal a.name == normal b.name

def file? (l : Location) : Option Text := if l.storage = .memory then none else some l.name

/-- The files that a session may open: of its own database and of those it attaches. -/
def sessionFiles (database : Text) (attached : List Text) : List Text :=
  match ofMainPath database with
  | .error _ => []
  | .ok main =>
    let others := attached.filterMap fun path =>
      (ofPath (database == memoryName) main.system path).toOption
    (main :: others).filterMap file?

end Location
end QueryWeaver
