import QueryWeaver.Access.Layout
import QueryWeaver.Settings.Reader
/-!
The settings of the tool: how a database is opened, and the types that generated code works with.
What a document leaves out has a default, and keys it does not know are ignored.
-/

namespace QueryWeaver

structure ConnectionSettings where
  synchronous : Text
  foreignKeys : Bool
  pageSize : UInt32
  /-- Not set when zero. -/
  mmapSize : UInt64
  cacheSizeKib : UInt32
  busyTimeoutMs : UInt32
  /-- Attempts for a statement on a busy database. -/
  maxRetries : UInt32
  deriving DecidableEq

def ConnectionSettings.standard : ConnectionSettings := ⟨"NORMAL", true, 4096, 0, 2048, 10000, 5⟩

structure Settings where
  connection : ConnectionSettings
  types : Collaborators
  deriving DecidableEq

namespace Settings

def standard : Settings := ⟨.standard, .standard⟩

/-- A named field with the change its value makes; a value of a wrong type is refused. -/
abbrev FieldReader (α : Type) := Text × (α → SettingValue → Option α)

def text? : SettingValue → Option Text
  | .text t => some t
  | _ => none

def boolean? : SettingValue → Option Bool
  | .boolean b => some b
  | _ => none

/-- An integer that is not negative and below a limit. -/
def below? (limit : Nat) : SettingValue → Option Nat
  | .integer i => if 0 ≤ i ∧ i.toNat < limit then some i.toNat else none
  | _ => none

def word32? (v : SettingValue) : Option UInt32 := (below? (1 <<< 32) v).map UInt32.ofNat

def word64? (v : SettingValue) : Option UInt64 := (below? (1 <<< 64) v).map UInt64.ofNat

def connectionFields : List (FieldReader ConnectionSettings) := [
  ("synchronous", fun s v => (text? v).map fun x => { s with synchronous := x }),
  ("foreign_keys", fun s v => (boolean? v).map fun x => { s with foreignKeys := x }),
  ("page_size", fun s v => (word32? v).map fun x => { s with pageSize := x }),
  ("mmap_size", fun s v => (word64? v).map fun x => { s with mmapSize := x }),
  ("cache_size_kib", fun s v => (word32? v).map fun x => { s with cacheSizeKib := x }),
  ("busy_timeout_ms", fun s v => (word32? v).map fun x => { s with busyTimeoutMs := x }),
  ("max_retries", fun s v => (word32? v).map fun x => { s with maxRetries := x })]

def typeFields : List (FieldReader Collaborators) := [
  ("query_type", fun s v => (text? v).map fun x => { s with queryType := x }),
  ("cursor_type", fun s v => (text? v).map fun x => { s with cursorType := x })]

/-- Reads a table by its keys, or an array by the order of the fields. A moment has none of them. -/
def readFields {α : Type} (fields : List (FieldReader α)) (start : α) : SettingValue → Option α
  | .table entries =>
    entries.foldlM
      (fun s (key, v) =>
        match fields.find? fun f => f.1 == key with
        | some (_, read) => read s v
        | none => some s)
      start
  | .array items => (fields.zip items).foldlM (fun s ((_, read), v) => read s v) start
  | .moment => some start
  | _ => none

def settingFields : List (FieldReader Settings) := [
  ("database", fun s v => (readFields connectionFields .standard v).map fun x =>
    { s with connection := x }),
  ("codegen", fun s v => (readFields typeFields .standard v).map fun x => { s with types := x })]

/-- The settings of a document, or none if it is malformed or a value has a wrong type. -/
def parse? (document : Text) : Option Settings := do
  let entries ← readSettings document
  readFields settingFields standard (.table entries)

end Settings
end QueryWeaver
