import QueryWeaver.Text.Basic
/-!
The commands a session gives to its engine, and their SQL.
-/

namespace QueryWeaver

inductive Command where
  | setSynchronous (value : Text)
  | setForeignKeys (on : Bool)
  | setPageSize (bytes : Nat)
  | setMmapSize (bytes : Nat)
  | setCacheSize (kib : Nat)
  | setBusyTimeout (ms : Nat)
  | attach (name path : Text)
  | detach (name : Text)
  | statement (sql : Text)
  deriving DecidableEq, Repr

namespace Command

/-- The text with each quote written twice. -/
def doubled (quote : Char) (t : Text) : Text :=
  t.flatMap fun c => if c = quote then [quote, quote] else [c]

def sql : Command → Text
  | setSynchronous value => "PRAGMA synchronous=" ++ value
  | setForeignKeys on => "PRAGMA foreign_keys = " ++ (if on then "ON" else "OFF" : Text)
  | setPageSize bytes => "PRAGMA page_size=" ++ Text.ofNat bytes
  | setMmapSize bytes => "PRAGMA mmap_size=" ++ Text.ofNat bytes
  | setCacheSize kib => "PRAGMA cache_size = -" ++ Text.ofNat kib
  | setBusyTimeout ms => "PRAGMA busy_timeout = " ++ Text.ofNat ms
  | attach name path =>
    "ATTACH DATABASE '" ++ doubled '\'' path ++ "' AS \"" ++ doubled '"' name ++ "\""
  | detach name => "DETACH DATABASE \"" ++ doubled '"' name ++ "\""
  | statement text => text

end Command
end QueryWeaver
