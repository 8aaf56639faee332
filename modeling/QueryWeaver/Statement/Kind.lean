import QueryWeaver.Statement.Word
/-!
The kind of a statement, from its first keyword; a leading `WITH` clause is passed over.
-/

namespace QueryWeaver

inductive StatementKind where
  | select
  | insert
  | update
  | delete
  | create
  | drop
  | other
  deriving DecidableEq, Repr

namespace StatementKind

def name : StatementKind → Text
  | select => "select"
  | insert => "insert"
  | update => "update"
  | delete => "delete"
  | create => "create"
  | drop => "drop"
  | other => "none"

def keywords : List (Text × StatementKind) :=
  [("select", select), ("insert", insert), ("replace", insert), ("update", update),
    ("delete", delete), ("create", create), ("drop", drop)]

def ofKeyword? (word : Text) : Option StatementKind :=
  (keywords.find? fun (keyword, _) => Text.sameLetters word keyword).map Prod.snd

def ofWords : List Word → StatementKind
  | [] => other
  | first :: rest =>
    match ofKeyword? first.text with
    | some kind => kind
    | none =>
      if Text.sameLetters first.text "with" then
        ((rest.filter fun w => w.depth == first.depth).findSome? fun w => ofKeyword? w.text).getD
          other
      else other

def classify (sql : Text) : StatementKind := ofWords (Word.ofText sql)

/-- Statements that change rows and may return them. -/
def isDml : StatementKind → Bool
  | insert => true
  | update => true
  | delete => true
  | _ => false

end StatementKind
end QueryWeaver
