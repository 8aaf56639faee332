import QueryWeaver.Header.Marker
/-!
What can go wrong, by cause, and the message of each cause.
-/

namespace QueryWeaver

inductive Error where
  /-- The database could not be opened, or an attachment failed while opening. -/
  | opening (path message : Text)
  /-- A statement did not compile. -/
  | prepare (sql message : Text)
  /-- A statement failed while it ran, or kept failing until the last attempt. -/
  | execution (sql message : Text) (attempts : Nat)
  /-- A block's annotations are malformed or incomplete. -/
  | invalidBlock (function message : Text)
  /-- A declared field is not among the columns of the statement. -/
  | missingField (field sql function : Text)
  /-- Two uses of a record disagree on its fields. -/
  | recordConflict (name existing requested : Text)
  | missingMarkers (first last : Marker)
  | settings (message : Text)
  | file (message : Text)
  deriving DecidableEq

namespace Error

def message : Error → Text
  | opening path message => "Could not open database \"" ++ path ++ "\": " ++ message
  | prepare sql message => "Error preparing statement [" ++ sql ++ "]: " ++ message
  | execution sql message attempts =>
    "Error executing [" ++ sql ++ "] after " ++ Text.ofNat attempts ++ " attempt(s): " ++ message
  | invalidBlock function message => "Function " ++ function ++ ": " ++ message
  | missingField field sql function =>
    "Cannot find variable '" ++ field ++ "' in SQL: " ++ sql ++ " Function: " ++ function
  | recordConflict name existing requested =>
    "Record '" ++ name ++ "' already declared with fields (" ++ existing ++
      "), conflicting use declares (" ++ requested ++ ")"
  | missingMarkers first last =>
    "Cannot find \"" ++ first.text ++ "\" or \"" ++ last.text ++ "\" in header file"
  | settings message => "Configuration error: " ++ message
  | file message => "IO error: " ++ message

end Error
end QueryWeaver
