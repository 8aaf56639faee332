import QueryWeaver.Access.Layout
import QueryWeaver.Annotation.Basic
import QueryWeaver.Text.Blank
/-!
The options of a configuration block. Each option changes one field of the layout or gives one
warning.
-/

namespace QueryWeaver

inductive LayoutOption where
  | indent (text : Text)
  | newline (text : Text)
  | queryType (name : Text)
  | cursorType (name : Text)
  deriving DecidableEq, Repr

inductive LayoutWarning where
  | unsupportedTab (value : Text)
  | unsupportedNewline (value : Text)
  | missingTypeName (key : Text)
  | unknownOption (key : Text)
  deriving DecidableEq, Repr

namespace LayoutWarning

def message : LayoutWarning → Text
  | unsupportedTab value => "unsupported tab setting '" ++ value ++ "'"
  | unsupportedNewline value => "unsupported newline setting '" ++ value ++ "'"
  | missingTypeName key => key ++ " needs a type name"
  | unknownOption key => "unknown config option '" ++ key ++ "'"

end LayoutWarning

namespace LayoutOption

/-- A number of spaces: digits after an optional plus sign, below two to the 64th. -/
def count? (t : Text) : Option Nat := do
  let n ← Text.toNat? (Text.dropPrefix ['+'] t)
  if n < 1 <<< 64 then some n else none

def indent? (value : Text) : Option Text :=
  let value := Text.lower (Text.trim value)
  if value = "tab" ∨ value = "tabs" then some Layout.tab
  else do
    let rest ← List.isPrefixOf? "spaces:" value
    let n ← count? (Text.trim rest)
    return Layout.spaces n

def newline? (value : Text) : Option Text :=
  let value := Text.lower value
  if value = "unix" ∨ value = "lf" then some Layout.lf
  else if value = "windows" ∨ value = "dos" ∨ value = "crlf" then some Layout.crlf
  else none

/-- Reads an option; colons after its key do not count. -/
def parse (written value : Text) : Except LayoutWarning LayoutOption :=
  let key := Text.trimEnd (· == ':') written
  if key = "tab" then
    match indent? value with
    | some text => .ok (indent text)
    | none => .error (.unsupportedTab value)
  else if key = "newline" then
    match newline? value with
    | some text => .ok (newline text)
    | none => .error (.unsupportedNewline value)
  else if key = "query_type" then
    if value.isEmpty then .error (.missingTypeName key) else .ok (queryType value)
  else if key = "cursor_type" then
    if value.isEmpty then .error (.missingTypeName key) else .ok (cursorType value)
  else .error (.unknownOption key)

/-- The options written as entries of the block, in key order. -/
def keyed (a : Annotations) : List (Text × Text) :=
  (Dictionary.entries a).filter fun e => e.1.head? != some '-'

/-- The options written `key: value, key: value` after the directive. -/
def inline (a : Annotations) : List (Text × Text) :=
  (Text.pieces ',' ((Dictionary.get? a Directive.config.key).getD [])).filterMap fun item =>
    (Text.cut [':'] item).map fun (key, value) => (Text.trim key, Text.trim value)

end LayoutOption

namespace Layout

def set (layout : Layout) : LayoutOption → Layout
  | .indent text => { layout with indent := text }
  | .newline text => { layout with newline := text }
  | .queryType name => { layout with queryType := name }
  | .cursorType name => { layout with cursorType := name }

/-- Applies options in order; a later one wins. -/
def applyOptions (layout : Layout) : List (Text × Text) → Layout × List LayoutWarning
  | [] => (layout, [])
  | (key, value) :: r =>
    match LayoutOption.parse key value with
    | .ok option => (layout.set option).applyOptions r
    | .error warning =>
      let (last, warnings) := layout.applyOptions r
      (last, warning :: warnings)

/-- Applies the options of a block: those with keys of their own, then those in line. -/
def apply (layout : Layout) (a : Annotations) : Layout × List LayoutWarning :=
  layout.applyOptions (LayoutOption.keyed a ++ LayoutOption.inline a)

end Layout
end QueryWeaver
