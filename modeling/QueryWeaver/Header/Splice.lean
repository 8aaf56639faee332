import QueryWeaver.Access.Interface
/-!
Declarations spliced into a header between its markers. The markers stay, and nothing changes
unless both regions are found.
-/

namespace QueryWeaver

/-- The texts of the two regions of a header. -/
structure Regions where
  functions : Text
  members : Text
  deriving DecidableEq, Repr

namespace Regions

/-- Records and declarations, two line terminators apart, and the members. Each region begins on a
new line and ends in the indent of its closing marker. -/
def compose (layout : Layout) (records declarations members : Text) : Regions :=
  let gap := if records.isEmpty then [] else layout.newline ++ layout.newline
  ⟨layout.newline ++ records ++ gap ++ declarations ++ layout.indent,
    layout.newline ++ members ++ layout.indent⟩

def ofInterface (layout : Layout) (i : Interface) : Regions :=
  compose layout (Interface.recordText layout i.records) (i.declarationText layout)
    (i.memberText layout)

end Regions

namespace Header

/-- Replaces what stands between the first opening marker and the first closing one after it. -/
def replaceRegion (first last : Marker) (content header : Text) : Except Error Text :=
  match Text.cut first.text header with
  | none => .error (.missingMarkers first last)
  | some (before, rest) =>
    match Text.cut last.text rest with
    | none => .error (.missingMarkers first last)
    | some (_, after) => .ok (before ++ first.text ++ content ++ last.text ++ after)

def splice (regions : Regions) (header : Text) : Except Error Text := do
  let header ← replaceRegion .functionsBegin .functionsEnd regions.functions header
  replaceRegion .variablesBegin .variablesEnd regions.members header

end Header
end QueryWeaver
