import QueryWeaver.Text.Basic
/-!
Values of a settings document, which is written in TOML, and the lines that make up a document.
-/

namespace QueryWeaver

inductive SettingValue where
  | text (t : Text)
  | integer (i : Int)
  /-- A number with a fraction or an exponent; no setting takes one. -/
  | fractional
  | boolean (b : Bool)
  /-- A date, a time of day or both; no setting takes one. -/
  | moment
  | array (items : List SettingValue)
  | table (entries : List (Text × SettingValue))

inductive SettingLine where
  | header (path : List Text)
  | arrayHeader (path : List Text)
  | assign (path : List Text) (value : SettingValue)

end QueryWeaver
