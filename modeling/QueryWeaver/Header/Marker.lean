import QueryWeaver.Text.Basic
/-!
The four marker comments between which a header receives declarations.
-/

namespace QueryWeaver

inductive Marker where
  | functionsBegin
  | functionsEnd
  | variablesBegin
  | variablesEnd
  deriving DecidableEq, Repr

namespace Marker

def text : Marker → Text
  | functionsBegin => "//@-SQLGenFunctionsBegin"
  | functionsEnd => "//@-SQLGenFunctionsEnd"
  | variablesBegin => "//@-SQLGenVariablesBegin"
  | variablesEnd => "//@-SQLGenVariablesEnd"

end Marker
end QueryWeaver
