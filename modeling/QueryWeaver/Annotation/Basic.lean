import QueryWeaver.Dictionary
/-!
The entries of an annotated comment, and the directive that says what its block is for.
-/

namespace QueryWeaver

inductive Directive where
  | access
  | accessNoCheck
  | tempSetup
  | config
  deriving DecidableEq, Repr

namespace Directive

def key : Directive → Text
  | access => "-SQLGenAccess"
  | accessNoCheck => "-SQLGenAccessNoCheck"
  | tempSetup => "-SQLGenTempSetup"
  | config => "-SQLGenConfig"

/-- All directives, the one that wins over the others first. -/
def all : List Directive := [access, accessNoCheck, tempSetup, config]

end Directive

abbrev Annotations := Dictionary Text

namespace Annotations

def directive? (a : Annotations) : Option Directive :=
  Directive.all.find? fun d => Dictionary.contains a d.key

/-- The value of a key that is present and not empty. -/
def nonempty? (a : Annotations) (key : Text) : Option Text :=
  match Dictionary.get? a key with
  | some [] => none
  | value => value

end Annotations
end QueryWeaver
