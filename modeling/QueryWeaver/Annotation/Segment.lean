import QueryWeaver.Annotation.Comment
import QueryWeaver.Source.Stub
import QueryWeaver.Source.Token
/-!
A source text as plain segments and annotated blocks: a comment with annotations claims the first
function of the code after it, and an empty block when there is none.
-/

namespace QueryWeaver

/-- A comment's annotations with the code it claims. `unclosed` marks a body that is opened after
the comment and not closed in the same code. -/
structure Block where
  annotations : Annotations
  code : Text
  unclosed : Bool

inductive Segment where
  | plain (text : Text)
  | annotated (block : Block)

namespace Segment

def text : Segment → Text
  | plain t => t
  | annotated block => block.code

def block? : Segment → Option Block
  | plain _ => none
  | annotated block => some block

def render (segments : List Segment) : Text := segments.flatMap text

/-- The block of a comment and the plain text left of the code after it. -/
def claim (a : Annotations) (code : Text) : List Segment :=
  match Stub.split? code with
  | some (function, rest) =>
    annotated ⟨a, function, false⟩ :: (if rest.isEmpty then [] else [plain rest])
  | none => [annotated ⟨a, [], Stub.opensBody code⟩, plain code]

def ofTokens : List Token → List Segment
  | [] => []
  | .code t :: r => plain t :: ofTokens r
  | .comment t :: .code u :: r =>
    let a := Comment.annotations t
    if a.isEmpty then plain t :: plain u :: ofTokens r
    else plain t :: (claim a u ++ ofTokens r)
  | .comment t :: r =>
    let a := Comment.annotations t
    if a.isEmpty then plain t :: ofTokens r
    else plain t :: annotated ⟨a, [], false⟩ :: ofTokens r

def ofSource (source : Text) : List Segment := ofTokens (Token.tokenize source)

end Segment
end QueryWeaver
