import QueryWeaver.Statement.TopLevel
/-!
The name under which a projected expression is visible: its alias, with or without `AS`, the last
part of a dotted reference, or its own text.
-/

namespace QueryWeaver

namespace ColumnName

/-- Words that end or continue an expression and so are no alias. -/
def notAliases : List Text :=
  ["end", "null", "true", "false", "asc", "desc", "else", "then", "and", "or", "not", "is", "in",
    "like", "glob", "match", "regexp", "escape", "between", "distinct", "collate", "case", "when",
    "current_time", "current_date", "current_timestamp"]

def quotePairs : List (Char × Char) := [('"', '"'), ('\x60', '\x60'), ('[', ']'), ('\'', '\'')]

/-- The text between two delimiters that enclose it. -/
def inner? (first last : Char) (t : Text) : Option Text := do
  let rest ← List.isPrefixOf? [first] t
  List.isSuffixOf? [last] rest

def unquote (t : Text) : Text :=
  (quotePairs.findSome? fun (first, last) => inner? first last t).getD t

def startsWithDigit (t : Text) : Bool := (t.head?.map Char.isDigit).getD false

def endsOperand (c : Char) : Bool :=
  isWordChar c || c == ')' || c == '\'' || c == '"' || c == '\x60' || c == ']'

/-- The run of word characters a text ends in. -/
def lastWord (t : Text) : Text := (t.reverse.takeWhile isWordChar).reverse

def isAliasName (tail : Text) : Bool :=
  (unquote tail).all isWordChar && !startsWithDigit (unquote tail) && !tail.isOneOf notAliases

def isOperand (head : Text) : Bool :=
  (head.getLast?.map endsOperand).getD false && !(lastWord head).isOneOf notAliases

/-- The alias of `expression alias` without the keyword. -/
def implicitAlias? (expr : Text) : Option Text := do
  let (before, after) ← Nesting.start.splitLastBlank expr
  let head := Text.trimEnd isBlank before
  let tail := Text.trim after
  if head.isEmpty || tail.isEmpty then none
  else if isAliasName tail && isOperand head then some tail
  else none

/-- The text after the last `AS` outside parentheses. -/
def explicitAlias? (expr : Text) : Option Text :=
  ((Word.ofText expr).reverse.find? fun w => w.isTop "as").map fun w =>
    Text.trim (Text.dropBytes w.stop expr)

def isReference (expr : Text) : Bool :=
  !(expr.any fun c => c == '(' || isSpacing c) && !startsWithDigit expr

/-- The part of a reference after its last dot. -/
def referenced? (expr : Text) : Option Text :=
  if isReference expr then (Text.cutLast ['.'] expr).map Prod.snd else none

def ofExpression (expression : Text) : Text :=
  let expr := Text.trim expression
  unquote (((explicitAlias? expr <|> implicitAlias? expr) <|> referenced? expr).getD expr)

end ColumnName
end QueryWeaver
