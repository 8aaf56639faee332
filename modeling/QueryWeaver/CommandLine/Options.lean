import QueryWeaver.Text.Basic
/-!
The arguments of the command line. They are read from left to right, and the first one that is
wrong, or that asks for the version or for help, decides.
-/

namespace QueryWeaver

inductive ReportFormat where
  | text
  | json
  deriving DecidableEq, Repr

structure Options where
  database : Text
  source : Text
  /-- Names and paths of further databases, in turn. -/
  attach : List Text
  header : Option Text
  config : Option Text
  dryRun : Bool
  format : ReportFormat
  strict : Bool
  verbose : Bool
  deriving DecidableEq, Repr

inductive Invocation where
  | run (options : Options)
  | version
  | help
  | rejected
  deriving DecidableEq, Repr

namespace Arguments

/-- An argument that is not positional. -/
inductive Flag where
  | header
  | config
  | format
  | dryRun
  | strict
  | verbose
  | version
  | help
  deriving DecidableEq, Repr

namespace Flag

def takesValue : Flag → Bool
  | header => true
  | config => true
  | format => true
  | _ => false

def longNames : List (Text × Flag) :=
  [("header", header), ("config", config), ("format", format), ("dry-run", dryRun),
    ("strict", strict), ("verbose", verbose), ("version", version), ("help", help)]

def ofLong? (name : Text) : Option Flag :=
  (longNames.find? fun f => f.1 == name).map Prod.snd

def ofShort? (c : Char) : Option Flag :=
  if c = 'c' then some config
  else if c = 'f' then some format
  else if c = 'n' then some dryRun
  else if c = 'v' then some verbose
  else if c = 'V' then some version
  else if c = 'h' then some help
  else none

end Flag

/-- What has been read: positional arguments in order, and each flag with its value. -/
structure Read where
  positional : List Text
  flags : List (Flag × Text)

/-- Why reading stops before the last argument. -/
inductive Stop where
  | wrong
  | version
  | help

def formatOf? (value : Text) : Option ReportFormat :=
  if value = "text" then some .text
  else if value = "json" then some .json
  else none

/-- Paths are not empty, and a format is a known one. -/
def acceptsValue (flag : Flag) (value : Text) : Bool :=
  if flag = .format then (formatOf? value).isSome else !value.isEmpty

def give (r : Read) (flag : Flag) (value : Text) : Except Stop Read :=
  if flag = .version then .error .version
  else if flag = .help then .error .help
  else if r.flags.any (fun f => f.1 = flag) then .error .wrong
  else if flag.takesValue && !acceptsValue flag value then .error .wrong
  else .ok { r with flags := r.flags ++ [(flag, value)] }

/-- The second positional argument is the source, which is not empty. -/
def givePositional (r : Read) (value : Text) : Except Stop Read :=
  if r.positional.length = 1 ∧ value.isEmpty then .error .wrong
  else .ok { r with positional := r.positional ++ [value] }

/-- An argument that begins with a dash and is not a dash alone cannot be a value. -/
def isDashed (t : Text) : Bool := t.head? == some '-' && t.length != 1

/-- Reads letters after a single dash. Gives the flag whose value is still to come. -/
def shorts (r : Read) : Text → Except Stop (Read × Option Flag)
  | [] => .ok (r, none)
  | c :: rest =>
    match Flag.ofShort? c with
    | none => .error .wrong
    | some flag =>
      if flag.takesValue then
        match rest with
        | [] => .ok (r, some flag)
        | '=' :: value => (give r flag value).map fun r => (r, none)
        | value => (give r flag value).map fun r => (r, none)
      else
        match give r flag [] with
        | .error stop => .error stop
        | .ok r => shorts r rest

/-- Reads what follows two dashes. -/
def long (r : Read) (t : Text) : Except Stop (Read × Option Flag) :=
  let (name, value) := match Text.cut ['='] t with
    | some (name, value) => (name, some value)
    | none => (t, none)
  match Flag.ofLong? name, value with
  | none, _ => .error .wrong
  | some flag, some value =>
    if flag.takesValue then (give r flag value).map fun r => (r, none) else .error .wrong
  | some flag, none =>
    if flag.takesValue then .ok (r, some flag) else (give r flag []).map fun r => (r, none)

/-- One argument when no value is awaited. -/
def argument (r : Read) (t : Text) : Except Stop (Read × Option Flag) :=
  match t with
  | '-' :: '-' :: rest => long r rest
  | '-' :: c :: rest => shorts r (c :: rest)
  | t => (givePositional r t).map fun r => (r, none)

/-- Reads all arguments; `awaited` is a flag that the next one must give a value. After two dashes
alone all arguments are positional. -/
def readFrom (r : Read) (awaited : Option Flag) : List Text → Except Stop Read
  | [] => if awaited.isSome then .error .wrong else .ok r
  | t :: rest =>
    match awaited with
    | some flag =>
      if isDashed t then .error .wrong
      else match give r flag t with
        | .error stop => .error stop
        | .ok r => readFrom r none rest
    | none =>
      if t = "--" then rest.foldlM givePositional r
      else match argument r t with
        | .error stop => .error stop
        | .ok (r, awaited) => readFrom r awaited rest

def valueOf? (r : Read) (flag : Flag) : Option Text :=
  (r.flags.find? fun f => f.1 = flag).map Prod.snd

/-- Database and source are required. -/
def options? (r : Read) : Option Options :=
  match r.positional with
  | database :: source :: attach =>
    some {
      database := database
      source := source
      attach := attach
      header := valueOf? r .header
      config := valueOf? r .config
      dryRun := (valueOf? r .dryRun).isSome
      format := ((valueOf? r .format).bind formatOf?).getD .text
      strict := (valueOf? r .strict).isSome
      verbose := (valueOf? r .verbose).isSome }
  | _ => none

end Arguments

def Invocation.ofArguments (arguments : List Text) : Invocation :=
  match Arguments.readFrom ⟨[], []⟩ none arguments with
  | .error .wrong => rejected
  | .error .version => version
  | .error .help => help
  | .ok r =>
    match Arguments.options? r with
    | some options => run options
    | none => rejected

end QueryWeaver
