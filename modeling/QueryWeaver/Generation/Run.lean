import QueryWeaver.Access.LayoutOption
import QueryWeaver.Generation.Plan
import QueryWeaver.Generation.Report
import QueryWeaver.Generation.Validation
import QueryWeaver.Header.Splice
/-!
One run over a source and its header. Setup statements come first, then the configuration, then the
functions in file order; a block that fails keeps its code and adds nothing to the header.
-/

namespace QueryWeaver

namespace Generation

variable {σ : Type}

structure Progress (σ : Type) where
  database : σ
  interface : Interface
  report : Report

structure Output where
  source : Text
  header : Text
  report : Report

/-- The blocks with a directive, in file order. -/
def blocksFor (directive : Directive) (segments : List Segment) : List Block :=
  (segments.filterMap Segment.block?).filter fun b => b.annotations.directive? = some directive

def setupBlock (db : Database σ) (block : Block) (p : Progress σ) : Progress σ :=
  let function := Directive.tempSetup.key
  match block.annotations.nonempty? "sql" with
  | none =>
    let missing := Error.invalidBlock function Plan.missingSql
    { p with report := p.report.fail function missing.message }
  | some sql =>
    match db.write sql p.database with
    | (.ok _, s) => { p with database := s }
    | (.error e, s) => { p with database := s, report := p.report.fail function e.message }

/-- Executes the setup statements, whether or not an earlier one failed. -/
def setup (db : Database σ) (segments : List Segment) (p : Progress σ) : Progress σ :=
  (blocksFor .tempSetup segments).foldl (fun p block => setupBlock db block p) p

/-- The layout of the source as its configuration blocks change it, and their warnings. -/
def resolveLayout (types : Collaborators) (source : Text) (segments : List Segment) :
    Layout × List Text :=
  (blocksFor .config segments).foldl
    (fun (layout, warnings) block =>
      let (next, more) := layout.apply block.annotations
      (next, warnings ++ more.map LayoutWarning.message))
    (Layout.sniff source types, [])

/-- Whether a block asks for a function, and if so whether it is checked against the schema. -/
def checked? (block : Block) : Option Bool :=
  match block.annotations.directive? with
  | some .access => some true
  | some .accessNoCheck => some false
  | _ => none

/-- The columns of a planned function; an unchecked one asks the database nothing. -/
def columns (db : Database σ) (checked : Bool) (plan : Plan) (s : σ) :
    Except Error (Option ColumnMap) × σ :=
  if checked then
    Validation.validate db plan.function plan.query plan.kind plan.fields s
  else (.ok none, s)

def accessOf (plan : Plan) (columns : Option ColumnMap) : Access :=
  ⟨plan.signature, plan.fields, plan.query, plan.shape, columns⟩

/-- Generates the code of a planned function. -/
def generatePlan (db : Database σ) (layout : Layout) (checked : Bool) (plan : Plan)
    (p : Progress σ) : Except Error Text × Progress σ :=
  let p := { p with report := p.report.warn plan.warnings }
  match columns db checked plan p.database with
  | (.error e, s) => (.error e, { p with database := s })
  | (.ok columns, s) =>
    match (accessOf plan columns).generate p.interface with
    | .error e => (.error e, { p with database := s })
    | .ok (function, interface) =>
      (.ok (function.render layout), { p with database := s, interface := interface })

def functionName (block : Block) : Text :=
  (Dictionary.get? block.annotations "func").getD Plan.unnamed

/-- Replaces the code of a block, or records why it stays. -/
def regenerateBlock (db : Database σ) (layout : Layout) (checked : Bool) (block : Block)
    (p : Progress σ) : Block × Progress σ :=
  let p := { p with report := p.report.attempt }
  match Plan.ofBlock block with
  | .error e => (block, { p with report := p.report.fail (functionName block) e.message })
  | .ok plan =>
    match generatePlan db layout checked plan p with
    | (.error e, p) => (block, { p with report := p.report.fail (functionName block) e.message })
    | (.ok code, p) =>
      ({ block with code := code }, { p with report := p.report.generate plan.function })

def regenerateSegment (db : Database σ) (layout : Layout) (p : Progress σ) :
    Segment → Segment × Progress σ
  | .plain t => (.plain t, p)
  | .annotated block =>
    match checked? block with
    | none => (.annotated block, p)
    | some checked =>
      let (block, p) := regenerateBlock db layout checked block p
      (.annotated block, p)

def regenerate (db : Database σ) (layout : Layout) :
    List Segment → Progress σ → List Segment × Progress σ
  | [], p => ([], p)
  | segment :: r, p =>
    let (segment, p) := regenerateSegment db layout p segment
    let (r, p) := regenerate db layout r p
    (segment :: r, p)

/-- Splices the interface into the header, or keeps the header and records the fault. -/
def spliceHeader (layout : Layout) (interface : Interface) (header : Text) (report : Report) :
    Text × Report :=
  match Header.splice (.ofInterface layout interface) header with
  | .ok spliced => (spliced, report)
  | .error e => (header, report.failFile e.message)

def run (db : Database σ) (types : Collaborators) (source header : Text) (s : σ) : Output × σ :=
  let segments := Segment.ofSource source
  let p := setup db segments ⟨s, .empty, .empty⟩
  let (layout, warnings) := resolveLayout types source segments
  let (segments, p) := regenerate db layout segments { p with report := p.report.warn warnings }
  let (header, report) := spliceHeader layout p.interface header p.report
  (⟨Segment.render segments, header, report⟩, p.database)

end Generation
end QueryWeaver
