import Mathlib
import QueryWeaver.Proofs.Access.Emission
/-!
The lines of generated code, spelled out as they stand there. A function prepares its statement and
binds its values, then it reads rows or writes, and then it resets and returns. A header declares
members, functions and records.
-/

namespace QueryWeaver

/-- A line of code and how often it is indented. -/
structure CodeLine where
  depth : Nat
  text : Text
  deriving DecidableEq, Repr

namespace CodeLine

def render (layout : Layout) (l : CodeLine) : Text :=
  (List.replicate l.depth layout.indent).flatten ++ l.text ++ layout.newline

theorem line_eq (layout : Layout) (depth : Nat) (text : Text) :
    layout.line depth text = render layout ⟨depth, text⟩ := by
  have indentation : layout.indentation depth = (List.replicate depth layout.indent).flatten := by
    induction depth with
    | zero => rfl
    | succ depth ih => rw [Layout.indentation, ih, List.replicate_succ, List.flatten_cons]
  rw [Layout.line, indentation, render]

end CodeLine

/-- The text of the function has these lines between its braces. -/
def GeneratedFunction.Written (f : GeneratedFunction) (layout : Layout) (lines : List CodeLine) :
    Prop :=
  f.render layout = layout.newline ++ f.returnType ++ " " ++ f.qualifiedName ++ "(" ++
    Text.joinWith ", " (f.params.map fun p => p.type ++ " " ++ p.name) ++ ")" ++ layout.newline ++
    ['{'] ++ layout.newline ++ lines.flatMap (CodeLine.render layout) ++ ['}']

instance (f : GeneratedFunction) (layout : Layout) (lines : List CodeLine) :
    Decidable (f.Written layout lines) := inferInstanceAs (Decidable (_ = _))

/-- The members that the header declares for a record. -/
def Record.members (record : Record) : List Field :=
  (if record.hasExists then [⟨"bool", "exists"⟩] else []) ++ record.fields

namespace Interface

theorem renderMember_line (layout : Layout) (m : Text) :
    renderMember layout m = CodeLine.render layout ⟨1, layout.queryType ++ " " ++ m ++ ";"⟩ :=
  CodeLine.line_eq ..

theorem renderPrototype_line (layout : Layout) (p : Prototype) :
    renderPrototype layout p = CodeLine.render layout ⟨1, p.returnType ++ " " ++ p.method ++ "(" ++
      Text.joinWith ", " (p.params.map fun q => q.type ++ " " ++ q.name) ++ ");"⟩ :=
  CodeLine.line_eq ..

theorem renderRecord_lines (layout : Layout) (record : Record) :
    renderRecord layout record =
      ([⟨1, "struct " ++ record.name⟩, ⟨1, ['{']⟩] ++
        (record.members.map fun m => ⟨2, m.type ++ " " ++ m.name ++ ";"⟩) ++
        [⟨1, ['}', ';']⟩] : List CodeLine).flatMap (CodeLine.render layout) := by
  cases flag : record.hasExists with
  | false => simp [renderRecord, Record.members, flag, CodeLine.line_eq, List.flatMap_map]
  | true =>
    have line : ("bool exists;" : Text) = "bool" ++ " " ++ "exists" ++ ";" := by decide
    simp [renderRecord, Record.members, flag, CodeLine.line_eq, List.flatMap_map, line]

end Interface

namespace Shape

/-- One value or record for each row. -/
def collects : Shape → Bool
  | recordCollection _ | scalarCollection _ => true
  | _ => false

/-- The result is there, with zeros for values, also if no row matched. -/
def zeroed : Shape → Bool
  | rawScalar _ | condScalar _ | condRecord _ => true
  | _ => false

/-- The shape takes its value from one column. -/
def readsOne : Shape → Bool
  | scalarCollection _ | optional _ | rawScalar _ | condScalar _ => true
  | _ => false

/-- The variable whose fields a function reads into. -/
def object : Shape → Text
  | recordCollection _ => "obj"
  | _ => "ret"

/-- What a function reads the value of one column into. -/
def holder : Shape → Text
  | scalarCollection _ => "ret.back()"
  | optional _ => "*ret"
  | condScalar _ => "ret.value"
  | _ => "ret"

end Shape

namespace Access

/-- How a read names a column: by its position if that is known, else by its name in quotes. -/
def columnText (a : Access) (name : Text) : Text :=
  match a.columns.bind (·.indexOf? name) with
  | some position => Nat.toDigits 10 position
  | none => "\"" ++ name ++ "\""

/-- The columns that a function reads, each with the target that it is read into. A shape of one
column names none if there is no field. -/
def reads (a : Access) : List (Text × Text) :=
  if a.shape.readsOne then
    [((a.fields.head?.map fun f => a.columnText f.name).getD [], a.shape.holder)]
  else if a.shape.readsRows then
    a.fields.map fun f => (a.columnText f.name, a.shape.object ++ "." ++ f.name)
  else []

/-- The lines that prepare the statement and bind its values. -/
def preparing (a : Access) : List CodeLine :=
  let member := ("_" : Text) ++ a.signature.method
  [⟨1, "if(!" ++ member ++ ".prepared())"⟩, ⟨1, ['{']⟩,
    ⟨2, member ++ "=db.prepare(\"" ++ escapeLiteral a.query.sql ++ "\");"⟩, ⟨1, ['}']⟩] ++
    a.query.params.map fun p => ⟨1, member ++ ".bind(" ++
      (if p.type = "blob" then p.name ++ ".data(), " ++ p.name ++ ".size()" else p.name) ++ ");"⟩

/-- The lines that go over the rows of the statement, with lines for one row. -/
def looping (a : Access) (layout : Layout) (rows : List Text) : List CodeLine :=
  [⟨1, layout.cursorType ++ "& cursor=_" ++ a.signature.method ++ ".cursor();"⟩,
    ⟨1, a.shape.returnType a.signature.scopePrefix ++ " ret" ++
      (if a.shape.zeroed then ['{', '}', ';'] else [';'])⟩,
    ⟨1, if a.shape.collects then "while(cursor.next())" else "if(cursor.next())"⟩, ⟨1, ['{']⟩] ++
    rows.map (⟨2, ·⟩) ++ [⟨1, ['}']⟩]

/-- The lines for one row before its columns are read. -/
def opening (a : Access) (flagged : Bool) : List Text :=
  match a.shape with
  | .recordCollection record =>
    "ret.emplace_back();" :: (a.signature.scopePrefix ++ record ++ "& obj=ret.back();") ::
      if flagged then ["obj.exists=true;"] else []
  | .scalarCollection _ => ["ret.emplace_back();"]
  | .optional _ => ["ret.emplace();"]
  | .condScalar _ | .condRecord _ => ["ret.exists=true;"]
  | _ => []

/-- The lines between the binds and the reset. -/
def transferring (a : Access) (layout : Layout) (flagged : Bool) : List CodeLine :=
  match a.shape with
  | .mutation true => [⟨1, "bool ret=_" ++ a.signature.method ++ ".write();"⟩]
  | .mutation false => [⟨1, "_" ++ a.signature.method ++ ".write();"⟩]
  | _ => a.looping layout (a.opening flagged ++
      a.reads.map fun r : Text × Text => ("cursor.get(" ++ r.1 ++ ", " ++ r.2 ++ ");" : Text))

/-- The lines that reset what was bound and return the result. -/
def finishing (a : Access) : List CodeLine :=
  (if a.query.params.isEmpty then [] else [⟨1, "_" ++ a.signature.method ++ ".reset();"⟩]) ++
    if a.shape = .mutation false then [] else [⟨1, "return ret;"⟩]

/-- All lines of the body. -/
def lines (a : Access) (layout : Layout) (flagged : Bool) : List CodeLine :=
  a.preparing ++ a.transferring layout flagged ++ a.finishing

variable {a : Access} {layout : Layout}

theorem render_column (a : Access) (name : Text) : (a.column name).render = a.columnText name := by
  unfold column columnText
  cases a.columns.bind (·.indexOf? name) <;> rfl

theorem render_firstColumn (a : Access) :
    (a.firstColumn.map ColumnRef.render).getD [] =
      (a.fields.head?.map fun f => a.columnText f.name).getD [] := by
  rw [firstColumn]
  cases a.fields.head? with
  | none => rfl
  | some f => exact a.render_column f.name

theorem reads_one (one : a.shape.readsOne = true) :
    a.reads =
      [((a.fields.head?.map fun f => a.columnText f.name).getD [], a.shape.holder)] := if_pos one

theorem reads_many (several : a.shape.readsOne = false) (reading : a.shape.readsRows = true) :
    a.reads = a.fields.map fun f => (a.columnText f.name, a.shape.object ++ "." ++ f.name) := by
  simp [reads, several, reading]

theorem render_readFields (several : a.shape.readsOne = false)
    (reading : a.shape.readsRows = true) :
    (a.readFields a.shape.object).map RowStep.render =
      a.reads.map fun r : Text × Text => ("cursor.get(" ++ r.1 ++ ", " ++ r.2 ++ ");" : Text) := by
  rw [reads_many several reading, readFields, List.map_map, List.map_map]
  apply List.map_congr_left
  intro f _
  simp only [Function.comp_apply, ← a.render_column f.name]
  rfl

theorem render_readOne (one : a.shape.readsOne = true) (before : List RowStep) :
    (before ++ [RowStep.read a.firstColumn a.shape.holder]).map RowStep.render =
      before.map RowStep.render ++ a.reads.map
        fun r : Text × Text => ("cursor.get(" ++ r.1 ++ ", " ++ r.2 ++ ");" : Text) := by
  rw [List.map_append, List.map_singleton, reads_one one, List.map_singleton,
    ← a.render_firstColumn]
  rfl

theorem render_preparing (a : Access) (layout : Layout) :
    (BodyStep.prepare a.query.sql).render layout a.member ++
        (a.query.params.flatMap fun p => (BodyStep.bind p).render layout a.member) =
      a.preparing.flatMap (CodeLine.render layout) := by
  have binds : ∀ p ∈ a.query.params, (BodyStep.bind p).render layout a.member =
      CodeLine.render layout ⟨1, a.member ++ ".bind(" ++ (if p.type = "blob" then
        p.name ++ ".data(), " ++ p.name ++ ".size()" else p.name) ++ ");"⟩ := by
    intro p _
    rw [BodyStep.render, BodyStep.renderBind, CodeLine.line_eq]
    split <;> simp
  rw [List.flatMap_congr binds]
  simp only [preparing, BodyStep.render, CodeLine.line_eq, List.flatMap_append, List.flatMap_cons,
    List.flatMap_nil, List.flatMap_map, List.append_nil, List.append_assoc]
  rfl

theorem render_rows (layout : Layout) (head : Text) (steps : List RowStep) :
    BodyStep.renderRows layout head steps =
      ([⟨1, head⟩, ⟨1, ['{']⟩] ++ (steps.map RowStep.render).map (⟨2, ·⟩) ++
        [⟨1, ['}']⟩] : List CodeLine).flatMap (CodeLine.render layout) := by
  simp [BodyStep.renderRows, CodeLine.line_eq, List.flatMap_map]

/-- Opening a cursor, declaring the result and going over the rows. -/
theorem render_looping (a : Access) (layout : Layout) (steps : List RowStep) :
    (BodyStep.openCursor).render layout a.member ++
        (BodyStep.declareResult (a.shape.returnType a.signature.scopePrefix)
          a.shape.zeroed).render layout a.member ++
        (if a.shape.collects then BodyStep.eachRow steps
          else BodyStep.firstRow steps).render layout a.member =
      (a.looping layout (steps.map RowStep.render)).flatMap (CodeLine.render layout) := by
  have rows : (if a.shape.collects then BodyStep.eachRow steps
      else BodyStep.firstRow steps).render layout a.member =
      BodyStep.renderRows layout
        (if a.shape.collects then "while(cursor.next())" else "if(cursor.next())") steps := by
    split <;> rfl
  rw [rows, render_rows]
  simp only [looping, BodyStep.render, CodeLine.line_eq, List.flatMap_append, List.flatMap_cons,
    List.flatMap_nil, List.append_nil, List.append_assoc]
  rfl

/-- The lines for one row of a shape. -/
theorem render_opening (a : Access) (flagged : Bool)
    (reading : a.shape.readsRows = true) :
    ∃ steps : List RowStep,
      a.transfer flagged = [.openCursor,
        .declareResult (a.shape.returnType a.signature.scopePrefix) a.shape.zeroed,
        if a.shape.collects then .eachRow steps else .firstRow steps] ∧
      steps.map RowStep.render = a.opening flagged ++
        a.reads.map fun r : Text × Text => ("cursor.get(" ++ r.1 ++ ", " ++ r.2 ++ ");" : Text) := by
  cases shape : a.shape with
  | mutation returnsBool =>
    rw [shape] at reading
    cases reading
  | recordCollection record =>
    have many := render_readFields (a := a) (by rw [shape]; rfl) (by rw [shape]; rfl)
    simp only [shape, Shape.object] at many
    refine ⟨_, by rw [transfer, shape]; rfl, ?_⟩
    rw [opening, shape, List.map_append, many]
    cases flagged <;> rfl
  | condRecord record =>
    have many := render_readFields (a := a) (by rw [shape]; rfl) (by rw [shape]; rfl)
    simp only [shape, Shape.object] at many
    refine ⟨_, by rw [transfer, shape]; rfl, ?_⟩
    rw [opening, shape, List.map_cons, many]
    rfl
  | scalarCollection =>
    have one := render_readOne (a := a) (by rw [shape]; rfl) [.append]
    rw [shape] at one
    exact ⟨_, by rw [transfer, shape]; rfl, by rw [opening, shape]; exact one⟩
  | optional =>
    have one := render_readOne (a := a) (by rw [shape]; rfl) [.engage]
    rw [shape] at one
    exact ⟨_, by rw [transfer, shape]; rfl, by rw [opening, shape]; exact one⟩
  | rawScalar =>
    have one := render_readOne (a := a) (by rw [shape]; rfl) []
    rw [shape] at one
    exact ⟨_, by rw [transfer, shape]; rfl, by rw [opening, shape]; exact one⟩
  | condScalar =>
    have one := render_readOne (a := a) (by rw [shape]; rfl) [.markExists "ret"]
    rw [shape] at one
    exact ⟨_, by rw [transfer, shape]; rfl, by rw [opening, shape]; exact one⟩

theorem render_transferring (a : Access) (layout : Layout) (flagged : Bool) :
    ((a.transfer flagged).flatMap fun s => s.render layout a.member) =
      (a.transferring layout flagged).flatMap (CodeLine.render layout) := by
  cases shape : a.shape with
  | mutation returnsBool =>
    cases returnsBool
    all_goals simp [transfer, transferring, shape, BodyStep.render, CodeLine.line_eq, member]
  | _ =>
    obtain ⟨steps, body, rows⟩ := a.render_opening flagged (by rw [shape]; rfl)
    have loop := a.render_looping layout steps
    rw [rows] at loop
    rw [transferring, shape, body]
    simpa using loop

theorem render_finishing (a : Access) (layout : Layout) :
    (if a.query.params.isEmpty then [] else BodyStep.reset.render layout a.member) ++
        (if a.returnsValue then BodyStep.returnResult.render layout a.member else []) =
      a.finishing.flatMap (CodeLine.render layout) := by
  have returned : (a.returnsValue = true) ↔ ¬a.shape = .mutation false := by
    simp [returnsValue]
  simp only [returned]
  rw [finishing, List.flatMap_append]
  split <;> split <;> simp_all [BodyStep.render, CodeLine.line_eq, member]

theorem written_function (a : Access) (records : Registry) (layout : Layout) :
    (a.function records).Written layout (a.lines layout (flagged records a.shape)) := by
  have body := (a.staged_function records).flatMap fun s => s.render layout a.member
  rw [render_transferring, render_preparing] at body
  have finish := a.render_finishing layout
  rw [List.append_assoc, finish, ← List.flatMap_append, ← List.flatMap_append] at body
  have params : renderParams (a.function records).params =
      Text.joinWith ", " ((a.function records).params.map fun p => p.type ++ " " ++ p.name) := rfl
  have member : (a.function records).member = a.member := rfl
  rw [GeneratedFunction.Written, GeneratedFunction.render, member, body, params, lines]

theorem lines_writing {returnsBool : Bool} (writing : a.shape = .mutation returnsBool)
    (flagged : Bool) :
    a.lines layout flagged = a.preparing ++ [⟨1, (if returnsBool then "bool ret=_" else "_") ++
      a.signature.method ++ ".write();"⟩] ++ a.finishing := by
  rw [lines, transferring, writing]
  cases returnsBool <;> rfl

theorem lines_reading (reading : a.shape.readsRows = true) (flagged : Bool) :
    a.lines layout flagged = a.preparing ++ a.looping layout (a.opening flagged ++
      a.reads.map fun r : Text × Text => ("cursor.get(" ++ r.1 ++ ", " ++ r.2 ++ ");" : Text)) ++
        a.finishing := by
  rw [lines, transferring]
  cases shape : a.shape with
  | mutation returnsBool =>
    rw [shape] at reading
    cases reading
  | _ => rfl

theorem lines_collection {name : Text} (collects : a.shape = .recordCollection name)
    (flagged : Bool) :
    a.lines layout flagged = a.preparing ++ a.looping layout
      ([("ret.emplace_back();" : Text), a.signature.scopePrefix ++ name ++ "& obj=ret.back();"] ++
        (if flagged then [("obj.exists=true;" : Text)] else []) ++ a.reads.map
          fun r : Text × Text => ("cursor.get(" ++ r.1 ++ ", " ++ r.2 ++ ");" : Text)) ++
        a.finishing := by
  rw [lines_reading (by rw [collects]; rfl), opening, collects]
  rfl

theorem generate_written {i next : Interface} {f : GeneratedFunction}
    (generated : a.generate i = .ok (f, next)) (layout : Layout) :
    f.Written layout (a.lines layout (flagged next.records a.shape)) := by
  obtain ⟨rfl, -⟩ := generate_function generated
  exact a.written_function next.records layout

end Access
end QueryWeaver
