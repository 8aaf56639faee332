import Mathlib
import QueryWeaver.Header.Splice
import QueryWeaver.Proofs.Access.Lines
import QueryWeaver.Proofs.Access.Registration
import QueryWeaver.Proofs.Annotation.Values
import QueryWeaver.Proofs.Header.Resplice
/-!
What generated functions refer to and what the header declares. Members, declarations and records
that a function needed when it was generated are still there after all later functions.
-/

namespace QueryWeaver

/-- The type that a step gives a name to. -/
def RowStep.type? : RowStep → Option Text
  | nameLast type => some type
  | _ => none

namespace BodyStep

def rows : BodyStep → List RowStep
  | eachRow steps => steps
  | firstRow steps => steps
  | _ => []

/-- The result types that a step mentions. -/
def types : BodyStep → List Text
  | declareResult type _ => [type]
  | step => step.rows.filterMap RowStep.type?

end BodyStep

namespace GeneratedFunction

def rows (f : GeneratedFunction) : List RowStep := f.body.flatMap BodyStep.rows

def types (f : GeneratedFunction) : List Text := f.returnType :: f.body.flatMap BodyStep.types

end GeneratedFunction

/-- The record itself, and a collection of it. -/
def Record.spellings (record : Record) (scope : Text) : List Text :=
  [scope ++ record.name, "std::vector<" ++ scope ++ record.name ++ ">"]

/-- The record declares what the function takes from it, but the value of a wrapper for which no
field was given. -/
structure Record.Serves (record : Record) (a : Access) (f : GeneratedFunction) : Prop where
  fields : record.fields = a.shape.recordFields a.fields
  types : ∀ type ∈ f.types, type ∈ record.spellings a.signature.scopePrefix
  targets : ∀ column target, .read column target ∈ f.rows →
    (∃ field ∈ record.fields, target = "obj." ++ field.name ∨ target = "ret." ++ field.name) ∨
      (∃ name, a.shape = .condScalar name) ∧ a.fields = [] ∧ target = "ret.value"
  reads : ∀ r ∈ a.reads,
    (∃ field ∈ record.fields, r.2 = "obj." ++ field.name ∨ r.2 = "ret." ++ field.name) ∨
      (∃ name, a.shape = .condScalar name) ∧ a.fields = [] ∧ r.2 = "ret.value"
  flag : ∀ object, .markExists object ∈ f.rows → record.hasExists = true

namespace Access

variable {a : Access} {records : Registry}

/-- What is read off a body comes from the transfer of its rows, where the steps around it give
nothing. -/
theorem flatMap_function {β : Type} {read : BodyStep → List β}
    (prepares : ∀ sql, read (.prepare sql) = []) (binds : ∀ param, read (.bind param) = [])
    (reset : read .reset = []) (result : read .returnResult = []) (a : Access)
    (records : Registry) :
    (a.function records).body.flatMap read =
      (a.transfer (flagged records a.shape)).flatMap read := by
  rw [(a.staged_function records).flatMap]
  simp [prepares, binds, reset, result]

theorem rows_function (a : Access) (records : Registry) :
    (a.function records).rows = (a.transfer (flagged records a.shape)).flatMap BodyStep.rows :=
  flatMap_function (fun _ => rfl) (fun _ => rfl) rfl rfl a records

theorem types_function (a : Access) (records : Registry) :
    (a.function records).types =
      a.shape.returnType a.signature.scopePrefix ::
        (a.transfer (flagged records a.shape)).flatMap BodyStep.types :=
  congrArg (a.shape.returnType a.signature.scopePrefix :: ·)
    (flatMap_function (fun _ => rfl) (fun _ => rfl) rfl rfl a records)

theorem flagged_iff {name : Text} :
    flagged records (.recordCollection name) = true ↔ Registry.Flagged records name := by
  cases known : Dictionary.get? records name <;> simp [flagged, Registry.Flagged, known]

/-- A flag is set for a shape that needs it, and for a collection whose record has it by then. -/
theorem marks_function {object : Text} (marked : .markExists object ∈ (a.function records).rows) :
    ∃ name needsExists, a.shape.record? = some (name, needsExists) ∧
      (needsExists = true ∨ Registry.Flagged records name) := by
  rw [rows_function] at marked
  obtain ⟨flag, known⟩ : ∃ flag, flagged records a.shape = flag := ⟨_, rfl⟩
  rw [known] at marked
  cases shape : a.shape with
  | recordCollection name =>
    have set : flag = true := by
      cases flag with
      | false => simp [transfer, shape, BodyStep.rows, readFields] at marked
      | true => rfl
    rw [shape, set, flagged_iff] at known
    exact ⟨name, false, rfl, .inr known⟩
  | condScalar name => exact ⟨name, true, rfl, .inl rfl⟩
  | condRecord name => exact ⟨name, true, rfl, .inl rfl⟩
  | mutation returnsBool => cases returnsBool <;> simp [transfer, shape, BodyStep.rows] at marked
  | _ => simp [transfer, shape, BodyStep.rows] at marked

/-- The loop of a collection sets flags if the record has one by then. -/
theorem marks_object (a : Access) (records : Registry) :
    .markExists "obj" ∈ (a.function records).rows ↔ flagged records a.shape = true := by
  rw [rows_function]
  cases shape : a.shape with
  | recordCollection name =>
    cases flagged records (.recordCollection name) with
    | false => simp [transfer, shape, BodyStep.rows, readFields]
    | true => simp [transfer, shape, BodyStep.rows]
  | mutation returnsBool => cases returnsBool <;> simp [transfer, shape, BodyStep.rows, flagged]
  | _ => simp [transfer, shape, BodyStep.rows, flagged, readFields]

theorem readFields_types (a : Access) (object : Text) :
    (a.readFields object).filterMap RowStep.type? = [] := by
  simp [readFields, RowStep.type?]

/-- The types in a body are the result type and, for a collection, its record. -/
theorem transfer_types (a : Access) (flag : Bool) :
    ∀ step ∈ a.transfer flag, ∀ type ∈ step.types,
      type = a.shape.returnType a.signature.scopePrefix ∨
        ∃ name, a.shape = .recordCollection name ∧ type = a.signature.scopePrefix ++ name := by
  intro step member type named
  cases shape : a.shape with
  | recordCollection name =>
    simp only [transfer, shape, List.mem_cons, List.not_mem_nil, or_false] at member
    rcases member with rfl | rfl | rfl
    · cases named
    · exact .inl (List.mem_singleton.mp named)
    · refine .inr ⟨name, rfl, ?_⟩
      have marks : (if flag then [RowStep.markExists "obj"] else []).filterMap RowStep.type? =
          [] := by
        cases flag <;> rfl
      rw [BodyStep.types, BodyStep.rows, List.filterMap_append, List.filterMap_append, marks,
        readFields_types] at named
      · exact List.mem_singleton.mp named
      · simp
  | mutation returnsBool =>
    cases returnsBool
    all_goals
      simp only [transfer, shape, List.mem_singleton] at member
      subst member
      cases named
  | condRecord name =>
    simp only [transfer, shape, List.mem_cons, List.not_mem_nil, or_false] at member
    rcases member with rfl | rfl | rfl
    · cases named
    · exact .inl (List.mem_singleton.mp named)
    · rw [BodyStep.types, BodyStep.rows, List.filterMap_cons, readFields_types] at named
      · cases named
      · simp
  | _ =>
    simp only [transfer, shape, List.mem_cons, List.not_mem_nil, or_false] at member
    rcases member with rfl | rfl | rfl
    · cases named
    · exact .inl (List.mem_singleton.mp named)
    · cases named

/-- A function of a shape with a record names only types made of that record. -/
theorem types_record {name : Text} {needsExists : Bool} {record : Record}
    (needed : a.shape.record? = some (name, needsExists)) (same : record.name = name) :
    ∀ type ∈ (a.function records).types, type ∈ record.spellings a.signature.scopePrefix := by
  subst same
  have result : a.shape.returnType a.signature.scopePrefix ∈
      record.spellings a.signature.scopePrefix := by
    cases shape : a.shape with
    | recordCollection =>
      rw [shape] at needed
      cases needed
      exact List.mem_cons_of_mem _ (List.mem_singleton.mpr rfl)
    | condScalar =>
      rw [shape] at needed
      cases needed
      exact List.mem_cons_self ..
    | condRecord =>
      rw [shape] at needed
      cases needed
      exact List.mem_cons_self ..
    | _ => simp [shape, Shape.record?] at needed
  intro type member
  rw [types_function] at member
  rcases List.mem_cons.mp member with rfl | inside
  · exact result
  · obtain ⟨step, known, named⟩ := List.mem_flatMap.mp inside
    rcases a.transfer_types _ step known type named with rfl | ⟨other, shape, rfl⟩
    · exact result
    · rw [shape] at needed
      cases needed
      exact List.mem_cons_self ..

theorem reads_readFields {column : Option ColumnRef} {object target : Text}
    (read : .read column target ∈ a.readFields object) :
    ∃ f ∈ a.fields, target = object ++ "." ++ f.name := by
  obtain ⟨f, known, same⟩ := List.mem_map.mp read
  cases same
  exact ⟨f, known, rfl⟩

/-- A function of a shape with a record reads into the fields of that record. -/
theorem reads_record {name : Text} {needsExists : Bool} {column : Option ColumnRef} {target : Text}
    (needed : a.shape.record? = some (name, needsExists))
    (read : .read column target ∈ (a.function records).rows) :
    (∃ field ∈ a.shape.recordFields a.fields,
        target = "obj." ++ field.name ∨ target = "ret." ++ field.name) ∨
      (∃ name, a.shape = .condScalar name) ∧ a.fields = [] ∧ target = "ret.value" := by
  rw [rows_function] at read
  generalize flagged records a.shape = flag at read
  cases shape : a.shape with
  | recordCollection name =>
    have inside : .read column target ∈ a.readFields "obj" := by
      cases flag <;> simpa [transfer, shape, BodyStep.rows] using read
    obtain ⟨f, known, rfl⟩ := reads_readFields inside
    exact .inl ⟨_, List.mem_map.mpr ⟨f, known, rfl⟩, .inl rfl⟩
  | condRecord name =>
    have inside : .read column target ∈ a.readFields "ret" := by
      simpa [transfer, shape, BodyStep.rows] using read
    obtain ⟨f, known, rfl⟩ := reads_readFields inside
    exact .inl ⟨_, List.mem_map.mpr ⟨f, known, rfl⟩, .inr rfl⟩
  | condScalar name =>
    have value : target = "ret.value" := by
      have both : column = a.firstColumn ∧ target = "ret.value" := by
        simpa [transfer, shape, BodyStep.rows] using read
      exact both.2
    cases given : a.fields with
    | nil => exact .inr ⟨⟨name, rfl⟩, rfl, value⟩
    | cons f r =>
      exact .inl ⟨⟨CodeType.stored f.type, "value"⟩, List.mem_singleton.mpr rfl, .inr value⟩
  | _ => simp [shape, Shape.record?] at needed

/-- A column that is read for a record stands in a row step. -/
theorem read_row {name : Text} {needsExists : Bool} {r : Text × Text}
    (needed : a.shape.record? = some (name, needsExists)) (read : r ∈ a.reads)
    (records : Registry) : ∃ column, .read column r.2 ∈ (a.function records).rows := by
  rw [rows_function]
  cases shape : a.shape with
  | recordCollection =>
    rw [reads_many (by rw [shape]; rfl) (by rw [shape]; rfl), shape] at read
    obtain ⟨f, known, rfl⟩ := List.mem_map.mp read
    refine ⟨some (a.column f.name), ?_⟩
    simp only [transfer, shape, List.flatMap_cons, BodyStep.rows, List.mem_append]
    exact .inr (.inr (.inl (.inr (List.mem_map.mpr ⟨f, known, rfl⟩))))
  | condRecord =>
    rw [reads_many (by rw [shape]; rfl) (by rw [shape]; rfl), shape] at read
    obtain ⟨f, known, rfl⟩ := List.mem_map.mp read
    refine ⟨some (a.column f.name), ?_⟩
    simp only [transfer, shape, List.flatMap_cons, BodyStep.rows, List.mem_append]
    exact .inr (.inr (.inl (List.mem_cons_of_mem _ (List.mem_map.mpr ⟨f, known, rfl⟩))))
  | condScalar =>
    rw [reads_one (by rw [shape]; rfl), shape] at read
    obtain rfl := List.mem_singleton.mp read
    refine ⟨a.firstColumn, ?_⟩
    rw [transfer, shape]
    exact List.mem_cons_of_mem _ (List.mem_singleton_self _)
  | _ => simp [shape, Shape.record?] at needed

theorem addMember_eraseDups (seen : List Text) (m : Text) :
    Interface.addMember seen.eraseDups m = (seen ++ [m]).eraseDups := by
  rw [List.eraseDups_append, Interface.addMember]
  by_cases known : m ∈ seen
  · simp [List.removeAll, known]
  · simp [List.removeAll, known, List.eraseDups_cons]

/-- The members of a run are those of its functions, each where it comes first. -/
theorem emitAll_members {accesses : List Access} {i : Interface} (seen : List Text)
    (members : i.members = seen.eraseDups) :
    (emitAll accesses i).2.members =
      (seen ++ (emitAll accesses i).1.map fun e => e.2.member).eraseDups := by
  fun_induction emitAll accesses i generalizing seen with
  | case1 => simpa using members
  | case2 a r i error failed ih => exact ih seen members
  | case3 a r i f next generated emitted last rest ih =>
    obtain ⟨function, -, -, added⟩ := generate_function generated
    have member : f.member = a.member := by rw [function]; rfl
    have later := ih (seen ++ [f.member]) (by
      rw [added, members, member, addMember_eraseDups])
    rw [rest] at later
    simpa using later

theorem emitAll_prototypes (accesses : List Access) (i : Interface) :
    (emitAll accesses i).2.prototypes =
      i.prototypes ++ (emitAll accesses i).1.map fun e => e.1.prototype := by
  fun_induction emitAll accesses i with
  | case1 => simp
  | case2 a r i error failed ih => exact ih
  | case3 a r i f next generated emitted last rest ih =>
    obtain ⟨-, -, prototypes, -⟩ := generate_function generated
    rw [rest, prototypes, List.append_assoc] at ih
    exact ih

/-- The registry of a run grows from each generated function to the end. -/
theorem emitAll_registered (accesses : List Access) {i : Interface} (named : i.records.Named) :
    let last := (emitAll accesses i).2.records
    last.Named ∧ i.records.Grows last ∧
      ∀ e ∈ (emitAll accesses i).1, ∃ before records,
        Registry.Named before ∧ Registry.register before e.1.shape e.1.fields = .ok records ∧
          e.2 = e.1.function records ∧ records.Grows last := by
  fun_induction emitAll accesses i with
  | case1 => exact ⟨named, .refl _, by simp⟩
  | case2 a r i error failed ih => exact ih named
  | case3 a r i f next generated emitted last rest ih =>
    obtain ⟨function, registered, -, -⟩ := generate_function generated
    obtain ⟨named', grows⟩ := Registry.register_grows named registered
    obtain ⟨named'', grows', each⟩ := ih named'
    rw [rest] at named'' grows' each
    refine ⟨named'', grows.trans grows', ?_⟩
    intro e member
    rcases List.mem_cons.mp member with rfl | member
    · exact ⟨i.records, next.records, named, registered, function, grows'⟩
    · exact each e member

/-- The record of a function when it is generated serves it after all later functions. -/
theorem emitAll_serves {accesses : List Access} {e : Access × GeneratedFunction}
    (emitted : e ∈ (emitAll accesses .empty).1) {name : Text} {needsExists : Bool}
    (needed : e.1.shape.record? = some (name, needsExists)) :
    ∃ record, Dictionary.get? (emitAll accesses .empty).2.records name = some record ∧
      record.name = name ∧ record.Serves e.1 e.2 := by
  obtain ⟨named, -, each⟩ := emitAll_registered accesses (i := .empty) Registry.named_empty
  obtain ⟨before, records, start, registered, function, grows⟩ := each e emitted
  obtain ⟨first, found, fields, needs⟩ := Registry.register_provides start registered needed
  obtain ⟨record, last, sameFields, kept⟩ := grows name first found
  refine ⟨record, last, named name record last, ?_⟩
  rw [function]
  exact
    { fields := sameFields.trans fields
      types := types_record needed (named name record last)
      targets := fun column target read => by
        rw [sameFields, fields]
        exact reads_record needed read
      reads := fun r read => by
        obtain ⟨column, row⟩ := read_row needed read records
        rw [sameFields, fields]
        exact reads_record needed row
      flag := fun object marked => by
        obtain ⟨other, needsExists', needed', reason⟩ := marks_function marked
        rw [needed] at needed'
        cases needed'
        rcases reason with necessary | ⟨known, found', set⟩
        · exact kept (needs necessary)
        · rw [found] at found'
          cases found'
          exact kept set }

theorem emitAll_unmarked {accesses : List Access} {e : Access × GeneratedFunction}
    (emitted : e ∈ (emitAll accesses .empty).1) (recordless : e.1.shape.record? = none)
    (object : Text) : .markExists object ∉ e.2.rows := by
  obtain ⟨records, function⟩ := emitAll_function e emitted
  intro marked
  rw [function] at marked
  obtain ⟨name, needsExists, needed, -⟩ := marks_function marked
  rw [recordless] at needed
  cases needed

end Access

/-- No shape with a wrapper is decided on for an empty field list. -/
theorem Shape.infer_condScalar {signature : Signature} {fields : List Field} {name : Text}
    (inferred : Shape.infer signature fields = .ok (.condScalar name)) : fields ≠ [] := by
  rintro rfl
  simp only [infer] at inferred
  split at inferred
  next => cases inferred
  next => cases inferred
  next type _ =>
    simp only [inferPlain] at inferred
    split at inferred
    next => cases inferred
    next => split at inferred <;> cases inferred

theorem Interface.renderRecord_infix {records : Registry} {name : Text} {record : Record}
    (layout : Layout) (known : Dictionary.get? records name = some record) :
    renderRecord layout record <:+: recordText layout records := by
  have member : record ∈ Dictionary.values records :=
    List.mem_map.mpr ⟨_, Dictionary.get?_mem known, rfl⟩
  obtain ⟨before, after, whole⟩ := List.append_of_mem member
  rw [recordText, whole, List.flatMap_append, List.flatMap_cons]
  exact ⟨_, _, by rw [List.append_assoc]⟩

theorem Interface.memberText_lines (layout : Layout) (i : Interface) :
    i.memberText layout = i.members.flatMap fun m =>
      CodeLine.render layout ⟨1, layout.queryType ++ " " ++ m ++ ";"⟩ :=
  List.flatMap_congr fun m _ => renderMember_line layout m

theorem Interface.declarationText_lines (layout : Layout) (i : Interface) :
    i.declarationText layout = i.prototypes.flatMap fun p =>
      CodeLine.render layout ⟨1, p.returnType ++ " " ++ p.method ++ "(" ++
        Text.joinWith ", " (p.params.map fun q => q.type ++ " " ++ q.name) ++ ");"⟩ :=
  List.flatMap_congr fun p _ => renderPrototype_line layout p

namespace Access

/-- The regions of the header declare each member once, in order of first use, and one prototype
per function, in order. What a function takes from its record is declared, and so is the flag that
it sets. A spliced header keeps both regions unless one overwrites the other. -/
theorem emitted_declared (accesses : List Access) (layout : Layout) :
    let emitted := (emitAll accesses .empty).1
    let i := (emitAll accesses .empty).2
    let regions := Regions.ofInterface layout i
    i.members = (emitted.map fun e => e.2.member).eraseDups ∧
    i.prototypes = (emitted.map fun e => e.1.prototype) ∧
    (i.members.flatMap fun m => CodeLine.render layout
      ⟨1, layout.queryType ++ " " ++ m ++ ";"⟩) <:+: regions.members ∧
    (i.prototypes.flatMap fun p => CodeLine.render layout
      ⟨1, p.returnType ++ " " ++ p.method ++ "(" ++
        Text.joinWith ", " (p.params.map fun q => q.type ++ " " ++ q.name) ++ ");"⟩) <:+:
      regions.functions ∧
    (∀ e ∈ emitted,
      e.2.member = '_' :: e.1.signature.method ∧ i.members.count e.2.member = 1 ∧
      e.2.params = e.1.prototype.params ∧
      (∃ flagged, e.2.Written layout (e.1.lines layout flagged) ∧
        (.markExists "obj" ∈ e.2.rows ↔ flagged = true)) ∧
      (e.1.shape.record? = none → ∀ object, .markExists object ∉ e.2.rows) ∧
      ∀ name needsExists, e.1.shape.record? = some (name, needsExists) →
        ∃ record, Dictionary.get? i.records name = some record ∧ record.name = name ∧
          record.Serves e.1 e.2 ∧
          ([⟨1, "struct " ++ name⟩, ⟨1, ['{']⟩] ++
            (record.members.map fun m => ⟨2, m.type ++ " " ++ m.name ++ ";"⟩) ++
            [⟨1, ['}', ';']⟩] : List CodeLine).flatMap (CodeLine.render layout) <:+:
            regions.functions) ∧
    (∀ header spliced, Header.splice regions header = .ok spliced →
      regions.members <:+: spliced ∧
        (Text.contains Marker.variablesBegin.text regions.functions = false →
          Header.Apart header → regions.functions <:+: spliced)) ∧
    ∀ signature fields name, Shape.infer signature fields = .ok (.condScalar name) →
      fields ≠ [] := by
  intro emitted i regions
  have members : i.members = (emitted.map fun e => e.2.member).eraseDups := emitAll_members [] rfl
  have functions : regions.functions = layout.newline ++ Interface.recordText layout i.records ++
      (if (Interface.recordText layout i.records).isEmpty then []
        else layout.newline ++ layout.newline) ++ i.declarationText layout ++ layout.indent := rfl
  refine ⟨members, emitAll_prototypes accesses .empty, ?_, ?_, ?_,
    fun _ _ => Header.splice_keeps, fun _ _ _ => Shape.infer_condScalar⟩
  · rw [← Interface.memberText_lines]
    exact ⟨layout.newline, layout.indent, rfl⟩
  · rw [functions, ← Interface.declarationText_lines]
    exact ⟨_, _, rfl⟩
  · intro e known
    obtain ⟨records, function⟩ := emitAll_function e known
    have nodup : i.members.Nodup := emitAll_nodup List.nodup_nil
    have used : e.2.member ∈ i.members := mem_emitAll_members.mpr (.inr ⟨e, known, rfl⟩)
    refine ⟨?_, List.count_eq_one_of_mem nodup used, ?_, ⟨flagged records e.1.shape, ?_, ?_⟩,
      emitAll_unmarked known, ?_⟩
    · rw [function]
      rfl
    · rw [function]
      rfl
    · rw [function]
      exact e.1.written_function records layout
    · rw [function]
      exact e.1.marks_object records
    · intro name needsExists needed
      obtain ⟨record, found, same, serves⟩ := emitAll_serves known needed
      have inside := Interface.renderRecord_infix layout found
      rw [Interface.renderRecord_lines, same] at inside
      refine ⟨record, found, same, serves, inside.trans ?_⟩
      rw [functions, List.append_assoc, List.append_assoc]
      exact ⟨layout.newline, _, rfl⟩

/-- A wrapper of no fields: the function reads a value that the record does not have. -/
def bareWrapper : Access :=
  ⟨⟨.plain "string", some "Users", "nameOf"⟩, [], ⟨"SELECT name FROM users", []⟩,
    .condScalar "CondString", none⟩

/-- A parameter with the name of the marker that opens the variables region. -/
def markedParameter : Access :=
  ⟨⟨.plain "void", some "Users", "clear"⟩, [],
    ⟨"DELETE FROM users WHERE id=?", [⟨"int", Marker.variablesBegin.text⟩]⟩, .mutation false, none⟩

/-- The value of a bare wrapper is not declared, a header whose variables region encloses its
functions region loses every declaration, and a declaration that holds the marker of the variables
region is cut there. -/
theorem bareWrapper_undeclared :
    (emitAll [bareWrapper] .empty).1.map (fun e => e.2.rows) =
        [[.markExists "ret", .read none "ret.value"]] ∧
      Dictionary.get? (emitAll [bareWrapper] .empty).2.records "CondString" =
        some ⟨"CondString", [], true⟩ ∧
      Header.splice (.ofInterface ⟨[' '], ['\n'], "Q", "C"⟩ (emitAll [bareWrapper] .empty).2)
        (Marker.variablesBegin.text ++ Marker.functionsBegin.text ++ Marker.functionsEnd.text ++
          Marker.variablesEnd.text) =
        .ok (Marker.variablesBegin.text ++ ("\n Q _nameOf;\n " : Text) ++
          Marker.variablesEnd.text) ∧
      Header.splice (.ofInterface ⟨[' '], ['\n'], "Q", "C"⟩ (emitAll [markedParameter] .empty).2)
        (Marker.functionsBegin.text ++ Marker.functionsEnd.text ++ Marker.variablesBegin.text ++
          Marker.variablesEnd.text) =
        .ok (Marker.functionsBegin.text ++ ("\n void clear(int " : Text) ++
          Marker.variablesBegin.text ++ ("\n Q _clear;\n " : Text) ++
            Marker.variablesEnd.text) := by
  decide +kernel

end Access
end QueryWeaver
