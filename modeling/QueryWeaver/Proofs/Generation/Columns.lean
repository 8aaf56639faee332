import Mathlib
import QueryWeaver.Generation.Run
import QueryWeaver.Proofs.Access.Reads
/-!
Validated columns and the reads of the function. With the columns of a statement a function reads by
position, each field from the first column of its name; without them it reads by name.
-/

namespace QueryWeaver

/-- The column at that position has the name, and no earlier one has it. -/
structure ColumnMap.FirstAt (columns : ColumnMap) (name : Text) (position : Nat) : Prop where
  inside : position < columns.names.length
  named : columns.names[position]? = some name
  least : ∀ earlier < position, columns.names[earlier]? ≠ some name

theorem ColumnMap.indexOf?_eq_some {columns : ColumnMap} {name : Text} {position : Nat} :
    columns.indexOf? name = some position ↔ columns.FirstAt name position := by
  rw [indexOf?, List.findIdx?_eq_some_iff_getElem]
  constructor
  · rintro ⟨inside, named, least⟩
    refine ⟨inside, ?_, ?_⟩
    · rw [List.getElem?_eq_getElem inside, eq_of_beq named]
    · intro earlier before same
      rw [List.getElem?_eq_getElem (before.trans inside), Option.some.injEq] at same
      exact least earlier before (beq_of_eq same)
  · intro first
    have named := first.named
    rw [List.getElem?_eq_getElem first.inside, Option.some.injEq] at named
    refine ⟨first.inside, beq_of_eq named, ?_⟩
    intro earlier before same
    apply first.least earlier before
    rw [List.getElem?_eq_getElem (before.trans first.inside), eq_of_beq same]

theorem ColumnMap.exists_firstAt {columns : ColumnMap} {name : Text}
    (known : name ∈ columns.names) : ∃ position, columns.FirstAt name position := by
  have found : (columns.indexOf? name).isSome = true := by
    rw [indexOf?, List.findIdx?_isSome, List.any_eq_true]
    exact ⟨name, known, beq_self_eq_true name⟩
  obtain ⟨position, first⟩ := Option.isSome_iff_exists.mp found
  exact ⟨position, indexOf?_eq_some.mp first⟩

namespace Validation

variable {function : Text} {query : Query} {kind : StatementKind} {fields : List Field}
  {names : List Text} {field : Field}

/-- The first declared field that is not among the names. -/
def FirstMissing (names : List Text) (fields : List Field) (field : Field) : Prop :=
  ∃ before after, fields = before ++ field :: after ∧ field.name ∉ names ∧
    ∀ g ∈ before, g.name ∈ names

theorem find?_firstMissing :
    fields.find? (fun f => !names.contains f.name) = some field ↔
      FirstMissing names fields field := by
  simp [List.find?_eq_some_iff_append, FirstMissing, and_left_comm]

theorem find?_complete :
    fields.find? (fun f => !names.contains f.name) = none ↔ ∀ f ∈ fields, f.name ∈ names := by
  simp [List.find?_eq_none]

/-- The columns are given out if all declared fields are among them. -/
theorem matchFields_some {columns : ColumnMap} :
    matchFields function query kind fields = .ok (some columns) ↔
      Projection.columns? query.sql kind = some columns.names ∧
        ∀ f ∈ fields, f.name ∈ columns.names := by
  unfold matchFields
  split
  next unknown => simp [unknown]
  next names known =>
    rw [known]
    split
    next missing found =>
      obtain ⟨before, after, whole, absent, -⟩ := find?_firstMissing.mp found
      constructor
      · intro given
        cases given
      · rintro ⟨same, complete⟩
        cases same
        exact absurd (complete missing (by simp [whole])) absent
    next complete =>
      constructor
      · intro given
        cases given
        exact ⟨rfl, find?_complete.mp complete⟩
      · rintro ⟨same, -⟩
        cases same
        rfl

theorem matchFields_error {e : Error} :
    matchFields function query kind fields = .error e ↔
      ∃ names field, Projection.columns? query.sql kind = some names ∧
        FirstMissing names fields field ∧ e = .missingField field.name query.sql function := by
  unfold matchFields
  split
  next unknown => simp [unknown]
  next names known =>
    rw [known]
    split
    next missing found =>
      constructor
      · intro refused
        cases refused
        exact ⟨names, missing, rfl, find?_firstMissing.mp found, rfl⟩
      · rintro ⟨names', field, same, first, rfl⟩
        cases same
        rw [find?_firstMissing.mpr first] at found
        cases found
        rfl
    next complete =>
      constructor
      · intro refused
        cases refused
      · rintro ⟨names', field, same, first, rfl⟩
        cases same
        rw [find?_firstMissing.mpr first] at complete
        cases complete

theorem validate_eq {σ : Type} (db : Database σ) (function : Text) (query : Query)
    (kind : StatementKind) (fields : List Field) (s : σ) :
    (validate db function query kind fields s).1 =
      (db.explain query.sql s).1.bind fun _ => matchFields function query kind fields := by
  unfold validate
  rcases db.explain query.sql s with ⟨_ | _, s'⟩ <;> rfl

theorem validate_ok {σ : Type} {db : Database σ} {s : σ} {known : Option ColumnMap} :
    (validate db function query kind fields s).1 = .ok known ↔
      (db.explain query.sql s).1 = .ok () ∧ matchFields function query kind fields = .ok known := by
  rw [validate_eq]
  cases (db.explain query.sql s).1 with
  | error e => simp [Except.bind]
  | ok value => simp [Except.bind]

end Validation

namespace Access

variable {a : Access} {i next : Interface} {f : GeneratedFunction}

/-- Whatever the shape, the columns that a function reads are those of declared fields. Without
fields it names none. -/
theorem mem_reads {r : Text × Text} (member : r ∈ a.reads) :
    r.1 = [] ∧ a.fields = [] ∨ ∃ field ∈ a.fields, r.1 = a.columnText field.name := by
  rw [reads] at member
  split at member
  next =>
    rw [List.mem_singleton.mp member]
    cases given : a.fields with
    | nil => exact .inl ⟨rfl, rfl⟩
    | cons field rest => exact .inr ⟨field, List.mem_cons_self .., rfl⟩
  next =>
    split at member
    next =>
      obtain ⟨field, known, rfl⟩ := List.mem_map.mp member
      exact .inr ⟨field, known, rfl⟩
    next => cases member

/-- A function reads no column, or the columns that its lines name stand in the relation to the
fields they are read for. For a decided shape these are all declared fields, in their order. -/
def EachRead (a : Access) (f : GeneratedFunction) (R : Field → Text → Prop) : Prop :=
  (∀ returnsBool, a.shape = .mutation returnsBool → ∀ layout, f.Written layout
    (a.preparing ++ [⟨1, (if returnsBool then "bool ret=_" else "_") ++
      a.signature.method ++ ".write();"⟩] ++ a.finishing)) ∧
  ((∀ returnsBool, a.shape ≠ .mutation returnsBool) → ∃ flagged reads,
    (∀ layout, f.Written layout (a.preparing ++ a.looping layout (a.opening flagged ++ reads.map
      fun r : Text × Text => ("cursor.get(" ++ r.1 ++ ", " ++ r.2 ++ ");" : Text)) ++
      a.finishing)) ∧
    (∀ r ∈ reads, r.1 = [] ∧ a.fields = [] ∨ ∃ field ∈ a.fields, R field r.1) ∧
    (Shape.infer a.signature a.fields = .ok a.shape →
      List.Forall₂ (fun field r => R field r.1) a.fields reads))

theorem generate_eachRead {R : Field → Text → Prop}
    (generated : a.generate i = .ok (f, next))
    (each : ∀ field ∈ a.fields, R field (a.columnText field.name)) : a.EachRead f R := by
  have written := generate_written generated
  constructor
  · intro returnsBool mutation layout
    rw [← lines_writing mutation]
    exact written layout
  · intro other
    have reading := Shape.readsRows_of_ne_mutation other
    refine ⟨flagged next.records a.shape, a.reads, ?_, ?_, ?_⟩
    · intro layout
      rw [← lines_reading reading]
      exact written layout
    · intro r member
      refine (mem_reads member).imp_right ?_
      rintro ⟨field, known, same⟩
      exact ⟨field, known, same ▸ each field known⟩
    · intro inferred
      have related : List.Forall₂ (fun field column => R field column) a.fields
          (a.reads.map Prod.fst) := by
        rw [reads_columns inferred reading, List.forall₂_map_right_iff, List.forall₂_same]
        exact each
      exact List.forall₂_map_right_iff.mp related

theorem columnText_of_complete {columns : ColumnMap} (given : a.columns = some columns)
    {field : Field} (complete : field.name ∈ columns.names) :
    ∃ position, a.columnText field.name = Nat.toDigits 10 position ∧
      columns.FirstAt field.name position := by
  obtain ⟨position, first⟩ := ColumnMap.exists_firstAt complete
  have found : columns.indexOf? field.name = some position := ColumnMap.indexOf?_eq_some.mpr first
  refine ⟨position, ?_, first⟩
  rw [columnText, given, Option.bind_some, found]

theorem columnText_of_unknown (unknown : a.columns = none) (name : Text) :
    a.columnText name = "\"" ++ name ++ "\"" := by
  rw [columnText, unknown]
  rfl

end Access

namespace Generation

/-- With columns from the check every read of a function is by position, of the first column with
the name of the field. Without them every read is by name. The check of a statement that compiles
fails exactly if a declared field is not among its columns, and names the first such field. -/
theorem planned_reads {σ : Type} (db : Database σ) (checked : Bool) (plan : Plan) (s : σ) :
    (∀ known i f next, (columns db checked plan s).1 = .ok (some known) →
      (accessOf plan (some known)).generate i = .ok (f, next) →
      checked = true ∧ Projection.columns? plan.query.sql plan.kind = some known.names ∧
        (accessOf plan (some known)).EachRead f fun field column =>
          ∃ position, column = Nat.toDigits 10 position ∧ known.FirstAt field.name position) ∧
    (checked = false → (columns db checked plan s).1 = .ok none) ∧
    (∀ i f next, (columns db checked plan s).1 = .ok none →
      (accessOf plan none).generate i = .ok (f, next) →
      (accessOf plan none).EachRead f fun field column => column = "\"" ++ field.name ++ "\"") ∧
    ∀ function, (db.explain plan.query.sql s).1 = .ok () → ∀ e,
      (Validation.validate db function plan.query plan.kind plan.fields s).1 = .error e ↔
        ∃ names field, Projection.columns? plan.query.sql plan.kind = some names ∧
          Validation.FirstMissing names plan.fields field ∧
          e = .missingField field.name plan.query.sql function := by
  refine ⟨?_, ?_, ?_, ?_⟩
  · intro known i f next answered generated
    cases checked with
    | false => cases answered
    | true =>
      obtain ⟨-, matched⟩ := Validation.validate_ok.mp answered
      obtain ⟨projected, complete⟩ := Validation.matchFields_some.mp matched
      refine ⟨rfl, projected, Access.generate_eachRead generated ?_⟩
      exact fun field member => Access.columnText_of_complete rfl (complete field member)
  · rintro rfl
    rfl
  · intro i f next _ generated
    exact Access.generate_eachRead generated fun field _ => Access.columnText_of_unknown rfl _
  · intro function compiled e
    rw [Validation.validate_eq, compiled]
    exact Validation.matchFields_error

end Generation
end QueryWeaver
