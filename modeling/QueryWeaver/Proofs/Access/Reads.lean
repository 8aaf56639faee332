import Mathlib
import QueryWeaver.Proofs.Access.Lines
import QueryWeaver.Proofs.Access.History
/-!
Decided shapes and what their functions read. A decided shape that reads rows reads each declared
field once, in their order: into the fields of its record, or the one field into the result.
-/

namespace QueryWeaver

/-- No shape can be decided on: a field is missing, an optional value has not exactly one, or
several fields would need a record with the name of a builtin type. -/
def ReturnType.Rejects : ReturnType → List Field → Prop
  | collection inner, fields => fields = [] ∨ 2 ≤ fields.length ∧ inner ∈ CodeType.builtins
  | optional _, fields => fields.length ≠ 1
  | plain type, fields =>
    Text.sameLetters type "void" = false ∧ Text.sameLetters type "bool" = false ∧
      (fields = [] ∨ 2 ≤ fields.length ∧ type ∈ CodeType.builtins)

namespace Shape

variable {signature : Signature} {fields : List Field} {shape : Shape} {function type : Text}

theorem recordName_rejects {of : Text → Shape} :
    (∃ e, (recordName function type).map of = .error e) ↔ type ∈ CodeType.builtins := by
  unfold recordName
  rw [← List.contains_iff_mem, ← CodeType.isBuiltin]
  cases CodeType.isBuiltin type with
  | true => exact ⟨fun _ => rfl, fun _ => ⟨_, rfl⟩⟩
  | false =>
    constructor
    · rintro ⟨e, refused⟩
      cases refused
    · intro builtin
      cases builtin

theorem inferCollection_rejects :
    (∃ e, inferCollection function type fields = .error e) ↔
      (ReturnType.collection type).Rejects fields := by
  cases fields with
  | nil => simp [inferCollection, ReturnType.Rejects]
  | cons first rest =>
    cases rest with
    | nil => simp [inferCollection, ReturnType.Rejects]
    | cons second rest =>
      have several : inferCollection function type (first :: second :: rest) =
          (recordName function type).map recordCollection := rfl
      rw [several, recordName_rejects]
      simp [ReturnType.Rejects]

theorem inferOptional_rejects :
    (∃ e, inferOptional function fields = .error e) ↔
      (ReturnType.optional type).Rejects fields := by
  cases fields with
  | nil => simp [inferOptional, ReturnType.Rejects]
  | cons first rest => cases rest <;> simp [inferOptional, ReturnType.Rejects]

theorem inferPlain_rejects :
    (∃ e, inferPlain function type fields = .error e) ↔
      (ReturnType.plain type).Rejects fields := by
  simp only [inferPlain, ReturnType.Rejects]
  cases Text.sameLetters type "void" with
  | true => simp
  | false =>
    cases Text.sameLetters type "bool" with
    | true => simp
    | false =>
      cases fields with
      | nil => simp
      | cons first rest =>
        cases rest with
        | nil => cases raw : first.isRaw <;> simp [raw]
        | cons second rest => simp [recordName_rejects]

/-- A shape is refused exactly if the return type rejects the fields. -/
theorem infer_rejects :
    (∃ e, infer signature fields = .error e) ↔ signature.returnType.Rejects fields := by
  unfold infer
  cases signature.returnType with
  | collection inner => exact inferCollection_rejects
  | optional inner => exact inferOptional_rejects
  | plain type => exact inferPlain_rejects

theorem named_not_one {of : Text → Shape} (several : ∀ name, (of name).readsOne = false)
    (named : (recordName function type).map of = .ok shape) : shape.readsOne = false := by
  cases known : recordName function type with
  | error e => simp [known, Except.map] at named
  | ok name =>
    rw [known] at named
    cases named
    exact several name

/-- A shape of one column is decided on for one field. -/
theorem infer_one (inferred : infer signature fields = .ok shape) (one : shape.readsOne = true) :
    ∃ field, fields = [field] := by
  by_contra several
  have named {of : Text → Shape} {function type : Text}
      (record : ∀ name, (of name).readsOne = false)
      (named : (recordName function type).map of = .ok shape) : False := by
    rw [named_not_one record named] at one
    cases one
  unfold infer at inferred
  split at inferred
  next =>
    unfold inferCollection at inferred
    split at inferred
    next => cases inferred
    next field => exact several ⟨field, rfl⟩
    next => exact named (fun _ => rfl) inferred
  next =>
    unfold inferOptional at inferred
    split at inferred
    next field => exact several ⟨field, rfl⟩
    next => cases inferred
  next =>
    unfold inferPlain at inferred
    split_ifs at inferred
    · cases inferred
      cases one
    · cases inferred
      cases one
    · split at inferred
      next => cases inferred
      next field => exact several ⟨field, rfl⟩
      next => exact named (fun _ => rfl) inferred

theorem readsOne_of_recordless (reading : shape.readsRows = true)
    (recordless : shape.record? = none) : shape.readsOne = true := by
  cases shape with
  | mutation => cases reading
  | recordCollection => cases recordless
  | condRecord => cases recordless
  | _ => rfl

theorem readsRows_of_ne_mutation (other : ∀ returnsBool, shape ≠ .mutation returnsBool) :
    shape.readsRows = true := by
  cases shape with
  | mutation returnsBool => exact absurd rfl (other returnsBool)
  | _ => rfl

theorem readsRows_of_record {name : Text} {needsExists : Bool}
    (needed : shape.record? = some (name, needsExists)) : shape.readsRows = true := by
  cases shape with
  | mutation => cases needed
  | _ => rfl

/-- A wrapper has one field, and the value is read into it. -/
theorem holder_wrapper {name : Text} {needsExists : Bool} (one : shape.readsOne = true)
    (needed : shape.record? = some (name, needsExists)) (field : Field) :
    [shape.holder] = (shape.recordFields [field]).map fun f => shape.object ++ "." ++ f.name := by
  cases shape with
  | condScalar => rfl
  | recordCollection => cases one
  | condRecord => cases one
  | _ => cases needed

theorem recordFields_names (several : shape.readsOne = false) (fields : List Field) :
    (shape.recordFields fields).map Field.name = fields.map Field.name := by
  cases shape with
  | condScalar => cases several
  | _ => simp [recordFields]

end Shape

/-- Some lines give a variable that type, for each row or once. -/
def CodeLine.Declares (lines : List CodeLine) (object type : Text) : Prop :=
  object = "obj" ∧ ⟨2, type ++ "& obj=ret.back();"⟩ ∈ lines ∨
    object = "ret" ∧ ⟨1, type ++ " ret" ++ ['{', '}', ';']⟩ ∈ lines

namespace Access

variable {a : Access} {layout : Layout}

theorem columnText_ne_nil (a : Access) (name : Text) : a.columnText name ≠ [] := by
  unfold columnText
  split
  · exact Nat.toDigits_ne_nil
  · simp

/-- A zeroed result stands before the loop. -/
theorem zeroed_mem_looping (zeroed : a.shape.zeroed = true) (layout : Layout)
    (rows : List Text) :
    ⟨1, a.shape.returnType a.signature.scopePrefix ++ " ret" ++ ['{', '}', ';']⟩ ∈
      a.looping layout rows := by
  simp only [looping, zeroed, if_true, List.mem_append, List.mem_cons, true_or, or_true]

/-- The variable that a record is read into has the type of that record. -/
theorem declares_record {name : Text} {needsExists : Bool}
    (needed : a.shape.record? = some (name, needsExists)) (flagged : Bool) (reads : List Text) :
    CodeLine.Declares (a.looping layout (a.opening flagged ++ reads)) a.shape.object
      (a.signature.scopePrefix ++ name) := by
  cases shape : a.shape with
  | recordCollection =>
    rw [shape] at needed
    cases needed
    refine .inl ⟨rfl, ?_⟩
    rw [looping, opening, shape]
    exact List.mem_append_left _ (List.mem_append_right _ (List.mem_map_of_mem
      (List.mem_cons_of_mem _ (List.mem_cons_self ..))))
  | condScalar | condRecord =>
    have result := zeroed_mem_looping (a := a) (by rw [shape]; rfl) layout
      (a.opening flagged ++ reads)
    rw [shape] at needed result
    cases needed
    exact .inr ⟨rfl, result⟩
  | _ => simp [shape, Shape.record?] at needed

section

variable (inferred : Shape.infer a.signature a.fields = .ok a.shape)
include inferred

theorem reads_columns (reading : a.shape.readsRows = true) :
    a.reads.map Prod.fst = a.fields.map fun field => a.columnText field.name := by
  cases one : a.shape.readsOne with
  | true =>
    obtain ⟨field, only⟩ := Shape.infer_one inferred one
    simp [reads_one one, only]
  | false => simp [reads_many one reading]

theorem reads_targets {name : Text} {needsExists : Bool}
    (needed : a.shape.record? = some (name, needsExists)) :
    a.reads.map Prod.snd =
      (a.shape.recordFields a.fields).map fun field => a.shape.object ++ "." ++ field.name := by
  cases one : a.shape.readsOne with
  | true =>
    obtain ⟨field, only⟩ := Shape.infer_one inferred one
    rw [only, ← Shape.holder_wrapper one needed, reads_one one]
    rfl
  | false =>
    have names := Shape.recordFields_names one a.fields
    have reading := Shape.readsRows_of_record needed
    calc a.reads.map Prod.snd
      _ = (a.fields.map Field.name).map fun n => a.shape.object ++ "." ++ n := by
        simp [reads_many one reading]
      _ = _ := by rw [← names, List.map_map]; rfl

theorem reads_single (reading : a.shape.readsRows = true) (recordless : a.shape.record? = none) :
    ∃ field, a.fields = [field] ∧ a.reads.map Prod.snd = [a.shape.holder] := by
  have one := Shape.readsOne_of_recordless reading recordless
  obtain ⟨field, only⟩ := Shape.infer_one inferred one
  exact ⟨field, only, by rw [reads_one one]; rfl⟩

end

theorem generate_empty (a : Access) : ∃ f next, a.generate .empty = .ok (f, next) := by
  have fits : Registry.Fits Dictionary.empty ⟨a.shape, a.fields⟩ := by
    intro name known _ stands
    cases stands
  obtain ⟨records, registered, -⟩ := Registry.register_fits fits
  exact ⟨_, _, by rw [generate, Interface.empty, registered]; rfl⟩

/-- The record of a shape stands in the registry with the fields that the shape gives it. -/
theorem registered_fields {i next : Interface} {f : GeneratedFunction}
    (generated : a.generate i = .ok (f, next)) {name : Text} {needsExists : Bool}
    (needed : a.shape.record? = some (name, needsExists)) :
    ∃ record, Dictionary.get? next.records name = some record ∧
      record.fields = a.shape.recordFields a.fields := by
  obtain ⟨-, registered, -, -⟩ := generate_function generated
  obtain ⟨-, lookups⟩ := Registry.register_eq_ok (q := ⟨a.shape, a.fields⟩).mp registered
  have stands := lookups name
  rw [Registry.afterwards, if_pos ((Request.names_iff needed).mpr rfl)] at stands
  exact ⟨_, stands, Request.leave_fields _ _ _⟩

/-- The reads are those of the declared fields, in their order: each has a column to name, and it
goes into the field of the record that is registered for the shape, or the one field into the
result. -/
structure ReadsDeclared (a : Access) (records : Registry) (reads : List (Text × Text)) :
    Prop where
  columns : reads.map Prod.fst = a.fields.map fun field => a.columnText field.name
  named : ∀ r ∈ reads, r.1 ≠ []
  record : ∀ name needsExists, a.shape.record? = some (name, needsExists) →
    ∃ record, Dictionary.get? records name = some record ∧
      reads.map Prod.snd = record.fields.map fun field => a.shape.object ++ "." ++ field.name
  single : a.shape.record? = none →
    ∃ field, a.fields = [field] ∧ reads.map Prod.snd = [a.shape.holder]

theorem generate_readsDeclared {i next : Interface} {f : GeneratedFunction}
    (inferred : Shape.infer a.signature a.fields = .ok a.shape)
    (reading : a.shape.readsRows = true) (generated : a.generate i = .ok (f, next)) :
    a.ReadsDeclared next.records a.reads := by
  have columns := reads_columns inferred reading
  constructor
  · exact columns
  · intro r member
    have known : r.1 ∈ a.fields.map fun field => a.columnText field.name := by
      rw [← columns]
      exact List.mem_map_of_mem member
    obtain ⟨field, -, column⟩ := List.mem_map.mp known
    rw [← column]
    exact a.columnText_ne_nil field.name
  · intro name needsExists needed
    obtain ⟨record, stands, fields⟩ := registered_fields generated needed
    exact ⟨record, stands, by rw [fields, reads_targets inferred needed]⟩
  · exact reads_single inferred reading

/-- A shape is decided on unless the return type rejects the fields. Its functions read no column if
the shape is a mutation, and each declared field once if not. -/
theorem decided_reads (signature : Signature) (fields : List Field) :
    ((∃ e, Shape.infer signature fields = .error e) ↔ signature.returnType.Rejects fields) ∧
    ∀ shape, Shape.infer signature fields = .ok shape → ∀ query columns,
      let a : Access := ⟨signature, fields, query, shape, columns⟩
      (∃ f next, a.generate .empty = .ok (f, next)) ∧
      ∀ i f next, a.generate i = .ok (f, next) →
        (∀ returnsBool, shape = .mutation returnsBool → ∀ layout, f.Written layout
          (a.preparing ++ [⟨1, (if returnsBool then "bool ret=_" else "_") ++
            signature.method ++ ".write();"⟩] ++ a.finishing)) ∧
        ((∀ returnsBool, shape ≠ .mutation returnsBool) →
          ∃ flagged reads, a.ReadsDeclared next.records reads ∧
            ∀ layout,
              let loop := a.looping layout (a.opening flagged ++ reads.map
                fun r : Text × Text => ("cursor.get(" ++ r.1 ++ ", " ++ r.2 ++ ");" : Text))
              f.Written layout (a.preparing ++ loop ++ a.finishing) ∧
              ∀ name needsExists, shape.record? = some (name, needsExists) →
                CodeLine.Declares loop shape.object (signature.scopePrefix ++ name)) := by
  refine ⟨Shape.infer_rejects, ?_⟩
  intro shape inferred query columns a
  refine ⟨a.generate_empty, ?_⟩
  intro i f next generated
  have written := generate_written generated
  constructor
  · intro returnsBool mutation layout
    rw [← lines_writing mutation]
    exact written layout
  · intro other
    have reading := Shape.readsRows_of_ne_mutation other
    refine ⟨flagged next.records shape, a.reads,
      generate_readsDeclared inferred reading generated, ?_⟩
    intro layout loop
    refine ⟨?_, fun name needsExists needed => declares_record needed _ _⟩
    rw [← lines_reading reading]
    exact written layout

end Access
end QueryWeaver
