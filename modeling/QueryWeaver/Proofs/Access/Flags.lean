import Mathlib
import QueryWeaver.Proofs.Access.Declared
/-!
Existence flags over a run. A record has its flag from the first function that needs it, so a
function that collects such records sets their flags if it stands behind that function.
-/

namespace QueryWeaver

theorem Record.exists_mem_members {record : Record} :
    ⟨"bool", "exists"⟩ ∈ record.members ↔
      record.hasExists = true ∨ ⟨"bool", "exists"⟩ ∈ record.fields := by
  cases flag : record.hasExists <;> simp [members, flag]

namespace Access

variable {accesses : List Access} {i : Interface}

/-- The function needs the record with an existence flag. -/
def NeedsFlag (a : Access) (name : Text) : Prop := a.shape.record? = some (name, true)

/-- In the loop of a collection only the line that sets the flag is spelled so. -/
theorem mark_mem_rows {scope name : Text} {reads : List (Text × Text)} {flagged : Bool} :
    ("obj.exists=true;" : Text) ∈
        [("ret.emplace_back();" : Text), scope ++ name ++ "& obj=ret.back();"] ++
          (if flagged then [("obj.exists=true;" : Text)] else []) ++
          (reads.map fun r : Text × Text =>
            ("cursor.get(" ++ r.1 ++ ", " ++ r.2 ++ ");" : Text)) ↔ flagged = true := by
  have opened : ("obj.exists=true;" : Text) ∉
      [("ret.emplace_back();" : Text), scope ++ name ++ "& obj=ret.back();"] := by
    intro member
    rcases List.mem_cons.mp member with same | member
    · exact absurd same (by decide)
    · have behind : ("& obj=ret.back();" : Text) <:+ "obj.exists=true;" :=
        ⟨scope ++ name, (List.mem_singleton.mp member).symm⟩
      exact absurd behind (by decide)
  have read : ("obj.exists=true;" : Text) ∉ reads.map fun r : Text × Text =>
      ("cursor.get(" ++ r.1 ++ ", " ++ r.2 ++ ");" : Text) := by
    intro member
    obtain ⟨r, -, same⟩ := List.mem_map.mp member
    have front : ("cursor.get(" : Text) <+: "obj.exists=true;" :=
      ⟨r.1 ++ ", " ++ r.2 ++ ");", by rw [← same]; simp⟩
    exact absurd front (by decide)
  rw [List.mem_append, List.mem_append, or_iff_left read, or_iff_right opened]
  cases flagged <;> simp

/-- The flags of a run are those it starts with and those that its functions need. -/
theorem emitAll_flagged (named : i.records.Named) (name : Text) :
    (emitAll accesses i).2.records.Flagged name ↔
      i.records.Flagged name ∨ ∃ e ∈ (emitAll accesses i).1, e.1.NeedsFlag name := by
  fun_induction emitAll accesses i with
  | case1 => simp
  | case2 a r i error failed ih => exact ih named
  | case3 a r i f next generated emitted last rest ih =>
    obtain ⟨-, registered, -, -⟩ := generate_function generated
    rw [rest] at ih
    rw [ih (Registry.register_grows named registered).1,
      Registry.register_flagged named registered, List.exists_mem_cons_iff, or_assoc]
    rfl

/-- A function of a run sees the flags that the functions up to it need. -/
theorem emitAll_seen (named : i.records.Named) {before after : List (Access × GeneratedFunction)}
    {e : Access × GeneratedFunction} (emitted : (emitAll accesses i).1 = before ++ e :: after) :
    ∃ records, e.2 = e.1.function records ∧ ∀ name, records.Flagged name ↔
      i.records.Flagged name ∨ (∃ e' ∈ before, e'.1.NeedsFlag name) ∨ e.1.NeedsFlag name := by
  fun_induction emitAll accesses i generalizing before with
  | case1 => simp at emitted
  | case2 a r i error failed ih => exact ih named emitted
  | case3 a r i f next generated others last rest ih =>
    obtain ⟨function, registered, -, -⟩ := generate_function generated
    have flags : ∀ name, next.records.Flagged name ↔ i.records.Flagged name ∨ a.NeedsFlag name :=
      fun _ => Registry.register_flagged named registered
    rw [rest] at ih
    cases before with
    | nil =>
      obtain ⟨rfl, -⟩ := List.cons.inj emitted
      refine ⟨next.records, function, ?_⟩
      intro name
      simpa using flags name
    | cons first before =>
      obtain ⟨rfl, behind⟩ := List.cons.inj emitted
      obtain ⟨records, made, seen⟩ := ih (Registry.register_grows named registered).1 behind
      refine ⟨records, made, ?_⟩
      intro name
      rw [seen, flags, List.exists_mem_cons_iff, or_assoc, or_assoc]

/-- A function that collects records sets their flags if a function before it needs them. The record
in the header has its flag if any function needs it. So the two agree unless the first function that
needs the flag stands behind the collecting one, or a field of the record takes the flag's place. -/
theorem collection_marks (accesses : List Access) :
    let emitted := (emitAll accesses .empty).1
    let records := (emitAll accesses .empty).2.records
    ∀ before e after name, emitted = before ++ e :: after →
      e.1.shape = .recordCollection name →
      ∃ record rows, Dictionary.get? records name = some record ∧ record.name = name ∧
        record.fields = e.1.shape.recordFields e.1.fields ∧
        (∀ layout, ([⟨1, "struct " ++ name⟩, ⟨1, ['{']⟩] ++
            (record.members.map fun m => ⟨2, m.type ++ " " ++ m.name ++ ";"⟩) ++
            [⟨1, ['}', ';']⟩] : List CodeLine).flatMap (CodeLine.render layout) <:+:
          Interface.recordText layout records) ∧
        (∀ layout, e.2.Written layout
          (e.1.preparing ++ e.1.looping layout rows ++ e.1.finishing)) ∧
        (∃ flagged : Bool, rows =
          [("ret.emplace_back();" : Text),
              e.1.signature.scopePrefix ++ name ++ "& obj=ret.back();"] ++
            (if flagged then [("obj.exists=true;" : Text)] else []) ++ e.1.reads.map
              fun r : Text × Text => ("cursor.get(" ++ r.1 ++ ", " ++ r.2 ++ ");" : Text)) ∧
        (("obj.exists=true;" : Text) ∈ rows ↔ ∃ e' ∈ before, e'.1.NeedsFlag name) ∧
        (record.hasExists = true ↔ ∃ e' ∈ emitted, e'.1.NeedsFlag name) ∧
        ((("obj.exists=true;" : Text) ∈ rows ↔ ⟨"bool", "exists"⟩ ∈ record.members) ↔
          ((∃ e' ∈ after, e'.1.NeedsFlag name) ∨
              ⟨"bool", "exists"⟩ ∈ e.1.shape.recordFields e.1.fields →
            ∃ e' ∈ before, e'.1.NeedsFlag name)) := by
  intro emitted records before e after name parts collects
  have known : e ∈ emitted := by simp [parts]
  have needed : e.1.shape.record? = some (name, false) := by rw [collects]; rfl
  obtain ⟨record, found, same, serves⟩ := emitAll_serves known needed
  have named : Interface.empty.records.Named := Registry.named_empty
  have start : ¬Interface.empty.records.Flagged name := Registry.not_flagged_empty
  have itself : ¬e.1.NeedsFlag name := by simp [NeedsFlag, needed]
  obtain ⟨seenRecords, function, seen⟩ := emitAll_seen named parts
  have marks : flagged seenRecords e.1.shape = true ↔ ∃ e' ∈ before, e'.1.NeedsFlag name := by
    rw [collects, flagged_iff, seen]
    simp [start, itself]
  have flag : record.hasExists = true ↔ ∃ e' ∈ emitted, e'.1.NeedsFlag name := by
    rw [← Registry.flagged_of_get? found, emitAll_flagged named name]
    exact or_iff_right start
  have rendered (layout : Layout) := Interface.renderRecord_infix layout found
  simp only [Interface.renderRecord_lines, same] at rendered
  have written (layout : Layout) := e.1.written_function seenRecords layout
  simp only [← function, lines_collection collects] at written
  refine ⟨record, _, found, same, serves.fields, rendered, written, ⟨_, rfl⟩,
    mark_mem_rows.trans marks, flag, ?_⟩
  have split : (∃ e' ∈ emitted, e'.1.NeedsFlag name) ↔
      (∃ e' ∈ before, e'.1.NeedsFlag name) ∨ ∃ e' ∈ after, e'.1.NeedsFlag name := by
    simp [parts, itself, or_and_right, exists_or]
  rw [mark_mem_rows, marks, Record.exists_mem_members, flag, split, serves.fields]
  constructor
  · intro same declared
    apply same.mpr
    cases declared with
    | inl later => exact .inl (.inr later)
    | inr field => exact .inr field
  · intro kept
    constructor
    · exact fun earlier => .inl (.inl earlier)
    · intro declared
      rcases declared with (earlier | later) | field
      · exact earlier
      · exact kept (.inl later)
      · exact kept (.inr field)

/-- A function over a table of users. -/
def userAccess (method : Text) (fields : List Field) (shape : Shape) : Access :=
  ⟨⟨.plain "User", some "Users", method⟩, fields, ⟨"SELECT * FROM users", []⟩, shape, none⟩

/-- The body of a function that collects users, with lines for the row it is at. -/
def userLines (rows : List Text) : List CodeLine :=
  [⟨1, "if(!_all.prepared())"⟩, ⟨1, ['{']⟩, ⟨2, "_all=db.prepare(\"SELECT * FROM users\");"⟩,
    ⟨1, ['}']⟩, ⟨1, "C& cursor=_all.cursor();"⟩, ⟨1, "std::vector<Users::User> ret;"⟩,
    ⟨1, "while(cursor.next())"⟩, ⟨1, ['{']⟩, ⟨2, "ret.emplace_back();"⟩,
    ⟨2, "Users::User& obj=ret.back();"⟩] ++ rows.map (⟨2, ·⟩) ++ [⟨1, ['}']⟩, ⟨1, "return ret;"⟩]

theorem marked_behind_need :
    let fields : List Field := [⟨"int", "id"⟩, ⟨"string", "name"⟩]
    let accesses := [userAccess "byId" fields (.condRecord "User"),
      userAccess "all" fields (.recordCollection "User")]
    let layout : Layout := ⟨[' '], ['\n'], "Q", "C"⟩
    ∃ first e record, (emitAll accesses .empty).1 = [first, e] ∧
      e.1.shape = .recordCollection "User" ∧
      (∃ rows, e.2.Written layout (e.1.preparing ++ e.1.looping layout rows ++ e.1.finishing) ∧
        ("obj.exists=true;" : Text) ∈ rows) ∧
      e.2.Written layout (userLines
        ["obj.exists=true;", "cursor.get(\"id\", obj.id);", "cursor.get(\"name\", obj.name);"]) ∧
      Dictionary.get? (emitAll accesses .empty).2.records "User" = some record ∧
      ⟨"bool", "exists"⟩ ∈ record.members := by
  intro fields accesses layout
  obtain ⟨first, e, parts, collects, needs, written⟩ : ∃ first e,
      (emitAll accesses .empty).1 = [first] ++ e :: [] ∧ e.1.shape = .recordCollection "User" ∧
        first.1.NeedsFlag "User" ∧ e.2.Written layout (userLines ["obj.exists=true;",
          "cursor.get(\"id\", obj.id);", "cursor.get(\"name\", obj.name);"]) :=
    ⟨_, _, rfl, rfl, rfl, by decide +kernel⟩
  obtain ⟨record, rows, found, -, -, -, lines, -, marks, -, agree⟩ :=
    collection_marks accesses [first] e [] "User" parts collects
  have earlier : ∃ e' ∈ [first], e'.1.NeedsFlag "User" := ⟨first, List.mem_singleton_self _, needs⟩
  exact ⟨first, e, record, parts, collects, ⟨rows, lines layout, marks.mpr earlier⟩, written, found,
    (agree.mpr fun _ => earlier).mp (marks.mpr earlier)⟩

/-- A collecting function before the first one that needs the flag does not set it, and neither does
one whose record has a field of that name. -/
theorem late_flag_unmarked :
    let fields : List Field := [⟨"int", "id"⟩, ⟨"string", "name"⟩]
    let layout : Layout := ⟨[' '], ['\n'], "Q", "C"⟩
    let late := emitAll [userAccess "all" fields (.recordCollection "User"),
      userAccess "byId" fields (.condRecord "User")] .empty
    let named := emitAll
      [userAccess "all" [⟨"int", "id"⟩, ⟨"bool", "exists"⟩] (.recordCollection "User")] .empty
    (∃ e ∈ late.1.head?, e.2.Written layout (userLines
      ["cursor.get(\"id\", obj.id);", "cursor.get(\"name\", obj.name);"])) ∧
    Interface.recordText layout late.2.records =
      " struct User\n \x7b\n  bool exists;\n  int id;\n  std::string name;\n \x7d;\n" ∧
    (∃ e ∈ named.1.head?, e.2.Written layout (userLines
      ["cursor.get(\"id\", obj.id);", "cursor.get(\"exists\", obj.exists);"])) ∧
    Interface.recordText layout named.2.records =
      " struct User\n \x7b\n  int id;\n  bool exists;\n \x7d;\n" := by
  decide +kernel

end Access
end QueryWeaver
