import Mathlib
import QueryWeaver.Proofs.Access.Retokenize
/-!
Functions generated one after the other, and the statement members they share. A member belongs to
a method name and keeps the statement that the first call of such a method prepares.
-/

namespace QueryWeaver

namespace BodyStep

/-- What the member of a function holds after a step of its body. -/
def hold (held : Option Text) : BodyStep → Option Text
  | prepare sql => some (held.getD sql)
  | _ => held

def Prepares : BodyStep → Prop
  | prepare _ => True
  | _ => False

/-- Reads rows of the statement, or writes with it. -/
def Transfers : BodyStep → Prop
  | openCursor | declareResult _ _ | eachRow _ | firstRow _ | write | writeResult => True
  | _ => False

theorem hold_other {step : BodyStep} (other : ¬step.Prepares) (held : Option Text) :
    hold held step = held := by
  cases step with
  | prepare => exact absurd trivial other
  | _ => rfl

theorem foldl_hold {steps : List BodyStep} (others : ∀ s ∈ steps, ¬s.Prepares)
    (held : Option Text) : steps.foldl hold held = held := by
  induction steps with
  | nil => rfl
  | cons step steps ih =>
    rw [List.foldl_cons, hold_other (others step (by simp))]
    exact ih fun s member => others s (List.mem_cons_of_mem step member)

/-- The steps of a function: the statement is prepared, values are bound, rows are read or written,
what was bound is reset, the result is returned. -/
structure Staged (sql : Text) (params : List Field) (returns : Bool)
    (transfer body : List BodyStep) : Prop where
  whole : body = [prepare sql] ++ params.map bind ++ transfer ++
    (if params.isEmpty then [] else [reset]) ++ (if returns then [returnResult] else [])
  transfers : ∀ s ∈ transfer, s.Transfers

/-- What is read off a body, part by part. -/
theorem Staged.flatMap {β : Type} {sql : Text} {params : List Field} {returns : Bool}
    {transfer body : List BodyStep} (staged : Staged sql params returns transfer body)
    (read : BodyStep → List β) :
    body.flatMap read =
      read (prepare sql) ++ (params.flatMap fun p => read (bind p)) ++ transfer.flatMap read ++
        (if params.isEmpty then [] else read reset) ++
        (if returns then read returnResult else []) := by
  have released : (if params.isEmpty then [] else [reset]).flatMap read =
      if params.isEmpty then [] else read reset := by
    split
    · rfl
    · exact List.flatMap_singleton ..
  have returned : (if returns then [returnResult] else []).flatMap read =
      if returns then read returnResult else [] := by
    split
    · exact List.flatMap_singleton ..
    · rfl
  simp only [staged.whole, List.flatMap_append, released, returned, List.flatMap_singleton,
    List.flatMap_map]

end BodyStep

namespace GeneratedFunction

/-- The statements that the members hold after a call of the function. -/
def call (f : GeneratedFunction) (held : Text → Option Text) : Text → Option Text :=
  Function.update held f.member (f.body.foldl BodyStep.hold (held f.member))

/-- The statement that each of some calls runs. -/
def runCalls : List GeneratedFunction → (Text → Option Text) → List (Option Text)
  | [], _ => []
  | f :: r, held => f.call held f.member :: runCalls r (f.call held)

/-- The text of a step stands in the text of its function. -/
theorem step_infix {f : GeneratedFunction} {step : BodyStep} (member : step ∈ f.body)
    (layout : Layout) : step.render layout f.member <:+: f.render layout := by
  obtain ⟨before, after, whole⟩ := List.append_of_mem member
  have inside : step.render layout f.member <:+:
      f.body.flatMap fun s => s.render layout f.member := by
    rw [whole, List.flatMap_append, List.flatMap_cons, ← List.append_assoc]
    exact ⟨_, _, rfl⟩
  exact inside.trans ⟨_, _, rfl⟩

end GeneratedFunction

namespace Access

/-- Generates functions in order. One that fails leaves the interface to the next. -/
def emitAll : List Access → Interface → List (Access × GeneratedFunction) × Interface
  | [], i => ([], i)
  | a :: r, i =>
    match a.generate i with
    | .error _ => emitAll r i
    | .ok (f, next) =>
      let (emitted, last) := emitAll r next
      ((a, f) :: emitted, last)

theorem transfer_transfers (a : Access) (flagged : Bool) :
    ∀ s ∈ a.transfer flagged, s.Transfers := by
  unfold transfer
  cases a.shape with
  | mutation returnsBool => cases returnsBool <;> simp [BodyStep.Transfers]
  | _ => simp [BodyStep.Transfers]

theorem staged_function (a : Access) (records : Registry) :
    BodyStep.Staged a.query.sql a.query.params a.returnsValue
      (a.transfer (flagged records a.shape)) (a.function records).body :=
  ⟨rfl, a.transfer_transfers _⟩

/-- A function prepares its statement first, and then no other. -/
theorem body_function (a : Access) (records : Registry) :
    ∃ rest, (a.function records).body = .prepare a.query.sql :: rest ∧
      ∀ s ∈ rest, ¬s.Prepares := by
  refine ⟨a.query.params.map .bind ++ a.transfer (flagged records a.shape) ++
      (if a.query.params.isEmpty then [] else [.reset]) ++
      (if a.returnsValue then [.returnResult] else []), rfl, ?_⟩
  simp only [List.forall_mem_append]
  refine ⟨⟨⟨?_, ?_⟩, ?_⟩, ?_⟩
  · simp [BodyStep.Prepares]
  · intro s member prepares
    cases s with
    | prepare sql => exact a.transfer_transfers _ _ member
    | _ => exact prepares
  · split <;> simp [BodyStep.Prepares]
  · split <;> simp [BodyStep.Prepares]

/-- A call prepares the statement of the function unless the member holds one. -/
theorem call_function (a : Access) (records : Registry) (held : Text → Option Text) :
    (a.function records).call held =
      Function.update held a.member (some ((held a.member).getD a.query.sql)) := by
  obtain ⟨rest, body, others⟩ := a.body_function records
  rw [GeneratedFunction.call, body, List.foldl_cons, BodyStep.foldl_hold others]
  rfl

theorem member_inj {a b : Access} :
    a.member = b.member ↔ a.signature.method = b.signature.method := by
  simp [member]

theorem emitAll_function {accesses : List Access} {i : Interface} :
    ∀ e ∈ (emitAll accesses i).1, ∃ records, e.2 = e.1.function records := by
  fun_induction emitAll accesses i with
  | case1 => simp
  | case2 a r i error failed ih => exact ih
  | case3 a r i f next generated emitted last rest ih =>
    rw [rest] at ih
    intro e member
    rcases List.mem_cons.mp member with rfl | member
    · exact ⟨next.records, (generate_function generated).1⟩
    · exact ih e member

theorem addMember_nodup {members : List Text} (nodup : members.Nodup) (m : Text) :
    (Interface.addMember members m).Nodup := by
  unfold Interface.addMember
  split
  next => exact nodup
  next fresh =>
    rw [List.nodup_append]
    refine ⟨nodup, List.nodup_singleton m, ?_⟩
    rintro x known y new rfl
    obtain rfl := List.mem_singleton.mp new
    exact fresh (List.contains_iff_mem.mpr known)

theorem mem_addMember {members : List Text} {m x : Text} :
    x ∈ Interface.addMember members m ↔ x ∈ members ∨ x = m := by
  unfold Interface.addMember
  split
  next known =>
    refine ⟨.inl, ?_⟩
    rintro (member | rfl)
    · exact member
    · exact List.contains_iff_mem.mp known
  next => simp

theorem emitAll_nodup {accesses : List Access} {i : Interface} (nodup : i.members.Nodup) :
    (emitAll accesses i).2.members.Nodup := by
  fun_induction emitAll accesses i with
  | case1 => exact nodup
  | case2 a r i error failed ih => exact ih nodup
  | case3 a r i f next generated emitted last rest ih =>
    rw [rest] at ih
    obtain ⟨-, -, -, members⟩ := generate_function generated
    exact ih (members ▸ addMember_nodup nodup a.member)

theorem mem_emitAll_members {accesses : List Access} {i : Interface} {m : Text} :
    m ∈ (emitAll accesses i).2.members ↔
      m ∈ i.members ∨ ∃ e ∈ (emitAll accesses i).1, e.2.member = m := by
  fun_induction emitAll accesses i with
  | case1 => simp
  | case2 a r i error failed ih => exact ih
  | case3 a r i f next generated emitted last rest ih =>
    rw [rest] at ih
    obtain ⟨rfl, -, -, members⟩ := generate_function generated
    rw [ih, members, mem_addMember, List.exists_mem_cons_iff, or_assoc]
    exact or_congr_right (or_congr_left eq_comm)

section

variable {emitted : List (Access × GeneratedFunction)}
  (functions : ∀ e ∈ emitted, ∃ records, e.2 = e.1.function records)
include functions

theorem emitted_member {e : Access × GeneratedFunction} (known : e ∈ emitted) :
    e.2.member = e.1.member := by
  obtain ⟨records, function⟩ := functions e known
  rw [function]
  rfl

theorem emitted_call {e : Access × GeneratedFunction} (known : e ∈ emitted)
    (held : Text → Option Text) :
    e.2.call held =
      Function.update held e.1.member (some ((held e.1.member).getD e.1.query.sql)) := by
  obtain ⟨records, function⟩ := functions e known
  rw [function]
  exact e.1.call_function records held

/-- The invariant of a run of calls: a member holds the one statement of its functions. -/
theorem runCalls_own
    (agree : ∀ e ∈ emitted, ∀ e' ∈ emitted, e.1.signature.method = e'.1.signature.method →
      e.1.query.sql = e'.1.query.sql)
    {calls : List (Access × GeneratedFunction)} (known : calls ⊆ emitted)
    {held : Text → Option Text}
    (own : ∀ e ∈ emitted, ∀ sql, held e.1.member = some sql → sql = e.1.query.sql) :
    GeneratedFunction.runCalls (calls.map Prod.snd) held =
      calls.map fun e => some e.1.query.sql := by
  induction calls generalizing held with
  | nil => rfl
  | cons e calls ih =>
    obtain ⟨first, others⟩ := List.cons_subset.mp known
    have statement : (held e.1.member).getD e.1.query.sql = e.1.query.sql := by
      cases holds : held e.1.member with
      | none => rfl
      | some sql => exact own e first sql holds
    have next : ∀ e' ∈ emitted, ∀ sql, e.2.call held e'.1.member = some sql →
        sql = e'.1.query.sql := by
      intro e' known' sql holds
      rw [emitted_call functions first, statement] at holds
      by_cases same : e'.1.member = e.1.member
      · rw [same, Function.update_self] at holds
        exact (Option.some.inj holds).symm.trans (agree e first e' known' (member_inj.mp same.symm))
      · rw [Function.update_of_ne same] at holds
        exact own e' known' sql holds
    rw [List.map_cons, GeneratedFunction.runCalls, ih others next, emitted_member functions first,
      emitted_call functions first, Function.update_self, statement, List.map_cons]

/-- Of two functions with one member the second runs the statement of the first. -/
theorem runCalls_shared {e e' : Access × GeneratedFunction} (known : e ∈ emitted)
    (known' : e' ∈ emitted) (same : e.1.signature.method = e'.1.signature.method) :
    GeneratedFunction.runCalls [e.2, e'.2] (fun _ => none) =
      [some e.1.query.sql, some e.1.query.sql] := by
  have shared : e'.1.member = e.1.member := member_inj.mpr same.symm
  simp [GeneratedFunction.runCalls, emitted_member functions known,
    emitted_member functions known', emitted_call functions known,
    emitted_call functions known', shared]

end

/-- A member belongs to a method name and is declared once. Each function runs its own statement in
every order of calls exactly if functions of one method name have one statement. -/
theorem emitted_members (accesses : List Access) :
    let emitted := (emitAll accesses .empty).1
    let members := (emitAll accesses .empty).2.members
    (∀ e ∈ emitted, ∀ e' ∈ emitted,
      e.2.member = e'.2.member ↔ e.1.signature.method = e'.1.signature.method) ∧
    members.Nodup ∧ (∀ m, m ∈ members ↔ ∃ e ∈ emitted, e.2.member = m) ∧
    ((∀ e ∈ emitted, ∀ e' ∈ emitted, e.1.signature.method = e'.1.signature.method →
        e.1.query.sql = e'.1.query.sql) ↔
      ∀ calls ⊆ emitted, GeneratedFunction.runCalls (calls.map Prod.snd) (fun _ => none) =
        calls.map fun e => some e.1.query.sql) := by
  intro emitted members
  have functions : ∀ e ∈ emitted, ∃ records, e.2 = e.1.function records := emitAll_function
  refine ⟨?_, emitAll_nodup (List.nodup_nil), ?_, ?_, ?_⟩
  · intro e known e' known'
    rw [emitted_member functions known, emitted_member functions known', member_inj]
  · intro m
    simp [members, mem_emitAll_members, Interface.empty, emitted]
  · intro agree calls known
    exact runCalls_own functions agree known (by simp)
  · intro own e known e' known' same
    have pair := own [e, e'] (by simp [known, known'])
    rw [List.map_cons, List.map_singleton, runCalls_shared functions known known' same] at pair
    simpa using pair

/-- Overloads of a method, and a method of that name in another class, over different tables. -/
def overloads : List Access :=
  [⟨⟨.plain "void", some "Users", "clear"⟩, [], ⟨"DELETE FROM users", []⟩, .mutation false, none⟩,
    ⟨⟨.plain "void", some "Users", "clear"⟩, [], ⟨"DELETE FROM users WHERE id=?", [⟨"int", "id"⟩]⟩,
      .mutation false, none⟩,
    ⟨⟨.plain "void", some "Orders", "clear"⟩, [], ⟨"DELETE FROM orders", []⟩, .mutation false,
      none⟩]

theorem overloads_share_member :
    (emitAll overloads .empty).1.length = 3 ∧
      (emitAll overloads .empty).1.Pairwise fun e e' =>
        e.1.query.sql ≠ e'.1.query.sql ∧ e.2.member = e'.2.member := by
  decide

end Access
end QueryWeaver
