import Mathlib
import QueryWeaver.Proofs.Access.Emission
import QueryWeaver.Proofs.Access.History
/-!
Functions that cannot be generated. Only a record can be the cause, one that an earlier function was
the first to ask for; and what fails has no part in the functions and the interface of the others.
-/

namespace QueryWeaver

namespace Access

variable {a : Access} {i next : Interface} {f : GeneratedFunction} {e : Error}

/-- What the function asks of the registry. -/
def request (a : Access) : Request := ⟨a.shape, a.fields⟩

theorem generate_eq_error :
    a.generate i = .error e ↔
      Registry.register i.records a.request.shape a.request.fields = .error e := by
  unfold generate
  cases registered : Registry.register i.records a.shape a.fields with
  | error e' => simp [request, registered, bind, Except.bind]
  | ok records => simp [request, registered, bind, Except.bind, pure, Except.pure]

theorem emitAll_refused (refused : a.generate i = .error e) (r : List Access) :
    emitAll (a :: r) i = emitAll r i := by
  rw [emitAll, refused]

theorem emitAll_generated (generated : a.generate i = .ok (f, next)) (r : List Access) :
    emitAll (a :: r) i = ((a, f) :: (emitAll r next).1, (emitAll r next).2) := by
  rw [emitAll, generated]

theorem emitAll_append (before after : List Access) (i : Interface) :
    emitAll (before ++ after) i =
      ((emitAll before i).1 ++ (emitAll after (emitAll before i).2).1,
        (emitAll after (emitAll before i).2).2) := by
  fun_induction emitAll before i with
  | case1 => rfl
  | case2 a r i error failed ih => rw [List.cons_append, emitAll_refused failed, ih]
  | case3 a r i f next generated emitted last rest ih =>
    rw [rest] at ih
    rw [List.cons_append, emitAll_generated generated, ih]
    rfl

/-- The functions that were generated are generated alike when they stand alone. -/
theorem emitAll_again (accesses : List Access) (i : Interface) :
    emitAll ((emitAll accesses i).1.map Prod.fst) i = emitAll accesses i := by
  fun_induction emitAll accesses i with
  | case1 => rfl
  | case2 a r i error failed ih => exact ih
  | case3 a r i f next generated emitted last rest ih =>
    rw [rest] at ih
    rw [List.map_cons, emitAll_generated generated, ih]

/-- A run registers the requests of its functions, and generates those whose request is accepted. -/
theorem emitAll_requests (accesses : List Access) (i : Interface) :
    Registry.registerAll (accesses.map request) i.records =
      ((emitAll accesses i).1.map fun e => e.1.request, (emitAll accesses i).2.records) := by
  fun_induction emitAll accesses i with
  | case1 => rfl
  | case2 a r i error failed ih =>
    rw [List.map_cons, Registry.registerAll_refused (generate_eq_error.mp failed), ih]
  | case3 a r i f next generated emitted last rest ih =>
    have registered : Registry.register i.records a.request.shape a.request.fields =
        .ok next.records := (generate_function generated).2.1
    rw [rest] at ih
    rw [List.map_cons, Registry.registerAll_accepted registered, ih]
    rfl

/-- An emitted function was the first to ask for the record that the function asks for, and gave it
other fields. -/
def Conflict (emitted : List (Access × GeneratedFunction)) (a : Access) (e : Error) : Prop :=
  ∃ name first, a.request.names name = true ∧
    emitted.find? (fun earlier => earlier.1.request.names name) = some first ∧
    first.1.request.recordFields ≠ a.request.recordFields ∧
    e = .recordConflict name (Record.describe first.1.request.recordFields)
      (Record.describe a.request.recordFields)

/-- Under the name of a record stands what the first function that asked for it gave it. -/
theorem emitAll_history (accesses : List Access) (name : Text) :
    Dictionary.get? (emitAll accesses .empty).2.records name =
      Registry.history name ((emitAll accesses .empty).1.map fun e => e.1.request) := by
  have history := Registry.get?_registerAll (accesses.map request) name
  have run : Registry.registerAll (accesses.map request) Dictionary.empty =
      ((emitAll accesses .empty).1.map fun e => e.1.request, (emitAll accesses .empty).2.records) :=
    emitAll_requests accesses .empty
  rwa [run] at history

theorem generate_conflict (before : List Access) :
    a.generate (emitAll before .empty).2 = .error e ↔
      Conflict (emitAll before .empty).1 a e := by
  rw [generate_eq_error, Registry.register_eq_error]
  constructor
  · intro refused
    obtain ⟨name, known, names, stands, other, same⟩ := refused
    rw [emitAll_history, Registry.history, List.find?_map] at stands
    obtain ⟨request, found, rfl⟩ := Option.map_eq_some_iff.mp stands
    obtain ⟨first, earliest, rfl⟩ := Option.map_eq_some_iff.mp found
    exact ⟨name, first, names, earliest, other, same⟩
  · intro conflict
    obtain ⟨name, first, names, earliest, other, same⟩ := conflict
    have found : ((emitAll before .empty).1.map fun e => e.1.request).find? (·.names name) =
        some first.1.request := by
      rw [List.find?_map]
      exact congrArg (Option.map _) earliest
    have stands := emitAll_history before name
    rw [Registry.history, found] at stands
    exact ⟨name, _, names, stands, other, same⟩

end Access
end QueryWeaver
