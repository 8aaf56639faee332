import Mathlib
import QueryWeaver.Proofs.Access.Refusals
import QueryWeaver.Proofs.Generation.Locality
/-!
What the blocks of a source contribute to the header: the functions of those that were replaced, in
file order, and nothing of a block that failed.
-/

namespace QueryWeaver

namespace Generation

variable {σ : Type} {db : Database σ} {layout : Layout}

/-- Segments before and after regeneration, with the functions of the replaced blocks. -/
inductive Contributed (db : Database σ) (layout : Layout) :
    List Segment → List Segment → List (Access × GeneratedFunction) → Prop
  | nil : Contributed db layout [] [] []
  | plain (t : Text) {r r' : List Segment} {emitted : List (Access × GeneratedFunction)}
      (rest : Contributed db layout r r' emitted) :
      Contributed db layout (.plain t :: r) (.plain t :: r') emitted
  | unasked {block : Block} {r r' : List Segment} {emitted : List (Access × GeneratedFunction)}
      (other : checked? block = none) (rest : Contributed db layout r r' emitted) :
      Contributed db layout (.annotated block :: r) (.annotated block :: r') emitted
  | failed {block : Block} {checked : Bool} {e : Error} {r r' : List Segment}
      {emitted : List (Access × GeneratedFunction)} (access : checked? block = some checked)
      (fault : Fault db checked block e) (rest : Contributed db layout r r' emitted) :
      Contributed db layout (.annotated block :: r) (.annotated block :: r') emitted
  | generated {block : Block} {checked : Bool} {plan : Plan} {s : σ} {known : Option ColumnMap}
      {f : GeneratedFunction} {r r' : List Segment} {emitted : List (Access × GeneratedFunction)}
      (access : checked? block = some checked) (planned : Plan.ofBlock block = .ok plan)
      (answered : (columns db checked plan s).1 = .ok known)
      (rest : Contributed db layout r r' emitted) :
      Contributed db layout (.annotated block :: r)
        (.annotated { block with code := f.render layout } :: r')
        ((accessOf plan known, f) :: emitted)

theorem generatePlan_kept {checked : Bool} {plan : Plan} {p p' : Progress σ} {e : Error}
    (refused : generatePlan db layout checked plan p = (.error e, p')) :
    p'.interface = p.interface := by
  simp only [generatePlan] at refused
  split at refused
  next =>
    cases refused
    rfl
  next =>
    split at refused
    next =>
      cases refused
      rfl
    next => cases refused

/-- A block that asks for a function fails and leaves the interface as it was, or its function is
generated on it. -/
theorem regenerateBlock_contributes (db : Database σ) (layout : Layout) (checked : Bool)
    (block : Block) (p : Progress σ) :
    let step := regenerateBlock db layout checked block p
    (∃ e, Fault db checked block e ∧ step.1 = block ∧ step.2.interface = p.interface ∧
        step.2.report.generated = p.report.generated) ∨
      ∃ plan s known f, Plan.ofBlock block = .ok plan ∧
        (columns db checked plan s).1 = .ok known ∧
        (accessOf plan known).generate p.interface = .ok (f, step.2.interface) ∧
        step.1 = { block with code := f.render layout } ∧
        step.2.report.generated = p.report.generated ++ [plan.function] := by
  cases planned : Plan.ofBlock block with
  | error e =>
    left
    rw [regenerateBlock_unplanned planned]
    exact ⟨e, .unplanned planned, rfl, rfl, rfl⟩
  | ok plan =>
    rcases result : generatePlan db layout checked plan { p with report := p.report.attempt } with
      ⟨outcome, q⟩
    have report : q.report.generated = p.report.generated := by
      rw [generatePlan_report result]
      rfl
    cases outcome with
    | error e =>
      left
      rw [regenerateBlock_refused planned result]
      have kept : q.interface = ({ p with report := p.report.attempt } : Progress σ).interface :=
        generatePlan_kept result
      exact ⟨e, generatePlan_error planned result, rfl, kept, report⟩
    | ok code =>
      right
      rw [regenerateBlock_generated planned result]
      obtain ⟨known, f, answered, accepted, same⟩ := generatePlan_ok result
      rw [same]
      exact ⟨plan, p.database, known, f, rfl, congrArg Prod.fst answered, accepted, rfl,
        congrArg (· ++ [plan.function]) report⟩

/-- The interface of a run is that of its functions alone. -/
theorem regenerate_contributed (db : Database σ) (layout : Layout) (segments : List Segment)
    (p : Progress σ) :
    ∃ emitted,
      Contributed db layout segments (regenerate db layout segments p).1 emitted ∧
      (regenerate db layout segments p).2.report.generated =
        p.report.generated ++ emitted.map (fun e => e.1.signature.qualifiedName) ∧
      Access.emitAll (emitted.map Prod.fst) p.interface =
        (emitted, (regenerate db layout segments p).2.interface) := by
  induction segments generalizing p with
  | nil => exact ⟨[], .nil, (List.append_nil _).symm, rfl⟩
  | cons segment r ih =>
    cases segment with
    | plain t =>
      obtain ⟨emitted, rest, run⟩ := ih p
      exact ⟨emitted, .plain t rest, run⟩
    | annotated block =>
      cases access : checked? block with
      | none =>
        obtain ⟨emitted, rest, run⟩ := ih p
        rw [regenerate_unasked access]
        exact ⟨emitted, .unasked access rest, run⟩
      | some checked =>
        rw [regenerate_asked access]
        obtain ⟨emitted, rest, names, run⟩ := ih (regenerateBlock db layout checked block p).2
        cases regenerateBlock_contributes db layout checked block p with
        | inl failed =>
          obtain ⟨e, fault, same, interface, report⟩ := failed
          rw [report] at names
          rw [interface] at run
          dsimp only
          rw [same]
          exact ⟨emitted, .failed access fault rest, names, run⟩
        | inr generated =>
          obtain ⟨plan, s, known, f, planned, answered, accepted, code, report⟩ := generated
          rw [report, List.append_assoc] at names
          dsimp only
          rw [code]
          refine ⟨(accessOf plan known, f) :: emitted, .generated access planned answered rest,
            names, ?_⟩
          rw [List.map_cons, Access.emitAll_generated accepted, run]

theorem spliceHeader_header (layout : Layout) (i : Interface) (header : Text) (r r' : Report) :
    (spliceHeader layout i header r).1 = (spliceHeader layout i header r').1 := by
  unfold spliceHeader
  split <;> rfl

/-- A function fails for the record of a function emitted before it and for nothing else. What fails
has no part in the functions and the interface of the others. So the header of a run is that of its
generated functions alone. -/
theorem failures_leave_no_trace :
    (∀ before (a : Access) e, a.generate (Access.emitAll before .empty).2 = .error e ↔
      Access.Conflict (Access.emitAll before .empty).1 a e) ∧
    (∀ before (a : Access) after i e, a.generate (Access.emitAll before i).2 = .error e →
      Access.emitAll (before ++ a :: after) i = Access.emitAll (before ++ after) i) ∧
    (∀ accesses i, Access.emitAll ((Access.emitAll accesses i).1.map Prod.fst) i =
      Access.emitAll accesses i) ∧
    ∀ (σ : Type) (db : Database σ) types source header s,
      let before := Segment.ofSource source
      let layout := (resolveLayout types source before).1
      let ran := (run db types source header s).1
      ∃ after emitted, ran.source = Segment.render after ∧
        Contributed db layout before after emitted ∧
        ran.report.generated = emitted.map (fun e => e.1.signature.qualifiedName) ∧
        let alone := Access.emitAll (emitted.map Prod.fst) .empty
        alone.1 = emitted ∧ ran.header = (spliceHeader layout alone.2 header .empty).1 := by
  refine ⟨fun before _ _ => Access.generate_conflict before, ?_, Access.emitAll_again, ?_⟩
  · intro before a after i e refused
    rw [Access.emitAll_append, Access.emitAll_append, Access.emitAll_refused refused]
  · intro σ db types source header s before layout ran
    obtain ⟨_, _, -, start, report⟩ := prepared_start db types source s
    obtain ⟨emitted, contributed, names, alone⟩ :=
      regenerate_contributed db layout before (prepared db types source s)
    rw [report, List.nil_append] at names
    rw [start] at alone
    refine ⟨_, emitted, rfl, contributed, ?_, ?_⟩
    · simp only [ran, run_eq rfl rfl, spliceHeader_report]
      exact names
    · rw [alone]
      refine ⟨rfl, ?_⟩
      simp only [ran, run_eq rfl rfl]
      exact spliceHeader_header layout _ header _ _

/-- A function over users whose record has the one field. -/
def userFunction (method : Text) (field : Field) : Access :=
  ⟨⟨.plain "User", some "Users", method⟩, [field, ⟨"int", "age"⟩], ⟨"SELECT * FROM users", []⟩,
    .condRecord "User", none⟩

theorem clash_leaves_no_trace :
    let byId := userFunction "byId" ⟨"int64", "id"⟩
    let byName := userFunction "byName" ⟨"string", "name"⟩
    let last := userFunction "last" ⟨"int64_t", "id"⟩
    ∃ e, byName.generate (Access.emitAll [byId] .empty).2 = .error e ∧
      Access.Conflict (Access.emitAll [byId] .empty).1 byName e ∧
      Access.emitAll [byId, byName, last] .empty = Access.emitAll [byId, last] .empty := by
  intro byId byName last
  obtain ⟨conflict, deleted, -, -⟩ := failures_leave_no_trace
  obtain ⟨e, refused⟩ : ∃ e, byName.generate (Access.emitAll [byId] .empty).2 = .error e :=
    ⟨_, rfl⟩
  exact ⟨e, refused, (conflict [byId] byName e).mp refused,
    deleted [byId] byName [last] .empty e refused⟩

end Generation
end QueryWeaver
