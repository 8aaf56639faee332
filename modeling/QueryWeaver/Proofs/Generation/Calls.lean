import Mathlib
import QueryWeaver.Proofs.Generation.Locality
import QueryWeaver.Proofs.Generation.Plans
/-!
The calls that a run makes to its database. The setup statements come first, then one probe per
checked block with a plan, each in file order and whatever the database answers.
-/

namespace QueryWeaver

theorem Database.write_logged {σ : Type} (db : Database σ) (sql : Text) (s : σ) (log : List Call) :
    db.logged.write sql (s, log) =
      ((db.write sql s).1, (db.write sql s).2, log ++ [.write sql]) := rfl

theorem Database.explain_logged {σ : Type} (db : Database σ) (sql : Text) (s : σ)
    (log : List Call) : db.logged.explain sql (s, log) =
      ((db.explain sql s).1, (db.explain sql s).2, log ++ [.read (explainPrefix ++ sql)]) := rfl

theorem Annotations.nonempty?_eq_some {a : Annotations} {key value : Text} :
    a.nonempty? key = some value ↔ value ≠ [] ∧ Dictionary.get? a key = some value := by
  constructor
  · intro given
    refine ⟨?_, Plan.nonempty?_get given⟩
    rintro rfl
    rw [nonempty?, Plan.nonempty?_get given] at given
    cases given
  · rintro ⟨ne, known⟩
    rw [nonempty?, known]
    split
    next empty => exact absurd (Option.some.inj empty) ne
    next => rfl

/-- What a block needs for a plan: a signature, closed code, fields, a statement and a shape. -/
theorem Plan.ofBlock_ok {block : Block} {func sql : Text} {signature : Signature}
    {fields : List Field} {shape : Shape}
    (known : Dictionary.get? block.annotations "func" = some func)
    (parsed : Signature.parse func = .ok signature) (closed : block.unclosed = false)
    (listed : Field.parseList ((Dictionary.get? block.annotations "return").getD []) = .ok fields)
    (given : block.annotations.nonempty? "sql" = some sql)
    (inferred : Shape.infer signature fields = .ok shape) :
    ofBlock block = .ok ⟨signature, fields, Placeholder.replaceAll sql,
      .classify (Placeholder.replaceAll sql).sql, shape⟩ := by
  simp only [ofBlock, require, bind, Except.bind, known, parsed, closed, listed, given, inferred]
  rfl

namespace Generation

variable {σ : Type}

/-- The statement that a block has executed before generation. -/
def setupCall? (block : Block) : Option Call :=
  (block.annotations.nonempty? "sql").map .write

def probe (plan : Plan) : Call := .read (Database.explainPrefix ++ plan.query.sql)

/-- The probe of a block's statement, if the block has a plan. -/
def probeCall? (block : Block) : Option Call := (Plan.ofBlock block).toOption.map probe

/-- Progress on a database that has its calls logged. -/
def Progress.logged (p : Progress σ) (log : List Call) : Progress (σ × List Call) :=
  ⟨(p.database, log), p.interface, p.report⟩

section

variable (db : Database σ) (log : List Call)

theorem setupBlock_logged (block : Block) (p : Progress σ) :
    setupBlock db.logged block (p.logged log) =
      (setupBlock db block p).logged (log ++ (setupCall? block).toList) := by
  cases known : block.annotations.nonempty? "sql" with
  | none =>
    simp only [setupBlock, setupCall?, known, Option.map_none, Option.toList_none,
      List.append_nil]
    rfl
  | some sql =>
    simp only [setupBlock, setupCall?, known, Progress.logged, Database.write_logged]
    rcases db.write sql p.database with ⟨_ | _, s⟩ <;> rfl

theorem setup_logged (segments : List Segment) (p : Progress σ) :
    setup db.logged segments (p.logged log) =
      (setup db segments p).logged
        (log ++ (blocksFor .tempSetup segments).filterMap setupCall?) := by
  unfold setup
  induction blocksFor .tempSetup segments generalizing p log with
  | nil => simp
  | cons block r ih =>
    rw [List.foldl_cons, List.foldl_cons, setupBlock_logged, ih, List.append_assoc,
      List.filterMap_cons]
    cases setupCall? block <;> rfl

/-- A check asks one question, a block that is not checked none. -/
theorem columns_logged (checked : Bool) (plan : Plan) (s : σ) :
    columns db.logged checked plan (s, log) =
      ((columns db checked plan s).1, (columns db checked plan s).2,
        log ++ if checked then [probe plan] else []) := by
  cases checked with
  | false => simp [columns]
  | true =>
    simp only [columns, Validation.validate, Database.explain_logged, if_true]
    rcases db.explain plan.query.sql s with ⟨_ | _, s'⟩ <;> rfl

theorem generatePlan_logged (layout : Layout) (checked : Bool) (plan : Plan) (p : Progress σ) :
    generatePlan db.logged layout checked plan (p.logged log) =
      ((generatePlan db layout checked plan p).1, (generatePlan db layout checked plan p).2.logged
        (log ++ if checked then [probe plan] else [])) := by
  simp only [generatePlan, Progress.logged, columns_logged]
  rcases columns db checked plan p.database with ⟨e | known, s⟩
  · rfl
  · dsimp only
    rcases (accessOf plan known).generate p.interface with e | ⟨f, next⟩ <;> rfl

theorem regenerateBlock_logged (layout : Layout) (checked : Bool) (block : Block)
    (p : Progress σ) :
    regenerateBlock db.logged layout checked block (p.logged log) =
      ((regenerateBlock db layout checked block p).1,
        (regenerateBlock db layout checked block p).2.logged
          (log ++ if checked then (probeCall? block).toList else [])) := by
  cases planned : Plan.ofBlock block with
  | error e =>
    simp only [regenerateBlock_unplanned planned, probeCall?, planned, Except.toOption,
      Option.map_none, Option.toList_none, ite_self, List.append_nil]
    rfl
  | ok plan =>
    have step := generatePlan_logged db log layout checked plan
      { p with report := p.report.attempt }
    simp only [probeCall?, planned, Except.toOption, Option.map_some, Option.toList_some]
    rcases result : generatePlan db layout checked plan { p with report := p.report.attempt } with
      ⟨e | code, q⟩
    · rw [result] at step
      rw [regenerateBlock_refused planned step, regenerateBlock_refused planned result]
      rfl
    · rw [result] at step
      rw [regenerateBlock_generated planned step, regenerateBlock_generated planned result]
      rfl

/-- The probes of a list of segments. -/
def probes (segments : List Segment) : List Call :=
  (blocksFor .access segments).filterMap probeCall?

theorem probes_annotated (block : Block) (r : List Segment) :
    probes (.annotated block :: r) =
      (if checked? block = some true then (probeCall? block).toList else []) ++ probes r := by
  have access : checked? block = some true ↔ block.annotations.directive? = some .access := by
    unfold checked?
    split <;> simp_all
  simp only [probes, blocksFor, List.filterMap_cons, Segment.block?, List.filter_cons, access,
    decide_eq_true_eq]
  split
  next => rw [List.filterMap_cons]; cases probeCall? block <;> rfl
  next => rfl

theorem regenerate_logged (layout : Layout) (segments : List Segment) (p : Progress σ) :
    regenerate db.logged layout segments (p.logged log) =
      ((regenerate db layout segments p).1,
        (regenerate db layout segments p).2.logged (log ++ probes segments)) := by
  induction segments generalizing p log with
  | nil => simp [regenerate, probes, blocksFor]
  | cons segment r ih =>
    cases segment with
    | plain t =>
      rw [regenerate_plain, regenerate_plain, ih]
      rfl
    | annotated block =>
      cases access : checked? block with
      | none =>
        rw [regenerate_unasked access, regenerate_unasked access, ih, probes_annotated, access]
        rfl
      | some checked =>
        simp only [regenerate_asked access, regenerateBlock_logged, ih, probes_annotated, access,
          List.append_assoc, Option.some.injEq]

end

theorem setupCall?_eq_some {block : Block} {call : Call} :
    setupCall? block = some call ↔ ∃ sql, call = .write sql ∧ sql ≠ [] ∧
      Dictionary.get? block.annotations "sql" = some sql := by
  rw [setupCall?, Option.map_eq_some_iff]
  constructor
  · rintro ⟨sql, given, rfl⟩
    exact ⟨sql, rfl, Annotations.nonempty?_eq_some.mp given⟩
  · rintro ⟨sql, rfl, given⟩
    exact ⟨sql, Annotations.nonempty?_eq_some.mpr given, rfl⟩

theorem probeCall?_eq_some {block : Block} {call : Call} :
    probeCall? block = some call ↔ ∃ plan, Plan.ofBlock block = .ok plan ∧ call = probe plan := by
  rw [probeCall?]
  cases Plan.ofBlock block with
  | error e => simp [Except.toOption]
  | ok plan => simp [Except.toOption, eq_comm]

theorem prepared_logged (db : Database σ) (types : Collaborators) (source : Text) (s : σ) :
    prepared db.logged types source (s, []) = (prepared db types source s).logged
      ((blocksFor .tempSetup (Segment.ofSource source)).filterMap setupCall?) := by
  have first := setup_logged db [] (Segment.ofSource source) ⟨s, .empty, .empty⟩
  rw [prepared]
  exact congrArg (fun p : Progress (σ × List Call) => { p with
    report := p.report.warn (resolveLayout types source (Segment.ofSource source)).2 }) first

theorem run_logged (db : Database σ) (types : Collaborators) (source header : Text) (s : σ) :
    run db.logged types source header (s, []) =
      ((run db types source header s).1, (run db types source header s).2,
        (blocksFor .tempSetup (Segment.ofSource source)).filterMap setupCall? ++
          probes (Segment.ofSource source)) := by
  have last := regenerate_logged db
    ((blocksFor .tempSetup (Segment.ofSource source)).filterMap setupCall?)
    (resolveLayout types source (Segment.ofSource source)).1 (Segment.ofSource source)
    (prepared db types source s)
  rw [← prepared_logged] at last
  refine Prod.ext ?_ (congrArg (fun q => q.2.database) last)
  rw [run_eq rfl rfl, run_eq rfl rfl, last]
  rfl

/-- A run writes the setup statements in file order, then reads one probe per checked block with a
plan, in file order, and makes no other call, whatever the database answers. -/
theorem run_calls (db : Database σ) (types : Collaborators) (source header : Text) (s : σ) :
    run db.logged types source header (s, []) =
      ((run db types source header s).1, (run db types source header s).2,
        (blocksFor .tempSetup (Segment.ofSource source)).filterMap setupCall? ++
          (blocksFor .access (Segment.ofSource source)).filterMap probeCall?) ∧
    (∀ block call, setupCall? block = some call ↔ ∃ sql, call = .write sql ∧ sql ≠ [] ∧
      Dictionary.get? block.annotations "sql" = some sql) ∧
    ∀ block call, probeCall? block = some call ↔ ∃ func signature fields sql shape,
      call = .read (("EXPLAIN " : Text) ++ (Placeholder.replaceAll sql).sql) ∧
      Dictionary.get? block.annotations "func" = some func ∧
      Signature.parse func = .ok signature ∧ block.unclosed = false ∧
      Field.parseList ((Dictionary.get? block.annotations "return").getD []) = .ok fields ∧
      sql ≠ [] ∧ Dictionary.get? block.annotations "sql" = some sql ∧
      Shape.infer signature fields = .ok shape := by
  refine ⟨run_logged db types source header s, fun _ _ => setupCall?_eq_some, ?_⟩
  intro block call
  rw [probeCall?_eq_some]
  constructor
  · rintro ⟨plan, planned, rfl⟩
    obtain ⟨closed, ⟨func, known, parsed⟩, listed, ⟨sql, given, query⟩, inferred⟩ :=
      Plan.ofBlock_parts planned
    obtain ⟨ne, given⟩ := Annotations.nonempty?_eq_some.mp given
    refine ⟨func, plan.signature, plan.fields, sql, plan.shape, ?_, known, parsed, closed, listed,
      ne, given, inferred⟩
    rw [probe, query]
    rfl
  · rintro ⟨func, signature, fields, sql, shape, rfl, known, parsed, closed, listed, ne, given,
      inferred⟩
    have given := Annotations.nonempty?_eq_some.mpr ⟨ne, given⟩
    exact ⟨_, Plan.ofBlock_ok known parsed closed listed given inferred, rfl⟩

end Generation
end QueryWeaver
