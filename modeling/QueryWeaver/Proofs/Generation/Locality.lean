import Mathlib
import QueryWeaver.Generation.Run
import QueryWeaver.Proofs.Source.Tokens
/-!
What a run leaves of the source and what it reports. Every block that asks for a function is either
replaced and reported as generated, or kept and reported as failed; all other text stays.
-/

namespace QueryWeaver

namespace Generation

variable {σ : Type}

/-- The reasons for which a block that asks for a function keeps its code. -/
inductive Fault (db : Database σ) (checked : Bool) (block : Block) : Error → Prop
  | unplanned {e : Error} (refused : Plan.ofBlock block = .error e) : Fault db checked block e
  | unanswered {plan : Plan} {s : σ} {e : Error} (planned : Plan.ofBlock block = .ok plan)
      (refused : (columns db checked plan s).1 = .error e) : Fault db checked block e
  | conflicting {plan : Plan} {s : σ} {known : Option ColumnMap} {i : Interface} {e : Error}
      (planned : Plan.ofBlock block = .ok plan)
      (answered : (columns db checked plan s).1 = .ok known)
      (refused : (accessOf plan known).generate i = .error e) : Fault db checked block e

/-- What becomes of a block that asks for a function: the block left in its place, the names
reported as generated and the failures. -/
inductive Outcome (db : Database σ) (layout : Layout) (checked : Bool) (block : Block) :
    Block → List Text → List BlockFailure → Prop
  | replaced {plan : Plan} {s : σ} {known : Option ColumnMap} {i next : Interface}
      {f : GeneratedFunction} (planned : Plan.ofBlock block = .ok plan)
      (answered : (columns db checked plan s).1 = .ok known)
      (generated : (accessOf plan known).generate i = .ok (f, next)) :
      Outcome db layout checked block { block with code := f.render layout } [plan.function] []
  | kept {e : Error} (fault : Fault db checked block e) :
      Outcome db layout checked block block [] [⟨functionName block, e.message⟩]

/-- Segments before and after regeneration, with the reports of their blocks in file order. -/
inductive Regenerated (db : Database σ) (layout : Layout) :
    List Segment → List Segment → List Text → List BlockFailure → Prop
  | nil : Regenerated db layout [] [] [] []
  | plain (t : Text) {r r' : List Segment} {names : List Text} {failures : List BlockFailure}
      (rest : Regenerated db layout r r' names failures) :
      Regenerated db layout (.plain t :: r) (.plain t :: r') names failures
  | unasked {block : Block} {r r' : List Segment} {names : List Text}
      {failures : List BlockFailure} (other : checked? block = none)
      (rest : Regenerated db layout r r' names failures) :
      Regenerated db layout (.annotated block :: r) (.annotated block :: r') names failures
  | asked {block block' : Block} {checked : Bool} {r r' : List Segment} {name names : List Text}
      {failure failures : List BlockFailure} (access : checked? block = some checked)
      (outcome : Outcome db layout checked block block' name failure)
      (rest : Regenerated db layout r r' names failures) :
      Regenerated db layout (.annotated block :: r) (.annotated block' :: r') (name ++ names)
        (failure ++ failures)

/-- The setup blocks executed in file order, whether or not an earlier one failed, with the failures
among them. -/
inductive SetUp (db : Database σ) : List Block → σ → List BlockFailure → σ → Prop
  | nil (s : σ) : SetUp db [] s [] s
  | executed {block : Block} {r : List Block} {sql : Text} {s s₁ s₂ : σ}
      {failures : List BlockFailure} (known : block.annotations.nonempty? "sql" = some sql)
      (done : db.write sql s = (.ok (), s₁)) (rest : SetUp db r s₁ failures s₂) :
      SetUp db (block :: r) s failures s₂
  | rejected {block : Block} {r : List Block} {sql : Text} {s s₁ s₂ : σ} {e : Error}
      {failures : List BlockFailure} (known : block.annotations.nonempty? "sql" = some sql)
      (refused : db.write sql s = (.error e, s₁)) (rest : SetUp db r s₁ failures s₂) :
      SetUp db (block :: r) s (⟨Directive.tempSetup.key, e.message⟩ :: failures) s₂
  | missing {block : Block} {r : List Block} {s s₂ : σ} {failures : List BlockFailure}
      (unknown : block.annotations.nonempty? "sql" = none) (rest : SetUp db r s failures s₂) :
      SetUp db (block :: r) s (⟨Directive.tempSetup.key,
        (Error.invalidBlock Directive.tempSetup.key Plan.missingSql).message⟩ :: failures) s₂

/-- The blocks that ask for a function. -/
def askedBlocks (segments : List Segment) : List Block :=
  (segments.filterMap Segment.block?).filter fun b => (checked? b).isSome

theorem askedBlocks_plain (t : Text) (r : List Segment) :
    askedBlocks (.plain t :: r) = askedBlocks r := rfl

theorem askedBlocks_annotated (block : Block) (r : List Segment) :
    askedBlocks (.annotated block :: r) =
      if (checked? block).isSome then block :: askedBlocks r else askedBlocks r := by
  simp only [askedBlocks, List.filterMap_cons, Segment.block?, List.filter_cons]

theorem regenerate_plain (db : Database σ) (layout : Layout) (t : Text) (r : List Segment)
    (p : Progress σ) :
    regenerate db layout (.plain t :: r) p =
      (.plain t :: (regenerate db layout r p).1, (regenerate db layout r p).2) := rfl

theorem regenerate_unasked {db : Database σ} {layout : Layout} {block : Block}
    (other : checked? block = none) (r : List Segment) (p : Progress σ) :
    regenerate db layout (.annotated block :: r) p =
      (.annotated block :: (regenerate db layout r p).1, (regenerate db layout r p).2) := by
  simp only [regenerate, regenerateSegment, other]

theorem regenerate_asked {db : Database σ} {layout : Layout} {block : Block} {checked : Bool}
    (access : checked? block = some checked) (r : List Segment) (p : Progress σ) :
    regenerate db layout (.annotated block :: r) p =
      let step := regenerateBlock db layout checked block p
      (.annotated step.1 :: (regenerate db layout r step.2).1,
        (regenerate db layout r step.2).2) := by
  simp only [regenerate, regenerateSegment, access]

theorem generatePlan_report {db : Database σ} {layout : Layout} {checked : Bool} {plan : Plan}
    {p q : Progress σ} {result : Except Error Text}
    (finished : generatePlan db layout checked plan p = (result, q)) :
    q.report = p.report.warn plan.warnings := by
  simp only [generatePlan] at finished
  split at finished
  next =>
    cases finished
    rfl
  next =>
    split at finished
    all_goals
      cases finished
      rfl

theorem generatePlan_ok {db : Database σ} {layout : Layout} {checked : Bool} {plan : Plan}
    {p p' : Progress σ} {code : Text}
    (generated : generatePlan db layout checked plan p = (.ok code, p')) :
    ∃ known f, columns db checked plan p.database = (.ok known, p'.database) ∧
      (accessOf plan known).generate p.interface = .ok (f, p'.interface) ∧
      code = f.render layout := by
  simp only [generatePlan] at generated
  split at generated
  next => cases generated
  next known s answered =>
    split at generated
    next => cases generated
    next f next accepted =>
      cases generated
      exact ⟨known, f, answered, accepted, rfl⟩

theorem generatePlan_error {db : Database σ} {layout : Layout} {checked : Bool} {plan : Plan}
    {p p' : Progress σ} {e : Error} {block : Block} (planned : Plan.ofBlock block = .ok plan)
    (refused : generatePlan db layout checked plan p = (.error e, p')) :
    Fault db checked block e := by
  simp only [generatePlan] at refused
  split at refused
  next e' s unanswered =>
    cases refused
    exact .unanswered planned (congrArg Prod.fst unanswered)
  next known s answered =>
    split at refused
    next e' conflict =>
      cases refused
      exact .conflicting planned (congrArg Prod.fst answered) conflict
    next => cases refused

section

variable {db : Database σ} {layout : Layout} {checked : Bool} {block : Block} {plan : Plan}
  {p q : Progress σ} {e : Error} {code : Text}

theorem regenerateBlock_unplanned (unplanned : Plan.ofBlock block = .error e) :
    regenerateBlock db layout checked block p =
      (block, { p with report := p.report.attempt.fail (functionName block) e.message }) := by
  simp only [regenerateBlock, unplanned]

theorem regenerateBlock_refused (planned : Plan.ofBlock block = .ok plan)
    (refused : generatePlan db layout checked plan { p with report := p.report.attempt } =
      (.error e, q)) :
    regenerateBlock db layout checked block p =
      (block, { q with report := q.report.fail (functionName block) e.message }) := by
  simp only [regenerateBlock, planned, refused]

theorem regenerateBlock_generated (planned : Plan.ofBlock block = .ok plan)
    (generated : generatePlan db layout checked plan { p with report := p.report.attempt } =
      (.ok code, q)) :
    regenerateBlock db layout checked block p =
      ({ block with code := code }, { q with report := q.report.generate plan.function }) := by
  simp only [regenerateBlock, planned, generated]

end

/-- One block adds one attempt and one entry, to the generated functions or to the failures. -/
theorem regenerateBlock_outcome (db : Database σ) (layout : Layout) (checked : Bool)
    (block : Block) (p : Progress σ) :
    ∃ name failure,
      Outcome db layout checked block (regenerateBlock db layout checked block p).1 name failure ∧
      (regenerateBlock db layout checked block p).2.report.generated = p.report.generated ++ name ∧
      (regenerateBlock db layout checked block p).2.report.failures =
        p.report.failures ++ failure ∧
      (regenerateBlock db layout checked block p).2.report.attempted = p.report.attempted + 1 := by
  cases planned : Plan.ofBlock block with
  | error e =>
    rw [regenerateBlock_unplanned planned]
    exact ⟨[], [⟨functionName block, e.message⟩], .kept (.unplanned planned),
      (List.append_nil _).symm, rfl, rfl⟩
  | ok plan =>
    rcases result : generatePlan db layout checked plan { p with report := p.report.attempt } with
      ⟨e | code, q⟩
    · have report : q.report = p.report.attempt.warn plan.warnings := generatePlan_report result
      rw [regenerateBlock_refused planned result]
      refine ⟨[], [⟨functionName block, e.message⟩], .kept (generatePlan_error planned result), ?_⟩
      simp [report, Report.fail, Report.warn, Report.attempt]
    · have report : q.report = p.report.attempt.warn plan.warnings := generatePlan_report result
      rw [regenerateBlock_generated planned result]
      obtain ⟨known, f, answered, accepted, rfl⟩ := generatePlan_ok result
      refine ⟨[plan.function], [],
        .replaced planned (congrArg Prod.fst answered) accepted, ?_⟩
      simp [report, Report.generate, Report.warn, Report.attempt]

theorem regenerate_regenerated (db : Database σ) (layout : Layout) (segments : List Segment)
    (p : Progress σ) :
    ∃ names failures,
      Regenerated db layout segments (regenerate db layout segments p).1 names failures ∧
      (regenerate db layout segments p).2.report.generated = p.report.generated ++ names ∧
      (regenerate db layout segments p).2.report.failures = p.report.failures ++ failures ∧
      (regenerate db layout segments p).2.report.attempted =
        p.report.attempted + (askedBlocks segments).length := by
  induction segments generalizing p with
  | nil => exact ⟨[], [], .nil, by simp [regenerate, askedBlocks]⟩
  | cons segment r ih =>
    cases segment with
    | plain t =>
      obtain ⟨names, failures, rest, counts⟩ := ih p
      exact ⟨names, failures, .plain t rest, counts⟩
    | annotated block =>
      cases access : checked? block with
      | none =>
        obtain ⟨names, failures, rest, counts⟩ := ih p
        rw [regenerate_unasked access, askedBlocks_annotated, access]
        exact ⟨names, failures, rest.unasked access, counts⟩
      | some checked =>
        obtain ⟨name, failure, outcome, generated, failed, attempted⟩ :=
          regenerateBlock_outcome db layout checked block p
        obtain ⟨names, failures, rest, generated', failed', attempted'⟩ :=
          ih (regenerateBlock db layout checked block p).2
        rw [regenerate_asked access, askedBlocks_annotated, access]
        refine ⟨name ++ names, failure ++ failures, rest.asked access outcome, ?_, ?_, ?_⟩
        · rw [generated', generated, List.append_assoc]
        · rw [failed', failed, List.append_assoc]
        · rw [attempted', attempted]
          simp only [Option.isSome_some, if_true, List.length_cons]
          omega

theorem Regenerated.count {db : Database σ} {layout : Layout} {segments segments' : List Segment}
    {names : List Text} {failures : List BlockFailure}
    (regenerated : Regenerated db layout segments segments' names failures) :
    (askedBlocks segments).length = names.length + failures.length := by
  induction regenerated with
  | nil => rfl
  | plain t _ ih => rwa [askedBlocks_plain]
  | unasked other _ ih => simpa [askedBlocks_annotated, other] using ih
  | @asked block block' checked r r' name names failure failures access outcome _ ih =>
    have one : name.length + failure.length = 1 := by
      cases outcome <;> rfl
    simp only [askedBlocks_annotated, access, Option.isSome_some, if_true, List.length_cons,
      List.length_append]
    omega

theorem setup_setUp (db : Database σ) (segments : List Segment) (p : Progress σ) :
    ∃ failures,
      SetUp db (blocksFor .tempSetup segments) p.database failures
        (setup db segments p).database ∧
      (setup db segments p).interface = p.interface ∧
      (setup db segments p).report =
        { p.report with failures := p.report.failures ++ failures } := by
  unfold setup
  induction blocksFor .tempSetup segments generalizing p with
  | nil => exact ⟨[], .nil p.database, rfl, by simp⟩
  | cons block r ih =>
    rw [List.foldl_cons]
    cases known : block.annotations.nonempty? "sql" with
    | none =>
      have step : setupBlock db block p =
          { p with
            report := p.report.fail Directive.tempSetup.key
              (Error.invalidBlock Directive.tempSetup.key Plan.missingSql).message } := by
        simp only [setupBlock, known]
      obtain ⟨failures, rest, interface, report⟩ := ih (setupBlock db block p)
      rw [step] at rest interface report ⊢
      exact ⟨_, .missing known rest, interface, report.trans (by simp [Report.fail])⟩
    | some sql =>
      obtain ⟨failures, rest, interface, report⟩ := ih (setupBlock db block p)
      rcases called : db.write sql p.database with ⟨result, s⟩
      cases result with
      | ok =>
        have step : setupBlock db block p = { p with database := s } := by
          simp only [setupBlock, known, called]
        rw [step] at rest interface report ⊢
        exact ⟨failures, .executed known called rest, interface, report⟩
      | error e =>
        have step : setupBlock db block p =
            { p with
              database := s
              report := p.report.fail Directive.tempSetup.key e.message } := by
          simp only [setupBlock, known, called]
        rw [step] at rest interface report ⊢
        exact ⟨_, .rejected known called rest, interface, report.trans (by simp [Report.fail])⟩

theorem spliceHeader_report (layout : Layout) (i : Interface) (header : Text) (r : Report) :
    (spliceHeader layout i header r).2.generated = r.generated ∧
      (spliceHeader layout i header r).2.failures = r.failures ∧
      (spliceHeader layout i header r).2.attempted = r.attempted := by
  unfold spliceHeader
  split <;> exact ⟨rfl, rfl, rfl⟩

/-- The state in which regeneration starts. -/
def prepared (db : Database σ) (types : Collaborators) (source : Text) (s : σ) : Progress σ :=
  let p := setup db (Segment.ofSource source) ⟨s, .empty, .empty⟩
  { p with report := p.report.warn (resolveLayout types source (Segment.ofSource source)).2 }

theorem prepared_start (db : Database σ) (types : Collaborators) (source : Text) (s : σ) :
    ∃ failures warnings,
      SetUp db (blocksFor .tempSetup (Segment.ofSource source)) s failures
        (prepared db types source s).database ∧
      (prepared db types source s).interface = .empty ∧
      (prepared db types source s).report = ⟨[], 0, failures, [], warnings⟩ := by
  obtain ⟨failures, setUp, interface, report⟩ :=
    setup_setUp db (Segment.ofSource source) ⟨s, .empty, .empty⟩
  refine ⟨failures, (resolveLayout types source (Segment.ofSource source)).2, setUp, interface, ?_⟩
  simp only [prepared, report]
  rfl

theorem run_eq {types : Collaborators} {source : Text} {segments : List Segment} {layout : Layout}
    (cut : Segment.ofSource source = segments)
    (resolved : (resolveLayout types source segments).1 = layout) (db : Database σ)
    (header : Text) (s : σ) :
    (run db types source header s).1 =
      let last := regenerate db layout segments (prepared db types source s)
      let spliced := spliceHeader layout last.2.interface header last.2.report
      ⟨Segment.render last.1, spliced.1, spliced.2⟩ := by
  subst cut resolved
  rfl

/-- The output source is the segments of the input with the code of some blocks replaced, and the
report says of every block which ones. -/
theorem run_local (db : Database σ) (types : Collaborators) (source header : Text) (s : σ) :
    ∃ (segments : List Segment) (setupFailures failures : List BlockFailure) (s₁ : σ),
      Segment.render (Segment.ofSource source) = source ∧
      (run db types source header s).1.source = Segment.render segments ∧
      SetUp db (blocksFor .tempSetup (Segment.ofSource source)) s setupFailures s₁ ∧
      Regenerated db (resolveLayout types source (Segment.ofSource source)).1
        (Segment.ofSource source) segments (run db types source header s).1.report.generated
        failures ∧
      (run db types source header s).1.report.failures = setupFailures ++ failures ∧
      (run db types source header s).1.report.attempted =
        (askedBlocks (Segment.ofSource source)).length ∧
      (run db types source header s).1.report.attempted + setupFailures.length =
        (run db types source header s).1.report.generated.length +
          (run db types source header s).1.report.failures.length := by
  obtain ⟨setupFailures, warnings, setUp, -, report⟩ := prepared_start db types source s
  obtain ⟨names, failures, regenerated, generated, failed, attempted⟩ :=
    regenerate_regenerated db (resolveLayout types source (Segment.ofSource source)).1
      (Segment.ofSource source) (prepared db types source s)
  rw [report] at generated failed attempted
  have kept := spliceHeader_report (resolveLayout types source (Segment.ofSource source)).1
  have count := regenerated.count
  refine ⟨_, setupFailures, failures, _, Segment.render_ofSource source, rfl, setUp, ?_⟩
  simp only [run_eq rfl rfl, kept, generated, failed, attempted, List.nil_append,
    List.length_append]
  exact ⟨regenerated, trivial, by omega, by omega⟩

end Generation
end QueryWeaver
