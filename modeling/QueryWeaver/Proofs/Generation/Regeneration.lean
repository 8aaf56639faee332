import Mathlib
import QueryWeaver.Proofs.Annotation.Resegment
import QueryWeaver.Proofs.Generation.Locality
import QueryWeaver.Proofs.Generation.Plans
import QueryWeaver.Proofs.Header.Declarations
/-!
Regeneration of regenerated segments. What a block plans does not depend on its code, so a database
that answers each call as before leads to the same code and the same interface.
-/

namespace QueryWeaver

variable {σ : Type}

/-- The answer to a call depends on that call only. -/
def Database.Memoryless (db : Database σ) : Prop :=
  ∀ sql s s', (db.read sql s).1 = (db.read sql s').1 ∧ (db.write sql s).1 = (db.write sql s').1

namespace Generation

variable {db : Database σ} {layout : Layout}

theorem Outcome.annotations {checked : Bool} {block block' : Block} {names : List Text}
    {failures : List BlockFailure}
    (outcome : Outcome db layout checked block block' names failures) :
    block'.annotations = block.annotations := by
  cases outcome <;> rfl

theorem regenerateBlock_checked? (db : Database σ) (layout : Layout) (checked : Bool)
    (block : Block) (p : Progress σ) :
    checked? (regenerateBlock db layout checked block p).1 = checked? block := by
  obtain ⟨name, failure, outcome, -⟩ := regenerateBlock_outcome db layout checked block p
  simp only [checked?, outcome.annotations]

section

variable (layout) (memoryless : db.Memoryless)
include memoryless

theorem columns_memoryless (checked : Bool) (plan : Plan) (s s' : σ) :
    (columns db checked plan s).1 = (columns db checked plan s').1 := by
  cases checked with
  | false => rfl
  | true =>
    have answer := (memoryless (Database.explainPrefix ++ plan.query.sql) s s').1
    simp only [columns, Validation.validate, Database.explain, if_true]
    rw [answer]
    generalize (db.read (Database.explainPrefix ++ plan.query.sql) s').1 = result
    cases result <;> rfl

theorem generatePlan_memoryless (checked : Bool) (plan : Plan) {p p' : Progress σ}
    (same : p.interface = p'.interface) :
    (generatePlan db layout checked plan p).1 = (generatePlan db layout checked plan p').1 ∧
      (generatePlan db layout checked plan p).2.interface =
        (generatePlan db layout checked plan p').2.interface := by
  have answer := columns_memoryless memoryless checked plan p.database p'.database
  simp only [generatePlan]
  rcases here : columns db checked plan p.database with ⟨known, s⟩
  rcases there : columns db checked plan p'.database with ⟨known', s'⟩
  rw [here, there] at answer
  obtain rfl : known = known' := answer
  cases known with
  | error e => exact ⟨rfl, same⟩
  | ok known =>
    dsimp only
    rw [same]
    cases (accessOf plan known).generate p'.interface with
    | error e => exact ⟨rfl, rfl⟩
    | ok generated => exact ⟨rfl, rfl⟩

/-- A regenerated block is left as it is, and reported as before. -/
theorem regenerateBlock_again (checked : Bool) (block : Block) {p p' : Progress σ}
    (same : p.interface = p'.interface) :
    ∃ names,
      (regenerateBlock db layout checked (regenerateBlock db layout checked block p).1 p').1 =
        (regenerateBlock db layout checked block p).1 ∧
      (regenerateBlock db layout checked (regenerateBlock db layout checked block p).1
        p').2.interface = (regenerateBlock db layout checked block p).2.interface ∧
      (regenerateBlock db layout checked block p).2.report.generated =
        p.report.generated ++ names ∧
      (regenerateBlock db layout checked (regenerateBlock db layout checked block p).1
        p').2.report.generated = p'.report.generated ++ names := by
  cases planned : Plan.ofBlock block with
  | error e =>
    rw [regenerateBlock_unplanned planned, regenerateBlock_unplanned planned]
    exact ⟨[], rfl, same.symm, (List.append_nil _).symm, (List.append_nil _).symm⟩
  | ok plan =>
    have start : ({ p with report := p.report.attempt } : Progress σ).interface =
        ({ p' with report := p'.report.attempt } : Progress σ).interface := same
    obtain ⟨result, interface⟩ := generatePlan_memoryless layout memoryless checked plan start
    rcases now : generatePlan db layout checked plan { p with report := p.report.attempt } with
      ⟨r, q⟩
    rcases later : generatePlan db layout checked plan { p' with report := p'.report.attempt } with
      ⟨r', q'⟩
    rw [now, later] at result interface
    obtain rfl : r = r' := result
    have report : q.report.generated = p.report.generated := by
      rw [generatePlan_report now]
      rfl
    have report' : q'.report.generated = p'.report.generated := by
      rw [generatePlan_report later]
      rfl
    cases r with
    | error e =>
      rw [regenerateBlock_refused planned now, regenerateBlock_refused planned later]
      exact ⟨[], rfl, interface.symm, report.trans (List.append_nil _).symm,
        report'.trans (List.append_nil _).symm⟩
    | ok code =>
      rw [regenerateBlock_generated planned now,
        regenerateBlock_generated (Plan.ofBlock_code block code ▸ planned) later]
      exact ⟨[plan.function], rfl, interface.symm, congrArg (· ++ [plan.function]) report,
        congrArg (· ++ [plan.function]) report'⟩

theorem regenerate_again (segments : List Segment) {p p' : Progress σ}
    (same : p.interface = p'.interface) :
    ∃ names,
      (regenerate db layout (regenerate db layout segments p).1 p').1 =
        (regenerate db layout segments p).1 ∧
      (regenerate db layout (regenerate db layout segments p).1 p').2.interface =
        (regenerate db layout segments p).2.interface ∧
      (regenerate db layout segments p).2.report.generated = p.report.generated ++ names ∧
      (regenerate db layout (regenerate db layout segments p).1 p').2.report.generated =
        p'.report.generated ++ names := by
  induction segments generalizing p p' with
  | nil => exact ⟨[], rfl, same.symm, (List.append_nil _).symm, (List.append_nil _).symm⟩
  | cons segment r ih =>
    cases segment with
    | plain t =>
      obtain ⟨names, segments, rest⟩ := ih same
      rw [regenerate_plain, regenerate_plain, segments]
      exact ⟨names, rfl, rest⟩
    | annotated block =>
      cases access : checked? block with
      | none =>
        obtain ⟨names, segments, rest⟩ := ih same
        rw [regenerate_unasked access, regenerate_unasked access, segments]
        exact ⟨names, rfl, rest⟩
      | some checked =>
        obtain ⟨name, code, interface, generated, generated'⟩ :=
          regenerateBlock_again layout memoryless checked block same
        obtain ⟨names, segments, interface', rest, rest'⟩ := ih interface.symm
        have access' := (regenerateBlock_checked? db layout checked block p).trans access
        rw [regenerate_asked access, regenerate_asked access']
        dsimp only
        rw [segments, code, rest, rest']
        exact ⟨name ++ names, rfl, interface', by rw [generated, List.append_assoc],
          by rw [generated', List.append_assoc]⟩

end

/-- The plans of the blocks that ask for a function are spelled without quotes, braces, slashes. -/
def PlansSpelled (segments : List Segment) : Prop :=
  ∀ block ∈ askedBlocks segments, ∀ plan, Plan.ofBlock block = .ok plan → plan.Spelled

instance (segments : List Segment) : Decidable (PlansSpelled segments) :=
  decidable_of_iff
    (∀ block ∈ askedBlocks segments, ∀ plan ∈ (Plan.ofBlock block).toOption, plan.Spelled) <| by
    have read (block : Block) (plan : Plan) :
        plan ∈ (Plan.ofBlock block).toOption ↔ Plan.ofBlock block = .ok plan := by
      cases Plan.ofBlock block <;> simp [Except.toOption]
    simp only [PlansSpelled, read]

/-- Regenerated segments differ from the old ones in the code of planned blocks only. -/
theorem Regenerated.updated {ok : Text → Prop} {segments segments' : List Segment}
    {names : List Text} {failures : List BlockFailure}
    (regenerated : Regenerated db layout segments segments' names failures)
    (fits : ∀ block ∈ askedBlocks segments, ∀ plan, Plan.ofBlock block = .ok plan →
      ∀ known records, ok (((accessOf plan known).function records).render layout)) :
    List.Forall₂ (Segment.Updated ok) segments segments' := by
  induction regenerated with
  | nil => exact .nil
  | plain t _ ih => exact .cons (.same _) (ih fits)
  | unasked other _ ih =>
    refine .cons (.same _) (ih fun block member => fits block ?_)
    rw [askedBlocks_annotated, other]
    exact member
  | asked access outcome _ ih =>
    rw [askedBlocks_annotated, access] at fits
    refine .cons ?_ (ih fun block member => fits block (List.mem_cons_of_mem _ member))
    cases outcome with
    | kept => exact .same _
    | replaced planned answered generated =>
      obtain ⟨rfl, -⟩ := Access.generate_function generated
      exact .code (Plan.ofBlock_parts planned).1
        (fits _ (List.mem_cons_self ..) _ planned _ _)

theorem generatePlan_plain (db : Database σ) (layout : Layout) (checked : Bool) {plan : Plan}
    (p : Progress σ)
    (clean : ∀ known, (accessOf plan known).Clean fun _ => True) (spelled : plan.Spelled)
    (plain : p.interface.Plain) : (generatePlan db layout checked plan p).2.interface.Plain := by
  simp only [generatePlan]
  split
  next => exact plain
  next known s answered =>
    split
    next => exact plain
    next f next accepted => exact Access.generate_plain (clean known) spelled.fields plain accepted

theorem regenerateBlock_plain {checked : Bool} {block : Block} {p : Progress σ}
    (spelled : ∀ plan, Plan.ofBlock block = .ok plan → plan.Spelled) (plain : p.interface.Plain) :
    (regenerateBlock db layout checked block p).2.interface.Plain := by
  cases planned : Plan.ofBlock block with
  | error e =>
    rw [regenerateBlock_unplanned planned]
    exact plain
  | ok plan =>
    have clean (known : Option ColumnMap) : (accessOf plan known).Clean fun _ => True :=
      Plan.clean (fun _ _ _ => trivial) planned (spelled plan planned)
        (fun _ _ _ _ => trivial) known
    have next := generatePlan_plain db layout checked { p with report := p.report.attempt } clean
      (spelled plan planned) plain
    rcases result : generatePlan db layout checked plan { p with report := p.report.attempt } with
      ⟨e | code, q⟩
    · rw [result] at next
      rw [regenerateBlock_refused planned result]
      exact next
    · rw [result] at next
      rw [regenerateBlock_generated planned result]
      exact next

theorem regenerate_interface (db : Database σ) (layout : Layout) {segments : List Segment}
    {p : Progress σ}
    (spelled : PlansSpelled segments) (plain : p.interface.Plain) :
    (regenerate db layout segments p).2.interface.Plain := by
  induction segments generalizing p with
  | nil => exact plain
  | cons segment r ih =>
    cases segment with
    | plain t => exact ih spelled plain
    | annotated block =>
      cases access : checked? block with
      | none =>
        rw [regenerate_unasked access]
        refine ih (fun block' member => spelled block' ?_) plain
        rwa [askedBlocks_annotated, access]
      | some checked =>
        rw [PlansSpelled, askedBlocks_annotated, access] at spelled
        rw [regenerate_asked access]
        exact ih (fun block' member => spelled block' (List.mem_cons_of_mem block member))
          (regenerateBlock_plain (spelled block (List.mem_cons_self ..)) plain)

end Generation
end QueryWeaver
