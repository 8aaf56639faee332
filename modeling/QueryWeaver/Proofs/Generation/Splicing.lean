import Mathlib
import QueryWeaver.Proofs.Generation.Idempotence
import QueryWeaver.Proofs.Header.Exactness
/-!
The header of a run: the spliced one, or the one it was given with a file error. The source does not
depend on it.
-/

namespace QueryWeaver

namespace Generation

variable {σ : Type}

theorem regenerateBlock_fileErrors (db : Database σ) (layout : Layout) (checked : Bool)
    (block : Block) (p : Progress σ) :
    (regenerateBlock db layout checked block p).2.report.fileErrors = p.report.fileErrors := by
  cases planned : Plan.ofBlock block with
  | error e =>
    rw [regenerateBlock_unplanned planned]
    rfl
  | ok plan =>
    rcases result : generatePlan db layout checked plan { p with report := p.report.attempt } with
      ⟨outcome, q⟩
    have report := generatePlan_report result
    cases outcome with
    | error e =>
      rw [regenerateBlock_refused planned result, report]
      rfl
    | ok code =>
      rw [regenerateBlock_generated planned result, report]
      rfl

/-- Only a splice makes a file error. -/
theorem regenerate_fileErrors (db : Database σ) (layout : Layout) (segments : List Segment)
    (p : Progress σ) :
    (regenerate db layout segments p).2.report.fileErrors = p.report.fileErrors := by
  induction segments generalizing p with
  | nil => rfl
  | cons segment r ih =>
    cases segment with
    | plain t => exact ih p
    | annotated block =>
      cases access : checked? block with
      | none =>
        rw [regenerate_unasked access]
        exact ih p
      | some checked =>
        rw [regenerate_asked access]
        exact (ih _).trans (regenerateBlock_fileErrors db layout checked block p)

/-- The regions that a run over a source has for its header. -/
def regionsOf (db : Database σ) (types : Collaborators) (source : Text) (s : σ) : Regions :=
  let segments := Segment.ofSource source
  let layout := (resolveLayout types source segments).1
  .ofInterface layout (regenerate db layout segments (prepared db types source s)).2.interface

/-- A run writes the spliced header, or keeps the header it has and says why. -/
theorem run_header (db : Database σ) (types : Collaborators) (source header : Text) (s : σ) :
    let ran := (run db types source header s).1
    (∀ spliced, Header.splice (regionsOf db types source s) header = .ok spliced →
      ran.header = spliced ∧ ran.report.fileErrors = []) ∧
    ∀ e, Header.splice (regionsOf db types source s) header = .error e →
      ran.header = header ∧ ran.report.fileErrors = [e.message] := by
  intro ran
  obtain ⟨_, _, -, -, report⟩ := prepared_start db types source s
  have clear (layout : Layout) (segments : List Segment) :
      (regenerate db layout segments (prepared db types source s)).2.report.fileErrors = [] := by
    rw [regenerate_fileErrors, report]
  constructor
  · intro spliced done
    unfold regionsOf at done
    simp only [ran, run_eq rfl rfl, spliceHeader, done]
    exact ⟨trivial, clear _ _⟩
  · intro e failed
    unfold regionsOf at failed
    simp only [ran, run_eq rfl rfl, spliceHeader, failed, Report.failFile, clear]
    exact ⟨trivial, rfl⟩

/-- What a run makes of its source does not depend on the header. -/
theorem run_source (db : Database σ) (types : Collaborators) (source header header' : Text)
    (s : σ) :
    let ran := run db types source header s
    let other := run db types source header' s
    ran.1.source = other.1.source ∧ ran.2 = other.2 ∧
      ran.1.report = { other.1.report with fileErrors := ran.1.report.fileErrors } := by
  refine ⟨rfl, rfl, ?_⟩
  simp only [run_eq rfl rfl, spliceHeader]
  split <;> split <;> rfl

open Header Marker in
/-- Where the two regions of a header stand apart, a splice changes what stands in them and nothing
else. It fails for a missing region and for nothing else; a run keeps the header then, has one file
error, and does to its source what it does with any header. -/
theorem splice_exact :
    (∀ layout records declarations members,
      let recorded := Interface.recordText layout records
      let gap := if recorded = [] then [] else layout.newline ++ layout.newline
      let newFunctions := layout.newline ++ recorded ++ gap ++ declarations ++ layout.indent
      let newVariables := layout.newline ++ members ++ layout.indent
      let regions := Regions.compose layout recorded declarations members
      ∀ a x b y c, ¬functionsBegin.text <:+: a → ¬variablesBegin.text <:+: a →
        ¬functionsEnd.text <:+: x → ¬variablesEnd.text <:+: y →
        (¬variablesBegin.text <:+: b → ¬variablesBegin.text <:+: newFunctions →
          splice regions (regioned functionsBegin functionsEnd a x
              (regioned variablesBegin variablesEnd b y c)) =
            .ok (regioned functionsBegin functionsEnd a newFunctions
              (regioned variablesBegin variablesEnd b newVariables c))) ∧
        (¬functionsBegin.text <:+: b → ¬functionsBegin.text <:+: y →
          splice regions (regioned variablesBegin variablesEnd a y
              (regioned functionsBegin functionsEnd b x c)) =
            .ok (regioned variablesBegin variablesEnd a newVariables
              (regioned functionsBegin functionsEnd b newFunctions c)))) ∧
    (∀ regions header e, splice regions header = .error e ↔
      Lacks functionsBegin functionsEnd header ∧ e = .missingMarkers functionsBegin functionsEnd ∨
      ∃ a x b, Region functionsBegin functionsEnd header a x b ∧
        Lacks variablesBegin variablesEnd
          (regioned functionsBegin functionsEnd a regions.functions b) ∧
        e = .missingMarkers variablesBegin variablesEnd) ∧
    ∀ (σ : Type) (db : Database σ) types source header s,
      let regions := regionsOf db types source s
      let ran := run db types source header s
      (∀ spliced, splice regions header = .ok spliced →
        ran.1.header = spliced ∧ ran.1.report.fileErrors = []) ∧
      (∀ e, splice regions header = .error e →
        ran.1.header = header ∧ ran.1.report.fileErrors = [e.message]) ∧
      ∀ header',
        let other := run db types source header' s
        ran.1.source = other.1.source ∧ ran.2 = other.2 ∧
          ran.1.report = { other.1.report with fileErrors := ran.1.report.fileErrors } := by
  refine ⟨?_, fun _ _ _ => splice_eq_error, ?_⟩
  · intro layout records declarations members recorded gap newFunctions newVariables regions
      a x b y c start start' inside inside'
    have composed : regions = ⟨newFunctions, newVariables⟩ := by
      simp [regions, newFunctions, newVariables, gap, Regions.compose]
    rw [composed]
    constructor
    · intro between clear
      exact splice_functions_first c start start' inside clear between inside'
    · intro between clear
      exact splice_variables_first c start start' clear inside' between inside
  · intro σ db types source header s regions
    obtain ⟨done, failed⟩ := run_header db types source header s
    exact ⟨done, failed, fun header' => run_source db types source header header' s⟩

open Header Marker in
/-- The regions of a class in both orders, with another opening marker behind them, and a header
without regions. -/
theorem sample_spliced :
    let regions := Regions.compose .standard (Interface.recordText .standard .empty) "int f();\r\n"
      "int f_;\r\n"
    splice regions (regioned functionsBegin functionsEnd "class A \x7b" "int g();"
        (regioned variablesBegin variablesEnd "private:" "int g_;"
          "\x7d; //@-SQLGenFunctionsBegin")) =
      .ok (regioned functionsBegin functionsEnd "class A \x7b" "\r\nint f();\r\n\t"
        (regioned variablesBegin variablesEnd "private:" "\r\nint f_;\r\n\t"
          "\x7d; //@-SQLGenFunctionsBegin")) ∧
    splice regions (regioned variablesBegin variablesEnd "class A \x7b" "int g_;"
        (regioned functionsBegin functionsEnd "private:" "int g();"
          "\x7d; //@-SQLGenVariablesBegin")) =
      .ok (regioned variablesBegin variablesEnd "class A \x7b" "\r\nint f_;\r\n\t"
        (regioned functionsBegin functionsEnd "private:" "\r\nint f();\r\n\t"
          "\x7d; //@-SQLGenVariablesBegin")) ∧
    (run silentDatabase .standard [] "class A;" ()).1.header = "class A;" := by
  intro regions
  obtain ⟨replaced, refused, kept⟩ := splice_exact
  refine ⟨?_, ?_, ?_⟩
  · have apart := replaced .standard .empty "int f();\r\n" "int f_;\r\n" "class A \x7b" "int g();"
      "private:" "int g_;" "\x7d; //@-SQLGenFunctionsBegin" (by decide) (by decide) (by decide)
      (by decide)
    exact apart.1 (by decide) (by decide)
  · have apart := replaced .standard .empty "int f();\r\n" "int f_;\r\n" "class A \x7b" "int g();"
      "private:" "int g_;" "\x7d; //@-SQLGenVariablesBegin" (by decide) (by decide) (by decide)
      (by decide)
    exact apart.2 (by decide) (by decide)
  · have lacks : Lacks functionsBegin functionsEnd "class A;" := .inl (by decide)
    have failed := (refused (regionsOf silentDatabase .standard [] ()) "class A;" _).mpr
      (.inl ⟨lacks, rfl⟩)
    exact ((kept Unit silentDatabase .standard [] "class A;" ()).2.1 _ failed).1

end Generation
end QueryWeaver
