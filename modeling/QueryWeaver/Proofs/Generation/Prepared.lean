import Mathlib
import QueryWeaver.Proofs.Access.Emission
import QueryWeaver.Proofs.Generation.Calls
import QueryWeaver.Proofs.Source.StringLiteral
/-!
What was validated is what runs: the code of a block prepares one statement, in a literal that
spells the text which the probe of that block had explained.
-/

namespace QueryWeaver

namespace BodyStep

def statement? : BodyStep → Option Text
  | prepare sql => some sql
  | _ => none

theorem statement?_other {step : BodyStep} (other : ¬step.Prepares) : step.statement? = none := by
  cases step with
  | prepare => exact absurd trivial other
  | _ => rfl

/-- The line that prepares a statement, with a literal in it. -/
def prepareLine (layout : Layout) (member literal : Text) : Text :=
  layout.line 2 (member ++ "=db.prepare(" ++ literal ++ ");")

theorem prepareLine_infix (layout : Layout) (member sql : Text) :
    prepareLine layout member ('"' :: (escapeLiteral sql ++ ['"'])) <:+:
      (prepare sql).render layout member := by
  have line : prepareLine layout member ('"' :: (escapeLiteral sql ++ ['"'])) =
      layout.line 2 (member ++ "=db.prepare(\"" ++ escapeLiteral sql ++ "\");") := by
    have opening : ("=db.prepare(\"" : Text) = "=db.prepare(" ++ ['"'] := by decide
    have closing : ("\");" : Text) = ['"'] ++ ");" := by decide
    simp only [prepareLine, opening, closing, List.append_assoc, List.cons_append, List.nil_append]
  rw [line]
  exact ⟨_, _, rfl⟩

end BodyStep

namespace GeneratedFunction

/-- The statements that a call of the function may prepare. -/
def statements (f : GeneratedFunction) : List Text := f.body.filterMap BodyStep.statement?

/-- The function prepares that statement and no other, and its text spells it in a literal. -/
structure PreparesOnly (f : GeneratedFunction) (layout : Layout) (sql : Text) : Prop where
  only : f.statements = [sql]
  written : ∃ literal, StringLiteral.Spells literal sql ∧
    BodyStep.prepareLine layout f.member literal <:+: f.render layout

end GeneratedFunction

namespace Access

theorem statements_function (a : Access) (records : Registry) :
    (a.function records).statements = [a.query.sql] := by
  obtain ⟨rest, body, others⟩ := a.body_function records
  have none : rest.filterMap BodyStep.statement? = [] := by
    rw [List.filterMap_eq_nil_iff]
    intro step member
    exact BodyStep.statement?_other (others step member)
  rw [GeneratedFunction.statements, body, List.filterMap_cons, none]
  rfl

theorem generate_prepares {a : Access} {i next : Interface} {f : GeneratedFunction}
    (generated : a.generate i = .ok (f, next)) (layout : Layout) :
    f.PreparesOnly layout a.query.sql := by
  obtain ⟨function, -, -, -⟩ := generate_function generated
  have first : .prepare a.query.sql ∈ f.body := by
    rw [function]
    exact List.mem_cons_self ..
  have only : f.statements = [a.query.sql] := by
    rw [function]
    exact a.statements_function _
  exact ⟨only, _, StringLiteral.spells_escapeLiteral _,
    (BodyStep.prepareLine_infix layout f.member a.query.sql).trans
      (GeneratedFunction.step_infix first layout)⟩

end Access

namespace Generation

variable {σ : Type}

/-- The code left in place of a block prepares the statement of the block's probe. -/
theorem Outcome.prepares {db : Database σ} {layout : Layout} {checked : Bool}
    {block block' : Block} {name : List Text} {failure : List BlockFailure}
    (outcome : Outcome db layout checked block block' name failure) (replaced : name ≠ []) :
    ∃ (sql : Text) (f : GeneratedFunction),
      probeCall? block = some (.read (("EXPLAIN " : Text) ++ sql)) ∧
      block' = { block with code := f.render layout } ∧ f.PreparesOnly layout sql := by
  cases outcome with
  | kept => exact absurd rfl replaced
  | @replaced plan s known i next f planned answered generated =>
    exact ⟨plan.query.sql, f, probeCall?_eq_some.mpr ⟨plan, planned, rfl⟩, rfl,
      Access.generate_prepares generated layout⟩

/-- Generated code prepares its statement and no other, in a literal that reads as the statement.
In a run the statement of each replaced block is the one that its probe puts behind the prefix. -/
theorem run_prepares (db : Database σ) (types : Collaborators) (source header : Text) (s : σ) :
    (∀ (a : Access) i f next layout, a.generate i = .ok (f, next) →
      f.PreparesOnly layout a.query.sql) ∧
    let before := Segment.ofSource source
    let layout := (resolveLayout types source before).1
    let ran := run db.logged types source header (s, [])
    ran.2.2 = (blocksFor .tempSetup before).filterMap setupCall? ++
      (blocksFor .access before).filterMap probeCall? ∧
    ∃ after failures, ran.1.source = Segment.render after ∧
      Regenerated db layout before after ran.1.report.generated failures ∧
      ∀ checked block block' name failure,
        Outcome db layout checked block block' name failure → name ≠ [] →
        ∃ (sql : Text) (f : GeneratedFunction),
          probeCall? block = some (.read (("EXPLAIN " : Text) ++ sql)) ∧
          block' = { block with code := f.render layout } ∧ f.PreparesOnly layout sql := by
  refine ⟨fun _ _ _ _ layout generated => Access.generate_prepares generated layout, ?_⟩
  intro before layout ran
  obtain ⟨_, _, -, -, report⟩ := prepared_start db types source s
  obtain ⟨names, failures, regenerated, generated, -, -⟩ :=
    regenerate_regenerated db layout before (prepared db types source s)
  have logged : ran = ((run db types source header s).1, (run db types source header s).2,
      (blocksFor .tempSetup before).filterMap setupCall? ++ probes before) :=
    run_logged db types source header s
  have reported : (run db types source header s).1.report.generated = names := by
    simp only [run_eq rfl rfl, spliceHeader_report]
    exact generated.trans (by rw [report, List.nil_append])
  rw [logged]
  refine ⟨rfl, _, failures, rfl, ?_, ?_⟩
  · rw [reported]
    exact regenerated
  · intro checked block block' name failure outcome replaced
    exact outcome.prepares replaced

end Generation
end QueryWeaver
