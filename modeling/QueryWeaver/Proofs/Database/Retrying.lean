import Mathlib
import QueryWeaver.Database.Retry
/-!
The course of a command on an engine, exchange by exchange. A transient failure is followed by a
longer busy timeout and the next attempt, as long as one is left; any other outcome is the last and
decides the result.
-/

namespace QueryWeaver

/-- A command that an engine was given, with its outcome. -/
structure Exchange where
  command : Command
  outcome : Except EngineFailure (List Row)

namespace EngineFailure

variable {f : EngineFailure}

/-- The failure has a result code with that low byte. -/
def HasLowByte (f : EngineFailure) (byte : Int) : Prop :=
  ∃ code, f.code = some code ∧ code % 256 = byte

theorem isTransient_iff :
    f.isTransient = true ↔ f.HasLowByte 5 ∨ f.HasLowByte 6 ∨ f.HasLowByte 15 := by
  cases known : f.code <;> simp [isTransient, primary?, HasLowByte, known, or_assoc]

theorem isCompileFailure_iff : f.isCompileFailure = true ↔ f.HasLowByte 1 := by
  cases known : f.code <;> simp [isCompileFailure, primary?, HasLowByte, known]

end EngineFailure

namespace Engine

variable {σ : Type} {engine : Engine σ} {command : Command} {s next : σ}

/-- The same engine with the exchanges made so far beside its state. -/
def logged (engine : Engine σ) : Engine (σ × List Exchange) where
  connect path ms s :=
    let (result, next) := engine.connect path ms s.1
    (result, next, s.2)
  execute command s :=
    let (outcome, next) := engine.execute command s.1
    (outcome, next, s.2 ++ [⟨command, outcome⟩])

/-- No command that sets the busy timeout fails. -/
def SetsTimeouts (engine : Engine σ) : Prop :=
  ∀ ms s, ∃ rows, (engine.execute (.setBusyTimeout ms) s).1 = .ok rows

theorem execute_logged {outcome : Except EngineFailure (List Row)}
    (executed : engine.execute command s = (outcome, next)) (log : List Exchange) :
    engine.logged.execute command (s, log) = (outcome, next, log ++ [⟨command, outcome⟩]) := by
  simp only [logged, executed]

theorem SetsTimeouts.executed (sets : engine.SetsTimeouts) (ms : Nat) (s : σ) :
    ∃ rows next, engine.execute (.setBusyTimeout ms) s = (.ok rows, next) := by
  obtain ⟨rows, answered⟩ := sets ms s
  exact ⟨rows, _, Prod.ext answered rfl⟩

end Engine

namespace Retry

variable {σ : Type} {engine : Engine σ} {command : Command} {base left attempt : Nat} {s next : σ}
  {f : EngineFailure} {rows : List Row} {last : Except EngineFailure (List Row)}
  {failures : List EngineFailure} {exchanges : List Exchange}

theorem setTimeout_ok {ms : Nat}
    (executed : engine.execute (.setBusyTimeout ms) s = (.ok rows, next)) :
    setTimeout engine ms s = (.ok (), next) := by
  simp only [setTimeout, executed]

theorem attemptFrom_ok (executed : engine.execute command s = (.ok rows, next)) :
    attemptFrom engine base command left attempt s = succeed engine base attempt rows next := by
  rw [attemptFrom, executed]

theorem attemptFrom_failed (executed : engine.execute command s = (.error f, next))
    (final : f.isTransient = true → left = 0) :
    attemptFrom engine base command left attempt s =
      (.error (failure command attempt f), next) := by
  rw [attemptFrom, executed]
  cases left with
  | zero => rfl
  | succ left =>
    cases transient : f.isTransient with
    | false => simp [transient]
    | true => cases final transient

theorem attemptFrom_retried (executed : engine.execute command s = (.error f, next))
    (transient : f.isTransient = true) :
    attemptFrom engine base command (left + 1) attempt s =
      attemptFrom engine base command left (attempt + 1)
        (setTimeout engine (timeoutAfter base attempt) next).2 := by
  rw [attemptFrom, executed]
  simp only [transient, if_true]

/-- Induction over the attempts of a command. An outcome ends them, or it is a failure that is
retried with one attempt less. -/
theorem attempts_induction (engine : Engine σ) (command : Command)
    {motive : (left attempt : Nat) → σ → Prop}
    (ended : ∀ left attempt s outcome next, engine.execute command s = (outcome, next) →
      (∀ f, outcome = .error f → f.isTransient = true → left = 0) → motive left attempt s)
    (retried : ∀ left attempt s f next, engine.execute command s = (.error f, next) →
      f.isTransient = true → (∀ later, motive left (attempt + 1) later) →
        motive (left + 1) attempt s)
    (left attempt : Nat) (s : σ) : motive left attempt s := by
  induction left generalizing attempt s with
  | zero => exact ended 0 attempt s _ _ (Prod.eta _).symm fun _ _ _ => rfl
  | succ left ih =>
    cases executed : engine.execute command s with
    | mk outcome next =>
      by_cases again : ∃ f, outcome = .error f ∧ f.isTransient = true
      · obtain ⟨f, rfl, transient⟩ := again
        exact retried left attempt s f next executed transient (ih (attempt + 1))
      · exact ended _ attempt s outcome next executed fun f refused transient =>
          absurd ⟨f, refused, transient⟩ again

/-- The course of a command from attempt number `attempt` on, with `left` more attempts allowed, on
an engine that sets busy timeouts: the failures that were retried, the last outcome, and all
exchanges. -/
inductive Course (base : Nat) (command : Command) : (left attempt : Nat) →
    List EngineFailure → Except EngineFailure (List Row) → List Exchange → Prop where
  | failed {left attempt : Nat} {f : EngineFailure} (final : f.isTransient = true → left = 0) :
    Course base command left attempt [] (.error f) [⟨command, .error f⟩]
  | succeeded {left attempt : Nat} {rows : List Row} (first : attempt ≤ 1) :
    Course base command left attempt [] (.ok rows) [⟨command, .ok rows⟩]
  | restored {left attempt : Nat} {rows : List Row} (answer : List Row) (later : ¬attempt ≤ 1) :
    Course base command left attempt [] (.ok rows)
      [⟨command, .ok rows⟩, ⟨.setBusyTimeout base, .ok answer⟩]
  | retried {left attempt : Nat} {f : EngineFailure} {failures : List EngineFailure}
    {last : Except EngineFailure (List Row)} {exchanges : List Exchange} (answer : List Row)
    (transient : f.isTransient = true)
    (rest : Course base command left (attempt + 1) failures last exchanges) :
    Course base command (left + 1) attempt (f :: failures) last
      (⟨command, .error f⟩ ::
        ⟨.setBusyTimeout (timeoutAfter base attempt), .ok answer⟩ :: exchanges)

/-- The result of a command whose last outcome came from attempt number `attempt`. -/
def conclude (command : Command) (attempt : Nat) (last : Except EngineFailure (List Row)) :
    Except Error (List Row) :=
  last.mapError (failure command attempt)

/-- An outcome that ends the execution, whatever follows it. -/
theorem attemptFrom_ended (sets : engine.SetsTimeouts)
    (executed : engine.execute command s = (last, next))
    (final : ∀ f, last = .error f → f.isTransient = true → left = 0) (log : List Exchange) :
    ∃ finish exchanges, Course base command left attempt [] last exchanges ∧
      attemptFrom engine base command left attempt s = (conclude command attempt last, finish) ∧
      attemptFrom engine.logged base command left attempt (s, log) =
        (conclude command attempt last, finish, log ++ exchanges) := by
  have logged := Engine.execute_logged executed log
  cases last with
  | error f =>
    exact ⟨next, _, .failed (final f rfl), attemptFrom_failed executed (final f rfl),
      attemptFrom_failed logged (final f rfl)⟩
  | ok rows =>
    rw [attemptFrom_ok executed, attemptFrom_ok logged, succeed, succeed]
    by_cases first : attempt ≤ 1
    · rw [if_pos first, if_pos first]
      exact ⟨next, _, .succeeded first, rfl, rfl⟩
    · obtain ⟨answer, finish, answered⟩ := sets.executed base next
      have restored := setTimeout_ok (Engine.execute_logged answered (log ++ [⟨command, .ok rows⟩]))
      rw [if_neg first, if_neg first, setTimeout_ok answered, restored, List.append_assoc]
      exact ⟨finish, _, .restored answer first, rfl, rfl⟩

theorem attemptFrom_course (sets : engine.SetsTimeouts) (base : Nat) (command : Command)
    (left attempt : Nat) (s : σ) (log : List Exchange) :
    ∃ failures last finish exchanges, Course base command left attempt failures last exchanges ∧
      attemptFrom engine base command left attempt s =
        (conclude command (attempt + failures.length) last, finish) ∧
      attemptFrom engine.logged base command left attempt (s, log) =
        (conclude command (attempt + failures.length) last, finish, log ++ exchanges) := by
  induction left, attempt, s using attempts_induction engine command generalizing log with
  | ended left attempt s last next executed final =>
    obtain ⟨finish, exchanges, ended⟩ := attemptFrom_ended sets executed final log
    exact ⟨[], last, finish, exchanges, ended⟩
  | retried left attempt s f next executed transient ih =>
    have logged := Engine.execute_logged executed log
    obtain ⟨answer, later, answered⟩ := sets.executed (timeoutAfter base attempt) next
    have raised := setTimeout_ok (Engine.execute_logged answered (log ++ [⟨command, .error f⟩]))
    obtain ⟨failures, last, finish, exchanges, course, plain, kept⟩ := ih later
      (log ++ [⟨command, .error f⟩] ++
        [⟨.setBusyTimeout (timeoutAfter base attempt), .ok answer⟩])
    have attempts : attempt + (f :: failures).length = attempt + 1 + failures.length := by
      simp only [List.length_cons]
      omega
    refine ⟨f :: failures, last, finish, _, .retried answer transient course, ?_, ?_⟩
    · rw [attemptFrom_retried executed transient, setTimeout_ok answered, plain, attempts]
    · rw [attemptFrom_retried logged transient, raised, kept, attempts]
      simp only [List.append_assoc, List.cons_append, List.nil_append]

namespace Course

theorem length_le (course : Course base command left attempt failures last exchanges) :
    failures.length ≤ left := by
  induction course with
  | failed final => exact Nat.zero_le _
  | succeeded first => exact Nat.zero_le _
  | restored answer later => exact Nat.zero_le _
  | retried answer transient rest ih => exact Nat.succ_le_succ ih

theorem transient (course : Course base command left attempt failures last exchanges) :
    ∀ f ∈ failures, f.isTransient = true := by
  induction course with
  | failed final => exact fun _ member => nomatch member
  | succeeded first => exact fun _ member => nomatch member
  | restored answer later => exact fun _ member => nomatch member
  | retried answer transient rest ih => exact List.forall_mem_cons.mpr ⟨transient, ih⟩

/-- A transient failure is the last outcome only when no attempt is left. -/
theorem exhausted (course : Course base command left attempt failures (.error f) exchanges)
    (transient : f.isTransient = true) : failures.length = left := by
  generalize refused : (Except.error f : Except EngineFailure (List Row)) = last at course
  induction course with
  | failed final =>
    cases refused
    exact (final transient).symm
  | succeeded first => cases refused
  | restored answer later => cases refused
  | retried answer transient rest ih => exact congrArg Nat.succ (ih refused)

end Course

/-- The outcomes of the executions of a command, in order. -/
def executions (command : Command) (exchanges : List Exchange) :
    List (Except EngineFailure (List Row)) :=
  (exchanges.filter fun e => e.command = command).map Exchange.outcome

/-- What stands between the attempts sets the busy timeout, so it is no execution of the command. -/
theorem Course.executions (course : Course base command left attempt failures last exchanges)
    (other : ∀ ms, command ≠ .setBusyTimeout ms) :
    executions command exchanges = failures.map Except.error ++ [last] := by
  induction course with
  | failed final => simp [Retry.executions]
  | succeeded first => simp [Retry.executions]
  | restored answer later => simp [Retry.executions, (other _).symm]
  | retried answer transient rest ih =>
    simpa [Retry.executions, (other _).symm] using ih

/-- What the attempts of a command have to do with its result: the failures that were tried again,
and the outcome of the last attempt. -/
structure Attempts (limit : Nat) (command : Command) (failures : List EngineFailure)
    (last : Except EngineFailure (List Row)) (result : Except Error (List Row)) : Prop where
  within : failures.length + 1 ≤ limit
  retried : ∀ f ∈ failures, f.HasLowByte 5 ∨ f.HasLowByte 6 ∨ f.HasLowByte 15
  exhausted : ∀ f, last = .error f → (f.HasLowByte 5 ∨ f.HasLowByte 6 ∨ f.HasLowByte 15) →
    failures.length + 1 = limit
  succeeded : ∀ rows, last = .ok rows → result = .ok rows
  uncompiled : ∀ f, last = .error f → f.HasLowByte 1 →
    result = .error (.prepare command.sql f.message)
  failed : ∀ f, last = .error f → ¬f.HasLowByte 1 →
    result = .error (.execution command.sql f.display (failures.length + 1))

theorem Course.attempts (course : Course base command left 1 failures last exchanges) :
    Attempts (left + 1) command failures last (conclude command (1 + failures.length) last) where
  within := Nat.succ_le_succ course.length_le
  retried f member := EngineFailure.isTransient_iff.mp (course.transient f member)
  exhausted f refused low := by
    subst refused
    exact congrArg Nat.succ (course.exhausted (EngineFailure.isTransient_iff.mpr low))
  succeeded rows ok := by
    subst ok
    rfl
  uncompiled f refused low := by
    subst refused
    exact congrArg Except.error (if_pos (EngineFailure.isCompileFailure_iff.mpr low))
  failed f refused other := by
    subst refused
    have compiled : ¬f.isCompileFailure = true := mt EngineFailure.isCompileFailure_iff.mp other
    rw [Nat.add_comm failures.length]
    exact congrArg Except.error (if_neg compiled)

theorem maxAttempts_succ (settings : ConnectionSettings) :
    maxAttempts settings - 1 + 1 = max 1 settings.maxRetries.toNat := by
  unfold maxAttempts
  omega

/-- A command that sets the busy timeout takes one attempt. -/
theorem run_timeout (sets : engine.SetsTimeouts) (settings : ConnectionSettings) (ms : Nat)
    (s : σ) :
    ∃ rows next, run engine settings (.setBusyTimeout ms) s = (.ok rows, next) ∧
      run engine.logged settings (.setBusyTimeout ms) (s, []) =
        (.ok rows, next, [⟨.setBusyTimeout ms, .ok rows⟩]) := by
  obtain ⟨rows, next, executed⟩ := sets.executed ms s
  refine ⟨rows, next, ?_, ?_⟩
  · exact attemptFrom_ok executed
  · exact attemptFrom_ok (Engine.execute_logged executed [])

/-- A run executes its command until an outcome is not a transient failure, at most as often as the
settings allow, and its result is that of the last execution. -/
theorem run_attempts (engine : Engine σ) (sets : engine.SetsTimeouts)
    (settings : ConnectionSettings) (command : Command) (s : σ) :
    let ended := run engine.logged settings command (s, [])
    run engine settings command s = (ended.1, ended.2.1) ∧
      ∃ failures last, executions command ended.2.2 = failures.map Except.error ++ [last] ∧
        Attempts (max 1 settings.maxRetries.toNat) command failures last ended.1 := by
  by_cases timeout : ∃ ms, command = .setBusyTimeout ms
  · obtain ⟨ms, rfl⟩ := timeout
    obtain ⟨rows, next, plain, kept⟩ := run_timeout sets settings ms s
    have course : Course (baseTimeout settings) (.setBusyTimeout ms) (maxAttempts settings - 1) 1 []
      (.ok rows) [⟨.setBusyTimeout ms, .ok rows⟩] := .succeeded le_rfl
    rw [kept, plain, ← maxAttempts_succ]
    exact ⟨rfl, [], .ok rows, by simp [executions], course.attempts⟩
  · obtain ⟨failures, last, finish, exchanges, course, plain, kept⟩ := attemptFrom_course sets
      (baseTimeout settings) command (maxAttempts settings - 1) 1 s []
    have logged : run engine.logged settings command (s, []) =
      (conclude command (1 + failures.length) last, finish, exchanges) := kept
    rw [logged, ← maxAttempts_succ]
    exact ⟨plain, failures, last, course.executions (not_exists.mp timeout), course.attempts⟩

/-- An engine that answers statements from a list of outcomes. -/
def scripted : Engine (List (Except EngineFailure (List Row))) where
  connect _ _ outcomes := (.ok (), outcomes)
  execute
    | .setBusyTimeout _, outcomes => (.ok [], outcomes)
    | _, [] => (.ok [], [])
    | _, outcome :: rest => (outcome, rest)

theorem scripted_setsTimeouts : scripted.SetsTimeouts := fun _ _ => ⟨[], rfl⟩

/-- Busy, then a lock in a shared cache, then a failure to compile with an extended code. -/
theorem scripted_attempts :
    let outcomes : List (Except EngineFailure (List Row)) :=
      [.error ⟨some 5, "busy"⟩, .error ⟨some 262, "locked"⟩, .error ⟨some 257, "no collation"⟩]
    let ended := run scripted.logged .standard (.statement "SELECT 1") (outcomes, [])
    executions (.statement "SELECT 1") ended.2.2 = outcomes ∧
      run scripted .standard (.statement "SELECT 1") outcomes = (ended.1, ended.2.1) ∧
      ∃ failures last,
        executions (.statement "SELECT 1") ended.2.2 = failures.map Except.error ++ [last] ∧
          Attempts 5 (.statement "SELECT 1") failures last ended.1 :=
  ⟨by rfl, run_attempts scripted scripted_setsTimeouts .standard (.statement "SELECT 1") _⟩

end Retry
end QueryWeaver
