import QueryWeaver.Proofs.Database.Retrying
/-!
The busy timeouts that a run asks for between its attempts, on any engine. They never become
shorter, and the first one is no shorter than the configured one unless that is above the greatest
timeout to which a run raises it.
-/

namespace QueryWeaver

/-- The busy timeout that an exchange puts in force. -/
def Exchange.timeout? (e : Exchange) : Option Nat :=
  match e.command, e.outcome with
  | .setBusyTimeout ms, .ok _ => some ms
  | _, _ => none

namespace Retry

variable {σ : Type} {command : Command} {base left attempt : Nat} {exchanges : List Exchange}

/-- The busy timeout in force behind exchanges that began under `current`. -/
def inForce (current : Nat) (exchanges : List Exchange) : Nat :=
  exchanges.foldl (fun ms e => e.timeout?.getD ms) current

theorem inForce_cons (current : Nat) (e : Exchange) (exchanges : List Exchange) :
    inForce current (e :: exchanges) = inForce (e.timeout?.getD current) exchanges := rfl

theorem inForce_append (current : Nat) (a b : List Exchange) :
    inForce current (a ++ b) = inForce (inForce current a) b := List.foldl_append

/-- Only commands that set the busy timeout change it. -/
theorem timeout?_other (other : ∀ ms, command ≠ .setBusyTimeout ms)
    (outcome : Except EngineFailure (List Row)) :
    Exchange.timeout? ⟨command, outcome⟩ = none := by
  cases command with
  | setBusyTimeout ms => exact absurd rfl (other ms)
  | _ => rfl

theorem timeoutAfter_eq (base attempt : Nat) :
    timeoutAfter base attempt = min (max base 50 * 2 ^ min attempt 8) maxTimeoutMs := by
  rw [timeoutAfter, Nat.shiftLeft_eq]

theorem timeoutAfter_mono {later : Nat} (le : attempt ≤ later) :
    timeoutAfter base attempt ≤ timeoutAfter base later := by
  have doublings : min attempt 8 ≤ min later 8 := min_le_min_right 8 le
  rw [timeoutAfter_eq, timeoutAfter_eq]
  exact min_le_min_right _ (Nat.mul_le_mul_left _ (Nat.pow_le_pow_right (by decide) doublings))

theorem base_le_doubled (base attempt : Nat) : base ≤ max base 50 * 2 ^ min attempt 8 := by
  calc
    base ≤ max base 50 := le_max_left base 50
    _ ≤ max base 50 * 2 ^ min attempt 8 := Nat.le_mul_of_pos_right _ (Nat.two_pow_pos _)

theorem le_timeoutAfter (within : base ≤ maxTimeoutMs) (attempt : Nat) :
    base ≤ timeoutAfter base attempt := by
  rw [timeoutAfter_eq]
  exact le_min (base_le_doubled base attempt) within

theorem timeoutAfter_above (above : maxTimeoutMs < base) (attempt : Nat) :
    timeoutAfter base attempt = maxTimeoutMs := by
  rw [timeoutAfter_eq]
  exact min_eq_right (above.le.trans (base_le_doubled base attempt))

/-- The busy timeout after a number of attempts, in words of 64 bits. -/
def timeoutWord (base attempt : UInt32) : UInt64 :=
  min (max base.toUInt64 50 <<< (min attempt 8).toUInt64) 120000

/-- No bit is shifted out of a word of 64. -/
theorem doubled_lt (base : UInt32) (attempt : Nat) :
    max base.toNat 50 <<< min attempt 8 < 2 ^ 64 := by
  have bound : max base.toNat 50 < 2 ^ 32 := max_lt base.toNat_lt (by decide)
  have doublings : 2 ^ min attempt 8 ≤ 2 ^ 8 :=
    Nat.pow_le_pow_right (by decide) (min_le_right attempt 8)
  rw [Nat.shiftLeft_eq]
  calc
    max base.toNat 50 * 2 ^ min attempt 8 < 2 ^ 32 * 2 ^ 8 :=
      Nat.mul_lt_mul_of_lt_of_le bound doublings (by decide)
    _ < 2 ^ 64 := by decide

theorem timeoutWord_toNat (base attempt : UInt32) :
    (timeoutWord base attempt).toNat = timeoutAfter base.toNat attempt.toNat := by
  have larger : (max base.toUInt64 50).toNat = max base.toNat 50 := UInt64.toNat_max _ 50
  have fewer : (min attempt 8).toUInt64.toNat = min attempt.toNat 8 := UInt32.toNat_min attempt 8
  have shift : min attempt.toNat 8 % 64 = min attempt.toNat 8 := Nat.mod_eq_of_lt (by omega)
  have word : (max base.toUInt64 50 <<< (min attempt 8).toUInt64).toNat =
      max base.toNat 50 <<< min attempt.toNat 8 := by
    rw [UInt64.toNat_shiftLeft, larger, fewer, shift]
    exact Nat.mod_eq_of_lt (doubled_lt base attempt.toNat)
  rw [timeoutWord, UInt64.toNat_min, word]
  rfl

/-- The exchanges of a command from attempt number `attempt` on, with `left` more attempts allowed,
on any engine. The request for a longer busy timeout may be refused. -/
inductive Climb (base : Nat) (command : Command) : (left attempt : Nat) → List Exchange → Prop where
  | ended {left attempt : Nat} (outcome : Except EngineFailure (List Row))
    {closing : List Exchange} (closed : ∀ e ∈ closing, e.command ≠ command) :
    Climb base command left attempt (⟨command, outcome⟩ :: closing)
  | raised {left attempt : Nat} {exchanges : List Exchange} (f : EngineFailure)
    (answer : Except EngineFailure (List Row))
    (rest : Climb base command left (attempt + 1) exchanges) :
    Climb base command (left + 1) attempt
      (⟨command, .error f⟩ :: ⟨.setBusyTimeout (timeoutAfter base attempt), answer⟩ :: exchanges)

theorem setTimeout_logged (engine : Engine σ) (ms : Nat) (s : σ) (log : List Exchange) :
    ∃ answer next, (setTimeout engine.logged ms (s, log)).2 =
      (next, log ++ [⟨.setBusyTimeout ms, answer⟩]) := by
  cases executed : engine.execute (.setBusyTimeout ms) s with
  | mk answer next =>
    rw [setTimeout, Engine.execute_logged executed]
    cases answer <;> exact ⟨_, next, rfl⟩

/-- Of a success only the timeout that it sets back is added to the exchanges. -/
theorem succeed_logged (engine : Engine σ) (base attempt : Nat) (rows : List Row) (s : σ)
    (log : List Exchange) (other : ∀ ms, command ≠ .setBusyTimeout ms) :
    ∃ closing, (succeed engine.logged base attempt rows (s, log)).2.2 = log ++ closing ∧
      ∀ e ∈ closing, e.command ≠ command := by
  by_cases first : attempt ≤ 1
  · rw [succeed, if_pos first]
    exact ⟨[], (List.append_nil log).symm, fun _ member => absurd member List.not_mem_nil⟩
  · obtain ⟨answer, next, set⟩ := setTimeout_logged engine base s log
    rw [succeed, if_neg first, set]
    refine ⟨_, rfl, fun e member => ?_⟩
    rw [List.mem_singleton.mp member]
    exact (other base).symm

/-- An outcome that ends the execution, whatever follows it. -/
theorem attemptFrom_closed {engine : Engine σ} {outcome : Except EngineFailure (List Row)}
    {s next : σ} (executed : engine.execute command s = (outcome, next))
    (final : ∀ f, outcome = .error f → f.isTransient = true → left = 0) (base attempt : Nat)
    (log : List Exchange) (other : ∀ ms, command ≠ .setBusyTimeout ms) :
    ∃ exchanges, Climb base command left attempt exchanges ∧
      (attemptFrom engine.logged base command left attempt (s, log)).2.2 = log ++ exchanges := by
  have logged := Engine.execute_logged executed log
  cases outcome with
  | ok rows =>
    obtain ⟨closing, added, closed⟩ := succeed_logged engine base attempt rows next
      (log ++ [⟨command, .ok rows⟩]) other
    rw [attemptFrom_ok logged, added, List.append_assoc]
    exact ⟨_, .ended (.ok rows) closed, rfl⟩
  | error f =>
    have alone : ∀ e ∈ ([] : List Exchange), e.command ≠ command := fun _ member =>
      absurd member List.not_mem_nil
    rw [attemptFrom_failed logged (final f rfl)]
    exact ⟨_, .ended (.error f) alone, rfl⟩

theorem attemptFrom_climb (engine : Engine σ) (base left attempt : Nat) (s : σ)
    (log : List Exchange) (other : ∀ ms, command ≠ .setBusyTimeout ms) :
    ∃ exchanges, Climb base command left attempt exchanges ∧
      (attemptFrom engine.logged base command left attempt (s, log)).2.2 = log ++ exchanges := by
  induction left, attempt, s using attempts_induction engine command generalizing log with
  | ended left attempt s outcome next executed final =>
    exact attemptFrom_closed executed final base attempt log other
  | retried left attempt s f next executed transient ih =>
    have logged := Engine.execute_logged executed log
    obtain ⟨answer, later, set⟩ := setTimeout_logged engine (timeoutAfter base attempt) next
      (log ++ [⟨command, .error f⟩])
    obtain ⟨exchanges, climb, added⟩ := ih later
      (log ++ [⟨command, .error f⟩] ++ [⟨.setBusyTimeout (timeoutAfter base attempt), answer⟩])
    rw [attemptFrom_retried logged transient, set, added]
    exact ⟨_, .raised f answer climb, by simp⟩

theorem executions_cons_self (outcome : Except EngineFailure (List Row))
    (exchanges : List Exchange) :
    executions command (⟨command, outcome⟩ :: exchanges) =
      outcome :: executions command exchanges := by
  simp [executions]

theorem executions_cons_other {e : Exchange} (other : e.command ≠ command)
    (exchanges : List Exchange) :
    executions command (e :: exchanges) = executions command exchanges := by
  simp [executions, other]

/-- A timeout that is asked for in front of another attempt. It is counted from the attempts before
it, and no shorter than what is in force by then. -/
theorem Climb.raise (climb : Climb base command left attempt exchanges)
    (other : ∀ ms, command ≠ .setBusyTimeout ms) {before after : List Exchange} {ms : Nat}
    {answer : Except EngineFailure (List Row)}
    (asked : exchanges = before ++ ⟨.setBusyTimeout ms, answer⟩ :: after)
    (retried : ∃ e ∈ after, e.command = command) :
    ∃ failed, (executions command before).length = failed + 1 ∧ failed < left ∧
      ms = timeoutAfter base (attempt + failed) ∧
      ∀ current ≤ timeoutAfter base attempt, inForce current before ≤ ms := by
  induction climb generalizing before with
  | ended outcome closed =>
    obtain ⟨e, member, same⟩ := retried
    cases before with
    | nil => exact absurd (congrArg Exchange.command (List.cons.inj asked).1) (other ms)
    | cons first before =>
      rw [(List.cons.inj asked).2] at closed
      exact absurd same (closed e (by simp [member]))
  | @raised left attempt exchanges f set rest ih =>
    have unset := timeout?_other other (.error f)
    cases before with
    | nil => exact absurd (congrArg Exchange.command (List.cons.inj asked).1) (other ms)
    | cons first before =>
      rw [List.cons_append, List.cons.injEq] at asked
      obtain ⟨rfl, asked⟩ := asked
      cases before with
      | nil =>
        obtain ⟨same, -⟩ := List.cons.inj asked
        cases same
        refine ⟨0, by simp [executions], Nat.succ_pos left, rfl, fun current le => ?_⟩
        rw [inForce_cons, unset]
        exact le
      | cons second before =>
        rw [List.cons_append, List.cons.injEq] at asked
        obtain ⟨rfl, asked⟩ := asked
        obtain ⟨failed, count, lt, value, low⟩ := ih asked
        refine ⟨failed + 1, ?_, Nat.succ_lt_succ lt, ?_, fun current le => ?_⟩
        · rw [executions_cons_self, executions_cons_other (other _).symm, List.length_cons, count]
        · rw [value, Nat.add_right_comm, Nat.add_assoc]
        · have later : timeoutAfter base attempt ≤ timeoutAfter base (attempt + 1) :=
            timeoutAfter_mono (Nat.le_succ attempt)
          rw [inForce_cons, inForce_cons, unset]
          apply low
          cases set with
          | ok rows => exact later
          | error refusal => exact le.trans later

/-- What a run asks for between two attempts is computed in words of 64 bits without overflow. It
is no shorter than the timeout in force by then if the configured one is within the greatest that
a run raises to; a configured timeout above that is lowered to it. -/
theorem run_raises (engine : Engine σ) (settings : ConnectionSettings) (s : σ)
    {before after : List Exchange} {ms : Nat} {answer : Except EngineFailure (List Row)}
    (other : ∀ ms, command ≠ .setBusyTimeout ms)
    (asked : (run engine.logged settings command (s, [])).2.2 =
      before ++ ⟨.setBusyTimeout ms, answer⟩ :: after)
    (retried : ∃ e ∈ after, e.command = command) :
    let base := settings.busyTimeoutMs
    let attempts := (executions command before).length
    attempts < max 1 settings.maxRetries.toNat ∧
      max base.toNat 50 <<< min attempts 8 < 2 ^ 64 ∧
      ms = (timeoutWord base (UInt32.ofNat attempts)).toNat ∧
      (base.toNat ≤ maxTimeoutMs → inForce base.toNat before ≤ ms) ∧
      (maxTimeoutMs < base.toNat → ms = maxTimeoutMs) := by
  obtain ⟨exchanges, climb, added⟩ := attemptFrom_climb engine (baseTimeout settings)
    (maxAttempts settings - 1) 1 s [] other
  have exchanged : (run engine.logged settings command (s, [])).2.2 = exchanges := added
  obtain ⟨failed, count, lt, value, low⟩ := climb.raise other (exchanged.symm.trans asked) retried
  have allowed := maxAttempts_succ settings
  have bound : failed + 1 < max 1 settings.maxRetries.toNat := by omega
  have retries : settings.maxRetries.toNat < 2 ^ 32 := settings.maxRetries.toNat_lt
  have counted : failed + 1 < 2 ^ 32 := by omega
  have fits : (UInt32.ofNat (failed + 1)).toNat = failed + 1 := UInt32.toNat_ofNat_of_lt' counted
  intro base attempts
  have attempts_eq : attempts = failed + 1 := count
  rw [attempts_eq]
  refine ⟨bound, doubled_lt base (failed + 1), ?_, fun within => ?_, fun above => ?_⟩
  · rw [timeoutWord_toNat, fits, value, Nat.add_comm 1 failed]
    rfl
  · exact low base.toNat (le_timeoutAfter within 1)
  · rw [value]
    exact timeoutAfter_above above (1 + failed)

/-- Busy, then a lock in a shared cache, then a success: the second of two raises. -/
theorem scripted_raises :
    let command := Command.statement "SELECT 1"
    let busy : EngineFailure := ⟨some 5, "busy"⟩
    let locked : EngineFailure := ⟨some 262, "locked"⟩
    let before : List Exchange :=
      [⟨command, .error busy⟩, ⟨.setBusyTimeout 20000, .ok []⟩, ⟨command, .error locked⟩]
    let after : List Exchange := [⟨command, .ok []⟩, ⟨.setBusyTimeout 10000, .ok []⟩]
    (run scripted.logged .standard command ([.error busy, .error locked, .ok []], [])).2.2 =
        before ++ ⟨.setBusyTimeout 40000, .ok []⟩ :: after ∧
      (∃ e ∈ after, e.command = command) ∧
      (executions command before).length < 5 ∧
      40000 = (timeoutWord 10000 (UInt32.ofNat (executions command before).length)).toNat ∧
      inForce 10000 before ≤ 40000 := by
  intro command busy locked before after
  have asked : (run scripted.logged .standard command
      ([.error busy, .error locked, .ok []], [])).2.2 =
      before ++ ⟨.setBusyTimeout 40000, .ok []⟩ :: after := rfl
  have retried : ∃ e ∈ after, e.command = command := ⟨_, List.mem_cons_self .., rfl⟩
  obtain ⟨allowed, -, word, low, -⟩ := run_raises scripted .standard
    [.error busy, .error locked, .ok []] (fun _ => Command.noConfusion) asked retried
  exact ⟨asked, retried, allowed, word, low (by decide)⟩

/-- A configured timeout of 200 seconds is in force when the first retry asks for 120 seconds. -/
theorem long_timeout_lowered :
    let settings := { ConnectionSettings.standard with busyTimeoutMs := 200000, maxRetries := 2 }
    let command := Command.statement "PRAGMA wal_checkpoint"
    let locked : EngineFailure := ⟨some 6, "database table is locked"⟩
    let before : List Exchange := [⟨command, .error locked⟩]
    let after : List Exchange := [⟨command, .error locked⟩]
    (run scripted.logged settings command ([.error locked, .error locked], [])).2.2 =
        before ++ ⟨.setBusyTimeout 120000, .ok []⟩ :: after ∧
      (∃ e ∈ after, e.command = command) ∧
      inForce settings.busyTimeoutMs.toNat before = 200000 ∧
      ¬inForce settings.busyTimeoutMs.toNat before ≤ 120000 := by
  intro settings command locked before after
  exact ⟨rfl, ⟨_, List.mem_cons_self .., rfl⟩, rfl, by decide⟩

end Retry
end QueryWeaver
