import QueryWeaver.Proofs.Database.Escalation
import QueryWeaver.Proofs.Database.Opening
/-!
The busy timeout that the calls of a session leave in force. A call that was retried leaves the
configured one if it succeeded, and the longest one that it asked for if it failed; any other call
leaves what it found.
-/

namespace QueryWeaver

/-- The statement of a call. -/
def Call.sql : Call → Text
  | write sql => sql
  | read sql => sql

namespace Retry

variable {command : Command} {base left attempt : Nat} {failures : List EngineFailure}
  {last : Except EngineFailure (List Row)} {exchanges : List Exchange}

/-- The busy timeout in force behind a number of executions of a command that began under
`current`. -/
def timeoutBehind (base current executions : Nat) (succeeded : Bool) : Nat :=
  if executions ≤ 1 then current
  else if succeeded then base
  else timeoutAfter base (executions - 1)

theorem timeoutBehind_retried {executions : Nat} (retried : 1 < executions) (current : Nat)
    (succeeded : Bool) :
    timeoutBehind base current executions succeeded =
      if succeeded then base else timeoutAfter base (executions - 1) :=
  if_neg (Nat.not_le.mpr retried)

theorem timeoutBehind_base (executions : Nat) : timeoutBehind base base executions true = base := by
  unfold timeoutBehind
  split <;> rfl

/-- A timeout that is raised is another one, unless it is the greatest to which a run raises. -/
theorem timeoutAfter_eq_base (raised : 1 ≤ attempt) :
    timeoutAfter base attempt = base ↔ base = maxTimeoutMs := by
  constructor
  · intro same
    rcases Nat.lt_trichotomy base maxTimeoutMs with below | equal | above
    · have doubled : max base 50 * 2 ^ 1 ≤ max base 50 * 2 ^ min attempt 8 :=
        Nat.mul_le_mul_left _ (Nat.pow_le_pow_right (by decide) (le_min raised (by decide)))
      have longer : base < timeoutAfter base attempt := by
        rw [timeoutAfter_eq]
        exact lt_min (by omega) below
      exact absurd same longer.ne'
    · exact equal
    · exact (timeoutAfter_above above attempt).symm.trans same |>.symm
  · intro equal
    apply Nat.le_antisymm
    · rw [timeoutAfter_eq, equal]
      exact min_le_right _ _
    · exact le_timeoutAfter equal.le attempt

theorem Course.inForce (course : Course base command left attempt failures last exchanges)
    (other : ∀ ms, command ≠ .setBusyTimeout ms) (numbered : 1 ≤ attempt) {current : Nat}
    (held : 1 < attempt → current = timeoutAfter base (attempt - 1)) :
    inForce current exchanges =
      timeoutBehind base current (attempt + failures.length) last.isOk := by
  induction course generalizing current with
  | @failed left attempt f final =>
    rw [inForce_cons, timeout?_other other]
    by_cases first : attempt ≤ 1
    · exact (if_pos first).symm
    · rw [List.length_nil, Nat.add_zero, timeoutBehind_retried (Nat.not_le.mp first)]
      exact held (Nat.not_le.mp first)
  | succeeded first =>
    rw [inForce_cons, timeout?_other other]
    exact (if_pos first).symm
  | restored answer behind =>
    rw [inForce_cons, inForce_cons, List.length_nil, Nat.add_zero,
      timeoutBehind_retried (Nat.not_le.mp behind)]
    rfl
  | @retried left attempt f failures last exchanges answer transient rest ih =>
    have count : attempt + 1 + failures.length = attempt + (f :: failures).length := by
      rw [List.length_cons]
      omega
    have again : 1 < attempt + (f :: failures).length := by omega
    rw [inForce_cons, inForce_cons, timeout?_other other]
    calc
      Retry.inForce (timeoutAfter base attempt) exchanges =
          timeoutBehind base (timeoutAfter base attempt) (attempt + 1 + failures.length)
            last.isOk := ih (Nat.le_succ_of_le numbered) fun _ => rfl
      _ = timeoutBehind base current (attempt + (f :: failures).length) last.isOk := by
        rw [count, timeoutBehind_retried again, timeoutBehind_retried again]

end Retry

namespace Session

variable {σ : Type} {engine : Engine σ} {command : Command}

/-- The busy timeout in force in a session whose engine keeps its exchanges. -/
def timeout (s : Session (σ × List Exchange)) : Nat :=
  Retry.inForce (Retry.baseTimeout s.settings) s.state.2

/-- Number of executions of a command between two states of a session. -/
def executionsSince (command : Command) (s next : Session (σ × List Exchange)) : Nat :=
  (Retry.executions command (next.state.2.drop s.state.2.length)).length

/-- A command other than one that sets the busy timeout leaves what its executions make of it. -/
theorem execute_timeout (sets : engine.SetsTimeouts) (other : ∀ ms, command ≠ .setBusyTimeout ms)
    (s : Session (σ × List Exchange)) :
    (execute engine.logged command s).2.timeout =
      Retry.timeoutBehind (Retry.baseTimeout s.settings) s.timeout
        (executionsSince command s (execute engine.logged command s).2)
        (execute engine.logged command s).1.isOk := by
  obtain ⟨failures, last, finish, exchanges, course, -, kept⟩ := Retry.attemptFrom_course sets
    (Retry.baseTimeout s.settings) command (Retry.maxAttempts s.settings - 1) 1 s.state.1 s.state.2
  have executed : execute engine.logged command s =
      (Retry.conclude command (1 + failures.length) last,
        { s with state := (finish, s.state.2 ++ exchanges) }) := by
    unfold execute Retry.run
    rw [kept]
  have succeeded : (Retry.conclude command (1 + failures.length) last).isOk = last.isOk := by
    cases last <;> rfl
  have count : executionsSince command s { s with state := (finish, s.state.2 ++ exchanges) } =
      1 + failures.length := by
    rw [executionsSince, List.drop_left, course.executions other, List.length_append,
      List.length_map, List.length_singleton, Nat.add_comm]
  have forced : Retry.inForce s.timeout exchanges = _ :=
    course.inForce other le_rfl fun later => absurd later (Nat.lt_irrefl 1)
  rw [executed, count, succeeded, ← forced]
  exact Retry.inForce_append ..

theorem perform_timeout (sets : engine.SetsTimeouts) (other : ∀ ms, command ≠ .setBusyTimeout ms)
    (s : Session (σ × List Exchange)) :
    (perform engine.logged command s).2.timeout =
      Retry.timeoutBehind (Retry.baseTimeout s.settings) s.timeout
        (executionsSince command s (perform engine.logged command s).2)
        (perform engine.logged command s).1.isOk := by
  have succeeded : ((execute engine.logged command s).1.map fun _ => ()).isOk =
      (execute engine.logged command s).1.isOk := by
    cases (execute engine.logged command s).1 <;> rfl
  rw [perform_eq, succeeded]
  exact execute_timeout sets other s

/-- The session has these settings, and their busy timeout is in force. -/
structure Configured (settings : ConnectionSettings) (s : Session (σ × List Exchange)) : Prop where
  settings_eq : s.settings = settings
  timeout_eq : s.timeout = Retry.baseTimeout settings

variable {settings : ConnectionSettings} {s next : Session (σ × List Exchange)}

theorem Configured.perform (sets : engine.SetsTimeouts)
    (other : ∀ ms, command ≠ .setBusyTimeout ms) (configured : Configured settings s)
    (succeeded : perform engine.logged command s = (.ok (), next)) : Configured settings next := by
  have left := perform_timeout sets other s
  rw [succeeded, configured.settings_eq, configured.timeout_eq] at left
  exact ⟨(perform_settings succeeded).trans configured.settings_eq,
    left.trans (Retry.timeoutBehind_base _)⟩

theorem Configured.attach (sets : engine.SetsTimeouts) {name path : Text}
    (configured : Configured settings s)
    (attached : attach engine.logged name path s = (.ok (), next)) : Configured settings next := by
  obtain ⟨middle, performed, rfl⟩ := attach_ok attached
  have kept := configured.perform sets (fun _ => Command.noConfusion) performed
  exact ⟨kept.settings_eq, kept.timeout_eq⟩

theorem applyTimeout_configured (sets : engine.SetsTimeouts) (kept : s.settings = settings)
    (applied : applyTimeout engine.logged s = (.ok (), next)) : Configured settings next := by
  obtain ⟨rows, later, executed⟩ := sets.executed (Retry.baseTimeout s.settings) s.state.1
  have set := Retry.setTimeout_ok (Engine.execute_logged executed s.state.2)
  rw [applyTimeout, set] at applied
  cases applied
  subst kept
  exact ⟨rfl, Retry.inForce_append ..⟩

theorem start_configured (sets : engine.SetsTimeouts) {path : Text}
    {attachments : List (Text × Text)} {state : σ × List Exchange}
    (started : start engine.logged settings path attachments state = (.ok (), next)) :
    Configured settings next := by
  obtain ⟨connected, set, timed, -, commanded, applied, attached⟩ := start_ok started
  have kept : set.settings = settings := by
    refine sequence_keeps (P := fun s => s.settings = settings) ?_ rfl commanded
    intro step member s next same performed
    obtain ⟨command, -, rfl⟩ := List.mem_map.mp member
    exact (perform_settings performed).trans same
  refine sequence_keeps ?_ (applyTimeout_configured sets kept applied) attached
  intro step member s next configured performed
  obtain ⟨⟨name, path⟩, -, rfl⟩ := List.mem_map.mp member
  exact configured.attach sets performed

/-- What became of a call: how often its statement was executed, and whether it succeeded. -/
structure Answer where
  executions : Nat
  succeeded : Bool

namespace Answer

variable {base : Nat}

def retried (a : Answer) : Bool := decide (1 < a.executions)

/-- The busy timeout that a retried call leaves in force. -/
def timeout (base : Nat) (a : Answer) : Nat :=
  if a.succeeded then base else Retry.timeoutAfter base (a.executions - 1)

/-- The last of the calls that were retried. -/
def lastRetried? (answers : List Answer) : Option Answer := (answers.filter retried).getLast?

/-- The busy timeout in force behind calls that began under `current`. -/
def timeoutBehind (base current : Nat) (answers : List Answer) : Nat :=
  ((lastRetried? answers).map (timeout base)).getD current

theorem timeoutBehind_cons (current : Nat) (a : Answer) (answers : List Answer) :
    timeoutBehind base current (a :: answers) =
      timeoutBehind base (Retry.timeoutBehind base current a.executions a.succeeded) answers := by
  by_cases again : 1 < a.executions
  · have kept : (a :: answers).filter retried = a :: answers.filter retried :=
      List.filter_cons_of_pos (decide_eq_true again)
    rw [timeoutBehind, lastRetried?, kept, List.getLast?_cons, Retry.timeoutBehind_retried again,
      timeoutBehind, lastRetried?]
    cases (answers.filter retried).getLast? <;> rfl
  · have dropped : (a :: answers).filter retried = answers.filter retried :=
      List.filter_cons_of_neg (by simpa [retried] using again)
    rw [timeoutBehind, lastRetried?, dropped, Retry.timeoutBehind, if_pos (Nat.not_lt.mp again)]
    rfl

theorem lastRetried?_retried {answers : List Answer} {a : Answer}
    (last : lastRetried? answers = some a) : 1 < a.executions :=
  of_decide_eq_true (List.mem_filter.mp (List.mem_of_getLast? last)).2

theorem timeoutBehind_eq_base (answers : List Answer) :
    timeoutBehind base base answers = base ↔
      ∀ a, lastRetried? answers = some a → a.succeeded = true ∨ base = Retry.maxTimeoutMs := by
  unfold timeoutBehind
  cases last : lastRetried? answers with
  | none => exact iff_of_true rfl fun _ found => nomatch found
  | some a =>
    have raised : 1 ≤ a.executions - 1 := Nat.le_sub_one_of_lt (lastRetried?_retried last)
    simp only [Option.map_some, Option.getD_some, Option.some.injEq, forall_eq', timeout]
    cases a.succeeded with
    | true => simp
    | false => simpa using Retry.timeoutAfter_eq_base raised

end Answer

/-- Makes a call for its success alone. -/
def call (engine : Engine σ) (s : Session σ) : Call → Except Error Unit × Session σ
  | .write sql => (database engine).write sql s
  | .read sql =>
    let (result, next) := (database engine).read sql s
    (result.map fun _ => (), next)

theorem call_eq (engine : Engine σ) (s : Session σ) (c : Call) :
    call engine s c = perform engine (.statement c.sql) s := by
  cases c <;> rfl

/-- Makes calls one after the other, whether or not they succeed. -/
def converse (engine : Engine σ) :
    List Call → Session (σ × List Exchange) → List Answer × Session (σ × List Exchange)
  | [], s => ([], s)
  | c :: calls, s =>
    let (result, next) := call engine.logged s c
    let (answers, last) := converse engine calls next
    (⟨executionsSince (.statement c.sql) s next, result.isOk⟩ :: answers, last)

theorem converse_timeout (sets : engine.SetsTimeouts) (calls : List Call)
    (s : Session (σ × List Exchange)) :
    (converse engine calls s).2.timeout =
      Answer.timeoutBehind (Retry.baseTimeout s.settings) s.timeout
        (converse engine calls s).1 := by
  induction calls generalizing s with
  | nil => rfl
  | cons c calls ih =>
    have other (ms : Nat) : Command.statement c.sql ≠ .setBusyTimeout ms := Command.noConfusion
    have forced := perform_timeout sets other s
    have rest := ih (call engine.logged s c).2
    rw [call_eq, forced] at rest
    simp only [converse, call_eq, Answer.timeoutBehind_cons]
    exact rest

/-- What the calls of a session leave in force is decided by the last one that was retried: the
configured busy timeout if it succeeded, and if it failed the longest that it asked for. -/
theorem calls_timeout (sets : engine.SetsTimeouts) {path : Text}
    {attachments : List (Text × Text)} {state : σ} {opened : Session (σ × List Exchange)}
    (started : start engine.logged settings path attachments (state, []) = (.ok (), opened))
    (calls : List Call) :
    let base := settings.busyTimeoutMs.toNat
    let conversation := converse engine calls opened
    let lastRetried? := Answer.lastRetried? conversation.1
    conversation.2.timeout = (lastRetried?.map (Answer.timeout base)).getD base ∧
      (conversation.2.timeout = base ↔
        ∀ a, lastRetried? = some a → a.succeeded = true ∨ base = Retry.maxTimeoutMs) := by
  have configured := start_configured sets started
  have forced := converse_timeout sets calls opened
  rw [configured.settings_eq, configured.timeout_eq] at forced
  intro base conversation lastRetried?
  refine ⟨forced, ?_⟩
  rw [forced]
  exact Answer.timeoutBehind_eq_base _

/-- Settings with a short busy timeout, under which a statement is executed at most twice. -/
def briefSettings : ConnectionSettings :=
  { ConnectionSettings.standard with busyTimeoutMs := 10, maxRetries := 2 }

def busy : EngineFailure := ⟨some 5, "database is locked"⟩

/-- The outcomes of the statements that apply the settings, and then others. -/
def scriptedOutcomes (outcomes : List (Except EngineFailure (List Row))) :
    List (Except EngineFailure (List Row)) × List Exchange :=
  (List.replicate 4 (.ok []) ++ outcomes, [])

/-- A failure behind a retry raises the timeout, and a success behind a retry sets it back. -/
theorem scripted_calls_timeout :
    let outcomes := scriptedOutcomes [.error busy, .error busy, .error busy, .ok []]
    let opened := (start Retry.scripted.logged briefSettings "app.db" [] outcomes).2
    let calls := [Call.write "BEGIN IMMEDIATE", Call.read "SELECT 1"]
    let conversation := converse Retry.scripted calls opened
    (start Retry.scripted.logged briefSettings "app.db" [] outcomes).1 = .ok () ∧
      conversation.1.map Answer.executions = [2, 2] ∧
      conversation.2.timeout =
        ((Answer.lastRetried? conversation.1).map (Answer.timeout 10)).getD 10 ∧
      conversation.2.timeout = 10 := by
  intro outcomes opened calls conversation
  have succeeded : (start Retry.scripted.logged briefSettings "app.db" [] outcomes).1 = .ok () :=
    rfl
  have started : start Retry.scripted.logged briefSettings "app.db" [] outcomes =
    (.ok (), opened) := Prod.ext succeeded rfl
  have counts : conversation.1.map Answer.executions = [2, 2] := by decide +kernel
  have forced := (calls_timeout Retry.scripted_setsTimeouts started calls).1
  have final : conversation.2.timeout = 10 := by decide +kernel
  exact ⟨succeeded, counts, forced, final⟩

/-- A statement that stays busy until the last attempt leaves the raised timeout in force. -/
theorem failure_leaves_timeout :
    let outcomes := scriptedOutcomes [.error busy, .error busy]
    let opened := (start Retry.scripted.logged briefSettings "app.db" [] outcomes).2
    let conversation :=
      converse Retry.scripted [Call.write "CREATE TABLE locked (id INTEGER)"] opened
    opened.timeout = 10 ∧ conversation.1.map Answer.succeeded = [false] ∧
      conversation.2.timeout = 100 :=
  ⟨rfl, rfl, rfl⟩

end Session
end QueryWeaver
