import QueryWeaver.Database.MemoryEngine
import QueryWeaver.Proofs.Database.Opening
import QueryWeaver.Proofs.Database.Retrying
/-!
The attachments that a session lists beside those that its engine has. All that it lists is
attached, in the order of the list. If busy timeouts can be set, the list is the last part of what
the engine has, and all of it as long as no detaching of all databases fails: where that stops, the
session has already forgotten the databases that it leaves attached.
-/

namespace QueryWeaver

/-- Commands that concern the main database or the connection alone. -/
def Command.isSetting : Command → Bool
  | attach .. => false
  | detach .. => false
  | statement .. => false
  | _ => true

/-- What commands do to the databases that an engine has attached: a refused one changes nothing,
and an accepted one attaches or detaches exactly the database of that name. -/
structure Engine.Attaches {σ : Type} (engine : Engine σ) (databases : σ → List (Text × Text)) :
    Prop where
  connected : ∀ {path ms s next}, engine.connect path ms s = (.ok (), next) → databases next = []
  refused : ∀ {command s f next}, engine.execute command s = (.error f, next) →
    databases next = databases s
  attached : ∀ {name path s rows next}, engine.execute (.attach name path) s = (.ok rows, next) →
    (∀ d ∈ databases s, Text.sameLetters d.1 name = false) ∧
      databases next = databases s ++ [(name, path)]
  detached : ∀ {name s rows next}, engine.execute (.detach name) s = (.ok rows, next) →
    databases next = (databases s).filter fun d => !Text.sameLetters d.1 name
  kept : ∀ {command s rows next}, command.isSetting = true →
    engine.execute command s = (.ok rows, next) → databases next = databases s

variable {σ : Type} {engine : Engine σ} {databases : σ → List (Text × Text)}

namespace Retry

theorem setTimeout_databases (attaches : engine.Attaches databases) (ms : Nat) (s : σ) :
    databases (setTimeout engine ms s).2 = databases s := by
  rw [setTimeout]
  cases executed : engine.execute (.setBusyTimeout ms) s with
  | mk outcome next =>
    cases outcome with
    | ok rows => exact attaches.kept rfl executed
    | error f => exact attaches.refused executed

theorem setTimeout_succeeds (sets : engine.SetsTimeouts) (ms : Nat) (s : σ) :
    (setTimeout engine ms s).1 = .ok () := by
  obtain ⟨rows, next, executed⟩ := sets.executed ms s
  rw [setTimeout_ok executed]

/-- What the executions of a command leave of the databases: those that fail change nothing, and
one that succeeds is the only one to count. Where the busy timeout cannot be set back, its success
is reported as a failure. -/
inductive Leaves (engine : Engine σ) (databases : σ → List (Text × Text)) (command : Command)
    (s : σ) : Except Error (List Row) × σ → Prop where
  | failed (e : Error) {next : σ} (same : databases next = databases s) :
    Leaves engine databases command s (.error e, next)
  | executed {result : Except Error (List Row)} {rows : List Row} {before after next : σ}
    (same : databases before = databases s)
    (executed : engine.execute command before = (.ok rows, after))
    (left : databases next = databases after)
    (restored : engine.SetsTimeouts → result = .ok rows) :
    Leaves engine databases command s (result, next)

theorem Leaves.congr {command : Command} {s t : σ} {ended : Except Error (List Row) × σ}
    (leaves : Leaves engine databases command t ended) (same : databases t = databases s) :
    Leaves engine databases command s ended := by
  cases leaves with
  | failed e unchanged => exact .failed e (unchanged.trans same)
  | executed before executed left restored =>
    exact .executed (before.trans same) executed left restored

/-- An outcome that ends the execution. -/
theorem attemptFrom_last (attaches : engine.Attaches databases) {command : Command} {left : Nat}
    {s next : σ} {outcome : Except EngineFailure (List Row)}
    (executed : engine.execute command s = (outcome, next))
    (final : ∀ f, outcome = .error f → f.isTransient = true → left = 0) (base attempt : Nat) :
    Leaves engine databases command s (attemptFrom engine base command left attempt s) := by
  cases outcome with
  | ok rows =>
    rw [attemptFrom_ok executed]
    by_cases first : attempt ≤ 1
    · rw [succeed, if_pos first]
      exact .executed rfl executed rfl fun _ => rfl
    · have same := setTimeout_databases attaches base next
      cases set : setTimeout engine base next with
      | mk answer last =>
        rw [set] at same
        rw [succeed, if_neg first, set]
        refine .executed rfl executed same fun sets => ?_
        have restored := setTimeout_succeeds sets base next
        rw [set] at restored
        exact congrArg (Except.map fun _ => rows) restored
  | error f =>
    rw [attemptFrom_failed executed (final f rfl)]
    exact .failed _ (attaches.refused executed)

theorem attemptFrom_leaves (attaches : engine.Attaches databases) (base : Nat) (command : Command)
    (left attempt : Nat) (s : σ) :
    Leaves engine databases command s (attemptFrom engine base command left attempt s) := by
  induction left, attempt, s using attempts_induction engine command with
  | ended left attempt s outcome next executed final =>
    exact attemptFrom_last attaches executed final base attempt
  | retried left attempt s f next executed transient ih =>
    rw [attemptFrom_retried executed transient]
    have same : databases (setTimeout engine (timeoutAfter base attempt) next).2 = databases s :=
      (setTimeout_databases attaches _ next).trans (attaches.refused executed)
    exact (ih _).congr same

end Retry

namespace Session

variable {settings : ConnectionSettings} {s next : Session σ} {name path : Text}

/-- What performing a command leaves of the databases: its success counts even where setting the
busy timeout back makes a failure of it. -/
theorem perform_leaves (attaches : engine.Attaches databases) (command : Command)
    (s : Session σ) :
    ∃ result state, perform engine command s = (result, { s with state := state }) ∧
      ((∃ e, result = .error e ∧ databases state = databases s.state) ∨
        ∃ before rows after, databases before = databases s.state ∧
          engine.execute command before = (.ok rows, after) ∧
          databases state = databases after ∧ (engine.SetsTimeouts → result = .ok ())) := by
  have leaves := Retry.attemptFrom_leaves attaches (Retry.baseTimeout s.settings) command
    (Retry.maxAttempts s.settings - 1) 1 s.state
  cases ended : Retry.attemptFrom engine (Retry.baseTimeout s.settings) command
      (Retry.maxAttempts s.settings - 1) 1 s.state with
  | mk outcome state =>
    have performed : perform engine command s =
        (outcome.map fun _ => (), { s with state := state }) := by
      rw [perform_eq, execute, Retry.run, ended]
    rw [ended] at leaves
    refine ⟨_, state, performed, ?_⟩
    cases leaves with
    | failed e same => exact .inl ⟨e, rfl, same⟩
    | executed before executed left restored =>
      refine .inr ⟨_, _, _, before, executed, left, fun sets => ?_⟩
      rw [restored sets]
      rfl

/-- An engine has attached all that a session lists, in order. -/
def Lists (databases : σ → List (Text × Text)) (s : Session σ) : Prop :=
  s.attached.Sublist (databases s.state)

theorem Lists.attach (attaches : engine.Attaches databases) (lists : Lists databases s)
    (name path : Text) : Lists databases (attach engine name path s).2 := by
  unfold Session.attach
  obtain ⟨result, state, left, failed | ⟨before, rows, after, same, executed, behind, -⟩⟩ :=
    perform_leaves attaches (.attach name path) s
  · obtain ⟨e, rfl, same⟩ := failed
    rw [left]
    exact (same ▸ lists : s.attached.Sublist (databases state))
  · have whole : databases state = databases s.state ++ [(name, path)] := by
      rw [behind, (attaches.attached executed).2, same]
    rw [left]
    cases result with
    | ok _ => exact (whole ▸ lists.append_right _ :
        (s.attached ++ [(name, path)]).Sublist (databases state))
    | error e => exact (whole ▸ lists.trans (List.sublist_append_left _ _) :
        s.attached.Sublist (databases state))

theorem sequence_perform (engine : Engine σ) (commands : List Command) (s : Session σ) :
    ∃ result state, sequence (commands.map (perform engine)) s =
      (result, { s with state := state }) := by
  induction commands generalizing s with
  | nil => exact ⟨.ok (), s.state, rfl⟩
  | cons command commands ih =>
    rw [List.map_cons, sequence, perform_eq]
    cases (execute engine command s).1 with
    | error e => exact ⟨_, _, rfl⟩
    | ok rows => exact ih (execute engine command s).2

theorem Lists.detachAll (s : Session σ) : Lists databases (detachAll engine s).2 := by
  obtain ⟨result, state, done⟩ := sequence_perform engine
    (s.attached.map fun d => .detach d.1) { s with attached := [] }
  rw [List.map_map] at done
  have nothing : (Session.detachAll engine s).2.attached = [] :=
    congrArg (fun p => p.2.attached) done
  rw [Lists, nothing]
  exact List.nil_sublist _

theorem start_lists (attaches : engine.Attaches databases) {attachments : List (Text × Text)}
    {state : σ} (started : start engine settings path attachments state = (.ok (), next)) :
    Lists databases next := by
  obtain ⟨connected, set, timed, -, commanded, applied, attached⟩ := start_ok started
  obtain ⟨result, state, performed⟩ :=
    sequence_perform engine (settingCommands settings) ⟨connected, settings, []⟩
  have unlisted : set.attached = [] :=
    congrArg (fun p => p.2.attached) (commanded.symm.trans performed)
  have same : timed.attached = set.attached := congrArg (fun p => p.2.attached) applied.symm
  have initial : Lists databases timed := by
    rw [Lists, same, unlisted]
    exact List.nil_sublist _
  refine sequence_keeps ?_ initial attached
  intro step member s next lists performed
  obtain ⟨⟨name, path⟩, -, rfl⟩ := List.mem_map.mp member
  have added := lists.attach attaches name path
  have succeeded : Session.attach engine name path s = (.ok (), next) := performed
  rwa [succeeded] at added

/-- No two databases have names that differ in the case of their letters at most. -/
def Distinct (ds : List (Text × Text)) : Prop :=
  ds.Pairwise fun a b => Text.sameLetters a.1 b.1 = false

/-- The engine has what the session has forgotten and then what it lists. -/
structure Listed (databases : σ → List (Text × Text)) (forgotten : List (Text × Text))
    (s : Session σ) : Prop where
  distinct : Distinct (databases s.state)
  databases_eq : databases s.state = forgotten ++ s.attached

variable {forgotten : List (Text × Text)}

theorem Listed.setting (attaches : engine.Attaches databases)
    (listed : Listed databases forgotten s) {command : Command} (setting : command.isSetting = true)
    (performed : perform engine command s = (.ok (), next)) : Listed databases forgotten next := by
  obtain ⟨result, state, left, failed | ⟨before, rows, after, same, executed, behind, -⟩⟩ :=
    perform_leaves attaches command s
  · obtain ⟨e, rfl, -⟩ := failed
    cases left.symm.trans performed
  · cases left.symm.trans performed
    have kept : databases state = databases s.state := by
      rw [behind, attaches.kept setting executed, same]
    exact ⟨kept ▸ listed.distinct, kept.trans listed.databases_eq⟩

/-- An attachment is listed exactly if it is made. -/
theorem Listed.attach (attaches : engine.Attaches databases) (sets : engine.SetsTimeouts)
    (listed : Listed databases forgotten s) (name path : Text) :
    Listed databases forgotten (attach engine name path s).2 := by
  unfold Session.attach
  obtain ⟨result, state, left, failed | ⟨before, rows, after, same, executed, behind, restored⟩⟩ :=
    perform_leaves attaches (.attach name path) s
  · obtain ⟨e, rfl, same⟩ := failed
    rw [left]
    exact ⟨same ▸ listed.distinct, same.trans listed.databases_eq⟩
  · obtain rfl := restored sets
    obtain ⟨fresh, added⟩ := attaches.attached executed
    rw [same] at fresh added
    have whole : databases state = databases s.state ++ [(name, path)] := behind.trans added
    rw [left]
    refine ⟨?_, ?_⟩
    · rw [Distinct, whole, List.pairwise_append]
      exact ⟨listed.distinct, List.pairwise_singleton _ _, fun d member e last =>
        List.mem_singleton.mp last ▸ fresh d member⟩
    · rw [whole, listed.databases_eq, List.append_assoc]

/-- Of databases with distinct names exactly the one that is named is detached. -/
theorem filter_named {d : Text × Text} {ds : List (Text × Text)}
    (distinct : Distinct (forgotten ++ d :: ds)) :
    (forgotten ++ d :: ds).filter (fun e => !Text.sameLetters e.1 d.1) = forgotten ++ ds := by
  obtain ⟨-, behind, before⟩ := List.pairwise_append.mp distinct
  have first : forgotten.filter (fun e => !Text.sameLetters e.1 d.1) = forgotten := by
    rw [List.filter_eq_self]
    intro e member
    rw [before e member d (List.mem_cons_self ..)]
    rfl
  have last : ds.filter (fun e => !Text.sameLetters e.1 d.1) = ds := by
    rw [List.filter_eq_self]
    intro e member
    have other := (List.pairwise_cons.mp behind).1 e member
    rw [Text.sameLetters, Bool.beq_comm] at other
    rw [Text.sameLetters, other]
    rfl
  rw [List.filter_append, List.filter_cons_of_neg (by simp [Text.sameLetters]), first, last]

/-- Detaching databases one by one. Where that stops, the database that was refused and those
behind it stay attached. -/
theorem detach_each (attaches : engine.Attaches databases) (sets : engine.SetsTimeouts)
    (ds : List (Text × Text)) (s : Session σ) (distinct : Distinct (forgotten ++ ds))
    (attached : databases s.state = forgotten ++ ds) :
    ∃ result state kept, sequence (ds.map fun d => perform engine (.detach d.1)) s =
        (result, { s with state := state }) ∧
      databases state = forgotten ++ kept ∧ kept <:+ ds ∧ (kept = [] ↔ result = .ok ()) := by
  induction ds generalizing s with
  | nil => exact ⟨.ok (), s.state, [], rfl, attached, List.suffix_rfl, by simp⟩
  | cons d ds ih =>
    obtain ⟨result, state, left,
        failed | ⟨before, rows, after, same, executed, behind, restored⟩⟩ :=
      perform_leaves attaches (.detach d.1) s
    · obtain ⟨e, rfl, same⟩ := failed
      refine ⟨.error e, state, d :: ds, ?_, same.trans attached, List.suffix_rfl, by simp⟩
      rw [List.map_cons, sequence, left]
    · obtain rfl := restored sets
      have rest : Distinct (forgotten ++ ds) :=
        distinct.sublist (List.Sublist.append_left (List.sublist_cons_self d ds) forgotten)
      have gone : databases state = forgotten ++ ds := by
        rw [behind, attaches.detached executed, same, attached, filter_named distinct]
      obtain ⟨last, final, kept, done, whole, suffix, iff⟩ := ih { s with state := state } rest gone
      refine ⟨last, final, kept, ?_, whole, suffix.trans (List.suffix_cons d ds), iff⟩
      rw [List.map_cons, sequence, left]
      exact done

/-- Detaching all databases lists none of them any more. What it leaves attached is forgotten, and
something is left exactly when it fails. -/
theorem Listed.detachAll (attaches : engine.Attaches databases) (sets : engine.SetsTimeouts)
    (listed : Listed databases forgotten s) :
    ∃ kept, kept <:+ s.attached ∧ (kept = [] ↔ (detachAll engine s).1 = .ok ()) ∧
      Listed databases (forgotten ++ kept) (detachAll engine s).2 := by
  obtain ⟨result, state, kept, done, whole, suffix, iff⟩ := detach_each attaches sets s.attached
    { s with attached := [] } (listed.databases_eq ▸ listed.distinct) listed.databases_eq
  have detached : Session.detachAll engine s =
    (result, { s with attached := [], state := state }) := done
  have fewer : List.Sublist (forgotten ++ kept) (databases s.state) := by
    rw [listed.databases_eq]
    exact List.Sublist.append_left suffix.sublist forgotten
  rw [detached]
  exact ⟨kept, suffix, iff, whole ▸ listed.distinct.sublist fewer,
    whole.trans (List.append_nil _).symm⟩

theorem settingCommands_setting {command : Command} (chosen : command ∈ settingCommands settings) :
    command.isSetting = true := by
  simp only [settingCommands, List.mem_append, List.mem_cons, List.not_mem_nil, or_false] at chosen
  rcases chosen with ((rfl | rfl | rfl) | mmap) | rfl
  case inl.inr =>
    split at mmap
    · cases mmap
    · rw [List.mem_singleton.mp mmap]
      rfl
  all_goals rfl

theorem start_listed (attaches : engine.Attaches databases) (sets : engine.SetsTimeouts)
    {attachments : List (Text × Text)} {state : σ}
    (started : start engine settings path attachments state = (.ok (), next)) :
    Listed databases [] next := by
  obtain ⟨connected, set, timed, opened, commanded, applied, attached⟩ := start_ok started
  have none : databases connected = [] := attaches.connected opened
  have initial : Listed databases [] ⟨connected, settings, []⟩ := ⟨none ▸ .nil, none⟩
  have configured : Listed databases [] set := by
    refine sequence_keeps ?_ initial commanded
    intro step member s next listed performed
    obtain ⟨command, chosen, rfl⟩ := List.mem_map.mp member
    exact listed.setting attaches (settingCommands_setting chosen) performed
  have before : Listed databases [] timed := by
    have same : databases timed.state = databases set.state :=
      (congrArg (fun p => databases p.2.state) applied.symm).trans
        (Retry.setTimeout_databases attaches (Retry.baseTimeout set.settings) set.state)
    have kept : timed.attached = set.attached := congrArg (fun p => p.2.attached) applied.symm
    exact ⟨same ▸ configured.distinct, kept ▸ same.trans configured.databases_eq⟩
  refine sequence_keeps ?_ before attached
  intro step member s next listed performed
  obtain ⟨⟨name, path⟩, -, rfl⟩ := List.mem_map.mp member
  have added := listed.attach attaches sets name path
  have succeeded : attach engine name path s = (.ok (), next) := performed
  rwa [succeeded] at added

/-- A call that changes the attachments of a session. -/
inductive AttachmentCall where
  | attach (name path : Text)
  | detachAll
  deriving DecidableEq, Repr

def callAttachment (engine : Engine σ) (s : Session σ) :
    AttachmentCall → Except Error Unit × Session σ
  | .attach name path => attach engine name path s
  | .detachAll => detachAll engine s

/-- Makes calls one after the other, whether or not they succeed. -/
def manage (engine : Engine σ) :
    List AttachmentCall → Session σ → List (AttachmentCall × Except Error Unit) × Session σ
  | [], s => ([], s)
  | call :: calls, s =>
    let (result, next) := callAttachment engine s call
    let (results, last) := manage engine calls next
    ((call, result) :: results, last)

/-- No call to detach all databases failed. -/
def DetachesAll (results : List (AttachmentCall × Except Error Unit)) : Prop :=
  ∀ r ∈ results, r.1 = .detachAll → r.2 = .ok ()

theorem detachesAll_cons {r : AttachmentCall × Except Error Unit}
    {results : List (AttachmentCall × Except Error Unit)} :
    DetachesAll (r :: results) ↔ (r.1 = .detachAll → r.2 = .ok ()) ∧ DetachesAll results :=
  List.forall_mem_cons

theorem manage_listed (attaches : engine.Attaches databases) (sets : engine.SetsTimeouts)
    (calls : List AttachmentCall) (s : Session σ) (listed : Listed databases forgotten s) :
    ∃ later, Listed databases later (manage engine calls s).2 ∧
      (later = [] ↔ forgotten = [] ∧ DetachesAll (manage engine calls s).1) := by
  induction calls generalizing s forgotten with
  | nil => exact ⟨forgotten, listed, by simp [manage, DetachesAll]⟩
  | cons call calls ih =>
    simp only [manage, detachesAll_cons]
    cases call with
    | attach name path =>
      obtain ⟨later, kept, iff⟩ := ih _ (listed.attach attaches sets name path)
      refine ⟨later, kept, iff.trans ?_⟩
      simp [callAttachment]
    | detachAll =>
      obtain ⟨kept, -, nothing, rest⟩ := listed.detachAll attaches sets
      obtain ⟨later, final, iff⟩ := ih _ rest
      refine ⟨later, final, iff.trans ?_⟩
      rw [List.append_eq_nil_iff, nothing, and_assoc]
      simp [callAttachment]

theorem manage_lists (attaches : engine.Attaches databases) (calls : List AttachmentCall)
    (s : Session σ) (lists : Lists databases s) : Lists databases (manage engine calls s).2 := by
  induction calls generalizing s with
  | nil => exact lists
  | cons call calls ih =>
    cases call with
    | attach name path => exact ih _ (lists.attach attaches name path)
    | detachAll => exact ih _ (.detachAll s)

/-- After an opening and any calls, a session lists only databases that its engine has attached, in
their order. If no setting of a busy timeout fails, it lists the last of them, and all of them
exactly when no call to detach all has failed. -/
theorem manage_attached (attaches : engine.Attaches databases)
    {attachments : List (Text × Text)} {state : σ} {opened : Session σ}
    (started : start engine settings path attachments state = (.ok (), opened))
    (calls : List AttachmentCall) :
    let managed := manage engine calls opened
    managed.2.attached.Sublist (databases managed.2.state) ∧
      (engine.SetsTimeouts →
        managed.2.attached <:+ databases managed.2.state ∧
          (managed.2.attached = databases managed.2.state ↔ DetachesAll managed.1)) := by
  intro managed
  refine ⟨manage_lists attaches calls opened (start_lists attaches started), fun sets => ?_⟩
  obtain ⟨forgotten, listed, iff⟩ := manage_listed attaches sets calls opened
    (start_listed attaches sets started)
  have whole := listed.databases_eq
  refine ⟨⟨forgotten, whole.symm⟩, ?_⟩
  rw [whole, List.self_eq_append_left, iff]
  exact and_iff_right rfl

end Session

/-- An engine of attachments alone, which refuses given commands and names that are in use. -/
def Engine.refusing (refused : List Command) : Engine (List (Text × Text)) where
  connect _ _ _ := (.ok (), [])
  execute command ds :=
    if refused.contains command then (.error ⟨some 1, "refused"⟩, ds)
    else match command with
      | .attach name path =>
        if ds.any fun d => Text.sameLetters d.1 name then (.error ⟨some 1, "in use"⟩, ds)
        else (.ok [], ds ++ [(name, path)])
      | .detach name => (.ok [], ds.filter fun d => !Text.sameLetters d.1 name)
      | _ => (.ok [], ds)

theorem Engine.refusing_attaches (refused : List Command) :
    (Engine.refusing refused).Attaches id where
  connected opened := by
    cases opened
    rfl
  refused {command ds f next} executed := by
    unfold Engine.refusing at executed
    simp only at executed
    split at executed
    · cases executed
      rfl
    · split at executed
      · split at executed <;> cases executed
        rfl
      all_goals cases executed
  attached {name path ds rows next} executed := by
    unfold Engine.refusing at executed
    simp only at executed
    split at executed
    · cases executed
    · split at executed
      · cases executed
      next free =>
        cases executed
        exact ⟨by simpa using free, rfl⟩
  detached {name ds rows next} executed := by
    unfold Engine.refusing at executed
    simp only at executed
    split at executed <;> cases executed
    rfl
  kept {command ds rows next} setting executed := by
    unfold Engine.refusing at executed
    simp only at executed
    split at executed
    · cases executed
    · cases command <;> cases setting <;> cases executed <;> rfl

theorem Engine.refusing_setsTimeouts : (Engine.refusing [.detach "b"]).SetsTimeouts :=
  fun _ _ => ⟨[], rfl⟩

namespace Session

/-- The second of three databases cannot be detached, and then one more is attached. -/
theorem refusing_attached :
    let engine := Engine.refusing [.detach "b"]
    let attachments : List (Text × Text) := [("a", "a.db"), ("b", "b.db"), ("c", "c.db")]
    let opened := (start engine .standard "app.db" attachments []).2
    let managed := manage engine [.detachAll, .attach "d" "d.db"] opened
    (start engine .standard "app.db" attachments []).1 = .ok () ∧
      managed.2.state.map Prod.fst = ["b", "c", "d"] ∧ managed.2.attached.map Prod.fst = ["d"] ∧
      managed.2.attached.Sublist managed.2.state ∧ managed.2.attached <:+ managed.2.state ∧
      (managed.2.attached = managed.2.state ↔ DetachesAll managed.1) := by
  intro engine attachments opened managed
  have succeeded : (start engine .standard "app.db" attachments []).1 = .ok () := by
    decide +kernel
  have started : start engine .standard "app.db" attachments [] = (.ok (), opened) :=
    Prod.ext succeeded rfl
  have kept : managed.2.state.map Prod.fst = ["b", "c", "d"] := by decide +kernel
  have listed : managed.2.attached.map Prod.fst = ["d"] := by decide +kernel
  obtain ⟨ordered, exactly⟩ := manage_attached (Engine.refusing_attaches _) started
    [.detachAll, .attach "d" "d.db"]
  exact ⟨succeeded, kept, listed, ordered, exactly Engine.refusing_setsTimeouts⟩

/-- In a transaction no database can be detached: the session lists none of two that stay. -/
theorem held_databases_forgotten :
    let engine := MemoryEngine.engine
    let attachments : List (Text × Text) := [("a", ":memory:"), ("b", ":memory:")]
    let fresh := MemoryEngine.fresh [("app.db", .absent)]
    let opened := (start engine .standard "app.db" attachments fresh).2
    let begun := ((database engine).read "PRAGMA foreign_keys; BEGIN IMMEDIATE" opened).2
    let managed := manage engine [.detachAll] begun
    begun.attached = attachments ∧ managed.2.attached = [] ∧
      managed.2.state.attached.map Prod.fst = ["a", "b"] := by
  decide +kernel

end Session
end QueryWeaver
