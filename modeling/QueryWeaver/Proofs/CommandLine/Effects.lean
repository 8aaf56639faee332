import QueryWeaver.Proofs.CommandLine.Recorded
/-!
The changes that a run of the command line makes, in their order. A run has a session with its
databases, then it copies the source and the header, and then it writes what it generated, as far as
the machine lets it come.
-/

namespace QueryWeaver

namespace CommandLine

open Recorded (Reaches)
open Conditions (Follows Quiet trial)

variable {σ : Type} {conditions : Conditions σ} {r next : Recorded} {o : Options}

/-- The writes of a text that is new. -/
def changed (path old new : Text) : List Change := if old ≠ new then [.wrote path new] else []

/-- What a run that is not dry read and generated, and the times of its backups. -/
structure Draft where
  source : Text
  header : Text
  output : Generation.Output
  sourceStamp : TimeStamp
  headerStamp : TimeStamp

namespace Draft

def sourceBackup (d : Draft) (o : Options) : Text := backupPath o.source d.sourceStamp.text

def headerBackup (d : Draft) (o : Options) : Text := backupPath (headerPath o) d.headerStamp.text

/-- The changes that save a run. -/
def saving (d : Draft) (o : Options) : List Change :=
  [.copied o.source (d.sourceBackup o)] ++ ([.copied (headerPath o) (d.headerBackup o)] ++
    (changed o.source d.source d.output.source ++
      changed (headerPath o) d.header d.output.header))

end Draft

theorem trial_orFail {α : Type} (context : Text) (step : StateM Recorded (Except Text α))
    (r : Recorded) :
    trial (orFail context step) r =
      ((step.run r).1.mapError fun cause => context ++ ": " ++ cause, (step.run r).2) := rfl

theorem orFail_make (context : Text) (change : Change) (r : Recorded) :
    Follows conditions [change] r (trial (orFail context (conditions.make change)) r) := by
  rw [trial_orFail]
  rcases Conditions.make_cases conditions change r with
    ⟨cause, done, next, made, part, reaches⟩ | ⟨next, made, reaches⟩
  · rw [made]
    exact .part _ part reaches
  · rw [made]
    exact .whole () reaches

theorem backup_follows (path : Text) (r : Recorded) :
    Follows conditions [.copied path (backupPath path (conditions.stamp r.taken).text)] r
      (trial (backup conditions.host path) r) := by
  let target := backupPath path (conditions.stamp r.taken).text
  have stamped : trial (backup conditions.host path) r =
      trial (orFail ("cannot back up " ++ path ++ " to " ++ target)
        (conditions.make (.copied path target))) r.pass := rfl
  rw [stamped]
  exact (orFail_make _ _ r.pass).behind (Recorded.pass_reaches r)

theorem writeIfChanged_follows (path old new : Text) (r : Recorded) :
    Follows conditions (changed path old new) r
      (trial (writeIfChanged conditions.host path old new) r) := by
  unfold changed writeIfChanged
  split
  · exact orFail_make _ _ r
  · exact .whole () (.nil r rfl rfl)

theorem save_follows (conditions : Conditions σ) (o : Options) (source header : Text)
    (output : Generation.Output) (r : Recorded) :
    ∃ d : Draft, d.source = source ∧ d.header = header ∧ d.output = output ∧
      (∃ n, d.sourceStamp = conditions.stamp n) ∧ (∃ n, d.headerStamp = conditions.stamp n) ∧
      Follows conditions (d.saving o) r
        (trial (save conditions.host o source header output) r) := by
  let behind := (trial (backup conditions.host o.source) r).2
  refine ⟨⟨source, header, output, conditions.stamp r.taken, conditions.stamp behind.taken⟩,
    rfl, rfl, rfl, ⟨_, rfl⟩, ⟨_, rfl⟩, ?_⟩
  refine (backup_follows o.source r).bind fun _ next tried => ?_
  have reached : behind = next := congrArg Prod.snd tried
  rw [reached]
  refine (backup_follows (headerPath o) next).bind fun _ last _ => ?_
  exact (writeIfChanged_follows _ _ _ last).bind fun _ _ _ => writeIfChanged_follows _ _ _ _

/-- What a run generates from texts in a session that begins with a store, and the state in which
the session ends. -/
def generated (conditions : Conditions σ) (files : FileStore) (settings : Settings) (o : Options)
    (attachments : List (Text × Text)) (source header : Text) :
    Except Error Generation.Output × σ :=
  generate conditions.engine
    (conditions.beginSession files o.database (attachments.map Prod.snd)) settings o attachments
    source header

/-- What a run reads in a store and generates from it. -/
structure Draft.Of (d : Draft) (conditions : Conditions σ) (files : FileStore)
    (settings : Settings) (o : Options) (attachments : List (Text × Text)) : Prop where
  source_read : files.read o.source = .ok d.source
  header_read : files.read (headerPath o) = .ok d.header
  generated :
    (generated conditions files settings o attachments d.source d.header).1 = .ok d.output
  source_stamped : ∃ n, d.sourceStamp = conditions.stamp n
  header_stamped : ∃ n, d.headerStamp = conditions.stamp n

/-- The files as the session of a run leaves them that read both texts. -/
def Ended (conditions : Conditions σ) (files : FileStore) (settings : Settings) (o : Options)
    (attachments : List (Text × Text)) (left : FileStore) : Prop :=
  ∃ source header, files.read o.source = .ok source ∧ files.read (headerPath o) = .ok header ∧
    left = conditions.endSession files
      (generated conditions files settings o attachments source header).2

/-- The changes of a run in their order: it has its session, and unless it is dry it then saves what
it generated, as far as it comes. -/
inductive Effects (conditions : Conditions σ) (files : FileStore) (settings : Settings)
    (o : Options) (attachments : List (Text × Text)) : List Change → Prop
  | unread : Effects conditions files settings o attachments []
  | session {left : FileStore} (ended : Ended conditions files settings o attachments left) :
    Effects conditions files settings o attachments [.session left]
  | saved {left : FileStore} {d : Draft} {saved : List Change}
    (ended : Ended conditions files settings o attachments left)
    (draft : d.Of conditions files settings o attachments) (wet : o.dryRun = false)
    (part : conditions.Partial (d.saving o) saved) :
    Effects conditions files settings o attachments (.session left :: saved)

theorem readInput_cases (conditions : Conditions σ) (path : Text) (r : Recorded) :
    (∃ cause, trial (readInput conditions.host path) r = (.error cause, r.pass)) ∨
      ∃ text, r.files.read path = .ok text ∧
        trial (readInput conditions.host path) r = (.ok text, r.pass) := by
  rw [readInput, trial_orFail]
  have looked := Conditions.look_cases conditions Except.error
    (fun s => (s.read path).mapError FileFault.message) r
  change (conditions.host.readFile path).run r = _ ∨
    ∃ cause, (conditions.host.readFile path).run r = _ at looked
  rcases looked with seen | ⟨cause, failed⟩
  · rw [seen]
    cases read : r.files.read path with
    | error fault => exact .inl ⟨_, rfl⟩
    | ok text => exact .inr ⟨text, rfl, rfl⟩
  · rw [failed]
    exact .inl ⟨_, rfl⟩

theorem session_reaches (conditions : Conditions σ) (state : σ) (r : Recorded) :
    Reaches r [.session (conditions.endSession r.files state)]
      ((conditions.host.endSession state).run r).2 :=
  ⟨rfl, rfl⟩

theorem perform_effects (conditions : Conditions σ) (o : Options) (settings : Settings)
    (attachments : List (Text × Text)) (r : Recorded) :
    ∃ changes, Effects conditions r.files settings o attachments changes ∧
      Reaches r changes (trial (perform conditions.host settings o attachments) r).2 := by
  unfold perform
  have quiet := Recorded.pass_reaches r
  rcases readInput_cases conditions o.source r with ⟨cause, failed⟩ | ⟨source, read, tried⟩
  · rw [Conditions.trial_bind_error failed]
    exact ⟨[], .unread, quiet⟩
  rw [Conditions.trial_bind_ok tried]
  have quiet := quiet.trans (Recorded.pass_reaches r.pass)
  rcases readInput_cases conditions (headerPath o) r.pass with
    ⟨cause, failed⟩ | ⟨header, read', tried⟩
  · rw [Conditions.trial_bind_error failed]
    exact ⟨[], .unread, quiet⟩
  rw [Conditions.trial_bind_ok tried, Conditions.trial_bind_ok (Conditions.trial_lift ..)]
  have quiet := quiet.trans (Recorded.pass_reaches r.pass.pass)
  have begun : (conditions.host.beginSession o.database (attachments.map Prod.snd)).run
      r.pass.pass = (conditions.beginSession r.files o.database (attachments.map Prod.snd),
        r.pass.pass.pass) := rfl
  rw [begun]
  cases known : generated conditions r.files settings o attachments source header with
  | mk result state =>
    have ended : Ended conditions r.files settings o attachments
        (conditions.endSession r.files state) := ⟨source, header, read, read', by rw [known]⟩
    have generates : generate conditions.host.engine
        (conditions.beginSession r.files o.database (attachments.map Prod.snd)) settings o
        attachments source header = (result, state) := known
    simp only [generates]
    have made := quiet.trans (session_reaches conditions state r.pass.pass.pass)
    rw [Conditions.trial_bind_ok (Conditions.trial_lift ..)]
    generalize ((conditions.host.endSession state).run r.pass.pass.pass).2 = next at made ⊢
    cases result with
    | error e => exact ⟨_, .session ended, made⟩
    | ok output =>
      cases dry : o.dryRun with
      | true => exact ⟨_, .session ended, made⟩
      | false =>
        obtain ⟨d, rfl, rfl, rfl, stamped, stamped', follows⟩ :=
          save_follows conditions o source header output next
        have reported (last : Recorded) :
            Follows conditions [] last (trial (pure d.output.report) last) :=
          .whole _ (.nil last rfl rfl)
        have ends := follows.bind fun _ last _ => reported last
        rw [List.append_nil] at ends
        obtain ⟨saved, part, reaches⟩ := ends.reaches
        have draft : d.Of conditions r.files settings o attachments :=
          ⟨read, read', congrArg Prod.fst known, stamped, stamped'⟩
        exact ⟨_, .saved ended draft dry part, made.trans reaches⟩

/-- The settings and the attachments of a run from a store. -/
structure Prepared (conditions : Conditions σ) (files : FileStore) (o : Options) (settings : Settings)
    (attachments : List (Text × Text)) : Prop where
  paired : pairs? o.attach = some attachments
  loaded : ((conditions.host.loadSettings o.config).run (.begin files)).1 = .ok settings

/-- A run changes nothing, or it was prepared and its changes are those of its performance. -/
inductive Runs (conditions : Conditions σ) (files : FileStore) (o : Options) : List Change → Prop
  | unprepared : Runs conditions files o []
  | prepared {settings : Settings} {attachments : List (Text × Text)} {changes : List Change}
    (prepared : Prepared conditions files o settings attachments)
    (effects : Effects conditions files settings o attachments changes) :
    Runs conditions files o changes

theorem run_reaches (conditions : Conditions σ) (o : Options) (files : FileStore) :
    ∃ changes, Runs conditions files o changes ∧
      Reaches (.begin files) changes ((run conditions.host o).run (.begin files)).2 := by
  unfold run
  cases paired : pairs? o.attach with
  | none => exact ⟨[], .unprepared, .nil _ rfl rfl⟩
  | some attachments =>
    simp only
    rw [Conditions.run_bind]
    have quiet := Conditions.quiet_loadSettings conditions o.config (.begin files)
    cases loaded : (conditions.host.loadSettings o.config).run (.begin files) with
    | mk result r =>
      rw [loaded] at quiet
      cases result with
      | error e => exact ⟨[], .unprepared, quiet⟩
      | ok settings =>
        simp only
        rw [Conditions.run_bind]
        obtain ⟨changes, effects, reaches⟩ :=
          perform_effects conditions o settings attachments r
        rw [quiet.files_eq] at effects
        refine ⟨changes, .prepared ⟨paired, congrArg Prod.fst loaded⟩ effects, ?_⟩
        rw [trial] at reaches
        generalize (perform conditions.host settings o attachments).run.run r = e at reaches ⊢
        rcases e with ⟨_ | _, last⟩ <;> exact quiet.trans reaches

theorem run_changes (conditions : Conditions σ) (o : Options) (files : FileStore) :
    let recorded := ((run conditions.host o).run (.begin files)).2
    Runs conditions files o recorded.changes ∧
      Change.replay recorded.changes files = .ok recorded.files := by
  obtain ⟨changes, runs, reaches⟩ := run_reaches conditions o files
  obtain rfl : _ = changes := reaches.changes_eq
  exact ⟨runs, reaches.replayed⟩

end CommandLine
end QueryWeaver
