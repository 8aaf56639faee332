import QueryWeaver.Proofs.CommandLine.Saving
/-!
Runs without failures. A machine that keeps a record of its changes then does what a file store does
that keeps none.
-/

namespace QueryWeaver

theorem FileStore.write_stamp {s next : FileStore} {path text : Text}
    (written : s.write path text = .ok next) : next.stamp = s.stamp := by
  obtain ⟨k, -, rfl⟩ := write_ok written
  rfl

theorem FileStore.copy_stamp {s next : FileStore} {path target : Text}
    (copied : s.copy path target = .ok next) : next.stamp = s.stamp := by
  obtain ⟨text, -, written⟩ := copy_ok copied
  exact write_stamp written

theorem FileStore.endSession_stamp (s : FileStore) (left : MemoryEngine) :
    (s.endSession left).stamp = s.stamp := by
  unfold endSession
  induction left.opened generalizing s with
  | nil => rfl
  | cons path opened ih =>
    rw [List.foldl_cons, ih]
    rcases createDatabase_eq s path with same | ⟨k, made, -⟩
    · rw [same]
    · rw [made]
      rfl

namespace Conditions

/-- Computations with and without a record: the same result, and the same files. -/
def Mirrors {α : Type} (stamp : TimeStamp) (p : StateM Recorded α) (q : StateM FileStore α) :
    Prop :=
  ∀ r : Recorded, r.files.stamp = stamp.text →
    (p.run r).1 = (q.run r.files).1 ∧ (p.run r).2.files = (q.run r.files).2 ∧
      (p.run r).2.files.stamp = stamp.text

variable {α β : Type} {stamp : TimeStamp}

theorem Mirrors.pure (a : α) : Mirrors stamp (pure a) (pure a) := fun _ stamped =>
  ⟨rfl, rfl, stamped⟩

theorem Mirrors.bind {p : StateM Recorded α} {q : StateM FileStore α}
    {f : α → StateM Recorded β} {g : α → StateM FileStore β} (first : Mirrors stamp p q)
    (rest : ∀ a, Mirrors stamp (f a) (g a)) : Mirrors stamp (p >>= f) (q >>= g) := by
  intro r stamped
  obtain ⟨same, files, kept⟩ := first r stamped
  have behind := rest (p.run r).1 (p.run r).2 kept
  rw [files, same] at behind
  have bound : (p >>= f).run r = (f (q.run r.files).1).run (p.run r).2 := by rw [run_bind, same]
  rw [bound]
  exact behind

/-- The same of computations that may fail. -/
def MirrorsTrial {α : Type} (stamp : TimeStamp) (p : ExceptT Text (StateM Recorded) α)
    (q : ExceptT Text (StateM FileStore) α) : Prop := Mirrors stamp p.run q.run

theorem MirrorsTrial.pure (a : α) : MirrorsTrial stamp (pure a) (pure a) :=
  Mirrors.pure (Except.ok a)

theorem MirrorsTrial.bind {p : ExceptT Text (StateM Recorded) α}
    {q : ExceptT Text (StateM FileStore) α} {f : α → ExceptT Text (StateM Recorded) β}
    {g : α → ExceptT Text (StateM FileStore) β} (first : MirrorsTrial stamp p q)
    (rest : ∀ a, MirrorsTrial stamp (f a) (g a)) : MirrorsTrial stamp (p >>= f) (q >>= g) := by
  have continued (result : Except Text α) :
      Mirrors stamp (ExceptT.bindCont f result) (ExceptT.bindCont g result) := by
    cases result with
    | error cause => exact .pure _
    | ok a => exact rest a
  exact Mirrors.bind first continued

theorem MirrorsTrial.lift {p : StateM Recorded α} {q : StateM FileStore α}
    (mirrors : Mirrors stamp p q) : MirrorsTrial stamp (ExceptT.lift p) (ExceptT.lift q) :=
  Mirrors.bind mirrors fun a => .pure (Except.ok a)

theorem look_mirrors (failed : Text → α) (seen : FileStore → α) :
    Mirrors stamp ((steady stamp).look failed seen) (do return seen (← get)) :=
  fun _ stamped => ⟨rfl, rfl, stamped⟩

theorem make_mirrors (change : Change)
    (kept : ∀ s next, change.apply s = .ok next → next.stamp = s.stamp) :
    Mirrors stamp ((steady stamp).make change) (FileStore.update change.apply) := by
  intro r stamped
  have made : ((steady stamp).make change).run r = r.change change := rfl
  rw [made, Recorded.change]
  cases applied : change.apply r.files with
  | error fault =>
    have updated : (FileStore.update change.apply).run r.files =
        (.error fault.message, r.files) := by
      simp only [FileStore.update, StateT.run_bind, StateT.run_get, pure_bind, applied]
      rfl
    rw [updated]
    exact ⟨rfl, rfl, stamped⟩
  | ok next =>
    have updated : (FileStore.update change.apply).run r.files = (.ok (), next) := by
      simp only [FileStore.update, StateT.run_bind, StateT.run_get, pure_bind, applied]
      rfl
    rw [updated]
    exact ⟨rfl, rfl, (kept r.files next applied).trans stamped⟩

theorem beginSession_mirrors (database : Text) (attached : List Text) :
    Mirrors stamp ((steady stamp).host.beginSession database attached)
      (FileStore.host.beginSession database attached) :=
  fun _ stamped => ⟨rfl, rfl, stamped⟩

theorem endSession_mirrors (left : MemoryEngine) :
    Mirrors stamp ((steady stamp).host.endSession left) (FileStore.host.endSession left) :=
  fun r stamped => ⟨rfl, rfl, (r.files.endSession_stamp left).trans stamped⟩

theorem settingsFrom_mirrors (path : Text) :
    Mirrors stamp ((steady stamp).host.settingsFrom path) (FileStore.host.settingsFrom path) := by
  refine .bind (look_mirrors _ _) fun document => ?_
  cases document with
  | error cause => exact .pure _
  | ok document =>
    simp only
    split <;> exact .pure _

theorem loadSettings_mirrors (explicit : Option Text) :
    Mirrors stamp ((steady stamp).host.loadSettings explicit)
      (FileStore.host.loadSettings explicit) := by
  cases explicit with
  | some path => exact settingsFrom_mirrors path
  | none =>
    refine .bind (look_mirrors _ _) fun here => ?_
    split
    · exact settingsFrom_mirrors _
    · refine .bind (look_mirrors (fun _ => none) fun s => s.userSettings) fun user? => ?_
      cases user? with
      | none => exact .pure _
      | some path =>
        refine .bind (look_mirrors _ _) fun there => ?_
        split
        · exact settingsFrom_mirrors path
        · exact .pure _

end Conditions

namespace CommandLine

open Conditions (Mirrors MirrorsTrial steady)

variable {stamp : TimeStamp}

theorem orFail_mirrors {α : Type} {p : StateM Recorded (Except Text α)}
    {q : StateM FileStore (Except Text α)} (context : Text) (mirrors : Mirrors stamp p q) :
    MirrorsTrial stamp (orFail context p) (orFail context q) :=
  Mirrors.bind mirrors fun _ => .pure _

theorem timeStamp_mirrors :
    Mirrors stamp (steady stamp).host.timeStamp FileStore.host.timeStamp :=
  fun _ stamped => ⟨stamped.symm, rfl, stamped⟩

theorem backup_mirrors (path : Text) :
    MirrorsTrial stamp (backup (steady stamp).host path) (backup FileStore.host path) :=
  .bind (.lift timeStamp_mirrors) fun _ => orFail_mirrors _ <|
    Conditions.make_mirrors _ fun _ _ copied => FileStore.copy_stamp copied

theorem writeIfChanged_mirrors (path old new : Text) :
    MirrorsTrial stamp (writeIfChanged (steady stamp).host path old new)
      (writeIfChanged FileStore.host path old new) := by
  unfold writeIfChanged
  split
  · exact orFail_mirrors _ <|
      Conditions.make_mirrors (.wrote path new) fun _ _ written => FileStore.write_stamp written
  · exact .pure ()

theorem save_mirrors (o : Options) (source header : Text) (output : Generation.Output) :
    MirrorsTrial stamp (save (steady stamp).host o source header output)
      (save FileStore.host o source header output) :=
  .bind (backup_mirrors _) fun _ => .bind (backup_mirrors _) fun _ =>
    .bind (writeIfChanged_mirrors _ _ _) fun _ => writeIfChanged_mirrors _ _ _

theorem perform_mirrors (settings : Settings) (o : Options) (attachments : List (Text × Text)) :
    MirrorsTrial stamp (perform (steady stamp).host settings o attachments)
      (perform FileStore.host settings o attachments) := by
  unfold perform
  refine .bind (orFail_mirrors _ (Conditions.look_mirrors _ _)) fun source => ?_
  refine .bind (orFail_mirrors _ (Conditions.look_mirrors _ _)) fun header => ?_
  refine .bind (.lift (Conditions.beginSession_mirrors _ _)) fun start => ?_
  have recorded : (steady stamp).host.engine = MemoryEngine.engine := rfl
  have stored : FileStore.host.engine = MemoryEngine.engine := rfl
  rw [recorded, stored]
  obtain ⟨result, left⟩ := generate MemoryEngine.engine start settings o attachments source header
  refine .bind (.lift (Conditions.endSession_mirrors left)) fun _ => ?_
  cases result with
  | error e => exact Mirrors.pure (Except.error e.message)
  | ok output =>
    cases o.dryRun with
    | true => exact MirrorsTrial.pure output.report
    | false => exact .bind (save_mirrors o source header output) fun _ => .pure output.report

/-- A steady run prints what a run on the file store prints, and leaves the same files. -/
theorem run_steady (o : Options) (files : FileStore) (stamped : files.stamp = stamp.text) :
    let recorded := (run (steady stamp).host o).run (.begin files)
    recorded.1 = ((run FileStore.host o).run files).1 ∧
      recorded.2.files = ((run FileStore.host o).run files).2 := by
  have mirrors : Mirrors stamp (run (steady stamp).host o) (run FileStore.host o) := by
    unfold run
    cases pairs? o.attach with
    | none => exact .pure _
    | some attachments =>
      refine .bind (Conditions.loadSettings_mirrors o.config) fun loaded => ?_
      cases loaded with
      | error e => exact .pure _
      | ok settings =>
        refine .bind (perform_mirrors settings o attachments) fun performed => ?_
        cases performed <;> exact .pure _
  obtain ⟨outcome, left, -⟩ := mirrors (.begin files) stamped
  exact ⟨outcome, left⟩

end CommandLine
end QueryWeaver
