import QueryWeaver.CommandLine.Run
import QueryWeaver.Proofs.CommandLine.Places
/-!
A machine for the command line that keeps its files in a store, puts down every change to them, and
works with any database engine. Each of its steps may fail, and a copy or a write that fails may
leave any text behind.
-/

namespace QueryWeaver

deriving instance DecidableEq for Dictionary, FileStore

/-- A change that a run of the command line makes to its files. -/
inductive Change where
  /-- A session with databases leaves the files so. -/
  | session (left : FileStore)
  | copied (path target : Text)
  | wrote (path text : Text)
  /-- A copy or a write to the path fails and leaves a text there. -/
  | broke (path text : Text)
  deriving DecidableEq

namespace Change

def apply : Change → FileStore → Except FileFault FileStore
  | session left, _ => .ok left
  | copied path target, s => s.copy path target
  | wrote path text, s => s.write path text
  | broke path text, s => s.write path text

/-- What becomes of a copy or a write that fails and leaves a text. -/
def broken? : Change → Text → Option Change
  | session _, _ => none
  | copied _ target, text => some (broke target text)
  | wrote path _, text => some (broke path text)
  | broke _ _, _ => none

def replay (changes : List Change) (s : FileStore) : Except FileFault FileStore :=
  changes.foldlM (fun s change => change.apply s) s

theorem replay_cons_ok {change : Change} {changes : List Change} {s last : FileStore} :
    replay (change :: changes) s = .ok last ↔
      ∃ next, change.apply s = .ok next ∧ replay changes next = .ok last := by
  rw [replay, List.foldlM_cons]
  cases change.apply s with
  | error fault => exact iff_of_false (fun h => nomatch h) fun ⟨_, h, _⟩ => nomatch h
  | ok next =>
    simp only [Except.ok.injEq, exists_eq_left']
    rfl

theorem replay_append_ok {changes later : List Change} {s last : FileStore} :
    replay (changes ++ later) s = .ok last ↔
      ∃ next, replay changes s = .ok next ∧ replay later next = .ok last := by
  induction changes generalizing s with
  | nil => simp [replay, pure, Except.pure]
  | cons change changes ih =>
    simp only [List.cons_append, replay_cons_ok, ih]
    constructor
    · rintro ⟨first, applied, next, rest, ends⟩
      exact ⟨next, ⟨first, applied, rest⟩, ends⟩
    · rintro ⟨next, ⟨first, applied, rest⟩, ends⟩
      exact ⟨first, applied, next, rest, ends⟩

/-- Every change that is made when changes are replayed is as `P` says, from before to after. -/
def Each (P : FileStore → Change → FileStore → Prop) : List Change → FileStore → Prop
  | [], _ => True
  | change :: changes, s =>
    ∀ next, change.apply s = .ok next → P s change next ∧ Each P changes next

variable {P : FileStore → Change → FileStore → Prop} {changes done rest : List Change}
  {change : Change} {s before after : FileStore}

theorem Each.mono {Q : FileStore → Change → FileStore → Prop} (each : Each P changes s)
    (weaker : ∀ before change after, P before change after → Q before change after) :
    Each Q changes s := by
  induction changes generalizing s with
  | nil => trivial
  | cons change changes ih =>
    intro next applied
    obtain ⟨here, more⟩ := each next applied
    exact ⟨weaker s change next here, ih more⟩

theorem Each.step (each : Each P (done ++ change :: rest) s) (reached : replay done s = .ok before)
    (applied : change.apply before = .ok after) : P before change after := by
  induction done generalizing s with
  | nil =>
    cases reached
    exact (each after applied).1
  | cons first done ih =>
    obtain ⟨next, made, behind⟩ := replay_cons_ok.mp reached
    exact ih (each next made).2 behind

end Change

/-- The eight digits of a day, a dash, and the six digits of a time. -/
structure TimeStamp where
  text : Text
  length_eq : text.length = 15
  plain : ∀ c ∈ text, c.isDigit = true ∨ c = '-'

structure Recorded where
  files : FileStore
  /-- How many steps were taken. -/
  taken : Nat
  changes : List Change

namespace Recorded

def begin (files : FileStore) : Recorded := ⟨files, 0, []⟩

def pass (r : Recorded) : Recorded := { r with taken := r.taken + 1 }

/-- Makes a change and puts it down. -/
def change (c : Change) (r : Recorded) : Except Text Unit × Recorded :=
  match c.apply r.files with
  | .ok files => (.ok (), ⟨files, r.taken + 1, r.changes ++ [c]⟩)
  | .error fault => (.error fault.message, r.pass)

/-- From one record to another by given changes. -/
structure Reaches (r : Recorded) (changes : List Change) (next : Recorded) : Prop where
  changes_eq : next.changes = r.changes ++ changes
  replayed : Change.replay changes r.files = .ok next.files

variable {r next last : Recorded} {changes later : List Change}

theorem Reaches.trans (first : Reaches r changes next) (second : Reaches next later last) :
    Reaches r (changes ++ later) last :=
  ⟨by rw [second.changes_eq, first.changes_eq, List.append_assoc],
    Change.replay_append_ok.mpr ⟨next.files, first.replayed, second.replayed⟩⟩

theorem Reaches.nil {r : Recorded} (r' : Recorded) (files : r'.files = r.files)
    (changes : r'.changes = r.changes) : Reaches r [] r' :=
  ⟨by rw [changes, List.append_nil], by rw [files]; rfl⟩

theorem Reaches.files_eq (reaches : Reaches r [] next) : next.files = r.files :=
  (Except.ok.inj reaches.replayed).symm

theorem pass_reaches (r : Recorded) : Reaches r [] r.pass := .nil r.pass rfl rfl

theorem change_cases (c : Change) (r : Recorded) :
    (∃ cause, r.change c = (.error cause, r.pass)) ∨
      ∃ next, r.change c = (.ok (), next) ∧ Reaches r [c] next := by
  unfold change
  cases applied : c.apply r.files with
  | error fault => exact .inl ⟨fault.message, rfl⟩
  | ok files => exact .inr ⟨_, rfl, rfl, Change.replay_cons_ok.mpr ⟨files, applied, rfl⟩⟩

end Recorded

/-- Why a step fails, and what it leaves if it is a copy or a write that fails halfway. -/
structure Fault where
  cause : Text
  left? : Option Text

/-- The engine that a run works with, and how the steps of the run go, by their number. -/
structure Conditions (σ : Type) where
  engine : Engine σ
  /-- The state of the engine before a session with a database, and with others attached to it. -/
  beginSession : FileStore → Text → List Text → σ
  /-- The files as a session leaves them. -/
  endSession : FileStore → σ → FileStore
  /-- The failure of a step that could have been taken. -/
  fault? : Nat → Option Fault
  stamp : Nat → TimeStamp

namespace Conditions

open Recorded (Reaches)

variable {σ : Type}

/-- A step that changes nothing. -/
def look {α : Type} (conditions : Conditions σ) (failed : Text → α) (seen : FileStore → α) :
    StateM Recorded α :=
  fun r => ((conditions.fault? r.taken).elim (seen r.files) fun fault => failed fault.cause, r.pass)

/-- A step that makes a change. -/
def make (conditions : Conditions σ) (change : Change) :
    StateM Recorded (Except Text Unit) :=
  fun r =>
    match conditions.fault? r.taken with
    | none => r.change change
    | some fault =>
      match fault.left?.bind change.broken? with
      | none => (.error fault.cause, r.pass)
      | some broken => (.error fault.cause, (r.change broken).2)

def host (conditions : Conditions σ) : Host (StateM Recorded) σ where
  readFile path := conditions.look .error fun s => (s.read path).mapError FileFault.message
  isFile path := conditions.look (fun _ => false) fun s => s.isFile path
  writeFile path text := conditions.make (.wrote path text)
  copyFile path target := conditions.make (.copied path target)
  userSettings := conditions.look (fun _ => none) fun s => s.userSettings
  timeStamp := fun r => ((conditions.stamp r.taken).text, r.pass)
  engine := conditions.engine
  beginSession database attached :=
    fun r => (conditions.beginSession r.files database attached, r.pass)
  endSession left := fun r => ((), (r.change (.session (conditions.endSession r.files left))).2)

variable {conditions : Conditions σ} {r : Recorded}

/-- A copy or a write may fail and leave the text. -/
def Breaks (conditions : Conditions σ) (text : Text) : Prop :=
  ∃ n fault, conditions.fault? n = some fault ∧ fault.left? = some text

/-- What is done of a plan that is not carried through: its changes up to one that is not made, or
that breaks. -/
inductive Partial (conditions : Conditions σ) : List Change → List Change → Prop
  | stop (plan : List Change) : Partial conditions plan []
  | step (change : Change) {plan done : List Change} (rest : Partial conditions plan done) :
    Partial conditions (change :: plan) (change :: done)
  | break {change broken : Change} {text : Text} (plan : List Change)
    (breaks : conditions.Breaks text) (half : change.broken? text = some broken) :
    Partial conditions (change :: plan) [broken]

theorem Partial.append {plan done : List Change} (part : Partial conditions plan done)
    (later : List Change) : Partial conditions (plan ++ later) done := by
  induction part with
  | stop plan => exact .stop _
  | step change _ ih => exact .step change ih
  | «break» plan breaks half => exact .break _ breaks half

theorem Partial.behind (plan : List Change) {later done : List Change}
    (part : Partial conditions later done) : Partial conditions (plan ++ later) (plan ++ done) := by
  induction plan with
  | nil => exact part
  | cons change plan ih => exact .step change ih

theorem Partial.whole (plan : List Change) : Partial conditions plan plan := by
  simpa using (Partial.stop []).behind plan

/-- What a plan does in a store is as `P` says, each change as it is planned or broken. -/
def Safe (conditions : Conditions σ) (P : FileStore → Change → FileStore → Prop) :
    List Change → FileStore → Prop
  | [], _ => True
  | change :: plan, s =>
    (∀ next, change.apply s = .ok next → P s change next ∧ Safe conditions P plan next) ∧
      ∀ text broken next, conditions.Breaks text → change.broken? text = some broken →
        broken.apply s = .ok next → P s broken next

variable {P : FileStore → Change → FileStore → Prop} {plan later done : List Change}
  {s : FileStore}

theorem Safe.append (safe : Safe conditions P plan s)
    (behind : ∀ next, Change.replay plan s = .ok next → Safe conditions P later next) :
    Safe conditions P (plan ++ later) s := by
  induction plan generalizing s with
  | nil => exact behind s rfl
  | cons change plan ih =>
    obtain ⟨made, broken⟩ := safe
    refine ⟨fun next applied => ?_, broken⟩
    obtain ⟨here, more⟩ := made next applied
    exact ⟨here, ih more fun last ends =>
      behind last (Change.replay_cons_ok.mpr ⟨next, applied, ends⟩)⟩

theorem Safe.each (safe : Safe conditions P plan s) (part : Partial conditions plan done) :
    Change.Each P done s := by
  induction part generalizing s with
  | stop => trivial
  | step change _ ih =>
    intro next applied
    obtain ⟨here, more⟩ := safe.1 next applied
    exact ⟨here, ih more⟩
  | «break» plan breaks half =>
    intro next applied
    exact ⟨safe.2 _ _ next breaks half applied, trivial⟩

theorem make_cases (conditions : Conditions σ) (change : Change) (r : Recorded) :
    (∃ cause done next, (conditions.make change).run r = (.error cause, next) ∧
        Partial conditions [change] done ∧ Reaches r done next) ∨
      ∃ next, (conditions.make change).run r = (.ok (), next) ∧ Reaches r [change] next := by
  have quiet := Recorded.pass_reaches r
  unfold make
  simp only [StateT.run]
  cases failed : conditions.fault? r.taken with
  | none =>
    rcases Recorded.change_cases change r with ⟨cause, kept⟩ | made
    · exact .inl ⟨cause, [], r.pass, kept, .stop _, quiet⟩
    · exact .inr made
  | some fault =>
    refine .inl ?_
    simp only
    cases halfway : fault.left?.bind change.broken? with
    | none => exact ⟨fault.cause, [], r.pass, rfl, .stop _, quiet⟩
    | some broken =>
      obtain ⟨text, left, half⟩ := Option.bind_eq_some_iff.mp halfway
      simp only
      rcases Recorded.change_cases broken r with ⟨cause, kept⟩ | ⟨next, made, reaches⟩
      · rw [kept]
        exact ⟨fault.cause, [], r.pass, rfl, .stop _, quiet⟩
      · rw [made]
        exact ⟨fault.cause, [broken], next, rfl, .break [] ⟨_, fault, failed, left⟩ half, reaches⟩

/-- A computation that changes nothing. -/
def Quiet {α : Type} (p : StateM Recorded α) : Prop := ∀ r, Reaches r [] (p.run r).2

variable {α β : Type}

theorem Quiet.pure (a : α) : Quiet (pure a) := fun r => .nil r rfl rfl

theorem run_bind (p : StateM Recorded α) (f : α → StateM Recorded β) (r : Recorded) :
    (p >>= f).run r = (f (p.run r).1).run (p.run r).2 := rfl

theorem Quiet.bind {p : StateM Recorded α} {f : α → StateM Recorded β} (first : Quiet p)
    (rest : ∀ a, Quiet (f a)) : Quiet (p >>= f) := fun r =>
  (first r).trans (rest (p.run r).1 (p.run r).2)

theorem quiet_look (failed : Text → α) (seen : FileStore → α) :
    Quiet (conditions.look failed seen) := Recorded.pass_reaches

theorem look_cases (conditions : Conditions σ) (failed : Text → α) (seen : FileStore → α)
    (r : Recorded) :
    (conditions.look failed seen).run r = (seen r.files, r.pass) ∨
      ∃ cause, (conditions.look failed seen).run r = (failed cause, r.pass) := by
  unfold look
  simp only [StateT.run]
  cases conditions.fault? r.taken with
  | none => exact .inl rfl
  | some fault => exact .inr ⟨fault.cause, rfl⟩

theorem quiet_readFile (conditions : Conditions σ) (path : Text) :
    Quiet (conditions.host.readFile path) := quiet_look _ _

theorem quiet_isFile (conditions : Conditions σ) (path : Text) :
    Quiet (conditions.host.isFile path) := quiet_look _ _

theorem quiet_userSettings (conditions : Conditions σ) : Quiet conditions.host.userSettings :=
  quiet_look _ _

theorem quiet_settingsFrom (conditions : Conditions σ) (path : Text) :
    Quiet (conditions.host.settingsFrom path) := by
  refine (quiet_readFile conditions path).bind fun document => ?_
  cases document with
  | error cause => exact .pure _
  | ok document =>
    simp only
    split <;> exact .pure _

theorem quiet_loadSettings (conditions : Conditions σ) (explicit : Option Text) :
    Quiet (conditions.host.loadSettings explicit) := by
  cases explicit with
  | some path => exact quiet_settingsFrom conditions path
  | none =>
    refine (quiet_isFile conditions Host.localSettings).bind fun here => ?_
    split
    · exact quiet_settingsFrom conditions _
    · refine (quiet_userSettings conditions).bind fun user? => ?_
      cases user? with
      | none => exact .pure _
      | some path =>
        refine (quiet_isFile conditions path).bind fun there => ?_
        split
        · exact quiet_settingsFrom conditions path
        · exact .pure _

/-- A trial of an action on a record. -/
def trial (p : ExceptT Text (StateM Recorded) α) (r : Recorded) : Except Text α × Recorded :=
  p.run.run r

/-- A trial that succeeds carries a plan through, and one that fails does a part of it. -/
inductive Follows (conditions : Conditions σ) (plan : List Change) (r : Recorded) :
    Except Text α × Recorded → Prop
  | whole {next : Recorded} (a : α) (reaches : Reaches r plan next) :
    Follows conditions plan r (.ok a, next)
  | part {next : Recorded} (cause : Text) {done : List Change}
    (part : Partial conditions plan done) (reaches : Reaches r done next) :
    Follows conditions plan r (.error cause, next)

variable {p : ExceptT Text (StateM Recorded) α} {f : α → ExceptT Text (StateM Recorded) β}

theorem trial_bind_ok {a : α} {next : Recorded} (tried : trial p r = (.ok a, next)) :
    trial (p >>= f) r = trial (f a) next := by
  have bound : trial (p >>= f) r = trial (ExceptT.mk (ExceptT.bindCont f (trial p r).1))
    (trial p r).2 := rfl
  rw [bound, tried]
  rfl

theorem trial_bind_error {cause : Text} {next : Recorded}
    (tried : trial p r = (.error cause, next)) : trial (p >>= f) r = (.error cause, next) := by
  have bound : trial (p >>= f) r = trial (ExceptT.mk (ExceptT.bindCont f (trial p r).1))
    (trial p r).2 := rfl
  rw [bound, tried]
  rfl

theorem trial_lift (p : StateM Recorded α) (r : Recorded) :
    trial (ExceptT.lift p) r = (.ok (p.run r).1, (p.run r).2) := rfl

theorem Follows.behind {next : Recorded} {ended : Except Text α × Recorded}
    (quiet : Reaches r [] next) (follows : Follows conditions plan next ended) :
    Follows conditions plan r ended := by
  cases follows with
  | whole a reaches => exact .whole a (quiet.trans reaches)
  | part cause part reaches => exact .part cause part (quiet.trans reaches)

theorem Follows.reaches {ended : Except Text α × Recorded}
    (follows : Follows conditions plan r ended) :
    ∃ done, Partial conditions plan done ∧ Reaches r done ended.2 := by
  cases follows with
  | whole a reaches => exact ⟨plan, .whole plan, reaches⟩
  | part cause part reaches => exact ⟨_, part, reaches⟩

theorem Follows.bind (first : Follows conditions plan r (trial p r))
    (rest : ∀ a next, trial p r = (.ok a, next) →
      Follows conditions later next (trial (f a) next)) :
    Follows conditions (plan ++ later) r (trial (p >>= f) r) := by
  cases tried : trial p r with
  | mk result next =>
    rw [tried] at first
    cases first with
    | whole a reaches =>
      rw [trial_bind_ok tried]
      generalize ended : trial (f a) next = e
      have behind := rest a next tried
      rw [ended] at behind
      cases behind with
      | whole b more => exact .whole b (reaches.trans more)
      | part cause part more => exact .part cause (part.behind plan) (reaches.trans more)
    | part cause part reaches =>
      rw [trial_bind_error tried]
      exact .part cause (part.append later) reaches

end Conditions
end QueryWeaver
