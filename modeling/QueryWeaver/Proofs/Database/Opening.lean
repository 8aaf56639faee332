import QueryWeaver.Database.Session
/-!
Steps of a session in sequence, and a successful opening taken apart into them.
-/

namespace QueryWeaver

namespace Session

variable {σ : Type} {engine : Engine σ} {settings : ConnectionSettings} {s next : Session σ}
  {a b : List (Session σ → Except Error Unit × Session σ)}

theorem perform_eq (engine : Engine σ) (command : Command) (s : Session σ) :
    perform engine command s =
      ((execute engine command s).1.map fun _ => (), (execute engine command s).2) := rfl

theorem perform_settings {command : Command} {result : Except Error Unit}
    (performed : perform engine command s = (result, next)) : next.settings = s.settings :=
  congrArg (fun p => p.2.settings) performed.symm

theorem sequence_singleton (step : Session σ → Except Error Unit × Session σ) (s : Session σ) :
    sequence [step] s = step s := by
  rw [sequence]
  cases step s with
  | mk result next => cases result <;> rfl

theorem sequence_cons_ok {step : Session σ → Except Error Unit × Session σ}
    (succeeded : sequence (step :: a) s = (.ok (), next)) :
    ∃ middle, step s = (.ok (), middle) ∧ sequence a middle = (.ok (), next) := by
  rw [sequence] at succeeded
  cases performed : step s with
  | mk result middle =>
    rw [performed] at succeeded
    cases result with
    | error e => cases succeeded
    | ok _ => exact ⟨middle, rfl, succeeded⟩

theorem sequence_append_ok (succeeded : sequence (a ++ b) s = (.ok (), next)) :
    ∃ middle, sequence a s = (.ok (), middle) ∧ sequence b middle = (.ok (), next) := by
  induction a generalizing s with
  | nil => exact ⟨s, rfl, succeeded⟩
  | cons step rest ih =>
    obtain ⟨second, performed, behind⟩ := sequence_cons_ok succeeded
    obtain ⟨middle, front, back⟩ := ih behind
    refine ⟨middle, ?_, back⟩
    rw [sequence, performed]
    exact front

/-- What each step keeps when it succeeds, the sequence keeps when it succeeds. -/
theorem sequence_keeps {P : Session σ → Prop}
    (keeps : ∀ step ∈ a, ∀ s next, P s → step s = (.ok (), next) → P next) (holds : P s)
    (succeeded : sequence a s = (.ok (), next)) : P next := by
  induction a generalizing s with
  | nil =>
    cases succeeded
    exact holds
  | cons step rest ih =>
    obtain ⟨middle, performed, behind⟩ := sequence_cons_ok succeeded
    have first := keeps step (List.mem_cons_self ..) s middle holds performed
    exact ih (fun step member => keeps step (List.mem_cons_of_mem _ member)) first behind

theorem attach_ok {name path : Text} (attached : attach engine name path s = (.ok (), next)) :
    ∃ middle, perform engine (.attach name path) s = (.ok (), middle) ∧
      next = { middle with attached := middle.attached ++ [(name, path)] } := by
  unfold attach at attached
  split at attached
  next middle performed =>
    cases attached
    exact ⟨middle, performed, rfl⟩
  next => cases attached

/-- A successful opening: the connection, then the settings, the busy timeout and the
attachments. -/
theorem start_ok {path : Text} {attachments : List (Text × Text)} {state : σ}
    (started : start engine settings path attachments state = (.ok (), next)) :
    ∃ connected set timed, engine.connect path settings.busyTimeoutMs.toNat state =
        (.ok (), connected) ∧
      sequence ((settingCommands settings).map (perform engine)) ⟨connected, settings, []⟩ =
        (.ok (), set) ∧
      applyTimeout engine set = (.ok (), timed) ∧
      sequence (attachments.map fun (name, path) => attach engine name path) timed =
        (.ok (), next) := by
  unfold start at started
  split at started
  next => cases started
  next =>
    split at started
    next => cases started
    next connected opened =>
      cases performed : sequence (initialSteps engine settings attachments)
          ⟨connected, settings, []⟩ with
      | mk result last =>
        simp only [performed] at started
        cases result with
        | error e => cases started
        | ok _ =>
          cases started
          obtain ⟨timed, front, attached⟩ := sequence_append_ok performed
          obtain ⟨set, configured, applied⟩ := sequence_append_ok front
          rw [sequence_singleton] at applied
          exact ⟨connected, set, timed, opened, configured, applied, attached⟩

end Session
end QueryWeaver
