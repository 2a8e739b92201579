import MetricGateway.Proofs.SingleFlight.Content
import MetricGateway.Proofs.SingleFlight.SharedOutcome

/- What a step announces. It begins one loader call at the most, that of the task which takes it,
   and a call in flight goes on for the same key until its own task takes a step. A get ends with a
   value or with a failure. -/
namespace MetricGateway
namespace SingleFlight

variable {κ α ε : Type}

def Signal.call? : Signal κ α ε → Option (TaskId × κ)
  | .began t key => some (t, key)
  | _ => none

def Effect.calls (e : Effect κ α ε) : List (TaskId × κ) := e.2.filterMap Signal.call?

/-- No call is announced, or one that the task then waits for. -/
def Effect.Opens (e : Effect κ α ε) (t : TaskId) : Prop :=
  e.calls = [] ∨ ∃ key, e.calls = [(t, key)] ∧ e.1.callOf? t = some key

theorem calls_andThen (e : Effect κ α ε) (f : State κ α ε → Effect κ α ε) :
    (e.andThen f).calls = e.calls ++ (f e.1).calls := by
  simp [Effect.calls, Effect.andThen]

theorem Effect.Opens.andThen {e : Effect κ α ε} {f : State κ α ε → Effect κ α ε} {t : TaskId}
    (opens : (f e.1).Opens t) (silent : e.calls = []) : (e.andThen f).Opens t := by
  unfold Effect.Opens
  rw [calls_andThen, silent, List.nil_append]
  exact opens

theorem calls_release (s : State κ α ε) (id : Nat) : (s.release id).calls = [] := by
  have granted : ∀ signal ∈ (s.release id).2, signal.call? = none := by
    intro signal member
    obtain ⟨u, _, rfl⟩ := List.mem_map.1 member
    rfl
  exact List.filterMap_eq_nil_iff.2 granted

def Action.begins (t : TaskId) : Action κ α ε → Bool
  | .get u _ | .remove u _ | .sweep u _ => u = t
  | _ => false

section Operations

variable (s : State κ α ε) (t : TaskId)

theorem calls_finish (r : Result α ε) : (s.finish t r).calls = [] := rfl

theorem calls_serve (id : Nat) (value : α) : (s.serve t id value).calls = [] := rfl

theorem opens_beginLoad (key : κ) (id : Nat) : (s.beginLoad t key id).Opens t := by
  refine Or.inr ⟨key, rfl, ?_⟩
  simp [State.beginLoad, State.callOf?]

theorem calls_completeRemove (id : Nat) (e : Entry κ α ε) :
    (s.completeRemove t id e).calls = [] := by
  simp only [State.completeRemove, calls_andThen, calls_release, calls_finish]
  rfl

theorem calls_endLoad (id : Nat) (outcome : Except ε α) : (s.endLoad t id outcome).calls = [] := by
  cases outcome with
  | ok value =>
    simp only [State.endLoad, calls_andThen, calls_release, calls_finish]
    rfl
  | error error =>
    simp only [State.endLoad, calls_andThen, calls_release, calls_finish, List.append_nil]

theorem opens_sweepOver (began : Nat) (order : List Nat) : (s.sweepOver t began order).Opens t := by
  induction order generalizing s with
  | nil => exact Or.inl rfl
  | cons id order ih =>
    unfold State.sweepOver
    split
    · exact ih s
    · rename_i e here
      split
      · exact ih s
      · split
        · split
          · exact (ih _).andThen rfl
          · exact ih s
        · split
          · refine Or.inr ⟨e.key, rfl, ?_⟩
            have taken := State.modifyEntry_of_getElem? here (·.acquire t)
            unfold State.callOf?
            rw [State.phase?_setPhase, if_pos rfl]
            exact congrArg (Option.map Entry.key) taken
          · exact ih s

theorem opens_endRefresh (id : Nat) (rest : List Nat) (began : Nat) (key : κ)
    (outcome : Except ε α) : (s.endRefresh t id rest began key outcome).Opens t := by
  unfold State.endRefresh
  refine (opens_sweepOver _ t began rest).andThen ?_
  rw [calls_andThen, calls_release, List.append_nil]
  cases outcome <;> rfl

theorem calls_cancel (id : Nat) (e : Entry κ α ε) : (s.cancel t id e).calls = [] := by
  unfold State.cancel
  split
  · exact calls_release _ id
  · rfl

variable [DecidableEq κ]

theorem opens_beginGet (key : κ) : (s.beginGet t key).Opens t := by
  unfold State.beginGet
  generalize s.claim key = c
  obtain ⟨s₁, id⟩ := c
  dsimp only
  split
  · exact Or.inl rfl
  · split
    · exact Or.inl (calls_serve s₁ t id _)
    · exact opens_beginLoad s₁ t key id
    · exact Or.inl rfl

theorem opens_resumeGet (key : κ) (id failures : Nat) (e : Entry κ α ε) :
    (s.resumeGet t key id failures e).Opens t := by
  unfold State.resumeGet
  split
  · exact Or.inl (by rw [calls_andThen, calls_serve, calls_release]; rfl)
  · split
    · exact Or.inl (by rw [calls_andThen, calls_finish, calls_release]; rfl)
    · split
      · exact opens_beginLoad s t key id
      · exact (opens_beginGet _ t key).andThen (calls_release _ id)

theorem calls_beginRemove (key : κ) : (s.beginRemove t key).calls = [] := by
  unfold State.beginRemove
  split
  · rfl
  · split
    · rfl
    · split
      · exact calls_completeRemove s t _ _
      · rfl

end Operations

section Steps

variable [DecidableEq κ]

theorem step_opens {s : State κ α ε} {a : Action κ α ε} {effect : Effect κ α ε}
    (step : step? s a = some effect) :
    effect.calls = [] ∨ ∃ t, a.actor = .task t ∧ effect.Opens t := by
  cases taken_of_step step with
  | get _ key => exact Or.inr ⟨_, rfl, opens_beginGet s _ key⟩
  | remove _ key => exact Or.inl (calls_beginRemove s _ key)
  | sweep _ ids => exact Or.inr ⟨_, rfl, opens_sweepOver s _ s.now ids⟩
  | put | invalidateAll | advance => exact Or.inl rfl
  | resumeGet => exact Or.inr ⟨_, rfl, opens_resumeGet s _ _ _ _ _⟩
  | resumeRemove => exact Or.inl (calls_completeRemove s _ _ _)
  | endLoad _ _ outcome => exact Or.inl (calls_endLoad s _ _ outcome)
  | endRefresh _ _ outcome => exact Or.inr ⟨_, rfl, opens_endRefresh s _ _ _ _ _ outcome⟩
  | cancel => exact Or.inl (calls_cancel s _ _ _)

/-- The calls that a step announces are of different tasks, and each is one that its task has taken
    the step for and then waits for. -/
theorem calls_of_step {s : State κ α ε} {a : Action κ α ε} {effect : Effect κ α ε}
    (step : step? s a = some effect) :
    (effect.calls.map Prod.fst).Nodup ∧
      ∀ t key, (t, key) ∈ effect.calls → a.actor = .task t ∧ effect.1.callOf? t = some key := by
  rcases step_opens step with silent | ⟨u, actor, silent | ⟨k, one, call⟩⟩
  · simp [silent]
  · simp [silent]
  · refine ⟨by simp [one], fun t key member => ?_⟩
    rw [one, List.mem_singleton] at member
    cases member
    exact ⟨actor, call⟩

theorem callOf?_of_other {s : State κ α ε} (order : Orderly s) {a : Action κ α ε}
    {effect : Effect κ α ε} (step : step? s a = some effect) {t : TaskId}
    (other : a.actor ≠ .task t) {key : κ} (call : s.callOf? t = some key) :
    effect.1.callOf? t = some key := by
  have moves : Moves a.actor s effect.2 effect.1 := step_byMoves order step
  have phase := moves.phase_of_other other
  unfold State.callOf? at call ⊢
  rw [phase]
  split at call
  · exact call
  · rename_i id rest began _
    obtain ⟨e, here, own⟩ := Option.map_eq_some_iff.1 call
    obtain ⟨e', there, becomes⟩ := (step_continues order step).kept id e here
    rw [there, Option.map_some, becomes.key, own]
  · cases call

theorem step_idle {s : State κ α ε} (order : Orderly s) {a : Action κ α ε} {effect : Effect κ α ε}
    (step : step? s a = some effect) {t : TaskId} (idle : s.phase? t = none)
    (others : a.begins t = false) :
    effect.1.phase? t = none ∧ ∀ signal ∈ effect.2, signal.own t = false := by
  have other : a.actor ≠ .task t := by
    intro own
    cases a with
    | get u | remove u | sweep u =>
      cases own
      simp [Action.begins] at others
    | put | invalidateAll | advance => cases own
    | resume u | loaded u | cancel u =>
      cases own
      simp [step?, idle] at step
  have moves : Moves a.actor s effect.2 effect.1 := step_byMoves order step
  exact ⟨(moves.phase_of_other other).trans idle, moves.own_eq_false other⟩

theorem callOf?_of_step {s : State κ α ε} {a : Action κ α ε} (goes : step? s a ≠ none) {t : TaskId}
    (actor : a.actor = .task t) (running : ∀ outcome, a ≠ .loaded t outcome)
    (kept : a ≠ .cancel t) : s.callOf? t = none := by
  unfold State.callOf?
  cases a with
  | get u | remove u | sweep u =>
    cases actor
    cases phase : s.phase? t with
    | none => rfl
    | some p => simp [step?, phase] at goes
  | put | invalidateAll | advance => cases actor
  | resume u =>
    cases actor
    cases phase : s.phase? t with
    | none => simp [step?, phase] at goes
    | some p =>
      cases p with
      | getQueued | removeQueued => rfl
      | getLoading | refreshing =>
        refine absurd ?_ goes
        simp only [step?, phase, Option.bind_eq_bind, Option.bind_some, Option.bind_eq_none_iff]
        intro e _
        split <;> rfl
  | loaded u outcome =>
    cases actor
    exact absurd rfl (running outcome)
  | cancel u =>
    cases actor
    exact absurd rfl kept

end Steps

def Effect.Gives (e : Effect κ α ε) : Prop :=
  ∀ t r, .finished t r ∈ e.2 → ∃ outcome : Except ε α, r = .ofLoad outcome

section Gives

theorem Effect.Gives.andThen {e : Effect κ α ε} {f : State κ α ε → Effect κ α ε} (first : e.Gives)
    (rest : (f e.1).Gives) : (e.andThen f).Gives := by
  intro t r member
  rcases List.mem_append.1 member with before | behind
  · exact first t r before
  · exact rest t r behind

theorem gives_release (s : State κ α ε) (id : Nat) : (s.release id).Gives := by
  intro t r member
  obtain ⟨_, _, other⟩ := List.mem_map.1 member
  cases other

theorem gives_finish (s : State κ α ε) (t : TaskId) (outcome : Except ε α) :
    (s.finish t (.ofLoad outcome)).Gives := by
  intro u r member
  cases List.mem_singleton.1 member
  exact ⟨outcome, rfl⟩

theorem gives_serve (s : State κ α ε) (t : TaskId) (id : Nat) (value : α) :
    (s.serve t id value).Gives := gives_finish _ t (.ok value)

theorem gives_beginLoad (s : State κ α ε) (t : TaskId) (key : κ) (id : Nat) :
    (s.beginLoad t key id).Gives := by
  intro u r member
  cases List.mem_singleton.1 member

theorem gives_report (s : State κ α ε) : s.report.Gives := by
  intro u r member
  cases List.mem_singleton.1 member

theorem gives_endLoad (s : State κ α ε) (t : TaskId) (id : Nat) (outcome : Except ε α) :
    (s.endLoad t id outcome).Gives := by
  cases outcome with
  | ok value =>
    exact (gives_report _).andThen ((gives_finish _ t (.ok value)).andThen (gives_release _ id))
  | error error => exact (gives_finish _ t (.error error)).andThen (gives_release _ id)

variable [DecidableEq κ]

theorem gives_beginGet (s : State κ α ε) (t : TaskId) (key : κ) : (s.beginGet t key).Gives := by
  unfold State.beginGet
  generalize s.claim key = c
  obtain ⟨s₁, id⟩ := c
  dsimp only
  split
  · exact fun _ _ member => absurd member List.not_mem_nil
  · split
    · exact gives_serve s₁ t id _
    · exact gives_beginLoad s₁ t key id
    · exact fun _ _ member => absurd member List.not_mem_nil

theorem gives_resumeGet (s : State κ α ε) (t : TaskId) (key : κ) (id failures : Nat)
    (e : Entry κ α ε) : (s.resumeGet t key id failures e).Gives := by
  unfold State.resumeGet
  split
  · exact (gives_serve s t id _).andThen (gives_release _ id)
  · split
    · rename_i error _
      exact (gives_finish s t (.error error)).andThen (gives_release _ id)
    · split
      · exact gives_beginLoad s t key id
      · exact (gives_release _ id).andThen (gives_beginGet _ t key)

theorem step_gives {s : State κ α ε} {a : Action κ α ε} {effect : Effect κ α ε}
    (step : step? s a = some effect) {t : TaskId} (actor : a.actor = .task t) {key : κ}
    (asks : a = .get t key ∨ ∃ id, s.phase? t = some (.getLoading key id) ∨
      ∃ n, s.phase? t = some (.getQueued key id n)) : effect.Gives := by
  rcases asks with rfl | ⟨id, phase⟩
  · cases taken_of_step step with
    | get => exact gives_beginGet s t key
  · cases taken_of_step step with
    | get idle | remove idle | sweep idle =>
      cases actor
      rcases phase with loads | ⟨n, queued⟩
      · cases idle.symm.trans loads
      · cases idle.symm.trans queued
    | put | invalidateAll | advance => cases actor
    | resumeGet => exact gives_resumeGet s _ _ _ _ _
    | endLoad _ _ outcome => exact gives_endLoad s _ _ outcome
    | resumeRemove waits | endRefresh waits =>
      cases actor
      rcases phase with loads | ⟨n, queued⟩
      · cases waits.symm.trans loads
      · cases waits.symm.trans queued
    | cancel =>
      intro u r member
      unfold State.cancel at member
      split at member
      · exact gives_release _ _ u r member
      · cases member

end Gives

end SingleFlight
end MetricGateway
