import MetricGateway.Proofs.SingleFlight.Invalidation

/- What the reports tell of a cache's size. A step that changes how many keys have a value reports
   their number behind the change, unless it is a step of a sweep that stops again to reload an
   entry; that sweep reports at its end. Who goes by the last report is right between the sweeps. -/
namespace MetricGateway
namespace SingleFlight

variable {κ α ε : Type}

def Signal.size? : Signal κ α ε → Option Nat
  | .sized n => some n
  | .began .. | .granted _ | .finished .. | .expired _ | .refreshed .. => none

def lastSize? (seen : List (Signal κ α ε)) : Option Nat := (seen.filterMap Signal.size?).getLast?

def State.Sweeping (s : State κ α ε) : Prop :=
  ∃ t id rest began, s.phase? t = some (.refreshing id rest began)

/-- Who takes a size for that of the cache, and goes by the reports, is right behind the effect. -/
def Effect.Tells (effect : Effect κ α ε) (size : Nat) : Prop :=
  (lastSize? effect.2).getD size = effect.1.size

theorem lastSize?_append (seen more : List (Signal κ α ε)) :
    lastSize? (seen ++ more) = (lastSize? more).or (lastSize? seen) := by
  rw [lastSize?, List.filterMap_append, List.getLast?_append]
  rfl

theorem getD_lastSize?_append (seen more : List (Signal κ α ε)) (size : Nat) :
    (lastSize? (seen ++ more)).getD size = (lastSize? more).getD ((lastSize? seen).getD size) := by
  rw [lastSize?_append]
  cases lastSize? more <;> rfl

theorem tells_andThen {effect : Effect κ α ε} {f : State κ α ε → Effect κ α ε} {size : Nat}
    (rest : (f effect.1).Tells ((lastSize? effect.2).getD size)) :
    (effect.andThen f).Tells size :=
  (getD_lastSize?_append effect.2 (f effect.1).2 size).trans rest

theorem Effect.Tells.andThen {effect : Effect κ α ε} {f : State κ α ε → Effect κ α ε} {size : Nat}
    (first : effect.Tells size) (rest : (f effect.1).Tells effect.1.size) :
    (effect.andThen f).Tells size := by
  unfold Effect.Tells at first
  rw [← first] at rest
  exact tells_andThen rest

section Operations

variable {s : State κ α ε} {t : TaskId} {id : Nat} {e : Entry κ α ε} {size : Nat}

theorem size_modifyEntry (here : s.entries[id]? = some e) {f : Entry κ α ε → Entry κ α ε}
    (same : (f e).held = e.held) : (s.modifyEntry id f).size = s.size := by
  obtain ⟨bound, own⟩ := List.getElem?_eq_some_iff.1 here
  have split : s.entries = s.entries.take id ++ e :: s.entries.drop (id + 1) := by
    rw [← own, ← List.drop_eq_getElem_cons bound, List.take_append_drop]
  have after : s.entries.modify id f = s.entries.take id ++ f e :: s.entries.drop (id + 1) := by
    rw [List.modify_eq_take_cons_drop bound, own]
  have counted : ∀ g : Entry κ α ε, g.held = e.held →
      (s.entries.take id ++ g :: s.entries.drop (id + 1)).countP Entry.held =
        (s.entries.take id).countP Entry.held +
          ((s.entries.drop (id + 1)).countP Entry.held + if e.held then 1 else 0) := by
    intro g equal
    rw [List.countP_append, List.countP_cons, equal]
  have left : s.size = _ := (congrArg (List.countP Entry.held) split).trans (counted e rfl)
  have right : (s.modifyEntry id f).size = _ :=
    (congrArg (List.countP Entry.held) after).trans (counted (f e) same)
  rw [left, right]

theorem tells_report (s : State κ α ε) (size : Nat) : s.report.Tells size := rfl

theorem tells_finish (s : State κ α ε) (t : TaskId) (r : Result α ε) :
    (s.finish t r).Tells s.size := rfl

theorem tells_silent {s' : State κ α ε} (same : s'.size = size) :
    Effect.Tells ((s', []) : Effect κ α ε) size := same.symm

theorem size_release (s : State κ α ε) (id : Nat) : (s.release id).1.size = s.size := by
  cases here : s.entries[id]? with
  | some e => exact size_modifyEntry (f := Entry.release) here rfl
  | none =>
    have bound := List.getElem?_eq_none_iff.1 here
    have same : s.entries.modify id Entry.release = s.entries := List.modify_eq_self bound
    exact congrArg (List.countP Entry.held) same

theorem tells_release (s : State κ α ε) (id : Nat) : (s.release id).Tells s.size := by
  have silent : lastSize? (s.release id).2 = none := by
    rw [lastSize?, List.getLast?_eq_none_iff, List.filterMap_eq_nil_iff]
    intro signal member
    obtain ⟨u, _, rfl⟩ := List.mem_map.1 member
    rfl
  rw [Effect.Tells, silent]
  exact (size_release s id).symm

theorem tells_finish_release (s : State κ α ε) (t : TaskId) (r : Result α ε) (id : Nat) :
    (Effect.andThen (s.finish t r) (·.release id)).Tells s.size :=
  (tells_finish s t r).andThen (tells_release (s.dropTask t) id)

theorem tells_serve (here : s.entries[id]? = some e) (t : TaskId) (value : α) :
    (s.serve t id value).Tells s.size :=
  size_modifyEntry (f := (·.touch s.now)) here rfl ▸
    tells_finish (s.modifyEntry id (·.touch s.now)) t (.got value)

theorem tells_beginLoad (here : s.entries[id]? = some e) (t : TaskId) (key : κ) :
    (s.beginLoad t key id).Tells s.size :=
  (size_modifyEntry (f := (·.acquire t)) here rfl).symm

theorem tells_enqueue (here : s.entries[id]? = some e) (t : TaskId) (p : Phase κ) :
    Effect.Tells (((s.modifyEntry id (·.enqueue t)).setPhase t p, []) : Effect κ α ε) s.size :=
  tells_silent (size_modifyEntry (f := (·.enqueue t)) here rfl)

theorem tells_completeRemove (s : State κ α ε) (t : TaskId) (id : Nat) (e : Entry κ α ε)
    (size : Nat) : (s.completeRemove t id e).Tells size :=
  (tells_report _ size).andThen (tells_finish_release _ t (.removed e.value) id)

theorem tells_endLoad (here : s.entries[id]? = some e) (t : TaskId) (outcome : Except ε α) :
    (s.endLoad t id outcome).Tells s.size := by
  cases outcome with
  | ok value => exact (tells_report _ s.size).andThen (tells_finish_release _ t (.got value) id)
  | error error =>
    have same : ((e.fail error).detachIfEmpty).held = e.held := by
      simp [Entry.held, Entry.detachIfEmpty, Entry.fail]
    have kept := size_modifyEntry (f := fun e => (e.fail error).detachIfEmpty) here same
    have ended := tells_finish_release (s.modifyEntry id fun e => (e.fail error).detachIfEmpty) t
      (.failed error) id
    rw [kept] at ended
    exact ended

theorem tells_sweepOver (s : State κ α ε) (t : TaskId) (began : Nat) (order : List Nat) :
    (s.sweepOver t began order).1.Sweeping ∨
      ∀ size, (s.sweepOver t began order).Tells size := by
  induction order generalizing s with
  | nil =>
    refine Or.inr fun size => ?_
    exact (tells_report s size).andThen (tells_finish s t .swept)
  | cons id rest ih =>
    unfold State.sweepOver
    split
    · exact ih s
    · split
      · exact ih s
      · split
        · split
          · rename_i e _ _ _ _
            rcases ih (s.modifyEntry id Entry.detach) with stopped | told
            · exact Or.inl stopped
            · refine Or.inr fun size => ?_
              have behind := told size
              unfold Effect.Tells at behind ⊢
              exact behind
          · exact ih s
        · split
          · exact Or.inl ⟨t, id, rest, began, by simp⟩
          · exact ih s

theorem tells_endRefresh (s : State κ α ε) (t : TaskId) (id : Nat) (rest : List Nat) (began : Nat)
    (key : κ) (outcome : Except ε α) :
    (s.endRefresh t id rest began key outcome).1.Sweeping ∨
      ∀ size, (s.endRefresh t id rest began key outcome).Tells size := by
  unfold State.endRefresh
  dsimp only
  generalize Effect.andThen _ (fun s : State κ α ε => s.release id) = stored
  rcases tells_sweepOver stored.1 t began rest with stopped | told
  · exact Or.inl stopped
  · exact Or.inr fun size => tells_andThen (told _)

theorem tells_cancel (here : s.entries[id]? = some e) (t : TaskId) :
    (s.cancel t id e).Tells s.size := by
  unfold State.cancel
  split
  · exact tells_release (s.dropTask t) id
  · have there : (s.dropTask t).entries[id]? = some e := here
    exact tells_silent (size_modifyEntry (f := (·.leave t)) there rfl)

variable [DecidableEq κ]

theorem size_claim (s : State κ α ε) (key : κ) : (s.claim key).1.size = s.size := by
  unfold State.claim
  split
  · rfl
  · simp [State.size, State.addEntry, List.countP_append, Entry.vacant, Entry.held]

theorem tells_beginGet (s : State κ α ε) (t : TaskId) (key : κ) :
    (s.beginGet t key).Tells s.size := by
  obtain ⟨e, here, _⟩ := State.claim_listed s key
  unfold State.beginGet
  simp only [here]
  rw [← size_claim s key]
  split
  · exact tells_serve here t _
  · exact tells_beginLoad here t key
  · exact tells_enqueue here t _

theorem tells_resumeGet (here : s.entries[id]? = some e) (t : TaskId) (key : κ) (failures : Nat) :
    (s.resumeGet t key id failures e).Tells s.size := by
  unfold State.resumeGet
  split
  · rename_i value _
    refine (tells_serve here t value).andThen ?_
    exact tells_release _ id
  · split
    · rename_i error _
      exact tells_finish_release s t (.failed error) id
    · split
      · exact tells_beginLoad here t key
      · refine (tells_release (s.dropTask t) id).andThen ?_
        exact tells_beginGet _ t key

theorem tells_beginRemove (s : State κ α ε) (t : TaskId) (key : κ) :
    (s.beginRemove t key).Tells s.size := by
  unfold State.beginRemove
  split
  · exact tells_finish s t _
  · split
    · exact tells_silent rfl
    · rename_i e here
      split
      · exact tells_completeRemove s t _ e s.size
      · exact tells_enqueue here t _

end Operations

variable [DecidableEq κ]

/-- A step tells the size right, where it was known, or leaves a sweep waiting. The end of a reload
    needs nothing to be known. -/
theorem step_tells {s : State κ α ε} {a : Action κ α ε} {effect : Effect κ α ε}
    (step : step? s a = some effect) :
    effect.1.Sweeping ∨ effect.Tells s.size ∧ ∀ t outcome id rest began, a = .loaded t outcome →
      s.phase? t = some (.refreshing id rest began) → ∀ size, effect.Tells size := by
  cases taken_of_step step with
  | get _ key => exact Or.inr ⟨tells_beginGet s _ key, nofun⟩
  | remove _ key => exact Or.inr ⟨tells_beginRemove s _ key, nofun⟩
  | sweep _ order =>
    rcases tells_sweepOver s _ s.now order with stopped | told
    · exact Or.inl stopped
    · exact Or.inr ⟨told s.size, nofun⟩
  | put key value => exact Or.inr ⟨tells_report _ s.size, nofun⟩
  | invalidateAll => exact Or.inr ⟨tells_report _ s.size, nofun⟩
  | resumeGet _ here => exact Or.inr ⟨tells_resumeGet here _ _ _, nofun⟩
  | resumeRemove => exact Or.inr ⟨tells_completeRemove s _ _ _ s.size, nofun⟩
  | endLoad phase here outcome =>
    refine Or.inr ⟨tells_endLoad here _ outcome, ?_⟩
    intro t outcome id rest began same waits
    cases same
    cases phase.symm.trans waits
  | endRefresh phase here outcome =>
    rcases tells_endRefresh s _ _ _ _ _ outcome with stopped | told
    · exact Or.inl stopped
    · exact Or.inr ⟨told s.size, fun _ _ _ _ _ _ _ => told⟩
  | cancel _ here => exact Or.inr ⟨tells_cancel here _, nofun⟩
  | advance ms => exact Or.inr ⟨tells_silent rfl, nofun⟩

def State.sweepGivenUp? (s : State κ α ε) : Action κ α ε → Option TaskId
  | .cancel t =>
    match s.phase? t with
    | some (.refreshing ..) => some t
    | _ => none
  | _ => none

theorem step_known {s s' : State κ α ε} {a : Action κ α ε} {seen : List (Signal κ α ε)}
    (order : Orderly s) (step : step? s a = some (s', seen))
    (up : s.sweepGivenUp? a = none) {size : Nat} (known : s.Sweeping ∨ size = s.size) :
    s'.Sweeping ∨ (lastSize? seen).getD size = s'.size := by
  rcases step_tells step with stopped | ⟨told, ends⟩
  · exact Or.inl stopped
  rcases known with ⟨t, id, rest, began, phase⟩ | rfl
  · by_cases acts : a.actor = .task t
    · -- It is the waiting sweep that goes on, since its reload has ended.
      rcases step_of_waiting step acts phase with ⟨_, line, _⟩ | ⟨_, outcome, same⟩ | same
      · cases line
      · exact Or.inr (ends t outcome id rest began same phase size)
      · simp [same, State.sweepGivenUp?, phase] at up
    · have still := (step_byMoves order step).phase_of_other acts
      exact Or.inl ⟨t, id, rest, began, still.trans phase⟩
  · exact Or.inr told

theorem run_known {actions : List (Action κ α ε)} {s s' : State κ α ε}
    {seen : List (Signal κ α ε)} (order : Orderly s) (up : s.collect State.sweepGivenUp? actions = [])
    (ran : run? s actions = some (s', seen)) {size : Nat} (known : s.Sweeping ∨ size = s.size) :
    s'.Sweeping ∨ (lastSize? seen).getD size = s'.size := by
  induction actions generalizing s seen size with
  | nil =>
    cases ran
    exact known.imp_right id
  | cons a rest ih =>
    obtain ⟨s₁, first, more, step, others, rfl⟩ := run_cons ran
    rw [collect_of_step step, List.append_eq_nil_iff, Option.toList_eq_nil_iff] at up
    have next := step_known order step up.1 known
    rw [getD_lastSize?_append]
    exact ih (step_orderly order step) up.2 others next

theorem Orderly.size_eq {s : State κ α ε} (order : Orderly s) :
    ∃ keys : List κ, keys.Nodup ∧ (∀ key, key ∈ keys ↔ s.contains key = true) ∧
      keys.length = s.size := by
  refine ⟨(s.entries.filter Entry.held).map Entry.key, ?_, ?_, ?_⟩
  · have apart : s.entries.Pairwise fun e f => e.held = true → f.held = true → e.key ≠ f.key := by
      rw [List.pairwise_iff_getElem]
      intro i j left right before first second same
      simp only [Entry.held, Bool.and_eq_true] at first second
      have equal := order.unique i j _ _ (List.getElem?_eq_getElem left)
        (List.getElem?_eq_getElem right) first.1 second.1 same
      omega
    rw [List.Nodup, List.pairwise_map, List.pairwise_filter]
    exact apart
  · intro key
    rw [State.contains_eq_true_iff]
    simp only [List.mem_map, List.mem_filter, Entry.held, Bool.and_eq_true]
    constructor
    · intro found
      obtain ⟨e, ⟨member, listed, full⟩, own⟩ := found
      obtain ⟨id, here⟩ := List.getElem?_of_mem member
      exact ⟨id, e, here, listed, full, own⟩
    · intro found
      obtain ⟨id, e, here, listed, full, own⟩ := found
      exact ⟨e, ⟨List.mem_of_getElem? here, listed, full⟩, own⟩
  · rw [List.length_map, State.size, List.countP_eq_length_filter]

/-- Whatever tasks there are and however they interleave, in a state in which no sweep is on its way
    the size that was reported last, or zero where none was, is the number of keys that have a
    value, if no sweep has been given up. -/
theorem reported_size_exact {settings : Settings} {now : Nat} {actions : List (Action κ α ε)}
    {s : State κ α ε} {seen : List (Signal κ α ε)}
    (ran : run? { settings, now } actions = some (s, seen))
    (up : State.collect State.sweepGivenUp? { settings, now } actions = []) (still : ¬ s.Sweeping) :
    (lastSize? seen).getD 0 = s.size ∧
      ∃ keys : List κ, keys.Nodup ∧ (∀ key, key ∈ keys ↔ s.contains key = true) ∧
        keys.length = s.size := by
  have start := orderly_initial (κ := κ) (α := α) (ε := ε) settings now
  constructor
  · have empty : 0 = State.size ({ settings, now } : State κ α ε) := rfl
    rcases run_known start up ran (Or.inr empty) with sweeping | told
    · exact absurd sweeping still
    · exact told
  · exact (run_orderly start ran).size_eq

/-- While a sweep waits for the reload of one key, all is invalidated, another key is put, and a get
    of a third one is given up. Then the reload fills the emptied entry. -/
def refilledBehindReport : List (Action Nat Nat Unit) :=
  [.put 0 10, .advance 2, .sweep (.request 0) [0], .invalidateAll, .put 1 12, .get (.request 1) 2,
    .cancel (.request 1), .loaded (.request 0) (.ok 20)]

theorem refilled_size_reported :
    let start : State Nat Nat Unit := { settings := ⟨some 1, none, 1000, false⟩ }
    ∃ s seen, run? start refilledBehindReport = some (s, seen) ∧
      start.collect State.sweepGivenUp? refilledBehindReport = [] ∧ ¬ s.Sweeping ∧
        (lastSize? seen).getD 0 = s.size ∧ s.size = 2 := by
  intro start
  have ends : (run? start refilledBehindReport).map (fun reached =>
      (reached.1.tasks.length, reached.1.size)) = some (0, 2) := by decide +kernel
  obtain ⟨⟨s, seen⟩, ran, same⟩ := Option.map_eq_some_iff.1 ends
  obtain ⟨alone, two⟩ := Prod.mk.inj same
  have ended : s.tasks = [] := List.length_eq_zero_iff.1 alone
  have up : start.collect State.sweepGivenUp? refilledBehindReport = [] := by decide +kernel
  have still : ¬ s.Sweeping := by
    intro sweeping
    obtain ⟨t, id, rest, began, phase⟩ := sweeping
    simp [State.phase?, ended] at phase
  exact ⟨s, seen, ran, up, still, (reported_size_exact ran up still).1, two⟩

end SingleFlight
end MetricGateway
