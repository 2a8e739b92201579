import MetricGateway.Proofs.SingleFlight.Invalidation

/- How the steps of one task go. In each of them the task ends or comes to wait again, still for
   the errand that it was started for. It ends with what it finds in an entry of its key or with
   the outcome of its own call, and it stands in line only at entries that are in the table when it
   comes. -/
namespace MetricGateway
namespace SingleFlight

variable {κ α ε : Type}

inductive Errand (κ : Type) where
  | get (key : κ)
  | remove (key : κ)
  | sweep

def Phase.errand : Phase κ → Errand κ
  | .getQueued key _ _ | .getLoading key _ => .get key
  | .removeQueued key _ => .remove key
  | .refreshing .. => .sweep

def State.errand? (s : State κ α ε) : Action κ α ε → Option (Errand κ)
  | .get _ key => some (.get key)
  | .remove _ key => some (.remove key)
  | .sweep .. => some .sweep
  | .resume t | .loaded t _ => (s.phase? t).map Phase.errand
  | .put .. | .invalidateAll | .cancel _ | .advance _ => none

/-- How an entry looks to a task that has just come into line before it. -/
def Entry.MetBy (e : Entry κ α ε) : Phase κ → Prop
  | .getQueued _ _ n => e.listed = true ∧ e.failures = n
  | .removeQueued .. => e.listed = true
  | .getLoading .. | .refreshing .. => True

theorem errand?_of_removal {s : State κ α ε} {a : Action κ α ε} {key : κ}
    (removes : s.removal? a = some key) : s.errand? a = some (.remove key) := by
  cases a with
  | remove => exact congrArg (Option.map Errand.remove) removes
  | resume t =>
    simp only [State.removal?] at removes
    split at removes
    · rename_i own id waits
      cases removes
      simp [State.errand?, waits, Phase.errand]
    · cases removes
  | get | sweep | put | invalidateAll | loaded | cancel | advance => cases removes

def Effect.ends (effect : Effect κ α ε) (t : TaskId) : List (Result α ε) :=
  effect.2.filterMap (Signal.endOf? t)

theorem mem_ends {effect : Effect κ α ε} {t : TaskId} {r : Result α ε} :
    r ∈ effect.ends t ↔ .finished t r ∈ effect.2 := by
  rw [Effect.ends, List.mem_filterMap]
  constructor
  · rintro ⟨signal, member, shown⟩
    cases signal with
    | finished u r' =>
      obtain ⟨rfl, same⟩ := Option.ite_none_right_eq_some.1 shown
      cases same
      exact member
    | began | granted | sized | expired | refreshed => cases shown
  · intro member
    exact ⟨_, member, by simp [Signal.endOf?]⟩

/-- How a task comes out of an effect: it has ended with a result that it may have found, or it
    waits for its errand. -/
inductive Effect.Goes (effect : Effect κ α ε) (t : TaskId) (errand : Errand κ)
    (found : Result α ε → Prop) : Prop where
  | done {r : Result α ε} (idle : effect.1.phase? t = none) (shown : effect.ends t = [r])
      (by_right : found r)
  | waits {p : Phase κ} (phase : effect.1.phase? t = some p) (silent : effect.ends t = [])
      (same : p.errand = errand)
      (met : p.isLoad = false → ∃ e, effect.1.entries[p.entry]? = some e ∧ e.MetBy p)

namespace Effect

variable {effect : Effect κ α ε} {t : TaskId} {errand : Errand κ} {found : Result α ε → Prop}

theorem ends_andThen (effect : Effect κ α ε) (f : State κ α ε → Effect κ α ε) (t : TaskId) :
    (effect.andThen f).ends t = effect.ends t ++ (f effect.1).ends t :=
  List.filterMap_append

theorem Goes.mono {found' : Result α ε → Prop} (goes : effect.Goes t errand found)
    (more : ∀ r, found r → found' r) : effect.Goes t errand found' := by
  cases goes with
  | done idle shown by_right => exact .done idle shown (more _ by_right)
  | waits phase silent same met => exact .waits phase silent same met

theorem Goes.behind {f : State κ α ε → Effect κ α ε} (silent : effect.ends t = [])
    (goes : (f effect.1).Goes t errand found) : (effect.andThen f).Goes t errand found := by
  have same : (effect.andThen f).ends t = (f effect.1).ends t := by
    rw [ends_andThen, silent, List.nil_append]
  cases goes with
  | done idle shown by_right => exact .done idle (same.trans shown) by_right
  | waits phase quiet own met => exact .waits phase (same.trans quiet) own met

theorem Goes.found_of_mem (goes : effect.Goes t errand found) {r : Result α ε}
    (shown : .finished t r ∈ effect.2) : found r := by
  rw [← mem_ends] at shown
  cases goes with
  | done _ only by_right =>
    rw [only, List.mem_singleton] at shown
    exact shown ▸ by_right
  | waits _ silent =>
    rw [silent] at shown
    cases shown

theorem Goes.waiting (goes : effect.Goes t errand found) {p : Phase κ}
    (phase : effect.1.phase? t = some p) : p.errand = errand ∧
      (p.isLoad = false → ∃ e, effect.1.entries[p.entry]? = some e ∧ e.MetBy p) := by
  cases goes with
  | done idle =>
    rw [idle] at phase
    cases phase
  | waits waits _ same met =>
    cases waits.symm.trans phase
    exact ⟨same, met⟩

end Effect

section Operations

variable {s : State κ α ε} {t : TaskId} {id : Nat} {e : Entry κ α ε}

theorem ends_release (s : State κ α ε) (id : Nat) (t : TaskId) : (s.release id).ends t = [] := by
  rw [Effect.ends, List.filterMap_eq_nil_iff]
  exact fun signal member => endOf?_of_own (own_granted s t id signal member)

theorem goes_finish (s : State κ α ε) (t : TaskId) (r : Result α ε) (errand : Errand κ) :
    (s.finish t r).Goes t errand (· = r) :=
  .done (by simp [State.finish]) (by simp [State.finish, Effect.ends, Signal.endOf?]) rfl

theorem goes_finish_release (s : State κ α ε) (t : TaskId) (r : Result α ε) (id : Nat)
    (errand : Errand κ) :
    (Effect.andThen (s.finish t r) (·.release id)).Goes t errand (· = r) := by
  refine .done (by simp [Effect.andThen, State.finish, State.release]) ?_ rfl
  rw [Effect.ends_andThen, ends_release]
  simp [State.finish, Effect.ends, Signal.endOf?]

theorem goes_beginLoad (s : State κ α ε) (t : TaskId) (key : κ) (id : Nat)
    (found : Result α ε → Prop) : (s.beginLoad t key id).Goes t (.get key) found :=
  .waits (p := .getLoading key id) (by simp [State.beginLoad]) rfl rfl (fun line => by cases line)

theorem goes_enqueue {p : Phase κ} (here : s.entries[p.entry]? = some e) (met : e.MetBy p)
    (found : Result α ε → Prop) :
    Effect.Goes ((s.modifyEntry p.entry (·.enqueue t)).setPhase t p, []) t p.errand found := by
  refine .waits (p := p) (by simp) rfl rfl fun _ => ?_
  refine ⟨e.enqueue t, State.modifyEntry_of_getElem? here _, ?_⟩
  cases p with
  | getQueued | removeQueued => exact met
  | getLoading | refreshing => trivial

theorem goes_completeRemove (s : State κ α ε) (t : TaskId) (id : Nat) (e : Entry κ α ε)
    (errand : Errand κ) : (s.completeRemove t id e).Goes t errand (· = .removed e.value) :=
  .behind rfl (goes_finish_release _ t (.removed e.value) id errand)

theorem getElem?_completeRemove (here : s.entries[id]? = some e) (t : TaskId) :
    (s.completeRemove t id e).1.entries[id]? = some e.detach.release :=
  State.modifyEntry_of_getElem? (s := (s.modifyEntry id Entry.detach).dropTask t)
    (State.modifyEntry_of_getElem? here Entry.detach) Entry.release

theorem goes_endLoad (s : State κ α ε) (t : TaskId) (id : Nat) (outcome : Except ε α)
    (errand : Errand κ) : (s.endLoad t id outcome).Goes t errand (· = .ofLoad outcome) := by
  cases outcome with
  | ok value =>
    exact .behind (f := fun s => Effect.andThen (s.finish t (.got value)) (·.release id)) rfl
      (goes_finish_release _ t (.got value) id errand)
  | error error => exact goes_finish_release _ t (.failed error) id errand

theorem goes_sweepOver (s : State κ α ε) (t : TaskId) (began : Nat) (order : List Nat) :
    (s.sweepOver t began order).Goes t .sweep (· = .swept) := by
  induction order generalizing s with
  | nil => exact .behind (f := (·.finish t .swept)) rfl (goes_finish s t .swept _)
  | cons id rest ih =>
    unfold State.sweepOver
    split
    · exact ih s
    · split
      · exact ih s
      · split
        · split
          · exact .behind rfl (ih _)
          · exact ih s
        · split
          · exact .waits (by simp; rfl) rfl rfl (fun line => by cases line)
          · exact ih s

theorem goes_endRefresh (s : State κ α ε) (t : TaskId) (id : Nat) (rest : List Nat) (began : Nat)
    (key : κ) (outcome : Except ε α) :
    (s.endRefresh t id rest began key outcome).Goes t .sweep (· = .swept) := by
  refine .behind (f := (·.sweepOver t began rest)) ?_ (goes_sweepOver _ t began rest)
  rw [Effect.ends_andThen, ends_release]
  cases outcome <;> rfl

def Serves (entries : List (Entry κ α ε)) (key : κ) (r : Result α ε) : Prop :=
  ∃ e ∈ entries, e.key = key ∧ ∃ v, e.value = some v ∧ r = .got v

variable [DecidableEq κ]

theorem goes_beginGet (s : State κ α ε) (t : TaskId) (key : κ) :
    (s.beginGet t key).Goes t (.get key) (Serves s.entries key) := by
  obtain ⟨e, here, listed, own⟩ := State.claim_listed s key
  unfold State.beginGet
  simp only [here]
  split
  · rename_i v full
    refine (goes_finish _ t _ _).mono fun r same => ⟨e, ?_, own, v, full, same⟩
    -- The entry has a value, so that it was there before.
    have claimed := List.mem_of_getElem? here
    unfold State.claim at claimed
    split at claimed
    · exact claimed
    · rw [State.addEntry, List.mem_append, List.mem_singleton] at claimed
      refine claimed.resolve_right ?_
      rintro rfl
      cases full
  · exact goes_beginLoad _ t key _ _
  · exact goes_enqueue (p := .getQueued key _ e.failures) here ⟨listed, rfl⟩ _

theorem goes_resumeGet {key : κ} (here : s.entries[id]? = some e) (own : e.key = key)
    (t : TaskId) (n : Nat) :
    (s.resumeGet t key id n e).Goes t (.get key) fun r => Serves s.entries key r ∨
      ∃ error, e.failures ≠ n ∧ e.lastError = some error ∧ r = .failed error := by
  unfold State.resumeGet
  split
  · rename_i v full
    refine (goes_finish_release _ t _ id _).mono fun r same => Or.inl ?_
    exact ⟨e, List.mem_of_getElem? here, own, v, full, same⟩
  · split
    · rename_i error told
      split at told
      · cases told
      · rename_i since
        exact (goes_finish_release _ t _ id _).mono fun r same => Or.inr ⟨error, since, told, same⟩
    · split
      · exact goes_beginLoad s t key id _
      · refine .behind (ends_release _ id t) ((goes_beginGet _ t key).mono fun r serves => ?_)
        obtain ⟨f, member, same, v, full, got⟩ := serves
        obtain ⟨j, there⟩ := List.getElem?_of_mem member
        obtain ⟨e₀, before, ⟨_, rfl⟩ | ⟨_, rfl⟩⟩ := State.getElem?_of_modifyEntry there
        · exact Or.inl ⟨e₀, List.mem_of_getElem? before, same, v, full, got⟩
        · exact Or.inl ⟨f, List.mem_of_getElem? before, same, v, full, got⟩

theorem goes_beginRemove (s : State κ α ε) (t : TaskId) (key : κ) :
    (s.beginRemove t key).Goes t (.remove key) fun r => r = .removed none ∨
      ∃ (id : Nat) (e : Entry κ α ε), s.entries[id]? = some e ∧ e.listed = true ∧ e.key = key ∧
        (s.beginRemove t key).1.entries[id]? = some e.detach.release ∧ r = .removed e.value := by
  unfold State.beginRemove
  split
  · exact (goes_finish s t _ _).mono fun r same => Or.inl same
  · rename_i id found
    obtain ⟨e, here, listed, own⟩ := State.find?_eq_some found
    simp only [here]
    split
    · refine (goes_completeRemove s t id e _).mono fun r same => Or.inr ?_
      exact ⟨id, e, here, listed, own, getElem?_completeRemove here t, same⟩
    · exact goes_enqueue (p := .removeQueued key id) here listed _

end Operations

section Steps

variable [DecidableEq κ]

inductive Ends (s : State κ α ε) (t : TaskId) (a : Action κ α ε) (s' : State κ α ε) :
    Result α ε → Prop where
  | served {e : Entry κ α ε} {value : α} (member : e ∈ s.entries)
      (asks : s.errand? a = some (.get e.key)) (full : e.value = some value) :
      Ends s t a s' (.got value)
  | loaded {key : κ} {id : Nat} {outcome : Except ε α}
      (phase : s.phase? t = some (.getLoading key id)) (same : a = .loaded t outcome) :
      Ends s t a s' (.ofLoad outcome)
  | told {key : κ} {id n : Nat} {e : Entry κ α ε} {error : ε}
      (asks : s.errand? a = some (.get key)) (phase : s.phase? t = some (.getQueued key id n))
      (here : s.entries[id]? = some e) (since : e.failures ≠ n) (last : e.lastError = some error) :
      Ends s t a s' (.failed error)
  | missing {key : κ} (asks : s.errand? a = some (.remove key)) : Ends s t a s' (.removed none)
  | removed {id : Nat} {e e' : Entry κ α ε} (own : s.removal? a = some e.key)
      (here : s.entries[id]? = some e) (there : s'.entries[id]? = some e')
      (gone : e'.listed = false)
      (met : e.listed = true ∨ s.phase? t = some (.removeQueued e.key id)) :
      Ends s t a s' (.removed e.value)
  | swept (asks : s.errand? a = some .sweep) : Ends s t a s' .swept

variable {s : State κ α ε} {a : Action κ α ε} {effect : Effect κ α ε} {t : TaskId}

omit [DecidableEq κ] in
theorem ends_of_served {key : κ} {s' : State κ α ε} {r : Result α ε}
    (serves : Serves s.entries key r) (asks : s.errand? a = some (.get key)) : Ends s t a s' r := by
  obtain ⟨e, member, rfl, v, full, rfl⟩ := serves
  exact .served member asks full

theorem step_goes (order : Orderly s) (step : step? s a = some effect) (acts : a.actor = .task t)
    (on : a ≠ .cancel t) :
    ∃ errand, s.errand? a = some errand ∧ effect.Goes t errand (Ends s t a effect.1) := by
  cases taken_of_step step with
  | get idle key =>
    cases acts
    exact ⟨.get key, rfl, (goes_beginGet s t key).mono fun r serves => ends_of_served serves rfl⟩
  | remove idle key =>
    cases acts
    refine ⟨.remove key, rfl, (goes_beginRemove s t key).mono ?_⟩
    rintro r (rfl | ⟨id, e, here, listed, rfl, there, rfl⟩)
    · exact .missing rfl
    · exact .removed rfl here there rfl (Or.inl listed)
  | sweep _ ids =>
    cases acts
    exact ⟨.sweep, rfl, (goes_sweepOver s t s.now ids).mono fun r same => same ▸ .swept rfl⟩
  | put | invalidateAll | advance => cases acts
  | @resumeGet _ key id n e phase here _ =>
    cases acts
    obtain ⟨f, there, _, own⟩ := order.seated t _ phase
    cases here.symm.trans there
    have errand : s.errand? (.resume t) = some (.get key) := by
      simp [State.errand?, phase, Phase.errand]
    refine ⟨.get key, errand, (goes_resumeGet here own t n).mono ?_⟩
    rintro r (serves | ⟨error, since, last, rfl⟩)
    · exact ends_of_served serves errand
    · exact .told errand phase here since last
  | @resumeRemove _ key id e phase here _ =>
    cases acts
    obtain ⟨f, there, _, own⟩ := order.seated t _ phase
    cases here.symm.trans there
    have same : e.key = key := own
    subst same
    refine ⟨.remove e.key, by simp [State.errand?, phase, Phase.errand],
      (goes_completeRemove s t id e _).mono ?_⟩
    rintro r rfl
    exact .removed (by simp [State.removal?, phase]) here (getElem?_completeRemove here t) rfl
      (Or.inr phase)
  | @endLoad _ key id e phase here outcome =>
    cases acts
    refine ⟨.get key, by simp [State.errand?, phase, Phase.errand],
      (goes_endLoad s t id outcome _).mono ?_⟩
    rintro r rfl
    exact .loaded phase rfl
  | @endRefresh _ id rest began e phase here outcome =>
    cases acts
    have errand : s.errand? (.loaded t outcome) = some .sweep := by
      simp [State.errand?, phase, Phase.errand]
    exact ⟨.sweep, errand,
      (goes_endRefresh s t id rest began e.key outcome).mono fun r same => same ▸ .swept errand⟩
  | cancel =>
    cases acts
    exact absurd rfl on

theorem step_cancel {s' : State κ α ε} {seen : List (Signal κ α ε)}
    (step : step? s (.cancel t) = some (s', seen)) :
    s'.phase? t = none ∧ ∀ r, .finished t r ∉ seen := by
  generalize same : (s', seen) = effect at step
  cases taken_of_step step with
  | @cancel _ p e phase here =>
    unfold State.cancel at same
    split at same
    · cases same
      refine ⟨by simp, fun r shown => ?_⟩
      have own := own_granted (s.dropTask t) t p.entry _ shown
      simp [Signal.own] at own
    · cases same
      exact ⟨by simp, fun r shown => by cases shown⟩

theorem ends_of_step (order : Orderly s) (step : step? s a = some effect) {r : Result α ε}
    (shown : .finished t r ∈ effect.2) : a.actor = .task t ∧ Ends s t a effect.1 r := by
  have acts : a.actor = .task t := by
    refine Decidable.byContradiction fun other => ?_
    have moves : Moves a.actor s effect.2 effect.1 := step_byMoves order step
    have silent := moves.own_eq_false other _ shown
    simp [Signal.own] at silent
  refine ⟨acts, ?_⟩
  by_cases up : a = .cancel t
  · subst up
    exact absurd shown ((step_cancel step).2 r)
  · obtain ⟨errand, _, goes⟩ := step_goes order step acts up
    exact goes.found_of_mem shown

theorem waits_of_step (order : Orderly s) (step : step? s a = some effect)
    (acts : a.actor = .task t) {p : Phase κ} (phase : effect.1.phase? t = some p) :
    s.errand? a = some p.errand ∧
      (p.isLoad = false → ∃ e, effect.1.entries[p.entry]? = some e ∧ e.MetBy p) := by
  by_cases up : a = .cancel t
  · subst up
    rw [(step_cancel step).1] at phase
    cases phase
  · obtain ⟨errand, own, goes⟩ := step_goes order step acts up
    obtain ⟨same, met⟩ := goes.waiting phase
    exact ⟨same ▸ own, met⟩

end Steps

end SingleFlight
end MetricGateway
