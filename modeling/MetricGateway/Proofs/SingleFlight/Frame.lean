import MetricGateway.Proofs.SingleFlight.Decompose

/- What the moves of one task leave as it is for the others: their phases, what is seen of them,
   and what an entry knows while they wait at its gate. -/
namespace MetricGateway
namespace SingleFlight

variable {κ α ε : Type}

def Signal.own (t : TaskId) : Signal κ α ε → Bool
  | .began u _ | .finished u _ => u = t
  | .granted _ | .sized _ | .expired _ | .refreshed .. => false

theorem Signal.ToldBy.own_eq_false {who : Actor} {signal : Signal κ α ε} {t : TaskId}
    (told : signal.ToldBy who) (other : who ≠ .task t) : signal.own t = false := by
  cases signal with
  | finished u r =>
    have apart : u ≠ t := by
      rintro rfl
      exact other told
    simp [Signal.own, apart]
  | began | granted => cases told
  | sized | expired | refreshed => rfl

theorem own_granted (s : State κ α ε) (t : TaskId) (id : Nat) :
    ∀ signal ∈ (s.release id).2, signal.own t = false := by
  intro signal member
  obtain ⟨u, _, rfl⟩ := List.mem_map.1 member
  rfl

/-- What the entry knows of its key is the same, and it is not back in the table. -/
structure Entry.Keeps (e e' : Entry κ α ε) : Prop where
  value : e'.value = e.value
  failures : e'.failures = e.failures
  lastError : e'.lastError = e.lastError
  listed : e'.listed = true → e.listed = true

theorem Entry.Keeps.rfl {e : Entry κ α ε} : e.Keeps e := ⟨.refl _, .refl _, .refl _, id⟩

theorem State.keeps_modifyEntry {s : State κ α ε} {id j : Nat} {e : Entry κ α ε}
    {f : Entry κ α ε → Entry κ α ε} (here : s.entries[id]? = some e)
    (keeps : id = j → e.Keeps (f e)) :
    ∃ e', (s.modifyEntry j f).entries[id]? = some e' ∧ e.Keeps e' := by
  rw [State.getElem?_modifyEntry]
  split
  · rename_i same
    exact ⟨f e, by simp [here], keeps same⟩
  · exact ⟨e, here, .rfl⟩

theorem Orderly.only_loader {who : Actor} {s : State κ α ε} (order : Orderly s) {id : Nat}
    {e : Entry κ α ε} {l : TaskId} (here : s.entries[id]? = some e) (holds : e.holder = some l)
    (other : who ≠ .task l) :
    ∀ u p, s.phase? u = some p → p.entry = id → p.isLoad = true → who ≠ .task u := by
  intro u p phase at_id load
  obtain ⟨f, there, held⟩ := order.holder_of_load phase load
  rw [at_id] at there
  cases here.symm.trans there
  rw [holds] at held
  cases held
  exact other

variable [DecidableEq κ]

theorem Move.phase_of_other {who : Actor} {s s' : State κ α ε} {seen : List (Signal κ α ε)}
    (move : Move who s seen s') {t : TaskId} (other : who ≠ .task t) :
    s'.phase? t = s.phase? t := by
  have apart : ∀ u, who = .task u → t ≠ u := by
    rintro u rfl rfl
    exact other rfl
  cases move with
  | pass | tell | add | touch | put | invalidate | fail | unlist => rfl
  | store | begin | queue | promote => simp [apart _ rfl]
  | quit =>
    rw [State.cancel]
    split <;> simp [State.release, apart _ rfl]

theorem Move.own_eq_false {who : Actor} {s s' : State κ α ε} {seen : List (Signal κ α ε)}
    (move : Move who s seen s') {t : TaskId} (other : who ≠ .task t) :
    ∀ signal ∈ seen, signal.own t = false := by
  have apart : ∀ u, who = .task u → u ≠ t := by
    rintro u rfl rfl
    exact other rfl
  cases move with
  | pass | add | touch | put | invalidate | fail | unlist | queue => simp
  | tell _ told => simpa using told.own_eq_false other
  | begin | promote => simp [Signal.own, apart _ rfl]
  | store => exact own_granted _ t _
  | quit =>
    rw [State.cancel]
    split
    · exact own_granted _ t _
    · simp

theorem Moves.phase_of_other {who : Actor} {s s' : State κ α ε} {seen : List (Signal κ α ε)}
    (moves : Moves who s seen s') {t : TaskId} (other : who ≠ .task t) :
    s'.phase? t = s.phase? t := by
  induction moves with
  | nil => rfl
  | cons move _ ih => exact ih.trans (move.phase_of_other other)

theorem Moves.own_eq_false {who : Actor} {s s' : State κ α ε} {seen : List (Signal κ α ε)}
    (moves : Moves who s seen s') {t : TaskId} (other : who ≠ .task t) :
    ∀ signal ∈ seen, signal.own t = false := by
  induction moves with
  | nil => simp
  | cons move _ ih =>
    intro signal member
    rcases List.mem_append.1 member with first | later
    · exact move.own_eq_false other signal first
    · exact ih signal later

theorem Move.content_kept {who : Actor} {s s' : State κ α ε} {seen : List (Signal κ α ε)}
    (move : Move who s seen s') (calm : who ≠ .caller) {id : Nat} {e : Entry κ α ε}
    (here : s.entries[id]? = some e)
    (other : ∀ u p, s.phase? u = some p → p.entry = id → p.isLoad = true → who ≠ .task u) :
    ∃ e', s'.entries[id]? = some e' ∧ e.Keeps e' := by
  cases move with
  | pass | tell => exact ⟨e, here, .rfl⟩
  | add missing =>
    obtain ⟨bound, _⟩ := List.getElem?_eq_some_iff.1 here
    exact ⟨e, by simp [State.getElem?_addEntry, Nat.ne_of_lt bound, here], .rfl⟩
  | touch | begin | queue | promote =>
    exact State.keeps_modifyEntry here fun _ => ⟨rfl, rfl, rfl, fun listed => listed⟩
  | put | invalidate => exact absurd rfl calm
  | store used value phase load =>
    rw [State.entries_deliver]
    exact State.keeps_modifyEntry here fun same => absurd rfl (other _ _ phase same.symm load)
  | fail error phase load =>
    exact State.keeps_modifyEntry here fun same => absurd rfl (other _ _ phase same.symm load)
  | unlist =>
    exact State.keeps_modifyEntry here fun _ => ⟨rfl, rfl, rfl, fun listed => by cases listed⟩
  | quit phase there =>
    rw [State.cancel]
    split <;> exact State.keeps_modifyEntry here fun _ => ⟨rfl, rfl, rfl, fun listed => listed⟩

theorem Move.unloaded {who : Actor} {s s' : State κ α ε} {seen : List (Signal κ α ε)}
    (move : Move who s seen s') {id : Nat} {e : Entry κ α ε}
    (here : s.entries[id]? = some e) (busy : e.holder.isSome = true)
    (shut : e.value.isSome = true ∨ e.listed = false)
    (unloaded : ∀ u p, s.phase? u = some p → p.entry = id → p.isLoad = false) :
    ∀ u p, s'.phase? u = some p → p.entry = id → p.isLoad = false := by
  intro u p phase at_id
  by_cases other : who ≠ .task u
  · exact unloaded u p (move.phase_of_other other ▸ phase) at_id
  · rw [Ne, Decidable.not_not] at other
    cases move with
    | pass | put | invalidate => cases other
    | tell | add | touch | fail | unlist => exact unloaded u p phase at_id
    | store => cases other; simp at phase
    | begin idle there free load fits lack =>
      cases other
      cases State.phase_of_setPhase phase
      rw [at_id, here] at there
      cases there
      simp [free] at busy
    | queue idle there taken line fits =>
      cases other
      cases State.phase_of_setPhase phase
      exact line
    | promote waited there holds lack listed =>
      cases other
      cases State.phase_of_setPhase phase
      cases at_id
      cases here.symm.trans there
      simp [lack, listed] at shut
    | quit =>
      cases other
      rw [State.cancel] at phase
      split at phase <;> simp [State.release] at phase

def UnfilledBy (t : TaskId) (s : State κ α ε) : Prop :=
  ∀ key id e, s.phase? t = some (.getLoading key id) → s.entries[id]? = some e → e.value = none

def Unfilled (s : State κ α ε) : Prop :=
  ∀ t key id e, s.phase? t = some (.getLoading key id) → s.entries[id]? = some e → e.value = none

theorem Move.unfilledBy {t : TaskId} {s s' : State κ α ε} {seen : List (Signal κ α ε)}
    (move : Move (.task t) s seen s') (unfilled : UnfilledBy t s) : UnfilledBy t s' := by
  intro key id e' phase there
  cases move with
  | tell => exact unfilled key id e' phase there
  | add missing =>
    rw [State.getElem?_addEntry] at there
    split at there
    · cases there; rfl
    · exact unfilled key id e' phase there
  | touch | fail | unlist =>
    obtain ⟨e, here, ⟨_, rfl⟩ | ⟨_, rfl⟩⟩ := State.getElem?_of_modifyEntry there
    · exact unfilled key id e phase here
    · exact unfilled key id e' phase here
  | store => simp at phase
  | begin idle here free load fits lack =>
    cases State.phase_of_setPhase phase
    have taken := State.modifyEntry_of_getElem? here (·.acquire t)
    cases there.symm.trans taken
    exact lack key id rfl
  | queue idle here busy line fits =>
    cases State.phase_of_setPhase phase
    cases line
  | promote waited here holds lack listed =>
    cases State.phase_of_setPhase phase
    have taken := State.modifyEntry_of_getElem? here (·.acquire t)
    cases there.symm.trans taken
    exact lack
  | quit =>
    rw [State.cancel] at phase
    split at phase <;> simp [State.release] at phase

theorem Move.unfilled {who : Actor} {s s' : State κ α ε} {seen : List (Signal κ α ε)}
    (move : Move who s seen s') (order : Orderly s) (calm : who ≠ .caller)
    (unfilled : Unfilled s) : Unfilled s' := by
  intro t key id e' phase there
  by_cases other : who ≠ .task t
  · have before := move.phase_of_other other ▸ phase
    obtain ⟨e, here, holds⟩ := order.holder_of_load before rfl
    obtain ⟨f, there', keeps⟩ := move.content_kept calm here (order.only_loader here holds other)
    cases there.symm.trans there'
    exact keeps.value.trans (unfilled t key id e before here)
  · rw [Ne, Decidable.not_not] at other
    subst other
    exact move.unfilledBy (unfilled t) key id e' phase there

end SingleFlight
end MetricGateway
