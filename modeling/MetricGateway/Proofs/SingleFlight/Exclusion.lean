import MetricGateway.Proofs.SingleFlight.Decompose

/- Which loader calls of a single-flight cache can be in flight together. Calls for one entry
   exclude each other, and the table has one entry for a key; what is left are sweeps that go on
   with an entry after it has left the table. -/
namespace MetricGateway
namespace SingleFlight

variable {κ α ε : Type}

namespace State

/-- The key for which the loader call is that a task waits for, if it waits for one. -/
def callOf? (s : State κ α ε) (t : TaskId) : Option κ :=
  match s.phase? t with
  | some (.getLoading key _) => some key
  | some (.refreshing id _ _) => s.entries[id]?.map Entry.key
  | _ => none

def Overlaps (s : State κ α ε) (key : κ) : Prop :=
  ∃ t u, t ≠ u ∧ s.callOf? t = some key ∧ s.callOf? u = some key

/-- The task is a sweep that reloads an entry which is not in the table any more. -/
def ReloadsUnlisted (s : State κ α ε) (t : TaskId) (key : κ) : Prop :=
  ∃ id rest began e, s.phase? t = some (.refreshing id rest began) ∧ s.entries[id]? = some e ∧
    e.key = key ∧ e.listed = false

theorem ReloadsUnlisted.callOf? {s : State κ α ε} {t : TaskId} {key : κ}
    (stale : s.ReloadsUnlisted t key) : s.callOf? t = some key := by
  obtain ⟨id, rest, began, e, phase, here, own, _⟩ := stale
  simp [State.callOf?, phase, here, own]

end State

namespace Orderly

theorem entry_of_call {s : State κ α ε} (order : Orderly s) {t : TaskId} {key : κ}
    (call : s.callOf? t = some key) :
    ∃ p e, s.phase? t = some p ∧ s.entries[p.entry]? = some e ∧ e.holder = some t ∧ e.key = key ∧
      (e.listed = true ∨ s.ReloadsUnlisted t key) := by
  unfold State.callOf? at call
  split at call
  · rename_i own id phase
    cases call
    obtain ⟨e, here, holds⟩ := order.holder_of_load phase rfl
    obtain ⟨same, listed, _⟩ := order.getLoading_fits phase here
    exact ⟨_, e, phase, here, holds, same, Or.inl listed⟩
  · rename_i id rest began phase
    obtain ⟨e, here, holds⟩ := order.holder_of_load phase rfl
    change s.entries[id]? = some e at here
    have same : e.key = key := by simpa [here] using call
    refine ⟨_, e, phase, here, holds, same, ?_⟩
    cases listed : e.listed with
    | true => exact Or.inl rfl
    | false => exact Or.inr ⟨id, rest, began, e, phase, here, same, listed⟩
  · cases call

theorem reload_of_overlap {s : State κ α ε} (order : Orderly s) {t u : TaskId} {key : κ}
    (other : t ≠ u) (first : s.callOf? t = some key) (second : s.callOf? u = some key) :
    s.ReloadsUnlisted t key ∨ s.ReloadsUnlisted u key := by
  obtain ⟨p, e, _, here, holds, own, place⟩ := order.entry_of_call first
  obtain ⟨q, f, _, there, keeps, same, spot⟩ := order.entry_of_call second
  rcases place with listed | stale
  · rcases spot with also | stale
    · -- Both entries are the table's, hence one entry, and its gate has one holder.
      have at_one := order.unique _ _ e f here there listed also (own.trans same.symm)
      rw [at_one, there] at here
      cases here
      rw [keeps] at holds
      exact absurd (Option.some.inj holds).symm other
    · exact Or.inr stale
  · exact Or.inl stale

end Orderly

variable [DecidableEq κ]

theorem Move.reload_unlisted {who : Actor} {s s' : State κ α ε} {seen : List (Signal κ α ε)}
    (move : Move who s seen s') (order : Orderly s) {t : TaskId} {key : κ}
    (stale : s'.ReloadsUnlisted t key) :
    s.ReloadsUnlisted t key ∨ who = .task t ∧ .began t key ∈ seen := by
  obtain ⟨id, rest, began, e, phase, here, own, unlisted⟩ := stale
  -- Where the task waited already, it is enough that the entry was unlisted before.
  have earlier : s.phase? t = some (.refreshing id rest began) →
      (∃ e₀, s.entries[id]? = some e₀ ∧ e₀.key = e.key ∧ e₀.listed = e.listed) →
      s.ReloadsUnlisted t key := by
    rintro waits ⟨e₀, there, same, place⟩
    exact ⟨id, rest, began, e₀, waits, there, same.trans own, place.trans unlisted⟩
  have edited : ∀ {f : Entry κ α ε → Entry κ α ε} {at_id : Nat} {e : Entry κ α ε},
      (s.modifyEntry at_id f).entries[id]? = some e →
      (∀ e, (f e).key = e.key ∧ (f e).listed = e.listed) →
      ∃ e₀, s.entries[id]? = some e₀ ∧ e₀.key = e.key ∧ e₀.listed = e.listed := by
    intro f at_id e there frame
    obtain ⟨e₀, before, ⟨_, rfl⟩ | ⟨_, rfl⟩⟩ := State.getElem?_of_modifyEntry there
    · exact ⟨e₀, before, (frame e₀).1.symm, (frame e₀).2.symm⟩
    · exact ⟨e, before, rfl, rfl⟩
  cases move with
  | pass | tell => exact Or.inl (earlier phase ⟨e, here, rfl, rfl⟩)
  | add missing =>
    rw [State.getElem?_addEntry] at here
    split at here
    · cases here; cases unlisted
    · exact Or.inl (earlier phase ⟨e, here, rfl, rfl⟩)
  | touch => exact Or.inl (earlier phase (edited here fun _ => ⟨rfl, rfl⟩))
  | put => exact Or.inl (earlier phase (edited here fun _ => ⟨rfl, rfl⟩))
  | fail => exact Or.inl (earlier phase (edited here fun _ => ⟨rfl, rfl⟩))
  | invalidate =>
    obtain ⟨e₀, before, rfl⟩ := Option.map_eq_some_iff.1 (List.getElem?_map.symm.trans here)
    obtain ⟨f, there, holds⟩ := order.holder_of_load phase rfl
    cases before.symm.trans there
    refine Or.inl (earlier phase ⟨e₀, before, ?_⟩)
    cases listed : e₀.listed <;> simp [Entry.invalidate, Entry.clear, holds, listed]
  | unlist unloaded =>
    rename_i at_id
    have elsewhere : id ≠ at_id := fun same => by
      have busy := unloaded t _ phase same
      cases busy
    rw [State.getElem?_modifyEntry, if_neg elsewhere] at here
    exact Or.inl (earlier phase ⟨e, here, rfl, rfl⟩)
  | begin idle there free load fits lack =>
    rename_i u p f
    by_cases turn : t = u
    · subst turn
      have same : p = .refreshing id rest began := by simpa using phase
      subst same
      have taken := State.modifyEntry_of_getElem? there (·.acquire t)
      cases here.symm.trans taken
      cases own
      exact Or.inr ⟨rfl, List.mem_singleton.2 rfl⟩
    · exact Or.inl (earlier (by simpa [turn] using phase) (edited here fun _ => ⟨rfl, rfl⟩))
  | queue idle there busy line fits =>
    rename_i u p f
    have turn : t ≠ u := by
      rintro rfl
      have same : p = .refreshing id rest began := by simpa using phase
      subst same
      cases line
    exact Or.inl (earlier (by simpa [turn] using phase) (edited here fun _ => ⟨rfl, rfl⟩))
  | promote waited there holds lack listed =>
    rename_i u asked at_id failures f
    have turn : t ≠ u := by
      rintro rfl
      simp at phase
    exact Or.inl (earlier (by simpa [turn] using phase) (edited here fun _ => ⟨rfl, rfl⟩))
  | store used value waited load there holds =>
    rename_i u p f
    obtain ⟨_, waits⟩ : t ≠ u ∧ s.phase? t = some (.refreshing id rest began) := by
      simpa using phase
    rw [State.entries_deliver] at here
    exact Or.inl (earlier waits (edited here fun _ => ⟨rfl, rfl⟩))
  | quit waited there =>
    rename_i u p f
    simp only [State.cancel] at phase here
    split at here <;> rename_i holds
    · rw [if_pos holds] at phase
      obtain ⟨_, waits⟩ : t ≠ u ∧ s.phase? t = some (.refreshing id rest began) := by
        simpa [State.release] using phase
      exact Or.inl (earlier waits (edited here fun _ => ⟨rfl, rfl⟩))
    · rw [if_neg holds] at phase
      obtain ⟨_, waits⟩ : t ≠ u ∧ s.phase? t = some (.refreshing id rest began) := by
        simpa using phase
      exact Or.inl (earlier waits (edited here fun _ => ⟨rfl, rfl⟩))

theorem Moves.reload_unlisted {who : Actor} {s s' : State κ α ε} {seen : List (Signal κ α ε)}
    (moves : Moves who s seen s') (order : Orderly s) {t : TaskId} {key : κ}
    (stale : s'.ReloadsUnlisted t key) :
    s.ReloadsUnlisted t key ∨ who = .task t ∧ .began t key ∈ seen := by
  induction moves with
  | nil => exact Or.inl stale
  | cons move _ ih =>
    rcases ih (move_orderly move order) stale with before | ⟨acts, shown⟩
    · rcases move.reload_unlisted order before with first | ⟨acts, shown⟩
      · exact Or.inl first
      · exact Or.inr ⟨acts, List.mem_append_left _ shown⟩
    · exact Or.inr ⟨acts, List.mem_append_right _ shown⟩

/-- The one step that can make calls overlap is a sweep that begins to reload an entry out of the
    table: no later step turns another call into such a reload. -/
theorem step_reload_unlisted {s : State κ α ε} {a : Action κ α ε} {effect : Effect κ α ε}
    (order : Orderly s) (step : step? s a = some effect) {t : TaskId} {key : κ}
    (stale : effect.1.ReloadsUnlisted t key) :
    s.ReloadsUnlisted t key ∨ a.actor = .task t ∧ .began t key ∈ effect.2 :=
  (step_byMoves order step).reload_unlisted order stale

/-- However tasks interleave, calls for a key overlap exactly where a sweep reloads an entry of it
    that has left the table while another call is in flight. -/
theorem overlap_iff_reload_unlisted {settings : Settings} {now : Nat}
    {actions : List (Action κ α ε)} {s : State κ α ε} {seen : List (Signal κ α ε)}
    (ran : run? { settings, now } actions = some (s, seen)) (key : κ) :
    s.Overlaps key ↔ ∃ t u, t ≠ u ∧ s.ReloadsUnlisted t key ∧ s.callOf? u = some key := by
  have order := run_orderly (orderly_initial settings now) ran
  constructor
  · rintro ⟨t, u, other, first, second⟩
    rcases order.reload_of_overlap other first second with stale | stale
    · exact ⟨t, u, other, stale, second⟩
    · exact ⟨u, t, other.symm, stale, first⟩
  · rintro ⟨t, u, other, stale, second⟩
    exact ⟨t, u, other, stale.callOf?, second⟩

/-- A sweep that waits for the reload of one key, while another is removed and asked for again. -/
def removedBehindSweep : List (Action Nat Nat Unit) :=
  [.put 0 10, .put 1 11, .advance 2, .sweep (.request 0) [0, 1], .remove (.request 1) 1,
    .get (.request 2) 1, .loaded (.request 0) (.ok 20)]

def quickRefresh : Settings := ⟨some 1, none, 1000, false⟩

theorem reload_unlisted_beside_get :
    ∃ s seen, run? { settings := quickRefresh } removedBehindSweep = some (s, seen) ∧
      ∃ t u, t ≠ u ∧ s.ReloadsUnlisted t 1 ∧ s.callOf? u = some 1 :=
  have ran : run? { settings := quickRefresh } removedBehindSweep = some (_, _) := rfl
  ⟨_, _, ran, (overlap_iff_reload_unlisted ran 1).1
    ⟨.request 0, .request 2, by decide, rfl, rfl⟩⟩

/-- The sweep goes on to an entry that the removal has taken away, beside the get's own call. -/
theorem calls_overlap_behind_sweep :
    ∃ s seen, run? { settings := quickRefresh } removedBehindSweep = some (s, seen) ∧
      s.Overlaps 1 :=
  ⟨_, _, rfl, .request 0, .request 2, by decide, rfl, rfl⟩

end SingleFlight
end MetricGateway
