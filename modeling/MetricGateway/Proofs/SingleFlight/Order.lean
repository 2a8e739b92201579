import MetricGateway.Proofs.SingleFlight.Move

/- Every move keeps a single-flight cache orderly. -/
namespace MetricGateway
namespace SingleFlight

variable {κ α ε : Type}

theorem orderly_initial (settings : Settings) (now : Nat) :
    Orderly ({ settings, now } : State κ α ε) where
  unique := by simp
  seated := by simp [State.phase?]
  waiting := by simp
  nodup := by simp
  free := by simp

namespace Orderly

theorem phase_of_holder {s : State κ α ε} (order : Orderly s) {id : Nat} {e : Entry κ α ε}
    {t : TaskId} (here : s.entries[id]? = some e) (holds : e.holder = some t) :
    ∃ p, s.phase? t = some p ∧ p.entry = id :=
  order.waiting id e t here (by simp [Entry.gate, holds])

theorem getLoading_fits {s : State κ α ε} (order : Orderly s) {t : TaskId} {key : κ} {id : Nat}
    {e : Entry κ α ε} (phase : s.phase? t = some (.getLoading key id))
    (here : s.entries[id]? = some e) : e.key = key ∧ e.listed = true ∧ e.holder = some t := by
  obtain ⟨f, there, _, fits⟩ := order.seated t _ phase
  have same : some f = some e := there.symm.trans here
  cases same
  exact fits

theorem holder_of_load {s : State κ α ε} (order : Orderly s) {t : TaskId} {p : Phase κ}
    (phase : s.phase? t = some p) (load : p.isLoad = true) :
    ∃ e, s.entries[p.entry]? = some e ∧ e.holder = some t := by
  obtain ⟨e, here, _, fits⟩ := order.seated t p phase
  refine ⟨e, here, ?_⟩
  cases p with
  | getLoading key id => exact fits.2.2
  | refreshing id rest began => exact fits
  | getQueued | removeQueued => cases load

theorem unloaded_of_holder {s : State κ α ε} (order : Orderly s) {id : Nat} {e : Entry κ α ε}
    (here : s.entries[id]? = some e)
    (idle : ∀ t p, e.holder = some t → s.phase? t = some p → p.isLoad = false)
    {t : TaskId} {p : Phase κ} (phase : s.phase? t = some p) (at_id : p.entry = id) :
    p.isLoad = false := by
  cases load : p.isLoad with
  | false => rfl
  | true =>
    obtain ⟨f, there, holds⟩ := order.holder_of_load phase load
    rw [at_id, here] at there
    cases there
    rw [idle t p holds phase] at load
    cases load

theorem absent_of_idle {s : State κ α ε} (order : Orderly s) {t : TaskId}
    (idle : s.phase? t = none) {id : Nat} {e : Entry κ α ε} (here : s.entries[id]? = some e) :
    t ∉ e.gate := by
  intro member
  obtain ⟨p, phase, _⟩ := order.waiting id e t here member
  simp [idle] at phase

/-- Entries may change their content as long as gates and keys stay, no entry comes back into the
    table, and none that a get loads leaves it. -/
theorem edited {s s' : State κ α ε} (order : Orderly s) (tasks : s'.tasks = s.tasks)
    (g : Nat → Entry κ α ε → Entry κ α ε)
    (entries : ∀ j, s'.entries[j]? = s.entries[j]?.map (g j))
    (same : ∀ j e, (g j e).key = e.key ∧ (g j e).holder = e.holder ∧ (g j e).queue = e.queue)
    (listed : ∀ j e, (g j e).listed = true → e.listed = true)
    (kept : ∀ t key id e, s.phase? t = some (.getLoading key id) → s.entries[id]? = some e →
      (g id e).listed = true) : Orderly s' := by
  have phases : ∀ t, s'.phase? t = s.phase? t := by intro t; simp [State.phase?, tasks]
  have back : ∀ j f, s'.entries[j]? = some f → ∃ e, s.entries[j]? = some e ∧ f = g j e := by
    intro j f there
    rw [entries, Option.map_eq_some_iff] at there
    obtain ⟨e, here, eq⟩ := there
    exact ⟨e, here, eq.symm⟩
  have gates : ∀ j e, (g j e).gate = e.gate := by
    intro j e
    obtain ⟨_, holder, queue⟩ := same j e
    simp [Entry.gate, holder, queue]
  constructor
  · intro i j e f there there' he hf keys
    obtain ⟨e, here, rfl⟩ := back i e there
    obtain ⟨f, here', rfl⟩ := back j f there'
    rw [(same i e).1, (same j f).1] at keys
    exact order.unique i j e f here here' (listed i e he) (listed j f hf) keys
  · intro t p phase
    rw [phases] at phase
    obtain ⟨e, here, member, fits⟩ := order.seated t p phase
    refine ⟨g p.entry e, by simp [entries, here], by rwa [gates], ?_⟩
    obtain ⟨key, holder, _⟩ := same p.entry e
    cases p with
    | getQueued | removeQueued => exact key.trans fits
    | getLoading k id => exact ⟨key.trans fits.1, kept t k id e phase here, holder.trans fits.2.2⟩
    | refreshing => exact holder.trans fits
  · intro id f t there member
    obtain ⟨e, here, rfl⟩ := back id f there
    rw [gates] at member
    simpa only [phases] using order.waiting id e t here member
  · intro id f there
    obtain ⟨e, here, rfl⟩ := back id f there
    rw [gates]
    exact order.nodup id e here
  · intro id f there nobody
    obtain ⟨e, here, rfl⟩ := back id f there
    obtain ⟨_, holder, queue⟩ := same id e
    rw [queue]
    exact order.free id e here (holder.symm.trans nobody)

theorem modified {s : State κ α ε} (order : Orderly s) (id : Nat)
    (f : Entry κ α ε → Entry κ α ε)
    (same : ∀ e, (f e).key = e.key ∧ (f e).holder = e.holder ∧ (f e).queue = e.queue)
    (listed : ∀ e, (f e).listed = true → e.listed = true)
    (kept : ∀ t key e, s.phase? t = some (.getLoading key id) → s.entries[id]? = some e →
      (f e).listed = true) : Orderly (s.modifyEntry id f) := by
  refine order.edited rfl (fun j e => if j = id then f e else e) ?_ ?_ ?_ ?_
  · intro j
    rw [State.getElem?_modifyEntry]
    split <;> simp_all
  · intro j e; split
    · exact same e
    · exact ⟨rfl, rfl, rfl⟩
  · intro j e; split
    · exact listed e
    · exact fun h => h
  · intro t key j e phase here; split
    · rename_i at_id
      subst at_id
      exact kept t key e phase here
    · exact (order.getLoading_fits phase here).2.1

theorem refilled {s : State κ α ε} (order : Orderly s) (id : Nat) (f : Entry κ α ε → Entry κ α ε)
    (same : ∀ e, (f e).key = e.key ∧ (f e).holder = e.holder ∧ (f e).queue = e.queue)
    (listed : ∀ e, (f e).listed = e.listed) : Orderly (s.modifyEntry id f) := by
  refine order.modified id f same (fun e h => listed e ▸ h) ?_
  intro t key e phase here
  rw [listed]
  exact (order.getLoading_fits phase here).2.1

theorem reseated {s s' : State κ α ε} (order : Orderly s) {t : TaskId} {id : Nat} {e : Entry κ α ε}
    {f : Entry κ α ε → Entry κ α ε} (here : s.entries[id]? = some e)
    (entries : s'.entries = (s.modifyEntry id f).entries)
    (others : ∀ u, u ≠ t → s'.phase? u = s.phase? u)
    (before : ∀ p, s.phase? t = some p → p.entry = id)
    (after : ∀ p, s'.phase? t = some p → p.entry = id ∧ t ∈ (f e).gate ∧ p.Fits t (f e))
    (gone : s'.phase? t = none → t ∉ (f e).gate)
    (key : (f e).key = e.key) (listed : (f e).listed = e.listed)
    (stay : ∀ u, u ≠ t → (u ∈ (f e).gate ↔ u ∈ e.gate))
    (kept : ∀ u, u ≠ t → e.holder = some u → (f e).holder = some u)
    (nodup : (f e).gate.Nodup) (free : (f e).holder = none → (f e).queue = []) : Orderly s' := by
  have there : s'.entries[id]? = some (f e) := by
    rw [entries, State.modifyEntry_of_getElem? here]
  have elsewhere : ∀ j, j ≠ id → s'.entries[j]? = s.entries[j]? := by
    intro j apart
    rw [entries, State.getElem?_modifyEntry, if_neg apart]
  have which : ∀ (j : Nat) (g : Entry κ α ε), s'.entries[j]? = some g →
      j = id ∧ g = f e ∨ j ≠ id ∧ s.entries[j]? = some g := by
    intro j g now
    by_cases at_id : j = id
    · rw [at_id, there] at now
      exact Or.inl ⟨at_id, (Option.some.inj now).symm⟩
    · exact Or.inr ⟨at_id, (elsewhere j at_id).symm.trans now⟩
  -- what an entry is in the table for does not change
  have back : ∀ (j : Nat) (g : Entry κ α ε), s'.entries[j]? = some g →
      ∃ g₀ : Entry κ α ε, s.entries[j]? = some g₀ ∧ g.key = g₀.key ∧ g.listed = g₀.listed := by
    intro j g now
    rcases which j g now with ⟨rfl, rfl⟩ | ⟨_, was⟩
    · exact ⟨e, here, key, listed⟩
    · exact ⟨g, was, rfl, rfl⟩
  constructor
  · intro i j g h now now' hg hh keys
    obtain ⟨g₀, was, gkey, glisted⟩ := back i g now
    obtain ⟨h₀, was', hkey, hlisted⟩ := back j h now'
    exact order.unique i j g₀ h₀ was was' (glisted ▸ hg) (hlisted ▸ hh)
      (gkey.symm.trans (keys.trans hkey))
  · intro u p phase
    by_cases self : u = t
    · subst self
      obtain ⟨at_id, member, fits⟩ := after p phase
      exact ⟨f e, at_id ▸ there, member, fits⟩
    · rw [others u self] at phase
      obtain ⟨g, was, member, fits⟩ := order.seated u p phase
      by_cases at_id : p.entry = id
      · rw [at_id, here] at was
        cases was
        refine ⟨f e, at_id ▸ there, (stay u self).2 member, ?_⟩
        cases p with
        | getQueued | removeQueued => exact key.trans fits
        | getLoading k j =>
          exact ⟨key.trans fits.1, listed.trans fits.2.1, kept u self fits.2.2⟩
        | refreshing => exact kept u self fits
      · exact ⟨g, (elsewhere _ at_id).trans was, member, fits⟩
  · intro j g u now member
    by_cases self : u = t
    · subst self
      rcases which j g now with ⟨rfl, rfl⟩ | ⟨away, was⟩
      · cases phase : s'.phase? u with
        | none => exact absurd member (gone phase)
        | some p => exact ⟨p, rfl, (after p phase).1⟩
      · obtain ⟨p, phase, place⟩ := order.waiting j g u was member
        exact absurd (place.symm.trans (before p phase)) away
    · rw [others u self]
      rcases which j g now with ⟨rfl, rfl⟩ | ⟨_, was⟩
      · exact order.waiting j e u here ((stay u self).1 member)
      · exact order.waiting j g u was member
  · intro j g now
    rcases which j g now with ⟨rfl, rfl⟩ | ⟨_, was⟩
    · exact nodup
    · exact order.nodup j g was
  · intro j g now nobody
    rcases which j g now with ⟨rfl, rfl⟩ | ⟨_, was⟩
    · exact free nobody
    · exact order.free j g was nobody

end Orderly

theorem gate_acquire (e : Entry κ α ε) (t : TaskId) (free : e.queue = []) :
    (e.acquire t).gate = [t] := by
  simp [Entry.gate, Entry.acquire, free]

theorem gate_enqueue (e : Entry κ α ε) (t : TaskId) : (e.enqueue t).gate = e.gate ++ [t] := by
  simp [Entry.gate, Entry.enqueue]

theorem gate_release (e : Entry κ α ε) {t : TaskId} (holds : e.holder = some t) :
    e.gate = t :: e.release.gate := by
  cases line : e.queue <;> simp [Entry.gate, Entry.release, holds, line]

theorem gate_leave (e : Entry κ α ε) {t : TaskId} (waits : e.holder ≠ some t) :
    (e.leave t).gate = e.gate.filter (· ≠ t) := by
  cases holds : e.holder with
  | none => simp [Entry.gate, Entry.leave, holds]
  | some u =>
    have apart : u ≠ t := by
      intro same
      exact waits (same ▸ holds)
    simp [Entry.gate, Entry.leave, holds, apart]

theorem queue_release_nil (e : Entry κ α ε) (free : e.release.holder = none) :
    e.release.queue = [] := by
  cases line : e.queue <;> simp_all [Entry.release]

namespace Orderly

theorem added [DecidableEq κ] {s : State κ α ε} (order : Orderly s) {key : κ}
    (missing : s.find? key = none) : Orderly (s.addEntry key) := by
  -- an entry is the new one, or was there before
  have back : ∀ (j : Nat) (g : Entry κ α ε), (s.addEntry key).entries[j]? = some g →
      j = s.entries.length ∧ g = .vacant key s.now ∨ s.entries[j]? = some g := by
    intro j g now
    rw [State.getElem?_addEntry] at now
    split at now
    · rename_i last
      exact Or.inl ⟨last, (Option.some.inj now).symm⟩
    · exact Or.inr now
  have kept : ∀ (j : Nat) (g : Entry κ α ε), s.entries[j]? = some g →
      (s.addEntry key).entries[j]? = some g := by
    intro j g was
    have bound := (List.getElem?_eq_some_iff.1 was).1
    rw [State.getElem?_addEntry, if_neg (Nat.ne_of_lt bound), was]
  constructor
  · intro i j g h now now' hg hh keys
    rcases back i g now with ⟨last, rfl⟩ | was <;> rcases back j h now' with ⟨last', rfl⟩ | was'
    · exact last.trans last'.symm
    · exact absurd keys.symm (State.find?_eq_none missing was' hh)
    · exact absurd keys (State.find?_eq_none missing was hg)
    · exact order.unique i j g h was was' hg hh keys
  · intro t p phase
    obtain ⟨e, here, rest⟩ := order.seated t p phase
    exact ⟨e, kept _ e here, rest⟩
  · intro j g t now member
    rcases back j g now with ⟨_, rfl⟩ | was
    · simp [Entry.gate, Entry.vacant] at member
    · exact order.waiting j g t was member
  · intro j g now
    rcases back j g now with ⟨_, rfl⟩ | was
    · simp [Entry.gate, Entry.vacant]
    · exact order.nodup j g was
  · intro j g now nobody
    rcases back j g now with ⟨_, rfl⟩ | was
    · rfl
    · exact order.free j g was nobody

theorem invalidated {s : State κ α ε} (order : Orderly s) :
    Orderly { s with entries := s.entries.map Entry.invalidate } := by
  refine order.edited rfl (fun _ => Entry.invalidate) (by simp) ?_ ?_ ?_
  · intro _ e
    unfold Entry.invalidate
    split
    · split <;> exact ⟨rfl, rfl, rfl⟩
    · exact ⟨rfl, rfl, rfl⟩
  · intro _ e
    unfold Entry.invalidate
    split
    · intro _; assumption
    · exact fun h => h
  · intro t key id e phase here
    obtain ⟨_, listed, holds⟩ := order.getLoading_fits phase here
    simp [Entry.invalidate, listed, holds, Entry.clear]

theorem quitted {s : State κ α ε} (order : Orderly s) {t : TaskId} {p : Phase κ} {e : Entry κ α ε}
    (phase : s.phase? t = some p) (here : s.entries[p.entry]? = some e) :
    Orderly (s.cancel t p.entry e).1 := by
  have distinct := order.nodup _ e here
  have only : ∀ q, s.phase? t = some q → q.entry = p.entry := by
    intro q again
    rw [phase] at again
    cases again
    rfl
  by_cases holds : e.holder = some t
  · have gate := gate_release e holds
    have next : (s.cancel t p.entry e).1 = (s.dropTask t).modifyEntry p.entry Entry.release := by
      simp [State.cancel, holds, State.release]
    rw [next]
    refine order.reseated (t := t) (f := Entry.release) here rfl ?_ only ?_ ?_ rfl rfl ?_ ?_ ?_ ?_
    · intro u apart; simp [apart]
    · intro q again; simp at again
    · intro _ member
      rw [gate, List.nodup_cons] at distinct
      exact distinct.1 member
    · intro u apart
      rw [gate, List.mem_cons]
      exact ⟨Or.inr, fun h => h.resolve_left apart⟩
    · intro u apart held
      rw [holds] at held
      exact absurd (Option.some.inj held).symm apart
    · exact (List.nodup_cons.1 (gate ▸ distinct)).2
    · exact queue_release_nil e
  · have gate := gate_leave e holds
    have next : (s.cancel t p.entry e).1 = (s.dropTask t).modifyEntry p.entry (·.leave t) := by
      simp [State.cancel, holds]
    rw [next]
    refine order.reseated (t := t) (f := (·.leave t)) here rfl ?_ only ?_ ?_ rfl rfl ?_ ?_ ?_ ?_
    · intro u apart; simp [apart]
    · intro q again; simp at again
    · intro _ member
      rw [gate] at member
      simp at member
    · intro u apart
      rw [gate]
      simp [apart]
    · intro u _ held; exact held
    · rw [gate]; exact distinct.filter _
    · intro nobody
      simp [Entry.leave, order.free _ e here nobody]

theorem begun {s : State κ α ε} (order : Orderly s) {t : TaskId} {p : Phase κ} {e : Entry κ α ε}
    (idle : s.phase? t = none) (here : s.entries[p.entry]? = some e) (free : e.holder = none)
    (fits : p.Fits t (e.acquire t)) :
    Orderly ((s.modifyEntry p.entry (·.acquire t)).setPhase t p) := by
  have gate := gate_acquire e t (order.free _ e here free)
  refine order.reseated (t := t) (f := (·.acquire t)) here rfl ?_ ?_ ?_ ?_ rfl rfl ?_ ?_ ?_ ?_
  · intro u apart; simp [apart]
  · intro q phase; simp [idle] at phase
  · intro q phase
    simp only [State.phase?_setPhase, if_true, Option.some.injEq] at phase
    subst phase
    exact ⟨rfl, by simp [gate], fits⟩
  · intro absent; simp at absent
  · intro u apart
    have empty := order.free _ e here free
    rw [gate]
    simp [Entry.gate, free, empty, apart]
  · intro u _ held; simp [free] at held
  · simp [gate]
  · intro nobody; simp [Entry.acquire] at nobody

theorem queued {s : State κ α ε} (order : Orderly s) {t : TaskId} {p : Phase κ} {e : Entry κ α ε}
    (idle : s.phase? t = none) (here : s.entries[p.entry]? = some e) (busy : e.holder.isSome = true)
    (line : p.isLoad = false) (fits : p.Fits t e) :
    Orderly ((s.modifyEntry p.entry (·.enqueue t)).setPhase t p) := by
  have gate := gate_enqueue e t
  have absent := order.absent_of_idle idle here
  refine order.reseated (t := t) (f := (·.enqueue t)) here rfl ?_ ?_ ?_ ?_ rfl rfl ?_ ?_ ?_ ?_
  · intro u apart; simp [apart]
  · intro q phase; simp [idle] at phase
  · intro q phase
    simp only [State.phase?_setPhase, if_true, Option.some.injEq] at phase
    subst phase
    refine ⟨rfl, by simp [gate], ?_⟩
    cases p with
    | getQueued | removeQueued => exact fits
    | getLoading | refreshing => cases line
  · intro absent; simp at absent
  · intro u apart; simp [gate, apart]
  · intro u _ held; exact held
  · rw [gate, List.nodup_append]
    refine ⟨order.nodup _ e here, by simp, ?_⟩
    intro u member v single
    rw [List.mem_singleton] at single
    exact fun same => absent (single ▸ same ▸ member)
  · intro nobody
    simp only [Entry.enqueue] at nobody
    simp [nobody] at busy

theorem promoted {s : State κ α ε} (order : Orderly s) {t : TaskId} {key : κ} {id failures : Nat}
    {e : Entry κ α ε} (phase : s.phase? t = some (.getQueued key id failures))
    (here : s.entries[id]? = some e) (holds : e.holder = some t) (listed : e.listed = true) :
    Orderly ((s.modifyEntry id (·.acquire t)).setPhase t (.getLoading key id)) := by
  have same : e.acquire t = e := by simp [Entry.acquire, ← holds]
  obtain ⟨g, there, _, fits⟩ := order.seated t _ phase
  have own : some g = some e := there.symm.trans here
  cases own
  refine order.reseated (t := t) (f := (·.acquire t)) here rfl ?_ ?_ ?_ ?_ rfl rfl ?_ ?_ ?_ ?_
  · intro u apart; simp [apart]
  · intro q again
    rw [phase] at again
    cases again
    rfl
  · intro q now
    simp only [State.phase?_setPhase, if_true, Option.some.injEq] at now
    subst now
    exact ⟨rfl, by simp [same, Entry.gate, holds], fits, listed, rfl⟩
  · intro absent; simp at absent
  · intro u _; rw [same]
  · intro u apart held
    rw [holds] at held
    exact absurd (Option.some.inj held).symm apart
  · rw [same]; exact order.nodup id e here
  · intro nobody; simp [Entry.acquire] at nobody

end Orderly

theorem move_orderly [DecidableEq κ] {who : Actor} {s s' : State κ α ε} {seen : List (Signal κ α ε)}
    (move : Move who s seen s') (order : Orderly s) : Orderly s' := by
  cases move with
  | pass ms => exact ⟨order.unique, order.seated, order.waiting, order.nodup, order.free⟩
  | tell told => exact order
  | add missing => exact order.added missing
  | touch here full => exact order.refilled _ _ (fun _ => ⟨rfl, rfl, rfl⟩) fun _ => rfl
  | put value found => exact order.refilled _ _ (fun _ => ⟨rfl, rfl, rfl⟩) fun _ => rfl
  | invalidate => exact order.invalidated
  | store used value phase load here holds =>
    rename_i t p e
    have filled := order.refilled p.entry (·.install s.now used value) (fun _ => ⟨rfl, rfl, rfl⟩)
      fun _ => rfl
    have there := State.modifyEntry_of_getElem? here (·.install s.now used value)
    have left := filled.quitted phase there
    have keeps : (e.install s.now used value).holder = some t := holds
    rwa [State.cancel, if_pos keeps] at left
  | fail error phase load => exact order.refilled _ _ (fun _ => ⟨rfl, rfl, rfl⟩) fun _ => rfl
  | unlist unloaded =>
    refine order.modified _ _ (fun _ => ⟨rfl, rfl, rfl⟩) (by simp [Entry.detach]) ?_
    intro t key _ phase _
    exact absurd (unloaded t _ phase rfl) (by simp [Phase.isLoad])
  | begin idle here free load fits lack => exact order.begun idle here free fits
  | queue idle here busy line fits => exact order.queued idle here busy line fits
  | promote phase here holds lack listed => exact order.promoted phase here holds listed
  | quit phase here => exact order.quitted phase here

end SingleFlight
end MetricGateway
