import MetricGateway.Proofs.SingleFlight.Errand

/- Nobody sees a refresh before it has succeeded. Gets are served the value that the table has,
   whoever is at the gate, and a refresh that fails leaves every entry with its value and times.
   What its sweep does afterwards is to take expired entries out of the table. -/
namespace MetricGateway
namespace SingleFlight

variable {κ α ε : Type}

/-- What "nothing changed" means for an entry, its gate and its place in the table apart. -/
structure Entry.SameRecord (e e' : Entry κ α ε) : Prop where
  key : e'.key = e.key
  value : e'.value = e.value
  loadedAt : e'.loadedAt = e.loadedAt
  usedAt : e'.usedAt = e.usedAt

theorem Entry.SameRecord.rfl {e : Entry κ α ε} : e.SameRecord e :=
  ⟨.refl _, .refl _, .refl _, .refl _⟩

theorem Entry.SameRecord.trans {e e' e'' : Entry κ α ε} (first : e.SameRecord e')
    (rest : e'.SameRecord e'') : e.SameRecord e'' :=
  ⟨rest.key.trans first.key, rest.value.trans first.value, rest.loadedAt.trans first.loadedAt,
    rest.usedAt.trans first.usedAt⟩

def State.SameRecords (s s' : State κ α ε) : Prop :=
  ∀ (id : Nat) (e : Entry κ α ε), s.entries[id]? = some e →
    ∃ e', s'.entries[id]? = some e' ∧ e.SameRecord e'

theorem sameRecords_release (s : State κ α ε) (id : Nat) : s.SameRecords (s.release id).1 := by
  intro j e here
  change ∃ e', (s.modifyEntry id Entry.release).entries[j]? = some e' ∧ e.SameRecord e'
  rw [State.getElem?_modifyEntry, here]
  split
  · exact ⟨e.release, rfl, ⟨rfl, rfl, rfl, rfl⟩⟩
  · exact ⟨e, rfl, .rfl⟩

/-- An entry has its content, and leaves the table, if it does, by expiry. -/
structure Entry.Spared (seen : List (Signal κ α ε)) (e e' : Entry κ α ε) : Prop where
  same : e.SameRecord e'
  listed : e'.listed = true → e.listed = true
  left : e.listed = true → e'.listed = true ∨ .expired e.key ∈ seen

variable [DecidableEq κ]

theorem contains_release (s : State κ α ε) (id : Nat) (key : κ) :
    (s.release id).1.contains key = s.contains key := by
  rw [Bool.eq_iff_iff, State.contains_eq_true_iff, State.contains_eq_true_iff]
  constructor
  · rintro ⟨j, e, there, rest⟩
    obtain ⟨e₀, here, ⟨_, rfl⟩ | ⟨_, rfl⟩⟩ := State.getElem?_of_modifyEntry there
    · exact ⟨j, e₀, here, rest⟩
    · exact ⟨j, e, here, rest⟩
  · rintro ⟨j, e, here, rest⟩
    by_cases at_id : j = id
    · subst at_id
      exact ⟨j, e.release, State.modifyEntry_of_getElem? here Entry.release, rest⟩
    · refine ⟨j, e, ?_, rest⟩
      exact (State.getElem?_modifyEntry s id j Entry.release).trans (by rw [if_neg at_id, here])

theorem spared_of_edits {s : State κ α ε} {t : TaskId} {id : Nat} {rest : List Nat} {began : Nat}
    (phase : s.phase? t = some (.refreshing id rest began)) {error : ε}
    {seen : List (Signal κ α ε)} {e e' : Entry κ α ε}
    (edits : Edits (s.causes (.loaded t (.error error)) seen) e e') : e.Spared seen e' := by
  -- Most edits need a cause that this step does not have: it asks for nothing and writes nothing.
  refine edits.keep (R := fun e e' => e.Spared seen e') ?_ ?_ ?_
  · intro e
    exact ⟨.rfl, fun listed => listed, Or.inl⟩
  · intro e f g first rest
    refine ⟨first.same.trans rest.same, fun listed => first.listed (rest.listed listed), ?_⟩
    intro listed
    rcases first.left listed with still | gone
    · rw [← first.same.key]
      exact rest.left still
    · exact Or.inr gone
  · intro e e' edit
    cases edit with
    | gate => exact ⟨⟨rfl, rfl, rfl, rfl⟩, fun listed => listed, Or.inl⟩
    | touch got => cases got
    | install written => cases written
    | fail failed =>
      obtain ⟨u, j, loads, same⟩ := failed
      cases same
      cases phase.symm.trans loads
    | invalidate clears => cases clears
    | remove gone => cases gone.1
    | expire old =>
      refine ⟨⟨rfl, rfl, rfl, rfl⟩, fun listed => ?_, fun _ => Or.inr old.2⟩
      cases listed

theorem contains_of_spared {s s' : State κ α ε} {seen : List (Signal κ α ε)}
    (kept : ∀ (id : Nat) (e : Entry κ α ε), s.entries[id]? = some e →
      ∃ e', s'.entries[id]? = some e' ∧ e.Spared seen e')
    (made : ∀ (id : Nat) (e' : Entry κ α ε), s.entries[id]? = none → s'.entries[id]? = some e' →
      e'.value = none) (key : κ) :
    (s'.contains key = true → s.contains key = true) ∧
      (s.contains key = true → s'.contains key = true ∨ .expired key ∈ seen) := by
  simp only [State.contains_eq_true_iff]
  constructor
  · rintro ⟨id, e', there, listed, full, own⟩
    cases here : s.entries[id]? with
    | none => simp [made id e' here there] at full
    | some e =>
      obtain ⟨f, same, spared⟩ := kept id e here
      cases there.symm.trans same
      exact ⟨id, e, here, spared.listed listed, spared.same.value ▸ full, spared.same.key ▸ own⟩
  · rintro ⟨id, e, here, listed, full, rfl⟩
    obtain ⟨e', there, spared⟩ := kept id e here
    rcases spared.left listed with still | gone
    · exact Or.inl ⟨id, e', there, still, spared.same.value ▸ full, spared.same.key⟩
    · exact Or.inr gone

theorem get_served {s : State κ α ε} (order : Orderly s) {id : Nat} {e : Entry κ α ε} {v : α}
    (here : s.entries[id]? = some e) (listed : e.listed = true) (full : e.value = some v)
    {t : TaskId} (idle : s.phase? t = none) :
    ∃ s', step? s (.get t e.key) = some (s', [.finished t (.got v)]) ∧ s'.phase? t = none := by
  obtain ⟨s', step⟩ := order.get_held here listed full idle
  refine ⟨s', step, ?_⟩
  obtain ⟨_, _, goes⟩ := step_goes order step rfl (fun same => by cases same)
  cases goes with
  | done gone => exact gone
  | waits _ silent => simp [Effect.ends, Signal.endOf?] at silent

/-- Whatever else is in flight, a get of a key with a value in the table ends with it in its first
    step, and calls no loader. A refresh that fails can fail at any moment, and leaves all entries
    their values and times and all held keys held before its sweep goes on; the sweep then changes
    no value or time either, and takes out keys that have expired. -/
theorem refresh_unseen_until_done {settings : Settings} {now : Nat}
    {actions : List (Action κ α ε)} {s : State κ α ε} {seen : List (Signal κ α ε)}
    (reached : run? { settings, now } actions = some (s, seen)) :
    (∀ (id : Nat) (e : Entry κ α ε) (v : α) (t : TaskId), s.entries[id]? = some e →
      e.listed = true → e.value = some v → s.phase? t = none →
        ∃ s', step? s (.get t e.key) = some (s', [.finished t (.got v)]) ∧ s'.phase? t = none) ∧
    ∀ (t : TaskId) (id : Nat) (rest : List Nat) (began : Nat) (error : ε),
      s.phase? t = some (.refreshing id rest began) →
        ∃ e s₁ handed s' more, s.entries[id]? = some e ∧
          step? s (.loaded t (.error error)) =
              some (s', .refreshed e.key false :: handed ++ more) ∧
            (∀ signal ∈ handed, ∃ u, signal = .granted u) ∧
            s₁.sweepOver t began rest = (s', more) ∧
            s.SameRecords s₁ ∧ (∀ k, s₁.contains k = s.contains k) ∧
            s.SameRecords s' ∧
            ∀ k, (s'.contains k = true → s.contains k = true) ∧
              (s.contains k = true → s'.contains k = true ∨ .expired k ∈ more) := by
  have order := run_orderly (orderly_initial settings now) reached
  refine ⟨fun id e v t here listed full idle => get_served order here listed full idle, ?_⟩
  intro t id rest began error phase
  obtain ⟨e, here, _⟩ := order.seated t _ phase
  change s.entries[id]? = some e at here
  have step : step? s (.loaded t (.error error)) =
      some (s.endRefresh t id rest began e.key (.error error)) := by
    have entry : s.entries[(Phase.refreshing (κ := κ) id rest began).entry]? = some e := here
    simp [step?, phase, entry]
  have edited := step_edited order step
  have kept : ∀ (j : Nat) (f : Entry κ α ε), s.entries[j]? = some f → ∃ f',
      (s.endRefresh t id rest began e.key (.error error)).1.entries[j]? = some f' ∧
        f.Spared (s.endRefresh t id rest began e.key (.error error)).2 f' := by
    intro j f there
    obtain ⟨f', after, edits⟩ := edited.kept j f there
    exact ⟨f', after, spared_of_edits phase edits⟩
  have made : ∀ (j : Nat) (f' : Entry κ α ε), s.entries[j]? = none →
      (s.endRefresh t id rest began e.key (.error error)).1.entries[j]? = some f' →
        f'.value = none := by
    intro j f' absent after
    obtain ⟨key, time, edits⟩ := edited.made j f' absent after
    exact (spared_of_edits phase edits).same.value
  refine ⟨e, (s.release id).1, (s.release id).2, _, _, here, step, ?_, rfl,
    sameRecords_release s id, contains_release s id, ?_, ?_⟩
  · intro signal member
    obtain ⟨u, _, rfl⟩ := List.mem_map.1 member
    exact ⟨u, rfl⟩
  · intro j f there
    obtain ⟨f', after, spared⟩ := kept j f there
    exact ⟨f', after, spared.same⟩
  · intro k
    obtain ⟨back, still⟩ := contains_of_spared kept made k
    refine ⟨back, fun held => (still held).imp_right fun expired => ?_⟩
    -- The signals before the sweep's own are of the refresh and of the gate it leaves.
    rcases List.mem_append.1 expired with first | later
    · rcases List.mem_append.1 first with told | granted
      · simp at told
      · obtain ⟨u, _, same⟩ := List.mem_map.1 granted
        cases same
    · exact later

/-- A sweep waits for the reload of one key, with another one to come that has expired, and a
    removal stands in line behind it. -/
def removalBehindRefresh : List (Action Nat Nat Unit) :=
  [.put 0 10, .put 1 11, .advance 4, .get (.request 1) 0, .advance 4, .sweep (.request 0) [0, 1],
    .remove (.request 2) 0]

theorem get_served_beside_refresh :
    let start : State Nat Nat Unit := { settings := ⟨some 3, some 5, 1000, false⟩ }
    ∃ s s₁ s₂ seen handed more, run? start removalBehindRefresh = some (s, seen) ∧
      step? s (.get (.request 3) 0) = some (s₁, [.finished (.request 3) (.got 10)]) ∧
      step? s (.loaded (.request 0) (.error ())) =
          some (s₂, .refreshed 0 false :: handed ++ more) ∧
        s.SameRecords s₂ ∧ (s₂.contains 0 = true ∨ .expired 0 ∈ more) := by
  let start : State Nat Nat Unit := { settings := ⟨some 3, some 5, 1000, false⟩ }
  let first : Entry Nat Nat Unit :=
    { key := 0, value := some 10, loadedAt := 0, usedAt := 4, holder := some (.request 0),
      queue := [.request 2] }
  let second : Entry Nat Nat Unit := { key := 1, value := some 11, loadedAt := 0, usedAt := 0 }
  let s : State Nat Nat Unit := { start with
    now := 8, entries := [first, second],
    tasks := [(.request 0, .refreshing 0 [1] 8), (.request 2, .removeQueued 0 0)] }
  have reached : run? start removalBehindRefresh = some (s, [.sized 1, .sized 2,
    .finished (.request 1) (.got 10), .began (.request 0) 0]) := rfl
  have here : s.entries[0]? = some first := rfl
  obtain ⟨served, fails⟩ := refresh_unseen_until_done reached
  obtain ⟨s₁, got, _⟩ := served 0 first 10 (.request 3) here rfl rfl rfl
  obtain ⟨e, _, handed, s₂, more, there, ended, _, _, _, _, same, held⟩ :=
    fails (.request 0) 0 [1] 8 () rfl
  cases here.symm.trans there
  exact ⟨s, s₁, s₂, _, handed, more, reached, got, ended, same, (held 0).2 rfl⟩

end SingleFlight
end MetricGateway
