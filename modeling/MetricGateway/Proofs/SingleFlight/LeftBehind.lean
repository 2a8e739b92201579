import MetricGateway.Proofs.SingleFlight.Residue

/- Which entries stay in the table of an idle cache without a value: those of the keys whose last
   loads were abandoned. A load is abandoned only where a task is given up or all is invalidated. -/
namespace MetricGateway
namespace SingleFlight

variable {κ α ε : Type} [DecidableEq κ]

section Spared

variable {s s' : State κ α ε} {a : Action κ α ε} {seen : List (Signal κ α ε)}

/-- As long as nothing is invalidated, an entry of the table that has no value has no failure to
    share, and one that is reloaded has a value. -/
structure State.Spared (s : State κ α ε) : Prop where
  unfailed : ∀ (id : Nat) (e : Entry κ α ε), s.entries[id]? = some e → e.listed = true →
    e.value = none → e.lastError = none
  reloaded : ∀ (t : TaskId) (id : Nat) (rest : List Nat) (began : Nat) (e : Entry κ α ε),
    s.phase? t = some (.refreshing id rest began) → s.entries[id]? = some e → e.value ≠ none

theorem spares_of_edits (on : a ≠ .invalidateAll) {e e' : Entry κ α ε}
    (edits : Edits (s.causes a seen) e e') :
    (e.value ≠ none → e'.value ≠ none) ∧
      ((e.listed = true → e.value = none → e.lastError = none) →
        e'.listed = true → e'.value = none → e'.lastError = none) := by
  refine edits.keep (R := fun e e' : Entry κ α ε => (e.value ≠ none → e'.value ≠ none) ∧
    ((e.listed = true → e.value = none → e.lastError = none) →
      e'.listed = true → e'.value = none → e'.lastError = none)) ?_ ?_ ?_
  · intro e
    exact ⟨id, id⟩
  · intro e f g first rest
    exact ⟨rest.1 ∘ first.1, rest.2 ∘ first.2⟩
  · intro e e' edit
    cases edit with
    | gate | touch => exact ⟨id, id⟩
    | install =>
      refine ⟨fun _ => Option.some_ne_none _, ?_⟩
      intro _ _ empty
      cases empty
    | fail =>
      refine ⟨id, ?_⟩
      intro _ listed empty
      have vacant : e.value = none := empty
      simp [Entry.detachIfEmpty, Entry.fail, vacant] at listed
    | invalidate clears => exact absurd clears on
    | remove | expire =>
      refine ⟨id, ?_⟩
      intro _ listed
      cases listed

theorem step_spared (order : Orderly s) (on : a ≠ .invalidateAll)
    (step : step? s a = some (s', seen)) (spared : s.Spared) : s'.Spared := by
  have edited := step_edited order step
  constructor
  · intro id e' there
    cases here : s.entries[id]? with
    | some e =>
      obtain ⟨f, after, edits⟩ := edited.kept id e here
      cases there.symm.trans after
      exact (spares_of_edits on edits).2 (spared.unfailed id e here)
    | none =>
      obtain ⟨key, now, edits⟩ := edited.made id e' here there
      exact (spares_of_edits on edits).2 fun _ _ => rfl
  · intro t id rest began e' phase there
    by_cases acts : a.actor = .task t
    · have sweeps := sweeps_of_refreshing order step acts phase
      obtain ⟨s₁, ids, since, swept, _⟩ := sweepOver_of_step step sweeps
      change s' = (s₁.sweepOver t since ids).1 at swept
      obtain ⟨j, later, e, same, at_j, full, _⟩ := reloads_sweepOver (swept ▸ phase)
      cases same
      cases there.symm.trans (swept ▸ at_j)
      exact Option.ne_none_iff_isSome.2 full
    · have moves : Moves a.actor s seen s' := step_byMoves order step
      rw [moves.phase_of_other acts] at phase
      obtain ⟨e, here, _⟩ := order.seated t _ phase
      obtain ⟨f, after, edits⟩ := edited.kept id e here
      cases there.symm.trans after
      exact (spares_of_edits on edits).1 (spared.reloaded t id rest began e phase here)

omit [DecidableEq κ] in
theorem State.Spared.cancel_of_abandons {key : κ} (spared : s.Spared)
    (abandons : s.Abandons key a) : ∃ t, a = .cancel t := by
  cases abandons with
  | cancel => exact ⟨_, rfl⟩
  | reload phase last =>
    obtain ⟨e, here, _, _, empty, _⟩ := last
    exact absurd empty (spared.reloaded _ _ _ _ e phase here)
  | share _ here _ told last =>
    obtain ⟨e, there, _, listed, empty, _⟩ := last
    cases here.symm.trans there
    exact absurd (spared.unfailed _ _ here listed empty) told

theorem not_leavesBehind {key : κ} {actions : List (Action κ α ε)} (order : Orderly s)
    (spared : s.Spared) (calm : ∀ a ∈ actions, a ≠ .invalidateAll ∧ ∀ t, a ≠ .cancel t) :
    ¬ s.LeavesBehind key actions := by
  induction actions generalizing s with
  | nil => exact id
  | cons a rest ih =>
    obtain ⟨own, kept⟩ := calm a List.mem_cons_self
    rintro ⟨s₁, first, step, ⟨abandons, _⟩ | later⟩
    · obtain ⟨t, same⟩ := spared.cancel_of_abandons abandons
      exact kept t same
    · exact ih (step_orderly order step) (step_spared order own step spared)
        (fun b member => calm b (List.mem_cons_of_mem a member)) later

end Spared

omit [DecidableEq κ] in
theorem length_listedIds_eq (s : State κ α ε) :
    s.listedIds.length = s.entries.countP Entry.listed := by
  have each : ∀ entries : List (Entry κ α ε), ((List.range entries.length).filter fun id =>
      (entries[id]?.map Entry.listed).getD false).length = entries.countP Entry.listed := by
    intro entries
    induction entries with
    | nil => rfl
    | cons e rest ih =>
      rw [List.length_cons, List.range_succ_eq_map, List.filter_cons, List.filter_map,
        List.countP_cons, ← ih]
      simp only [Function.comp_def, List.getElem?_cons_succ, List.getElem?_cons_zero]
      cases listed : e.listed <;> simp [listed]
  exact each s.entries

omit [DecidableEq κ] in
theorem length_listedIds_eq_size_iff (s : State κ α ε) :
    s.listedIds.length = s.size ↔ ∀ e ∈ s.entries, e.listed = true → e.value ≠ none := by
  have split := List.countP_eq_countP_filter_add s.entries Entry.listed fun e => e.value.isSome
  rw [List.countP_filter, List.countP_filter] at split
  change _ = s.size + _ at split
  rw [length_listedIds_eq, split, Nat.add_eq_left, List.countP_eq_zero]
  simp

/-- Whatever a cache goes through, an entry of its table is without a value while nobody waits if
    the last load for it has been abandoned, and if nothing has taken it up since; and the table has
    as many entries as keys are held if there is none. Loads are abandoned where tasks are given up
    or all is invalidated. -/
theorem entry_empty_iff_left_behind {settings : Settings} {now : Nat}
    {actions : List (Action κ α ε)} {s : State κ α ε} {seen : List (Signal κ α ε)}
    (ran : run? { settings, now } actions = some (s, seen)) (idle : ∀ t, s.phase? t = none) :
    let start : State κ α ε := { settings, now }
    (∀ key, (∃ e ∈ s.entries, e.listed = true ∧ e.key = key ∧ e.value = none) ↔
      start.LeavesBehind key actions) ∧
    (s.listedIds.length = s.size ↔ ∀ key, ¬ start.LeavesBehind key actions) ∧
    ((∀ a ∈ actions, a ≠ .invalidateAll ∧ ∀ t, a ≠ .cancel t) →
      ∀ e ∈ s.entries, e.listed = true → e.value ≠ none) := by
  intro start
  have fresh := orderly_initial (κ := κ) (α := α) (ε := ε) settings now
  have order := run_orderly fresh ran
  have left : ∀ key, (∃ e ∈ s.entries, e.listed = true ∧ e.key = key ∧ e.value = none) ↔
      start.LeavesBehind key actions := by
    intro key
    have clean : ¬ start.Residue key := by
      rintro ⟨id, e, here, _⟩
      cases here
    have residue : s.Residue key ↔ _ := run_residue fresh ran
    rw [or_iff_left (fun both => clean both.1)] at residue
    rw [← residue]
    constructor
    · rintro ⟨e, member, listed, own, empty⟩
      obtain ⟨id, here⟩ := List.getElem?_of_mem member
      refine ⟨id, e, here, own, listed, empty, ?_⟩
      -- Who had the gate would be waiting.
      cases holds : e.holder with
      | none => rfl
      | some t =>
        obtain ⟨p, phase, _⟩ := order.phase_of_holder here holds
        cases (idle t).symm.trans phase
    · rintro ⟨id, e, here, own, listed, empty, _⟩
      exact ⟨e, List.mem_of_getElem? here, listed, own, empty⟩
  refine ⟨left, ?_, ?_⟩
  · rw [length_listedIds_eq_size_iff]
    constructor
    · intro full key behind
      obtain ⟨e, member, listed, _, empty⟩ := (left key).2 behind
      exact full e member listed empty
    · intro clean e member listed empty
      exact clean e.key ((left e.key).1 ⟨e, member, listed, rfl, empty⟩)
  · intro calm e member listed empty
    have spared : start.Spared := ⟨by simp [start], by simp [start, State.phase?]⟩
    have behind := (left e.key).1 ⟨e, member, listed, rfl, empty⟩
    exact not_leavesBehind fresh spared calm behind

/-- A put comes while a get loads and another one stands in line. When the load has failed all is
    invalidated, and the second get is told the failure. -/
def failureSharedAfterPut : List (Action Nat Nat Unit) :=
  [.get (.request 0) 7, .get (.request 1) 7, .put 7 5, .loaded (.request 0) (.error ()),
    .invalidateAll, .resume (.request 1)]

theorem shared_failure_leaves_entry_behind :
    let start : State Nat Nat Unit := { settings := ⟨none, none, 1000, false⟩ }
    ∃ s seen, run? start failureSharedAfterPut = some (s, seen) ∧ (∀ t, s.phase? t = none) ∧
      start.LeavesBehind 7 failureSharedAfterPut := by
  let start : State Nat Nat Unit := { settings := ⟨none, none, 1000, false⟩ }
  let left : Entry Nat Nat Unit :=
    { key := 7, loadedAt := 0, usedAt := 0, failures := 1, lastError := some () }
  have ran : run? start failureSharedAfterPut = some ({ start with entries := [left] },
    [.began (.request 0) 7, .sized 1, .finished (.request 0) (.failed ()), .granted (.request 1),
      .sized 0, .finished (.request 1) (.failed ())]) := rfl
  have idle : ∀ t, ({ start with entries := [left] } : State Nat Nat Unit).phase? t = none :=
    fun _ => rfl
  obtain ⟨empty, _, _⟩ := entry_empty_iff_left_behind ran idle
  exact ⟨_, _, ran, idle, (empty 7).1 ⟨left, .head _, rfl, rfl, rfl⟩⟩

/-- A key is reloaded when all is invalidated, and the reload fails: the table keeps an entry that
    has no value, though nobody is given up and no failure is shared. -/
theorem failed_reload_leaves_entry_behind :
    ∃ (s : State Nat Nat Unit) (seen : List (Signal Nat Nat Unit)),
      run? { settings := ⟨some 1, none, 1000, false⟩ } [.put 7 5, .advance 2,
          .sweep (.request 0) [0], .invalidateAll, .loaded (.request 0) (.error ())] =
        some (s, seen) ∧
      (∀ t, s.phase? t = none) ∧ (∃ e ∈ s.entries, e.listed = true ∧ e.value = none) ∧
        s.listedIds.length ≠ s.size := by
  let start : State Nat Nat Unit := { settings := ⟨some 1, none, 1000, false⟩ }
  let left : Entry Nat Nat Unit := { key := 7, loadedAt := 0, usedAt := 0 }
  refine ⟨{ start with now := 2, entries := [left] }, _, rfl, fun _ => rfl, ?_, by decide⟩
  exact ⟨left, .head _, rfl, rfl⟩

end SingleFlight
end MetricGateway
