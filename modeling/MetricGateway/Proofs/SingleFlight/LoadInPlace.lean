import MetricGateway.Proofs.SingleFlight.SharedOutcome

/- An entry stays in the table from the start of a get's load to its end. Expiry, removal and
   invalidation all stop at a gate that is taken, so that in between only puts and invalidations
   write to the entry, and its value is what they have left there. The load's end finds that value:
   a success replaces it, a failure leaves it and takes an entry without one away. -/
namespace MetricGateway
namespace SingleFlight

variable {κ α ε : Type}

def Action.endsCall (t : TaskId) : Action κ α ε → Bool
  | .loaded u _ | .cancel u => u = t
  | _ => false

section Refill

variable [DecidableEq κ]

/-- What puts and invalidations make of the value under a key. -/
def Action.refill (key : κ) (x : Option α) : Action κ α ε → Option α
  | .put own value => if own = key then some value else x
  | .invalidateAll => none
  | _ => x

theorem isSome_foldl_refill (key : κ) (actions : List (Action κ α ε)) (x : Option α) :
    (actions.foldl (Action.refill key) x).isSome = true ↔
      (∃ earlier v later, actions = earlier ++ .put key v :: later ∧ .invalidateAll ∉ later) ∨
        x.isSome = true ∧ .invalidateAll ∉ actions := by
  induction actions generalizing x with
  | nil => simp
  | cons a rest ih =>
    rw [List.foldl_cons, ih]
    constructor
    · rintro (⟨earlier, v, later, rfl, calm⟩ | ⟨full, calm⟩)
      · exact Or.inl ⟨a :: earlier, v, later, rfl, calm⟩
      · cases a with
        | put own value =>
          by_cases same : own = key
          · subst same
            exact Or.inl ⟨[], value, rest, rfl, calm⟩
          · exact Or.inr ⟨by simpa [Action.refill, same] using full, by simpa using calm⟩
        | invalidateAll => cases full
        | _ => exact Or.inr ⟨full, by simpa using calm⟩
    · rintro (⟨earlier, v, later, split, calm⟩ | ⟨full, calm⟩)
      · cases earlier with
        | nil =>
          cases split
          exact Or.inr ⟨by simp [Action.refill], calm⟩
        | cons b earlier =>
          cases split
          exact Or.inl ⟨earlier, v, later, rfl, calm⟩
      · rw [List.mem_cons, not_or] at calm
        refine Or.inr ⟨?_, calm.2⟩
        cases a with
        | put own value => simp only [Action.refill]; split <;> simp [full]
        | invalidateAll => exact absurd rfl calm.1
        | _ => exact full

end Refill

structure Loading (t : TaskId) (key : κ) (id : Nat) (x : Option α) (s : State κ α ε) : Prop where
  order : Orderly s
  phase : s.phase? t = some (.getLoading key id)
  value : ∃ e, s.entries[id]? = some e ∧ e.value = x

section Steps

variable [DecidableEq κ]

theorem Orderly.value_put {s : State κ α ε} (order : Orderly s) {id : Nat} {e : Entry κ α ε}
    (here : s.entries[id]? = some e) (listed : e.listed = true) (key : κ) (v : α) :
    ∃ e', (s.put key v).1.entries[id]? = some e' ∧
      e'.value = if key = e.key then some v else e.value := by
  have still := State.getElem?_claim here key
  by_cases own : key = e.key
  · subst own
    have claimed := order.claim_eq here listed
    refine ⟨e.install s.now true v, ?_, by simp [Entry.install]⟩
    simp only [State.put, claimed]
    exact State.modifyEntry_of_getElem? here _
  · obtain ⟨f, there, _, same⟩ := State.claim_listed s key
    have apart : id ≠ (s.claim key).2 := by
      intro at_id
      rw [← at_id, still] at there
      cases there
      exact own same.symm
    refine ⟨e, ?_, by simp [own]⟩
    have entries : (s.put key v).1.entries = ((s.claim key).1.modifyEntry (s.claim key).2
        (·.install (s.claim key).1.now true v)).entries := rfl
    rw [entries, State.getElem?_modifyEntry, if_neg apart, still]

theorem Loading.step {s s' : State κ α ε} {a : Action κ α ε} {seen : List (Signal κ α ε)}
    {t : TaskId} {key : κ} {id : Nat} {x : Option α} (loading : Loading t key id x s)
    (goes : a.endsCall t = false) (step : step? s a = some (s', seen)) :
    Loading t key id (a.refill key x) s' := by
  obtain ⟨order, phase, e, here, value⟩ := loading
  have moves : Moves a.actor s seen s' := step_byMoves order step
  obtain ⟨own, listed, holds⟩ := order.getLoading_fits phase here
  have other : a.actor ≠ .task t := by
    intro acts
    rcases step_of_waiting step acts phase with ⟨_, line, _⟩ | ⟨_, outcome, rfl⟩ | rfl
    · cases line
    · simp [Action.endsCall] at goes
    · simp [Action.endsCall] at goes
  refine ⟨step_orderly order step, (moves.phase_of_other other).trans phase, ?_⟩
  -- Only a caller writes past a taken gate. All other steps are made of moves that keep the entry.
  by_cases calls : a.actor = .caller
  · cases a with
    | put asked v =>
      cases step
      obtain ⟨e', there, written⟩ := order.value_put here listed asked v
      exact ⟨e', there, by rw [written, own, value]; rfl⟩
    | invalidateAll =>
      cases step
      refine ⟨e.invalidate, by simp [here], ?_⟩
      simp [Entry.invalidate, listed, holds, Entry.clear, Action.refill]
    | get | remove | sweep | resume | loaded | cancel | advance => cases calls
  · have unwritten : a.refill key x = x := by
      cases a with
      | put | invalidateAll => exact absurd rfl calls
      | get | remove | sweep | resume | loaded | cancel | advance => rfl
    have kept : Loading t key id x s' := by
      refine moves.keep (P := Loading t key id x) ?_ ⟨order, phase, e, here, value⟩
      intro s seen s' move loading
      obtain ⟨order, phase, e, here, value⟩ := loading
      obtain ⟨_, _, holds⟩ := order.getLoading_fits phase here
      obtain ⟨e', there, keeps⟩ := move.content_kept calls here (order.only_loader here holds other)
      exact ⟨move_orderly move order, (move.phase_of_other other).trans phase, e', there,
        keeps.value.trans value⟩
    rw [unwritten]
    exact kept.value

theorem Loading.run {actions : List (Action κ α ε)} {s s' : State κ α ε}
    {seen : List (Signal κ α ε)} {t : TaskId} {key : κ} {id : Nat} {x : Option α}
    (loading : Loading t key id x s) (goes : ∀ a ∈ actions, a.endsCall t = false)
    (ran : run? s actions = some (s', seen)) :
    Loading t key id (actions.foldl (Action.refill key) x) s' := by
  induction actions generalizing s seen x with
  | nil => cases ran; exact loading
  | cons a rest ih =>
    obtain ⟨s₁, first, more, step, others, _⟩ := run_cons ran
    have later := loading.step (goes a List.mem_cons_self) step
    exact ih later (fun b member => goes b (List.mem_cons_of_mem a member)) others

theorem loading_of_start {s s' : State κ α ε} {a : Action κ α ε} {seen : List (Signal κ α ε)}
    (order : Orderly s) (step : step? s a = some (s', seen)) {t : TaskId} {key : κ} {id : Nat}
    (begins : .began t key ∈ seen) (phase : s'.phase? t = some (.getLoading key id)) :
    Loading t key id none s' := by
  have moves : Moves a.actor s seen s' := step_byMoves order step
  have acts : a.actor = .task t := by
    refine Decidable.byContradiction fun other => ?_
    have silent := moves.own_eq_false other _ begins
    simp [Signal.own] at silent
  have start : UnfilledBy t s := by
    intro asked place e loads here
    -- A get that loads does not begin a call: its next step is the end of its own.
    rcases step_of_waiting step acts loads with ⟨_, line, _⟩ | ⟨_, outcome, rfl⟩ | rfl
    · cases line
    · have ended := State.phase?_endLoad s t t place outcome
      rw [Option.some.inj ((step_loaded loads here outcome).symm.trans step), if_pos rfl] at ended
      rw [ended] at phase
      cases phase
    · have entry : s.entries[(Phase.getLoading asked place).entry]? = some e := here
      simp only [step?, loads, entry, Option.bind_eq_bind, Option.bind_some,
        Option.some.injEq] at step
      have gone : s'.phase? t = none := by
        rw [State.cancel] at step
        split at step <;> cases step <;> simp
      rw [gone] at phase
      cases phase
  have order' := step_orderly order step
  rw [acts] at moves
  have unfilled : UnfilledBy t s' :=
    moves.keep (P := UnfilledBy t) (fun move unfilled => move.unfilledBy unfilled) start
  obtain ⟨e, here, _⟩ := order'.holder_of_load phase rfl
  exact ⟨order', phase, e, here, unfilled key id e phase here⟩

theorem Loading.succeeds {s : State κ α ε} {t : TaskId} {key : κ} {id : Nat} {x : Option α}
    (loading : Loading t key id x s) (v : α) :
    ∃ s' seen, step? s (.loaded t (.ok v)) = some (s', seen) ∧ s'.contains key = true ∧
      ∀ u, s'.phase? u = none → ∃ s'', step? s' (.get u key) = some (s'', [.finished u (.got v)]) := by
  obtain ⟨order, phase, e, here, _⟩ := loading
  obtain ⟨own, listed, _⟩ := order.getLoading_fits phase here
  have step := step_loaded phase here (.ok v)
  have order' := step_orderly order step
  have filled := State.modifyEntry_of_getElem? here (·.install s.now true v)
  have there : (s.endLoad t id (.ok v)).1.entries[id]? =
      some (e.install s.now true v).release := State.modifyEntry_of_getElem? filled Entry.release
  have still : (e.install s.now true v).release.listed = true := listed
  have same : (e.install s.now true v).release.key = key := own
  have full : (e.install s.now true v).release.value = some v := rfl
  refine ⟨_, _, step, ?_, fun u idle => ?_⟩
  · have held := order'.contains_iff there still
    rw [same] at held
    exact held.2 (by rw [full]; rfl)
  · have served := order'.get_held there still full idle
    rwa [same] at served

theorem Loading.fails {s : State κ α ε} {t : TaskId} {key : κ} {id : Nat} {x : Option α}
    (loading : Loading t key id x s) (error : ε) :
    ∃ s' seen, step? s (.loaded t (.error error)) = some (s', seen) ∧
      (s'.contains key = true ↔ x.isSome = true) := by
  obtain ⟨order, phase, e, here, value⟩ := loading
  obtain ⟨own, listed, _⟩ := order.getLoading_fits phase here
  have step := step_loaded phase here (.error error)
  refine ⟨(s.endLoad t id (.error error)).1, (s.endLoad t id (.error error)).2, step, ?_⟩
  have both := State.modifyEntry_modifyEntry s id (fun e => (e.fail error).detachIfEmpty)
    Entry.release
  have entries : (s.endLoad t id (.error error)).1.entries = (s.modifyEntry id
      (Entry.release ∘ fun e => (e.fail error).detachIfEmpty)).entries :=
    congrArg (·.entries) both
  simp only [State.contains, entries, List.any_eq_true, Entry.held, Bool.and_eq_true,
    decide_eq_true_eq]
  constructor
  · rintro ⟨f, member, ⟨kept, full⟩, same⟩
    obtain ⟨j, there⟩ := List.getElem?_of_mem member
    obtain ⟨g, before, ⟨_, rfl⟩ | ⟨apart, rfl⟩⟩ := State.getElem?_of_modifyEntry there
    · cases value
      rename_i at_id
      cases here.symm.trans (at_id ▸ before)
      exact full
    · exact absurd (order.unique j id f e before here kept listed (same.trans own.symm)) apart
  · intro full
    have there := State.modifyEntry_of_getElem? here
      (Entry.release ∘ fun e => (e.fail error).detachIfEmpty)
    rw [← value] at full
    refine ⟨_, List.mem_of_getElem? there, ⟨?_, full⟩, own⟩
    simp [Entry.release, Entry.detachIfEmpty, Entry.fail, listed, full]

/-- From the start of a get's load on, whatever tasks there are and however they interleave, the
    loading entry is the table's entry for its key. Where the load then succeeds the key is held, and
    a get of any task that is idle has the value at once; where it fails the key is held exactly if
    it was put meanwhile, with no invalidation after that. -/
theorem load_keeps_place {settings : Settings} {now : Nat} {before during : List (Action κ α ε)}
    {a : Action κ α ε} {s₀ s₁ s : State κ α ε} {seen₀ first seen : List (Signal κ α ε)}
    {t : TaskId} {key : κ} {id : Nat}
    (reached : run? { settings, now } before = some (s₀, seen₀))
    (starts : step? s₀ a = some (s₁, first)) (begins : .began t key ∈ first)
    (loads : s₁.phase? t = some (.getLoading key id))
    (ran : run? s₁ during = some (s, seen)) (goes : ∀ b ∈ during, b.endsCall t = false) :
    s.phase? t = some (.getLoading key id) ∧ s.find? key = some id ∧
      (∀ v, ∃ s' shown, step? s (.loaded t (.ok v)) = some (s', shown) ∧
        s'.contains key = true ∧ ∀ u, s'.phase? u = none →
          ∃ s'', step? s' (.get u key) = some (s'', [.finished u (.got v)])) ∧
      ∀ error, ∃ s' shown, step? s (.loaded t (.error error)) = some (s', shown) ∧
        (s'.contains key = true ↔
          ∃ earlier v later, during = earlier ++ .put key v :: later ∧ .invalidateAll ∉ later) := by
  have order₀ := run_orderly (orderly_initial settings now) reached
  have loading := (loading_of_start order₀ starts begins loads).run goes ran
  obtain ⟨e, here, _⟩ := loading.value
  obtain ⟨own, listed, _⟩ := loading.order.getLoading_fits loading.phase here
  refine ⟨loading.phase, own ▸ loading.order.find?_eq here listed, loading.succeeds, ?_⟩
  intro error
  obtain ⟨s', shown, step, held⟩ := loading.fails error
  refine ⟨s', shown, step, ?_⟩
  rw [held, isSome_foldl_refill]
  simp

end Steps

/-- A removal that comes while a get's load is on stands in line, and an invalidation leaves the
    entry in place. Where the load fails, the value that was put after both is held. -/
theorem put_outlives_failed_load :
    ∃ (s₀ s₁ s : State Nat Nat Unit) (seen₀ first seen : List (Signal Nat Nat Unit)),
      run? { settings := ⟨none, none, 1000, false⟩ } [.put 7 10, .invalidateAll] =
          some (s₀, seen₀) ∧
        step? s₀ (.get (.request 0) 7) = some (s₁, first) ∧ .began (.request 0) 7 ∈ first ∧
        s₁.phase? (.request 0) = some (.getLoading 7 1) ∧
        run? s₁ [.remove (.request 1) 7, .invalidateAll, .put 7 11] = some (s, seen) ∧
        s.find? 7 = some 1 ∧
        ∃ s' shown, step? s (.loaded (.request 0) (.error ())) = some (s', shown) ∧
          s'.contains 7 = true := by
  let start : State Nat Nat Unit := { settings := ⟨none, none, 1000, false⟩ }
  let s₀ := (run? start [.put 7 10, .invalidateAll]).get rfl
  let s₁ := (step? s₀.1 (.get (.request 0) 7)).get rfl
  let s := (run? s₁.1 [.remove (.request 1) 7, .invalidateAll, .put 7 11]).get rfl
  have reached : run? start [.put 7 10, .invalidateAll] = some (s₀.1, s₀.2) := rfl
  have starts : step? s₀.1 (.get (.request 0) 7) = some (s₁.1, s₁.2) := rfl
  have begins : .began (.request 0) 7 ∈ s₁.2 := List.mem_singleton.2 rfl
  have loads : s₁.1.phase? (.request 0) = some (.getLoading 7 1) := rfl
  have ran : run? s₁.1 [.remove (.request 1) 7, .invalidateAll, .put 7 11] = some (s.1, s.2) := rfl
  obtain ⟨_, found, _, fails⟩ := load_keeps_place reached starts begins loads ran (by decide)
  obtain ⟨s', shown, step, held⟩ := fails ()
  exact ⟨s₀.1, s₁.1, s.1, s₀.2, s₁.2, s.2, reached, starts, begins, loads, ran, found, s', shown,
    step, held.2 ⟨[.remove (.request 1) 7, .invalidateAll], 11, [], rfl, by simp⟩⟩

end SingleFlight
end MetricGateway
