import MetricGateway.Proofs.SingleFlight.Content
import MetricGateway.Proofs.SingleFlight.SharedOutcome

/- After an invalidation no get comes by a value from before it. Right behind it the table has no
   values; what comes into a listed entry later was written later, and a get only ever waits at an
   entry that was listed when it came. What detached entries keep is seen by earlier tasks alone. -/
namespace MetricGateway
namespace SingleFlight

variable {κ α ε : Type}

def Signal.endOf? (t : TaskId) : Signal κ α ε → Option (Result α ε)
  | .finished u r => if u = t then some r else none
  | _ => none

theorem endOf?_of_own {t : TaskId} {signal : Signal κ α ε} (other : signal.own t = false) :
    signal.endOf? t = none := by
  cases signal with
  | finished u r =>
    have apart : u ≠ t := by simpa [Signal.own] using other
    simp [Signal.endOf?, apart]
  | began | granted | sized | expired | refreshed => rfl

theorem findSome?_endOf?_of_own {t : TaskId} {seen : List (Signal κ α ε)}
    (others : ∀ signal ∈ seen, signal.own t = false) : seen.findSome? (Signal.endOf? t) = none :=
  List.findSome?_eq_none_iff.2 fun signal member => endOf?_of_own (others signal member)

def Written (writes : κ → α → Prop) (s : State κ α ε) : Prop :=
  ∀ (id : Nat) (e : Entry κ α ε) (v : α), s.entries[id]? = some e → e.listed = true →
    e.value = some v → writes e.key v

/-- A get waits at an entry of its key, the value of which, if it has one, has been written. -/
def WaitsFor (writes : κ → α → Prop) (t : TaskId) (key : κ) (s : State κ α ε) : Prop :=
  ∃ id, (s.phase? t = some (.getLoading key id) ∨ ∃ n, s.phase? t = some (.getQueued key id n)) ∧
    ∃ e, s.entries[id]? = some e ∧ ∀ v, e.value = some v → writes key v

def Gets (writes : κ → α → Prop) (t : TaskId) (key : κ) (effect : Effect κ α ε) : Prop :=
  (∃ r, effect.2.findSome? (Signal.endOf? t) = some r ∧ ∀ v, r = .got v → writes key v) ∨
    effect.2.findSome? (Signal.endOf? t) = none ∧ WaitsFor writes t key effect.1

section Table

variable {writes : κ → α → Prop}

theorem Written.modified {s : State κ α ε} (written : Written writes s) (id : Nat)
    {f : Entry κ α ε → Entry κ α ε}
    (frame : ∀ e, (f e).key = e.key ∧ (f e).value = e.value ∧ (f e).listed = e.listed) :
    Written writes (s.modifyEntry id f) := by
  intro j e v there listed value
  obtain ⟨e₀, here, ⟨_, rfl⟩ | ⟨_, rfl⟩⟩ := State.getElem?_of_modifyEntry there
  · obtain ⟨key, same, place⟩ := frame e₀
    rw [key]
    exact written j e₀ v here (place ▸ listed) (same ▸ value)
  · exact written j e v here listed value

theorem Gets.mono {writes' : κ → α → Prop} {t : TaskId} {key : κ} {effect : Effect κ α ε}
    (gets : Gets writes t key effect) (more : ∀ v, writes key v → writes' key v) :
    Gets writes' t key effect := by
  rcases gets with ⟨r, ends, got⟩ | ⟨silent, id, phase, e, here, value⟩
  · exact Or.inl ⟨r, ends, fun v same => more v (got v same)⟩
  · exact Or.inr ⟨silent, id, phase, e, here, fun v full => more v (value v full)⟩

theorem written_invalidateAll (s : State κ α ε) :
    Written (fun _ _ => False) s.invalidateAll.1 := by
  intro id e v there listed value
  have mapped : s.invalidateAll.1.entries[id]? = s.entries[id]?.map Entry.invalidate :=
    List.getElem?_map
  rw [mapped, Option.map_eq_some_iff] at there
  obtain ⟨e₀, _, rfl⟩ := there
  -- An idle entry has left the table; a busy one is there still, without its value.
  unfold Entry.invalidate at listed value
  split at listed
  · rename_i before
    rw [if_pos before] at value
    split at listed
    · cases listed
    · rename_i busy
      rw [if_neg busy] at value
      cases value
  · rename_i before
    exact before listed

variable [DecidableEq κ]

theorem Written.claimed {s : State κ α ε} (written : Written writes s) (key : κ) :
    Written writes (s.claim key).1 := by
  unfold State.claim
  split
  · exact written
  · intro j e v there listed value
    rw [State.getElem?_addEntry] at there
    split at there
    · cases there
      cases value
    · exact written j e v there listed value

theorem Written.gets {s : State κ α ε} (written : Written writes s) (t : TaskId) (key : κ) :
    Gets writes t key (s.beginGet t key) := by
  obtain ⟨e, here, listed, own⟩ := State.claim_listed s key
  have claimed := written.claimed key
  unfold State.beginGet
  generalize s.claim key = c at *
  obtain ⟨s₁, id⟩ := c
  have value : ∀ v, e.value = some v → writes key v := fun v full =>
    own ▸ claimed id e v here listed full
  dsimp only at here ⊢
  rw [here]
  dsimp only
  split
  · rename_i v full
    exact Or.inl ⟨.got v, by simp [State.serve, State.finish, Signal.endOf?], fun w same => by
      cases same
      exact value v full⟩
  · exact Or.inr ⟨rfl, id, Or.inl (by simp [State.beginLoad]), e.acquire t,
      State.modifyEntry_of_getElem? here _, value⟩
  · exact Or.inr ⟨rfl, id, Or.inr ⟨e.failures, by simp⟩, e.enqueue t,
      State.modifyEntry_of_getElem? here _, value⟩

theorem Written.resumes {s : State κ α ε} (written : Written writes s) {t : TaskId} {key : κ}
    {id : Nat} {e : Entry κ α ε} (here : s.entries[id]? = some e)
    (value : ∀ v, e.value = some v → writes key v) (failures : Nat) :
    Gets writes t key (s.resumeGet t key id failures e) := by
  unfold State.resumeGet
  split
  · rename_i v full
    refine Or.inl ⟨.got v, ?_, fun w same => by cases same; exact value v full⟩
    simp [Effect.andThen, State.serve, State.finish, Signal.endOf?]
  · split
    · rename_i error _
      refine Or.inl ⟨.failed error, ?_, fun w same => by cases same⟩
      simp [Effect.andThen, State.finish, Signal.endOf?]
    · split
      · exact Or.inr ⟨rfl, id, Or.inl (by simp [State.beginLoad]), e.acquire t,
          State.modifyEntry_of_getElem? here _, value⟩
      · have left : Written writes ((s.dropTask t).release id).1 :=
          written.modified id fun _ => ⟨rfl, rfl, rfl⟩
        have handed : ((s.dropTask t).release id).2.findSome? (Signal.endOf? t) = none :=
          findSome?_endOf?_of_own (own_granted (s.dropTask t) t id)
        rcases left.gets t key with ⟨r, ends, got⟩ | ⟨silent, waits⟩
        · exact Or.inl ⟨r, by simp [Effect.andThen, List.findSome?_append, handed, ends], got⟩
        · exact Or.inr ⟨by simp [Effect.andThen, List.findSome?_append, handed, silent], waits⟩

def Since (writes : κ → α → Prop) (s : State κ α ε) (a : Action κ α ε) (key : κ) (v : α) : Prop :=
  writes key v ∨ s.write? key a = some (some v)

theorem Written.step {s : State κ α ε} (written : Written writes s) (order : Orderly s)
    {a : Action κ α ε} {effect : Effect κ α ε} (step : step? s a = some effect) :
    Written (Since writes s a) effect.1 := by
  have continues := step_continues order step
  intro id e' v there listed value
  cases here : s.entries[id]? with
  | none =>
    rcases continues.made id e' here there with empty | own
    · simp [empty] at value
    · exact Or.inr (value ▸ own)
  | some e =>
    obtain ⟨f, same, becomes⟩ := continues.kept id e here
    cases there.symm.trans same
    rw [becomes.key]
    rcases becomes.value with kept | own
    · exact Or.inl (written id e v here (becomes.listed listed) (kept.symm.trans value))
    · exact Or.inr (value ▸ own)

theorem WaitsFor.step {s : State κ α ε} {t : TaskId} {key : κ} (waits : WaitsFor writes t key s)
    (order : Orderly s) (written : Written writes s) {a : Action κ α ε} (goes : a ≠ .cancel t)
    {effect : Effect κ α ε} (step : step? s a = some effect) :
    Gets (Since writes s a) t key effect := by
  obtain ⟨id, phase, e, here, value⟩ := waits
  have older : ∀ v, writes key v → Since writes s a key v := fun _ => Or.inl
  by_cases acts : a.actor = .task t
  · rcases phase with loads | ⟨n, queued⟩
    · rcases step_of_waiting step acts loads with ⟨_, line, _⟩ | ⟨_, outcome, rfl⟩ | rfl
      · cases line
      · cases (step_loaded loads here outcome).symm.trans step
        cases outcome with
        | ok v =>
          refine Or.inl ⟨.got v, ?_, fun w same => ?_⟩
          · simp [State.endLoad, Effect.andThen, State.report, State.finish, List.findSome?_cons,
              Signal.endOf?]
          · cases same
            exact Or.inr (by simp [State.write?, State.loaded?, State.callOf?, loads])
        | error error =>
          refine Or.inl ⟨.failed error, ?_, fun w same => by cases same⟩
          simp [State.endLoad, Effect.andThen, State.finish, Signal.endOf?]
      · exact absurd rfl goes
    · rcases step_of_waiting step acts queued with ⟨rfl, _, f, there, holds⟩ | ⟨load, _⟩ | rfl
      · cases here.symm.trans there
        have entry : s.entries[(Phase.getQueued key id n).entry]? = some e := here
        simp only [step?, queued, entry, holds, Option.bind_eq_bind, Option.bind_some, ne_eq,
          not_true_eq_false, if_false, Option.some.injEq] at step
        subst step
        exact (written.resumes here value n).mono older
      · cases load
      · exact absurd rfl goes
  · -- The step of another task: the get stays where it is, and its entry may be written to.
    have moves : Moves a.actor s effect.2 effect.1 := step_byMoves order step
    have own : e.key = key := by
      rcases phase with loads | ⟨n, queued⟩
      · exact (order.getLoading_fits loads here).1
      · obtain ⟨f, there, _, fits⟩ := order.seated t _ queued
        cases here.symm.trans there
        exact fits
    obtain ⟨e', there, becomes⟩ := (step_continues order step).kept id e here
    refine Or.inr ⟨findSome?_endOf?_of_own (moves.own_eq_false acts), id, ?_, e', there, ?_⟩
    · rwa [moves.phase_of_other acts]
    · intro v full
      rcases becomes.value with kept | new
      · exact Or.inl (value v (kept.symm.trans full))
      · exact Or.inr (own ▸ full ▸ new)

end Table

section Runs

variable [DecidableEq κ]

/-- What is read off the steps of a run, one after the other. -/
def State.collect {β : Type} (f : State κ α ε → Action κ α ε → Option β) (s : State κ α ε) :
    List (Action κ α ε) → List β
  | [] => []
  | a :: rest =>
    match step? s a with
    | some (s', _) => (f s a).toList ++ s'.collect f rest
    | none => []

theorem collect_of_step {β : Type} {f : State κ α ε → Action κ α ε → Option β}
    {s s' : State κ α ε} {a : Action κ α ε} {seen : List (Signal κ α ε)}
    (step : step? s a = some (s', seen)) (rest : List (Action κ α ε)) :
    s.collect f (a :: rest) = (f s a).toList ++ s'.collect f rest := by
  simp [State.collect, step]

theorem mem_collect_of_step {β : Type} {f : State κ α ε → Action κ α ε → Option β}
    {s s' : State κ α ε} {a : Action κ α ε} {seen : List (Signal κ α ε)}
    (step : step? s a = some (s', seen)) {rest : List (Action κ α ε)} {x : β} :
    x ∈ s.collect f (a :: rest) ↔ f s a = some x ∨ x ∈ s'.collect f rest := by
  rw [collect_of_step step, List.mem_append, Option.mem_toList]

theorem collect_append {β : Type} {f : State κ α ε → Action κ α ε → Option β}
    {actions more : List (Action κ α ε)} {s s' : State κ α ε} {seen : List (Signal κ α ε)}
    (ran : run? s actions = some (s', seen)) :
    s.collect f (actions ++ more) = s.collect f actions ++ s'.collect f more := by
  induction actions generalizing s seen with
  | nil => cases ran; rfl
  | cons a rest ih =>
    obtain ⟨s₁, first, later, step, others, _⟩ := run_cons ran
    rw [List.cons_append, collect_of_step step, collect_of_step step, ih others,
      List.append_assoc]

theorem run_append {actions rest : List (Action κ α ε)} {s s' : State κ α ε}
    {seen : List (Signal κ α ε)} (ran : run? s (actions ++ rest) = some (s', seen)) :
    ∃ s₁ first more, run? s actions = some (s₁, first) ∧ run? s₁ rest = some (s', more) ∧
      seen = first ++ more := by
  induction actions generalizing s seen with
  | nil => exact ⟨s, [], seen, rfl, ran, rfl⟩
  | cons a actions ih =>
    obtain ⟨s₁, first, later, step, others, rfl⟩ := run_cons ran
    obtain ⟨s₂, middle, more, own, last, rfl⟩ := ih others
    exact ⟨s₂, first ++ middle, more, run_of_step step own, last, by rw [List.append_assoc]⟩

theorem run_concat {actions : List (Action κ α ε)} {a : Action κ α ε} {s s' : State κ α ε}
    {seen : List (Signal κ α ε)} (ran : run? s (actions ++ [a]) = some (s', seen)) :
    ∃ s₁ first shown, run? s actions = some (s₁, first) ∧ step? s₁ a = some (s', shown) := by
  obtain ⟨s₁, first, _, reached, last, _⟩ := run_append ran
  obtain ⟨s₂, shown, _, step, rest, _⟩ := run_cons last
  cases rest
  exact ⟨s₁, first, shown, reached, step⟩

theorem run_of_run_step {actions : List (Action κ α ε)} {a : Action κ α ε} {s s₁ s' : State κ α ε}
    {seen shown : List (Signal κ α ε)} (ran : run? s actions = some (s₁, seen))
    (step : step? s₁ a = some (s', shown)) :
    run? s (actions ++ [a]) = some (s', seen ++ shown) := by
  induction actions generalizing s seen with
  | nil =>
    cases ran
    have alone : run? s₁ [a] = some (s', shown ++ []) := run_of_step step rfl
    simpa using alone
  | cons b rest ih =>
    obtain ⟨s₂, first, more, taken, others, rfl⟩ := run_cons ran
    rw [List.append_assoc]
    exact run_of_step taken (ih others)

theorem step_of_run_concat {actions : List (Action κ α ε)} {a : Action κ α ε} {s s' : State κ α ε}
    {seen : List (Signal κ α ε)} (ran : run? s (actions ++ [a]) = some (s', seen)) :
    ∃ s₁ shown, step? s₁ a = some (s', shown) := by
  obtain ⟨s₁, _, shown, _, step⟩ := run_concat ran
  exact ⟨s₁, shown, step⟩

def Meanwhile (writes : κ → α → Prop) (s : State κ α ε) (actions : List (Action κ α ε)) (key : κ)
    (v : α) : Prop :=
  writes key v ∨ some v ∈ s.collect (fun s => s.write? key) actions

theorem meanwhile_of_step {writes : κ → α → Prop} {s s' : State κ α ε} {a : Action κ α ε}
    {rest : List (Action κ α ε)} {seen : List (Signal κ α ε)} (step : step? s a = some (s', seen))
    {key : κ} {v : α} (later : Meanwhile (Since writes s a) s' rest key v) :
    Meanwhile writes s (a :: rest) key v := by
  unfold Meanwhile
  rw [mem_collect_of_step step]
  exact or_assoc.1 later

theorem Written.run {writes : κ → α → Prop} {actions : List (Action κ α ε)} {s s' : State κ α ε}
    {seen : List (Signal κ α ε)} (written : Written writes s) (order : Orderly s)
    (ran : run? s actions = some (s', seen)) : Written (Meanwhile writes s actions) s' := by
  induction actions generalizing s seen writes with
  | nil =>
    cases ran
    exact fun id e v here listed value => Or.inl (written id e v here listed value)
  | cons a rest ih =>
    obtain ⟨s₁, first, more, step, others, _⟩ := run_cons ran
    have after := ih (written.step order step) (step_orderly order step) others
    exact fun id e v here listed value => meanwhile_of_step step (after id e v here listed value)

theorem Gets.followed {writes : κ → α → Prop} {s s₁ s' : State κ α ε} {a : Action κ α ε}
    {rest : List (Action κ α ε)} {first more : List (Signal κ α ε)} {t : TaskId} {key : κ}
    (gets : Gets (Since writes s a) t key (s₁, first)) (step : step? s a = some (s₁, first))
    (later : WaitsFor (Since writes s a) t key s₁ →
      Gets (Meanwhile (Since writes s a) s₁ rest) t key (s', more)) :
    Gets (Meanwhile writes s (a :: rest)) t key (s', first ++ more) := by
  rcases gets with ⟨r, ends, got⟩ | ⟨silent, waits⟩
  · refine Or.inl ⟨r, by simp [List.findSome?_append, ends], fun v same => ?_⟩
    exact meanwhile_of_step step (Or.inl (got v same))
  · rcases later waits with ⟨r, ends, got⟩ | ⟨still, id, phase, e, here, value⟩
    · refine Or.inl ⟨r, by simp [List.findSome?_append, silent, ends], fun v same => ?_⟩
      exact meanwhile_of_step step (got v same)
    · refine Or.inr ⟨by simp [List.findSome?_append, silent, still], id, phase, e, here, ?_⟩
      exact fun v full => meanwhile_of_step step (value v full)

theorem WaitsFor.run {writes : κ → α → Prop} {actions : List (Action κ α ε)} {s s' : State κ α ε}
    {seen : List (Signal κ α ε)} {t : TaskId} {key : κ} (waits : WaitsFor writes t key s)
    (order : Orderly s) (written : Written writes s) (goes : .cancel t ∉ actions)
    (ran : run? s actions = some (s', seen)) :
    Gets (Meanwhile writes s actions) t key (s', seen) := by
  -- What has been written grows from step to step, and with it what the get may wait for.
  induction actions generalizing s seen writes with
  | nil =>
    cases ran
    obtain ⟨id, phase, e, here, value⟩ := waits
    exact Or.inr ⟨rfl, id, phase, e, here, fun v full => Or.inl (value v full)⟩
  | cons a rest ih =>
    obtain ⟨s₁, first, more, step, others, rfl⟩ := run_cons ran
    rw [List.mem_cons, not_or] at goes
    have own : a ≠ .cancel t := fun same => goes.1 same.symm
    exact (waits.step order written own step).followed step fun waits =>
      ih waits (step_orderly order step) (written.step order step) goes.2 others

theorem Written.get {writes : κ → α → Prop} {s s' : State κ α ε} {after : List (Action κ α ε)}
    {seen : List (Signal κ α ε)} {t : TaskId} {key : κ} (written : Written writes s)
    (order : Orderly s) (goes : .cancel t ∉ after)
    (ran : run? s (.get t key :: after) = some (s', seen)) :
    Gets (Meanwhile writes s (.get t key :: after)) t key (s', seen) := by
  obtain ⟨s₁, first, more, step, others, rfl⟩ := run_cons ran
  obtain ⟨_, begun⟩ := Option.ite_none_right_eq_some.1 step
  have gets : Gets (Since writes s (.get t key)) t key (s₁, first) :=
    Option.some.inj begun ▸ (written.gets t key).mono fun _ => Or.inl
  exact gets.followed step fun waits =>
    waits.run (step_orderly order step) (written.step order step) goes others

/-- Whatever tasks there are and however they interleave, a get that starts after an invalidation
    ends with no other value than one put under its key, or given by a loader call for it that
    ended, after the invalidation. Values are told apart as far as their type tells them apart; the
    run may be cut where the get ends, or before it is given up. -/
theorem invalidation_is_barrier {settings : Settings} {now : Nat}
    {before between after : List (Action κ α ε)} {s₀ s s' : State κ α ε}
    {seen₀ seen₁ seen : List (Signal κ α ε)} {t : TaskId} {key : κ} {v : α}
    (reached : run? { settings, now } (before ++ [.invalidateAll]) = some (s₀, seen₀))
    (meanwhile : run? s₀ between = some (s, seen₁))
    (ran : run? s (.get t key :: after) = some (s', seen)) (goes : .cancel t ∉ after)
    (got : seen.findSome? (Signal.endOf? t) = some (.got v)) :
    some v ∈ s₀.collect (fun s => s.write? key) (between ++ .get t key :: after) := by
  have order₀ := run_orderly (orderly_initial settings now) reached
  obtain ⟨s₁, _, step⟩ := step_of_run_concat reached
  have empty : Written (fun _ _ => False) s₀ := by
    cases step
    exact written_invalidateAll s₁
  have order := run_orderly order₀ meanwhile
  have written := empty.run order₀ meanwhile
  rcases written.get order goes ran with ⟨r, ends, value⟩ | ⟨silent, _⟩
  · have own := value v (Option.some.inj (ends.symm.trans got))
    rw [collect_append meanwhile, List.mem_append]
    exact own.imp (fun earlier => earlier.resolve_left id) id
  · rw [silent] at got
    cases got

end Runs

/-- A load that an invalidation finds in flight, over a value that was put: the get that comes later
    has the load's value, from an entry that a removal before it in line has taken away. -/
theorem load_ends_behind_barrier :
    ∃ (s₀ s s' : State Nat Nat Unit) (seen₀ seen₁ seen : List (Signal Nat Nat Unit)),
      run? { settings := ⟨none, none, 1000, false⟩ } ([.get (.request 0) 7,
          .remove (.request 1) 7, .put 7 10] ++ [.invalidateAll]) = some (s₀, seen₀) ∧
        run? s₀ [] = some (s, seen₁) ∧
        run? s [.get (.request 2) 7, .loaded (.request 0) (.ok 5), .resume (.request 1),
          .resume (.request 2)] = some (s', seen) ∧
        seen.findSome? (Signal.endOf? (.request 2)) = some (.got 5) ∧
        some 5 ∈ s₀.collect (fun s => s.write? 7) ([] ++ .get (.request 2) 7 ::
          [.loaded (.request 0) (.ok 5), .resume (.request 1), .resume (.request 2)]) := by
  let start : State Nat Nat Unit := { settings := ⟨none, none, 1000, false⟩ }
  let first := (run? start ([.get (.request 0) 7, .remove (.request 1) 7, .put 7 10] ++
    [.invalidateAll])).get rfl
  let second := (run? first.1 [.get (.request 2) 7, .loaded (.request 0) (.ok 5),
    .resume (.request 1), .resume (.request 2)]).get rfl
  have reached : run? start ([.get (.request 0) 7, .remove (.request 1) 7, .put 7 10] ++
      [.invalidateAll]) = some (first.1, first.2) := rfl
  have ran : run? first.1 [.get (.request 2) 7, .loaded (.request 0) (.ok 5),
      .resume (.request 1), .resume (.request 2)] = some (second.1, second.2) := rfl
  have got : second.2.findSome? (Signal.endOf? (.request 2)) = some (.got 5) := rfl
  exact ⟨first.1, first.1, second.1, first.2, [], second.2, reached, rfl, ran, got,
    invalidation_is_barrier reached rfl ran (by simp) got⟩

end SingleFlight
end MetricGateway
