import MetricGateway.Proofs.SingleFlight.Rest

/- What a get finds in a timeline at rest: the value that is held under its key, or else the answer
   to the next call for it. What is held under other keys, and how often they have been loaded, it
   leaves as it is, so that gets of several keys do not influence each other. -/
namespace MetricGateway
namespace SingleFlight

variable {κ α ε : Type}

section Step

variable [DecidableEq κ] {s : State κ α ε} {a : Action κ α ε} {effect : Effect κ α ε} {key : κ}

theorem held_of_edits (unwritten : s.write? key a = none) (unremoved : s.removal? a ≠ some key)
    (calm : ∀ t, ¬ s.Sweeps t a) {e e' : Entry κ α ε} (edits : Edits (s.causes a effect.2) e e') :
    e'.key = e.key ∧ (e.key = key → e'.held = e.held) := by
  refine Edits.keep (R := fun e e' => e'.key = e.key ∧ (e.key = key → e'.held = e.held))
    (fun e => ⟨rfl, fun _ => rfl⟩) ?_ ?_ edits
  · rintro e f g ⟨first, held⟩ ⟨second, still⟩
    exact ⟨second.trans first, fun own => (still (first.trans own)).trans (held own)⟩
  · intro e e' edit
    cases edit with
    | gate | touch => exact ⟨rfl, fun _ => rfl⟩
    | install written =>
      refine ⟨rfl, fun own => ?_⟩
      subst own
      cases unwritten.symm.trans written
    | fail => exact ⟨rfl, fun _ => by simp [Entry.held, Entry.detachIfEmpty, Entry.fail]⟩
    | invalidate clears =>
      have same : a = .invalidateAll := clears
      subst same
      cases unwritten
    | remove gone =>
      refine ⟨rfl, fun own => ?_⟩
      subst own
      exact absurd gone.1 unremoved
    | expire old =>
      obtain ⟨t, sweeps⟩ := old.1
      exact absurd sweeps (calm t)

theorem contains_of_step (order : Orderly s) (step : step? s a = some effect)
    (unwritten : s.write? key a = none) (unremoved : s.removal? a ≠ some key)
    (calm : ∀ t, ¬ s.Sweeps t a) : effect.1.contains key = s.contains key := by
  have edited := step_edited order step
  rw [Bool.eq_iff_iff]
  simp only [State.contains, List.any_eq_true, Bool.and_eq_true, decide_eq_true_eq]
  constructor
  · rintro ⟨e', member, held, own⟩
    obtain ⟨id, there⟩ := List.getElem?_of_mem member
    cases before : s.entries[id]? with
    | none =>
      obtain ⟨k, now, edits⟩ := edited.made id e' before there
      obtain ⟨same, still⟩ := held_of_edits unwritten unremoved calm edits
      rw [still (same.symm.trans own)] at held
      cases held
    | some e =>
      obtain ⟨f, after, edits⟩ := edited.kept id e before
      cases there.symm.trans after
      obtain ⟨same, still⟩ := held_of_edits unwritten unremoved calm edits
      have mine := same.symm.trans own
      exact ⟨e, List.mem_of_getElem? before, (still mine).symm.trans held, mine⟩
  · rintro ⟨e, member, held, own⟩
    obtain ⟨id, here⟩ := List.getElem?_of_mem member
    obtain ⟨e', there, edits⟩ := edited.kept id e here
    obtain ⟨same, still⟩ := held_of_edits unwritten unremoved calm edits
    exact ⟨e', List.mem_of_getElem? there, (still own).trans held, same.trans own⟩

end Step

namespace Timeline

variable [DecidableEq κ] {answers : κ → Nat → Except ε α} {tl : Timeline κ α ε}

def Spares (key : κ) (tl tl' : Timeline κ α ε) : Prop :=
  ∀ other ≠ key, tl'.cache.contains other = tl.cache.contains other ∧
    tl'.calls.count other = tl.calls.count other

omit [DecidableEq κ] in
theorem calls_ensureRefresher (tl : Timeline κ α ε) : tl.ensureRefresher.calls = tl.calls := by
  have scheduled : ∀ (tl : Timeline κ α ε) due job, (tl.schedule due job).calls = tl.calls := by
    intro tl due job
    unfold schedule
    split <;> rfl
  unfold ensureRefresher startRefresher
  split
  · split
    · rfl
    · exact scheduled _ _ _
  · rfl

theorem contains_of_get {t : TaskId} {key : κ} {effect : Effect κ α ε} (order : Orderly tl.cache)
    (step : step? tl.cache (.get t key) = some effect) (other : κ) :
    effect.1.contains other = tl.cache.contains other := by
  refine contains_of_step order step rfl (fun removed => nomatch removed) fun u sweeps => ?_
  rcases sweeps with ⟨_, same⟩ | ⟨_, _, _, _, same, _⟩
  · cases same
  · cases same

theorem contains_of_answer {t : TaskId} {key other : κ} {id : Nat} {outcome : Except ε α}
    {effect : Effect κ α ε} (order : Orderly tl.cache)
    (step : step? tl.cache (.loaded t outcome) = some effect)
    (phase : tl.cache.phase? t = some (.getLoading key id)) (apart : other ≠ key) :
    effect.1.contains other = tl.cache.contains other := by
  refine contains_of_step order step ?_ (fun removed => nomatch removed) fun u sweeps => ?_
  · cases outcome with
    | ok value => simp [State.write?, State.loaded?, State.callOf?, phase, apart.symm]
    | error error => rfl
  · rcases sweeps with ⟨_, same⟩ | ⟨_, _, _, _, same, waits⟩
    · cases same
    · cases same
      cases phase.symm.trans waits

theorem atRest_of_answer (prompt : tl.Prompt answers) (awaits : tl.Awaits) (ready : tl.ready = [])
    {n id : Nat} {key : κ} (only : tl.cache.tasks = [(.request n, .getLoading key id)])
    (outcome : Except ε α) : (tl.act (.loaded (.request n) outcome)).AtRest answers ∧
      firstEnd (.request n) (tl.act (.loaded (.request n) outcome)).seen =
        (firstEnd (.request n) tl.seen).or (some (.ofLoad outcome)) ∧
      tl.Spares key (tl.act (.loaded (.request n) outcome)) := by
  obtain ⟨e, here, empty⟩ := State.entry_of_only prompt.order only rfl
  have phase := State.phase?_of_only only
  have step : step? tl.cache (.loaded (.request n) outcome) =
      some (tl.cache.endLoad (.request n) id outcome) := by
    simp only [step?, Option.bind_eq_bind, phase, here, Option.bind_some]
  obtain ⟨cache, ends⟩ := firstEnd_act step
  cases State.alone_endLoad (State.lone_of_only only) here empty outcome fun _ _ => False with
  | calls _ _ _ _ fits => exact fits.elim
  | done r nobody shown =>
    have after := forget_of_end step shown
    have still : (tl.act (.loaded (.request n) outcome)).AtRest answers := AtRest.alike after
      ⟨prompt.step step, awaits.step prompt.order step (by simp [Action.actor]), nobody, ready⟩
    have calls : (tl.act (.loaded (.request n) outcome)).calls = tl.calls :=
      (congrArg Timeline.calls after :)
    refine ⟨still, ?_, fun other apart => ⟨?_, by rw [calls]⟩⟩
    · rw [ends]
      cases goes_endLoad tl.cache (.request n) id outcome .sweep with
      | done _ shown by_right => rw [shown, by_right, List.head?_cons]
      | waits phase =>
        rw [← cache, still.idle] at phase
        cases phase
    · rw [cache]
      exact contains_of_answer prompt.order step phase apart

theorem drain_of_answer (prompt : tl.Prompt answers) (awaits : tl.Awaits) {n id call : Nat}
    {key : κ} (only : tl.cache.tasks = [(.request n, .getLoading key id)])
    (ready : tl.ready = [.answer (.request n) key call (answers key call)]) (fuel : Nat) :
    (tl.drain (fuel + 1)).AtRest answers ∧ firstEnd (.request n) (tl.drain (fuel + 1)).seen =
      (firstEnd (.request n) tl.seen).or (some (.ofLoad (answers key call))) ∧
      tl.Spares key (tl.drain (fuel + 1)) := by
  let noted : Timeline κ α ε := { tl with ready := [] }.note (.answered key call)
  have prompt' : noted.Prompt answers := ⟨prompt.order, prompt.loader⟩
  have last : firstEnd (.request n) [(Sighting.answered key call : Sighting κ α ε)] = none := rfl
  have before : firstEnd (.request n) noted.seen = firstEnd (.request n) tl.seen := by
    change firstEnd _ (tl.seen ++ [.answered key call]) = _
    rw [firstEnd_append, last, Option.or_none]
  have after := atRest_of_answer prompt' ⟨awaits.timers, awaits.ahead⟩ rfl only (answers key call)
  have run : tl.drain (fuel + 1) = noted.act (.loaded (.request n) (answers key call)) := by
    unfold Timeline.drain
    rw [ready]
    exact drain_of_ready after.1.ready fuel
  rw [run, ← before]
  exact after

section Get

variable {n : Nat} {key : κ} (still : tl.AtRest answers)

include still

theorem AtRest.step_get (n : Nat) (key : κ) : step? tl.cache (.get (.request n) key) =
    some (tl.cache.beginGet (.request n) key) := by
  simp [step?, still.idle]

theorem AtRest.get_served
    (served : (tl.cache.beginGet (.request n) key).Alone (.request n) fun _ _ => False) :
    (tl.get (.request n) key).AtRest answers ∧ (∃ v,
      firstEnd (.request n) (tl.get (.request n) key).seen =
        (firstEnd (.request n) tl.seen).or (some (.got v))) ∧
      tl.Spares key (tl.get (.request n) key) := by
  have step := still.step_get n key
  let begun : Timeline κ α ε := tl.act (.get (.request n) key)
  obtain ⟨cache, ends⟩ := firstEnd_act step
  cases served with
  | calls _ _ _ _ fits => exact fits.elim
  | done r nobody shown =>
    have awaits := still.awaits.step still.prompt.order step (by simp [Action.actor])
    have ended := forget_of_end step shown
    have after : begun.AtRest answers :=
      AtRest.alike ended ⟨still.prompt.step step, awaits, nobody, still.ready⟩
    have same := alike_ensureRefresher begun
    have started := after.awaits.ensureRefresher
    have ready := started.2.trans after.ready
    have settled : begun.ensureRefresher.settle = begun.ensureRefresher := drain_of_ready ready _
    have calls : begun.calls = tl.calls := (congrArg Timeline.calls ended :)
    unfold Timeline.get
    rw [settled, same.ends, ends]
    refine ⟨⟨after.prompt.ensureRefresher, started.1, ?_, ready⟩, ?_, fun other _ => ⟨?_, ?_⟩⟩
    · rw [same.cache, after.nobody]
    · cases goes_beginGet tl.cache (.request n) key with
      | done _ shown by_right =>
        obtain ⟨_, _, _, v, _, rfl⟩ := by_right
        exact ⟨v, by rw [shown, List.head?_cons]⟩
      | waits phase =>
        rw [← cache, after.idle] at phase
        cases phase
    · rw [same.cache, cache]
      exact contains_of_get still.prompt.order step other
    · rw [calls_ensureRefresher, calls]

theorem AtRest.get_loaded {id : Nat}
    (only : (tl.cache.beginGet (.request n) key).1.tasks = [(.request n, .getLoading key id)])
    (shown : (tl.cache.beginGet (.request n) key).2.filter Signal.stirs =
      [.began (.request n) key]) :
    (tl.get (.request n) key).AtRest answers ∧
      firstEnd (.request n) (tl.get (.request n) key).seen =
        (firstEnd (.request n) tl.seen).or
          (some (.ofLoad (answers key (tl.calls.count key + 1)))) ∧
      tl.Spares key (tl.get (.request n) key) := by
  have step := still.step_get n key
  let begun : Timeline κ α ε := tl.act (.get (.request n) key)
  let call := tl.calls.count key + 1
  obtain ⟨cache, ends⟩ := firstEnd_act step
  have called := forget_of_call still.prompt step shown
  have ready : begun.ready = .answer (.request n) key call (answers key call) :: tl.ready :=
    congrArg Timeline.ready called
  have calls : begun.calls = key :: tl.calls := congrArg Timeline.calls called
  rw [still.ready] at ready
  have prompt := still.prompt.step step
  have awaits := still.awaits.step still.prompt.order step (by simp [Action.actor])
  have prompt' : begun.Prompt answers := Prompt.alike called ⟨prompt.order, prompt.loader⟩
  have awaits' : begun.Awaits := Awaits.alike called ⟨awaits.timers, awaits.ahead⟩
  have same := alike_ensureRefresher begun
  have started := awaits'.ensureRefresher
  have waits : begun.ensureRefresher.cache.tasks = [(.request n, .getLoading key id)] := by
    rw [same.cache, cache, only]
  obtain ⟨fuel, settled, _⟩ := settle_drains begun.ensureRefresher
  obtain ⟨after, last, spared⟩ := drain_of_answer prompt'.ensureRefresher started.1 waits
    (started.2.trans ready) fuel
  unfold Timeline.get
  rw [settled]
  refine ⟨after, ?_, fun other apart => ?_⟩
  · rw [last, same.ends, ends]
    cases goes_beginGet tl.cache (.request n) key with
    | done idle => cases (State.phase?_of_only only).symm.trans idle
    | waits _ silent => rw [silent, List.head?_nil, Option.or_none]
  · obtain ⟨held, count⟩ := spared other apart
    constructor
    · rw [held, same.cache, cache]
      exact contains_of_get still.prompt.order step other
    · rw [count, calls_ensureRefresher, calls, List.count_cons_of_ne apart.symm]

theorem AtRest.get (silent : firstEnd (.request n) tl.seen = none) (key : κ) :
    (tl.get (.request n) key).AtRest answers ∧
      (∃ outcome, firstEnd (.request n) (tl.get (.request n) key).seen = some (.ofLoad outcome) ∧
        (tl.cache.contains key = true ∧ (∃ v, outcome = .ok v) ∨
          tl.cache.contains key = false ∧ outcome = answers key (tl.calls.count key + 1))) ∧
      tl.Spares key (tl.get (.request n) key) := by
  rcases State.alone_beginGet still.prompt.order still.nobody (.request n) key with
    ⟨held, served⟩ | ⟨missing, id, only, shown⟩
  · obtain ⟨after, ⟨v, ended⟩, spared⟩ := still.get_served served
    rw [silent, Option.none_or] at ended
    exact ⟨after, ⟨.ok v, ended, Or.inl ⟨held, v, rfl⟩⟩, spared⟩
  · obtain ⟨after, ended, spared⟩ := still.get_loaded only shown
    rw [silent, Option.none_or] at ended
    exact ⟨after, ⟨_, ended, Or.inr ⟨missing, rfl⟩⟩, spared⟩

end Get

section Sweep

/-- A request is in the middle of a sweep at most, and has fewer entries before it than some. -/
inductive Sweeping (answers : κ → Nat → Except ε α) (n bound : Nat) (tl : Timeline κ α ε) : Prop
    where
  | rest (still : tl.AtRest answers)
  | reload (id : Nat) (rest : List Nat) (began : Nat) (key : κ) (call : Nat)
      (prompt : tl.Prompt answers) (awaits : tl.Awaits)
      (only : tl.cache.tasks = [(.request n, .refreshing id rest began)])
      (ready : tl.ready = [.answer (.request n) key call (answers key call)])
      (few : rest.length < bound)

variable {n bound : Nat} {a : Action κ α ε} {effect : Effect κ α ε}

theorem sweeping_act (prompt : tl.Prompt answers) (awaits : tl.Awaits) (ready : tl.ready = [])
    (step : step? tl.cache a = some effect) (calm : a.actor ≠ .clock)
    (alone : effect.Alone (.request n) fun _ p =>
      ∃ id rest began, p = .refreshing id rest began ∧ rest.length < bound) :
    (tl.act a).Sweeping answers n bound := by
  have prompt' := prompt.step step
  have awaits' := awaits.step prompt.order step calm
  cases alone with
  | done r nobody shown =>
    exact .rest (AtRest.alike (forget_of_end step shown) ⟨prompt', awaits', nobody, ready⟩)
  | calls key p only shown fits =>
    obtain ⟨id, rest, began, rfl, few⟩ := fits
    have called := forget_of_call prompt step shown
    have cache : (tl.act a).cache = effect.1 := (congrArg Timeline.cache called :)
    refine .reload id rest began key (tl.calls.count key + 1) ?_ ?_ (cache ▸ only) ?_ few
    · exact Prompt.alike called ⟨prompt'.order, prompt'.loader⟩
    · exact Awaits.alike called ⟨awaits'.timers, awaits'.ahead⟩
    · rw [← ready]
      exact (congrArg Timeline.ready called :)

theorem Sweeping.drain {fuel : Nat} (sweeping : tl.Sweeping answers n fuel) :
    (tl.drain fuel).AtRest answers := by
  induction fuel generalizing tl with
  | zero =>
    cases sweeping with
    | rest still => exact still
    | reload _ _ _ _ _ _ _ _ _ few => exact absurd few (Nat.not_lt_zero _)
  | succ fuel ih =>
    cases sweeping with
    | rest still =>
      rw [drain_of_ready still.ready]
      exact still
    | reload id rest began key call prompt awaits only ready few =>
      obtain ⟨e, here, empty⟩ := State.entry_of_only prompt.order only rfl
      have step : step? tl.cache (.loaded (.request n) (answers key call)) =
          some (tl.cache.endRefresh (.request n) id rest began e.key (answers key call)) := by
        simp only [step?, Option.bind_eq_bind, State.phase?_of_only only, here, Option.bind_some]
      have alone : (tl.cache.endRefresh (.request n) id rest began e.key (answers key call)).Alone
          (.request n) fun _ p => ∃ id rest began, p = .refreshing id rest began ∧
            rest.length < fuel := by
        refine (State.alone_endRefresh (State.lone_of_only only) here empty rest began e.key
          _).mono ?_
        rintro _ _ ⟨id, more, rfl, fewer⟩
        exact ⟨id, more, began, rfl, by omega⟩
      let noted : Timeline κ α ε := { tl with ready := [] }.note (.answered key call)
      have prompt' : noted.Prompt answers := ⟨prompt.order, prompt.loader⟩
      have awaits' : noted.Awaits := ⟨awaits.timers, awaits.ahead⟩
      unfold Timeline.drain
      rw [ready]
      exact ih (sweeping_act prompt' awaits' rfl step (by simp [Action.actor]) alone)

theorem AtRest.sweep (still : tl.AtRest answers) (n : Nat) :
    (tl.sweep (.request n)).AtRest answers := by
  have step : step? tl.cache (.sweep (.request n) tl.cache.listedIds) =
      some (tl.cache.sweepOver (.request n) tl.cache.now tl.cache.listedIds) := by
    simp [step?, still.idle, List.isPerm_iff]
  have cache := (firstEnd_act step).1
  obtain ⟨fuel, settled, enough⟩ :=
    settle_drains (tl.act (.sweep (.request n) tl.cache.listedIds))
  rw [cache, State.length_sweepOver] at enough
  have few := State.length_listedIds tl.cache
  unfold Timeline.sweep
  rw [settled]
  refine (sweeping_act still.prompt still.awaits still.ready step (by simp [Action.actor])
    ((State.alone_sweepOver (State.lone_of_nobody still.nobody _) _ _).mono ?_)).drain
  rintro _ _ ⟨id, rest, rfl, fewer⟩
  exact ⟨id, rest, _, rfl, by omega⟩

end Sweep

end Timeline
end SingleFlight
end MetricGateway
