import MetricGateway.Proofs.SingleFlight.Alone
import MetricGateway.Proofs.SingleFlight.Errand
import MetricGateway.Proofs.SingleFlight.Faithful

/- A timeline whose loader answers at once comes to rest after each operation: no task is left, and
   nothing is to be done but the next sweep of the refresher, at its time. So every get is over when
   it returns, however many sweeps the moved clock has made due. -/
namespace MetricGateway
namespace SingleFlight

variable {κ α ε : Type}

namespace Timeline

section Rest

/-- An orderly cache, whose loader has an answer for each call at once. -/
structure Prompt (answers : κ → Nat → Except ε α) (tl : Timeline κ α ε) : Prop where
  order : Orderly tl.cache
  loader : ∀ key n, tl.loader key n = { outcome := answers key n }

structure Awaits (tl : Timeline κ α ε) : Prop where
  timers : tl.timers = (tl.refresher.map fun r => ⟨r.next, .tick⟩).toList
  ahead : ∀ r, tl.refresher = some r → tl.cache.now < r.next

structure AtRest (answers : κ → Nat → Except ε α) (tl : Timeline κ α ε) : Prop where
  prompt : tl.Prompt answers
  awaits : tl.Awaits
  nobody : tl.cache.tasks = []
  ready : tl.ready = []

/-- Ticks that can be due now, if the next is awaited at some time. One that is more than 5 ms late
    is the last. -/
def turns (now next : Nat) : Nat := min (now + 1 - next) 6

theorem turns_of_next {now next period : Nat} (due : next ≤ now) (wide : 1 ≤ period) :
    turns now ((if next + 5 < now then now else next) + period) + 1 ≤ turns now next := by
  unfold turns
  split
  · omega
  · omega

/-- The refresher is at work at most, and has some jobs left. -/
inductive Busy (answers : κ → Nat → Except ε α) (size jobs : Nat) (tl : Timeline κ α ε) : Prop where
  | rest (still : tl.AtRest answers)
  | due (r : Refresher) (prompt : tl.Prompt answers) (length : tl.cache.entries.length = size)
      (refresher : tl.refresher = some r) (timers : tl.timers = []) (nobody : tl.cache.tasks = [])
      (ready : tl.ready = [.tick]) (late : r.next ≤ tl.cache.now)
      (left : turns tl.cache.now r.next * (size + 1) ≤ jobs)
  | reload (r : Refresher) (id : Nat) (rest : List Nat) (began : Nat) (key : κ) (call : Nat)
      (prompt : tl.Prompt answers) (length : tl.cache.entries.length = size)
      (refresher : tl.refresher = some r) (timers : tl.timers = [])
      (only : tl.cache.tasks = [(.refresher r.run, .refreshing id rest began)])
      (ready : tl.ready = [.answer (.refresher r.run) key call (answers key call)])
      (left : turns tl.cache.now r.next * (size + 1) + rest.length + 1 ≤ jobs)

variable {answers : κ → Nat → Except ε α} {tl tl' : Timeline κ α ε} {size jobs : Nat}

theorem AtRest.forget (still : tl.AtRest answers) : tl.forget.AtRest answers :=
  ⟨⟨still.prompt.order, still.prompt.loader⟩, ⟨still.awaits.timers, still.awaits.ahead⟩,
    still.nobody, still.ready⟩

theorem Busy.mono {more : Nat} (busy : tl.Busy answers size jobs) (le : jobs ≤ more) :
    tl.Busy answers size more := by
  cases busy with
  | rest still => exact .rest still
  | due r prompt length refresher timers nobody ready late left =>
    exact .due r prompt length refresher timers nobody ready late (Nat.le_trans left le)
  | reload r id rest began key call prompt length refresher timers only ready left =>
    exact .reload r id rest began key call prompt length refresher timers only ready
      (Nat.le_trans left le)

section Forget

theorem Prompt.alike (same : tl'.forget = tl.forget) (prompt : tl.Prompt answers) :
    tl'.Prompt answers := by
  cases tl
  cases tl'
  cases same
  exact ⟨prompt.order, prompt.loader⟩

theorem Awaits.alike (same : tl'.forget = tl.forget) (awaits : tl.Awaits) : tl'.Awaits := by
  cases tl
  cases tl'
  cases same
  exact ⟨awaits.timers, awaits.ahead⟩

theorem AtRest.alike (same : tl'.forget = tl.forget) (still : tl.AtRest answers) :
    tl'.AtRest answers := by
  have prompt := still.prompt.alike same
  have awaits := still.awaits.alike same
  cases tl
  cases tl'
  cases same
  exact ⟨prompt, awaits, still.nobody, still.ready⟩

theorem Busy.alike (same : tl'.forget = tl.forget) (busy : tl.Busy answers size jobs) :
    tl'.Busy answers size jobs := by
  cases busy with
  | rest still => exact .rest (still.alike same)
  | due r prompt length refresher timers nobody ready late left =>
    have prompt := prompt.alike same
    cases tl
    cases tl'
    cases same
    exact .due r prompt length refresher timers nobody ready late left
  | reload r id rest began key call prompt length refresher timers only ready left =>
    have prompt := prompt.alike same
    cases tl
    cases tl'
    cases same
    exact .reload r id rest began key call prompt length refresher timers only ready left

theorem forget_schedule (same : tl.forget = tl'.forget) (due : Nat) (job : Job κ α ε) :
    (tl.schedule due job).forget = (tl'.schedule due job).forget := by
  cases tl
  cases tl'
  cases same
  unfold schedule
  split <;> rfl

variable [DecidableEq κ]

theorem forget_follow (same : tl.forget = tl'.forget) (s : Signal κ α ε) :
    (tl.follow s).forget = (tl'.follow s).forget := by
  cases tl with
  | mk cache loader calls timers ready refresher starts seen =>
    cases tl'
    cases same
    cases s with
    | began t key =>
      refine forget_schedule ?_ _ _
      rfl
    | granted | sized | expired | refreshed => rfl
    | finished t r =>
      cases t with
      | request n => rfl
      | refresher run =>
        cases refresher with
        | none => rfl
        | some r =>
          refine forget_schedule ?_ r.next .tick
          rfl

theorem forget_foldl {signals : List (Signal κ α ε)} (same : tl.forget = tl'.forget) :
    (signals.foldl follow tl).forget =
      ((signals.filter Signal.stirs).foldl follow tl').forget := by
  induction signals generalizing tl tl' with
  | nil => exact same
  | cons s signals ih =>
    rw [List.foldl_cons]
    by_cases stirs : s.stirs = true
    · rw [List.filter_cons_of_pos stirs, List.foldl_cons]
      exact ih (forget_follow same s)
    · rw [List.filter_cons_of_neg stirs]
      refine ih (Eq.trans ?_ same)
      cases s with
      | began | granted => exact absurd rfl stirs
      | sized | expired | refreshed => rfl
      | finished t r =>
        cases t with
        | request n => rfl
        | refresher run => exact absurd rfl stirs

variable {a : Action κ α ε} {effect : Effect κ α ε}

theorem forget_of_end (step : step? tl.cache a = some effect) {n : Nat} {r : Result α ε}
    (shown : effect.2.filter Signal.stirs = [Signal.finished (.request n) r].filter Signal.stirs) :
    (tl.act a).forget = { tl with cache := effect.1 }.forget := by
  unfold act
  rw [step]
  dsimp only
  rw [forget_foldl rfl, shown]
  rfl

theorem forget_of_sweep (step : step? tl.cache a = some effect) {r : Refresher} {out : Result α ε}
    (refresher : tl.refresher = some r)
    (shown : effect.2.filter Signal.stirs =
      [Signal.finished (.refresher r.run) out].filter Signal.stirs) :
    (tl.act a).forget = ({ tl with cache := effect.1 }.schedule r.next .tick).forget := by
  unfold act
  rw [step]
  dsimp only
  rw [forget_foldl rfl, shown]
  simp only [List.filter_cons, Signal.stirs, if_true, List.filter_nil, List.foldl_cons,
    List.foldl_nil, follow, awaitTick, note, refresher]
  refine forget_schedule ?_ r.next .tick
  rfl

theorem forget_of_call (prompt : tl.Prompt answers) (step : step? tl.cache a = some effect)
    {t : TaskId} {key : κ} (shown : effect.2.filter Signal.stirs = [.began t key]) :
    let call := tl.calls.count key + 1
    (tl.act a).forget = forget { tl with
      cache := effect.1
      calls := key :: tl.calls
      ready := .answer t key call (answers key call) :: tl.ready } := by
  unfold act
  rw [step]
  dsimp only
  rw [forget_foldl rfl, shown]
  simp [follow, schedule, note, forget, prompt.loader]

end Forget

theorem AtRest.idle (still : tl.AtRest answers) (t : TaskId) : tl.cache.phase? t = none :=
  State.phase?_of_nobody still.nobody t

theorem Awaits.ensureRefresher (awaits : tl.Awaits) :
    tl.ensureRefresher.Awaits ∧ tl.ensureRefresher.ready = tl.ready := by
  unfold Timeline.ensureRefresher startRefresher
  split
  · split
    · exact ⟨awaits, rfl⟩
    · rename_i missing
      have wide : 1 ≤ tl.period := Nat.le_max_right ..
      have ahead : ¬ tl.cache.now + tl.period ≤ tl.cache.now := by omega
      have timers : tl.timers = [] := by rw [awaits.timers, missing]; rfl
      unfold awaitTick schedule
      dsimp only
      rw [if_neg ahead, timers]
      refine ⟨⟨rfl, fun r own => ?_⟩, rfl⟩
      cases own
      exact Nat.not_le.1 ahead
  · exact ⟨awaits, rfl⟩

theorem Prompt.ensureRefresher (prompt : tl.Prompt answers) :
    tl.ensureRefresher.Prompt answers := by
  have same := alike_ensureRefresher tl
  constructor
  · exact same.cache ▸ prompt.order
  · exact same.loader ▸ prompt.loader

variable [DecidableEq κ] {a : Action κ α ε} {effect : Effect κ α ε}

theorem Prompt.step (prompt : tl.Prompt answers) (step : step? tl.cache a = some effect) :
    { tl with cache := effect.1 }.Prompt answers :=
  ⟨step_orderly prompt.order step, prompt.loader⟩

theorem Awaits.step (awaits : tl.Awaits) (order : Orderly tl.cache)
    (step : step? tl.cache a = some effect) (calm : a.actor ≠ .clock) :
    { tl with cache := effect.1 }.Awaits :=
  ⟨awaits.timers, fun r own => now_of_step order step calm ▸ awaits.ahead r own⟩

theorem firstEnd_act (step : step? tl.cache a = some effect) : (tl.act a).cache = effect.1 ∧
    ∀ t, firstEnd t (tl.act a).seen = (firstEnd t tl.seen).or (effect.ends t).head? := by
  obtain ⟨s, signals⟩ := effect
  obtain ⟨cache, ends⟩ := ends_act step
  refine ⟨cache, fun t => (ends t).trans ?_⟩
  rw [Effect.ends, List.head?_filterMap]

theorem busy_act {r : Refresher} {rest : Nat} (prompt : tl.Prompt answers)
    (refresher : tl.refresher = some r) (timers : tl.timers = []) (ready : tl.ready = [])
    (step : step? tl.cache a = some effect) (calm : a.actor ≠ .clock)
    (length : effect.1.entries.length = size)
    (alone : effect.Alone (.refresher r.run) fun _ p =>
      ∃ id more began, p = .refreshing id more began ∧ more.length < rest)
    (left : turns tl.cache.now r.next * (size + 1) + rest ≤ jobs) :
    (tl.act a).Busy answers size jobs := by
  have kept : Orderly effect.1 := step_orderly prompt.order step
  have now : effect.1.now = tl.cache.now := now_of_step prompt.order step calm
  rw [← now] at left
  cases alone with
  | done out nobody shown =>
    refine Busy.alike (forget_of_sweep step refresher shown) ?_
    unfold schedule
    split
    · rename_i late
      refine .due r ⟨kept, prompt.loader⟩ length refresher timers nobody ?_ late ?_
      · rw [ready]
      · dsimp only
        omega
    · rename_i ahead
      refine .rest ⟨⟨kept, prompt.loader⟩, ⟨?_, fun r' same => ?_⟩, nobody, ready⟩
      · simp [timers, refresher]
      · cases refresher.symm.trans same
        exact Nat.not_le.1 ahead
  | calls key p only shown fits =>
    obtain ⟨id, more, began, rfl, fewer⟩ := fits
    refine Busy.alike (forget_of_call prompt step shown) ?_
    refine .reload r id more began key (tl.calls.count key + 1) ⟨kept, prompt.loader⟩ length
      refresher timers only ?_ ?_
    · rw [ready]
    · dsimp only
      omega

/-- Each job that the refresher does is one less. -/
theorem Busy.perform (busy : tl.Busy answers size (jobs + 1)) {job : Job κ α ε}
    {rest : List (Job κ α ε)} (first : tl.ready = job :: rest) :
    ({ tl with ready := rest }.perform job).Busy answers size jobs := by
  cases busy with
  | rest still => cases still.ready.symm.trans first
  | due r prompt length refresher timers nobody ready late left =>
    cases ready.symm.trans first
    have lone : tl.cache.Lone (.refresher r.run) := State.lone_of_nobody nobody _
    have idle := State.phase?_of_nobody nobody (.refresher r.run)
    have step : step? tl.cache (.sweep (.refresher r.run) tl.cache.listedIds) =
        some (tl.cache.sweepOver (.refresher r.run) tl.cache.now tl.cache.listedIds) := by
      simp [step?, idle, List.isPerm_iff]
    have few := State.length_listedIds tl.cache
    rw [length] at few
    have earlier := turns_of_next late (Nat.le_max_right tl.cache.settings.sweepInterval 1)
    have product := Nat.mul_le_mul_right (size + 1) earlier
    rw [Nat.succ_mul] at product
    have fewer : turns tl.cache.now ((if r.next + 5 < tl.cache.now then tl.cache.now else r.next) +
        tl.period) * (size + 1) + tl.cache.listedIds.length ≤ jobs := by
      unfold period
      omega
    unfold Timeline.perform Timeline.tick
    dsimp only
    rw [refresher]
    refine busy_act ⟨prompt.order, prompt.loader⟩ rfl timers rfl step (by simp [Action.actor])
      ((State.length_sweepOver ..).trans length) ?_ fewer
    apply (State.alone_sweepOver lone _ _).mono
    intro key p handed
    obtain ⟨id, more, same, fewer⟩ := handed
    exact ⟨id, more, _, same, fewer⟩
  | reload r id rest began key call prompt length refresher timers only ready left =>
    cases ready.symm.trans first
    obtain ⟨e, here, empty⟩ := State.entry_of_only prompt.order only rfl
    have step : step? tl.cache (.loaded (.refresher r.run) (answers key call)) =
        some (tl.cache.endRefresh (.refresher r.run) id rest began e.key (answers key call)) := by
      simp only [step?, Option.bind_eq_bind, State.phase?_of_only only, here, Option.bind_some]
    refine busy_act ⟨prompt.order, prompt.loader⟩ refresher timers rfl step (by simp [Action.actor])
      ((State.length_endRefresh ..).trans length) ?_ (Nat.le_of_succ_le_succ left)
    apply (State.alone_endRefresh (State.lone_of_only only) here empty rest began e.key _).mono
    intro key p handed
    obtain ⟨id, more, same, fewer⟩ := handed
    exact ⟨id, more, _, same, fewer⟩

theorem Busy.drain {fuel : Nat} (busy : tl.Busy answers size fuel) :
    (tl.drain fuel).AtRest answers := by
  induction fuel generalizing tl with
  | zero =>
    cases busy with
    | rest still => exact still
    | due r _ _ _ _ _ _ late left =>
      have one : 1 ≤ turns tl.cache.now r.next := by
        unfold turns
        omega
      have product := Nat.mul_le_mul one (Nat.le_add_left 1 size)
      omega
    | reload => omega
  | succ fuel ih =>
    unfold Timeline.drain
    split
    · rename_i idle
      cases busy with
      | rest still => exact still
      | due _ _ _ _ _ _ ready => cases ready.symm.trans idle
      | reload _ _ _ _ _ _ _ _ _ _ _ ready => cases ready.symm.trans idle
    · rename_i job rest first
      exact ih (busy.perform first)

theorem drain_of_ready (idle : tl.ready = []) (fuel : Nat) : tl.drain fuel = tl := by
  cases fuel with
  | zero => rfl
  | succ fuel =>
    unfold Timeline.drain
    rw [idle]

theorem settle_drains (tl : Timeline κ α ε) : ∃ fuel, tl.settle = tl.drain (fuel + 1) ∧
    6 * (tl.cache.entries.length + 1) ≤ fuel + 1 := by
  let bound := tl.cache.tasks.length + tl.cache.entries.length + tl.ready.length + 8
  have product : 6 * (tl.cache.entries.length + 1) ≤ bound * bound :=
    Nat.mul_le_mul (by omega) (by omega)
  refine ⟨bound * bound - 1, ?_, ?_⟩
  · unfold settle
    rw [Nat.sub_add_cancel (by omega)]
  · omega

theorem Busy.settle (busy : tl.Busy answers tl.cache.entries.length
    (6 * (tl.cache.entries.length + 1))) : tl.settle.AtRest answers := by
  obtain ⟨fuel, settled, enough⟩ := settle_drains tl
  rw [settled]
  exact (busy.mono enough).drain

theorem AtRest.invalidateAll (still : tl.AtRest answers) : tl.invalidateAll.AtRest answers := by
  have step : step? tl.cache .invalidateAll = some tl.cache.invalidateAll := rfl
  have after : (tl.act .invalidateAll).AtRest answers :=
    ⟨⟨step_orderly still.prompt.order step, still.prompt.loader⟩,
      ⟨still.awaits.timers, still.awaits.ahead⟩, still.nobody, still.ready⟩
  exact (Busy.rest after).settle

theorem moveTo_settles (time : Nat) : tl.moveTo time = settle { tl with
    cache := { tl.cache with now := tl.cache.now + (time - tl.cache.now) }
    timers := tl.timers.filter fun timer => !(timer.due ≤ time)
    ready := tl.ready ++ ((tl.timers.filter fun timer => timer.due ≤ time).mergeSort
      fun a b => decide (a.due ≤ b.due)).map Timer.job } := by
  unfold Timeline.moveTo
  rw [List.partition_eq_filter_filter]
  rfl

theorem AtRest.moveTo (still : tl.AtRest answers) (time : Nat) :
    (tl.moveTo time).AtRest answers := by
  have step : step? tl.cache (.advance (time - tl.cache.now)) =
      some ({ tl.cache with now := tl.cache.now + (time - tl.cache.now) }, []) := rfl
  have order := step_orderly still.prompt.order step
  have timers := still.awaits.timers
  rw [moveTo_settles]
  refine Busy.settle ?_
  -- Without a refresher nothing is ever due; else it is the next sweep, or that is still ahead.
  cases refresher : tl.refresher with
  | none =>
    rw [refresher, Option.map_none, Option.toList_none] at timers
    simp only [timers, still.ready, List.filter_nil, List.mergeSort_nil, List.map_nil,
      List.append_nil]
    exact .rest ⟨⟨order, still.prompt.loader⟩, ⟨rfl, fun r own => nomatch own⟩, still.nobody, rfl⟩
  | some r =>
    have ahead := still.awaits.ahead r refresher
    rw [refresher, Option.map_some, Option.toList_some] at timers
    by_cases due : r.next ≤ time
    · simp only [timers, still.ready, List.filter_cons, due, decide_true, if_true, List.filter_nil,
        Bool.not_true, Bool.false_eq_true, if_false, List.mergeSort_singleton, List.map_cons,
        List.map_nil, List.nil_append]
      refine .due r ⟨order, still.prompt.loader⟩ rfl rfl rfl still.nobody rfl ?_ ?_
      · dsimp only
        omega
      · exact Nat.mul_le_mul_right _ (Nat.min_le_right _ _)
    · simp only [timers, still.ready, List.filter_cons, due, decide_false, if_false,
        List.filter_nil, Bool.not_false, Bool.false_eq_true, if_true, List.mergeSort_nil,
        List.map_nil, List.append_nil]
      refine .rest ⟨⟨order, still.prompt.loader⟩, ⟨rfl, fun r' own => ?_⟩, still.nobody, rfl⟩
      cases own
      dsimp only
      omega

theorem AtRest.advanceTo (fuel time : Nat) (still : tl.AtRest answers) :
    (tl.advanceTo fuel time).AtRest answers := by
  induction fuel generalizing tl with
  | zero => exact still
  | succ fuel ih =>
    unfold Timeline.advanceTo
    split
    · split
      · exact ih (still.moveTo _)
      · exact still.moveTo _
    · exact still.moveTo _

theorem AtRest.advance (still : tl.AtRest answers) (ms : Nat) : (tl.advance ms).AtRest answers :=
  still.advanceTo _ _

end Rest

end Timeline
end SingleFlight
end MetricGateway
