import MetricGateway.Proofs.SingleFlight.Values
import MetricGateway.SingleFlight.Timeline

/- The same of a cache in time: whatever values its loader gives, its calls, timers and sweeps go
   alike, as long as the loader takes the same time and fails with the same errors. -/
namespace MetricGateway
namespace SingleFlight

variable {κ α β ε : Type}

def Load.map (f : α → β) (l : Load α ε) : Load β ε := ⟨l.delay, l.outcome.map f⟩

def Job.map (f : α → β) : Job κ α ε → Job κ β ε
  | .resume t => .resume t
  | .answer t key call outcome => .answer t key call (outcome.map f)
  | .tick => .tick

def Timer.map (f : α → β) (t : Timer κ α ε) : Timer κ β ε := ⟨t.due, t.job.map f⟩

def Sighting.map (f : α → β) : Sighting κ α ε → Sighting κ β ε
  | .called key call => .called key call
  | .answered key call => .answered key call
  | .signal s => .signal (s.map f)

namespace Timeline

def map (f : α → β) (tl : Timeline κ α ε) : Timeline κ β ε where
  cache := tl.cache.map f
  loader key call := (tl.loader key call).map f
  calls := tl.calls
  timers := tl.timers.map (Timer.map f)
  ready := tl.ready.map (Job.map f)
  refresher := tl.refresher
  starts := tl.starts
  seen := tl.seen.map (Sighting.map f)

variable (f : α → β) (tl : Timeline κ α ε)

theorem note_map (s : Sighting κ α ε) : (tl.note s).map f = (tl.map f).note (s.map f) := by
  unfold note map
  rw [List.map_append]
  rfl

theorem schedule_map (due : Nat) (job : Job κ α ε) :
    (tl.schedule due job).map f = (tl.map f).schedule due (job.map f) := by
  have now : (tl.map f).cache.now = tl.cache.now := rfl
  unfold schedule
  rw [now]
  split
  · rfl
  · unfold map
    rw [List.map_append]
    rfl

theorem awaitTick_map : tl.awaitTick.map f = (tl.map f).awaitTick := by
  have refresher : (tl.map f).refresher = tl.refresher := rfl
  unfold awaitTick
  rw [refresher]
  cases tl.refresher with
  | none => rfl
  | some r => exact schedule_map f tl r.next .tick

theorem startRefresher_map : tl.startRefresher.map f = (tl.map f).startRefresher := by
  have refresher : (tl.map f).refresher = tl.refresher := rfl
  unfold startRefresher
  rw [refresher]
  cases tl.refresher with
  | some r => rfl
  | none => exact awaitTick_map f _

theorem ensureRefresher_map : tl.ensureRefresher.map f = (tl.map f).ensureRefresher := by
  have background : (tl.map f).cache.settings = tl.cache.settings := rfl
  unfold ensureRefresher
  rw [background]
  split
  · exact startRefresher_map f tl
  · rfl

variable [DecidableEq κ]

theorem follow_map (s : Signal κ α ε) : (tl.follow s).map f = (tl.map f).follow (s.map f) := by
  have noted := note_map f tl (.signal s)
  cases s with
  | began t key =>
    unfold follow
    dsimp only [Signal.map]
    have noted' : (tl.note (.signal (.began t key))).map f =
      (tl.map f).note (.signal (.began t key)) := noted
    rw [← noted']
    generalize tl.note (.signal (.began t key)) = tl
    refine (schedule_map f _ _ _).trans ?_
    have called := note_map f tl (.called key (tl.calls.count key + 1))
    exact congrArg (fun told => schedule { told with calls := key :: tl.calls } _ _) called
  | granted t =>
    have queued : ∀ tl : Timeline κ α ε, map f { tl with ready := tl.ready ++ [.resume t] } =
        { tl.map f with ready := (tl.map f).ready ++ [.resume t] } := by
      intro tl
      unfold map
      rw [List.map_append]
      rfl
    refine (queued _).trans ?_
    exact congrArg (fun tl => { tl with ready := tl.ready ++ [Job.resume t] }) noted
  | finished t r =>
    cases t with
    | request n => exact noted
    | refresher run => exact (awaitTick_map f _).trans (congrArg awaitTick noted)
  | sized | expired | refreshed => exact noted

theorem act_map (a : Action κ α ε) : (tl.act a).map f = (tl.map f).act (a.map f) := by
  have followed : ∀ (signals : List (Signal κ α ε)) (tl : Timeline κ α ε),
      (signals.foldl follow tl).map f = (signals.map (Signal.map f)).foldl follow (tl.map f) := by
    intro signals tl
    rw [List.foldl_map]
    exact (List.foldl_hom (map f) fun tl s => (follow_map f tl s).symm).symm
  have step : step? (tl.map f).cache (a.map f) = (step? tl.cache a).map (Effect.map f) :=
    step?_map f tl.cache a
  unfold act
  rw [step]
  cases step? tl.cache a with
  | none => rfl
  | some effect => exact followed effect.2 _

theorem tick_map : tl.tick.map f = (tl.map f).tick := by
  have refresher : (tl.map f).refresher = tl.refresher := rfl
  unfold tick
  rw [refresher]
  cases tl.refresher with
  | none => rfl
  | some r =>
    have listed : (tl.map f).cache.listedIds = tl.cache.listedIds := State.listedIds_map f tl.cache
    dsimp only
    rw [listed]
    exact act_map f _ (.sweep (.refresher r.run) tl.cache.listedIds)

theorem perform_map (job : Job κ α ε) :
    (tl.perform job).map f = (tl.map f).perform (job.map f) := by
  cases job with
  | resume t => exact act_map f tl (.resume t)
  | answer t key call outcome =>
    exact (act_map f _ (.loaded t outcome)).trans
      (congrArg (act · _) (note_map f tl (.answered key call)))
  | tick => exact tick_map f tl

theorem drain_map (fuel : Nat) : (drain fuel tl).map f = drain fuel (tl.map f) := by
  induction fuel generalizing tl with
  | zero => rfl
  | succ fuel ih =>
    have ready : (tl.map f).ready = tl.ready.map (Job.map f) := rfl
    unfold drain
    rw [ready]
    cases tl.ready with
    | nil => rfl
    | cons job rest => exact (ih _).trans (congrArg (drain fuel) (perform_map f _ job))

theorem settle_map : tl.settle.map f = (tl.map f).settle := by
  have entries : (tl.map f).cache.entries.length = tl.cache.entries.length := List.length_map ..
  have ready : (tl.map f).ready.length = tl.ready.length := List.length_map ..
  have tasks : (tl.map f).cache.tasks = tl.cache.tasks := rfl
  unfold settle
  rw [entries, ready, tasks]
  exact drain_map f tl _

theorem get_map (t : TaskId) (key : κ) : (tl.get t key).map f = (tl.map f).get t key := by
  unfold get
  rw [settle_map, ensureRefresher_map, act_map]
  rfl

theorem invalidateAll_map : tl.invalidateAll.map f = (tl.map f).invalidateAll := by
  unfold invalidateAll
  rw [settle_map, act_map]
  rfl

omit [DecidableEq κ] in
theorem timers_map (time : Nat) :
    (tl.map f).timers.partition (fun timer => timer.due ≤ time) =
        ((tl.timers.partition fun timer => timer.due ≤ time).1.map (Timer.map f),
          (tl.timers.partition fun timer => timer.due ≤ time).2.map (Timer.map f)) := by
  rw [List.partition_eq_filter_filter, List.partition_eq_filter_filter]
  exact congrArg₂ Prod.mk List.filter_map List.filter_map

theorem moveTo_map (time : Nat) : (tl.moveTo time).map f = (tl.map f).moveTo time := by
  have advanced := act_map f tl (.advance (time - tl.cache.now))
  unfold moveTo
  rw [timers_map]
  generalize tl.timers.partition (fun timer => timer.due ≤ time) = parts
  obtain ⟨due, later⟩ := parts
  have sorted := List.map_mergeSort (f := Timer.map f) (r := fun a b => decide (a.due ≤ b.due))
    (s := fun a b => decide (a.due ≤ b.due)) (l := due) fun _ _ _ _ => rfl
  dsimp only
  rw [settle_map, ← sorted]
  refine congrArg settle ?_
  have now : (tl.map f).cache.now = tl.cache.now := rfl
  have woken : ∀ (tl : Timeline κ α ε) (due : List (Timer κ α ε)),
      map f { tl with timers := later, ready := tl.ready ++ due.map Timer.job } =
        { tl.map f with
          timers := later.map (Timer.map f)
          ready := (tl.map f).ready ++ (due.map (Timer.map f)).map Timer.job } := by
    intro tl due
    unfold map
    rw [List.map_append, List.map_map, List.map_map]
    rfl
  rw [woken, advanced, now]
  rfl

theorem advanceTo_map (fuel time : Nat) :
    (advanceTo fuel tl time).map f = advanceTo fuel (tl.map f) time := by
  induction fuel generalizing tl with
  | zero => rfl
  | succ fuel ih =>
    have next : (tl.map f).nextDue? = tl.nextDue? := by
      unfold nextDue? map
      rw [List.map_map]
      rfl
    unfold advanceTo
    rw [next]
    cases tl.nextDue? with
    | none => exact moveTo_map f tl time
    | some due =>
      dsimp only
      split
      · rw [ih, moveTo_map]
      · exact moveTo_map f tl time

theorem advance_map (ms : Nat) : (tl.advance ms).map f = (tl.map f).advance ms :=
  advanceTo_map f tl (ms + 1) (tl.cache.now + ms)

end Timeline
end SingleFlight
end MetricGateway
