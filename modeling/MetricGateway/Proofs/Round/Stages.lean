import MetricGateway.Proofs.Round.Attribution

/- A round on its way. Its tasks are let loose all at once and come for a worker in any order; who
   finds none free stands in line. Fetches that are due at one moment end in any order, and time
   goes on when nothing else is left to do. At the deadline what is left is given up, task by task,
   before the round returns. A worker is given back however its fetch ends. -/
namespace MetricGateway
namespace Round

abbrev Task := Instance × FetchPlan

def slotOf (settings : RoundSettings) (f : Task × Nat) : Slot :=
  ⟨f.1.1, f.2, f.2 + f.1.2.span settings.fetchTimeout, f.1.2.result settings.fetchTimeout⟩

structure Stage where
  now : Nat := 0
  free : Nat
  coming : List Task
  line : List Task := []
  /-- The fetches in flight, with the moments at which they began. -/
  flying : List (Task × Nat) := []
  begun : List (Task × Nat) := []
  ended : List (Task × Nat) := []
  stopped : List (Task × Nat) := []
  /-- Tasks that were given up before they had a worker. -/
  dropped : List Task := []
  aborted : Bool := false
  returned : Bool := false

namespace Stage

def begin (settings : RoundSettings) (plans : List Task) : Stage :=
  { free := max settings.workers 1, coming := plans }

/-- The tasks of the round, in the order in which they get a worker or would get one. -/
def tasks (st : Stage) : List Task :=
  st.begun.map Prod.fst ++ (st.line ++ (st.coming ++ st.dropped))

end Stage

inductive Step (settings : RoundSettings) : Stage → Stage → Prop where
  | start {st : Stage} {before after : List Task} {task : Task} (on : st.aborted = false)
      (comes : st.coming = before ++ task :: after) (idle : 0 < st.free) :
      Step settings st { st with
        free := st.free - 1, coming := before ++ after
        flying := st.flying ++ [(task, st.now)], begun := st.begun ++ [(task, st.now)] }
  | queue {st : Stage} {before after : List Task} {task : Task} (on : st.aborted = false)
      (comes : st.coming = before ++ task :: after) (busy : st.free = 0) :
      Step settings st { st with coming := before ++ after, line := st.line ++ [task] }
  /-- A fetch ends, or its task breaks down, and nobody waits for the worker. -/
  | finish {st : Stage} {before after : List (Task × Nat)} {f : Task × Nat}
      (on : st.aborted = false) (flies : st.flying = before ++ f :: after)
      (due : (slotOf settings f).ends ≤ st.now) (nobody : st.line = []) :
      Step settings st { st with
        free := st.free + 1, flying := before ++ after, ended := st.ended ++ [f] }
  /-- The worker goes to the first in line. -/
  | handOver {st : Stage} {before after : List (Task × Nat)} {f : Task × Nat} {task : Task}
      {rest : List Task} (on : st.aborted = false) (flies : st.flying = before ++ f :: after)
      (due : (slotOf settings f).ends ≤ st.now) (first : st.line = task :: rest) :
      Step settings st { st with
        line := rest, flying := before ++ after ++ [(task, st.now)], ended := st.ended ++ [f]
        begun := st.begun ++ [(task, st.now)] }
  | pass {st : Stage} (on : st.aborted = false) (settled : st.coming = []) (busy : st.flying ≠ [])
      (early : ∀ f ∈ st.flying, st.now < (slotOf settings f).ends)
      (before : st.now < settings.maxProcessingTime) :
      Step settings st { st with now := st.now + 1 }
  | abort {st : Stage} (on : st.aborted = false) (pending : st.returned = false)
      (late : settings.maxProcessingTime ≤ st.now) : Step settings st { st with aborted := true }
  | drop {st : Stage} {before after : List Task} {task : Task} (off : st.aborted = true)
      (comes : st.coming = before ++ task :: after) :
      Step settings st { st with coming := before ++ after, dropped := task :: st.dropped }
  | leave {st : Stage} {before after : List Task} {task : Task} (off : st.aborted = true)
      (waits : st.line = before ++ task :: after) :
      Step settings st { st with line := before ++ after, dropped := task :: st.dropped }
  | stop {st : Stage} {before after : List (Task × Nat)} {f : Task × Nat}
      (off : st.aborted = true) (flies : st.flying = before ++ f :: after) :
      Step settings st { st with
        free := st.free + 1, flying := before ++ after, stopped := st.stopped ++ [f] }
  /-- A fetch that ends at the deadline is not cut off any more. -/
  | finishLate {st : Stage} {before after : List (Task × Nat)} {f : Task × Nat}
      (off : st.aborted = true) (flies : st.flying = before ++ f :: after)
      (due : (slotOf settings f).ends ≤ st.now) :
      Step settings st { st with
        free := st.free + 1, flying := before ++ after, ended := st.ended ++ [f] }
  /-- The round returns when no task is left. -/
  | close {st : Stage} (pending : st.returned = false) (come : st.coming = [])
      (left : st.line = []) (landed : st.flying = []) :
      Step settings st { st with returned := true }

inductive Reached (settings : RoundSettings) (plans : List Task) : Nat → Stage → Prop where
  | begin : Reached settings plans 0 (.begin settings plans)
  | step {n : Nat} {st st' : Stage} (reached : Reached settings plans n st)
      (step : Step settings st st') : Reached settings plans (n + 1) st'

theorem Reached.keep {settings : RoundSettings} {plans : List Task} {P : Stage → Prop}
    (start : P (.begin settings plans)) (kept : ∀ {st st'}, Step settings st st' → P st → P st')
    {n : Nat} {st : Stage} (reached : Reached settings plans n st) : P st := by
  induction reached with
  | begin => exact start
  | step _ step ih => exact kept step ih

structure Stage.Staffed (workers : Nat) (st : Stage) : Prop where
  count : st.free + st.flying.length = workers
  taken : st.aborted = false → st.line ≠ [] → st.free = 0
  done : st.returned = true → st.coming = [] ∧ st.line = [] ∧ st.flying = []

/-- Every task is in one place, and so is every fetch that has begun. -/
structure Stage.Whole (plans : List Task) (st : Stage) : Prop where
  tasks : ∀ task, st.tasks.count task = plans.count task
  fetches : ∀ f, st.begun.count f = st.ended.count f + st.flying.count f + st.stopped.count f

/-- What the clock says of fetches. A fetch in flight is not past its end, so that it ends at the
    moment at which it is due; and there is always one that lasts until now, but at the start. -/
structure Stage.Timed (settings : RoundSettings) (st : Stage) : Prop where
  inTime : st.now ≤ settings.maxProcessingTime
  fresh : st.coming ≠ [] → st.now = 0
  begun : ∀ f ∈ st.begun, f.2 ≤ st.now
  flying : ∀ f ∈ st.flying, f ∈ st.begun ∧ st.now ≤ (slotOf settings f).ends
  ended : ∀ f ∈ st.ended, (slotOf settings f).ends ≤ st.now
  inOrder : st.ended.Pairwise fun f g => (slotOf settings f).ends ≤ (slotOf settings g).ends
  lasts : st.now = 0 ∨ ∃ f ∈ st.begun, st.now ≤ (slotOf settings f).ends
  calm : st.aborted = false → st.stopped = [] ∧ st.dropped = []
  late : st.aborted = true → st.now = settings.maxProcessingTime
  stopped : ∀ f ∈ st.stopped, settings.maxProcessingTime ≤ (slotOf settings f).ends

theorem Stage.Timed.ends {settings : RoundSettings} {st : Stage} (timed : st.Timed settings)
    {f : Task × Nat} (flies : f ∈ st.flying) (due : (slotOf settings f).ends ≤ st.now) :
    (∀ g ∈ st.ended ++ [f], (slotOf settings g).ends ≤ st.now) ∧
      (st.ended ++ [f]).Pairwise fun f g =>
        (slotOf settings f).ends ≤ (slotOf settings g).ends := by
  constructor
  · intro g member
    rcases List.mem_append.1 member with before | own
    · exact timed.ended g before
    · exact List.mem_singleton.1 own ▸ due
  · rw [List.pairwise_append]
    refine ⟨timed.inOrder, List.pairwise_singleton _ _, ?_⟩
    intro g before h own
    rw [List.mem_singleton.1 own]
    exact Nat.le_trans (timed.ended g before) (timed.flying f flies).2

theorem Stage.Timed.begins {settings : RoundSettings} {st : Stage} (timed : st.Timed settings)
    {flying : List (Task × Nat)} (still : ∀ f ∈ flying, f ∈ st.flying) (task : Task) :
    (∀ f ∈ st.begun ++ [(task, st.now)], f.2 ≤ st.now) ∧
      (∀ f ∈ flying ++ [(task, st.now)],
        f ∈ st.begun ++ [(task, st.now)] ∧ st.now ≤ (slotOf settings f).ends) ∧
      (st.now = 0 ∨ ∃ f ∈ st.begun ++ [(task, st.now)], st.now ≤ (slotOf settings f).ends) := by
  refine ⟨?_, ?_, ?_⟩
  · intro f member
    rcases List.mem_append.1 member with before | own
    · exact timed.begun f before
    · cases List.mem_singleton.1 own
      exact Nat.le_refl _
  · intro f member
    rcases List.mem_append.1 member with before | own
    · obtain ⟨begun, early⟩ := timed.flying f (still f before)
      exact ⟨List.mem_append_left _ begun, early⟩
    · rw [List.mem_singleton.1 own]
      exact ⟨by simp, Nat.le_add_right _ _⟩
  · rcases timed.lasts with start | ⟨f, member, lasts⟩
    · exact Or.inl start
    · exact Or.inr ⟨f, List.mem_append_left _ member, lasts⟩

def times (settings : RoundSettings) (fetches : List (Task × Nat)) : List (Nat × Nat) :=
  fetches.map fun f => (f.2, f.1.2.span settings.fetchTimeout)

/-- Fetches begin in turn, and where tasks are left over no worker has been free before now. -/
structure Stage.Turned (settings : RoundSettings) (st : Stage) : Prop where
  turns : Schedule.InTurn (max settings.workers 1) []
    (st.begun.map fun f => f.1.2.span settings.fetchTimeout) (st.begun.map Prod.snd)
  taken : st.line ≠ [] ∨ st.coming ≠ [] ∨ st.dropped ≠ [] →
    ∀ t < st.now, ¬ Schedule.Free (max settings.workers 1) (times settings st.begun) t

section Turns

variable {settings : RoundSettings} {plans : List Task} {st : Stage}

theorem zip_times (begun : List (Task × Nat)) :
    (begun.map Prod.snd).zip (begun.map fun f => f.1.2.span settings.fetchTimeout) =
      times settings begun :=
  List.zip_map' ..

theorem Stage.Turned.begins (turned : st.Turned settings) (task : Task)
    (free : Schedule.Free (max settings.workers 1) (times settings st.begun) st.now)
    (left : st.line ≠ [] ∨ st.coming ≠ [] ∨ st.dropped ≠ []) :
    Schedule.InTurn (max settings.workers 1) []
      ((st.begun ++ [(task, st.now)]).map fun f => f.1.2.span settings.fetchTimeout)
      ((st.begun ++ [(task, st.now)]).map Prod.snd) ∧
    ∀ t < st.now, ¬ Schedule.Free (max settings.workers 1)
      (times settings (st.begun ++ [(task, st.now)])) t := by
  constructor
  · rw [List.map_append, List.map_append]
    apply turned.turns.concat
    all_goals rw [List.append_nil, zip_times]
    · exact free.perm (List.reverse_perm _).symm
    · intro t at_once
      refine Nat.le_of_not_lt fun early => ?_
      exact turned.taken left t early (at_once.perm (List.reverse_perm _))
  · intro t early at_once
    have own : (st.now, task.2.span settings.fetchTimeout) ∈
        times settings (st.begun ++ [(task, st.now)]) := by simp [times]
    have later : st.now ≤ t := at_once.1 _ own
    omega

end Turns

structure Stage.Lawful (settings : RoundSettings) (plans : List Task) (st : Stage) : Prop where
  staffed : st.Staffed (max settings.workers 1)
  whole : st.Whole plans
  timed : st.Timed settings
  turned : st.Turned settings

end Round
end MetricGateway
