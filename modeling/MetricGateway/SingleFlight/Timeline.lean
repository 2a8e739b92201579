import MetricGateway.SingleFlight.Step

/- A single-flight cache in virtual time. The clock stands still until it is moved; when it moves,
   it stops at every moment at which something is due, and all that can run then runs. -/
namespace MetricGateway
namespace SingleFlight

structure Load (α ε : Type) where
  delay : Nat := 0
  outcome : Except ε α

inductive Job (κ α ε : Type) where
  | resume (task : TaskId)
  | answer (task : TaskId) (key : κ) (call : Nat) (outcome : Except ε α)
  | tick

structure Timer (κ α ε : Type) where
  due : Nat
  job : Job κ α ε

/-- The refresher: which run of it this is, and when its next sweep is due. -/
structure Refresher where
  run : Nat
  next : Nat

/-- What an onlooker notes. Loader calls are numbered by key, from one. -/
inductive Sighting (κ α ε : Type) where
  | called (key : κ) (call : Nat)
  | answered (key : κ) (call : Nat)
  | signal (s : Signal κ α ε)

structure Timeline (κ α ε : Type) where
  cache : State κ α ε
  loader : κ → Nat → Load α ε
  calls : List κ := []
  timers : List (Timer κ α ε) := []
  ready : List (Job κ α ε) := []
  refresher : Option Refresher := none
  starts : Nat := 0
  seen : List (Sighting κ α ε) := []

def Job.task? {κ α ε : Type} : Job κ α ε → Option TaskId
  | .resume t | .answer t .. => some t
  | .tick => none

namespace Timeline

variable {κ α ε : Type}

def note (tl : Timeline κ α ε) (s : Sighting κ α ε) : Timeline κ α ε :=
  { tl with seen := tl.seen ++ [s] }

/-- Runs a job when it is due. What takes no time runs before all else. -/
def schedule (tl : Timeline κ α ε) (due : Nat) (job : Job κ α ε) : Timeline κ α ε :=
  if due ≤ tl.cache.now then { tl with ready := job :: tl.ready }
  else { tl with timers := tl.timers ++ [⟨due, job⟩] }

def period (tl : Timeline κ α ε) : Nat := max tl.cache.settings.sweepInterval 1

def awaitTick (tl : Timeline κ α ε) : Timeline κ α ε :=
  match tl.refresher with
  | some r => tl.schedule r.next .tick
  | none => tl

def follow [DecidableEq κ] (tl : Timeline κ α ε) (s : Signal κ α ε) : Timeline κ α ε :=
  let tl := tl.note (.signal s)
  match s with
  | .began t key =>
    let call := tl.calls.count key + 1
    let load := tl.loader key call
    { tl.note (.called key call) with calls := key :: tl.calls }.schedule
      (tl.cache.now + load.delay) (.answer t key call load.outcome)
  | .granted t => { tl with ready := tl.ready ++ [.resume t] }
  | .finished (.refresher _) _ => tl.awaitTick
  | .finished (.request _) _ | .sized _ | .expired _ | .refreshed .. => tl

/-- Takes a step; one that cannot be taken changes nothing. -/
def act [DecidableEq κ] (tl : Timeline κ α ε) (a : Action κ α ε) : Timeline κ α ε :=
  match step? tl.cache a with
  | some (cache, signals) => signals.foldl follow { tl with cache }
  | none => tl

/-- The refresher's tick: if it comes more than 5 ms late, the schedule starts anew from now. -/
def tick [DecidableEq κ] (tl : Timeline κ α ε) : Timeline κ α ε :=
  match tl.refresher with
  | none => tl
  | some r =>
    let late := r.next + 5 < tl.cache.now
    let next := (if late then tl.cache.now else r.next) + tl.period
    { tl with refresher := some { r with next } }.act
      (.sweep (.refresher r.run) tl.cache.listedIds)

def perform [DecidableEq κ] (tl : Timeline κ α ε) : Job κ α ε → Timeline κ α ε
  | .resume t => tl.act (.resume t)
  | .answer t key call outcome => (tl.note (.answered key call)).act (.loaded t outcome)
  | .tick => tl.tick

def drain [DecidableEq κ] : Nat → Timeline κ α ε → Timeline κ α ε
  | 0, tl => tl
  | fuel + 1, tl =>
    match tl.ready with
    | [] => tl
    | job :: rest => drain fuel ({ tl with ready := rest }.perform job)

/-- Every task is resumed or answered at most once per entry it can meet, and a late refresher
    sweeps at most a few times at one moment. -/
def settle [DecidableEq κ] (tl : Timeline κ α ε) : Timeline κ α ε :=
  let bound := tl.cache.tasks.length + tl.cache.entries.length + tl.ready.length + 8
  drain (bound * bound) tl

def startRefresher (tl : Timeline κ α ε) : Timeline κ α ε :=
  match tl.refresher with
  | some _ => tl
  | none =>
    { tl with
      refresher := some ⟨tl.starts, tl.cache.now + tl.period⟩
      starts := tl.starts + 1 }.awaitTick

def ensureRefresher (tl : Timeline κ α ε) : Timeline κ α ε :=
  if tl.cache.settings.background then tl.startRefresher else tl

def get [DecidableEq κ] (tl : Timeline κ α ε) (t : TaskId) (key : κ) : Timeline κ α ε :=
  (tl.act (.get t key)).ensureRefresher.settle

def put [DecidableEq κ] (tl : Timeline κ α ε) (key : κ) (value : α) : Timeline κ α ε :=
  (tl.act (.put key value)).ensureRefresher.settle

def remove [DecidableEq κ] (tl : Timeline κ α ε) (t : TaskId) (key : κ) : Timeline κ α ε :=
  (tl.act (.remove t key)).settle

def sweep [DecidableEq κ] (tl : Timeline κ α ε) (t : TaskId) : Timeline κ α ε :=
  (tl.act (.sweep t tl.cache.listedIds)).settle

def invalidateAll [DecidableEq κ] (tl : Timeline κ α ε) : Timeline κ α ε :=
  (tl.act .invalidateAll).settle

/-- Gives up a task; a loader call it waits for is not answered any more. -/
def cancel [DecidableEq κ] (tl : Timeline κ α ε) (t : TaskId) : Timeline κ α ε :=
  { tl with timers := tl.timers.filter (·.job.task? ≠ some t) }.act (.cancel t) |>.settle

def isTick : Job κ α ε → Bool
  | .tick => true
  | _ => false

/-- Stops the refresher, in the middle of a sweep too. A later use starts it again. -/
def shutdown [DecidableEq κ] (tl : Timeline κ α ε) : Timeline κ α ε :=
  match tl.refresher with
  | none => tl
  | some r =>
    { tl with
      refresher := none
      timers := tl.timers.filter fun timer => !isTick timer.job }.cancel (.refresher r.run)

def nextDue? (tl : Timeline κ α ε) : Option Nat := (tl.timers.map Timer.due).min?

def moveTo [DecidableEq κ] (tl : Timeline κ α ε) (time : Nat) : Timeline κ α ε :=
  let (due, later) := tl.timers.partition fun timer => timer.due ≤ time
  let due := due.mergeSort fun a b => decide (a.due ≤ b.due)
  let tl := tl.act (.advance (time - tl.cache.now))
  { tl with timers := later, ready := tl.ready ++ due.map Timer.job }.settle

def advanceTo [DecidableEq κ] : Nat → Timeline κ α ε → Nat → Timeline κ α ε
  | 0, tl, _ => tl
  | fuel + 1, tl, time =>
    match tl.nextDue? with
    | some due => if due < time then advanceTo fuel (tl.moveTo due) time else tl.moveTo time
    | none => tl.moveTo time

/-- Each stop is at least one millisecond after the one before. -/
def advance [DecidableEq κ] (tl : Timeline κ α ε) (ms : Nat) : Timeline κ α ε :=
  advanceTo (ms + 1) tl (tl.cache.now + ms)

def forget (tl : Timeline κ α ε) : Timeline κ α ε := { tl with seen := [] }

def results (tl : Timeline κ α ε) : List (Nat × Result α ε) :=
  tl.seen.filterMap fun
    | .signal (.finished (.request n) r) => some (n, r)
    | _ => none

end Timeline
end SingleFlight
end MetricGateway
