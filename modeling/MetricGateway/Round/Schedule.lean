import MetricGateway.Target.Basic
import MetricGateway.Exposition.Framing

/- The timing of a scraping round. Workers take the instances first come first served; each fetch
   begins when a worker is free and lasts no longer than the fetch limit. -/
namespace MetricGateway

inductive FetchOutcome where
  | page (p : Page)
  | failed
  | crashed
  deriving DecidableEq, Repr

/-- How one instance's fetch goes: after how many milliseconds it ends, if ever, and how. -/
structure FetchPlan where
  delay : Option Nat
  outcome : FetchOutcome
  deriving DecidableEq, Repr

structure RoundSettings where
  workers : Nat
  /-- Milliseconds. -/
  fetchTimeout : Nat
  /-- Milliseconds. -/
  maxProcessingTime : Nat
  labelEnrichment : Bool
  deriving DecidableEq, Repr

namespace FetchPlan

def inTime (p : FetchPlan) (limit : Nat) : Bool := p.delay.any (· ≤ limit)

def span (p : FetchPlan) (limit : Nat) : Nat := min (p.delay.getD limit) limit

/-- A fetch that exceeds the limit fails. -/
def result (p : FetchPlan) (limit : Nat) : FetchOutcome :=
  if p.inTime limit then p.outcome else .failed

end FetchPlan

namespace Schedule

/-- Begin times of tasks with given spans. `free` has the moment at which each worker is free
    next; the task first in line goes to the earliest. -/
def begins : List Nat → List Nat → List Nat
  | _, [] => []
  | free, span :: spans =>
    let start := free.min?.getD 0
    start :: begins ((start + span) :: free.erase start) spans

/-- No more workers than tasks are of use, and there is always one. -/
def idleWorkers (workers tasks : Nat) : List Nat := List.replicate (min (max workers 1) tasks) 0

end Schedule

structure Slot where
  source : Instance
  begins : Nat
  ends : Nat
  result : FetchOutcome

namespace Slot

def duration (s : Slot) : Nat := s.ends - s.begins

def page? (s : Slot) : Option Page :=
  match s.result with
  | .page p => some p
  | .failed | .crashed => none

end Slot

/-- The slots of a round without deadline, in the order of the instances. -/
def slots (settings : RoundSettings) (plans : List (Instance × FetchPlan)) : List Slot :=
  let spans := plans.map fun p => p.2.span settings.fetchTimeout
  let begins := Schedule.begins (Schedule.idleWorkers settings.workers plans.length) spans
  (plans.zip begins).map fun (p, begins) =>
    ⟨p.1, begins, begins + p.2.span settings.fetchTimeout, p.2.result settings.fetchTimeout⟩

end MetricGateway
