/- A single-flight cache: callers that miss the same key share one call of the loader. This module
   holds its state; tasks stop only where they wait for an entry's gate or for a loader call. -/
namespace MetricGateway
namespace SingleFlight

/-- Times in milliseconds; a missing duration disables what it governs. -/
structure Settings where
  refreshAfter : Option Nat
  expireAfter : Option Nat
  sweepInterval : Nat
  /-- Whether the first use starts a task that sweeps at intervals. -/
  background : Bool
  deriving DecidableEq, Repr

inductive TaskId where
  | request (n : Nat)
  | refresher (run : Nat)
  deriving DecidableEq, Repr

/-- What the cache knows under a key. An entry stays in memory when it leaves the table, because
    tasks may still wait for its gate. -/
structure Entry (κ α ε : Type) where
  key : κ
  listed : Bool := true
  value : Option α := none
  loadedAt : Nat
  usedAt : Nat
  /-- Grows with every failed load, so that a waiter can tell a failure it shares. -/
  failures : Nat := 0
  lastError : Option ε := none
  /-- The task that has the gate, or to which it has been handed. -/
  holder : Option TaskId := none
  queue : List TaskId := []

namespace Entry

variable {κ α ε : Type}

def vacant (key : κ) (now : Nat) : Entry κ α ε := { key, loadedAt := now, usedAt := now }

def touch (e : Entry κ α ε) (now : Nat) : Entry κ α ε := { e with usedAt := now }

/-- Stores a loaded value. A refresh is no use of the key, unless it fills an emptied entry. -/
def install (e : Entry κ α ε) (now : Nat) (used : Bool) (value : α) : Entry κ α ε :=
  { e with
    usedAt := if used || e.value.isNone then now else e.usedAt
    value := some value
    loadedAt := now
    lastError := none }

def clear (e : Entry κ α ε) : Entry κ α ε := { e with value := none }

def fail (e : Entry κ α ε) (error : ε) : Entry κ α ε :=
  { e with lastError := some error, failures := e.failures + 1 }

def detach (e : Entry κ α ε) : Entry κ α ε := { e with listed := false }

def detachIfEmpty (e : Entry κ α ε) : Entry κ α ε := { e with listed := e.listed && e.value.isSome }

/-- An idle entry leaves the table. A busy one stays without its value, so that later callers join
    the load in flight. -/
def invalidate (e : Entry κ α ε) : Entry κ α ε :=
  if e.listed then (if e.holder.isNone then e.detach else e.clear) else e

def acquire (e : Entry κ α ε) (t : TaskId) : Entry κ α ε := { e with holder := some t }

def enqueue (e : Entry κ α ε) (t : TaskId) : Entry κ α ε := { e with queue := e.queue ++ [t] }

def leave (e : Entry κ α ε) (t : TaskId) : Entry κ α ε := { e with queue := e.queue.filter (· ≠ t) }

/-- The gate goes to the first in line, even before that task runs. -/
def release (e : Entry κ α ε) : Entry κ α ε :=
  { e with holder := e.queue.head?, queue := e.queue.tail }

def held (e : Entry κ α ε) : Bool := e.listed && e.value.isSome

end Entry

inductive Phase (κ : Type) where
  /-- A get in line for the gate, with the failures it saw before. -/
  | getQueued (key : κ) (entry failures : Nat)
  | getLoading (key : κ) (entry : Nat)
  | removeQueued (key : κ) (entry : Nat)
  /-- A sweep that reloads an entry, has others before it, and began at a time. -/
  | refreshing (entry : Nat) (rest : List Nat) (began : Nat)

inductive Result (α ε : Type) where
  | got (value : α)
  | failed (error : ε)
  | removed (value : Option α)
  | swept

inductive Signal (κ α ε : Type) where
  | began (task : TaskId) (key : κ)
  /-- A gate has been handed to a waiting task, which can now be resumed. -/
  | granted (task : TaskId)
  | finished (task : TaskId) (result : Result α ε)
  | sized (size : Nat)
  | expired (key : κ)
  | refreshed (key : κ) (success : Bool)

structure State (κ α ε : Type) where
  settings : Settings
  now : Nat := 0
  entries : List (Entry κ α ε) := []
  tasks : List (TaskId × Phase κ) := []

def loadFailureText (cause : String) : String := "loading cache entry failed: " ++ cause

namespace State

variable {κ α ε : Type}

def size (s : State κ α ε) : Nat := s.entries.countP Entry.held

def listedIds (s : State κ α ε) : List Nat :=
  (List.range s.entries.length).filter fun id => (s.entries[id]?.map Entry.listed).getD false

def phase? (s : State κ α ε) (t : TaskId) : Option (Phase κ) := s.tasks.lookup t

def modifyEntry (s : State κ α ε) (id : Nat) (f : Entry κ α ε → Entry κ α ε) : State κ α ε :=
  { s with entries := s.entries.modify id f }

def dropTask (s : State κ α ε) (t : TaskId) : State κ α ε :=
  { s with tasks := s.tasks.filter (·.1 ≠ t) }

def setPhase (s : State κ α ε) (t : TaskId) (p : Phase κ) : State κ α ε :=
  { s with tasks := (s.dropTask t).tasks ++ [(t, p)] }

def addEntry (s : State κ α ε) (key : κ) : State κ α ε :=
  { s with entries := s.entries ++ [.vacant key s.now] }

variable [DecidableEq κ]

def find? (s : State κ α ε) (key : κ) : Option Nat :=
  s.entries.findIdx? fun e => e.listed && decide (e.key = key)

def claim (s : State κ α ε) (key : κ) : State κ α ε × Nat :=
  match s.find? key with
  | some id => (s, id)
  | none => (s.addEntry key, s.entries.length)

def contains (s : State κ α ε) (key : κ) : Bool :=
  s.entries.any fun e => e.held && decide (e.key = key)

end State

end SingleFlight
end MetricGateway
