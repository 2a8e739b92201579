import MetricGateway.SingleFlight.State

/- The steps of a single-flight cache. A step runs one task to its next waiting place, or is one
   of the operations that never wait. Anything may happen between two steps. -/
namespace MetricGateway
namespace SingleFlight

variable {κ α ε : Type}

inductive Action (κ α ε : Type) where
  | get (task : TaskId) (key : κ)
  | remove (task : TaskId) (key : κ)
  | sweep (task : TaskId) (order : List Nat)
  | put (key : κ) (value : α)
  | invalidateAll
  | resume (task : TaskId)
  | loaded (task : TaskId) (outcome : Except ε α)
  | cancel (task : TaskId)
  | advance (ms : Nat)

abbrev Effect (κ α ε : Type) := State κ α ε × List (Signal κ α ε)

namespace Effect

def andThen (e : Effect κ α ε) (f : State κ α ε → Effect κ α ε) : Effect κ α ε :=
  let (s, seen) := f e.1
  (s, e.2 ++ seen)

end Effect

namespace State

def finish (s : State κ α ε) (t : TaskId) (r : Result α ε) : Effect κ α ε :=
  (s.dropTask t, [.finished t r])

def report (s : State κ α ε) : Effect κ α ε := (s, [.sized s.size])

def release (s : State κ α ε) (id : Nat) : Effect κ α ε :=
  let waiting := (s.entries[id]?.map Entry.queue).getD []
  (s.modifyEntry id Entry.release, waiting.head?.toList.map Signal.granted)

def beginLoad (s : State κ α ε) (t : TaskId) (key : κ) (id : Nat) : Effect κ α ε :=
  ((s.modifyEntry id (·.acquire t)).setPhase t (.getLoading key id), [.began t key])

def serve (s : State κ α ε) (t : TaskId) (id : Nat) (value : α) : Effect κ α ε :=
  (s.modifyEntry id (·.touch s.now)).finish t (.got value)

/-- A get from its beginning: a value is served at once; else the loader is called, or the get
    waits in line behind the task that has the gate. -/
def beginGet [DecidableEq κ] (s : State κ α ε) (t : TaskId) (key : κ) : Effect κ α ε :=
  let (s, id) := s.claim key
  match s.entries[id]? with
  | none => (s, [])
  | some e =>
    match e.value, e.holder with
    | some value, _ => s.serve t id value
    | none, none => s.beginLoad t key id
    | none, some _ => ((s.modifyEntry id (·.enqueue t)).setPhase t (.getQueued key id e.failures), [])

/-- A get that has come to the gate: it takes the value or the failure of the load before it,
    calls the loader itself, or starts over if the entry has left the table. -/
def resumeGet [DecidableEq κ] (s : State κ α ε) (t : TaskId) (key : κ) (id failures : Nat)
    (e : Entry κ α ε) : Effect κ α ε :=
  match e.value with
  | some value => Effect.andThen (s.serve t id value) (·.release id)
  | none =>
    match (if e.failures = failures then none else e.lastError) with
    | some error => Effect.andThen (s.finish t (.failed error)) (·.release id)
    | none =>
      if e.listed then s.beginLoad t key id
      else Effect.andThen ((s.dropTask t).release id) (·.beginGet t key)

def completeRemove (s : State κ α ε) (t : TaskId) (id : Nat) (e : Entry κ α ε) : Effect κ α ε :=
  Effect.andThen (s.modifyEntry id Entry.detach).report fun s =>
  Effect.andThen (s.finish t (.removed e.value)) (·.release id)

def beginRemove [DecidableEq κ] (s : State κ α ε) (t : TaskId) (key : κ) : Effect κ α ε :=
  match s.find? key with
  | none => s.finish t (.removed none)
  | some id =>
    match s.entries[id]? with
    | none => (s, [])
    | some e =>
      match e.holder with
      | none => completeRemove s t id e
      | some _ => ((s.modifyEntry id (·.enqueue t)).setPhase t (.removeQueued key id), [])

def olderThan (limit : Option Nat) (began since : Nat) : Bool :=
  match limit with
  | some limit => limit < began - since
  | none => false

/-- Visits entries until one has to be reloaded or all are seen. Only an entry whose gate is
    free is purged or reloaded. -/
def sweepOver (s : State κ α ε) (t : TaskId) (began : Nat) : List Nat → Effect κ α ε
  | [] => Effect.andThen s.report (·.finish t .swept)
  | id :: rest =>
    match s.entries[id]? with
    | none => s.sweepOver t began rest
    | some e =>
      if e.value.isNone then s.sweepOver t began rest
      else if olderThan s.settings.expireAfter began e.usedAt then
        if e.holder.isNone && e.listed then
          Effect.andThen (s.modifyEntry id Entry.detach, [.expired e.key]) (·.sweepOver t began rest)
        else s.sweepOver t began rest
      else if olderThan s.settings.refreshAfter began e.loadedAt && e.holder.isNone then
        ((s.modifyEntry id (·.acquire t)).setPhase t (.refreshing id rest began), [.began t e.key])
      else s.sweepOver t began rest

def endLoad (s : State κ α ε) (t : TaskId) (id : Nat) : Except ε α → Effect κ α ε
  | .ok value =>
    Effect.andThen (s.modifyEntry id (·.install s.now true value)).report fun s =>
    Effect.andThen (s.finish t (.got value)) (·.release id)
  | .error error =>
    Effect.andThen ((s.modifyEntry id fun e => (e.fail error).detachIfEmpty).finish t (.failed error))
      (·.release id)

def endRefresh (s : State κ α ε) (t : TaskId) (id : Nat) (rest : List Nat) (began : Nat) (key : κ)
    (outcome : Except ε α) : Effect κ α ε :=
  let stored := match outcome with
    | .ok value => (s.modifyEntry id (·.install s.now false value), [Signal.refreshed key true])
    | .error _ => (s, [Signal.refreshed key false])
  Effect.andThen (Effect.andThen stored (·.release id)) (·.sweepOver t began rest)

def put [DecidableEq κ] (s : State κ α ε) (key : κ) (value : α) : Effect κ α ε :=
  let (s, id) := s.claim key
  (s.modifyEntry id (·.install s.now true value)).report

def invalidateAll (s : State κ α ε) : Effect κ α ε :=
  { s with entries := s.entries.map Entry.invalidate }.report

def cancel (s : State κ α ε) (t : TaskId) (id : Nat) (e : Entry κ α ε) : Effect κ α ε :=
  if e.holder = some t then (s.dropTask t).release id
  else ((s.dropTask t).modifyEntry id (·.leave t), [])

end State

def Phase.entry : Phase κ → Nat
  | .getQueued _ id _ | .getLoading _ id | .removeQueued _ id | .refreshing id _ _ => id

def step? [DecidableEq κ] (s : State κ α ε) : Action κ α ε → Option (Effect κ α ε)
  | .get t key => if s.phase? t |>.isNone then some (s.beginGet t key) else none
  | .remove t key => if s.phase? t |>.isNone then some (s.beginRemove t key) else none
  | .sweep t order =>
    if (s.phase? t).isNone && order.isPerm s.listedIds then some (s.sweepOver t s.now order) else none
  | .put key value => some (s.put key value)
  | .invalidateAll => some s.invalidateAll
  | .resume t => do
    let phase ← s.phase? t
    let e ← s.entries[phase.entry]?
    if e.holder ≠ some t then none
    else match phase with
      | .getQueued key id failures => some (s.resumeGet t key id failures e)
      | .removeQueued _ id => some (s.completeRemove t id e)
      | .getLoading .. | .refreshing .. => none
  | .loaded t outcome => do
    let phase ← s.phase? t
    let e ← s.entries[phase.entry]?
    match phase with
    | .getLoading _ id => some (s.endLoad t id outcome)
    | .refreshing id rest began => some (s.endRefresh t id rest began e.key outcome)
    | .getQueued .. | .removeQueued .. => none
  | .cancel t => do
    let phase ← s.phase? t
    let e ← s.entries[phase.entry]?
    some (s.cancel t phase.entry e)
  | .advance ms => some ({ s with now := s.now + ms }, [])

def run? [DecidableEq κ] (s : State κ α ε) : List (Action κ α ε) → Option (Effect κ α ε)
  | [] => some (s, [])
  | a :: rest => do
    let (s, seen) ← step? s a
    let (s, more) ← run? s rest
    some (s, seen ++ more)

end SingleFlight
end MetricGateway
