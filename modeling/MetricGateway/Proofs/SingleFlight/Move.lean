import MetricGateway.Proofs.SingleFlight.Lookup

/- The moves that the steps of a single-flight cache are made of. A move changes one entry's
   content, or seats one task at one gate or takes it away; every invariant is a case analysis
   over moves. That each step is a chain of moves is shown once, where the cache is orderly. -/
namespace MetricGateway
namespace SingleFlight

variable {κ α ε : Type}

/-- Who acts in a step: a task, the clock, or the caller of an operation that never waits. -/
inductive Actor where
  | task (t : TaskId)
  | clock
  | caller
  deriving DecidableEq

def Action.actor : Action κ α ε → Actor
  | .get t _ | .remove t _ | .sweep t _ | .resume t | .loaded t _ | .cancel t => .task t
  | .put .. | .invalidateAll => .caller
  | .advance _ => .clock

/-- What an actor can show without changing the state: a task's end is shown by that task. -/
def Signal.ToldBy (who : Actor) : Signal κ α ε → Prop
  | .finished t _ => who = .task t
  | .sized _ | .expired _ | .refreshed .. => True
  | .began .. | .granted _ => False

/-- What a task's phase says about the entry at whose gate it is. A task that loads has the gate,
    and the entry that a get loads is the table's. -/
def Phase.Fits (t : TaskId) (e : Entry κ α ε) : Phase κ → Prop
  | .getQueued key _ _ | .removeQueued key _ => e.key = key
  | .getLoading key _ => e.key = key ∧ e.listed = true ∧ e.holder = some t
  | .refreshing .. => e.holder = some t

structure Orderly (s : State κ α ε) : Prop where
  /-- The table has one entry for a key. -/
  unique : ∀ (i j : Nat) (e f : Entry κ α ε), s.entries[i]? = some e → s.entries[j]? = some f →
    e.listed = true → f.listed = true → e.key = f.key → i = j
  /-- A waiting task is at the gate of the entry that its phase names. -/
  seated : ∀ t p, s.phase? t = some p →
    ∃ e : Entry κ α ε, s.entries[p.entry]? = some e ∧ t ∈ e.gate ∧ p.Fits t e
  /-- At a gate there are only tasks that wait there. -/
  waiting : ∀ (id : Nat) (e : Entry κ α ε) (t : TaskId), s.entries[id]? = some e → t ∈ e.gate →
    ∃ p, s.phase? t = some p ∧ p.entry = id
  nodup : ∀ (id : Nat) (e : Entry κ α ε), s.entries[id]? = some e → e.gate.Nodup
  free : ∀ (id : Nat) (e : Entry κ α ε), s.entries[id]? = some e → e.holder = none → e.queue = []

/-- A task leaves the gate it has with a value for the entry there. -/
def State.deliver (s : State κ α ε) (t : TaskId) (id : Nat) (used : Bool) (value : α) :
    Effect κ α ε :=
  ((s.modifyEntry id (·.install s.now used value)).dropTask t).release id

theorem State.entries_deliver (s : State κ α ε) (t : TaskId) (id : Nat) (used : Bool) (value : α) :
    (s.deliver t id used value).1.entries =
      (s.modifyEntry id fun e => (e.install s.now used value).release).entries := by
  have both := State.modifyEntry_modifyEntry s id (·.install s.now used value) Entry.release
  exact congrArg (·.entries) both

@[simp] theorem State.phase?_deliver (s : State κ α ε) (t u : TaskId) (id : Nat) (used : Bool)
    (value : α) : (s.deliver t id used value).1.phase? u = if u = t then none else s.phase? u :=
  State.phase?_dropTask _ t u

inductive Move [DecidableEq κ] :
    Actor → State κ α ε → List (Signal κ α ε) → State κ α ε → Prop where
  | pass (s : State κ α ε) (ms : Nat) : Move .clock s [] { s with now := s.now + ms }
  | tell {who : Actor} (s : State κ α ε) {signal : Signal κ α ε} (told : signal.ToldBy who) :
      Move who s [signal] s
  | add {who : Actor} {s : State κ α ε} {key : κ} (missing : s.find? key = none) :
      Move who s [] (s.addEntry key)
  | touch {who : Actor} {s : State κ α ε} {id : Nat} {e : Entry κ α ε} {value : α}
      (here : s.entries[id]? = some e) (full : e.value = some value) :
      Move who s [] (s.modifyEntry id (·.touch s.now))
  | put {s : State κ α ε} {key : κ} {id : Nat} (value : α) (found : s.find? key = some id) :
      Move .caller s [] (s.modifyEntry id (·.install s.now true value))
  | invalidate (s : State κ α ε) :
      Move .caller s [] { s with entries := s.entries.map Entry.invalidate }
  | store {s : State κ α ε} {t : TaskId} {p : Phase κ} {e : Entry κ α ε} (used : Bool) (value : α)
      (phase : s.phase? t = some p) (load : p.isLoad = true) (here : s.entries[p.entry]? = some e)
      (holds : e.holder = some t) :
      Move (.task t) s (s.deliver t p.entry used value).2 (s.deliver t p.entry used value).1
  | fail {s : State κ α ε} {t : TaskId} {p : Phase κ} (error : ε)
      (phase : s.phase? t = some p) (load : p.isLoad = true) :
      Move (.task t) s [] (s.modifyEntry p.entry (·.fail error))
  | unlist {t : TaskId} {s : State κ α ε} {id : Nat}
      (unloaded : ∀ u p, s.phase? u = some p → p.entry = id → p.isLoad = false) :
      Move (.task t) s [] (s.modifyEntry id Entry.detach)
  | begin {s : State κ α ε} {t : TaskId} {p : Phase κ} {e : Entry κ α ε} (idle : s.phase? t = none)
      (here : s.entries[p.entry]? = some e) (free : e.holder = none) (load : p.isLoad = true)
      (fits : p.Fits t (e.acquire t)) (lack : ∀ key id, p = .getLoading key id → e.value = none) :
      Move (.task t) s [.began t e.key] ((s.modifyEntry p.entry (·.acquire t)).setPhase t p)
  | queue {s : State κ α ε} {t : TaskId} {p : Phase κ} {e : Entry κ α ε} (idle : s.phase? t = none)
      (here : s.entries[p.entry]? = some e) (busy : e.holder.isSome = true)
      (line : p.isLoad = false) (fits : p.Fits t e) :
      Move (.task t) s [] ((s.modifyEntry p.entry (·.enqueue t)).setPhase t p)
  /-- A get that has been handed the gate begins a call. -/
  | promote {s : State κ α ε} {t : TaskId} {key : κ} {id failures : Nat} {e : Entry κ α ε}
      (phase : s.phase? t = some (.getQueued key id failures)) (here : s.entries[id]? = some e)
      (holds : e.holder = some t) (lack : e.value = none) (listed : e.listed = true) :
      Move (.task t) s [.began t key]
        ((s.modifyEntry id (·.acquire t)).setPhase t (.getLoading key id))
  | quit {s : State κ α ε} {t : TaskId} {p : Phase κ} {e : Entry κ α ε}
      (phase : s.phase? t = some p) (here : s.entries[p.entry]? = some e) :
      Move (.task t) s (s.cancel t p.entry e).2 (s.cancel t p.entry e).1

inductive Moves [DecidableEq κ] (who : Actor) :
    State κ α ε → List (Signal κ α ε) → State κ α ε → Prop where
  | nil (s : State κ α ε) : Moves who s [] s
  | cons {s s' s'' : State κ α ε} {seen more : List (Signal κ α ε)}
      (first : Move who s seen s') (rest : Moves who s' more s'') : Moves who s (seen ++ more) s''

theorem Moves.single [DecidableEq κ] {who : Actor} {s s' : State κ α ε}
    {seen : List (Signal κ α ε)} (move : Move who s seen s') : Moves who s seen s' := by
  simpa using Moves.cons move (.nil s')

theorem Moves.append [DecidableEq κ] {who : Actor} {s s' s'' : State κ α ε}
    {seen more : List (Signal κ α ε)} (first : Moves who s seen s') (rest : Moves who s' more s'') :
    Moves who s (seen ++ more) s'' := by
  induction first with
  | nil => exact rest
  | cons move _ ih => simpa only [List.append_assoc] using Moves.cons move (ih rest)

theorem Moves.keep [DecidableEq κ] {who : Actor} {P : State κ α ε → Prop}
    (step : ∀ {s seen s'}, Move who s seen s' → P s → P s') {s s' : State κ α ε}
    {seen : List (Signal κ α ε)} (moves : Moves who s seen s') (start : P s) : P s' := by
  induction moves with
  | nil => exact start
  | cons move _ ih => exact ih (step move start)

end SingleFlight
end MetricGateway
