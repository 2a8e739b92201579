import MetricGateway.SingleFlight.Step
import Mathlib.Data.List.Basic

/- A cache does not look into values. If other values stand in for those that are stored, it takes
   the same steps, and what can be seen of it is the same but for them. -/
namespace MetricGateway
namespace SingleFlight

variable {κ α β ε : Type}

def Entry.map (f : α → β) (e : Entry κ α ε) : Entry κ β ε where
  key := e.key
  listed := e.listed
  value := e.value.map f
  loadedAt := e.loadedAt
  usedAt := e.usedAt
  failures := e.failures
  lastError := e.lastError
  holder := e.holder
  queue := e.queue

def Result.map (f : α → β) : Result α ε → Result β ε
  | .got value => .got (f value)
  | .failed error => .failed error
  | .removed value => .removed (value.map f)
  | .swept => .swept

def Signal.map (f : α → β) : Signal κ α ε → Signal κ β ε
  | .began t key => .began t key
  | .granted t => .granted t
  | .finished t r => .finished t (r.map f)
  | .sized n => .sized n
  | .expired key => .expired key
  | .refreshed key success => .refreshed key success

def Action.map (f : α → β) : Action κ α ε → Action κ β ε
  | .get t key => .get t key
  | .remove t key => .remove t key
  | .sweep t order => .sweep t order
  | .put key value => .put key (f value)
  | .invalidateAll => .invalidateAll
  | .resume t => .resume t
  | .loaded t outcome => .loaded t (outcome.map f)
  | .cancel t => .cancel t
  | .advance ms => .advance ms

def State.map (f : α → β) (s : State κ α ε) : State κ β ε where
  settings := s.settings
  now := s.now
  entries := s.entries.map (Entry.map f)
  tasks := s.tasks

def Effect.map (f : α → β) (e : Effect κ α ε) : Effect κ β ε :=
  (e.1.map f, e.2.map (Signal.map f))

namespace Entry

variable (f : α → β) (e : Entry κ α ε)

theorem map_install (now : Nat) (used : Bool) (value : α) :
    (e.install now used value).map f = (e.map f).install now used (f value) := by
  unfold install map
  rw [Option.isNone_map]
  rfl

theorem map_detachIfEmpty : e.detachIfEmpty.map f = (e.map f).detachIfEmpty := by
  unfold detachIfEmpty map
  rw [Option.isSome_map]

theorem map_invalidate : e.invalidate.map f = (e.map f).invalidate := by
  obtain ⟨key, listed, value, loadedAt, usedAt, failures, lastError, holder, queue⟩ := e
  cases listed with
  | false => rfl
  | true => cases holder <;> rfl

theorem held_map : (e.map f).held = e.held := by
  unfold held map
  rw [Option.isSome_map]

end Entry

theorem map_modify {γ δ : Type} {f : γ → δ} {g : γ → γ} {h : δ → δ}
    (same : ∀ a, f (g a) = h (f a)) (id : Nat) (l : List γ) :
    (l.modify id g).map f = (l.map f).modify id h := by
  induction l generalizing id with
  | nil => cases id <;> rfl
  | cons a l ih =>
    cases id with
    | zero => simp [same]
    | succ id => simp [ih]

theorem Effect.map_andThen {f : α → β} {e : Effect κ α ε} {e' : Effect κ β ε}
    {go : State κ α ε → Effect κ α ε} {go' : State κ β ε → Effect κ β ε}
    (first : Effect.map f e = e') (next : ∀ s, Effect.map f (go s) = go' (s.map f)) :
    Effect.map f (e.andThen go) = e'.andThen go' := by
  subst first
  have after := next e.1
  unfold Effect.andThen Effect.map at *
  rw [← after, List.map_append]

namespace State

variable (f : α → β) (s : State κ α ε)

theorem size_map : (s.map f).size = s.size := by
  unfold size map
  rw [List.countP_map]
  exact congrArg (List.countP · _) (funext fun e => e.held_map f)

theorem getElem?_map (id : Nat) : (s.map f).entries[id]? = s.entries[id]?.map (Entry.map f) :=
  List.getElem?_map ..

theorem listedIds_map : (s.map f).listedIds = s.listedIds := by
  unfold listedIds
  have length : (s.map f).entries.length = s.entries.length := List.length_map ..
  rw [length]
  refine congrArg (List.filter · _) (funext fun id => ?_)
  rw [getElem?_map, Option.map_map]
  rfl

theorem map_modifyEntry {g : Entry κ α ε → Entry κ α ε} {h : Entry κ β ε → Entry κ β ε}
    (same : ∀ e, (g e).map f = h (e.map f)) (id : Nat) :
    (s.modifyEntry id g).map f = (s.map f).modifyEntry id h := by
  unfold modifyEntry map
  rw [map_modify same]

theorem map_addEntry (key : κ) : (s.addEntry key).map f = (s.map f).addEntry key := by
  unfold addEntry map
  rw [List.map_append]
  rfl

theorem find?_map [DecidableEq κ] (key : κ) : (s.map f).find? key = s.find? key := by
  unfold find? map
  rw [List.findIdx?_map]
  rfl

theorem claim_map [DecidableEq κ] (key : κ) :
    (s.map f).claim key = ((s.claim key).1.map f, (s.claim key).2) := by
  unfold claim
  rw [find?_map]
  cases s.find? key with
  | some id => rfl
  | none =>
    dsimp only
    rw [map_addEntry]
    exact congrArg (Prod.mk _) (List.length_map ..)

theorem finish_map (t : TaskId) (r : Result α ε) :
    Effect.map f (s.finish t r) = (s.map f).finish t (r.map f) := rfl

theorem report_map : Effect.map f s.report = (s.map f).report := by
  unfold report Effect.map
  rw [size_map]
  rfl

theorem release_map (id : Nat) : Effect.map f (s.release id) = (s.map f).release id := by
  unfold release Effect.map
  rw [map_modifyEntry f s (h := Entry.release) (fun e => rfl), getElem?_map, Option.map_map]
  have queues : Entry.queue ∘ Entry.map f = (Entry.queue : Entry κ α ε → List TaskId) := rfl
  rw [queues]
  dsimp only
  cases ((s.entries[id]?.map Entry.queue).getD []).head? <;> rfl

theorem beginLoad_map (t : TaskId) (key : κ) (id : Nat) :
    Effect.map f (s.beginLoad t key id) = (s.map f).beginLoad t key id := by
  have acquired := map_modifyEntry f s (g := (·.acquire t)) (h := (·.acquire t)) (fun e => rfl) id
  unfold beginLoad
  rw [← acquired]
  rfl

theorem serve_map (t : TaskId) (id : Nat) (value : α) :
    Effect.map f (s.serve t id value) = (s.map f).serve t id (f value) := by
  have touched := map_modifyEntry f s (g := (·.touch s.now)) (h := (·.touch s.now))
    (fun e => rfl) id
  unfold serve
  rw [finish_map, touched]
  rfl

theorem enqueue_map (t : TaskId) (id : Nat) (p : Phase κ) :
    Effect.map f ((s.modifyEntry id (·.enqueue t)).setPhase t p, []) =
      (((s.map f).modifyEntry id (·.enqueue t)).setPhase t p, []) := by
  have queued := map_modifyEntry f s (g := (·.enqueue t)) (h := (·.enqueue t)) (fun e => rfl) id
  rw [← queued]
  rfl

theorem beginGet_map [DecidableEq κ] (t : TaskId) (key : κ) :
    Effect.map f (s.beginGet t key) = (s.map f).beginGet t key := by
  unfold beginGet
  rw [claim_map]
  generalize s.claim key = claimed
  obtain ⟨s, id⟩ := claimed
  dsimp only
  rw [getElem?_map]
  cases s.entries[id]? with
  | none => rfl
  | some e =>
    obtain ⟨_, _, value, _, _, failures, _, holder, _⟩ := e
    cases value with
    | some value => exact serve_map f s t id value
    | none =>
      cases holder with
      | none => exact beginLoad_map f s t key id
      | some _ => exact enqueue_map f s t id (.getQueued key id failures)

theorem resumeGet_map [DecidableEq κ] (t : TaskId) (key : κ) (id failures : Nat)
    (e : Entry κ α ε) : Effect.map f (s.resumeGet t key id failures e) =
      (s.map f).resumeGet t key id failures (e.map f) := by
  have anew : Effect.map f (if e.listed then s.beginLoad t key id
      else Effect.andThen ((s.dropTask t).release id) (·.beginGet t key)) =
        if (e.map f).listed then (s.map f).beginLoad t key id
        else Effect.andThen (((s.map f).dropTask t).release id) (·.beginGet t key) := by
    have listed : (e.map f).listed = e.listed := rfl
    rw [listed]
    split
    · exact beginLoad_map f s t key id
    · exact Effect.map_andThen (release_map f (s.dropTask t) id) fun s => beginGet_map f s t key
  have errors : (if (e.map f).failures = failures then none else (e.map f).lastError) =
      if e.failures = failures then none else e.lastError := rfl
  unfold resumeGet
  rw [errors]
  obtain ⟨_, listed, value, _, _, failed, lastError, _, _⟩ := e
  cases value with
  | some value => exact Effect.map_andThen (serve_map f s t id value) fun s => release_map f s id
  | none =>
    dsimp only [Entry.map, Option.map_none]
    split
    · rename_i error _
      exact Effect.map_andThen (finish_map f s t (.failed error)) fun s => release_map f s id
    · exact anew

theorem completeRemove_map (t : TaskId) (id : Nat) (e : Entry κ α ε) :
    Effect.map f (s.completeRemove t id e) = (s.map f).completeRemove t id (e.map f) := by
  have detached := map_modifyEntry f s (g := Entry.detach) (h := Entry.detach) (fun e => rfl) id
  unfold completeRemove
  rw [← detached, ← report_map]
  refine Effect.map_andThen rfl fun s => ?_
  exact Effect.map_andThen (finish_map f s t (.removed e.value)) fun s => release_map f s id

theorem beginRemove_map [DecidableEq κ] (t : TaskId) (key : κ) :
    Effect.map f (s.beginRemove t key) = (s.map f).beginRemove t key := by
  unfold beginRemove
  rw [find?_map]
  cases s.find? key with
  | none => rfl
  | some id =>
    dsimp only
    rw [getElem?_map]
    cases s.entries[id]? with
    | none => rfl
    | some e =>
      have holder : (e.map f).holder = e.holder := rfl
      dsimp only [Option.map_some]
      rw [holder]
      cases e.holder with
      | none => exact completeRemove_map f s t id e
      | some _ => exact enqueue_map f s t id (.removeQueued key id)

theorem sweepOver_map (t : TaskId) (began : Nat) (order : List Nat) :
    Effect.map f (s.sweepOver t began order) = (s.map f).sweepOver t began order := by
  induction order generalizing s with
  | nil =>
    unfold sweepOver
    exact Effect.map_andThen (report_map f s) fun s => finish_map f s t .swept
  | cons id rest ih =>
    unfold sweepOver
    rw [getElem?_map]
    cases s.entries[id]? with
    | none => exact ih s
    | some e =>
      have empty : (e.map f).value.isNone = e.value.isNone := Option.isNone_map
      have settings : (s.map f).settings = s.settings := rfl
      have fields : (e.map f).usedAt = e.usedAt ∧ (e.map f).loadedAt = e.loadedAt ∧
          (e.map f).holder = e.holder ∧ (e.map f).listed = e.listed ∧ (e.map f).key = e.key :=
        ⟨rfl, rfl, rfl, rfl, rfl⟩
      obtain ⟨usedAt, loadedAt, holder, listed, key⟩ := fields
      dsimp only [Option.map_some]
      rw [empty, settings, usedAt, loadedAt, holder, listed, key]
      split
      · exact ih s
      · split
        · split
          · have detached := map_modifyEntry f s (g := Entry.detach) (h := Entry.detach)
              (fun e => rfl) id
            rw [← detached]
            exact Effect.map_andThen rfl ih
          · exact ih s
        · split
          · have acquired := map_modifyEntry f s (g := (·.acquire t)) (h := (·.acquire t))
              (fun e => rfl) id
            rw [← acquired]
            rfl
          · exact ih s

theorem endLoad_map (t : TaskId) (id : Nat) (outcome : Except ε α) :
    Effect.map f (s.endLoad t id outcome) = (s.map f).endLoad t id (outcome.map f) := by
  cases outcome with
  | ok value =>
    have stored := map_modifyEntry f s (g := (·.install s.now true value))
      (h := (·.install s.now true (f value))) (fun e => e.map_install f s.now true value) id
    unfold endLoad
    dsimp only [Except.map]
    have now : (s.map f).now = s.now := rfl
    rw [now, ← stored, ← report_map]
    refine Effect.map_andThen rfl fun s => ?_
    exact Effect.map_andThen (finish_map f s t (.got value)) fun s => release_map f s id
  | error error =>
    have failed := map_modifyEntry f s (g := fun e => (e.fail error).detachIfEmpty)
      (h := fun e => (e.fail error).detachIfEmpty) (fun e => (e.fail error).map_detachIfEmpty f) id
    unfold endLoad
    dsimp only [Except.map]
    rw [← failed]
    exact Effect.map_andThen (finish_map f _ t (.failed error)) fun s => release_map f s id

theorem endRefresh_map (t : TaskId) (id : Nat) (rest : List Nat) (began : Nat) (key : κ)
    (outcome : Except ε α) : Effect.map f (s.endRefresh t id rest began key outcome) =
      (s.map f).endRefresh t id rest began key (outcome.map f) := by
  unfold endRefresh
  refine Effect.map_andThen (Effect.map_andThen ?_ fun s => release_map f s id)
    fun s => sweepOver_map f s t began rest
  cases outcome with
  | ok value =>
    have stored := map_modifyEntry f s (g := (·.install s.now false value))
      (h := (·.install s.now false (f value))) (fun e => e.map_install f s.now false value) id
    exact congrArg (·, [Signal.refreshed key true]) stored
  | error error => rfl

theorem put_map [DecidableEq κ] (key : κ) (value : α) :
    Effect.map f (s.put key value) = (s.map f).put key (f value) := by
  unfold put
  rw [claim_map]
  generalize s.claim key = claimed
  obtain ⟨s, id⟩ := claimed
  have stored := map_modifyEntry f s (g := (·.install s.now true value))
    (h := (·.install s.now true (f value))) (fun e => e.map_install f s.now true value) id
  dsimp only
  rw [report_map, stored]
  rfl

theorem invalidateAll_map : Effect.map f s.invalidateAll = (s.map f).invalidateAll := by
  unfold invalidateAll
  rw [report_map]
  unfold map
  dsimp only
  rw [List.map_map, List.map_map]
  have emptied : s.entries.map (Entry.map f ∘ Entry.invalidate) =
      s.entries.map (Entry.invalidate ∘ Entry.map f) :=
    List.map_congr_left fun e _ => e.map_invalidate f
  rw [emptied]

theorem cancel_map (t : TaskId) (id : Nat) (e : Entry κ α ε) :
    Effect.map f (s.cancel t id e) = (s.map f).cancel t id (e.map f) := by
  have holder : (e.map f).holder = e.holder := rfl
  unfold cancel
  rw [holder]
  split
  · exact release_map f (s.dropTask t) id
  · have left := map_modifyEntry f (s.dropTask t) (g := (·.leave t)) (h := (·.leave t))
      (fun e => rfl) id
    exact congrArg (·, []) left

end State

theorem State.located_map (f : α → β) (s : State κ α ε) (t : TaskId)
    {go : Phase κ → Entry κ α ε → Option (Effect κ α ε)}
    {go' : Phase κ → Entry κ β ε → Option (Effect κ β ε)}
    (same : ∀ p e, go' p (e.map f) = (go p e).map (Effect.map f)) :
    (((s.map f).phase? t).bind fun p => ((s.map f).entries[p.entry]?).bind (go' p)) =
      ((s.phase? t).bind fun p => (s.entries[p.entry]?).bind (go p)).map (Effect.map f) := by
  have phase : (s.map f).phase? t = s.phase? t := rfl
  rw [phase]
  cases s.phase? t with
  | none => rfl
  | some p =>
    dsimp only [Option.bind_some]
    rw [getElem?_map]
    cases s.entries[p.entry]? with
    | none => rfl
    | some e => exact same p e

theorem step?_map [DecidableEq κ] (f : α → β) (s : State κ α ε) (a : Action κ α ε) :
    step? (s.map f) (a.map f) = (step? s a).map (Effect.map f) := by
  have phase : ∀ t, (s.map f).phase? t = s.phase? t := fun _ => rfl
  cases a with
  | get t key =>
    simp only [step?, Action.map, phase, ← State.beginGet_map]
    split <;> rfl
  | remove t key =>
    simp only [step?, Action.map, phase, ← State.beginRemove_map]
    split <;> rfl
  | sweep t order =>
    have now : (s.map f).now = s.now := rfl
    simp only [step?, Action.map, phase, State.listedIds_map, now, ← State.sweepOver_map]
    split <;> rfl
  | put key value => exact congrArg some (State.put_map f s key value).symm
  | invalidateAll => exact congrArg some (State.invalidateAll_map f s).symm
  | resume t =>
    refine State.located_map f s t fun p e => ?_
    have holder : (e.map f).holder = e.holder := rfl
    rw [holder]
    split
    · rfl
    · cases p with
      | getQueued key id failures =>
        exact congrArg some (State.resumeGet_map f s t key id failures e).symm
      | removeQueued key id => exact congrArg some (State.completeRemove_map f s t id e).symm
      | getLoading | refreshing => rfl
  | loaded t outcome =>
    refine State.located_map f s t fun p e => ?_
    cases p with
    | getLoading key id => exact congrArg some (State.endLoad_map f s t id outcome).symm
    | refreshing id rest began =>
      exact congrArg some (State.endRefresh_map f s t id rest began e.key outcome).symm
    | getQueued | removeQueued => rfl
  | cancel t =>
    exact State.located_map f s t fun p e =>
      congrArg some (State.cancel_map f s t p.entry e).symm
  | advance ms => rfl

end SingleFlight
end MetricGateway
