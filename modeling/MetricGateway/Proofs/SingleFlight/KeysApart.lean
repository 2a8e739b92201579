import MetricGateway.SingleFlight.Timeline
import MetricGateway.Proofs.SingleFlight.Mirror
import MetricGateway.Proofs.SingleFlight.Due
import MetricGateway.Proofs.SingleFlight.ReportedSize

/- Keys do not influence each other: a run without sweeps goes on under one key as it would if the
   tasks of the other keys had never been. The shorter run is made step by step beside the longer
   one, in a cache that has what the other has under the key. -/
namespace MetricGateway
namespace SingleFlight

variable {κ α ε : Type}

/-- A report of the size is about all keys at once. -/
def Signal.ofOneKey : Signal κ α ε → Bool
  | .sized _ => false
  | .began .. | .granted _ | .finished .. | .expired _ | .refreshed .. => true

/-- Two effects that leave the same under a key, and show the same of it. -/
structure Effect.Mirrors (key : κ) (ids : List Nat) (e e' : Effect κ α ε) : Prop where
  state : e.1.Mirrors key ids e'.1
  shown : e'.2.filter Signal.ofOneKey = e.2.filter Signal.ofOneKey

namespace Effect.Mirrors

variable {key : κ} {ids : List Nat} {e e' : Effect κ α ε} {f f' : State κ α ε → Effect κ α ε}

theorem andThen {more : List Nat} (first : e.Mirrors key ids e')
    (rest : (f e.1).Mirrors key more (f' e'.1)) :
    (e.andThen f).Mirrors key more (e'.andThen f') where
  state := rest.state
  shown := by
    simp only [Effect.andThen, List.filter_append]
    rw [first.shown, rest.shown]

end Effect.Mirrors

namespace State.Mirrors

variable {key : κ} {ids : List Nat} {s s' : State κ α ε} {i j : Nat} {t : TaskId} {e : Entry κ α ε}

section Same

theorem finish (mirrors : s.Mirrors key ids s') (t : TaskId) (r : Result α ε) :
    (s.finish t r).Mirrors key ids (s'.finish t r) :=
  ⟨mirrors.drop t, rfl⟩

theorem report (mirrors : s.Mirrors key ids s') : s.report.Mirrors key ids s'.report :=
  ⟨mirrors, rfl⟩

theorem release (mirrors : s.Mirrors key ids s') (place : ids[j]? = some i) :
    (s.release i).Mirrors key ids (s'.release j) := by
  constructor
  · exact mirrors.modify place fun _ => rfl
  · rw [State.release, State.release, mirrors.at_place place]

theorem finish_release (mirrors : s.Mirrors key ids s') (place : ids[j]? = some i) (t : TaskId)
    (r : Result α ε) : Effect.Mirrors key ids (Effect.andThen (s.finish t r) (·.release i))
      (Effect.andThen (s'.finish t r) (·.release j)) :=
  (mirrors.finish t r).andThen ((mirrors.drop t).release place)

theorem beginLoad (mirrors : s.Mirrors key ids s') (place : ids[j]? = some i) (t : TaskId)
    (k : κ) : (s.beginLoad t k i).Mirrors key ids (s'.beginLoad t k j) := by
  have acquired := mirrors.modify place (f := (·.acquire t)) fun _ => rfl
  exact ⟨acquired.set (p := .getLoading k i) place, rfl⟩

theorem enqueue (mirrors : s.Mirrors key ids s') {p : Phase κ} (place : ids[j]? = some p.entry)
    (t : TaskId) : Effect.Mirrors key ids
      (((s.modifyEntry p.entry (·.enqueue t)).setPhase t p, []) : Effect κ α ε)
      ((s'.modifyEntry j (·.enqueue t)).setPhase t (p.moveTo j), []) := by
  have queued := mirrors.modify place (f := (·.enqueue t)) fun _ => rfl
  exact ⟨queued.set place, rfl⟩

theorem serve (mirrors : s.Mirrors key ids s') (place : ids[j]? = some i) (t : TaskId) (v : α) :
    (s.serve t i v).Mirrors key ids (s'.serve t j v) := by
  have touched := mirrors.modify place (f := (·.touch s.now)) fun _ => rfl
  rw [State.serve, State.serve, mirrors.now]
  exact touched.finish t (.got v)

theorem install (mirrors : s.Mirrors key ids s') (place : ids[j]? = some i) (v : α) :
    (s.modifyEntry i (·.install s.now true v)).Mirrors key ids
      (s'.modifyEntry j (·.install s'.now true v)) := by
  rw [mirrors.now]
  exact mirrors.modify place fun _ => rfl

theorem completeRemove (mirrors : s.Mirrors key ids s') (place : ids[j]? = some i) (t : TaskId)
    (e : Entry κ α ε) : (s.completeRemove t i e).Mirrors key ids (s'.completeRemove t j e) := by
  have left := mirrors.modify place (f := Entry.detach) fun _ => rfl
  exact left.report.andThen (left.finish_release place t _)

theorem endLoad (mirrors : s.Mirrors key ids s') (place : ids[j]? = some i) (t : TaskId)
    (outcome : Except ε α) : (s.endLoad t i outcome).Mirrors key ids (s'.endLoad t j outcome) := by
  cases outcome with
  | ok v =>
    have stored := mirrors.install place v
    rw [State.endLoad, State.endLoad]
    exact stored.report.andThen (stored.finish_release place t _)
  | error error =>
    have failed := mirrors.modify place (f := fun e => (e.fail error).detachIfEmpty) fun _ => rfl
    exact failed.finish_release place t _

theorem cancel (mirrors : s.Mirrors key ids s') (place : ids[j]? = some i) (t : TaskId)
    (e : Entry κ α ε) : (s.cancel t i e).Mirrors key ids (s'.cancel t j e) := by
  unfold State.cancel
  split
  · exact (mirrors.drop t).release place
  · exact ⟨(mirrors.drop t).modify place fun _ => rfl, rfl⟩

theorem invalidateAll (mirrors : s.Mirrors key ids s') :
    s.invalidateAll.Mirrors key ids s'.invalidateAll := by
  have same : ∀ e : Entry κ α ε, e.invalidate.key = e.key := by
    intro e
    unfold Entry.invalidate
    split
    · split <;> rfl
    · rfl
  exact (mirrors.map same).report

variable [DecidableEq κ]

theorem beginGet (mirrors : s.Mirrors key ids s') (order : Orderly s) (t : TaskId) :
    ∃ more, (s.beginGet t key).Mirrors key more (s'.beginGet t key) := by
  obtain ⟨more, claimed, place⟩ := mirrors.claim order
  obtain ⟨e, here, _⟩ := State.claim_listed s key
  have there := (claimed.at_place place).trans here
  refine ⟨more, ?_⟩
  unfold State.beginGet
  simp only [here, there]
  split
  · exact claimed.serve place t _
  · exact claimed.beginLoad place t key
  · exact claimed.enqueue (p := .getQueued key (s.claim key).2 e.failures) place t

theorem resumeGet (mirrors : s.Mirrors key ids s') (order : Orderly s) {failures : Nat}
    (place : ids[j]? = some i) (phase : s.phase? t = some (.getQueued key i failures))
    (here : s.entries[i]? = some e) (holds : e.holder = some t) :
    ∃ more, (s.resumeGet t key i failures e).Mirrors key more
      (s'.resumeGet t key j failures e) := by
  unfold State.resumeGet
  split
  · rename_i v _
    have served := mirrors.serve place t v
    exact ⟨ids, served.andThen (served.state.release place)⟩
  · split
    · exact ⟨ids, mirrors.finish_release place t _⟩
    · split
      · exact ⟨ids, mirrors.beginLoad place t key⟩
      · have quit := order.quitted phase here
        simp only [State.cancel, Phase.entry, if_pos holds] at quit
        have left := (mirrors.drop t).release place
        obtain ⟨more, begun⟩ := left.state.beginGet quit t
        exact ⟨more, left.andThen begun⟩

theorem beginRemove (mirrors : s.Mirrors key ids s') (order : Orderly s) (t : TaskId) :
    (s.beginRemove t key).Mirrors key ids (s'.beginRemove t key) := by
  unfold State.beginRemove
  cases found : s.find? key with
  | none =>
    rw [mirrors.find?_of_missing found]
    exact mirrors.finish t _
  | some i =>
    obtain ⟨j, place, search⟩ := mirrors.find?_of_found order found
    obtain ⟨e, here, _⟩ := mirrors.exists_entry place
    have there := (mirrors.at_place place).trans here
    simp only [search, here, there]
    split
    · exact mirrors.completeRemove place t e
    · exact mirrors.enqueue (p := .removeQueued key i) place t

theorem put (mirrors : s.Mirrors key ids s') (order : Orderly s) (v : α) :
    ∃ more, (s.put key v).Mirrors key more (s'.put key v) := by
  obtain ⟨more, claimed, place⟩ := mirrors.claim order
  exact ⟨more, (claimed.install place v).report⟩

end Same

section Other

/- What a task does under another key: it is none in the second state. -/

theorem release_other (mirrors : s.Mirrors key ids s') (away : i ∉ ids) :
    (s.release i).1.Mirrors key ids s' :=
  mirrors.modify_other away fun _ => rfl

theorem finish_release_other (mirrors : s.Mirrors key ids s') (idle : s'.phase? t = none)
    (away : i ∉ ids) (r : Result α ε) :
    (Effect.andThen (s.finish t r) (·.release i)).1.Mirrors key ids s' :=
  (mirrors.drop_other idle).release_other away

theorem beginLoad_other (mirrors : s.Mirrors key ids s') (idle : s'.phase? t = none)
    (away : i ∉ ids) (k : κ) : (s.beginLoad t k i).1.Mirrors key ids s' := by
  have acquired := mirrors.modify_other away (f := (·.acquire t)) fun _ => rfl
  exact acquired.set_other (p := .getLoading k i) idle away

theorem enqueue_other (mirrors : s.Mirrors key ids s') (idle : s'.phase? t = none) {p : Phase κ}
    (away : p.entry ∉ ids) :
    ((s.modifyEntry p.entry (·.enqueue t)).setPhase t p).Mirrors key ids s' := by
  have queued := mirrors.modify_other away (f := (·.enqueue t)) fun _ => rfl
  exact queued.set_other idle away

theorem serve_other (mirrors : s.Mirrors key ids s') (idle : s'.phase? t = none)
    (away : i ∉ ids) (v : α) : (s.serve t i v).1.Mirrors key ids s' := by
  have touched := mirrors.modify_other away (f := (·.touch s.now)) fun _ => rfl
  exact touched.drop_other idle

theorem completeRemove_other (mirrors : s.Mirrors key ids s') (idle : s'.phase? t = none)
    (away : i ∉ ids) (e : Entry κ α ε) : (s.completeRemove t i e).1.Mirrors key ids s' := by
  have left := mirrors.modify_other away (f := Entry.detach) fun _ => rfl
  exact left.finish_release_other idle away (.removed e.value)

theorem endLoad_other (mirrors : s.Mirrors key ids s') (idle : s'.phase? t = none)
    (away : i ∉ ids) (outcome : Except ε α) : (s.endLoad t i outcome).1.Mirrors key ids s' := by
  cases outcome with
  | ok v =>
    have stored := mirrors.modify_other away (f := (·.install s.now true v)) fun _ => rfl
    exact stored.finish_release_other idle away (.got v)
  | error error =>
    have failed := mirrors.modify_other away
      (f := fun e => (e.fail error).detachIfEmpty) fun _ => rfl
    exact failed.finish_release_other idle away (.failed error)

theorem cancel_other (mirrors : s.Mirrors key ids s') (idle : s'.phase? t = none)
    (away : i ∉ ids) (e : Entry κ α ε) : (s.cancel t i e).1.Mirrors key ids s' := by
  have left := mirrors.drop_other idle
  unfold State.cancel
  split
  · exact left.release_other away
  · exact left.modify_other away fun _ => rfl

variable [DecidableEq κ] {k : κ}

theorem beginGet_other (mirrors : s.Mirrors key ids s') (idle : s'.phase? t = none)
    (other : k ≠ key) : (s.beginGet t k).1.Mirrors key ids s' := by
  obtain ⟨claimed, away⟩ := mirrors.claim_other other
  obtain ⟨e, here, _⟩ := State.claim_listed s k
  unfold State.beginGet
  simp only [here]
  split
  · exact claimed.serve_other idle away _
  · exact claimed.beginLoad_other idle away k
  · exact claimed.enqueue_other (p := .getQueued k (s.claim k).2 e.failures) idle away

theorem resumeGet_other (mirrors : s.Mirrors key ids s') (idle : s'.phase? t = none)
    (away : i ∉ ids) (other : k ≠ key) (failures : Nat) (e : Entry κ α ε) :
    (s.resumeGet t k i failures e).1.Mirrors key ids s' := by
  unfold State.resumeGet
  split
  · exact (mirrors.serve_other idle away _).release_other away
  · split
    · exact mirrors.finish_release_other idle away _
    · split
      · exact mirrors.beginLoad_other idle away k
      · exact ((mirrors.drop_other idle).release_other away).beginGet_other idle other

theorem beginRemove_other (mirrors : s.Mirrors key ids s') (idle : s'.phase? t = none)
    (other : k ≠ key) : (s.beginRemove t k).1.Mirrors key ids s' := by
  unfold State.beginRemove
  cases found : s.find? k with
  | none => exact mirrors.drop_other idle
  | some i =>
    obtain ⟨e, here, _, own⟩ := State.find?_eq_some found
    have away := mirrors.not_mem_of_key here (own ▸ other)
    simp only [here]
    split
    · exact mirrors.completeRemove_other idle away e
    · exact mirrors.enqueue_other (p := .removeQueued k i) idle away

theorem put_other (mirrors : s.Mirrors key ids s') (other : k ≠ key) (v : α) :
    (s.put k v).1.Mirrors key ids s' := by
  obtain ⟨claimed, away⟩ := mirrors.claim_other other
  exact claimed.modify_other away fun _ => rfl

end Other

end State.Mirrors

theorem Orderly.key_of_queued {s : State κ α ε} (order : Orderly s) {t : TaskId} {k : κ}
    {id failures : Nat} {e : Entry κ α ε} (phase : s.phase? t = some (.getQueued k id failures))
    (here : s.entries[id]? = some e) : e.key = k := by
  obtain ⟨f, there, _, fits⟩ := order.seated t _ phase
  cases here.symm.trans there
  exact fits

section Steps

variable [DecidableEq κ]

/-- The key that an action is about: the one that it names, or that of the entry at which its task
    waits. -/
def State.about? (s : State κ α ε) : Action κ α ε → Option κ
  | .get _ key | .remove _ key | .put key _ => some key
  | .resume t | .loaded t _ | .cancel t =>
    (s.phase? t).bind fun p => s.entries[p.entry]?.map Entry.key
  | .sweep .. | .invalidateAll | .advance _ => none

def Action.isSweep : Action κ α ε → Bool
  | .sweep .. => true
  | _ => false

variable {key : κ} {ids : List Nat} {s s' : State κ α ε} {a : Action κ α ε} {effect : Effect κ α ε}

theorem step_same (mirrors : s.Mirrors key ids s') (order : Orderly s) (still : ¬ s.Sweeping)
    (step : step? s a = some effect) (plain : a.isSweep = false)
    (own : ∀ k, s.about? a = some k → k = key) :
    ∃ more effect', step? s' a = some effect' ∧ effect.Mirrors key more effect' := by
  -- A task that waits under the key has its place in the second state.
  have placed : ∀ {t p} {e : Entry κ α ε}, s.phase? t = some p → s.entries[p.entry]? = some e →
      e.key = key → ∃ j, ids[j]? = some p.entry ∧ s'.phase? t = some (p.moveTo j) ∧
        s'.entries[j]? = some e := by
    intro t p e phase here same
    obtain ⟨j, place⟩ := mirrors.place_of_key here same
    exact ⟨j, place, mirrors.phase_of_place phase place, (mirrors.at_place place).trans here⟩
  cases taken_of_step step with
  | get idle k =>
    cases own k rfl
    obtain ⟨more, begun⟩ := mirrors.beginGet order _
    exact ⟨more, _, by simp [step?, mirrors.idle idle], begun⟩
  | remove idle k =>
    cases own k rfl
    exact ⟨ids, _, by simp [step?, mirrors.idle idle], mirrors.beginRemove order _⟩
  | sweep => cases plain
  | put k v =>
    cases own k rfl
    obtain ⟨more, stored⟩ := mirrors.put order v
    exact ⟨more, _, rfl, stored⟩
  | invalidateAll => exact ⟨ids, _, rfl, mirrors.invalidateAll⟩
  | resumeGet phase here holds =>
    rename_i t k id failures e
    have asked := order.key_of_queued phase here
    have same := own e.key (by simp [State.about?, phase, Phase.entry, here])
    cases asked.symm.trans same
    obtain ⟨j, place, waits, there⟩ := placed phase here same
    obtain ⟨more, resumed⟩ := mirrors.resumeGet order place phase here holds
    exact ⟨more, _, by simp [step?, waits, Phase.moveTo, Phase.entry, there, holds], resumed⟩
  | resumeRemove phase here holds =>
    rename_i t k id e
    have same := own e.key (by simp [State.about?, phase, Phase.entry, here])
    obtain ⟨j, place, waits, there⟩ := placed phase here same
    exact ⟨ids, _, by simp [step?, waits, Phase.moveTo, Phase.entry, there, holds],
      mirrors.completeRemove place t e⟩
  | endLoad phase here outcome =>
    rename_i t k id e
    have same := own e.key (by simp [State.about?, phase, Phase.entry, here])
    obtain ⟨j, place, waits, there⟩ := placed phase here same
    exact ⟨ids, _, by simp [step?, waits, Phase.moveTo, Phase.entry, there],
      mirrors.endLoad place t outcome⟩
  | endRefresh phase => exact absurd ⟨_, _, _, _, phase⟩ still
  | cancel phase here =>
    rename_i t p e
    have same := own e.key (by simp [State.about?, phase, here])
    obtain ⟨j, place, waits, there⟩ := placed phase here same
    exact ⟨ids, _, by simp [step?, waits, there], mirrors.cancel place t e⟩
  | advance ms => exact ⟨ids, _, rfl, mirrors.pass ms, rfl⟩

theorem step_other (mirrors : s.Mirrors key ids s') (order : Orderly s) (still : ¬ s.Sweeping)
    (step : step? s a = some effect) {k : κ} (about : s.about? a = some k) (other : k ≠ key) :
    effect.1.Mirrors key ids s' := by
  have elsewhere : ∀ {t p} {e : Entry κ α ε}, s.phase? t = some p → s.entries[p.entry]? = some e →
      e.key = k → p.entry ∉ ids ∧ s'.phase? t = none := by
    intro t p e phase here same
    have away := mirrors.not_mem_of_key here (same ▸ other)
    exact ⟨away, mirrors.idle_of_not_mem phase away⟩
  cases taken_of_step step with
  | get idle =>
    cases about
    exact mirrors.beginGet_other (mirrors.idle idle) other
  | remove idle =>
    cases about
    exact mirrors.beginRemove_other (mirrors.idle idle) other
  | put _ v =>
    cases about
    exact mirrors.put_other other v
  | sweep | invalidateAll | advance => cases about
  | resumeGet phase here holds =>
    rename_i t k' id failures e
    have asked := order.key_of_queued phase here
    have same : e.key = k := by simpa [State.about?, phase, Phase.entry, here] using about
    obtain ⟨away, idle⟩ := elsewhere phase here same
    exact mirrors.resumeGet_other idle away (asked ▸ same ▸ other) failures e
  | resumeRemove phase here holds =>
    rename_i t k' id e
    have same : e.key = k := by simpa [State.about?, phase, Phase.entry, here] using about
    obtain ⟨away, idle⟩ := elsewhere phase here same
    exact mirrors.completeRemove_other idle away e
  | endLoad phase here outcome =>
    rename_i t k' id e
    have same : e.key = k := by simpa [State.about?, phase, Phase.entry, here] using about
    obtain ⟨away, idle⟩ := elsewhere phase here same
    exact mirrors.endLoad_other idle away outcome
  | endRefresh phase => exact absurd ⟨_, _, _, _, phase⟩ still
  | cancel phase here =>
    rename_i t p e
    have same : e.key = k := by simpa [State.about?, phase, here] using about
    obtain ⟨away, idle⟩ := elsewhere phase here same
    exact mirrors.cancel_other idle away e

theorem step_still (order : Orderly s) (still : ¬ s.Sweeping) (step : step? s a = some effect)
    (plain : a.isSweep = false) : ¬ effect.1.Sweeping := by
  intro sweeping
  obtain ⟨t, id, rest, began, phase⟩ := sweeping
  by_cases acts : a.actor = .task t
  · rcases sweeps_of_refreshing order step acts phase with ⟨ids, rfl⟩ | ⟨_, _, _, _, _, waits⟩
    · cases plain
    · exact still ⟨t, _, _, _, waits⟩
  · have before := (step_byMoves order step).phase_of_other acts
    exact still ⟨t, id, rest, began, before.symm.trans phase⟩

end Steps

section Runs

/-- A step of a run: when it is taken, the key that it is about, and what it shows of single keys. -/
structure Event (κ α ε : Type) where
  time : Nat
  about : Option κ
  action : Action κ α ε
  shown : List (Signal κ α ε)

variable [DecidableEq κ]

def State.event? (s : State κ α ε) (a : Action κ α ε) : Option (Event κ α ε) :=
  (step? s a).map fun effect => ⟨s.now, s.about? a, a, effect.2.filter Signal.ofOneKey⟩

def State.events (s : State κ α ε) (actions : List (Action κ α ε)) : List (Event κ α ε) :=
  s.collect State.event? actions

namespace Event

def concerns (key : κ) (e : Event κ α ε) : Bool := e.about.all (· = key)

def isAbout (key : κ) (e : Event κ α ε) : Bool := e.about = some key

def begins (key : κ) : Signal κ α ε → Bool
  | .began _ k => k = key
  | _ => false

def calls (key : κ) (events : List (Event κ α ε)) : Nat :=
  (events.flatMap Event.shown).countP (begins key)

end Event

/-- The calls for a key are answered as a loader says, whose answers depend on how many calls for the
    key there have been. A call that is given up has no answer. -/
def Follows (loader : κ → Nat → Load α ε) (events : List (Event κ α ε)) : Prop :=
  ∀ key before call between answer after t outcome,
    events.filter (Event.isAbout key) = before ++ call :: between ++ answer :: after →
    .began t key ∈ call.shown → (∀ e ∈ between, e.action.actor ≠ .task t) →
    answer.action = .loaded t outcome →
      let load := loader key (Event.calls key before + 1)
      outcome = load.outcome ∧ answer.time = call.time + load.delay

theorem events_cons {s s' : State κ α ε} {a : Action κ α ε} {seen : List (Signal κ α ε)}
    (step : step? s a = some (s', seen)) (rest : List (Action κ α ε)) :
    s.events (a :: rest) =
      ⟨s.now, s.about? a, a, seen.filter Signal.ofOneKey⟩ :: s'.events rest := by
  rw [State.events, collect_of_step step, State.event?, step]
  rfl

variable {key : κ} {ids : List Nat} {s s' t : State κ α ε}

theorem State.Mirrors.about?_eq (mirrors : s.Mirrors key ids s') {a : Action κ α ε}
    (taken : step? s a ≠ none) (own : ∀ k, s.about? a = some k → k = key) :
    s'.about? a = s.about? a := by
  have waits : ∀ u, (∃ p e, s.phase? u = some p ∧ s.entries[p.entry]? = some e) →
      (∀ k, ((s.phase? u).bind fun p => s.entries[p.entry]?.map Entry.key) = some k → k = key) →
      ((s'.phase? u).bind fun p => s'.entries[p.entry]?.map Entry.key) =
        (s.phase? u).bind fun p => s.entries[p.entry]?.map Entry.key := by
    intro u there same
    obtain ⟨p, e, phase, here⟩ := there
    have equal := same e.key (by simp [phase, here])
    obtain ⟨j, place⟩ := mirrors.place_of_key here equal
    simp [mirrors.phase_of_place phase place, phase, mirrors.at_place place]
  cases a with
  | get | remove | put | sweep | invalidateAll | advance => rfl
  | resume u | loaded u | cancel u =>
    refine waits u ?_ own
    cases phase : s.phase? u with
    | none => simp [step?, phase] at taken
    | some p =>
      cases here : s.entries[p.entry]? with
      | none => simp [step?, phase, here] at taken
      | some e => exact ⟨p, e, rfl, here⟩

theorem run_same {actions : List (Action κ α ε)} {seen : List (Signal κ α ε)}
    (mirrors : s.Mirrors key ids s') (order : Orderly s) (still : ¬ s.Sweeping)
    (plain : ∀ a ∈ actions, a.isSweep = false) (ran : run? s actions = some (t, seen)) :
    let kept := (s.events actions).filter (Event.concerns key)
    ∃ t' seen', run? s' (kept.map Event.action) = some (t', seen') ∧
      s'.events (kept.map Event.action) = kept := by
  induction actions generalizing s s' ids seen with
  | nil => exact ⟨s', [], rfl, rfl⟩
  | cons a rest ih =>
    obtain ⟨s₁, first, more, step, others, _⟩ := run_cons ran
    have own := plain a List.mem_cons_self
    have later : ∀ b ∈ rest, b.isSweep = false := fun b member =>
      plain b (List.mem_cons_of_mem a member)
    have order₁ := step_orderly order step
    have still₁ := step_still order still step own
    rw [events_cons step, List.filter_cons]
    split
    · rename_i concerned
      have same : ∀ k, s.about? a = some k → k = key := by
        intro k about
        simpa [Event.concerns, about] using concerned
      obtain ⟨ids₁, ⟨s₂, shown⟩, also, both⟩ := step_same mirrors order still step own same
      obtain ⟨t', seen', goes, equal⟩ := ih both.state order₁ still₁ later others
      refine ⟨t', shown ++ seen', run_of_step also goes, ?_⟩
      rw [List.map_cons, events_cons also, equal, mirrors.now,
        mirrors.about?_eq (by simp [step]) same]
      exact congrArg (List.cons · _) (congrArg (Event.mk _ _ _) both.shown)
    · rename_i apart
      cases about : s.about? a with
      | none => simp [Event.concerns, about] at apart
      | some k =>
        have other : k ≠ key := by simpa [Event.concerns, about] using apart
        have hidden := step_other mirrors order still step about other
        exact ih hidden order₁ still₁ later others

theorem Follows.kept {loader : κ → Nat → Load α ε} {events : List (Event κ α ε)}
    (follows : Follows loader events) (key : κ) :
    Follows loader (events.filter (Event.concerns key)) := by
  intro k before call between answer after t outcome split
  have about : ∀ e : Event κ α ε,
      (e.isAbout k && e.concerns key) = (e.isAbout k && decide (k = key)) := by
    intro e
    cases own : e.about with
    | none => simp [Event.isAbout, own]
    | some n =>
      by_cases same : n = k
      · simp [Event.isAbout, Event.concerns, own, same]
      · simp [Event.isAbout, own, same]
  simp only [List.filter_filter, about] at split
  by_cases same : k = key
  · simp only [same, decide_true, Bool.and_true] at split ⊢
    exact follows key before call between answer after t outcome split
  · have nothing : events.filter (fun _ => false) = [] :=
      List.filter_eq_nil_iff.2 fun _ _ => Bool.false_ne_true
    simp [same, nothing] at split

/-- Whatever tasks there are and however they interleave, without sweeps: if the steps about other
    keys are left out, all others can be taken as before. Each is taken at the same time and shows
    the same calls and results, and where the whole run follows a loader, so does what is left of
    it. -/
theorem keys_apart {settings : Settings} {now : Nat} {actions : List (Action κ α ε)}
    {seen : List (Signal κ α ε)} (plain : ∀ a ∈ actions, a.isSweep = false)
    (ran : run? { settings, now } actions = some (t, seen)) (key : κ) :
    let start : State κ α ε := { settings, now }
    let kept := (start.events actions).filter (Event.concerns key)
    (∃ t' seen', run? start (kept.map Event.action) = some (t', seen') ∧
      start.events (kept.map Event.action) = kept) ∧
      ∀ loader, Follows loader (start.events actions) → Follows loader kept := by
  intro start kept
  have still : ¬ start.Sweeping := by
    intro sweeping
    obtain ⟨u, id, rest, began, phase⟩ := sweeping
    simp [start, State.phase?] at phase
  have order := orderly_initial (κ := κ) (α := α) (ε := ε) settings now
  constructor
  · exact run_same (mirrors_initial settings now key) order still plain ran
  · exact fun loader follows => follows.kept key

/-- Two gets share a call for one key, while a call for another key fails, that key is put, and all
    is invalidated. -/
def besideFailingKey : List (Action Nat Nat Unit) :=
  [.get (.request 0) 1, .get (.request 1) 2, .get (.request 2) 1, .get (.request 3) 2, .advance 5,
    .loaded (.request 1) (.error ()), .resume (.request 3), .put 2 7, .invalidateAll,
    .loaded (.request 0) (.ok 10), .remove (.request 4) 2, .resume (.request 2)]

/-- Without the gets, the put and the remove of the other key, six steps are left. -/
theorem shared_call_beside_failing_key :
    let start : State Nat Nat Unit := { settings := ⟨none, none, 1000, false⟩ }
    let kept := (start.events besideFailingKey).filter (Event.concerns 1)
    ∃ s seen, run? start besideFailingKey = some (s, seen) ∧
      (∀ a ∈ besideFailingKey, a.isSweep = false) ∧ kept.map Event.time = [0, 0, 0, 5, 5, 5] ∧
        ∃ t' seen', run? start (kept.map Event.action) = some (t', seen') ∧
          start.events (kept.map Event.action) = kept := by
  intro start kept
  have ends : (run? start besideFailingKey).isSome = true := by decide +kernel
  obtain ⟨⟨s, seen⟩, ran⟩ := Option.isSome_iff_exists.1 ends
  have plain : ∀ a ∈ besideFailingKey, a.isSweep = false := by decide
  exact ⟨s, seen, ran, plain, by decide +kernel, (keys_apart plain ran 1).1⟩

end Runs

end SingleFlight
end MetricGateway
