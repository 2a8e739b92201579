import MetricGateway.Proofs.SingleFlight.Invalidation
import Mathlib.Data.List.Induction

/- When the entries of a single-flight cache have been used and loaded last. What uses an entry and
   what loads it is told by the steps alone; that the times an entry has are those of the last such
   steps is shown once for each operation and follows for runs. -/
namespace MetricGateway
namespace SingleFlight

variable {κ α ε : Type}

def Signal.isGot : Signal κ α ε → Bool
  | .finished _ (.got _) => true
  | _ => false

namespace State

def fills (s : State κ α ε) (id : Nat) : Bool := s.entries[id]?.any fun e => e.value.isSome

/-- The entry that is given a value in a step: by a put, by a get's load, or by a reload. -/
def loaded [DecidableEq κ] (s : State κ α ε) : Action κ α ε → Option Nat
  | .put key _ => some (s.claim key).2
  | .loaded t (.ok _) =>
    match s.phase? t with
    | some (.getLoading _ id) | some (.refreshing id _ _) => some id
    | _ => none
  | _ => none

def gives [DecidableEq κ] (s : State κ α ε) (a : Action κ α ε) : Bool :=
  (step? s a).any fun effect => effect.2.any Signal.isGot

/-- The entry that is used in a step: by a put, by a get that is served or that ends its load, or by
    a reload that finds the entry without a value. -/
def used [DecidableEq κ] (s : State κ α ε) : Action κ α ε → Option Nat
  | .put key _ => some (s.claim key).2
  | .get t key => if s.gives (.get t key) then s.find? key else none
  | .resume t =>
    match s.phase? t with
    | some (.getQueued key id _) =>
      if s.gives (.resume t) then (if s.fills id then some id else s.find? key) else none
    | _ => none
  | .loaded t (.ok _) =>
    match s.phase? t with
    | some (.getLoading _ id) => some id
    | some (.refreshing id _ _) => if s.fills id then none else some id
    | _ => none
  | _ => none

end State

structure Entry.Dates (now : Nat) (used loaded : Prop) [Decidable used] [Decidable loaded]
    (e e' : Entry κ α ε) : Prop where
  usedAt : e'.usedAt = if used then now else e.usedAt
  loadedAt : e'.loadedAt = if loaded then now else e.loadedAt
  value : e'.value.isSome = true → e.value.isSome = true ∨ loaded
  filled : loaded → e.value = none → used

/-- The entries' times go on from those before: the one that is used and the one that is loaded get
    the present time, and a new entry has a value only where it is both. -/
structure Dates (now : Nat) (used loaded : Option Nat) (before after : List (Entry κ α ε)) :
    Prop where
  kept : ∀ (id : Nat) (e : Entry κ α ε), before[id]? = some e →
    ∃ e', after[id]? = some e' ∧ e.Dates now (used = some id) (loaded = some id) e'
  made : ∀ (id : Nat) (e' : Entry κ α ε), before[id]? = none → after[id]? = some e' →
    e'.value.isSome = true →
      used = some id ∧ loaded = some id ∧ e'.usedAt = now ∧ e'.loadedAt = now

namespace Dates

variable {now : Nat} {used loaded : Option Nat} {before between after : List (Entry κ α ε)}

theorem refl (now : Nat) (entries : List (Entry κ α ε)) : Dates now none none entries entries := by
  constructor
  · intro id e here
    exact ⟨e, here, rfl, rfl, Or.inl, fun absent => by cases absent⟩
  · intro id e' absent there
    rw [absent] at there
    cases there

theorem after_silent (first : Dates now none none before between)
    (rest : Dates now used loaded between after) : Dates now used loaded before after := by
  constructor
  · intro id e here
    obtain ⟨e₁, there, dates⟩ := first.kept id e here
    obtain ⟨e₂, last, goes⟩ := rest.kept id e₁ there
    have usedAt : e₁.usedAt = e.usedAt := dates.usedAt
    have loadedAt : e₁.loadedAt = e.loadedAt := dates.loadedAt
    have value : e₁.value.isSome = true → e.value.isSome = true := fun full =>
      (dates.value full).resolve_right (by simp)
    refine ⟨e₂, last, usedAt ▸ goes.usedAt, loadedAt ▸ goes.loadedAt, ?_, ?_⟩
    · exact fun full => (goes.value full).imp_left value
    · intro loads empty
      refine goes.filled loads ?_
      cases full : e₁.value with
      | none => rfl
      | some v =>
        have still := value (by rw [full]; rfl)
        rw [empty] at still
        cases still
  · intro id e₂ absent last full
    cases there : between[id]? with
    | none => exact rest.made id e₂ there last full
    | some e₁ =>
      -- The entry is made first, without a value, and then given one.
      obtain ⟨f, same, goes⟩ := rest.kept id e₁ there
      cases last.symm.trans same
      have empty : e₁.value = none := by
        cases given : e₁.value with
        | none => rfl
        | some v =>
          obtain ⟨none_some, _⟩ := first.made id e₁ absent there (by rw [given]; rfl)
          cases none_some
      have loads : loaded = some id := by
        refine (goes.value full).resolve_left ?_
        rw [empty]
        exact Bool.false_ne_true
      have uses := goes.filled loads empty
      refine ⟨uses, loads, ?_, ?_⟩
      · rw [goes.usedAt, if_pos uses]
      · rw [goes.loadedAt, if_pos loads]

theorem then_silent (first : Dates now used loaded before between)
    (rest : Dates now none none between after) : Dates now used loaded before after := by
  constructor
  · intro id e here
    obtain ⟨e₁, there, dates⟩ := first.kept id e here
    obtain ⟨e₂, last, goes⟩ := rest.kept id e₁ there
    have usedAt : e₂.usedAt = e₁.usedAt := goes.usedAt
    have loadedAt : e₂.loadedAt = e₁.loadedAt := goes.loadedAt
    refine ⟨e₂, last, usedAt.trans dates.usedAt, loadedAt.trans dates.loadedAt, ?_, dates.filled⟩
    intro full
    exact dates.value ((goes.value full).resolve_right (by simp))
  · intro id e₂ absent last full
    cases there : between[id]? with
    | none =>
      obtain ⟨none_some, _⟩ := rest.made id e₂ there last full
      cases none_some
    | some e₁ =>
      obtain ⟨f, same, goes⟩ := rest.kept id e₁ there
      cases last.symm.trans same
      obtain ⟨uses, loads, usedAt, loadedAt⟩ := first.made id e₁ absent there
        ((goes.value full).resolve_right (by simp))
      have still : e₂.usedAt = e₁.usedAt := goes.usedAt
      have again : e₂.loadedAt = e₁.loadedAt := goes.loadedAt
      exact ⟨uses, loads, still.trans usedAt, again.trans loadedAt⟩

theorem modify {entries : List (Entry κ α ε)} {id : Nat} {f : Entry κ α ε → Entry κ α ε}
    (uses : ∀ j, used = some j → j = id) (loads : ∀ j, loaded = some j → j = id)
    (dates : ∀ e, entries[id]? = some e →
      e.Dates now (used = some id) (loaded = some id) (f e)) :
    Dates now used loaded entries (entries.modify id f) := by
  constructor
  · intro j e here
    rw [List.getElem?_modify, here]
    by_cases same : id = j
    · subst same
      exact ⟨f e, by simp, dates e here⟩
    · have idle : ¬ used = some j := fun uses' => same (uses j uses').symm
      have unloaded : ¬ loaded = some j := fun loads' => same (loads j loads').symm
      exact ⟨e, by simp [same], by rw [if_neg idle], by rw [if_neg unloaded], Or.inl,
        fun loads' => absurd loads' unloaded⟩
  · intro j e' absent there
    rw [List.getElem?_modify, absent] at there
    cases there

theorem edit {entries : List (Entry κ α ε)} (id : Nat) {f : Entry κ α ε → Entry κ α ε}
    (frame : ∀ e, (f e).usedAt = e.usedAt ∧ (f e).loadedAt = e.loadedAt ∧ (f e).value = e.value) :
    Dates now none none entries (entries.modify id f) := by
  refine modify (by simp) (by simp) fun e _ => ?_
  obtain ⟨usedAt, loadedAt, value⟩ := frame e
  exact ⟨usedAt, loadedAt, fun full => Or.inl (value ▸ full), fun absent => by cases absent⟩

theorem add (entries : List (Entry κ α ε)) (key : κ) (made : Nat) :
    Dates now none none entries (entries ++ [.vacant key made]) := by
  constructor
  · intro id e here
    have bound := (List.getElem?_eq_some_iff.1 here).1
    exact ⟨e, by rw [List.getElem?_append_left bound, here], rfl, rfl, Or.inl,
      fun absent => by cases absent⟩
  · intro id e' absent there full
    rw [List.getElem?_eq_none_iff] at absent
    rw [List.getElem?_append_right absent, List.getElem?_singleton] at there
    split at there
    · cases there
      cases full
    · cases there

end Dates

def Effect.Dates (effect : Effect κ α ε) (s : State κ α ε) (used loaded : Option Nat) : Prop :=
  SingleFlight.Dates s.now used loaded s.entries effect.1.entries

/-- The entry that is served is used where a get ends with a value; nothing is loaded. -/
def Effect.Serves (effect : Effect κ α ε) (s : State κ α ε) (served : Option Nat) : Prop :=
  effect.Dates s (if effect.2.any Signal.isGot then served else none) none

section Operations

theorem dates_finish (s : State κ α ε) (t : TaskId) (r : Result α ε) :
    (s.finish t r).Dates s none none :=
  Dates.refl _ _

theorem dates_release (s : State κ α ε) (id : Nat) : (s.release id).Dates s none none :=
  Dates.edit id fun _ => ⟨rfl, rfl, rfl⟩

theorem dates_serve (s : State κ α ε) (t : TaskId) (id : Nat) (value : α) :
    (s.serve t id value).Dates s (some id) none := by
  refine Dates.modify (fun j same => (Option.some.inj same).symm) (by simp) fun f _ => ?_
  exact ⟨(if_pos rfl).symm, rfl, Or.inl, fun absent => by cases absent⟩

theorem dates_beginLoad (s : State κ α ε) (t : TaskId) (key : κ) (id : Nat) :
    (s.beginLoad t key id).Dates s none none :=
  Dates.edit id fun _ => ⟨rfl, rfl, rfl⟩

theorem dates_completeRemove (s : State κ α ε) (t : TaskId) (id : Nat) (e : Entry κ α ε) :
    (s.completeRemove t id e).Dates s none none := by
  have detached : Dates s.now none none s.entries (s.modifyEntry id Entry.detach).entries :=
    Dates.edit id fun _ => ⟨rfl, rfl, rfl⟩
  exact detached.then_silent (Dates.edit id fun _ => ⟨rfl, rfl, rfl⟩)

theorem dates_sweepOver (s : State κ α ε) (t : TaskId) (began : Nat) (order : List Nat) :
    (s.sweepOver t began order).Dates s none none := by
  induction order generalizing s with
  | nil => exact Dates.refl _ _
  | cons id rest ih =>
    unfold State.sweepOver
    cases here : s.entries[id]? with
    | none => exact ih s
    | some e =>
      dsimp only
      split
      · exact ih s
      · split
        · split
          · have detached : Dates s.now none none s.entries
                (s.modifyEntry id Entry.detach).entries := Dates.edit id fun _ => ⟨rfl, rfl, rfl⟩
            exact detached.then_silent (ih (s.modifyEntry id Entry.detach))
          · exact ih s
        · split
          · exact Dates.edit id fun _ => ⟨rfl, rfl, rfl⟩
          · exact ih s

theorem dates_install {s : State κ α ε} {id : Nat} {e : Entry κ α ε}
    (here : s.entries[id]? = some e) (used : Bool) (value : α) :
    Dates s.now (if used || e.value.isNone then some id else none) (some id) s.entries
      (s.modifyEntry id (·.install s.now used value)).entries := by
  refine Dates.modify ?_ (fun j same => (Option.some.inj same).symm) fun f there => ?_
  · intro j same
    split at same
    · exact (Option.some.inj same).symm
    · cases same
  · cases here.symm.trans there
    by_cases uses : (used || e.value.isNone) = true
    · refine ⟨?_, (if_pos rfl).symm, fun _ => Or.inr rfl, fun _ _ => if_pos uses⟩
      simp [Entry.install, uses]
    · refine ⟨?_, (if_pos rfl).symm, fun _ => Or.inr rfl, fun _ empty => ?_⟩
      · simp [Entry.install, uses]
      · simp [empty] at uses

theorem dates_endLoad {s : State κ α ε} {t : TaskId} {id : Nat} {e : Entry κ α ε}
    (here : s.entries[id]? = some e) (value : α) :
    (s.endLoad t id (.ok value)).Dates s (some id) (some id) := by
  have installed := dates_install here true value
  exact installed.then_silent (Dates.edit id fun _ => ⟨rfl, rfl, rfl⟩)

theorem dates_endLoad_error (s : State κ α ε) (t : TaskId) (id : Nat) (error : ε) :
    (s.endLoad t id (.error error)).Dates s none none := by
  have failed : Dates s.now none none s.entries
      (s.modifyEntry id fun e => (e.fail error).detachIfEmpty).entries :=
    Dates.edit id fun _ => ⟨rfl, rfl, rfl⟩
  exact failed.then_silent (Dates.edit id fun _ => ⟨rfl, rfl, rfl⟩)

theorem dates_endRefresh {s : State κ α ε} {id : Nat} {e : Entry κ α ε}
    (here : s.entries[id]? = some e) (t : TaskId) (rest : List Nat) (began : Nat) (key : κ)
    (value : α) :
    (s.endRefresh t id rest began key (.ok value)).Dates s
      (if e.value.isNone then some id else none) (some id) := by
  have installed := dates_install here false value
  have released : Dates s.now (if e.value.isNone then some id else none) (some id) s.entries
      ((s.modifyEntry id (·.install s.now false value)).release id).1.entries :=
    installed.then_silent (Dates.edit id fun _ => ⟨rfl, rfl, rfl⟩)
  exact released.then_silent
    (dates_sweepOver ((s.modifyEntry id (·.install s.now false value)).release id).1 t began rest)

theorem dates_endRefresh_error (s : State κ α ε) (t : TaskId) (id : Nat) (rest : List Nat)
    (began : Nat) (key : κ) (error : ε) :
    (s.endRefresh t id rest began key (.error error)).Dates s none none :=
  (dates_release s id).then_silent (dates_sweepOver (s.release id).1 t began rest)

theorem dates_cancel (s : State κ α ε) (t : TaskId) (id : Nat) (e : Entry κ α ε) :
    (s.cancel t id e).Dates s none none := by
  unfold State.cancel
  split
  · exact dates_release (s.dropTask t) id
  · exact Dates.edit id fun _ => ⟨rfl, rfl, rfl⟩

theorem dates_invalidateAll (s : State κ α ε) : s.invalidateAll.Dates s none none := by
  constructor
  · intro id e here
    refine ⟨e.invalidate, by simp [State.invalidateAll, State.report, here], ?_⟩
    unfold Entry.invalidate
    split
    · split
      · exact ⟨rfl, rfl, Or.inl, fun absent => by cases absent⟩
      · exact ⟨rfl, rfl, fun full => (Bool.false_ne_true full).elim, fun absent => by cases absent⟩
    · exact ⟨rfl, rfl, Or.inl, fun absent => by cases absent⟩
  · intro id e' absent there
    simp [State.invalidateAll, State.report, absent] at there

theorem serves_of_silent {s : State κ α ε} {effect : Effect κ α ε} {served : Option Nat}
    (silent : effect.2.any Signal.isGot = false) (dates : effect.Dates s none none) :
    effect.Serves s served := by
  rw [Effect.Serves, silent]
  exact dates

theorem serves_of_got {s : State κ α ε} {effect : Effect κ α ε} {served : Option Nat}
    (got : effect.2.any Signal.isGot = true) (dates : effect.Dates s served none) :
    effect.Serves s served := by
  rw [Effect.Serves, got]
  exact dates

theorem any_isGot_release (s : State κ α ε) (id : Nat) :
    (s.release id).2.any Signal.isGot = false := by
  unfold State.release
  cases (s.entries[id]?.map Entry.queue).getD [] <;> rfl

variable [DecidableEq κ]

theorem now_claim (s : State κ α ε) (key : κ) : (s.claim key).1.now = s.now := by
  unfold State.claim
  split <;> rfl

theorem dates_claim (s : State κ α ε) (key : κ) :
    Dates s.now none none s.entries (s.claim key).1.entries := by
  unfold State.claim
  split
  · exact Dates.refl _ _
  · exact Dates.add _ _ _

theorem dates_put (s : State κ α ε) (key : κ) (value : α) :
    (s.put key value).Dates s (some (s.claim key).2) (some (s.claim key).2) := by
  obtain ⟨e, here, _, _⟩ := State.claim_listed s key
  have claimed := dates_claim s key
  rw [← now_claim s key] at claimed
  rw [Effect.Dates, ← now_claim s key]
  exact claimed.after_silent (dates_install here true value)

theorem serves_beginGet (s : State κ α ε) (t : TaskId) (key : κ) :
    (s.beginGet t key).Serves s (s.find? key) := by
  unfold State.beginGet State.claim
  cases found : s.find? key with
  | none =>
    have vacant : (s.addEntry key).entries[s.entries.length]? = some (.vacant key s.now) := by
      simp [State.getElem?_addEntry]
    have added : Dates s.now none none s.entries (s.addEntry key).entries := Dates.add _ _ _
    dsimp only
    rw [vacant]
    exact serves_of_silent rfl (added.after_silent (dates_beginLoad (s.addEntry key) t key _))
  | some id =>
    obtain ⟨e, here, _⟩ := State.find?_eq_some found
    dsimp only
    rw [here]
    dsimp only
    split
    · exact serves_of_got rfl (dates_serve s t id _)
    · exact serves_of_silent rfl (dates_beginLoad s t key id)
    · exact serves_of_silent rfl (Dates.edit id fun _ => ⟨rfl, rfl, rfl⟩)

theorem find?_release (s : State κ α ε) (id : Nat) (key : κ) :
    (s.release id).1.find? key = s.find? key := by
  have same : ∀ (entries : List (Entry κ α ε)) (id : Nat),
      (entries.modify id Entry.release).findIdx? (fun e => e.listed && decide (e.key = key)) =
        entries.findIdx? fun e => e.listed && decide (e.key = key) := by
    intro entries
    induction entries with
    | nil => simp
    | cons e entries ih =>
      intro id
      cases id with
      | zero => rfl
      | succ id => simp [List.findIdx?_cons, ih]
  exact same s.entries id

theorem serves_resumeGet (s : State κ α ε) (t : TaskId) (key : κ) (id failures : Nat)
    (e : Entry κ α ε) : (s.resumeGet t key id failures e).Serves s
      (if e.value.isSome then some id else s.find? key) := by
  unfold State.resumeGet
  split
  · rename_i value full
    rw [full]
    refine serves_of_got rfl ?_
    exact (dates_serve s t id value).then_silent (Dates.edit id fun _ => ⟨rfl, rfl, rfl⟩)
  · rename_i empty
    split
    · exact serves_of_silent (any_isGot_release (s.dropTask t) id)
        (dates_release (s.dropTask t) id)
    · split
      · exact serves_of_silent rfl (dates_beginLoad s t key id)
      · have again := serves_beginGet ((s.dropTask t).release id).1 t key
        have released := dates_release (s.dropTask t) id
        rw [find?_release] at again
        rw [empty, Effect.Serves, Effect.andThen, List.any_append,
          any_isGot_release (s.dropTask t) id]
        exact released.after_silent again

theorem dates_beginRemove (s : State κ α ε) (t : TaskId) (key : κ) :
    (s.beginRemove t key).Dates s none none := by
  unfold State.beginRemove
  split
  · exact dates_finish _ _ _
  · split
    · exact Dates.refl _ _
    · split
      · exact dates_completeRemove _ _ _ _
      · exact Dates.edit _ fun _ => ⟨rfl, rfl, rfl⟩

end Operations

theorem fills_of_entry {s : State κ α ε} {id : Nat} {e : Entry κ α ε}
    (here : s.entries[id]? = some e) : s.fills id = e.value.isSome := by
  rw [State.fills, here]
  rfl

variable [DecidableEq κ]

theorem gives_of_step {s : State κ α ε} {a : Action κ α ε} {effect : Effect κ α ε}
    (step : step? s a = some effect) : s.gives a = effect.2.any Signal.isGot := by
  rw [State.gives, step]
  rfl

/-- A step gives the present time to what it uses and loads, and leaves the other times. -/
theorem step_dates {s : State κ α ε} {a : Action κ α ε} {effect : Effect κ α ε}
    (step : step? s a = some effect) : effect.Dates s (s.used a) (s.loaded a) := by
  have gives := gives_of_step step
  cases taken_of_step step with
  | get _ key =>
    rw [State.used, gives]
    exact serves_beginGet s _ key
  | remove _ key => exact dates_beginRemove s _ key
  | sweep _ ids => exact dates_sweepOver s _ s.now ids
  | put key value => exact dates_put s key value
  | invalidateAll => exact dates_invalidateAll s
  | resumeGet phase here =>
    simp only [State.used, phase, gives, fills_of_entry here]
    exact serves_resumeGet s _ _ _ _ _
  | resumeRemove phase =>
    simp only [State.used, phase]
    exact dates_completeRemove s _ _ _
  | endLoad phase here outcome =>
    cases outcome with
    | ok value =>
      simp only [State.used, State.loaded, phase]
      exact dates_endLoad here value
    | error error => exact dates_endLoad_error s _ _ error
  | @endRefresh t id rest began e phase here outcome =>
    cases outcome with
    | ok value =>
      have ended := dates_endRefresh here t rest began e.key value
      simp only [State.used, State.loaded, phase, fills_of_entry here]
      cases full : e.value with
      | none =>
        rw [full] at ended
        exact ended
      | some v =>
        rw [full] at ended
        exact ended
    | error error => exact dates_endRefresh_error s t id rest began e.key error
  | cancel => exact dates_cancel s _ _ _
  | advance => exact Dates.refl _ _

def Timed (uses loads : Nat → Option Nat) (s : State κ α ε) : Prop :=
  ∀ (id : Nat) (e : Entry κ α ε), s.entries[id]? = some e → e.value.isSome = true →
    uses id = some e.usedAt ∧ loads id = some e.loadedAt

theorem Timed.step {uses loads : Nat → Option Nat} {s s' : State κ α ε} {a : Action κ α ε}
    {seen : List (Signal κ α ε)} (timed : Timed uses loads s)
    (step : step? s a = some (s', seen)) :
    Timed (fun id => if s.used a = some id then some s.now else uses id)
      (fun id => if s.loaded a = some id then some s.now else loads id) s' := by
  intro id e' there full
  dsimp only
  have dates := step_dates step
  cases before : s.entries[id]? with
  | none =>
    obtain ⟨used, loaded, usedAt, loadedAt⟩ := dates.made id e' before there full
    rw [if_pos used, if_pos loaded, usedAt, loadedAt]
    exact ⟨rfl, rfl⟩
  | some e =>
    obtain ⟨f, same, goes⟩ := dates.kept id e before
    cases there.symm.trans same
    rw [goes.usedAt, goes.loadedAt]
    cases value : e.value with
    | some v =>
      obtain ⟨uses, loads⟩ := timed id e before (by rw [value]; rfl)
      constructor
      · split
        · rfl
        · exact uses
      · split
        · rfl
        · exact loads
    | none =>
      have loaded : s.loaded a = some id := by
        refine (goes.value full).resolve_left ?_
        rw [value]
        exact Bool.false_ne_true
      have used := goes.filled loaded value
      simp [used, loaded]

namespace State

/-- The time of the last step of a run in which something happens. -/
def lastTime (happens : State κ α ε → Action κ α ε → Bool) (s : State κ α ε)
    (actions : List (Action κ α ε)) : Option Nat :=
  (s.collect (fun s a => if happens s a then some s.now else none) actions).getLast?

def lastUse (s : State κ α ε) (actions : List (Action κ α ε)) (id : Nat) : Option Nat :=
  s.lastTime (fun s a => s.used a = some id) actions

def lastLoad (s : State κ α ε) (actions : List (Action κ α ε)) (id : Nat) : Option Nat :=
  s.lastTime (fun s a => s.loaded a = some id) actions

end State

section Runs

variable {s s₁ s' : State κ α ε} {actions : List (Action κ α ε)} {a : Action κ α ε}
  {seen shown : List (Signal κ α ε)} (reached : run? s actions = some (s₁, seen))
  (step : step? s₁ a = some (s', shown))

include reached step

theorem lastTime_concat (happens : State κ α ε → Action κ α ε → Bool) :
    s.lastTime happens (actions ++ [a]) =
      if happens s₁ a then some s₁.now else s.lastTime happens actions := by
  have last : s₁.collect (fun s a => if happens s a then some s.now else none) [a] =
      (if happens s₁ a then some s₁.now else none).toList := by
    rw [collect_of_step step, State.collect, List.append_nil]
  rw [State.lastTime, collect_append reached, last, List.getLast?_append]
  split
  · rfl
  · rfl

theorem lastUse_concat : s.lastUse (actions ++ [a]) =
    fun id => if s₁.used a = some id then some s₁.now else s.lastUse actions id := by
  funext id
  rw [State.lastUse, lastTime_concat reached step]
  simp [State.lastUse]

theorem lastLoad_concat : s.lastLoad (actions ++ [a]) =
    fun id => if s₁.loaded a = some id then some s₁.now else s.lastLoad actions id := by
  funext id
  rw [State.lastLoad, lastTime_concat reached step]
  simp [State.lastLoad]

end Runs

/-- However tasks interleave, an entry with a value has the times of its last use and load. -/
theorem run_timed {settings : Settings} {now : Nat} {actions : List (Action κ α ε)}
    {s : State κ α ε} {seen : List (Signal κ α ε)}
    (ran : run? { settings, now } actions = some (s, seen)) :
    Timed (State.lastUse { settings, now } actions) (State.lastLoad { settings, now } actions)
      s := by
  induction actions using List.reverseRecOn generalizing s seen with
  | nil =>
    cases ran
    intro id e here
    cases here
  | append_singleton actions a ih =>
    obtain ⟨s₁, first, shown, reached, step⟩ := run_concat ran
    rw [lastUse_concat reached step, lastLoad_concat reached step]
    exact (ih reached).step step

end SingleFlight
end MetricGateway
