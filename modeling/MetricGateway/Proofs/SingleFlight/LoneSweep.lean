import MetricGateway.Proofs.SingleFlight.Alone
import MetricGateway.Proofs.SingleFlight.Due
import Mathlib.Data.List.Basic
import Mathlib.Logic.Function.Basic

/- A sweep that nobody else gets in the way of. What it takes out of the table and what it reloads
   is settled when it begins, by the times that the entries have then: neither the order in which
   it comes to them nor the time that its reloads take makes a difference. -/
namespace MetricGateway
namespace SingleFlight

variable {κ α ε : Type}

namespace State

/-- Whether an entry has a value in the table whose last use is longer ago than allowed. -/
def purges (s : State κ α ε) (e : Entry κ α ε) : Bool :=
  e.held && s.settings.expireAfter.any (e.usedAt + · < s.now)

def reloads (s : State κ α ε) (e : Entry κ α ε) : Bool :=
  e.held && !s.purges e && s.settings.refreshAfter.any (e.loadedAt + · < s.now)

/-- What a sweep makes of an entry, by the time and the outcome of the call that is made for it. -/
def swept (s : State κ α ε) (answer : Option (Nat × Except ε α)) (e : Entry κ α ε) :
    Entry κ α ε :=
  if s.purges e then { e with listed := false }
  else if s.reloads e then
    match answer with
    | some (time, .ok value) => { e with value := some value, loadedAt := time, lastError := none }
    | some (_, .error _) | none => e
  else e

def sweepShows (s : State κ α ε) (t : TaskId) (answer : Option (Nat × Except ε α))
    (e : Entry κ α ε) : List (Signal κ α ε) :=
  if s.purges e then [.expired e.key]
  else if s.reloads e then
    .began t e.key :: answer.toList.map fun (_, outcome) => .refreshed e.key outcome.isOk
  else []

def later (s : State κ α ε) (time : Nat) : State κ α ε := { s with now := time }

theorem later_now (s : State κ α ε) : s.later s.now = s := rfl

def reloading (s : State κ α ε) (t : TaskId) (id : Nat) (rest : List Nat) (began : Nat) :
    State κ α ε :=
  (s.modifyEntry id (·.acquire t)).setPhase t (.refreshing id rest began)

def answer (s : State κ α ε) : Action κ α ε → Option (Nat × Except ε α)
  | .loaded _ outcome => some (s.now, outcome)
  | _ => none

end State

inductive Action.Attends (t : TaskId) : Action κ α ε → Prop where
  | pause (ms : Nat) : Attends t (.advance ms)
  | answer (outcome : Except ε α) : Attends t (.loaded t outcome)

theorem olderThan_eq (limit : Option Nat) (began since : Nat) :
    State.olderThan limit began since = limit.any (since + · < began) := by
  cases limit with
  | none => rfl
  | some longest =>
    rw [State.olderThan, Option.any_some, decide_eq_decide]
    omega

/-- In the table, with nobody at its gate. -/
structure Entry.Idle (e : Entry κ α ε) : Prop where
  listed : e.listed = true
  free : e.holder = none
  empty : e.queue = []

def Entry.reloaded (e : Entry κ α ε) (now : Nat) : Except ε α → Entry κ α ε
  | .ok value => e.install now false value
  | .error _ => e

theorem queue_reloaded (e : Entry κ α ε) (now : Nat) (outcome : Except ε α) :
    (e.reloaded now outcome).queue = e.queue := by
  cases outcome <;> rfl

theorem endRefresh_eq (s : State κ α ε) (t : TaskId) (id : Nat) (rest : List Nat) (began : Nat)
    (key : κ) (outcome : Except ε α) :
    s.endRefresh t id rest began key outcome =
      Effect.andThen
        (Effect.andThen (s.modifyEntry id (·.reloaded s.now outcome),
          [.refreshed key outcome.isOk]) (·.release id))
        (·.sweepOver t began rest) := by
  cases outcome with
  | ok value => rfl
  | error error =>
    have same : s.modifyEntry id (·.reloaded s.now (.error error)) = s := by
      unfold State.modifyEntry
      exact congrArg (fun entries => { s with entries }) (List.modify_id id s.entries)
    rw [same]
    rfl

theorem State.sweepOver_setPhase (s : State κ α ε) (t : TaskId) (p : Phase κ) (began : Nat)
    (order : List Nat) :
    (s.setPhase t p).sweepOver t began order = s.sweepOver t began order := by
  have dropped : (s.setPhase t p).dropTask t = s.dropTask t := by
    simp [State.setPhase, State.dropTask]
  rw [← State.sweepOver_dropTask, dropped, State.sweepOver_dropTask]

theorem Entry.Idle.release_reloaded {s : State κ α ε} {e : Entry κ α ε} (idle : e.Idle)
    (stays : s.purges e = false) (due : s.reloads e = true) (t : TaskId) (time : Nat)
    (outcome : Except ε α) :
    ((e.acquire t).reloaded time outcome).release = s.swept (some (time, outcome)) e := by
  have full : e.value.isSome = true := by
    have whole := due
    simp only [State.reloads, Entry.held, Bool.and_eq_true] at whole
    exact whole.1.1.2
  obtain ⟨_, free, empty⟩ := idle
  unfold State.swept
  rw [if_neg (Bool.eq_false_iff.1 stays), if_pos due]
  cases e
  cases free
  cases empty
  cases outcome with
  | ok value =>
    rw [← Option.not_isNone, Bool.not_eq_true'] at full
    simp [Entry.reloaded, Entry.install, Entry.acquire, Entry.release, full]
  | error error => rfl

/-- A sweep that began in a state has entries before it in a later one: idle ones, as they were. -/
structure Ahead (s u : State κ α ε) (order : List Nat) : Prop where
  settings : u.settings = s.settings
  nobody : u.tasks = []
  once : order.Nodup
  still : ∀ id ∈ order, ∃ e, s.entries[id]? = some e ∧ u.entries[id]? = some e ∧ e.Idle

namespace Ahead

variable {s u u' : State κ α ε} {t : TaskId} {id : Nat} {rest order : List Nat}
  {e : Entry κ α ε}

theorem behind (ahead : Ahead s u (id :: rest)) (settings : u'.settings = u.settings)
    (nobody : u'.tasks = []) (others : ∀ j ≠ id, u'.entries[j]? = u.entries[j]?) :
    Ahead s u' rest where
  settings := settings.trans ahead.settings
  nobody := nobody
  once := (List.nodup_cons.1 ahead.once).2
  still := by
    intro j member
    obtain ⟨e, before, here, idle⟩ := ahead.still j (List.mem_cons_of_mem id member)
    have apart : j ≠ id := by
      rintro rfl
      exact (List.nodup_cons.1 ahead.once).1 member
    exact ⟨e, before, (others j apart).trans here, idle⟩

theorem modifyEntry (ahead : Ahead s u (id :: rest)) (time : Nat)
    (f : Entry κ α ε → Entry κ α ε) : Ahead s ((u.later time).modifyEntry id f) rest := by
  refine ahead.behind rfl ahead.nobody fun j apart => ?_
  exact (State.getElem?_modifyEntry (u.later time) id j f).trans (if_neg apart)

theorem sweepOver_cons (ahead : Ahead s u (id :: rest)) (here : s.entries[id]? = some e)
    (t : TaskId) :
    u.sweepOver t s.now (id :: rest) =
      if s.purges e then
        Effect.andThen (u.modifyEntry id Entry.detach, [.expired e.key]) (·.sweepOver t s.now rest)
      else if s.reloads e then
        (u.reloading t id rest s.now, [.began t e.key])
      else u.sweepOver t s.now rest := by
  obtain ⟨f, before, there, idle⟩ := ahead.still id List.mem_cons_self
  cases here.symm.trans before
  rw [State.sweepOver, there]
  simp only [olderThan_eq, ahead.settings, idle.free, idle.listed, Option.isNone_none,
    Bool.and_true, if_true]
  cases full : e.value with
  | none => simp [State.purges, State.reloads, Entry.held, full]
  | some value =>
    have held : e.held = true := by simp [Entry.held, full, idle.listed]
    by_cases due : s.settings.expireAfter.any (e.usedAt + · < s.now) = true
    · simp [State.purges, held, due]
    · simp [State.purges, State.reloads, State.reloading, held, due]

theorem endRefresh (ahead : Ahead s u (id :: rest)) (here : s.entries[id]? = some e)
    (stays : s.purges e = false) (due : s.reloads e = true) (time : Nat) (outcome : Except ε α) :
    ((u.reloading t id rest s.now).later time).endRefresh t id rest s.now e.key outcome =
      Effect.andThen
        ((u.later time).modifyEntry id (s.swept (some (time, outcome))),
          [.refreshed e.key outcome.isOk])
        (·.sweepOver t s.now rest) := by
  obtain ⟨f, before, there, idle⟩ := ahead.still id List.mem_cons_self
  cases here.symm.trans before
  let p : Phase κ := .refreshing id rest s.now
  let stored : State κ α ε :=
    ((u.reloading t id rest s.now).later time).modifyEntry id (·.reloaded time outcome)
  have own : stored.entries[id]? = some ((e.acquire t).reloaded time outcome) :=
    State.modifyEntry_of_getElem? (State.modifyEntry_of_getElem? there (·.acquire t)) _
  have opened : stored.release id =
      (((u.later time).modifyEntry id (s.swept (some (time, outcome)))).setPhase t p, []) := by
    have empty : ((e.acquire t).reloaded time outcome).queue = [] :=
      (queue_reloaded _ time outcome).trans idle.empty
    have whole : stored.modifyEntry id Entry.release =
        ((u.later time).modifyEntry id (s.swept (some (time, outcome)))).setPhase t p := by
      change (((u.later time).modifyEntry id _).modifyEntry id _
        |>.modifyEntry id _).setPhase t p = _
      rw [State.modifyEntry_modifyEntry, State.modifyEntry_modifyEntry,
        State.modifyEntry_congr (s := u.later time) there
          (idle.release_reloaded stays due t time outcome)]
    simp [State.release, own, empty, whole]
  rw [endRefresh_eq]
  change Effect.andThen (Effect.andThen (stored, _) (·.release id)) _ = _
  simp only [Effect.andThen, opened, State.sweepOver_setPhase, List.append_nil]

end Ahead

theorem mem_listedIds {s : State κ α ε} {id : Nat} :
    id ∈ s.listedIds ↔ ∃ e, s.entries[id]? = some e ∧ e.listed = true := by
  rw [State.listedIds, List.mem_filter, List.mem_range]
  cases here : s.entries[id]? with
  | none => simp
  | some e =>
    have inside := (List.getElem?_eq_some_iff.1 here).1
    simp [inside]

theorem ahead_of_nobody {s : State κ α ε} (order : Orderly s) (nobody : s.tasks = [])
    {ids : List Nat} (listing : ids.Perm s.listedIds) : Ahead s s ids where
  settings := rfl
  nobody := nobody
  once := listing.nodup_iff.2 (List.nodup_range.filter _)
  still := by
    intro id member
    obtain ⟨e, here, listed⟩ := mem_listedIds.1 (listing.mem_iff.1 member)
    have free := State.free_of_nobody order nobody here
    exact ⟨e, here, here, listed, free, order.free id e here free⟩

theorem swept_of_unlisted {s : State κ α ε} {e : Entry κ α ε} (gone : e.listed = false)
    (answer : Option (Nat × Except ε α)) : s.swept answer e = e := by
  simp [State.swept, State.purges, State.reloads, Entry.held, gone]

theorem mapIdx_modify {β : Type} (l : List β) {id : Nat} {rest : List Nat} (fresh : id ∉ rest)
    {f : β → β} {g : Nat → β → β} (own : ∀ b, l[id]? = some b → f b = g id b) :
    ((l.modify id f).mapIdx fun j b => if j ∈ rest then g j b else b) =
      l.mapIdx fun j b => if j ∈ id :: rest then g j b else b := by
  refine List.ext_getElem? fun j => ?_
  rw [List.getElem?_mapIdx, List.getElem?_mapIdx, List.getElem?_modify]
  cases here : l[j]? with
  | none => rfl
  | some b =>
    by_cases at_id : id = j
    · subst at_id
      simp [fresh, own b here]
    · have apart : j ≠ id := fun same => at_id same.symm
      simp [at_id, apart]

/-- How a sweep that began in a state goes over the entries before it in a later one: the calls
    that are answered, what is to be seen, and what is left when it has ended. -/
structure SweepCourse (s u s' : State κ α ε) (t : TaskId) (order : List Nat)
    (answer : Nat → Option (Nat × Except ε α)) (answers : List (Nat × Except ε α))
    (shown : List (Signal κ α ε)) : Prop where
  calls : answers.map some = (order.filter fun id => s.entries[id]?.any s.reloads).map answer
  shown : shown =
    (order.flatMap fun id => s.entries[id]?.toList.flatMap (s.sweepShows t (answer id))) ++
      [.sized s'.size, .finished t .swept]
  nobody : s'.tasks = []
  entries : s'.entries = u.entries.mapIdx fun id e =>
    if id ∈ order then s.swept (answer id) e else e

namespace SweepCourse

variable {s u u' s' : State κ α ε} {t : TaskId} {id : Nat} {rest order : List Nat}
  {answer answer' : Nat → Option (Nat × Except ε α)} {answers : List (Nat × Except ε α)}
  {shown : List (Signal κ α ε)} {e : Entry κ α ε}

theorem congr (course : SweepCourse s u s' t order answer answers shown)
    (same : ∀ j ∈ order, answer j = answer' j) :
    SweepCourse s u s' t order answer' answers shown where
  calls := course.calls.trans
    (List.map_congr_left fun j member => same j (List.mem_filter.1 member).1)
  shown := by
    rw [course.shown]
    exact congrArg (· ++ _) (List.flatMap_congr fun j member => by rw [same j member])
  nobody := course.nobody
  entries := by
    rw [course.entries]
    refine congrArg (u.entries.mapIdx ·) (funext fun j => funext fun b => ?_)
    split
    · rename_i member
      rw [same j member]
    · rfl

theorem cons (course : SweepCourse s u' s' t rest answer answers shown)
    (mine : List (Nat × Except ε α)) (fresh : id ∉ rest)
    (before : s.entries[id]? = some e) (here : u.entries[id]? = some e)
    {f : Entry κ α ε → Entry κ α ε} (done : u'.entries = u.entries.modify id f)
    {own : Option (Nat × Except ε α)} (made : f e = s.swept own e)
    (called : mine.map some = if s.reloads e then [own] else []) :
    SweepCourse s u s' t (id :: rest) (Function.update answer id own) (mine ++ answers)
      (s.sweepShows t own e ++ shown) := by
  have self : Function.update answer id own id = own := Function.update_self id own answer
  have later : SweepCourse s u' s' t rest (Function.update answer id own) answers shown := by
    refine course.congr fun j member => ?_
    have apart : j ≠ id := by
      rintro rfl
      exact fresh member
    exact (Function.update_of_ne apart own answer).symm
  constructor
  · rw [List.map_append, called, later.calls, List.filter_cons, before, Option.any_some]
    split
    · rw [List.map_cons, self]
      rfl
    · rfl
  · rw [later.shown, List.flatMap_cons, before, Option.toList_some, List.flatMap_singleton, self,
      List.append_assoc]
  · exact later.nobody
  · rw [later.entries, done]
    refine mapIdx_modify u.entries fresh fun b there => ?_
    cases here.symm.trans there
    rw [self]
    exact made

end SweepCourse

section Runs

variable [DecidableEq κ] {s u w s' : State κ α ε} {t : TaskId} {actions : List (Action κ α ε)}
  {shown : List (Signal κ α ε)}

theorem run_of_idle (idle : u.phase? t = none) (attends : ∀ a ∈ actions, a.Attends t)
    (ran : run? u actions = some (s', shown)) :
    s'.tasks = u.tasks ∧ s'.entries = u.entries ∧ shown = [] ∧
      u.collect State.answer actions = [] := by
  induction actions generalizing u shown with
  | nil =>
    cases ran
    exact ⟨rfl, rfl, rfl, rfl⟩
  | cons a rest ih =>
    obtain ⟨u₁, first, more, step, others, rfl⟩ := run_cons ran
    have later : ∀ b ∈ rest, b.Attends t :=
      fun b member => attends b (List.mem_cons_of_mem a member)
    rw [collect_of_step step]
    cases attends a List.mem_cons_self with
    | pause ms =>
      cases step
      exact ih (u := u.later (u.now + ms)) idle later others
    | answer outcome => simp [step?, idle] at step

theorem step_reloading {id : Nat} {e : Entry κ α ε} (here : u.entries[id]? = some e) (t : TaskId)
    (rest : List Nat) (began : Nat) (outcome : Except ε α) :
    step? (u.reloading t id rest began) (.loaded t outcome) =
      some ((u.reloading t id rest began).endRefresh t id rest began e.key outcome) := by
  have phase : (u.reloading t id rest began).phase? t = some (.refreshing id rest began) := by
    simp [State.reloading]
  have there : (u.reloading t id rest began).entries[id]? = some (e.acquire t) :=
    State.modifyEntry_of_getElem? here (·.acquire t)
  simp only [step?, Option.bind_eq_bind, phase, Option.bind_some, Phase.entry, there]
  rfl

theorem run_reloading {id began : Nat} {rest : List Nat} {e : Entry κ α ε}
    (here : u.entries[id]? = some e) (attends : ∀ a ∈ actions, a.Attends t)
    (ran : run? (u.reloading t id rest began) actions = some (s', shown))
    (ended : s'.phase? t = none) :
    ∃ (time : Nat) (outcome : Except ε α) (remain : List (Action κ α ε))
      (more : List (Signal κ α ε)), (∀ a ∈ remain, a.Attends t) ∧
      let effect := ((u.reloading t id rest began).later time).endRefresh t id rest began e.key
        outcome
      run? effect.1 remain = some (s', more) ∧ shown = effect.2 ++ more ∧
        (u.reloading t id rest began).collect State.answer actions =
          (time, outcome) :: effect.1.collect State.answer remain := by
  induction actions generalizing u shown with
  | nil =>
    cases ran
    simp [State.reloading] at ended
  | cons a remain ih =>
    obtain ⟨u₁, first, more, step, others, rfl⟩ := run_cons ran
    have later : ∀ b ∈ remain, b.Attends t :=
      fun b member => attends b (List.mem_cons_of_mem a member)
    rw [collect_of_step step]
    cases attends a List.mem_cons_self with
    | pause ms =>
      cases step
      exact ih (u := u.later (u.now + ms)) here later others
    | answer outcome =>
      have same := Option.some.inj ((step_reloading here t rest began outcome).symm.trans step)
      refine ⟨(u.reloading t id rest began).now, outcome, remain, more, later, ?_⟩
      dsimp only
      rw [State.later_now, same]
      exact ⟨others, rfl, rfl⟩

/-- A sweep goes over the entries before it, by the state in which it began, and ends. -/
theorem Ahead.course {order : List Nat} (ahead : Ahead s u order)
    (attends : ∀ a ∈ actions, a.Attends t)
    (ran : run? (u.sweepOver t s.now order).1 actions = some (s', shown))
    (ended : s'.phase? t = none) :
    ∃ answer, SweepCourse s u s' t order answer
      ((u.sweepOver t s.now order).1.collect State.answer actions)
      ((u.sweepOver t s.now order).2 ++ shown) := by
  induction order generalizing u actions shown with
  | nil =>
    have idle : (u.dropTask t).phase? t = none := by simp
    have gone : (u.dropTask t).tasks = [] := (State.lone_of_nobody ahead.nobody t).dropTask
    obtain ⟨tasks, entries, rfl, silent⟩ := run_of_idle (u := u.dropTask t) idle attends ran
    have size : s'.size = u.size := congrArg (List.countP Entry.held) entries
    refine ⟨fun _ => none, congrArg (List.map some) silent, ?_, tasks.trans gone, ?_⟩
    · rw [size]
      rfl
    · refine entries.trans (List.ext_getElem? fun j => ?_)
      simp
  | cons id rest ih =>
    obtain ⟨e, before, here, idle⟩ := ahead.still id List.mem_cons_self
    have fresh : id ∉ rest := (List.nodup_cons.1 ahead.once).1
    rw [ahead.sweepOver_cons before t] at ran ⊢
    by_cases purged : s.purges e = true
    · have stays : s.reloads e = false := by simp [State.reloads, purged]
      have made : e.detach = s.swept none e := by
        rw [State.swept, if_pos purged]
        rfl
      have shows : s.sweepShows t none e = [.expired e.key] := by
        rw [State.sweepShows, if_pos purged]
      rw [if_pos purged] at ran ⊢
      obtain ⟨answer, course⟩ := ih (ahead.modifyEntry u.now Entry.detach) attends ran
      have whole := course.cons [] fresh before here rfl made (by rw [stays]; rfl)
      rw [shows] at whole
      exact ⟨_, whole⟩
    · by_cases due : s.reloads e = true
      · rw [if_neg purged, if_pos due] at ran ⊢
        obtain ⟨time, outcome, remain, more, others, onward, told, answers⟩ :=
          run_reloading here attends ran ended
        have stays := Bool.eq_false_iff.2 purged
        rw [ahead.endRefresh before stays due time outcome] at onward told answers
        obtain ⟨answer, course⟩ := ih (ahead.modifyEntry time _) others onward
        have shows : s.sweepShows t (some (time, outcome)) e =
            [.began t e.key, .refreshed e.key outcome.isOk] := by
          rw [State.sweepShows, if_neg purged, if_pos due]
          rfl
        have whole := course.cons (u := u) [(time, outcome)] fresh before here rfl rfl
          (by rw [if_pos due]; rfl)
        rw [shows] at whole
        rw [told, answers]
        exact ⟨_, whole⟩
      · have young : s.reloads e = false := Bool.eq_false_iff.2 due
        have made : e = s.swept none e := by
          rw [State.swept, if_neg purged, if_neg due]
        have shows : s.sweepShows t none e = [] := by
          rw [State.sweepShows, if_neg purged, if_neg due]
        rw [if_neg purged, if_neg due] at ran ⊢
        obtain ⟨answer, course⟩ := ih (ahead.behind rfl ahead.nobody fun _ _ => rfl) attends ran
        have whole := course.cons (f := fun e => e) [] fresh before here
          (List.modify_id id u.entries).symm made (by rw [young]; rfl)
        rw [shows] at whole
        exact ⟨_, whole⟩

theorem Ahead.ends {order : List Nat} (ahead : Ahead s u order) {answers : List (Nat × Except ε α)}
    (enough : answers.length = (order.filter fun id => s.entries[id]?.any s.reloads).length) :
    ∃ s' shown, s'.phase? t = none ∧ run? (u.sweepOver t s.now order).1
      (answers.flatMap fun a => [.advance a.1, .loaded t a.2]) = some (s', shown) := by
  induction order generalizing u answers with
  | nil =>
    cases List.length_eq_zero_iff.1 enough
    exact ⟨u.dropTask t, [], by simp, rfl⟩
  | cons id rest ih =>
    obtain ⟨e, before, here, idle⟩ := ahead.still id List.mem_cons_self
    rw [List.filter_cons, before, Option.any_some] at enough
    rw [ahead.sweepOver_cons before t]
    by_cases purged : s.purges e = true
    · have stays : ¬ s.reloads e = true := by simp [State.reloads, purged]
      rw [if_neg stays] at enough
      rw [if_pos purged]
      exact ih (ahead.modifyEntry u.now Entry.detach) enough
    · rw [if_neg purged]
      by_cases due : s.reloads e = true
      · rw [if_pos due] at enough ⊢
        obtain ⟨⟨ms, outcome⟩, others, rfl⟩ := List.exists_cons_of_length_eq_add_one enough
        have fewer := Nat.succ.inj enough
        let time := u.now + ms
        obtain ⟨s', shown, idle, ran⟩ :=
          ih (ahead.modifyEntry time (s.swept (some (time, outcome)))) fewer
        have step := (step_reloading (u := u.later time) here t rest s.now outcome).trans
          (congrArg some (ahead.endRefresh before (Bool.eq_false_iff.2 purged) due time outcome))
        exact ⟨s', _, idle, run_of_step (a := .advance ms) rfl (run_of_step step ran)⟩
      · rw [if_neg due] at enough ⊢
        exact ih (ahead.behind rfl ahead.nobody fun _ _ => rfl) enough

/-- Whatever has been done with a cache before, where no task is left a sweep takes out of the table
    just the entries whose last use is longer ago than allowed when it begins, and calls the loader
    just once for each other that has a value whose last load is. All else stays as it is, the last
    use of what it has reloaded too, and it comes to its end however the calls are answered. -/
theorem lone_sweep {settings : Settings} {now : Nat} {before : List (Action κ α ε)}
    {s : State κ α ε} {seen : List (Signal κ α ε)}
    (reached : run? { settings, now } before = some (s, seen)) (nobody : s.tasks = [])
    {order : List Nat} (listing : order.Perm s.listedIds) (t : TaskId) :
    let start : State κ α ε := { settings, now }
    let due := order.filter fun id => s.entries[id]?.any s.reloads
    s.settings = settings ∧ Timed (start.lastUse before) (start.lastLoad before) s ∧
    (∀ (actions : List (Action κ α ε)) (s' : State κ α ε) (shown : List (Signal κ α ε)),
      (∀ a ∈ actions, a.Attends t) →
      run? s (.sweep t order :: actions) = some (s', shown) → s'.phase? t = none →
        ∃ answer : Nat → Option (Nat × Except ε α),
          (s.collect State.answer (.sweep t order :: actions)).map some = due.map answer ∧
          shown =
            (order.flatMap fun id => s.entries[id]?.toList.flatMap (s.sweepShows t (answer id))) ++
              [.sized s'.size, .finished t .swept] ∧
          s'.tasks = [] ∧ s'.entries = s.entries.mapIdx fun id e => s.swept (answer id) e) ∧
    ∀ answers : List (Nat × Except ε α), answers.length = due.length →
      ∃ s' shown, s'.phase? t = none ∧ run? s (.sweep t order ::
        answers.flatMap fun a => [.advance a.1, .loaded t a.2]) = some (s', shown) := by
  intro start due
  have ahead := ahead_of_nobody (run_orderly (orderly_initial settings now) reached) nobody listing
  have step : step? s (.sweep t order) = some (s.sweepOver t s.now order) := by
    simp [step?, State.phase?_of_nobody nobody, List.isPerm_iff.2 listing]
  refine ⟨run_settings reached, run_timed reached, ?_, ?_⟩
  · intro actions s' shown attends ran ended
    obtain ⟨s₁, first, more, taken, others, rfl⟩ := run_cons ran
    have same := Option.some.inj (step.symm.trans taken)
    obtain ⟨answer, course⟩ := ahead.course attends (by rw [same]; exact others) ended
    rw [same] at course
    refine ⟨answer, ?_, course.shown, course.nobody, ?_⟩
    · rw [collect_of_step taken]
      exact course.calls
    · refine course.entries.trans (List.ext_getElem? fun id => ?_)
      rw [List.getElem?_mapIdx, List.getElem?_mapIdx]
      refine Option.map_congr fun e here => ?_
      split
      · rfl
      · rename_i absent
        have gone : e.listed = false := by
          refine Bool.eq_false_iff.2 fun listed => absent ?_
          exact listing.mem_iff.2 (mem_listedIds.2 ⟨e, here, listed⟩)
        exact (swept_of_unlisted gone (answer id)).symm
  · intro answers enough
    obtain ⟨s', shown, idle, ran⟩ := ahead.ends (t := t) enough
    exact ⟨s', _, idle, run_of_step step ran⟩

end Runs

/-- Four keys are put, the last of them later than the others, and two are asked for once more. -/
def fourKeys : List (Action Nat Nat Unit) :=
  [.put 0 10, .put 1 11, .put 2 12, .advance 4, .get (.request 1) 1, .get (.request 1) 2, .put 3 13,
    .advance 3]

/-- The first key leaves the table. Two others are reloaded, one in vain, while so much time passes
    that the last key would be due as well if it were judged anew. -/
theorem slow_sweep :
    let start : State Nat Nat Unit := { settings := ⟨some 3, some 5, 1000, false⟩ }
    let t : TaskId := .request 0
    ∃ s s' seen shown, run? start fourKeys = some (s, seen) ∧ s.tasks = [] ∧
      [2, 0, 3, 1].Perm s.listedIds ∧
      run? s [.sweep t [2, 0, 3, 1], .advance 2, .loaded t (.error ()), .advance 10,
        .loaded t (.ok 21)] = some (s', shown) ∧ s'.tasks = [] ∧
      s'.entries = [
        { key := 0, listed := false, value := some 10, loadedAt := 0, usedAt := 0 },
        { key := 1, value := some 21, loadedAt := 19, usedAt := 4 },
        { key := 2, value := some 12, loadedAt := 0, usedAt := 4 },
        { key := 3, value := some 13, loadedAt := 4, usedAt := 4 }] := by
  let start : State Nat Nat Unit := { settings := ⟨some 3, some 5, 1000, false⟩ }
  let t : TaskId := .request 0
  let s : State Nat Nat Unit := { start with
    now := 7
    entries := [
      { key := 0, value := some 10, loadedAt := 0, usedAt := 0 },
      { key := 1, value := some 11, loadedAt := 0, usedAt := 4 },
      { key := 2, value := some 12, loadedAt := 0, usedAt := 4 },
      { key := 3, value := some 13, loadedAt := 4, usedAt := 4 }] }
  have reached : run? start fourKeys = some (s, [.sized 1, .sized 2, .sized 3,
    .finished (.request 1) (.got 11), .finished (.request 1) (.got 12), .sized 4]) := rfl
  have listing : [2, 0, 3, 1].Perm s.listedIds := List.isPerm_iff.1 rfl
  obtain ⟨_, _, goes, ends⟩ := lone_sweep reached rfl listing t
  obtain ⟨s', shown, ended, ran⟩ := ends [(2, .error ()), (10, .ok 21)] rfl
  obtain ⟨answer, calls, _, nobody, entries⟩ :=
    goes [.advance 2, .loaded t (.error ()), .advance 10, .loaded t (.ok 21)] s' shown
      (by simp [Action.Attends.pause, Action.Attends.answer]) ran ended
  have told : [some (9, .error ()), some (19, .ok 21)] = [answer 2, answer 1] := calls
  obtain ⟨second, first⟩ : some (9, .error ()) = answer 2 ∧ some (19, .ok 21) = answer 1 := by
    simpa using told
  refine ⟨s, s', _, shown, reached, rfl, listing, ran, nobody, entries.trans ?_⟩
  change [s.swept (answer 0) _, s.swept (answer 1) _, s.swept (answer 2) _,
    s.swept (answer 3) _] = _
  rw [← first, ← second]
  rfl

end SingleFlight
end MetricGateway
