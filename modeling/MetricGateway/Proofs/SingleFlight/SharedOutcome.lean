import MetricGateway.Proofs.SingleFlight.Frame
import MetricGateway.Proofs.SingleFlight.Held

/- A get that comes while another get loads its key waits in line, calls no loader, and ends with
   the outcome of that load. Until the load ends its entry is empty and in the loader's hands;
   afterwards the outcome is all that those in line can read there. -/
namespace MetricGateway
namespace SingleFlight

variable {κ α ε : Type}

/-- The actions of runs in which nobody writes past the loader and nobody gives up. -/
def Action.calm : Action κ α ε → Bool
  | .put .. | .invalidateAll | .cancel _ => false
  | .get .. | .remove .. | .sweep .. | .resume _ | .loaded .. | .advance _ => true

def Action.endOf? (l : TaskId) : Action κ α ε → Option (Except ε α)
  | .loaded t outcome => if t = l then some outcome else none
  | _ => none

def Result.ofLoad : Except ε α → Result α ε
  | .ok value => .got value
  | .error error => .failed error

/-- A load's outcome stands in an entry, for those who saw it with `n` failures. -/
def Entry.Settled (n : Nat) (e : Entry κ α ε) : Except ε α → Prop
  | .ok value => e.value = some value
  | .error error => e.value = none ∧ e.listed = false ∧ e.failures ≠ n ∧ e.lastError = some error

structure Pending (l t : TaskId) (key : κ) (id n : Nat) (s : State κ α ε) : Prop where
  order : Orderly s
  loads : s.phase? l = some (.getLoading key id)
  waits : s.phase? t = some (.getQueued key id n)
  lacks : ∃ e, s.entries[id]? = some e ∧ e.value = none ∧ e.failures = n

structure Answered (t : TaskId) (key : κ) (id n : Nat) (outcome : Except ε α) (s : State κ α ε) :
    Prop where
  order : Orderly s
  waits : s.phase? t = some (.getQueued key id n)
  settled : ∃ e, s.entries[id]? = some e ∧ e.Settled n outcome
  unloaded : ∀ u p, s.phase? u = some p → p.entry = id → p.isLoad = false

theorem Entry.Settled.kept {n : Nat} {e e' : Entry κ α ε} {outcome : Except ε α}
    (settled : e.Settled n outcome) (keeps : e.Keeps e') : e'.Settled n outcome := by
  cases outcome with
  | ok value => exact keeps.value.trans settled
  | error error =>
    obtain ⟨empty, gone, failed, last⟩ := settled
    refine ⟨keeps.value.trans empty, ?_, keeps.failures ▸ failed, keeps.lastError.trans last⟩
    cases back : e'.listed with
    | false => rfl
    | true => exact absurd (keeps.listed back) (by simp [gone])

theorem Entry.Settled.shut {n : Nat} {e : Entry κ α ε} {outcome : Except ε α}
    (settled : e.Settled n outcome) : e.value.isSome = true ∨ e.listed = false := by
  cases outcome with
  | ok value =>
    have full : e.value = some value := settled
    exact Or.inl (by simp [full])
  | error error => exact Or.inr settled.2.1

theorem State.phase?_endLoad (s : State κ α ε) (t u : TaskId) (id : Nat) (outcome : Except ε α) :
    (s.endLoad t id outcome).1.phase? u = if u = t then none else s.phase? u := by
  cases outcome <;>
    simp [State.endLoad, Effect.andThen, State.finish, State.report, State.release]

theorem settled_endLoad {s : State κ α ε} {t : TaskId} {id : Nat} {e : Entry κ α ε}
    (here : s.entries[id]? = some e) (empty : e.value = none) (outcome : Except ε α) :
    ∃ e', (s.endLoad t id outcome).1.entries[id]? = some e' ∧ e'.Settled e.failures outcome := by
  cases outcome with
  | ok value =>
    have filled := State.modifyEntry_of_getElem? here (·.install s.now true value)
    exact ⟨_, State.modifyEntry_of_getElem? filled Entry.release, rfl⟩
  | error error =>
    have failed := State.modifyEntry_of_getElem? here fun e => (e.fail error).detachIfEmpty
    refine ⟨_, State.modifyEntry_of_getElem? failed Entry.release, empty, ?_, ?_, rfl⟩
    · simp [Entry.release, Entry.detachIfEmpty, Entry.fail, empty]
    · exact Nat.succ_ne_self e.failures

theorem Orderly.busy_of_waiting {s : State κ α ε} (order : Orderly s) {t : TaskId} {p : Phase κ}
    {e : Entry κ α ε} (phase : s.phase? t = some p) (here : s.entries[p.entry]? = some e) :
    t ∈ e.gate ∧ ∃ h, e.holder = some h := by
  obtain ⟨f, there, member, _⟩ := order.seated t p phase
  cases here.symm.trans there
  refine ⟨member, ?_⟩
  cases holder : e.holder with
  | some h => exact ⟨h, rfl⟩
  | none => simp [Entry.gate, holder, order.free _ e here holder] at member

theorem Action.calm_actor {a : Action κ α ε} (calm : a.calm = true) : a.actor ≠ .caller := by
  cases a <;> simp [Action.calm, Action.actor] at calm ⊢

variable [DecidableEq κ]

theorem step_of_waiting {s : State κ α ε} {a : Action κ α ε} {effect : Effect κ α ε}
    (step : step? s a = some effect) {t : TaskId} (acts : a.actor = .task t) {p : Phase κ}
    (phase : s.phase? t = some p) :
    (a = .resume t ∧ p.isLoad = false ∧ ∃ e, s.entries[p.entry]? = some e ∧ e.holder = some t) ∨
      (p.isLoad = true ∧ ∃ outcome, a = .loaded t outcome) ∨ a = .cancel t := by
  cases taken_of_step step with
  | get idle | remove idle | sweep idle =>
    cases acts
    cases idle.symm.trans phase
  | put | invalidateAll | advance => cases acts
  | resumeGet waits here holds | resumeRemove waits here holds =>
    cases acts
    cases waits.symm.trans phase
    exact Or.inl ⟨rfl, rfl, _, here, holds⟩
  | endLoad waits _ outcome | endRefresh waits _ outcome =>
    cases acts
    cases waits.symm.trans phase
    exact Or.inr (Or.inl ⟨rfl, outcome, rfl⟩)
  | cancel =>
    cases acts
    exact Or.inr (Or.inr rfl)

theorem step_loaded {s : State κ α ε} {t : TaskId} {key : κ} {id : Nat} {e : Entry κ α ε}
    (phase : s.phase? t = some (.getLoading key id)) (here : s.entries[id]? = some e)
    (outcome : Except ε α) : step? s (.loaded t outcome) = some (s.endLoad t id outcome) := by
  have entry : s.entries[(Phase.getLoading key id).entry]? = some e := here
  simp [step?, phase, entry]

theorem Pending.moved {who : Actor} {s s' : State κ α ε} {seen : List (Signal κ α ε)} {l t : TaskId}
    {key : κ} {id n : Nat} (pending : Pending l t key id n s) (moves : Moves who s seen s')
    (calm : who ≠ .caller) (loader : who ≠ .task l) (waiter : who ≠ .task t) :
    Pending l t key id n s' := by
  refine moves.keep (P := Pending l t key id n) ?_ pending
  intro s seen s' move pending
  obtain ⟨e, here, empty, failures⟩ := pending.lacks
  obtain ⟨_, _, holds⟩ := pending.order.getLoading_fits pending.loads here
  obtain ⟨e', there, keeps⟩ := move.content_kept calm here
    (pending.order.only_loader here holds loader)
  exact ⟨move_orderly move pending.order, (move.phase_of_other loader).trans pending.loads,
    (move.phase_of_other waiter).trans pending.waits,
    e', there, keeps.value.trans empty, keeps.failures.trans failures⟩

theorem Answered.moved {who : Actor} {s s' : State κ α ε} {seen : List (Signal κ α ε)} {t : TaskId}
    {key : κ} {id n : Nat} {outcome : Except ε α} (answered : Answered t key id n outcome s)
    (moves : Moves who s seen s') (calm : who ≠ .caller) (waiter : who ≠ .task t) :
    Answered t key id n outcome s' := by
  refine moves.keep (P := Answered t key id n outcome) ?_ answered
  intro s seen s' move answered
  obtain ⟨e, here, settled⟩ := answered.settled
  obtain ⟨_, h, holds⟩ := answered.order.busy_of_waiting answered.waits here
  have only : ∀ u p, s.phase? u = some p → p.entry = id → p.isLoad = true → who ≠ .task u := by
    intro u p phase at_id load
    rw [answered.unloaded u p phase at_id] at load
    cases load
  obtain ⟨e', there, keeps⟩ := move.content_kept calm here only
  exact ⟨move_orderly move answered.order, (move.phase_of_other waiter).trans answered.waits,
    ⟨e', there, settled.kept keeps⟩,
    move.unloaded here (by simp [holds]) settled.shut answered.unloaded⟩

theorem Pending.ended {s s' : State κ α ε} {seen : List (Signal κ α ε)} {l t : TaskId} {key : κ}
    {id n : Nat} (pending : Pending l t key id n s) {outcome : Except ε α}
    (step : step? s (.loaded l outcome) = some (s', seen)) : Answered t key id n outcome s' := by
  have apart : t ≠ l := by
    rintro rfl
    have both := pending.loads.symm.trans pending.waits
    cases both
  obtain ⟨e, here, empty, rfl⟩ := pending.lacks
  obtain ⟨_, _, holds⟩ := pending.order.getLoading_fits pending.loads here
  have ends := step_loaded pending.loads here outcome
  obtain rfl : (s.endLoad l id outcome).1 = s' :=
    congrArg Prod.fst (Option.some.inj (ends.symm.trans step))
  refine ⟨step_orderly pending.order ends, ?_, settled_endLoad here empty outcome, ?_⟩
  · rw [State.phase?_endLoad, if_neg apart]
    exact pending.waits
  · intro u p phase at_id
    rw [State.phase?_endLoad] at phase
    split at phase
    · cases phase
    · rename_i other
      cases load : p.isLoad with
      | false => rfl
      | true =>
        obtain ⟨f, there, held⟩ := pending.order.holder_of_load phase load
        rw [at_id] at there
        cases here.symm.trans there
        rw [holds] at held
        cases held
        exact absurd rfl other

theorem Pending.step {s s' : State κ α ε} {a : Action κ α ε} {seen : List (Signal κ α ε)}
    {l t : TaskId} {key : κ} {id n : Nat} (pending : Pending l t key id n s) (calm : a.calm = true)
    (step : step? s a = some (s', seen)) :
    (∀ signal ∈ seen, signal.own t = false) ∧
      match a.endOf? l with
      | none => Pending l t key id n s'
      | some outcome => Answered t key id n outcome s' := by
  have moves : Moves a.actor s seen s' := step_byMoves pending.order step
  obtain ⟨e, here, _⟩ := pending.lacks
  obtain ⟨_, _, holds⟩ := pending.order.getLoading_fits pending.loads here
  have apart : l ≠ t := by
    rintro rfl
    have both := pending.loads.symm.trans pending.waits
    cases both
  have waiter : a.actor ≠ .task t := by
    intro acts
    rcases step_of_waiting step acts pending.waits with ⟨_, _, f, there, held⟩ | ⟨load, _⟩ | rfl
    · cases here.symm.trans there
      rw [holds] at held
      exact apart (Option.some.inj held)
    · cases load
    · cases calm
  refine ⟨moves.own_eq_false waiter, ?_⟩
  by_cases acts : a.actor = .task l
  · rcases step_of_waiting step acts pending.loads with ⟨_, load, _⟩ | ⟨_, outcome, rfl⟩ | rfl
    · cases load
    · simpa [Action.endOf?] using pending.ended step
    · cases calm
  · have goes : a.endOf? l = none := by
      cases a with
      | loaded u outcome =>
        have other : u ≠ l := by
          rintro rfl
          exact acts rfl
        simp [Action.endOf?, other]
      | _ => rfl
    rw [goes]
    exact pending.moved moves (Action.calm_actor calm) acts waiter

theorem own_resumeGet {s : State κ α ε} {t : TaskId} {key : κ} {id n : Nat} {e : Entry κ α ε}
    {outcome : Except ε α} (settled : e.Settled n outcome) :
    (s.resumeGet t key id n e).2.find? (Signal.own t) = some (.finished t (.ofLoad outcome)) := by
  cases outcome with
  | ok value =>
    have full : e.value = some value := settled
    simp [State.resumeGet, full, Effect.andThen, State.serve, State.finish, Signal.own,
      Result.ofLoad]
  | error error =>
    obtain ⟨empty, _, failed, last⟩ := settled
    simp [State.resumeGet, empty, failed, last, Effect.andThen, State.finish, Signal.own,
      Result.ofLoad]

theorem Answered.resume {s : State κ α ε} {t : TaskId} {key : κ} {id n : Nat}
    {outcome : Except ε α} (answered : Answered t key id n outcome s) {e : Entry κ α ε}
    (here : s.entries[id]? = some e) (holds : e.holder = some t) :
    step? s (.resume t) = some (s.resumeGet t key id n e) := by
  have entry : s.entries[(Phase.getQueued key id n).entry]? = some e := here
  simp [step?, answered.waits, entry, holds]

theorem Answered.step {s s' : State κ α ε} {a : Action κ α ε} {seen : List (Signal κ α ε)}
    {t : TaskId} {key : κ} {id n : Nat} {outcome : Except ε α}
    (answered : Answered t key id n outcome s) (calm : a.calm = true)
    (step : step? s a = some (s', seen)) :
    seen.find? (Signal.own t) = some (.finished t (.ofLoad outcome)) ∨
      (∀ signal ∈ seen, signal.own t = false) ∧ Answered t key id n outcome s' := by
  have moves : Moves a.actor s seen s' := step_byMoves answered.order step
  obtain ⟨e, here, settled⟩ := answered.settled
  by_cases acts : a.actor = .task t
  · rcases step_of_waiting step acts answered.waits with ⟨rfl, _, f, there, holds⟩ | ⟨load, _⟩ | rfl
    · cases here.symm.trans there
      obtain rfl : (s.resumeGet t key id n e).2 = seen :=
        congrArg Prod.snd (Option.some.inj ((answered.resume here holds).symm.trans step))
      exact Or.inl (own_resumeGet settled)
    · cases load
    · cases calm
  · exact Or.inr ⟨moves.own_eq_false acts, answered.moved moves (Action.calm_actor calm) acts⟩

theorem getElem?_beginGet_of_unlisted {s : State κ α ε} {id : Nat} {e : Entry κ α ε}
    (here : s.entries[id]? = some e) (gone : e.listed = false) (t : TaskId) (key : κ) :
    (s.beginGet t key).1.entries[id]? = some e := by
  obtain ⟨f, there, listed, _⟩ := State.claim_listed s key
  have still := State.getElem?_claim here key
  have apart : id ≠ (s.claim key).2 := by
    intro same
    rw [← same, still] at there
    cases there
    rw [gone] at listed
    cases listed
  have kept : ∀ g, ((s.claim key).1.modifyEntry (s.claim key).2 g).entries[id]? = some e := by
    intro g
    rw [State.getElem?_modifyEntry, if_neg apart, still]
  unfold State.beginGet
  simp only [there]
  split
  · exact kept _
  · exact kept _
  · exact kept _

theorem Answered.passes {s : State κ α ε} {t : TaskId} {key : κ} {id n : Nat}
    {outcome : Except ε α} (answered : Answered t key id n outcome s) {e : Entry κ α ε}
    (here : s.entries[id]? = some e) {h : TaskId} (holds : e.holder = some h) :
    ∃ s' seen e', step? s (.resume h) = some (s', seen) ∧ s'.entries[id]? = some e' ∧
      e.gate = h :: e'.gate := by
  obtain ⟨f, there, settled⟩ := answered.settled
  cases here.symm.trans there
  have gate := gate_release e holds
  obtain ⟨p, phase, at_id⟩ := answered.order.phase_of_holder here holds
  have line := answered.unloaded h p phase at_id
  have entry : s.entries[p.entry]? = some e := at_id.symm ▸ here
  cases p with
  | getLoading | refreshing => cases line
  | removeQueued asked place =>
    have same : id = place := at_id.symm
    subst same
    have step : step? s (.resume h) = some (s.completeRemove h id e) := by
      simp [step?, phase, entry, holds]
    have detached := State.modifyEntry_of_getElem? here Entry.detach
    have released := State.modifyEntry_of_getElem? detached Entry.release
    exact ⟨_, _, _, step, released, gate⟩
  | getQueued asked place failures =>
    have same : id = place := at_id.symm
    subst same
    have step : step? s (.resume h) = some (s.resumeGet h asked id failures e) := by
      simp [step?, phase, entry, holds]
    have resumed : ∃ e', (s.resumeGet h asked id failures e).1.entries[id]? = some e' ∧
        e.gate = h :: e'.gate := by
      unfold State.resumeGet
      cases value : e.value with
      | some v =>
        have touched := State.modifyEntry_of_getElem? here (·.touch s.now)
        exact ⟨_, State.modifyEntry_of_getElem? touched Entry.release, gate⟩
      | none =>
        have released := State.modifyEntry_of_getElem? here Entry.release
        have gone : e.listed = false := by simpa [value] using settled.shut
        have left : ((s.dropTask h).modifyEntry id Entry.release).entries[id]? = some e.release :=
          released
        simp only [gone, Bool.false_eq_true, if_false]
        split
        · exact ⟨_, released, gate⟩
        · exact ⟨_, getElem?_beginGet_of_unlisted left gone h asked, gate⟩
    obtain ⟨e', there, gate'⟩ := resumed
    exact ⟨_, _, e', step, there, gate'⟩

theorem Answered.finishes {t : TaskId} {key : κ} {id n : Nat} {outcome : Except ε α}
    {line rest : List TaskId} {s : State κ α ε} (answered : Answered t key id n outcome s)
    {e : Entry κ α ε} (here : s.entries[id]? = some e) (gate : e.gate = line ++ t :: rest) :
    ∃ s' seen, run? s ((line ++ [t]).map .resume) = some (s', seen) ∧
      seen.find? (Signal.own t) = some (.finished t (.ofLoad outcome)) := by
  induction line generalizing s e with
  | nil =>
    obtain ⟨f, there, settled⟩ := answered.settled
    cases here.symm.trans there
    obtain ⟨_, h, holds⟩ := answered.order.busy_of_waiting answered.waits here
    rw [gate_release e holds] at gate
    cases (List.cons.inj gate).1
    obtain ⟨s₁, seen, step, own⟩ : ∃ s₁ seen, step? s (.resume t) = some (s₁, seen) ∧
        seen.find? (Signal.own t) = some (.finished t (.ofLoad outcome)) :=
      ⟨_, _, answered.resume here holds, own_resumeGet settled⟩
    exact ⟨s₁, seen ++ [], run_of_step step rfl, by rw [List.append_nil, own]⟩
  | cons h line ih =>
    obtain ⟨_, u, holds⟩ := answered.order.busy_of_waiting answered.waits here
    have first : u = h := by
      rw [gate_release e holds] at gate
      exact (List.cons.inj gate).1
    subst first
    have apart : Actor.task u ≠ .task t := by
      rintro same
      cases same
      have distinct := answered.order.nodup id e here
      rw [gate] at distinct
      simp at distinct
    obtain ⟨s₁, first, e₁, step, there, gate₁⟩ := answered.passes here holds
    have moves : Moves (.task u) s first s₁ := step_byMoves answered.order step
    have later := answered.moved moves (by simp) apart
    have shorter : e₁.gate = line ++ t :: rest := (List.cons.inj (gate₁.symm.trans gate)).2
    obtain ⟨s', more, ran, own⟩ := ih later there shorter
    refine ⟨s', first ++ more, run_of_step step ran, ?_⟩
    rw [List.find?_append, own, List.find?_eq_none.2]
    · rfl
    · simpa using moves.own_eq_false apart

theorem Answered.run {actions : List (Action κ α ε)} {s s' : State κ α ε}
    {seen : List (Signal κ α ε)} {t : TaskId} {key : κ} {id n : Nat} {outcome : Except ε α}
    (answered : Answered t key id n outcome s) (calm : ∀ a ∈ actions, a.calm = true)
    (ran : run? s actions = some (s', seen)) :
    seen.find? (Signal.own t) = some (.finished t (.ofLoad outcome)) ∨
      seen.find? (Signal.own t) = none ∧ Answered t key id n outcome s' := by
  induction actions generalizing s seen with
  | nil => cases ran; exact Or.inr ⟨rfl, answered⟩
  | cons a rest ih =>
    obtain ⟨s₁, first, more, step, others, rfl⟩ := run_cons ran
    rw [List.find?_append]
    rcases answered.step (calm a List.mem_cons_self) step with own | ⟨silent, later⟩
    · exact Or.inl (by rw [own]; rfl)
    · have none_first : first.find? (Signal.own t) = none := by
        simpa [List.find?_eq_none] using silent
      rw [none_first]
      exact ih later (fun b member => calm b (List.mem_cons_of_mem a member)) others

theorem Pending.run {actions : List (Action κ α ε)} {s s' : State κ α ε}
    {seen : List (Signal κ α ε)} {l t : TaskId} {key : κ} {id n : Nat}
    (pending : Pending l t key id n s) (calm : ∀ a ∈ actions, a.calm = true)
    (ran : run? s actions = some (s', seen)) :
    match actions.findSome? (Action.endOf? l) with
    | none => seen.find? (Signal.own t) = none
    | some outcome =>
      seen.find? (Signal.own t) = some (.finished t (.ofLoad outcome)) ∨
        seen.find? (Signal.own t) = none ∧ Answered t key id n outcome s' := by
  induction actions generalizing s seen with
  | nil => cases ran; rfl
  | cons a rest ih =>
    obtain ⟨s₁, first, more, step, others, rfl⟩ := run_cons ran
    obtain ⟨silent, later⟩ := pending.step (calm a List.mem_cons_self) step
    have none_first : first.find? (Signal.own t) = none := by
      simpa [List.find?_eq_none] using silent
    have calm_rest : ∀ b ∈ rest, b.calm = true :=
      fun b member => calm b (List.mem_cons_of_mem a member)
    rw [List.find?_append, none_first, List.findSome?_cons]
    cases ends : a.endOf? l with
    | none =>
      rw [ends] at later
      exact ih later calm_rest others
    | some outcome =>
      rw [ends] at later
      exact later.run calm_rest others

theorem Orderly.pending_of_get {s s' : State κ α ε} {seen : List (Signal κ α ε)} (order : Orderly s)
    (unfilled : Unfilled s) {l t : TaskId} {key : κ} {id : Nat}
    (loading : s.phase? l = some (.getLoading key id))
    (step : step? s (.get t key) = some (s', seen)) :
    seen = [] ∧ ∃ n, Pending l t key id n s' := by
  obtain ⟨e, here, holds⟩ := order.holder_of_load loading rfl
  obtain ⟨own, listed, _⟩ := order.getLoading_fits loading here
  have empty := unfilled l key id e loading here
  change s.entries[id]? = some e at here
  have claimed : s.claim key = (s, id) := own ▸ order.claim_eq here listed
  obtain ⟨idle, begun⟩ := Option.ite_none_right_eq_some.1 step
  have line : s.beginGet t key =
      ((s.modifyEntry id (·.enqueue t)).setPhase t (.getQueued key id e.failures), []) := by
    simp [State.beginGet, claimed, here, empty, holds]
  rw [line] at begun
  cases begun
  have apart : l ≠ t := by
    rintro rfl
    simp [loading] at idle
  refine ⟨rfl, e.failures, step_orderly order step, ?_, by simp, ?_⟩
  · simpa [apart] using loading
  · exact ⟨_, State.modifyEntry_of_getElem? here (·.enqueue t), empty, rfl⟩

theorem step_unfilled {s s' : State κ α ε} {a : Action κ α ε} {seen : List (Signal κ α ε)}
    (order : Orderly s) (calm : a.calm = true) (step : step? s a = some (s', seen))
    (unfilled : Unfilled s) : Unfilled s' := by
  have moves : Moves a.actor s seen s' := step_byMoves order step
  have both : Orderly s' ∧ Unfilled s' := by
    refine moves.keep (P := fun s => Orderly s ∧ Unfilled s) ?_ ⟨order, unfilled⟩
    intro s seen s' move ⟨order, unfilled⟩
    exact ⟨move_orderly move order, move.unfilled order (Action.calm_actor calm) unfilled⟩
  exact both.2

/-- Whatever else goes on, a get that comes while another get loads its key begins no call: the
    first that is seen of it is its end, with the outcome of that load. From the load's end on
    nothing can keep it: those in line before it go on, and then it does. -/
theorem get_shares_outcome {settings : Settings} {now : Nat} {before after : List (Action κ α ε)}
    {s s' : State κ α ε} {seen₀ seen : List (Signal κ α ε)} {l t : TaskId} {key : κ} {id : Nat}
    (calm : ∀ a ∈ before ++ after, a.calm = true)
    (reached : run? { settings, now } before = some (s, seen₀))
    (loading : s.phase? l = some (.getLoading key id))
    (ran : run? s (.get t key :: after) = some (s', seen)) :
    match after.findSome? (Action.endOf? l) with
    | none => seen.find? (Signal.own t) = none
    | some outcome => ∃ (line : List TaskId) (s'' : State κ α ε) (more : List (Signal κ α ε)),
        run? s' (line.map .resume) = some (s'', more) ∧
        (seen ++ more).find? (Signal.own t) = some (.finished t (.ofLoad outcome)) := by
  obtain ⟨order, unfilled⟩ : Orderly s ∧ Unfilled s := by
    refine run_keep (P := Unfilled) (A := fun a => a.calm = true) step_unfilled
      (orderly_initial settings now) (fun a member => calm a (List.mem_append_left _ member))
      reached ?_
    intro t key id e phase
    simp [State.phase?] at phase
  obtain ⟨s₁, first, more, step, others, rfl⟩ := run_cons ran
  obtain ⟨rfl, n, pending⟩ := order.pending_of_get unfilled loading step
  have shared := pending.run (fun a member => calm a (List.mem_append_right _ member)) others
  rw [List.nil_append]
  cases ends : after.findSome? (Action.endOf? l) with
  | none =>
    rw [ends] at shared
    exact shared
  | some outcome =>
    rw [ends] at shared
    rcases shared with finished | ⟨silent, answered⟩
    · exact ⟨[], s', [], rfl, by rw [List.append_nil, finished]⟩
    · obtain ⟨e, here, _⟩ := answered.settled
      obtain ⟨member, _⟩ := answered.order.busy_of_waiting answered.waits here
      obtain ⟨line, rest, gate⟩ := List.append_of_mem member
      obtain ⟨s'', later, resumed, own⟩ := answered.finishes here gate
      exact ⟨line ++ [t], s'', later, resumed, by rw [List.find?_append, silent, own]; rfl⟩

theorem get_shares_failure_behind_remove :
    ∃ (s s' s'' : State Nat Nat Unit) (seen₀ seen more : List (Signal Nat Nat Unit))
        (line : List TaskId),
      run? { settings := ⟨none, none, 1000, false⟩ } [.get (.request 0) 7, .remove (.request 1) 7] =
          some (s, seen₀) ∧
        run? s [.get (.request 2) 7, .loaded (.request 0) (.error ())] = some (s', seen) ∧
        run? s' (line.map .resume) = some (s'', more) ∧
        (seen ++ more).find? (Signal.own (.request 2)) =
          some (.finished (.request 2) (.failed ())) := by
  let start : State Nat Nat Unit := { settings := ⟨none, none, 1000, false⟩ }
  let first := (run? start [.get (.request 0) 7, .remove (.request 1) 7]).get rfl
  let second := (run? first.1 [.get (.request 2) 7, .loaded (.request 0) (.error ())]).get rfl
  have reached : run? start [.get (.request 0) 7, .remove (.request 1) 7] =
      some (first.1, first.2) := rfl
  have ran : run? first.1 [.get (.request 2) 7, .loaded (.request 0) (.error ())] =
      some (second.1, second.2) := rfl
  obtain ⟨line, s'', more, resumed, own⟩ := get_shares_outcome (l := .request 0) (by decide) reached
    (show first.1.phase? (.request 0) = some (.getLoading 7 0) from rfl) ran
  exact ⟨first.1, second.1, s'', first.2, second.2, more, line, reached, ran, resumed, own⟩

end SingleFlight
end MetricGateway
