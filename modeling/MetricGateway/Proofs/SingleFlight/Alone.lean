import MetricGateway.Proofs.SingleFlight.Calls
import MetricGateway.Proofs.SingleFlight.Held
import MetricGateway.Proofs.SingleFlight.Progress

/- A single-flight cache with one task in it. Nobody stands in line behind it, so that each of its
   steps ends it or leaves it alone with a call that has begun last. -/
namespace MetricGateway
namespace SingleFlight

variable {κ α ε : Type}

def Signal.stirs : Signal κ α ε → Bool
  | .began .. | .granted _ | .finished (.refresher _) _ => true
  | .finished (.request _) _ | .sized _ | .expired _ | .refreshed .. => false

namespace Effect

/-- How the only task comes out of an effect: it has ended, or it waits for a call of its own that
    has begun last, with a key and in a phase of some kind. -/
inductive Alone (effect : Effect κ α ε) (t : TaskId) (kind : κ → Phase κ → Prop) : Prop where
  | done (r : Result α ε) (nobody : effect.1.tasks = [])
      (shown : effect.2.filter Signal.stirs = [Signal.finished t r].filter Signal.stirs)
  | calls (key : κ) (p : Phase κ) (only : effect.1.tasks = [(t, p)])
      (shown : effect.2.filter Signal.stirs = [.began t key]) (fits : kind key p)

variable {effect : Effect κ α ε} {t : TaskId} {kind : κ → Phase κ → Prop}

theorem Alone.behind {f : State κ α ε → Effect κ α ε} (quiet : effect.2.filter Signal.stirs = [])
    (alone : (f effect.1).Alone t kind) : (effect.andThen f).Alone t kind := by
  have same : (effect.andThen f).2.filter Signal.stirs = (f effect.1).2.filter Signal.stirs := by
    rw [andThen, List.filter_append, quiet, List.nil_append]
  cases alone with
  | done r nobody shown => exact .done r nobody (same.trans shown)
  | calls key p only shown fits => exact .calls key p only (same.trans shown) fits

theorem Alone.mono {kind' : κ → Phase κ → Prop} (alone : effect.Alone t kind)
    (more : ∀ key p, kind key p → kind' key p) : effect.Alone t kind' := by
  cases alone with
  | done r nobody shown => exact .done r nobody shown
  | calls key p only shown fits => exact .calls key p only shown (more key p fits)

end Effect

namespace State

variable {s : State κ α ε} {t : TaskId}

def Lone (s : State κ α ε) (t : TaskId) : Prop := ∀ task ∈ s.tasks, task.1 = t

theorem lone_of_nobody (nobody : s.tasks = []) (t : TaskId) : s.Lone t := by
  intro task member
  rw [nobody] at member
  cases member

theorem phase?_of_nobody (nobody : s.tasks = []) (t : TaskId) : s.phase? t = none := by
  rw [phase?, nobody, List.lookup_nil]

section Only

variable {p : Phase κ} (only : s.tasks = [(t, p)])

include only

theorem lone_of_only : s.Lone t := by
  intro task member
  rw [only, List.mem_singleton] at member
  rw [member]

theorem phase?_of_only : s.phase? t = some p := by
  rw [phase?, only, List.lookup_cons_self]

end Only

theorem Lone.dropTask (lone : s.Lone t) : (s.dropTask t).tasks = [] := by
  refine List.filter_eq_nil_iff.2 fun task member => ?_
  simp [lone task member]

theorem Lone.setPhase (lone : s.Lone t) (p : Phase κ) : (s.setPhase t p).tasks = [(t, p)] := by
  unfold State.setPhase
  rw [lone.dropTask, List.nil_append]

theorem alone_finish (lone : s.Lone t) (r : Result α ε) (kind : κ → Phase κ → Prop) :
    (s.finish t r).Alone t kind :=
  .done r lone.dropTask rfl

theorem alone_sweepOver (lone : s.Lone t) (began : Nat) (order : List Nat) :
    (s.sweepOver t began order).Alone t fun _ p =>
      ∃ id rest, p = .refreshing id rest began ∧ rest.length < order.length := by
  induction order generalizing s with
  | nil => exact .behind (f := (·.finish t .swept)) rfl (alone_finish lone .swept _)
  | cons id rest ih =>
    have later : ∀ {effect : Effect κ α ε},
        effect.Alone t (fun _ p => ∃ id more, p = .refreshing id more began ∧
          more.length < rest.length) →
        effect.Alone t fun _ p => ∃ id more, p = .refreshing id more began ∧
          more.length < (id :: rest).length := by
      intro effect alone
      refine alone.mono fun _ p ⟨next, more, same, fewer⟩ => ⟨next, more, same, ?_⟩
      rw [List.length_cons]
      omega
    unfold State.sweepOver
    split
    · exact later (ih lone)
    · rename_i e here
      split
      · exact later (ih lone)
      · split
        · split
          · exact .behind (f := (·.sweepOver t began rest)) rfl (later (ih lone))
          · exact later (ih lone)
        · split
          · exact .calls e.key _ (Lone.setPhase lone _) rfl ⟨id, rest, rfl, by simp⟩
          · exact later (ih lone)

theorem length_sweepOver (s : State κ α ε) (t : TaskId) (began : Nat) (order : List Nat) :
    (s.sweepOver t began order).1.entries.length = s.entries.length := by
  induction order generalizing s with
  | nil => rfl
  | cons id rest ih =>
    unfold State.sweepOver
    split
    · exact ih s
    · split
      · exact ih s
      · split
        · split
          · exact (ih _).trans (List.length_modify ..)
          · exact ih s
        · split
          · exact List.length_modify ..
          · exact ih s

theorem length_endRefresh (s : State κ α ε) (t : TaskId) (id : Nat) (rest : List Nat) (began : Nat)
    (key : κ) (outcome : Except ε α) :
    (s.endRefresh t id rest began key outcome).1.entries.length = s.entries.length := by
  refine (length_sweepOver _ t began rest).trans ((List.length_modify ..).trans ?_)
  cases outcome with
  | ok value => exact List.length_modify ..
  | error e => rfl

theorem length_listedIds (s : State κ α ε) : s.listedIds.length ≤ s.entries.length :=
  Nat.le_trans (List.length_filter_le ..) (Nat.le_of_eq List.length_range)

theorem queue_of_lone (order : Orderly s) (lone : s.Lone t) {id : Nat} {e : Entry κ α ε}
    (here : s.entries[id]? = some e) (holds : e.holder = some t) : e.queue = [] := by
  have once := order.nodup id e here
  rw [Entry.gate, holds, Option.toList_some, List.singleton_append, List.nodup_cons] at once
  refine List.eq_nil_iff_forall_not_mem.2 fun u member => ?_
  obtain ⟨p, phase, _⟩ := order.waiting id e u here (List.mem_append_right _ member)
  obtain ⟨before, after, split, _⟩ := List.lookup_eq_some_iff.1 phase
  have own : u = t := lone (u, p) (split ▸ List.mem_append_right _ List.mem_cons_self)
  exact once.1 (own ▸ member)

theorem entry_of_only (order : Orderly s) {p : Phase κ} (only : s.tasks = [(t, p)])
    (load : p.isLoad = true) : ∃ e, s.entries[p.entry]? = some e ∧ e.queue = [] := by
  obtain ⟨e, here, holds⟩ := order.holder_of_load (phase?_of_only only) load
  exact ⟨e, here, queue_of_lone order (lone_of_only only) here holds⟩

theorem free_of_nobody (order : Orderly s) (nobody : s.tasks = []) {id : Nat} {e : Entry κ α ε}
    (here : s.entries[id]? = some e) : e.holder = none := by
  cases holds : e.holder with
  | none => rfl
  | some u =>
    obtain ⟨p, phase, _⟩ := order.phase_of_holder here holds
    rw [phase?, nobody] at phase
    cases phase

theorem silent_release {id : Nat} {e : Entry κ α ε} (here : s.entries[id]? = some e)
    (empty : e.queue = []) : (s.release id).2 = [] := by
  simp [release, here, empty]

theorem alone_finish_release (lone : s.Lone t) {id : Nat} {e : Entry κ α ε}
    (here : s.entries[id]? = some e) (empty : e.queue = []) (r : Result α ε)
    (kind : κ → Phase κ → Prop) : (Effect.andThen (s.finish t r) (·.release id)).Alone t kind := by
  refine .done r lone.dropTask ?_
  have silent : ((s.dropTask t).release id).2 = [] := silent_release here empty
  simp [Effect.andThen, finish, silent]

theorem alone_endLoad (lone : s.Lone t) {id : Nat} {e : Entry κ α ε}
    (here : s.entries[id]? = some e) (empty : e.queue = []) (outcome : Except ε α)
    (kind : κ → Phase κ → Prop) : (s.endLoad t id outcome).Alone t kind := by
  cases outcome with
  | ok value =>
    have there := modifyEntry_of_getElem? here (·.install s.now true value)
    exact .behind (f := fun s => Effect.andThen (s.finish t (.got value)) (·.release id)) rfl
      (alone_finish_release (s := s.modifyEntry id _) lone there empty _ kind)
  | error error =>
    have there := modifyEntry_of_getElem? here fun e => (e.fail error).detachIfEmpty
    exact alone_finish_release (s := s.modifyEntry id _) lone there empty _ kind

theorem alone_endRefresh (lone : s.Lone t) {id : Nat} {e : Entry κ α ε}
    (here : s.entries[id]? = some e) (empty : e.queue = []) (rest : List Nat) (began : Nat)
    (key : κ) (outcome : Except ε α) :
    (s.endRefresh t id rest began key outcome).Alone t fun _ p =>
      ∃ id more, p = .refreshing id more began ∧ more.length < rest.length := by
  cases outcome with
  | ok value =>
    have there := modifyEntry_of_getElem? here (·.install s.now false value)
    refine .behind (f := (·.sweepOver t began rest)) ?_ (alone_sweepOver ?_ began rest)
    · simp [Effect.andThen, silent_release there empty, Signal.stirs]
    · exact lone
  | error error =>
    refine .behind (f := (·.sweepOver t began rest)) ?_ (alone_sweepOver ?_ began rest)
    · simp [Effect.andThen, silent_release here empty, Signal.stirs]
    · exact lone

theorem contains_claim [DecidableEq κ] (s : State κ α ε) (key other : κ) :
    (s.claim key).1.contains other = s.contains other := by
  unfold claim
  split
  · rfl
  · simp [addEntry, contains, Entry.held, Entry.vacant]

theorem alone_beginGet [DecidableEq κ] (order : Orderly s) (nobody : s.tasks = []) (t : TaskId)
    (key : κ) :
    s.contains key = true ∧ (s.beginGet t key).Alone t (fun _ _ => False) ∨
      s.contains key = false ∧ ∃ id, (s.beginGet t key).1.tasks = [(t, .getLoading key id)] ∧
        (s.beginGet t key).2.filter Signal.stirs = [.began t key] := by
  have still : (s.claim key).1.tasks = [] := (tasks_claim s key).trans nobody
  have kept : Orderly (s.claim key).1 := (byMoves_claim .clock s key).orderly order
  obtain ⟨e, here, listed, own⟩ := claim_listed s key
  have held := kept.contains_iff here listed
  rw [own, contains_claim] at held
  unfold beginGet
  generalize s.claim key = claimed at *
  obtain ⟨s₁, id⟩ := claimed
  have lone : s₁.Lone t := lone_of_nobody still t
  simp only [here, free_of_nobody kept still here]
  cases value : e.value with
  | some v =>
    refine Or.inl ⟨held.2 (by rw [value]; rfl), ?_⟩
    exact alone_finish (s := s₁.modifyEntry id _) lone (.got v) _
  | none =>
    refine Or.inr ⟨Bool.eq_false_iff.2 fun full => ?_, id, lone.setPhase _, rfl⟩
    rw [held, value] at full
    cases full

end State

theorem Move.now [DecidableEq κ] {who : Actor} {s s' : State κ α ε} {seen : List (Signal κ α ε)}
    (move : Move who s seen s') (calm : who ≠ .clock) : s'.now = s.now := by
  cases move with
  | pass => exact absurd rfl calm
  | quit =>
    rw [State.cancel]
    split <;> rfl
  | tell | add | touch | put | invalidate | store | fail | unlist | begin | queue | promote => rfl

theorem now_of_step [DecidableEq κ] {s : State κ α ε} {a : Action κ α ε} {effect : Effect κ α ε}
    (order : Orderly s) (step : step? s a = some effect) (calm : a.actor ≠ .clock) :
    effect.1.now = s.now :=
  Moves.keep (P := fun s' => s'.now = s.now) (fun move same => (move.now calm).trans same)
    (step_byMoves order step) rfl

end SingleFlight
end MetricGateway
