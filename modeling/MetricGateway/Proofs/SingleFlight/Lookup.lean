import MetricGateway.SingleFlight.Step

/- What the operations on a single-flight cache's state do to what can be looked up in it: the
   phase of a task, an entry by its index, and the tasks at an entry's gate. -/
namespace MetricGateway
namespace SingleFlight

variable {κ α ε : Type}

/-- The tasks at an entry's gate: the one that has it, then those in line. -/
def Entry.gate (e : Entry κ α ε) : List TaskId := e.holder.toList ++ e.queue

def Phase.isLoad : Phase κ → Bool
  | .getLoading .. | .refreshing .. => true
  | .getQueued .. | .removeQueued .. => false

namespace State

@[simp] theorem phase?_modifyEntry (s : State κ α ε) (id : Nat) (f : Entry κ α ε → Entry κ α ε)
    (t : TaskId) : (s.modifyEntry id f).phase? t = s.phase? t := rfl

@[simp] theorem phase?_addEntry (s : State κ α ε) (key : κ) (t : TaskId) :
    (s.addEntry key).phase? t = s.phase? t := rfl

@[simp] theorem entries_dropTask (s : State κ α ε) (t : TaskId) :
    (s.dropTask t).entries = s.entries := rfl

theorem lookup_filter_ne (tasks : List (TaskId × Phase κ)) (t u : TaskId) :
    (tasks.filter (·.1 ≠ t)).lookup u = if u = t then none else tasks.lookup u := by
  induction tasks with
  | nil => simp
  | cons task rest ih =>
    obtain ⟨v, p⟩ := task
    by_cases own : v = t
    · subst own
      by_cases same : u = v
      · simpa [same] using ih
      · have other : (u == v) = false := by simpa using same
        simpa [List.lookup_cons, same, other] using ih
    · by_cases found : u = v
      · simp [own, found]
      · have other : (u == v) = false := by simpa using found
        simpa [List.lookup_cons, own, other] using ih

@[simp] theorem phase?_dropTask (s : State κ α ε) (t u : TaskId) :
    (s.dropTask t).phase? u = if u = t then none else s.phase? u :=
  lookup_filter_ne s.tasks t u

@[simp] theorem phase?_setPhase (s : State κ α ε) (t u : TaskId) (p : Phase κ) :
    (s.setPhase t p).phase? u = if u = t then some p else s.phase? u := by
  simp only [phase?, setPhase, dropTask, List.lookup_append, lookup_filter_ne]
  by_cases same : u = t
  · simp [same]
  · have other : (u == t) = false := by simpa using same
    simp [same, other, List.lookup_cons]

theorem phase_of_setPhase {s : State κ α ε} {t : TaskId} {p q : Phase κ}
    (phase : (s.setPhase t p).phase? t = some q) : p = q := by
  simpa using phase

theorem getElem?_modifyEntry (s : State κ α ε) (id j : Nat) (f : Entry κ α ε → Entry κ α ε) :
    (s.modifyEntry id f).entries[j]? = if j = id then s.entries[j]?.map f else s.entries[j]? := by
  simp only [modifyEntry, List.getElem?_modify, eq_comm (a := id)]
  split <;> simp

theorem modifyEntry_of_getElem? {s : State κ α ε} {id : Nat} {e : Entry κ α ε}
    (here : s.entries[id]? = some e) (f : Entry κ α ε → Entry κ α ε) :
    (s.modifyEntry id f).entries[id]? = some (f e) := by
  simp [getElem?_modifyEntry, here]

theorem getElem?_of_modifyEntry {s : State κ α ε} {id j : Nat} {f : Entry κ α ε → Entry κ α ε}
    {e : Entry κ α ε} (there : (s.modifyEntry j f).entries[id]? = some e) :
    ∃ e₀, s.entries[id]? = some e₀ ∧ (id = j ∧ e = f e₀ ∨ id ≠ j ∧ e = e₀) := by
  rw [getElem?_modifyEntry] at there
  split at there
  · rename_i same
    obtain ⟨e₀, before, eq⟩ := Option.map_eq_some_iff.1 there
    exact ⟨e₀, before, Or.inl ⟨same, eq.symm⟩⟩
  · rename_i apart
    exact ⟨e, there, Or.inr ⟨apart, rfl⟩⟩

theorem modifyEntry_modifyEntry (s : State κ α ε) (id : Nat) (f g : Entry κ α ε → Entry κ α ε) :
    (s.modifyEntry id f).modifyEntry id g = s.modifyEntry id (g ∘ f) := by
  simp [modifyEntry, List.modify_modify_eq]

theorem modifyEntry_congr {s : State κ α ε} {id : Nat} {e : Entry κ α ε}
    (here : s.entries[id]? = some e) {f g : Entry κ α ε → Entry κ α ε} (same : f e = g e) :
    s.modifyEntry id f = s.modifyEntry id g := by
  have entries : s.entries.modify id f = s.entries.modify id g := by
    apply List.ext_getElem?
    intro j
    simp only [List.getElem?_modify]
    by_cases at_id : id = j
    · subst at_id; simp [here, same]
    · simp [at_id]
  simp only [modifyEntry, entries]

theorem modifyEntry_of_fixed {s : State κ α ε} {id : Nat} {e : Entry κ α ε}
    (here : s.entries[id]? = some e) {f : Entry κ α ε → Entry κ α ε} (same : f e = e) :
    s.modifyEntry id f = s := by
  have entries : s.entries.modify id f = s.entries := by
    apply List.ext_getElem?
    intro j
    rw [List.getElem?_modify]
    by_cases at_id : id = j
    · subst at_id; simp [here, same]
    · simp [at_id]
  simp only [modifyEntry, entries]

theorem getElem?_addEntry (s : State κ α ε) (key : κ) (j : Nat) :
    (s.addEntry key).entries[j]? =
      if j = s.entries.length then some (.vacant key s.now) else s.entries[j]? := by
  simp only [addEntry]
  by_cases last : j = s.entries.length
  · simp [last]
  · rw [if_neg last]
    by_cases before : j < s.entries.length
    · exact List.getElem?_append_left before
    · have beyond : s.entries.length + 1 ≤ j := by omega
      rw [List.getElem?_eq_none (Nat.le_of_succ_le beyond),
        List.getElem?_eq_none (by simpa using beyond)]

theorem dropTask_of_idle {s : State κ α ε} {t : TaskId} (idle : s.phase? t = none) :
    s.dropTask t = s := by
  have absent : ∀ task ∈ s.tasks, task.1 ≠ t := by
    intro task member same
    simp only [phase?, List.lookup_eq_none_iff] at idle
    exact absurd (idle task member) (by simp [same])
  have tasks : s.tasks.filter (·.1 ≠ t) = s.tasks := List.filter_eq_self.2 (by simpa using absent)
  simp only [dropTask, tasks]

theorem release_of_free {s : State κ α ε} {id : Nat} {e : Entry κ α ε}
    (here : s.entries[id]? = some e) (free : e.holder = none) (empty : e.queue = []) :
    s.release id = (s, []) := by
  have same : e.release = e := by
    obtain ⟨key, listed, value, loadedAt, usedAt, failures, lastError, holder, queue⟩ := e
    simp_all [Entry.release]
  simp [release, here, empty, modifyEntry_of_fixed here same]

theorem sweepOver_dropTask (s : State κ α ε) (t : TaskId) (began : Nat) (order : List Nat) :
    (s.dropTask t).sweepOver t began order = s.sweepOver t began order := by
  have twice : ∀ s : State κ α ε, (s.dropTask t).dropTask t = s.dropTask t := by
    intro s; simp [State.dropTask]
  have reset : ∀ (s : State κ α ε) p, (s.dropTask t).setPhase t p = s.setPhase t p := by
    intro s p
    simp only [State.setPhase, twice]
    rfl
  induction order generalizing s with
  | nil => simp only [State.sweepOver, Effect.andThen, State.report, State.finish, twice]; rfl
  | cons id rest ih =>
    have commute : ∀ f, (s.dropTask t).modifyEntry id f = (s.modifyEntry id f).dropTask t :=
      fun _ => rfl
    have settings : (s.dropTask t).settings = s.settings := rfl
    simp only [State.sweepOver, State.entries_dropTask, settings, commute, ih, reset,
      Effect.andThen]

theorem endLoad_error_of_empty {s : State κ α ε} {t : TaskId} {id : Nat} {e : Entry κ α ε}
    (here : s.entries[id]? = some e) (empty : e.value = none) (error : ε) :
    s.endLoad t id (.error error) =
      Effect.andThen (Effect.andThen ((s.modifyEntry id (·.fail error)).finish t (.failed error))
        (·.release id)) fun s => (s.modifyEntry id Entry.detach, []) := by
  have commute : ∀ f, (s.modifyEntry id f).dropTask t = (s.dropTask t).modifyEntry id f :=
    fun _ => rfl
  have there : (s.dropTask t).entries[id]? = some e := here
  have ended :
      (s.dropTask t).modifyEntry id (Entry.release ∘ fun e => (e.fail error).detachIfEmpty) =
      (s.dropTask t).modifyEntry id (Entry.detach ∘ Entry.release ∘ fun e => e.fail error) :=
    modifyEntry_congr there (by simp [Entry.release, Entry.detach, Entry.detachIfEmpty,
      Entry.fail, empty])
  simp only [endLoad, Effect.andThen, finish, release, commute,
    modifyEntry_of_getElem? there, modifyEntry_modifyEntry, ended, List.append_nil]
  rfl

variable [DecidableEq κ]

theorem find?_eq_some {s : State κ α ε} {key : κ} {id : Nat} (found : s.find? key = some id) :
    ∃ e, s.entries[id]? = some e ∧ e.listed = true ∧ e.key = key := by
  obtain ⟨bound, fits, _⟩ := List.findIdx?_eq_some_iff_getElem.1 found
  simp only [Bool.and_eq_true, decide_eq_true_eq] at fits
  exact ⟨s.entries[id], List.getElem?_eq_getElem bound, fits⟩

theorem find?_eq_none {s : State κ α ε} {key : κ} (missing : s.find? key = none) {id : Nat}
    {e : Entry κ α ε} (here : s.entries[id]? = some e) (listed : e.listed = true) :
    e.key ≠ key := by
  have absent := List.findIdx?_eq_none_iff.1 missing e (List.mem_of_getElem? here)
  simpa [listed] using absent

theorem find?_of_listed {s : State κ α ε} {id : Nat} {e : Entry κ α ε}
    (here : s.entries[id]? = some e) (listed : e.listed = true) :
    ∃ j, s.find? e.key = some j := by
  cases found : s.find? e.key with
  | some j => exact ⟨j, rfl⟩
  | none => exact absurd rfl (find?_eq_none found here listed)

theorem claim_listed (s : State κ α ε) (key : κ) :
    ∃ e, (s.claim key).1.entries[(s.claim key).2]? = some e ∧ e.listed = true ∧ e.key = key := by
  unfold claim
  split
  · rename_i id found
    exact find?_eq_some found
  · exact ⟨.vacant key s.now, by simp [getElem?_addEntry], rfl, rfl⟩

theorem getElem?_claim {s : State κ α ε} {id : Nat} {e : Entry κ α ε}
    (here : s.entries[id]? = some e) (key : κ) : (s.claim key).1.entries[id]? = some e := by
  unfold claim
  split
  · exact here
  · obtain ⟨bound, _⟩ := List.getElem?_eq_some_iff.1 here
    simp [getElem?_addEntry, Nat.ne_of_lt bound, here]

theorem find?_claim (s : State κ α ε) (key : κ) :
    (s.claim key).1.find? key = some (s.claim key).2 := by
  unfold claim
  split
  · assumption
  · rename_i missing
    have before : s.entries.findIdx? (fun e => e.listed && decide (e.key = key)) = none := missing
    simp [find?, addEntry, List.findIdx?_append, before, Entry.vacant]

end State
end SingleFlight
end MetricGateway
