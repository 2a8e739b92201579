import MetricGateway.Proofs.SingleFlight.Removal

/- What loads that come to nothing leave behind. Only the failed load of a get drops its entry when
   it has no value. An entry stays in the table without one where the task that has its gate is
   given up, or reloads it in vain after an invalidation, or takes over the failure of the load
   before, and nobody stands in line behind it. Sweeps pass over such an entry: it stays until its
   key is loaded, put or removed, or all are invalidated. -/
namespace MetricGateway
namespace SingleFlight

variable {κ α ε : Type}

/-- The table has the entry without a value, and nobody is at its gate. -/
def Entry.Deserted (e : Entry κ α ε) : Prop :=
  e.listed = true ∧ e.value = none ∧ e.holder = none

theorem deserted_release (e : Entry κ α ε) :
    e.release.Deserted ↔ e.listed = true ∧ e.value = none ∧ e.queue = [] := by
  simp [Entry.Deserted, Entry.release, List.head?_eq_none_iff]

theorem not_deserted_of_holder {e : Entry κ α ε} (busy : e.holder ≠ none) : ¬ e.Deserted := by
  intro deserted
  exact busy deserted.2.2

theorem not_deserted_of_value {e : Entry κ α ε} (full : e.value ≠ none) : ¬ e.Deserted := by
  intro deserted
  exact full deserted.2.1

namespace State

def Residue (s : State κ α ε) (key : κ) : Prop :=
  ∃ (id : Nat) (e : Entry κ α ε), s.entries[id]? = some e ∧ e.key = key ∧ e.Deserted

def LastAt (s : State κ α ε) (t : TaskId) (id : Nat) (key : κ) : Prop :=
  ∃ e : Entry κ α ε, s.entries[id]? = some e ∧ e.key = key ∧ e.listed = true ∧ e.value = none ∧
    e.holder = some t ∧ e.queue = []

/-- The steps that leave an entry without a value to nobody. -/
inductive Abandons (s : State κ α ε) (key : κ) : Action κ α ε → Prop where
  | cancel {t : TaskId} {p : Phase κ} (phase : s.phase? t = some p)
      (last : s.LastAt t p.entry key) : Abandons s key (.cancel t)
  | reload {t : TaskId} {id : Nat} {rest : List Nat} {began : Nat}
      (phase : s.phase? t = some (.refreshing id rest began)) (last : s.LastAt t id key)
      (error : ε) : Abandons s key (.loaded t (.error error))
  | share {t : TaskId} {id failures : Nat} {e : Entry κ α ε}
      (phase : s.phase? t = some (.getQueued key id failures)) (here : s.entries[id]? = some e)
      (since : e.failures ≠ failures) (told : e.lastError ≠ none) (last : s.LastAt t id key) :
      Abandons s key (.resume t)

end State

section Entries

variable {s : State κ α ε} {id : Nat} {e : Entry κ α ε} {f : Entry κ α ε → Entry κ α ε} {key : κ}

theorem residue_modifyEntry (here : s.entries[id]? = some e) (own : (f e).key = e.key)
    (before : ¬ e.Deserted) :
    (s.modifyEntry id f).Residue key ↔ s.Residue key ∨ e.key = key ∧ (f e).Deserted := by
  constructor
  · rintro ⟨j, g, there, same, deserted⟩
    obtain ⟨g₀, was, ⟨rfl, rfl⟩ | ⟨_, rfl⟩⟩ := State.getElem?_of_modifyEntry there
    · cases here.symm.trans was
      exact Or.inr ⟨own.symm.trans same, deserted⟩
    · exact Or.inl ⟨j, g, was, same, deserted⟩
  · rintro (⟨j, g, was, same, deserted⟩ | ⟨same, deserted⟩)
    · have apart : j ≠ id := by
        rintro rfl
        cases here.symm.trans was
        exact before deserted
      exact ⟨j, g, by rw [State.getElem?_modifyEntry, if_neg apart, was], same, deserted⟩
    · exact ⟨id, f e, State.modifyEntry_of_getElem? here f, own.trans same, deserted⟩

theorem residue_modifyEntry_of_not (here : s.entries[id]? = some e) (own : (f e).key = e.key)
    (before : ¬ e.Deserted) (after : ¬ (f e).Deserted) :
    (s.modifyEntry id f).Residue key ↔ s.Residue key := by
  rw [residue_modifyEntry here own before]
  constructor
  · rintro (residue | ⟨_, deserted⟩)
    · exact residue
    · exact absurd deserted after
  · exact Or.inl

theorem residue_listed (order : Orderly s) (here : s.entries[id]? = some e)
    (listed : e.listed = true) : s.Residue e.key ↔ e.Deserted := by
  constructor
  · rintro ⟨j, g, there, same, deserted⟩
    cases order.unique j id g e there here deserted.1 listed same
    cases here.symm.trans there
    exact deserted
  · intro deserted
    exact ⟨id, e, here, rfl, deserted⟩

theorem residue_modifyEntry_listed (order : Orderly s) (here : s.entries[id]? = some e)
    (listed : e.listed = true) (after : ¬ (f e).Deserted) :
    (s.modifyEntry id f).Residue key ↔ s.Residue key ∧ key ≠ e.key := by
  constructor
  · rintro ⟨j, g, there, same, deserted⟩
    obtain ⟨g₀, was, ⟨rfl, rfl⟩ | ⟨apart, rfl⟩⟩ := State.getElem?_of_modifyEntry there
    · cases here.symm.trans was
      exact absurd deserted after
    · refine ⟨⟨j, g, was, same, deserted⟩, ?_⟩
      rintro rfl
      exact apart (order.unique j id g e was here deserted.1 listed same)
  · rintro ⟨⟨j, g, was, same, deserted⟩, other⟩
    have apart : j ≠ id := by
      rintro rfl
      cases here.symm.trans was
      exact other same.symm
    exact ⟨j, g, by rw [State.getElem?_modifyEntry, if_neg apart, was], same, deserted⟩

theorem residue_release {t : TaskId} (here : s.entries[id]? = some e) (holds : e.holder = some t) :
    (s.modifyEntry id Entry.release).Residue key ↔ s.Residue key ∨ s.LastAt t id key := by
  have busy : ¬ e.Deserted := not_deserted_of_holder (by simp [holds])
  rw [residue_modifyEntry here (f := Entry.release) rfl busy, deserted_release]
  apply or_congr_right
  constructor
  · rintro ⟨own, listed, empty, last⟩
    exact ⟨e, here, own, listed, empty, holds, last⟩
  · rintro ⟨g, there, own, listed, empty, _, last⟩
    cases here.symm.trans there
    exact ⟨own, listed, empty, last⟩

end Entries

section Operations

variable {s : State κ α ε} {t : TaskId} {id : Nat} {e : Entry κ α ε} {key : κ}

theorem residue_sweepOver (s : State κ α ε) (t : TaskId) (began : Nat) (ids : List Nat) :
    (s.sweepOver t began ids).1.Residue key ↔ s.Residue key := by
  induction ids generalizing s with
  | nil => exact Iff.rfl
  | cons id rest ih =>
    unfold State.sweepOver
    cases here : s.entries[id]? with
    | none => exact ih s
    | some e =>
      dsimp only
      split
      · exact ih s
      · -- Only entries with a value are purged or reloaded.
        rename_i full
        have before : ¬ e.Deserted := not_deserted_of_value (by simpa using full)
        split
        · split
          · have after : ¬ e.detach.Deserted := fun deserted => by cases deserted.1
            exact (ih _).trans (residue_modifyEntry_of_not here rfl before after)
          · exact ih s
        · split
          · have after : ¬ (e.acquire t).Deserted := fun deserted => by cases deserted.2.2
            exact residue_modifyEntry_of_not here (f := (·.acquire t)) rfl before after
          · exact ih s

theorem residue_serve_release (here : s.entries[id]? = some e) (busy : e.holder ≠ none)
    {value : α} (full : e.value = some value) :
    (Effect.andThen (s.serve t id value) (·.release id)).1.Residue key ↔ s.Residue key := by
  change ((s.modifyEntry id (·.touch s.now)).modifyEntry id Entry.release).Residue key ↔ _
  rw [State.modifyEntry_modifyEntry]
  apply residue_modifyEntry_of_not here rfl (not_deserted_of_holder busy)
  apply not_deserted_of_value
  simp [Entry.release, Entry.touch, full]

theorem residue_completeRemove (here : s.entries[id]? = some e) (busy : e.holder ≠ none) :
    (s.completeRemove t id e).1.Residue key ↔ s.Residue key := by
  change ((s.modifyEntry id Entry.detach).modifyEntry id Entry.release).Residue key ↔ _
  rw [State.modifyEntry_modifyEntry]
  apply residue_modifyEntry_of_not here rfl (not_deserted_of_holder busy)
  intro deserted
  cases deserted.1

theorem residue_endLoad (here : s.entries[id]? = some e) (busy : e.holder ≠ none)
    (outcome : Except ε α) : (s.endLoad t id outcome).1.Residue key ↔ s.Residue key := by
  have before := not_deserted_of_holder busy
  cases outcome with
  | ok value =>
    change ((s.modifyEntry id (·.install s.now true value)).modifyEntry id Entry.release).Residue
      key ↔ _
    rw [State.modifyEntry_modifyEntry]
    apply residue_modifyEntry_of_not here rfl before
    apply not_deserted_of_value
    simp [Entry.release, Entry.install]
  | error error =>
    change ((s.modifyEntry id fun e => (e.fail error).detachIfEmpty).modifyEntry id
      Entry.release).Residue key ↔ _
    rw [State.modifyEntry_modifyEntry]
    apply residue_modifyEntry_of_not here rfl before
    rintro ⟨listed, empty, _⟩
    have gone : e.value = none := empty
    simp [Entry.release, Entry.detachIfEmpty, Entry.fail, gone] at listed

theorem residue_endRefresh (here : s.entries[id]? = some e) (holds : e.holder = some t)
    (rest : List Nat) (began : Nat) (own : κ) (outcome : Except ε α) :
    (s.endRefresh t id rest began own outcome).1.Residue key ↔
      s.Residue key ∨ (∃ error, outcome = .error error) ∧ s.LastAt t id key := by
  cases outcome with
  | ok value =>
    refine (residue_sweepOver _ t began rest).trans ?_
    change ((s.modifyEntry id (·.install s.now false value)).modifyEntry id Entry.release).Residue
      key ↔ _
    have after : ¬ (e.install s.now false value).release.Deserted :=
      not_deserted_of_value (by simp [Entry.release, Entry.install])
    have before : ¬ e.Deserted := not_deserted_of_holder (by simp [holds])
    rw [State.modifyEntry_modifyEntry, residue_modifyEntry_of_not here rfl before after]
    simp
  | error error =>
    refine (residue_sweepOver _ t began rest).trans ?_
    change (s.modifyEntry id Entry.release).Residue key ↔ _
    rw [residue_release here holds]
    simp

theorem residue_cancel (here : s.entries[id]? = some e) (busy : e.holder ≠ none) :
    (s.cancel t id e).1.Residue key ↔ s.Residue key ∨ s.LastAt t id key := by
  unfold State.cancel
  split
  · rename_i holds
    exact residue_release (s := s.dropTask t) here holds
  · rename_i other
    have elsewhere : ¬ s.LastAt t id key := by
      rintro ⟨g, there, _, _, _, holds, _⟩
      cases here.symm.trans there
      exact other holds
    rw [or_iff_left elsewhere]
    have before := not_deserted_of_holder busy
    exact residue_modifyEntry_of_not (s := s.dropTask t) here (f := (·.leave t)) rfl before before

theorem not_residue_invalidateAll (s : State κ α ε) : ¬ s.invalidateAll.1.Residue key := by
  rintro ⟨id, f, there, _, listed, _, free⟩
  have mapped : s.invalidateAll.1.entries[id]? = s.entries[id]?.map Entry.invalidate := by
    simp [State.invalidateAll, State.report]
  rw [mapped, Option.map_eq_some_iff] at there
  obtain ⟨e, _, rfl⟩ := there
  unfold Entry.invalidate at listed free
  split at listed
  · rename_i before
    rw [if_pos before] at free
    split at listed
    · cases listed
    · rename_i busy
      rw [if_neg busy] at free
      have idle : e.holder = none := free
      simp [idle] at busy
  · rename_i out
    exact out listed

variable [DecidableEq κ]

theorem residue_claim (s : State κ α ε) (own : κ) :
    (s.claim own).1.Residue key ∧ key ≠ own ↔ s.Residue key ∧ key ≠ own := by
  apply and_congr_left
  intro other
  constructor
  · rintro ⟨id, e, there, same, deserted⟩
    unfold State.claim at there
    split at there
    · exact ⟨id, e, there, same, deserted⟩
    · rw [State.getElem?_addEntry] at there
      split at there
      · cases there
        exact absurd same.symm other
      · exact ⟨id, e, there, same, deserted⟩
  · rintro ⟨id, e, here, same, deserted⟩
    exact ⟨id, e, State.getElem?_claim here own, same, deserted⟩

theorem orderly_claim (order : Orderly s) (own : κ) : Orderly (s.claim own).1 := by
  unfold State.claim
  split
  · exact order
  · rename_i missing
    exact order.added missing

theorem residue_beginGet (order : Orderly s) (t : TaskId) (own : κ) :
    (s.beginGet t own).1.Residue key ↔ s.Residue key ∧ key ≠ own := by
  obtain ⟨e, here, listed, same⟩ := State.claim_listed s own
  have claimed := orderly_claim order own
  rw [← residue_claim s own]
  unfold State.beginGet
  simp only [here]
  have taken : ∀ f : Entry κ α ε → Entry κ α ε, ¬ (f e).Deserted →
      (((s.claim own).1.modifyEntry (s.claim own).2 f).Residue key ↔
        (s.claim own).1.Residue key ∧ key ≠ own) := by
    intro f after
    rw [residue_modifyEntry_listed claimed here listed after, same]
  split
  · rename_i value full
    exact taken (·.touch _) (not_deserted_of_value (by simp [Entry.touch, full]))
  · exact taken (·.acquire t) (not_deserted_of_holder (by simp [Entry.acquire]))
  · rename_i busy
    exact taken (·.enqueue t) (not_deserted_of_holder (by simp [Entry.enqueue, busy]))

theorem began_beginGet (order : Orderly s) (t : TaskId) {own : κ} (residue : s.Residue own) :
    .began t own ∈ (s.beginGet t own).2 := by
  obtain ⟨id, e, here, rfl, listed, empty, free⟩ := residue
  simp [State.beginGet, order.claim_eq here listed, here, empty, free, State.beginLoad]

theorem residue_beginRemove (order : Orderly s) (t : TaskId) (own : κ) :
    (s.beginRemove t own).1.Residue key ↔ s.Residue key ∧ key ≠ own := by
  unfold State.beginRemove
  cases found : s.find? own with
  | none =>
    constructor
    · rintro ⟨id, e, here, rfl, deserted⟩
      exact ⟨⟨id, e, here, rfl, deserted⟩, State.find?_eq_none found here deserted.1⟩
    · exact And.left
  | some id =>
    obtain ⟨e, here, listed, rfl⟩ := State.find?_eq_some found
    simp only [here]
    split
    · change ((s.modifyEntry id Entry.detach).modifyEntry id Entry.release).Residue key ↔ _
      rw [State.modifyEntry_modifyEntry]
      apply residue_modifyEntry_listed order here listed
      intro deserted
      cases deserted.1
    · rename_i busy
      apply residue_modifyEntry_listed order here listed (f := (·.enqueue t))
      exact not_deserted_of_holder (by simp [Entry.enqueue, busy])

theorem residue_put (order : Orderly s) (own : κ) (value : α) :
    (s.put own value).1.Residue key ↔ s.Residue key ∧ key ≠ own := by
  obtain ⟨e, here, listed, same⟩ := State.claim_listed s own
  have after : ¬ (e.install (s.claim own).1.now true value).Deserted :=
    not_deserted_of_value (by simp [Entry.install])
  have claimed := orderly_claim order own
  rw [← residue_claim s own, ← same]
  exact same ▸ residue_modifyEntry_listed claimed here listed
    (f := (·.install (s.claim own).1.now true value)) after

end Operations

variable [DecidableEq κ]

namespace State

/-- The steps that take up the entry of a key: a get that calls the loader, a removal, a put and an
    invalidation. -/
inductive Takes (s : State κ α ε) (key : κ) : Action κ α ε → List (Signal κ α ε) → Prop where
  | load {a : Action κ α ε} {seen : List (Signal κ α ε)} {t : TaskId}
      (asked : s.asked? a = some key) (began : .began t key ∈ seen) : Takes s key a seen
  | remove (t : TaskId) (seen : List (Signal κ α ε)) : Takes s key (.remove t key) seen
  | put (v : α) (seen : List (Signal κ α ε)) : Takes s key (.put key v) seen
  | invalidateAll (seen : List (Signal κ α ε)) : Takes s key .invalidateAll seen

def Untouched (key : κ) (s : State κ α ε) : List (Action κ α ε) → Prop
  | [] => True
  | a :: rest => ∀ s' seen, step? s a = some (s', seen) →
      ¬ s.Takes key a seen ∧ Untouched key s' rest

/-- In a run the entry of the key is abandoned, and nothing takes it up since. -/
def LeavesBehind (key : κ) (s : State κ α ε) : List (Action κ α ε) → Prop
  | [] => False
  | a :: rest => ∃ s' seen, step? s a = some (s', seen) ∧
      (s.Abandons key a ∧ Untouched key s' rest ∨ LeavesBehind key s' rest)

end State

section Steps

variable {s : State κ α ε} {t : TaskId} {key : κ}

omit [DecidableEq κ] in
theorem not_began_finish_release (s : State κ α ε) (t u : TaskId) (r : Result α ε) (id : Nat)
    (key : κ) : .began u key ∉ (Effect.andThen (s.finish t r) (·.release id)).2 := by
  intro shown
  rcases List.mem_append.1 shown with ended | handed
  · cases ended with
    | tail _ later => cases later
  · have own := own_granted (s.dropTask t) u id _ handed
    simp [Signal.own] at own

omit [DecidableEq κ] in
theorem residue_of_calm {a : Action κ α ε} {effect : Effect κ α ε}
    (same : effect.1.Residue key ↔ s.Residue key) (kept : ¬ s.Abandons key a)
    (calm : s.Residue key → ¬ s.Takes key a effect.2) :
    effect.1.Residue key ↔ s.Abandons key a ∨ s.Residue key ∧ ¬ s.Takes key a effect.2 := by
  rw [same, or_iff_right kept]
  constructor
  · intro residue
    exact ⟨residue, calm residue⟩
  · exact And.left

omit [DecidableEq κ] in
theorem residue_of_taken {a : Action κ α ε} {effect : Effect κ α ε} {own : κ}
    (left : effect.1.Residue key ↔ s.Residue key ∧ key ≠ own) (kept : ¬ s.Abandons key a)
    (takes : s.Residue key → (s.Takes key a effect.2 ↔ key = own)) :
    effect.1.Residue key ↔ s.Abandons key a ∨ s.Residue key ∧ ¬ s.Takes key a effect.2 := by
  rw [left, or_iff_right kept]
  apply and_congr_right
  intro residue
  rw [takes residue]

omit [DecidableEq κ] in
theorem residue_of_left {a : Action κ α ε} {effect : Effect κ α ε} {gone : Prop}
    (left : effect.1.Residue key ↔ s.Residue key ∨ gone) (same : s.Abandons key a ↔ gone)
    (calm : ¬ s.Takes key a effect.2) :
    effect.1.Residue key ↔ s.Abandons key a ∨ s.Residue key ∧ ¬ s.Takes key a effect.2 := by
  rw [left, same, and_iff_left calm, or_comm]

section Resumed

variable (order : Orderly s) {own : κ} {id failures : Nat} {e : Entry κ α ε}
  (phase : s.phase? t = some (.getQueued own id failures)) (here : s.entries[id]? = some e)
  (holds : e.holder = some t)
include order phase here

omit [DecidableEq κ] in
theorem abandons_resume : s.Abandons key (.resume t) ↔
    e.failures ≠ failures ∧ e.lastError ≠ none ∧ s.LastAt t id key := by
  obtain ⟨f, there, _, fits⟩ := order.seated t _ phase
  cases here.symm.trans there
  have same : e.key = own := fits
  constructor
  · intro abandoned
    cases abandoned with
    | share waits there since told last =>
      cases phase.symm.trans waits
      cases here.symm.trans there
      exact ⟨since, told, last⟩
  · rintro ⟨since, told, last⟩
    have about : own = key := by
      obtain ⟨g, there, also, _⟩ := last
      cases here.symm.trans there
      exact same.symm.trans also
    exact .share (about ▸ phase) here since told last

include holds

omit [DecidableEq κ] in
theorem residue_shared {error : ε} (since : e.failures ≠ failures)
    (told : e.lastError = some error) :
    let effect : Effect κ α ε := Effect.andThen (s.finish t (.failed error)) (·.release id)
    effect.1.Residue key ↔ s.Abandons key (.resume t) ∨
      s.Residue key ∧ ¬ s.Takes key (.resume t) effect.2 := by
  intro effect
  apply residue_of_left (residue_release (s := s.dropTask t) here holds)
  · rw [abandons_resume order phase here, and_iff_right since, and_iff_right (by simp [told])]
    exact Iff.rfl
  · rintro ⟨_, began⟩
    exact not_began_finish_release s t _ _ id _ began

omit [DecidableEq κ] in
theorem residue_loads (kept : ¬ s.Abandons key (.resume t)) (listed : e.listed = true) :
    (s.beginLoad t own id).1.Residue key ↔ s.Abandons key (.resume t) ∨
      s.Residue key ∧ ¬ s.Takes key (.resume t) (s.beginLoad t own id).2 := by
  have before : ¬ e.Deserted := not_deserted_of_holder (by simp [holds])
  have after : ¬ (e.acquire t).Deserted := not_deserted_of_holder (by simp [Entry.acquire])
  apply residue_of_calm ?_ kept
  · rintro residue ⟨asked, _⟩
    obtain ⟨f, there, _, fits⟩ := order.seated t _ phase
    cases here.symm.trans there
    have same : e.key = own := fits
    simp only [State.asked?, phase, Option.some.injEq] at asked
    rw [← asked, ← same, residue_listed order here listed] at residue
    exact before residue
  · exact residue_modifyEntry_of_not here (f := (·.acquire t)) rfl before after

theorem residue_starts_over (kept : ¬ s.Abandons key (.resume t)) (out : ¬ e.listed = true) :
    let effect := Effect.andThen ((s.dropTask t).release id) (·.beginGet t own)
    effect.1.Residue key ↔ s.Abandons key (.resume t) ∨
      s.Residue key ∧ ¬ s.Takes key (.resume t) effect.2 := by
  intro effect
  have before : ¬ e.Deserted := not_deserted_of_holder (by simp [holds])
  have left := order.quitted phase here
  rw [State.cancel, if_pos holds] at left
  have same : ((s.dropTask t).release id).1.Residue key ↔ s.Residue key := by
    apply residue_modifyEntry_of_not (s := s.dropTask t) here (f := Entry.release) rfl before
    intro deserted
    exact out deserted.1
  have asked : s.asked? (.resume t : Action κ α ε) = some own := by simp [State.asked?, phase]
  have begun : effect.1.Residue key ↔ s.Residue key ∧ key ≠ own :=
    (residue_beginGet left t own).trans (and_congr_left fun _ => same)
  apply residue_of_taken begun kept
  intro residue
  constructor
  · rintro ⟨key_asked, _⟩
    exact (Option.some.inj (asked.symm.trans key_asked)).symm
  · rintro rfl
    have began := began_beginGet left t (same.2 residue)
    exact .load asked (List.mem_append_right _ began)

theorem residue_resumeGet : (s.resumeGet t own id failures e).1.Residue key ↔
    s.Abandons key (.resume t) ∨
      s.Residue key ∧ ¬ s.Takes key (.resume t) (s.resumeGet t own id failures e).2 := by
  have abandons : s.Abandons key (.resume t) ↔ _ := abandons_resume order phase here
  unfold State.resumeGet
  split
  · rename_i value full
    apply residue_of_calm (residue_serve_release here (by simp [holds]) full)
    · rw [abandons]
      rintro ⟨_, _, g, there, _, _, empty, _⟩
      cases here.symm.trans there
      cases full.symm.trans empty
    · rintro _ ⟨_, began⟩
      exact not_began_finish_release (s.modifyEntry id (·.touch s.now)) t _ _ id _ began
  · split
    · rename_i error told
      obtain ⟨since, last⟩ := Option.ite_none_left_eq_some.1 told
      exact residue_shared order phase here holds since last
    · rename_i untold
      have kept : ¬ s.Abandons key (.resume t) := by
        rw [abandons]
        rintro ⟨since, told, _⟩
        simp only [if_neg since] at untold
        exact told untold
      split
      · exact residue_loads order phase here holds kept (by assumption)
      · exact residue_starts_over order phase here holds kept (by assumption)

end Resumed

/-- Which entries a step leaves without a value and without anybody to fill them. -/
theorem step_residue {a : Action κ α ε} {effect : Effect κ α ε} (order : Orderly s)
    (step : step? s a = some effect) :
    effect.1.Residue key ↔ s.Abandons key a ∨ s.Residue key ∧ ¬ s.Takes key a effect.2 := by
  cases taken_of_step step with
  | @get t _ own =>
    apply residue_of_taken (residue_beginGet order t own)
    · intro abandoned
      cases abandoned
    · intro residue
      constructor
      · rintro ⟨asked, _⟩
        exact (Option.some.inj asked).symm
      · rintro rfl
        exact .load rfl (began_beginGet order t residue)
  | @remove t _ own =>
    apply residue_of_taken (residue_beginRemove order t own)
    · intro abandoned
      cases abandoned
    · intro residue
      constructor
      · intro takes
        cases takes with
        | load asked => cases asked
        | remove => rfl
      · rintro rfl
        exact .remove _ _
  | put own value =>
    apply residue_of_taken (residue_put order own value)
    · intro abandoned
      cases abandoned
    · intro residue
      constructor
      · intro takes
        cases takes with
        | load asked => cases asked
        | put => rfl
      · rintro rfl
        exact .put _ _
  | invalidateAll =>
    constructor
    · intro residue
      exact absurd residue (not_residue_invalidateAll s)
    · rintro (abandoned | ⟨_, calm⟩)
      · cases abandoned
      · exact absurd (.invalidateAll _) calm
  | resumeGet phase here holds => exact residue_resumeGet order phase here holds
  | @resumeRemove t own id e phase here holds =>
    apply residue_of_calm (residue_completeRemove here (by simp [holds]))
    · intro abandoned
      cases abandoned with
      | share waits => cases phase.symm.trans waits
    · rintro _ ⟨asked, _⟩
      simp [State.asked?, phase] at asked
  | @endLoad t own id e phase here outcome =>
    obtain ⟨_, _, holds⟩ := order.getLoading_fits phase here
    apply residue_of_calm (residue_endLoad here (by simp [holds]) outcome)
    · intro abandoned
      cases abandoned with
      | reload waits => cases phase.symm.trans waits
    · rintro _ ⟨asked, _⟩
      cases asked
  | @endRefresh t id rest began e phase here outcome =>
    obtain ⟨f, there, _, fits⟩ := order.seated t _ phase
    cases here.symm.trans there
    apply residue_of_left (residue_endRefresh here fits rest began e.key outcome)
    · constructor
      · intro abandoned
        cases abandoned with
        | reload waits last error =>
          cases phase.symm.trans waits
          exact ⟨⟨error, rfl⟩, last⟩
      · rintro ⟨⟨error, rfl⟩, last⟩
        exact .reload phase last error
    · rintro ⟨asked, _⟩
      cases asked
  | @cancel t p e phase here =>
    obtain ⟨_, h, holds⟩ := order.busy_of_waiting phase here
    apply residue_of_left (residue_cancel here (by simp [holds]))
    · constructor
      · intro abandoned
        cases abandoned with
        | cancel waits last =>
          cases phase.symm.trans waits
          exact last
      · intro last
        exact .cancel phase last
    · rintro ⟨asked, _⟩
      cases asked
  | sweep _ ids =>
    apply residue_of_calm (residue_sweepOver s _ _ ids)
    · intro abandoned
      cases abandoned
    · rintro _ ⟨asked, _⟩
      cases asked
  | advance ms =>
    apply residue_of_calm
    · exact Iff.rfl
    · intro abandoned
      cases abandoned
    · rintro _ ⟨asked, _⟩
      cases asked

theorem run_residue {actions : List (Action κ α ε)} {s' : State κ α ε} {seen : List (Signal κ α ε)}
    (order : Orderly s) (ran : run? s actions = some (s', seen)) :
    s'.Residue key ↔ s.LeavesBehind key actions ∨ s.Residue key ∧ s.Untouched key actions := by
  induction actions generalizing s seen with
  | nil =>
    cases ran
    simp [State.LeavesBehind, State.Untouched]
  | cons a rest ih =>
    obtain ⟨s₁, first, more, step, others, _⟩ := run_cons ran
    rw [ih (step_orderly order step) others, step_residue order step]
    have leaves : s.LeavesBehind key (a :: rest) ↔
        s.Abandons key a ∧ s₁.Untouched key rest ∨ s₁.LeavesBehind key rest := by
      simp [State.LeavesBehind, step]
    have untouched : s.Untouched key (a :: rest) ↔
        ¬ s.Takes key a first ∧ s₁.Untouched key rest := by
      simp [State.Untouched, step]
    rw [leaves, untouched]
    tauto

end Steps

end SingleFlight
end MetricGateway
