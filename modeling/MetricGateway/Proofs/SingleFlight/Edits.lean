import MetricGateway.Proofs.SingleFlight.Exclusion
import Mathlib.Logic.Relation

/- What a step does to each entry, edit by edit, and the cause of each edit: which value is stored,
   how a load has failed, why an entry leaves the table. Moves say who is at the gates; edits say
   what becomes of the content. What all edits of a step keep, the step keeps. -/
namespace MetricGateway
namespace SingleFlight

variable {κ α ε : Type}

/-- What may befall the entries of a key in a step. -/
structure Causes (κ α ε : Type) where
  gets : κ → Prop
  writes : κ → α → Prop
  fails : κ → ε → Prop
  clears : Prop
  removes : κ → Option α → Prop
  expires : κ → Prop

variable {c : Causes κ α ε}

inductive Edit (c : Causes κ α ε) : Entry κ α ε → Entry κ α ε → Prop where
  | gate (e : Entry κ α ε) (holder : Option TaskId) (queue : List TaskId) :
      Edit c e { e with holder, queue }
  | touch {e : Entry κ α ε} (got : c.gets e.key) (now : Nat) : Edit c e (e.touch now)
  | install {e : Entry κ α ε} {value : α} (written : c.writes e.key value) (now : Nat)
      (used : Bool) : Edit c e (e.install now used value)
  | fail {e : Entry κ α ε} {error : ε} (failed : c.fails e.key error) :
      Edit c e (e.fail error).detachIfEmpty
  | invalidate {e : Entry κ α ε} (clears : c.clears) : Edit c e e.invalidate
  | remove {e : Entry κ α ε} (gone : c.removes e.key e.value) : Edit c e e.detach
  | expire {e : Entry κ α ε} (old : c.expires e.key) : Edit c e e.detach

def Edits (c : Causes κ α ε) : Entry κ α ε → Entry κ α ε → Prop := Relation.ReflTransGen (Edit c)

/-- Entries stay where they are and are edited; so are new ones, which begin without a value. -/
structure Edited (c : Causes κ α ε) (before after : List (Entry κ α ε)) : Prop where
  kept : ∀ (id : Nat) (e : Entry κ α ε), before[id]? = some e →
    ∃ e', after[id]? = some e' ∧ Edits c e e'
  made : ∀ (id : Nat) (e' : Entry κ α ε), before[id]? = none → after[id]? = some e' →
    ∃ key now, Edits c (.vacant key now) e'

theorem Edits.refl (e : Entry κ α ε) : Edits c e e := Relation.ReflTransGen.refl

theorem Edit.edits {e e' : Entry κ α ε} (edit : Edit c e e') : Edits c e e' :=
  Relation.ReflTransGen.single edit

theorem Edits.keep {R : Entry κ α ε → Entry κ α ε → Prop} (refl : ∀ e, R e e)
    (trans : ∀ {e f g}, R e f → R f g → R e g) (edit : ∀ {e e'}, Edit c e e' → R e e')
    {e e' : Entry κ α ε} (edits : Edits c e e') : R e e' := by
  induction edits with
  | refl => exact refl e
  | tail _ last ih => exact trans ih (edit last)

namespace Edited

variable {before between after : List (Entry κ α ε)}

theorem refl (entries : List (Entry κ α ε)) : Edited c entries entries := by
  refine ⟨fun id e here => ⟨e, here, .refl e⟩, ?_⟩
  intro id e' absent there
  rw [absent] at there
  cases there

theorem trans (first : Edited c before between) (rest : Edited c between after) :
    Edited c before after := by
  constructor
  · intro id e here
    obtain ⟨e', there, edits⟩ := first.kept id e here
    obtain ⟨e'', last, more⟩ := rest.kept id e' there
    exact ⟨e'', last, Relation.ReflTransGen.trans edits more⟩
  · intro id e'' absent last
    cases there : between[id]? with
    | none => exact rest.made id e'' there last
    | some e' =>
      obtain ⟨g, same, more⟩ := rest.kept id e' there
      cases last.symm.trans same
      obtain ⟨key, now, edits⟩ := first.made id e' absent there
      exact ⟨key, now, Relation.ReflTransGen.trans edits more⟩

theorem modify {entries : List (Entry κ α ε)} {id : Nat} {f : Entry κ α ε → Entry κ α ε}
    (edit : ∀ e, entries[id]? = some e → Edit c e (f e)) :
    Edited c entries (entries.modify id f) := by
  constructor
  · intro j e here
    rw [List.getElem?_modify, here]
    by_cases same : id = j
    · subst same
      exact ⟨f e, by simp, (edit e here).edits⟩
    · exact ⟨e, by simp [same], .refl e⟩
  · intro j e' absent there
    rw [List.getElem?_modify, absent] at there
    cases there

theorem gate (entries : List (Entry κ α ε)) (id : Nat) {f : Entry κ α ε → Entry κ α ε}
    (only : ∀ e, f e = { e with holder := (f e).holder, queue := (f e).queue }) :
    Edited c entries (entries.modify id f) := by
  refine modify fun e _ => ?_
  rw [only e]
  exact .gate e _ _

theorem add (entries : List (Entry κ α ε)) (key : κ) (now : Nat) :
    Edited c entries (entries ++ [.vacant key now]) := by
  constructor
  · intro id e here
    have bound := (List.getElem?_eq_some_iff.1 here).1
    exact ⟨e, by rw [List.getElem?_append_left bound, here], .refl e⟩
  · intro id e' absent there
    rw [List.getElem?_eq_none_iff] at absent
    rw [List.getElem?_append_right absent, List.getElem?_singleton] at there
    split at there
    · cases there
      exact ⟨key, now, .refl _⟩
    · cases there

end Edited

section Operations

variable {s : State κ α ε} {t : TaskId} {id : Nat} {e : Entry κ α ε}

theorem edited_release (s : State κ α ε) (id : Nat) : Edited c s.entries (s.release id).1.entries :=
  Edited.gate _ id fun _ => rfl

theorem edited_serve (here : s.entries[id]? = some e) (got : c.gets e.key) (t : TaskId)
    (value : α) : Edited c s.entries (s.serve t id value).1.entries := by
  refine Edited.modify fun f there => ?_
  cases here.symm.trans there
  exact .touch got _

theorem edited_beginLoad (s : State κ α ε) (t : TaskId) (key : κ) (id : Nat) :
    Edited c s.entries (s.beginLoad t key id).1.entries :=
  Edited.gate _ id fun _ => rfl

theorem edited_install (here : s.entries[id]? = some e) {value : α} (written : c.writes e.key value)
    (used : Bool) : Edited c s.entries (s.modifyEntry id (·.install s.now used value)).entries := by
  refine Edited.modify fun f there => ?_
  cases here.symm.trans there
  exact .install written _ used

theorem removed_completeRemove (s : State κ α ε) (t : TaskId) (id : Nat) (e : Entry κ α ε) :
    .finished t (.removed e.value) ∈ (s.completeRemove t id e).2 :=
  List.mem_append_right [Signal.sized _] List.mem_cons_self

theorem edited_completeRemove (here : s.entries[id]? = some e) (gone : c.removes e.key e.value)
    (t : TaskId) : Edited c s.entries (s.completeRemove t id e).1.entries := by
  have detached : Edited c s.entries (s.modifyEntry id Entry.detach).entries := by
    refine Edited.modify fun f there => ?_
    cases here.symm.trans there
    exact .remove gone
  exact detached.trans (Edited.gate _ id fun _ => rfl)

theorem edited_sweepOver {began : Nat} {order : List Nat}
    (expires : ∀ key, .expired key ∈ (s.sweepOver t began order).2 → c.expires key) :
    Edited c s.entries (s.sweepOver t began order).1.entries := by
  induction order generalizing s with
  | nil => exact Edited.refl _
  | cons id rest ih =>
    unfold State.sweepOver at expires ⊢
    cases here : s.entries[id]? with
    | none =>
      simp only [here] at expires
      exact ih expires
    | some e =>
      simp only [here] at expires
      dsimp only
      split
      · rename_i empty
        rw [if_pos empty] at expires
        exact ih expires
      · rename_i full
        rw [if_neg full] at expires
        split
        · rename_i due
          rw [if_pos due] at expires
          split
          · rename_i idle
            rw [if_pos idle] at expires
            have detached : Edited c s.entries (s.modifyEntry id Entry.detach).entries := by
              refine Edited.modify fun f there => ?_
              cases here.symm.trans there
              exact .expire (expires e.key List.mem_cons_self)
            exact detached.trans (ih fun key shown => expires key (List.mem_cons_of_mem _ shown))
          · rename_i busy
            rw [if_neg busy] at expires
            exact ih expires
        · rename_i young
          rw [if_neg young] at expires
          split
          · exact Edited.gate _ id fun _ => rfl
          · rename_i fresh
            rw [if_neg fresh] at expires
            exact ih expires

theorem edited_endLoad (here : s.entries[id]? = some e) {outcome : Except ε α}
    (written : ∀ value, outcome = .ok value → c.writes e.key value)
    (failed : ∀ error, outcome = .error error → c.fails e.key error) (t : TaskId) :
    Edited c s.entries (s.endLoad t id outcome).1.entries := by
  cases outcome with
  | ok value => exact (edited_install here (written value rfl) true).trans (edited_release _ id)
  | error error =>
    have emptied : Edited c s.entries
        (s.modifyEntry id fun e => (e.fail error).detachIfEmpty).entries := by
      refine Edited.modify fun f there => ?_
      cases here.symm.trans there
      exact .fail (failed error rfl)
    exact emptied.trans (Edited.gate _ id fun _ => rfl)

theorem edited_endRefresh {rest : List Nat} {began : Nat} {key : κ}
    (here : s.entries[id]? = some e) {outcome : Except ε α}
    (written : ∀ value, outcome = .ok value → c.writes e.key value)
    (expires : ∀ own, .expired own ∈ (s.endRefresh t id rest began key outcome).2 →
      c.expires own) :
    Edited c s.entries (s.endRefresh t id rest began key outcome).1.entries := by
  have swept := fun s₁ (mem : ∀ own, .expired own ∈ (State.sweepOver s₁ t began rest).2 → _) =>
    edited_sweepOver (c := c) (s := s₁) mem
  cases outcome with
  | ok value =>
    refine ((edited_install here (written value rfl) false).trans (edited_release _ id)).trans
      (swept _ fun own shown => expires own ?_)
    exact List.mem_append_right _ shown
  | error =>
    refine (edited_release s id).trans (swept _ fun own shown => expires own ?_)
    exact List.mem_append_right _ shown

theorem edited_cancel (s : State κ α ε) (t : TaskId) (id : Nat) (e : Entry κ α ε) :
    Edited c s.entries (s.cancel t id e).1.entries := by
  unfold State.cancel
  split
  · exact edited_release (s.dropTask t) id
  · exact Edited.gate _ id fun _ => rfl

theorem edited_invalidateAll (s : State κ α ε) (clears : c.clears) :
    Edited c s.entries s.invalidateAll.1.entries := by
  constructor
  · intro id e here
    refine ⟨e.invalidate, ?_, (Edit.invalidate clears).edits⟩
    simp [State.invalidateAll, State.report, here]
  · intro id e' absent there
    simp [State.invalidateAll, State.report, absent] at there

variable [DecidableEq κ]

theorem edited_claim (s : State κ α ε) (key : κ) : Edited c s.entries (s.claim key).1.entries := by
  unfold State.claim
  split
  · exact Edited.refl _
  · exact Edited.add _ _ _

theorem edited_beginGet (s : State κ α ε) (t : TaskId) {key : κ} (got : c.gets key) :
    Edited c s.entries (s.beginGet t key).1.entries := by
  obtain ⟨e, here, _, own⟩ := State.claim_listed s key
  refine (edited_claim s key).trans ?_
  unfold State.beginGet
  simp only [here]
  split
  · exact edited_serve here (own.symm ▸ got) t _
  · exact edited_beginLoad _ t key _
  · exact Edited.gate _ _ fun _ => rfl

theorem edited_resumeGet {key : κ} (here : s.entries[id]? = some e) (own : e.key = key)
    (got : c.gets key) (t : TaskId) (failures : Nat) :
    Edited c s.entries (s.resumeGet t key id failures e).1.entries := by
  unfold State.resumeGet
  split
  · exact (edited_serve here (own.symm ▸ got) t _).trans (edited_release _ id)
  · split
    · exact edited_release (s.dropTask t) id
    · split
      · exact edited_beginLoad s t key id
      · exact (edited_release (s.dropTask t) id).trans (edited_beginGet _ t got)

theorem edited_beginRemove {key : κ}
    (gone : ∀ x, .finished t (.removed x) ∈ (s.beginRemove t key).2 → c.removes key x) :
    Edited c s.entries (s.beginRemove t key).1.entries := by
  unfold State.beginRemove at gone ⊢
  split
  · exact Edited.refl _
  · rename_i id found
    obtain ⟨e, here, _, own⟩ := State.find?_eq_some found
    simp only [found, here] at gone ⊢
    split
    · rename_i free
      simp only [free] at gone
      have removed := gone e.value (removed_completeRemove s t id e)
      exact edited_completeRemove here (own.symm ▸ removed) t
    · exact Edited.gate _ _ fun _ => rfl

theorem edited_put (s : State κ α ε) {key : κ} {value : α} (written : c.writes key value) :
    Edited c s.entries (s.put key value).1.entries := by
  obtain ⟨e, here, _, own⟩ := State.claim_listed s key
  exact (edited_claim s key).trans (edited_install here (own.symm ▸ written) true)

end Operations

variable [DecidableEq κ]

namespace State

def loaded? (s : State κ α ε) (key : κ) : Action κ α ε → Option α
  | .loaded t (.ok value) => if s.callOf? t = some key then some value else none
  | _ => none

/-- What an action makes of the value under a key, where it writes there: a put and the end of a
    loader call give one, an invalidation leaves none. -/
def write? (s : State κ α ε) (key : κ) : Action κ α ε → Option (Option α)
  | .put own value => if own = key then some (some value) else none
  | .invalidateAll => some none
  | a => (s.loaded? key a).map some

def asked? (s : State κ α ε) : Action κ α ε → Option κ
  | .get _ key => some key
  | .resume t =>
    match s.phase? t with
    | some (.getQueued key _ _) => some key
    | _ => none
  | _ => none

def removal? (s : State κ α ε) : Action κ α ε → Option κ
  | .remove _ key => some key
  | .resume t =>
    match s.phase? t with
    | some (.removeQueued key _) => some key
    | _ => none
  | _ => none

/-- A step of a sweep: its beginning, or the end of a reload that it has waited for. -/
def Sweeps (s : State κ α ε) (t : TaskId) (a : Action κ α ε) : Prop :=
  (∃ order, a = .sweep t order) ∨
    ∃ outcome id rest began, a = .loaded t outcome ∧ s.phase? t = some (.refreshing id rest began)

/-- What a step may do, by its action and what is seen of it. Only a get's load marks its entry when
    it fails. -/
def causes (s : State κ α ε) (a : Action κ α ε) (seen : List (Signal κ α ε)) : Causes κ α ε where
  gets key := s.asked? a = some key
  writes key value := s.write? key a = some (some value)
  fails key error := ∃ t id, s.phase? t = some (.getLoading key id) ∧ a = .loaded t (.error error)
  clears := a = .invalidateAll
  removes key x := s.removal? a = some key ∧ ∃ t, .finished t (.removed x) ∈ seen
  expires key := (∃ t, s.Sweeps t a) ∧ .expired key ∈ seen

end State

theorem step_edited {s : State κ α ε} {a : Action κ α ε} {effect : Effect κ α ε}
    (order : Orderly s) (step : step? s a = some effect) :
    Edited (s.causes a effect.2) s.entries effect.1.entries := by
  cases taken_of_step step with
  | get _ key => exact edited_beginGet s _ rfl
  | remove _ key => exact edited_beginRemove fun x shown => ⟨rfl, _, shown⟩
  | sweep _ ids => exact edited_sweepOver fun key shown => ⟨⟨_, Or.inl ⟨ids, rfl⟩⟩, shown⟩
  | put key value => exact edited_put s (by simp [State.causes, State.write?])
  | invalidateAll => exact edited_invalidateAll s rfl
  | @resumeGet t key id n e phase here _ =>
    obtain ⟨f, there, _, own⟩ := order.seated t _ phase
    cases here.symm.trans there
    exact edited_resumeGet here own (by simp [State.causes, State.asked?, phase]) t n
  | @resumeRemove t key id e phase here _ =>
    obtain ⟨f, there, _, own⟩ := order.seated t _ phase
    cases here.symm.trans there
    have same : e.key = key := own
    refine edited_completeRemove here ?_ t
    exact ⟨by simp [State.removal?, phase, same], t, removed_completeRemove s t id e⟩
  | @endLoad t key id e phase here outcome =>
    obtain ⟨own, _⟩ := order.getLoading_fits phase here
    refine edited_endLoad here (fun value same => ?_) (fun error same => ?_) t
    · simp [State.causes, State.write?, State.loaded?, State.callOf?, phase, own, same]
    · exact ⟨t, id, own ▸ phase, same ▸ rfl⟩
  | @endRefresh t id rest began e phase here outcome =>
    refine edited_endRefresh here (fun value same => ?_) fun key shown => ⟨⟨t, Or.inr ?_⟩, shown⟩
    · simp [State.causes, State.write?, State.loaded?, State.callOf?, phase, here, same]
    · exact ⟨outcome, id, rest, began, rfl, phase⟩
  | cancel => exact edited_cancel s _ _ _
  | advance => exact Edited.refl _

end SingleFlight
end MetricGateway
