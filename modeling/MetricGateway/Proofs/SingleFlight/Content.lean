import MetricGateway.Proofs.SingleFlight.Edits

/- What a step makes of the entries, as far as their values go: where a value comes from, and why an
   entry leaves the table. That values have a source and stay until they are displaced follows for
   runs. -/
namespace MetricGateway
namespace SingleFlight

variable {κ α ε : Type}

/-- What becomes of an entry where `writes` are the values that it may be given, and `drops` says
    whether it may be taken out of the table. -/
structure Entry.Becomes (writes : Option α → Prop) (drops : Prop) (e e' : Entry κ α ε) : Prop where
  key : e'.key = e.key
  value : e'.value = e.value ∨ writes e'.value
  listed : e'.listed = true → e.listed = true
  left : e.listed = true → e'.listed = false → e.value = none ∨ writes none ∨ drops

/-- Why an entry of a key leaves the table in the course of an effect: a removal that ends, or
    expiry. -/
def Dropped (removes : κ → Prop) (seen : List (Signal κ α ε)) (key : κ) : Prop :=
  (removes key ∧ ∃ t x, .finished t (.removed x) ∈ seen) ∨ .expired key ∈ seen

structure Continues (writes : κ → Option α → Prop) (removes : κ → Prop)
    (before after : List (Entry κ α ε)) (seen : List (Signal κ α ε)) : Prop where
  kept : ∀ (id : Nat) (e : Entry κ α ε), before[id]? = some e →
    ∃ e', after[id]? = some e' ∧ e.Becomes (writes e.key) (Dropped removes seen e.key) e'
  made : ∀ (id : Nat) (e' : Entry κ α ε), before[id]? = none → after[id]? = some e' →
    e'.value = none ∨ writes e'.key e'.value

namespace Entry

variable {writes : Option α → Prop} {drops : Prop}

theorem becomes_of_frame {e e' : Entry κ α ε} (key : e'.key = e.key) (value : e'.value = e.value)
    (listed : e'.listed = e.listed) : e.Becomes writes drops e' := by
  refine ⟨key, Or.inl value, fun h => listed ▸ h, ?_⟩
  intro before after
  rw [listed, before] at after
  cases after

theorem becomes_detach {e : Entry κ α ε} (cause : e.value = none ∨ writes none ∨ drops) :
    e.Becomes writes drops e.detach := by
  refine ⟨rfl, Or.inl rfl, ?_, fun _ _ => cause⟩
  intro listed
  cases listed

theorem becomes_install {e : Entry κ α ε} {now : Nat} {used : Bool} {value : α}
    (written : writes (some value)) : e.Becomes writes drops (e.install now used value) := by
  refine ⟨rfl, Or.inr written, fun listed => listed, ?_⟩
  intro before after
  exact absurd (before.symm.trans after) (by decide)

theorem Becomes.trans {e e' e'' : Entry κ α ε} (first : e.Becomes writes drops e')
    (rest : e'.Becomes writes drops e'') : e.Becomes writes drops e'' := by
  refine ⟨rest.key.trans first.key, ?_, fun h => first.listed (rest.listed h), ?_⟩
  · rcases rest.value with same | written
    · rw [same]
      exact first.value
    · exact Or.inr written
  · intro before after
    cases between : e'.listed with
    | false => exact first.left before between
    | true =>
      rcases rest.left between after with empty | displaced
      · rcases first.value with same | written
        · exact Or.inl (same.symm.trans empty)
        · exact Or.inr (Or.inl (empty ▸ written))
      · exact Or.inr displaced

end Entry

def Effect.Continues (writes : κ → Option α → Prop) (removes : κ → Prop) (s : State κ α ε)
    (effect : Effect κ α ε) : Prop :=
  SingleFlight.Continues writes removes s.entries effect.1.entries effect.2

variable [DecidableEq κ]

section Edits

variable {s : State κ α ε} {a : Action κ α ε} {seen : List (Signal κ α ε)} {e e' : Entry κ α ε}

theorem becomes_of_edit (edit : Edit (s.causes a seen) e e') :
    e.Becomes (fun x => s.write? e.key a = some x)
      (Dropped (fun key => s.removal? a = some key) seen e.key) e' := by
  cases edit with
  | gate | touch => exact Entry.becomes_of_frame rfl rfl rfl
  | install written => exact Entry.becomes_install written
  | fail failed =>
    refine ⟨rfl, Or.inl rfl, ?_, ?_⟩
    · intro after
      simp only [Entry.detachIfEmpty, Entry.fail, Bool.and_eq_true] at after
      exact after.1
    · intro before after
      simp only [Entry.detachIfEmpty, Entry.fail, before, Bool.true_and] at after
      exact Or.inl (by simpa using after)
  | invalidate invalid =>
    have clears : s.write? e.key a = some none := by
      have same : a = .invalidateAll := invalid
      rw [same]
      rfl
    unfold Entry.invalidate
    split
    · split
      · exact Entry.becomes_detach (Or.inr (Or.inl clears))
      · exact ⟨rfl, Or.inr clears, fun h => h, fun _ _ => Or.inr (Or.inl clears)⟩
    · exact Entry.becomes_of_frame rfl rfl rfl
  | remove gone =>
    obtain ⟨own, t, shown⟩ := gone
    exact Entry.becomes_detach (Or.inr (Or.inr (Or.inl ⟨own, t, e.value, shown⟩)))
  | expire old => exact Entry.becomes_detach (Or.inr (Or.inr (Or.inr old.2)))

theorem becomes_of_edits (edits : Edits (s.causes a seen) e e') :
    e.Becomes (fun x => s.write? e.key a = some x)
      (Dropped (fun key => s.removal? a = some key) seen e.key) e' := by
  refine Edits.keep (R := fun e e' => e.Becomes (fun x => s.write? e.key a = some x)
    (Dropped (fun key => s.removal? a = some key) seen e.key) e')
    (fun e => Entry.becomes_of_frame rfl rfl rfl) ?_ becomes_of_edit edits
  intro e f g first rest
  rw [first.key] at rest
  exact first.trans rest

end Edits

theorem step_continues {s : State κ α ε} {a : Action κ α ε} {effect : Effect κ α ε}
    (order : Orderly s) (step : step? s a = some effect) :
    effect.Continues (fun key x => s.write? key a = some x) (fun key => s.removal? a = some key)
      s := by
  have edited := step_edited order step
  constructor
  · intro id e here
    obtain ⟨e', there, edits⟩ := edited.kept id e here
    exact ⟨e', there, becomes_of_edits edits⟩
  · intro id e' absent there
    obtain ⟨key, now, edits⟩ := edited.made id e' absent there
    have becomes := becomes_of_edits edits
    rw [becomes.key]
    exact becomes.value

end SingleFlight
end MetricGateway
