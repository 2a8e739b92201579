import MetricGateway.Proofs.SingleFlight.Order

/- What the table of an orderly cache holds under a key: the one entry to which look-up leads. A get
   that finds a value there ends at once, whatever else goes on. -/
namespace MetricGateway
namespace SingleFlight

variable {κ α ε : Type} [DecidableEq κ]

theorem State.contains_eq_true_iff {s : State κ α ε} {key : κ} :
    s.contains key = true ↔ ∃ (id : Nat) (e : Entry κ α ε), s.entries[id]? = some e ∧
      e.listed = true ∧ e.value.isSome = true ∧ e.key = key := by
  simp only [State.contains, List.any_eq_true, Entry.held, Bool.and_eq_true, decide_eq_true_eq]
  constructor
  · rintro ⟨e, member, ⟨listed, full⟩, own⟩
    obtain ⟨id, here⟩ := List.getElem?_of_mem member
    exact ⟨id, e, here, listed, full, own⟩
  · rintro ⟨id, e, here, listed, full, own⟩
    exact ⟨e, List.mem_of_getElem? here, ⟨listed, full⟩, own⟩

namespace Orderly

theorem find?_eq {s : State κ α ε} (order : Orderly s) {id : Nat} {e : Entry κ α ε}
    (here : s.entries[id]? = some e) (listed : e.listed = true) : s.find? e.key = some id := by
  obtain ⟨j, found⟩ := State.find?_of_listed here listed
  obtain ⟨f, there, also, same⟩ := State.find?_eq_some found
  cases order.unique j id f e there here also listed same
  exact found

theorem claim_eq {s : State κ α ε} (order : Orderly s) {id : Nat} {e : Entry κ α ε}
    (here : s.entries[id]? = some e) (listed : e.listed = true) : s.claim e.key = (s, id) := by
  simp [State.claim, order.find?_eq here listed]

theorem contains_iff {s : State κ α ε} (order : Orderly s) {id : Nat} {e : Entry κ α ε}
    (here : s.entries[id]? = some e) (listed : e.listed = true) :
    s.contains e.key = true ↔ e.value.isSome = true := by
  rw [State.contains_eq_true_iff]
  constructor
  · rintro ⟨j, f, there, also, full, same⟩
    cases order.unique j id f e there here also listed same
    cases here.symm.trans there
    exact full
  · intro full
    exact ⟨id, e, here, listed, full, rfl⟩

theorem get_held {s : State κ α ε} (order : Orderly s) {id : Nat} {e : Entry κ α ε} {v : α}
    (here : s.entries[id]? = some e) (listed : e.listed = true) (full : e.value = some v)
    {t : TaskId} (idle : s.phase? t = none) :
    ∃ s', step? s (.get t e.key) = some (s', [.finished t (.got v)]) := by
  have begun : s.beginGet t e.key = s.serve t id v := by
    simp [State.beginGet, order.claim_eq here listed, here, full]
  refine ⟨(s.serve t id v).1, ?_⟩
  simp only [step?, idle, Option.isNone_none, if_true, begun]
  rfl

end Orderly

end SingleFlight
end MetricGateway
