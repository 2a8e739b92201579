import MetricGateway.Proofs.Round.Attribution

/- A round in which all documents come at once: nobody waits for a worker, and nothing is left at
   the deadline. -/
namespace MetricGateway
namespace Round

def promptly (documents : List (Instance × Page)) : List (Instance × FetchPlan) :=
  documents.map fun d => (d.1, ⟨some 0, .page d.2⟩)

theorem begins_of_zero {free spans : List Nat} (idle : ∀ n ∈ free, n = 0)
    (brief : ∀ n ∈ spans, n = 0) : Schedule.begins free spans = spans := by
  induction spans generalizing free with
  | nil => cases free <;> rfl
  | cons span spans ih =>
    have first : free.min?.getD 0 = 0 := by
      cases least : free.min? with
      | none => rfl
      | some n => exact idle n (List.min?_mem least)
    have zero : span = 0 := brief span List.mem_cons_self
    rw [Schedule.begins, first, zero, Nat.add_zero, ih]
    · intro n member
      rcases List.mem_cons.1 member with rfl | other
      · rfl
      · exact idle n (List.mem_of_mem_erase other)
    · exact fun n member => brief n (List.mem_cons_of_mem _ member)

variable (settings : RoundSettings) (documents : List (Instance × Page))

theorem slots_promptly : slots settings (promptly documents) =
    documents.map fun d => ⟨d.1, 0, 0, .page d.2⟩ := by
  have spans : ((promptly documents).map fun p => p.2.span settings.fetchTimeout) =
      documents.map fun _ => 0 := by
    rw [promptly, List.map_map]
    exact List.map_congr_left fun d _ => Nat.zero_min _
  rw [slots, spans, begins_of_zero]
  · rw [promptly, List.zip_map', List.map_map]
    refine List.map_congr_left fun d _ => ?_
    simp [FetchPlan.span, FetchPlan.result, FetchPlan.inTime]
  · exact fun n member => List.eq_of_mem_replicate member
  · intro n member
    obtain ⟨d, _, rfl⟩ := List.mem_map.1 member
    rfl

variable {settings} (positive : 0 < settings.maxProcessingTime)

include positive

theorem answered_promptly :
    answered settings.maxProcessingTime (slots settings (promptly documents)) =
      slots settings (promptly documents) := by
  have ends : ∀ s ∈ slots settings (promptly documents), s.ends = 0 ∧ isAnswer s.result = true := by
    intro s member
    rw [slots_promptly] at member
    obtain ⟨d, _, rfl⟩ := List.mem_map.1 member
    exact ⟨rfl, rfl⟩
  have early : ((slots settings (promptly documents)).filter fun s =>
      s.ends < settings.maxProcessingTime) = slots settings (promptly documents) := by
    rw [List.filter_eq_self]
    intro s member
    rw [(ends s member).1]
    exact decide_eq_true positive
  have sorted : (slots settings (promptly documents)).Pairwise fun a b =>
      decide (a.ends ≤ b.ends) = true := by
    refine List.pairwise_of_forall_mem_list fun a left b _ => ?_
    rw [(ends a left).1]
    exact decide_eq_true (Nat.zero_le _)
  rw [answered, arrived, early, List.mergeSort_of_pairwise sorted, List.filter_eq_self]
  exact fun s member => (ends s member).2

theorem unanswered_promptly :
    unanswered settings.maxProcessingTime (slots settings (promptly documents)) = [] := by
  rw [unanswered, List.filter_eq_nil_iff]
  intro s member
  rw [slots_promptly] at member
  obtain ⟨d, _, rfl⟩ := List.mem_map.1 member
  simp [isAnswer, positive]

theorem run_promptly (bare : settings.labelEnrichment = false) :
    run settings true (promptly documents) =
      { up := documents.map fun d => (d.1, true), raw := documents } := by
  have length : duration settings.maxProcessingTime (slots settings (promptly documents)) = 0 := by
    rw [duration]
    cases most : ((slots settings (promptly documents)).map Slot.ends).max? with
    | none => exact Nat.min_zero _
    | some n =>
      obtain ⟨s, member, rfl⟩ := List.mem_map.1 (List.max?_mem most)
      rw [slots_promptly] at member
      obtain ⟨d, _, rfl⟩ := List.mem_map.1 member
      exact Nat.min_zero _
  have whole : Round.documents (slots settings (promptly documents)) = documents := by
    rw [slots_promptly, Round.documents, List.filterMap_map]
    exact List.filterMap_some
  rw [run, answered_promptly documents positive, unanswered_promptly documents positive, length,
    whole, slots_promptly, bare, List.map_map]
  simp [Slot.page?]

theorem recordIn_promptly (m : GatewayMetrics) : recordIn settings (promptly documents) m =
    (documents.map Prod.fst).foldl (fun m i => m.observeLatency i (milliseconds 0)) m := by
  rw [recordIn, answered_promptly documents positive, unanswered_promptly documents positive,
    slots_promptly, List.foldl_nil, List.foldl_map, List.foldl_map]
  rfl

end Round
end MetricGateway
