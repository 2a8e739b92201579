import MetricGateway.Round.Schedule

/- The begin times of a round are those of a fair queue of workers: each task begins at the first
   moment at which those before it have begun and fewer of them run than there are workers. -/
namespace MetricGateway
namespace Schedule

def Free (workers : Nat) (begun : List (Nat × Nat)) (t : Nat) : Prop :=
  (∀ task ∈ begun, task.1 ≤ t) ∧ begun.countP (fun task => t < task.1 + task.2) < workers

/-- Begin times of tasks with given spans, each as early as a worker is free for it. -/
inductive InTurn (workers : Nat) : List (Nat × Nat) → List Nat → List Nat → Prop where
  | nil (begun : List (Nat × Nat)) : InTurn workers begun [] []
  | cons {begun : List (Nat × Nat)} {span start : Nat} {spans starts : List Nat}
      (free : Free workers begun start) (least : ∀ t, Free workers begun t → start ≤ t)
      (later : InTurn workers ((start, span) :: begun) spans starts) :
      InTurn workers begun (span :: spans) (start :: starts)

theorem InTurn.length_eq {workers : Nat} {begun : List (Nat × Nat)} {spans starts : List Nat}
    (turns : InTurn workers begun spans starts) : starts.length = spans.length := by
  induction turns with
  | nil => rfl
  | cons _ _ _ ih => simp [ih]

theorem InTurn.unique {workers : Nat} {begun : List (Nat × Nat)} {spans starts others : List Nat}
    (turns : InTurn workers begun spans starts) (again : InTurn workers begun spans others) :
    starts = others := by
  induction turns generalizing others with
  | nil => cases again; rfl
  | cons free least _ ih =>
    cases again with
    | cons free' least' later' =>
      cases Nat.le_antisymm (least _ free') (least' _ free)
      rw [ih later']

theorem Free.perm {workers : Nat} {begun others : List (Nat × Nat)} {t : Nat}
    (same : begun.Perm others) (free : Free workers begun t) : Free workers others t :=
  ⟨fun task member => free.1 task (same.mem_iff.2 member), same.countP_eq _ ▸ free.2⟩

theorem InTurn.concat {workers : Nat} {begun : List (Nat × Nat)} {spans starts : List Nat}
    (turns : InTurn workers begun spans starts) (span : Nat) {start : Nat}
    (free : Free workers ((starts.zip spans).reverse ++ begun) start)
    (least : ∀ t, Free workers ((starts.zip spans).reverse ++ begun) t → start ≤ t) :
    InTurn workers begun (spans ++ [span]) (starts ++ [start]) := by
  induction turns with
  | nil begun => exact .cons free least (.nil _)
  | cons first earliest later ih =>
    rw [List.zip_cons_cons, List.reverse_cons, List.append_assoc] at free least
    exact .cons first earliest (ih free least)

theorem InTurn.split {workers : Nat} {begun : List (Nat × Nat)} {spans more starts : List Nat}
    (turns : InTurn workers begun (spans ++ more) starts) :
    ∃ first later, starts = first ++ later ∧ InTurn workers begun spans first ∧
      InTurn workers ((first.zip spans).reverse ++ begun) more later := by
  induction spans generalizing begun starts with
  | nil => exact ⟨[], starts, rfl, .nil begun, turns⟩
  | cons span spans ih =>
    cases turns with
    | @cons _ _ start _ starts free least rest =>
      obtain ⟨first, later, rfl, begin_first, begin_later⟩ := ih rest
      refine ⟨start :: first, later, rfl, .cons free least begin_first, ?_⟩
      rw [List.zip_cons_cons, List.reverse_cons, List.append_assoc]
      exact begin_later

/-- The moments at which workers are free next tell how many of the tasks run, from the last
    beginning on. -/
structure Tracks (free : List Nat) (begun : List (Nat × Nat)) : Prop where
  running : ∀ t, (∀ task ∈ begun, task.1 ≤ t) →
    begun.countP (fun task => t < task.1 + task.2) = free.countP (t < ·)
  begun : ∀ task ∈ begun, ∀ f ∈ free, task.1 ≤ f

theorem Tracks.next {free : List Nat} {begun : List (Nat × Nat)} (tracks : Tracks free begun)
    {start : Nat} (member : start ∈ free) (least : ∀ f ∈ free, start ≤ f) (span : Nat) :
    Tracks ((start + span) :: free.erase start) ((start, span) :: begun) := by
  constructor
  · intro t after
    have now : start ≤ t := after (start, span) List.mem_cons_self
    have before := tracks.running t fun task other => after task (List.mem_cons_of_mem _ other)
    have parted := (List.perm_cons_erase member).countP_eq (t < ·)
    rw [List.countP_cons_of_neg (by simpa using now)] at parted
    simp only [List.countP_cons, before, parted]
  · intro task own f later
    have early : task.1 ≤ start := by
      rcases List.mem_cons.1 own with rfl | other
      · exact Nat.le_refl _
      · exact tracks.begun task other start member
    rcases List.mem_cons.1 later with rfl | other
    · omega
    · exact Nat.le_trans early (least f (List.mem_of_mem_erase other))

theorem begins_inTurn {workers : Nat} (some_worker : 0 < workers) {spans free : List Nat}
    {begun : List (Nat × Nat)} (tracks : Tracks free begun)
    (enough : free.length = min workers (begun.length + spans.length)) :
    InTurn workers begun spans (begins free spans) := by
  induction spans generalizing free begun with
  | nil => exact .nil begun
  | cons span spans ih =>
    have filled : free ≠ [] := by
      rintro rfl
      simp only [List.length_nil, List.length_cons] at enough
      omega
    obtain ⟨start, first⟩ : ∃ start, free.min? = some start := by
      cases first : free.min? with
      | some start => exact ⟨start, rfl⟩
      | none => exact absurd (List.min?_eq_none_iff.1 first) filled
    obtain ⟨member, least⟩ := List.min?_eq_some_iff.1 first
    have begin_at : begins free (span :: spans) =
        start :: begins ((start + span) :: free.erase start) spans := by
      simp only [begins, first, Option.getD_some]
    rw [begin_at]
    have started : ∀ task ∈ begun, task.1 ≤ start := fun task other =>
      tracks.begun task other start member
    refine .cons ⟨started, ?_⟩ ?_ (ih (tracks.next member least span) ?_)
    · rw [tracks.running start started]
      have parted := (List.perm_cons_erase member).countP_eq (start < ·)
      rw [List.countP_cons_of_neg (by simp)] at parted
      have others := (free.erase start).countP_le_length (p := (start < ·))
      rw [List.length_erase_of_mem member] at others
      have one := List.length_pos_of_mem member
      omega
    · intro t ⟨after, few⟩
      -- Before `start` every worker is taken, or there are no more tasks than workers.
      rw [tracks.running t after] at few
      refine Nat.le_of_not_lt fun early => ?_
      have count : free.countP (t < ·) = free.length :=
        List.countP_eq_length.2 fun f later => decide_eq_true (by have := least f later; omega)
      have bound := begun.countP_le_length (p := fun task => t < task.1 + task.2)
      rw [tracks.running t after] at bound
      simp only [List.length_cons] at enough
      omega
    · simp only [List.length_cons, List.length_erase_of_mem member] at enough ⊢
      omega

theorem begins_idleWorkers (workers : Nat) (spans : List Nat) :
    InTurn (max workers 1) [] spans (begins (idleWorkers workers spans.length) spans) := by
  refine begins_inTurn (by omega) ⟨?_, by simp⟩ (by simp [idleWorkers])
  intro t _
  simp [idleWorkers, List.countP_replicate]

end Schedule
end MetricGateway
