import MetricGateway.Proofs.SingleFlight.Due

/- Nobody is stranded. Whoever waits stands behind a task that can go on, or that waits for the
   loader. How much the tasks that have been started have still to do is a number that each step
   towards their ends lowers, so that it comes to an end when the loader calls do. -/
namespace MetricGateway
namespace SingleFlight

variable {κ α ε : Type}

def Action.settles : Action κ α ε → Bool
  | .resume _ | .loaded .. => true
  | .get .. | .remove .. | .sweep .. | .put .. | .invalidateAll | .cancel _ | .advance _ => false

def State.lists (s : State κ α ε) (id : Nat) : Bool := (s.entries[id]?.map Entry.listed).getD false

/-- A bound for what a task has still to do among `n` tasks. A get in line has to come once more if
    its entry leaves the table. A task that ends may take one entry out, and so give each of the
    others one thing more to do; its own work is counted higher than that. -/
def Phase.effort (n : Nat) (lists : Nat → Bool) : Phase κ → Nat
  | .getLoading .. => n + 1
  | .getQueued _ id _ | .removeQueued _ id => if lists id then n + 2 else n + 3
  | .refreshing _ rest _ => (n + 1) * (rest.length + 1)

def totalEffort (effort : Phase κ → Nat) : List (TaskId × Phase κ) → Nat
  | [] => 0
  | task :: rest => effort task.2 + totalEffort effort rest

def State.work (s : State κ α ε) (n : Nat) : Nat := totalEffort (Phase.effort n s.lists) s.tasks

section Effort

variable {effort effort' : Phase κ → Nat}

theorem totalEffort_append (tasks more : List (TaskId × Phase κ)) :
    totalEffort effort (tasks ++ more) = totalEffort effort tasks + totalEffort effort more := by
  induction tasks with
  | nil => simp [totalEffort]
  | cons task rest ih =>
    simp only [List.cons_append, totalEffort, ih]
    omega

theorem totalEffort_le {k : Nat} (each : ∀ p, effort p ≤ effort' p + k)
    (tasks : List (TaskId × Phase κ)) :
    totalEffort effort tasks ≤ totalEffort effort' tasks + k * tasks.length := by
  induction tasks with
  | nil => simp [totalEffort]
  | cons task rest ih =>
    have first := each task.2
    simp only [totalEffort, List.length_cons, Nat.mul_succ]
    omega

theorem totalEffort_filter_le (effort : Phase κ → Nat) (keep : TaskId × Phase κ → Bool)
    (tasks : List (TaskId × Phase κ)) :
    totalEffort effort (tasks.filter keep) ≤ totalEffort effort tasks := by
  induction tasks with
  | nil => simp
  | cons task rest ih =>
    rw [List.filter_cons]
    split
    · simp only [totalEffort]
      omega
    · simp only [totalEffort]
      omega

variable {s : State κ α ε} {t : TaskId} {p : Phase κ}

theorem totalEffort_dropTask (phase : s.phase? t = some p) :
    totalEffort effort (s.dropTask t).tasks + effort p ≤ totalEffort effort s.tasks := by
  obtain ⟨before, after, same, _⟩ := List.lookup_eq_some_iff.1 phase
  have first := totalEffort_filter_le effort (fun task => task.1 ≠ t) before
  have last := totalEffort_filter_le effort (fun task => task.1 ≠ t) after
  have whole : totalEffort effort s.tasks =
      totalEffort effort before + (effort p + totalEffort effort after) := by
    rw [same, totalEffort_append]
    simp [totalEffort]
  have rest : totalEffort effort (s.dropTask t).tasks =
      totalEffort effort (before.filter (·.1 ≠ t)) +
        totalEffort effort (after.filter (·.1 ≠ t)) := by
    rw [← totalEffort_append, State.dropTask, same, List.filter_append]
    simp
  omega

end Effort

section Tables

variable {s s' : State κ α ε} {n : Nat}

theorem effort_mono {lists lists' : Nat → Bool} (still : ∀ id, lists id = true → lists' id = true)
    (p : Phase κ) : p.effort n lists' ≤ p.effort n lists := by
  cases p with
  | getLoading | refreshing => exact Nat.le_refl _
  | getQueued _ id | removeQueued _ id =>
    simp only [Phase.effort]
    cases before : lists id with
    | true => simp [still id before]
    | false => split <;> simp

theorem effort_le_succ (lists lists' : Nat → Bool) (p : Phase κ) :
    p.effort n lists' ≤ p.effort n lists + 1 := by
  cases p with
  | getLoading | refreshing => exact Nat.le_succ _
  | getQueued | removeQueued =>
    simp only [Phase.effort]
    split <;> split <;> omega

theorem work_mono (tasks : s'.tasks = s.tasks)
    (still : ∀ id, s.lists id = true → s'.lists id = true) : s'.work n ≤ s.work n := by
  have each : ∀ p : Phase κ, p.effort n s'.lists ≤ p.effort n s.lists + 0 := effort_mono still
  simpa [State.work, tasks] using totalEffort_le each s.tasks

theorem work_le_add_tasks (tasks : s'.tasks = s.tasks) : s'.work n ≤ s.work n + s.tasks.length := by
  have each := totalEffort_le (effort_le_succ (n := n) s.lists s'.lists) s.tasks
  simpa [State.work, tasks] using each

theorem lists_modifyEntry (s : State κ α ε) (id : Nat) {f : Entry κ α ε → Entry κ α ε}
    (frame : ∀ e, (f e).listed = e.listed) : (s.modifyEntry id f).lists = s.lists := by
  funext j
  simp only [State.lists, State.getElem?_modifyEntry]
  split
  · cases s.entries[j]? <;> simp [frame]
  · rfl

theorem work_modifyEntry (s : State κ α ε) (id : Nat) {f : Entry κ α ε → Entry κ α ε}
    (frame : ∀ e, (f e).listed = e.listed) : (s.modifyEntry id f).work n = s.work n := by
  rw [State.work, lists_modifyEntry s id frame]
  rfl

theorem work_setPhase (s : State κ α ε) (t : TaskId) (p : Phase κ) :
    (s.setPhase t p).work n = (s.dropTask t).work n + p.effort n s.lists := by
  have same : (s.setPhase t p).tasks = (s.dropTask t).tasks ++ [(t, p)] := rfl
  rw [State.work, same, totalEffort_append]
  simp [totalEffort, State.work]
  rfl

end Tables

/-- What there is to do after a task's step: no more than before without this task, and a cost,
    which is the rest of the task's own work or what it gives others to do. -/
structure Costs (s s' : State κ α ε) (t : TaskId) (n cost : Nat) : Prop where
  work : s'.work n ≤ (s.dropTask t).work n + cost
  tasks : s'.tasks.length ≤ (s.dropTask t).tasks.length + 1

section Operations

variable {s s' : State κ α ε} {t : TaskId} {n : Nat}

theorem Costs.mono {cost cost' : Nat} (costs : Costs s s' t n cost) (more : cost ≤ cost') :
    Costs s s' t n cost' :=
  ⟨Nat.le_trans costs.work (Nat.add_le_add_left more _), costs.tasks⟩

theorem Costs.framed {cost : Nat} (id : Nat) {f : Entry κ α ε → Entry κ α ε}
    (frame : ∀ e, (f e).listed = e.listed) (costs : Costs (s.modifyEntry id f) s' t n cost) :
    Costs s s' t n cost := by
  have same : ((s.modifyEntry id f).dropTask t).work n = (s.dropTask t).work n :=
    work_modifyEntry (s.dropTask t) id frame
  exact ⟨same ▸ costs.work, costs.tasks⟩

/-- A change of one entry, be it that it leaves the table: each of the other tasks may then have to
    wait once more. -/
theorem Costs.changed {cost : Nat} (few : s.tasks.length ≤ n) (id : Nat)
    (f : Entry κ α ε → Entry κ α ε) (costs : Costs (s.modifyEntry id f) s' t n cost) :
    Costs s s' t n (cost + n) := by
  have out : ((s.modifyEntry id f).dropTask t).work n ≤
      (s.dropTask t).work n + (s.dropTask t).tasks.length := work_le_add_tasks rfl
  have fewer : (s.dropTask t).tasks.length ≤ s.tasks.length := List.length_filter_le _ _
  have work := costs.work
  exact ⟨by omega, costs.tasks⟩

theorem costs_dropTask (s : State κ α ε) (t : TaskId) : Costs s (s.dropTask t) t n 0 :=
  ⟨Nat.le_refl _, Nat.le_succ _⟩

theorem costs_leave (s : State κ α ε) (t : TaskId) (id : Nat) :
    Costs s ((s.dropTask t).modifyEntry id Entry.release) t n 0 :=
  ⟨Nat.le_of_eq (work_modifyEntry (s.dropTask t) id fun _ => rfl), Nat.le_succ _⟩

theorem costs_setPhase (s : State κ α ε) (t : TaskId) (p : Phase κ) :
    Costs s (s.setPhase t p) t n (p.effort n s.lists) :=
  ⟨Nat.le_of_eq (work_setPhase s t p), by simp [State.setPhase]⟩

theorem costs_serve (s : State κ α ε) (t : TaskId) (id : Nat) (value : α) :
    Costs s (s.serve t id value).1 t n 0 :=
  .framed id (f := (·.touch s.now)) (fun _ => rfl) (costs_dropTask _ t)

theorem costs_beginLoad (s : State κ α ε) (t : TaskId) (key : κ) (id : Nat) :
    Costs s (s.beginLoad t key id).1 t n (n + 1) :=
  .framed id (f := (·.acquire t)) (fun _ => rfl) (costs_setPhase _ t (.getLoading key id))

theorem costs_completeRemove (few : s.tasks.length ≤ n) (id : Nat) (e : Entry κ α ε) :
    Costs s (s.completeRemove t id e).1 t n n := by
  have left := Costs.changed few id Entry.detach (costs_leave (s.modifyEntry id Entry.detach) t id)
  rwa [Nat.zero_add] at left

theorem costs_endLoad (few : s.tasks.length ≤ n) (id : Nat) (outcome : Except ε α) :
    Costs s (s.endLoad t id outcome).1 t n n := by
  cases outcome with
  | ok value =>
    have left := Costs.framed id (f := (·.install s.now true value)) (fun _ => rfl)
      (costs_leave (n := n) (s.modifyEntry id (·.install s.now true value)) t id)
    exact left.mono (Nat.zero_le n)
  | error error =>
    have left := Costs.changed few id (fun e => (e.fail error).detachIfEmpty)
      (costs_leave (s.modifyEntry id fun e => (e.fail error).detachIfEmpty) t id)
    rwa [Nat.zero_add] at left

theorem costs_sweepOver (few : s.tasks.length ≤ n) (began : Nat) (order : List Nat) :
    Costs s (s.sweepOver t began order).1 t n ((n + 1) * order.length) := by
  induction order generalizing s with
  | nil => exact costs_dropTask s t
  | cons id rest ih =>
    have visits := sweepOver_visits s t began id rest
    generalize (s.sweepOver t began (id :: rest)).1 = after at visits ⊢
    rw [List.length_cons, Nat.mul_succ]
    cases visits with
    | skip => exact (ih few).mono (Nat.le_add_right _ _)
    | purge =>
      have later := Costs.changed few id Entry.detach (ih (s := s.modifyEntry id Entry.detach) few)
      exact later.mono (Nat.add_le_add_left (Nat.le_succ n) _)
    | reload =>
      have begun := Costs.framed (n := n) id (f := (·.acquire t)) (fun _ => rfl)
        (costs_setPhase (s.modifyEntry id (·.acquire t)) t (.refreshing id rest began))
      simpa [Phase.effort, Nat.mul_succ] using begun

theorem costs_endRefresh (few : s.tasks.length ≤ n) (id : Nat) (rest : List Nat) (began : Nat)
    (key : κ) (outcome : Except ε α) :
    Costs s (s.endRefresh t id rest began key outcome).1 t n ((n + 1) * rest.length) := by
  have swept := fun s₁ : State κ α ε => fun few : s₁.tasks.length ≤ n =>
    Costs.framed id (f := Entry.release) (fun _ => rfl)
      (costs_sweepOver (t := t) (s := s₁.modifyEntry id Entry.release) few began rest)
  cases outcome with
  | ok value =>
    exact .framed id (f := (·.install s.now false value)) (fun _ => rfl) (swept _ few)
  | error => exact swept s few

theorem Costs.settled {cost : Nat} {p : Phase κ} (costs : Costs s s' t n cost)
    (phase : s.phase? t = some p) (less : cost < p.effort n s.lists) :
    s'.work n < s.work n ∧ s'.tasks.length ≤ s.tasks.length := by
  constructor
  · have left : (s.dropTask t).work n + p.effort n s.lists ≤ s.work n := totalEffort_dropTask phase
    have work := costs.work
    omega
  · obtain ⟨before, after, same, _⟩ := List.lookup_eq_some_iff.1 phase
    have member : (t, p) ∈ s.tasks := by simp [same]
    have fewer : (s.dropTask t).tasks.length < s.tasks.length :=
      List.length_filter_lt_length_iff_exists.2 ⟨(t, p), member, by simp⟩
    have tasks := costs.tasks
    omega

variable [DecidableEq κ]

theorem lists_claim (s : State κ α ε) (key : κ) {id : Nat} (listed : s.lists id = true) :
    (s.claim key).1.lists id = true := by
  cases here : s.entries[id]? with
  | none => simp [State.lists, here] at listed
  | some e => simpa [State.lists, State.getElem?_claim here, here] using listed

theorem tasks_claim (s : State κ α ε) (key : κ) : (s.claim key).1.tasks = s.tasks := by
  unfold State.claim
  split <;> rfl

theorem costs_beginGet (s : State κ α ε) (t : TaskId) (key : κ) :
    Costs s (s.beginGet t key).1 t n (n + 2) := by
  obtain ⟨e, here, listed, _⟩ := State.claim_listed s key
  have still : ∀ id, s.lists id = true → (s.claim key).1.lists id = true :=
    fun id => lists_claim s key
  have same := tasks_claim s key
  -- An entry that is made takes none out of the table.
  have claimed : ∀ {s'}, Costs (s.claim key).1 s' t n (n + 2) → Costs s s' t n (n + 2) := by
    intro s' costs
    have dropped : ((s.claim key).1.dropTask t).tasks = (s.dropTask t).tasks := by
      simp [State.dropTask, same]
    have less : ((s.claim key).1.dropTask t).work n ≤ (s.dropTask t).work n :=
      work_mono dropped still
    exact ⟨Nat.le_trans costs.work (Nat.add_le_add_right less _), dropped ▸ costs.tasks⟩
  unfold State.beginGet
  simp only [here]
  split
  · exact claimed ((costs_serve _ t _ _).mono (Nat.zero_le _))
  · exact claimed ((costs_beginLoad _ t key _).mono (Nat.le_succ _))
  · refine claimed (.framed (s.claim key).2 (f := (·.enqueue t)) (fun _ => rfl) ?_)
    have lists : ((s.claim key).1.modifyEntry (s.claim key).2 (·.enqueue t)).lists
        (s.claim key).2 = true := by
      simp [State.lists, State.modifyEntry_of_getElem? here, Entry.enqueue, listed]
    have costs := costs_setPhase (n := n)
      ((s.claim key).1.modifyEntry (s.claim key).2 (·.enqueue t)) t
      (.getQueued key (s.claim key).2 e.failures)
    rwa [Phase.effort, if_pos lists] at costs

theorem costs_resumeGet (s : State κ α ε) (t : TaskId) (key : κ) (id failures : Nat)
    (e : Entry κ α ε) :
    Costs s (s.resumeGet t key id failures e).1 t n (if e.listed then n + 1 else n + 2) := by
  unfold State.resumeGet
  split
  · rename_i value full
    have served := Costs.framed (n := n) id (f := (·.touch s.now)) (fun _ => rfl)
      (costs_leave (s.modifyEntry id (·.touch s.now)) t id)
    exact served.mono (Nat.zero_le _)
  · split
    · exact (costs_leave s t id).mono (Nat.zero_le _)
    · split
      · exact costs_beginLoad s t key id
      · -- The get starts over, and comes into line before an entry of the table at worst.
        have again := Costs.framed (s := s.dropTask t) (n := n) id (f := Entry.release)
          (fun _ => rfl) (costs_beginGet _ t key)
        have twice : (s.dropTask t).dropTask t = s.dropTask t := by simp [State.dropTask]
        have work := again.work
        have tasks := again.tasks
        rw [twice] at work tasks
        exact ⟨work, tasks⟩

end Operations

section Settling

variable [DecidableEq κ] {s s' : State κ α ε} {a : Action κ α ε} {seen : List (Signal κ α ε)}

/-- Each step towards the end lowers the work, and starts no new task. -/
theorem step_settles {n : Nat} (few : s.tasks.length ≤ n) (settles : a.settles = true)
    (step : step? s a = some (s', seen)) :
    s'.work n < s.work n ∧ s'.tasks.length ≤ s.tasks.length := by
  generalize same : (s', seen) = effect at step
  have after : s' = effect.1 := congrArg Prod.fst same
  subst after
  cases taken_of_step step with
  | @resumeGet t key id failures e phase here _ =>
    refine (costs_resumeGet s t key id failures e).settled phase ?_
    have listed : s.lists id = e.listed := by simp [State.lists, here]
    rw [Phase.effort, listed]
    split <;> omega
  | @resumeRemove t key id e phase =>
    refine (costs_completeRemove few id e).settled phase ?_
    rw [Phase.effort]
    split <;> omega
  | endLoad phase _ outcome =>
    exact (costs_endLoad few _ outcome).settled phase (Nat.lt_succ_self n)
  | @endRefresh t id rest began e phase _ outcome =>
    refine (costs_endRefresh few id rest began e.key outcome).settled phase ?_
    rw [Phase.effort, Nat.mul_succ]
    omega
  | get | remove | sweep | put | invalidateAll | cancel | advance => cases settles

theorem run_settles {n : Nat} {actions : List (Action κ α ε)} (few : s.tasks.length ≤ n)
    (settles : ∀ a ∈ actions, a.settles = true) (ran : run? s actions = some (s', seen)) :
    actions.length + s'.work n ≤ s.work n := by
  induction actions generalizing s seen with
  | nil =>
    cases ran
    simp
  | cons a rest ih =>
    obtain ⟨s₁, first, more, step, others, _⟩ := run_cons ran
    obtain ⟨less, fewer⟩ := step_settles few (settles a List.mem_cons_self) step
    have later := ih (Nat.le_trans fewer few)
      (fun b member => settles b (List.mem_cons_of_mem a member)) others
    rw [List.length_cons]
    omega

theorem run_answers {actions : List (Action κ α ε)} {t : TaskId} (order : Orderly s)
    (settles : ∀ a ∈ actions, a.settles = true) (ran : run? s actions = some (s', seen))
    (waits : s.phase? t ≠ none) : s'.phase? t ≠ none ∨ ∃ r, .finished t r ∈ seen := by
  induction actions generalizing s seen with
  | nil =>
    cases ran
    exact Or.inl waits
  | cons a rest ih =>
    obtain ⟨s₁, first, more, step, others, rfl⟩ := run_cons ran
    have still : s₁.phase? t ≠ none ∨ ∃ r, .finished t r ∈ first := by
      by_cases acts : a.actor = .task t
      · have up : a ≠ .cancel t := by
          rintro rfl
          exact absurd (settles _ List.mem_cons_self) (by simp [Action.settles])
        obtain ⟨_, _, goes⟩ := step_goes order step acts up
        cases goes with
        | @done r _ shown =>
          exact Or.inr ⟨r, mem_ends.1 (shown ▸ List.mem_singleton_self r)⟩
        | waits phase =>
          refine Or.inl fun idle => ?_
          cases idle.symm.trans phase
      · have moves : Moves a.actor s first s₁ := step_byMoves order step
        rw [moves.phase_of_other acts]
        exact Or.inl waits
    rcases still with still | ⟨r, shown⟩
    · have later := ih (step_orderly order step)
        (fun b member => settles b (List.mem_cons_of_mem a member)) others still
      exact later.imp_right fun ⟨r, shown⟩ => ⟨r, List.mem_append_right first shown⟩
    · exact Or.inr ⟨r, List.mem_append_left more shown⟩

theorem Orderly.goes_on (order : Orderly s) {t : TaskId} (waits : s.phase? t ≠ none) :
    (∃ u, step? s (.resume u) ≠ none) ∨ ∃ u key, s.callOf? u = some key := by
  obtain ⟨p, phase⟩ := Option.ne_none_iff_exists'.1 waits
  obtain ⟨e, here, _⟩ := order.seated t p phase
  obtain ⟨_, h, holds⟩ := order.busy_of_waiting phase here
  obtain ⟨q, turn, at_id⟩ := order.phase_of_holder here holds
  have entry : s.entries[q.entry]? = some e := at_id ▸ here
  cases q with
  | getQueued | removeQueued => exact Or.inl ⟨h, by simp [step?, turn, entry, holds]⟩
  | getLoading key id => exact Or.inr ⟨h, key, by simp [State.callOf?, turn]⟩
  | refreshing id rest began =>
    change s.entries[id]? = some e at entry
    exact Or.inr ⟨h, e.key, by simp [State.callOf?, turn, entry]⟩

theorem Orderly.call_ends (order : Orderly s) {u : TaskId} {key : κ}
    (call : s.callOf? u = some key) (outcome : Except ε α) :
    step? s (.loaded u outcome) ≠ none := by
  obtain ⟨p, e, phase, here, _⟩ := order.entry_of_call call
  cases p with
  | getLoading | refreshing => simp [step?, phase, here]
  | getQueued | removeQueued => simp [State.callOf?, phase] at call

end Settling

/-- Whatever tasks there have been, however they have interleaved and whichever have been given up:
    as long as one waits, some task can go on or a loader call is in flight, and the call can end.
    The steps of both kinds come to an end, and when no more of them can be taken nobody waits: all
    that have waited have been answered. -/
theorem nobody_stranded [DecidableEq κ] {settings : Settings} {now : Nat}
    {actions : List (Action κ α ε)} {s : State κ α ε} {seen : List (Signal κ α ε)}
    (reached : run? { settings, now } actions = some (s, seen)) :
    (∀ t, s.phase? t ≠ none →
      (∃ u, step? s (.resume u) ≠ none) ∨ ∃ u key, s.callOf? u = some key) ∧
    (∀ u key outcome, s.callOf? u = some key → step? s (.loaded u outcome) ≠ none) ∧
    ∃ bound, ∀ more s' shown, (∀ a ∈ more, a.settles = true) → run? s more = some (s', shown) →
      more.length ≤ bound ∧
        ((∀ u, step? s' (.resume u) = none) → (∀ u, s'.callOf? u = none) →
          ∀ t, s'.phase? t = none ∧ (s.phase? t ≠ none → ∃ r, .finished t r ∈ shown)) := by
  have order := run_orderly (orderly_initial settings now) reached
  refine ⟨fun t waits => order.goes_on waits, ?_, s.work s.tasks.length, ?_⟩
  · exact fun u key outcome call => order.call_ends call outcome
  intro more s' shown settles ran
  have spent := run_settles (Nat.le_refl s.tasks.length) settles ran
  refine ⟨by omega, fun stopped silent t => ?_⟩
  have idle : s'.phase? t = none := by
    refine Option.not_isSome_iff_eq_none.1 fun waits => ?_
    rcases (run_orderly order ran).goes_on (Option.isSome_iff_ne_none.1 waits) with
      ⟨u, goes⟩ | ⟨u, key, call⟩
    · exact goes (stopped u)
    · cases (silent u).symm.trans call
  refine ⟨idle, fun waits => ?_⟩
  exact (run_answers order settles ran waits).resolve_left fun waits => waits idle

/-- A get is given up while another one and a removal wait in line behind its load. -/
def givenUpBeforeOthers : List (Action Nat Nat Unit) :=
  [.get (.request 0) 7, .get (.request 1) 7, .remove (.request 2) 7, .cancel (.request 0)]

def othersSettle : List (Action Nat Nat Unit) :=
  [.resume (.request 1), .loaded (.request 1) (.error ()), .resume (.request 2)]

theorem others_answered :
    let start : State Nat Nat Unit := { settings := ⟨none, none, 1000, false⟩ }
    ∃ s seen s' shown, run? start givenUpBeforeOthers = some (s, seen) ∧
      ((∃ u, step? s (.resume u) ≠ none) ∨ ∃ u key, s.callOf? u = some key) ∧
      run? s othersSettle = some (s', shown) ∧
        ∀ t, s'.phase? t = none ∧ (s.phase? t ≠ none → ∃ r, .finished t r ∈ shown) := by
  let start : State Nat Nat Unit := { settings := ⟨none, none, 1000, false⟩ }
  let entry : Entry Nat Nat Unit := { key := 7, loadedAt := 0, usedAt := 0 }
  let s : State Nat Nat Unit := { start with
    entries := [{ entry with holder := some (.request 1), queue := [.request 2] }]
    tasks := [(.request 1, .getQueued 7 0 0), (.request 2, .removeQueued 7 0)] }
  let s' : State Nat Nat Unit := { start with entries := [(entry.fail ()).detach] }
  have reached : run? start givenUpBeforeOthers =
      some (s, [.began (.request 0) 7, .granted (.request 1)]) := rfl
  have ran : run? s othersSettle = some (s', [.began (.request 1) 7,
    .finished (.request 1) (.failed ()), .granted (.request 2), .sized 0,
    .finished (.request 2) (.removed none)]) := rfl
  obtain ⟨goes, _, _, settled⟩ := nobody_stranded reached
  obtain ⟨_, answered⟩ := settled othersSettle s' _ (by decide) ran
  exact ⟨s, _, s', _, reached, goes (.request 2) nofun, ran,
    answered (fun _ => rfl) (fun _ => rfl)⟩

end SingleFlight
end MetricGateway
