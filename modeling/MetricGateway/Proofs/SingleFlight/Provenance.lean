import MetricGateway.Proofs.SingleFlight.Errand
import Mathlib.Data.List.Induction

/- Where the results come from. Every value in an entry, in the table or out of it, was written
   under its key. An error is handed on by an entry's count of failures: a get in line tells by it
   that a load of its key has failed since it came, and the last error is then that load's. -/
namespace MetricGateway
namespace SingleFlight

variable {κ α ε : Type}

/-- What an entry's marks of failure become: the error that stands there is an earlier one, and then
    nothing has failed since, or that of a failure. -/
structure Entry.Marks (c : Causes κ α ε) (e e' : Entry κ α ε) : Prop where
  key : e'.key = e.key
  failures : e.failures ≤ e'.failures
  lastError : ∀ error, e'.lastError = some error →
    c.fails e'.key error ∨ e.lastError = some error ∧ e'.failures = e.failures

theorem Entry.Marks.trans {c : Causes κ α ε} {e f g : Entry κ α ε} (first : e.Marks c f)
    (rest : f.Marks c g) : e.Marks c g := by
  refine ⟨rest.key.trans first.key, Nat.le_trans first.failures rest.failures, ?_⟩
  intro error last
  rcases rest.lastError error last with failed | ⟨before, same⟩
  · exact Or.inl failed
  · rcases first.lastError error before with failed | ⟨earlier, also⟩
    · rw [rest.key]
      exact Or.inl failed
    · exact Or.inr ⟨earlier, same.trans also⟩

theorem marks_of_edits {c : Causes κ α ε} {e e' : Entry κ α ε} (edits : Edits c e e') :
    e.Marks c e' := by
  refine edits.keep (R := Entry.Marks c) ?_ Entry.Marks.trans ?_
  · exact fun e => ⟨rfl, Nat.le_refl _, fun error last => Or.inr ⟨last, rfl⟩⟩
  · intro e e' edit
    cases edit with
    | gate | touch | remove | expire =>
      exact ⟨rfl, Nat.le_refl _, fun error last => Or.inr ⟨last, rfl⟩⟩
    | install => exact ⟨rfl, Nat.le_refl _, fun error last => by cases last⟩
    | fail failed =>
      refine ⟨rfl, Nat.le_succ _, fun error last => ?_⟩
      cases last
      exact Or.inl failed
    | invalidate =>
      unfold Entry.invalidate
      split
      · split <;> exact ⟨rfl, Nat.le_refl _, fun error last => Or.inr ⟨last, rfl⟩⟩
      · exact ⟨rfl, Nat.le_refl _, fun error last => Or.inr ⟨last, rfl⟩⟩

/-- What a get in line would be told at the gate has failed since it came. -/
def Fresh (fails : κ → ε → Prop) (t : TaskId) (s : State κ α ε) : Prop :=
  ∀ key id n, s.phase? t = some (.getQueued key id n) →
    ∃ e, s.entries[id]? = some e ∧ n ≤ e.failures ∧
      (n ≠ e.failures → ∀ error, e.lastError = some error → fails key error)

inductive Sourced (writes : κ → α → Prop) (fails : κ → ε → Prop) :
    Errand κ → Result α ε → Prop where
  | got {key : κ} {v : α} (written : writes key v) : Sourced writes fails (.get key) (.got v)
  | failed {key : κ} {error : ε} (failed : fails key error) :
      Sourced writes fails (.get key) (.failed error)
  | missing (key : κ) : Sourced writes fails (.remove key) (.removed none)
  | removed {key : κ} {v : α} (written : writes key v) :
      Sourced writes fails (.remove key) (.removed (some v))
  | swept : Sourced writes fails .sweep .swept

theorem Sourced.mono {writes writes' : κ → α → Prop} {fails fails' : κ → ε → Prop}
    {errand : Errand κ} {r : Result α ε} (sourced : Sourced writes fails errand r)
    (more : ∀ key v, writes key v → writes' key v)
    (also : ∀ key error, fails key error → fails' key error) : Sourced writes' fails' errand r := by
  cases sourced with
  | got written => exact .got (more _ _ written)
  | failed failed => exact .failed (also _ _ failed)
  | missing key => exact .missing key
  | removed written => exact .removed (more _ _ written)
  | swept => exact .swept

variable [DecidableEq κ]

def State.failed? (s : State κ α ε) (key : κ) : Action κ α ε → Option ε
  | .loaded t (.error error) => if s.callOf? t = some key then some error else none
  | _ => none

inductive Course (t : TaskId) (r : Result α ε) : State κ α ε → List (Action κ α ε) → Prop where
  | last {s s' : State κ α ε} {a : Action κ α ε} {seen : List (Signal κ α ε)}
      (step : step? s a = some (s', seen)) (ends : .finished t r ∈ seen) : Course t r s [a]
  | on {s s' : State κ α ε} {a : Action κ α ε} {rest : List (Action κ α ε)}
      {seen : List (Signal κ α ε)} (step : step? s a = some (s', seen))
      (silent : ∀ r, .finished t r ∉ seen) (later : Course t r s' rest) : Course t r s (a :: rest)

theorem Course.starts {t : TaskId} {r : Result α ε} {s : State κ α ε} {a : Action κ α ε}
    {rest : List (Action κ α ε)} (course : Course t r s (a :: rest)) :
    ∃ effect, step? s a = some effect := by
  cases course with
  | last step => exact ⟨_, step⟩
  | on step => exact ⟨_, step⟩

theorem course_of_run {t : TaskId} {r : Result α ε} {s s₁ s' : State κ α ε} {a : Action κ α ε}
    {actions : List (Action κ α ε)} {seen shown : List (Signal κ α ε)}
    (ran : run? s actions = some (s₁, seen)) (silent : ∀ r, .finished t r ∉ seen)
    (step : step? s₁ a = some (s', shown)) (ends : .finished t r ∈ shown) :
    Course t r s (actions ++ [a]) := by
  induction actions generalizing s seen with
  | nil =>
    cases ran
    exact .last step ends
  | cons b rest ih =>
    obtain ⟨s₂, first, more, taken, others, rfl⟩ := run_cons ran
    refine .on taken (fun r shown => silent r (List.mem_append_left _ shown)) (ih others ?_)
    exact fun r shown => silent r (List.mem_append_right _ shown)

theorem written_of_value {settings : Settings} {now : Nat} {actions : List (Action κ α ε)}
    {s : State κ α ε} {seen : List (Signal κ α ε)}
    (ran : run? { settings, now } actions = some (s, seen)) {id : Nat} {e : Entry κ α ε} {v : α}
    (here : s.entries[id]? = some e) (full : e.value = some v) :
    some v ∈ State.collect (fun s => s.write? e.key) { settings, now } actions := by
  induction actions using List.reverseRecOn generalizing s seen e with
  | nil =>
    cases ran
    cases here
  | append_singleton actions a ih =>
    obtain ⟨s₁, first, shown, reached, step⟩ := run_concat ran
    have order := run_orderly (orderly_initial settings now) reached
    have continues := step_continues order step
    rw [collect_append reached, List.mem_append, mem_collect_of_step step]
    cases before : s₁.entries[id]? with
    | none =>
      rcases continues.made id e before here with empty | written
      · cases empty.symm.trans full
      · exact Or.inr (Or.inl (full ▸ written))
    | some e₁ =>
      obtain ⟨f, there, becomes⟩ := continues.kept id e₁ before
      cases here.symm.trans there
      rw [becomes.key]
      rcases becomes.value with same | written
      · exact Or.inl (ih reached before (same.symm.trans full))
      · exact Or.inr (Or.inl (full ▸ written))

section Steps

variable {s s' : State κ α ε} {a : Action κ α ε} {seen : List (Signal κ α ε)} {t : TaskId}
  {fails : κ → ε → Prop}

def FailedSince (fails : κ → ε → Prop) (s : State κ α ε) (a : Action κ α ε) (key : κ)
    (error : ε) : Prop :=
  fails key error ∨ s.failed? key a = some error

theorem Fresh.other_step (fresh : Fresh fails t s) (order : Orderly s)
    (step : step? s a = some (s', seen)) (other : a.actor ≠ .task t) :
    Fresh (FailedSince fails s a) t s' := by
  intro key id n phase
  have moves : Moves a.actor s seen s' := step_byMoves order step
  rw [moves.phase_of_other other] at phase
  obtain ⟨e, here, since, told⟩ := fresh key id n phase
  obtain ⟨f, at_id, _, own⟩ := order.seated t _ phase
  cases here.symm.trans at_id
  obtain ⟨e', there, edits⟩ := (step_edited order step).kept id e here
  have marks := marks_of_edits edits
  refine ⟨e', there, Nat.le_trans since marks.failures, fun more error last => ?_⟩
  rcases marks.lastError error last with ⟨u, j, loads, same⟩ | ⟨before, same⟩
  · have key_eq : e'.key = key := marks.key.trans own
    refine Or.inr ?_
    rw [key_eq] at loads
    simp [State.failed?, same, State.callOf?, loads]
  · exact Or.inl (told (same ▸ more) error before)

theorem fresh_of_step (order : Orderly s) (step : step? s a = some (s', seen))
    (acts : a.actor = .task t) (fails : κ → ε → Prop) : Fresh fails t s' := by
  intro key id n phase
  obtain ⟨e, here, _, same⟩ := (waits_of_step order step acts phase).2 rfl
  exact ⟨e, here, Nat.le_of_eq same.symm, fun more => absurd same.symm more⟩

theorem sourced_of_ends {settings : Settings} {now : Nat} {before : List (Action κ α ε)}
    {seen₀ : List (Signal κ α ε)} (reached : run? { settings, now } before = some (s, seen₀))
    (fresh : Fresh fails t s) {errand : Errand κ} (own : s.errand? a = some errand)
    {r : Result α ε} (ends : Ends s t a s' r) :
    Sourced (Since (fun key v => some v ∈
      State.collect (fun s => s.write? key) { settings, now } before) s a)
      (FailedSince fails s a) errand r := by
  cases ends with
  | served member asks full =>
    cases own.symm.trans asks
    obtain ⟨id, here⟩ := List.getElem?_of_mem member
    exact .got (Or.inl (written_of_value reached here full))
  | @loaded key id outcome phase same =>
    subst same
    have asks : s.errand? (.loaded t outcome) = some (.get key) := by
      simp [State.errand?, phase, Phase.errand]
    cases own.symm.trans asks
    cases outcome with
    | ok v => exact .got (Or.inr (by simp [State.write?, State.loaded?, State.callOf?, phase]))
    | error error => exact .failed (Or.inr (by simp [State.failed?, State.callOf?, phase]))
  | told asks phase here since last =>
    cases own.symm.trans asks
    obtain ⟨e, at_id, _, told⟩ := fresh _ _ _ phase
    cases here.symm.trans at_id
    exact .failed (Or.inl (told since.symm _ last))
  | missing asks =>
    cases own.symm.trans asks
    exact .missing _
  | @removed id e e' gone here =>
    cases own.symm.trans (errand?_of_removal gone)
    cases full : e.value with
    | none => exact .missing _
    | some v => exact .removed (Or.inl (written_of_value reached here full))
  | swept asks =>
    cases own.symm.trans asks
    exact .swept

end Steps

structure Underway (fails : κ → ε → Prop) (t : TaskId) (errand : Errand κ) (s : State κ α ε) :
    Prop where
  waits : ∃ p, s.phase? t = some p ∧ p.errand = errand
  fresh : Fresh fails t s

section Courses

variable {s s' : State κ α ε} {a : Action κ α ε} {seen : List (Signal κ α ε)} {t : TaskId}
  {errand : Errand κ} {fails : κ → ε → Prop}

theorem underway_of_step (order : Orderly s) (step : step? s a = some (s', seen))
    (acts : a.actor = .task t) (up : a ≠ .cancel t) (silent : ∀ r, .finished t r ∉ seen)
    (own : s.errand? a = some errand) (fails : κ → ε → Prop) : Underway fails t errand s' := by
  refine ⟨?_, fresh_of_step order step acts fails⟩
  obtain ⟨same, asks, goes⟩ := step_goes order step acts up
  cases own.symm.trans asks
  cases goes with
  | @done r _ shown =>
    have ends : .finished t r ∈ seen := mem_ends.1 (shown ▸ List.mem_singleton_self r)
    exact absurd ends (silent r)
  | @waits p phase _ kept => exact ⟨p, phase, kept⟩

theorem Underway.errand?_eq (under : Underway fails t errand s) (step : step? s a = some (s', seen))
    (acts : a.actor = .task t) (up : a ≠ .cancel t) : s.errand? a = some errand := by
  obtain ⟨p, phase, rfl⟩ := under.waits
  rcases step_of_waiting step acts phase with ⟨rfl, _⟩ | ⟨_, outcome, rfl⟩ | same
  · simp [State.errand?, phase]
  · simp [State.errand?, phase]
  · exact absurd same up

theorem Underway.step (under : Underway fails t errand s) (order : Orderly s)
    (step : step? s a = some (s', seen)) (up : a ≠ .cancel t)
    (silent : ∀ r, .finished t r ∉ seen) : Underway (FailedSince fails s a) t errand s' := by
  by_cases acts : a.actor = .task t
  · exact underway_of_step order step acts up silent (under.errand?_eq step acts up) _
  · have moves : Moves a.actor s seen s' := step_byMoves order step
    obtain ⟨p, phase, same⟩ := under.waits
    exact ⟨⟨p, (moves.phase_of_other acts).trans phase, same⟩,
      under.fresh.other_step order step acts⟩

theorem since_append {start : State κ α ε} {before : List (Action κ α ε)}
    {seen₀ : List (Signal κ α ε)} (reached : run? start before = some (s, seen₀))
    (step : step? s a = some (s', seen)) (rest : List (Action κ α ε)) {key : κ} {v : α}
    (since : Since (fun key v => some v ∈ start.collect (fun s => s.write? key) before) s a key v) :
    some v ∈ start.collect (fun s => s.write? key) (before ++ a :: rest) := by
  rw [collect_append reached, List.mem_append, mem_collect_of_step step]
  exact since.imp_right Or.inl

theorem failedSince_collect (step : step? s a = some (s', seen)) {rest : List (Action κ α ε)}
    {key : κ} {error : ε}
    (since : FailedSince fails s a key error ∨ error ∈ s'.collect (fun s => s.failed? key) rest) :
    fails key error ∨ error ∈ s.collect (fun s => s.failed? key) (a :: rest) := by
  rw [mem_collect_of_step step]
  exact or_assoc.1 since

theorem Course.sourced {settings : Settings} {now : Nat} {before actions : List (Action κ α ε)}
    {seen₀ : List (Signal κ α ε)} {r : Result α ε} (course : Course t r s actions)
    (reached : run? { settings, now } before = some (s, seen₀)) (up : .cancel t ∉ actions)
    (under : Underway fails t errand s) :
    Sourced
      (fun key v => some v ∈
        State.collect (fun s => s.write? key) { settings, now } (before ++ actions))
      (fun key error => fails key error ∨ error ∈ s.collect (fun s => s.failed? key) actions)
      errand r := by
  -- What may be told grows with the steps, and with it the run that has led up to them.
  induction course generalizing before seen₀ fails with
  | last step ends =>
    have order := run_orderly (orderly_initial settings now) reached
    obtain ⟨acts, found⟩ := ends_of_step order step ends
    rw [List.mem_singleton] at up
    have own := under.errand?_eq step acts (Ne.symm up)
    refine (sourced_of_ends reached under.fresh own found).mono ?_ ?_
    · exact fun key v since => since_append reached step [] since
    · exact fun key error since => failedSince_collect step (Or.inl since)
  | @on s s' a rest seen step silent _ ih =>
    have order := run_orderly (orderly_initial settings now) reached
    rw [List.mem_cons, not_or] at up
    have later := ih (run_of_run_step reached step) up.2
      (under.step order step (Ne.symm up.1) silent)
    refine later.mono (fun key v written => ?_) ?_
    · rwa [List.append_assoc] at written
    · exact fun key error since => failedSince_collect step since

theorem sourced_of_start {settings : Settings} {now : Nat} {before during : List (Action κ α ε)}
    {seen₀ : List (Signal κ α ε)} {r : Result α ε}
    (reached : run? { settings, now } before = some (s, seen₀)) (acts : a.actor = .task t)
    (idle : s.phase? t = none) (own : s.errand? a = some errand)
    (course : Course t r s (a :: during)) (up : .cancel t ∉ a :: during) :
    Sourced
      (fun key v => some v ∈
        State.collect (fun s => s.write? key) { settings, now } (before ++ a :: during))
      (fun key error => error ∈ s.collect (fun s => s.failed? key) (a :: during)) errand r := by
  have order := run_orderly (orderly_initial settings now) reached
  rw [List.mem_cons, not_or] at up
  cases course with
  | last step ends =>
    have fresh : Fresh (fun _ _ => False) t s := by
      intro key id n phase
      cases idle.symm.trans phase
    refine (sourced_of_ends reached fresh own (ends_of_step order step ends).2).mono ?_ ?_
    · exact fun key v since => since_append reached step [] since
    · exact fun key error since => (failedSince_collect step (Or.inl since)).resolve_left id
  | on step silent later =>
    have under := underway_of_step order step acts (Ne.symm up.1) silent own
      (FailedSince (fun _ _ => False) s a)
    refine (later.sourced (run_of_run_step reached step) up.2 under).mono ?_ ?_
    · intro key v written
      rwa [List.append_assoc] at written
    · exact fun key error since => (failedSince_collect step since).resolve_left id

end Courses

/-- Whatever tasks there are and however they interleave, a value that a get or a removal gives was
    put before under just its key, or given by a loader call for it. Only a get fails, with the
    error of a loader call for its key that has ended in the course of this very get. -/
theorem results_have_source {settings : Settings} {now : Nat}
    {before during : List (Action κ α ε)} {a : Action κ α ε} {s : State κ α ε}
    {seen₀ : List (Signal κ α ε)} {t : TaskId} {key : κ} {r : Result α ε}
    (reached : run? { settings, now } before = some (s, seen₀))
    (begins : a = .get t key ∨ a = .remove t key) (course : Course t r s (a :: during))
    (goes : .cancel t ∉ during) :
    let written : List (Option α) :=
      State.collect (fun s => s.write? key) { settings, now } (before ++ a :: during)
    match r with
    | .got v => a = .get t key ∧ some v ∈ written
    | .removed x => a = .remove t key ∧ ∀ v, x = some v → some v ∈ written
    | .failed error => a = .get t key ∧ error ∈ s.collect (fun s => s.failed? key) (a :: during)
    | .swept => False := by
  obtain ⟨effect, step⟩ := course.starts
  rcases begins with rfl | rfl
  · cases taken_of_step step with
    | get idle =>
      have sourced := sourced_of_start reached rfl idle rfl course (by simpa using goes)
      cases sourced with
      | got written => exact ⟨rfl, written⟩
      | failed failed => exact ⟨rfl, failed⟩
  · cases taken_of_step step with
    | remove idle =>
      have sourced := sourced_of_start reached rfl idle rfl course (by simpa using goes)
      cases sourced with
      | missing => exact ⟨rfl, nofun⟩
      | removed written =>
        refine ⟨rfl, fun v same => ?_⟩
        cases same
        exact written

/-- A failure that a put has outlived stands in an entry, when the entry is emptied in the course of
    its reload. -/
def failureLeftOver : List (Action Nat Nat Nat) :=
  [.get (.request 0) 7, .put 7 10, .loaded (.request 0) (.error 1), .advance 2,
    .sweep (.request 1) [0], .invalidateAll]

def getBehindReload : List (Action Nat Nat Nat) :=
  [.get (.request 2) 7, .loaded (.request 1) (.error 3), .resume (.request 2)]

theorem own_failure_told :
    let start : State Nat Nat Nat := { settings := ⟨some 1, none, 1000, false⟩ }
    let actions := getBehindReload ++ [.loaded (.request 2) (.error 2)]
    ∃ s seen₀, run? start failureLeftOver = some (s, seen₀) ∧
      Course (.request 2) (.failed 2) s actions ∧ 2 ∈ s.collect (fun s => s.failed? 7) actions := by
  let start : State Nat Nat Nat := { settings := ⟨some 1, none, 1000, false⟩ }
  let left : Entry Nat Nat Nat :=
    { key := 7, loadedAt := 0, usedAt := 0, failures := 1, lastError := some 1 }
  let s : State Nat Nat Nat := { start with
    now := 2, entries := [left.acquire (.request 1)], tasks := [(.request 1, .refreshing 0 [] 2)] }
  let s₁ : State Nat Nat Nat := { start with
    now := 2, entries := [left.acquire (.request 2)], tasks := [(.request 2, .getLoading 7 0)] }
  have reached : run? start failureLeftOver = some (s, [.began (.request 0) 7, .sized 1,
    .finished (.request 0) (.failed 1), .began (.request 1) 7, .sized 0]) := rfl
  have ran : run? s getBehindReload = some (s₁, [.refreshed 7 false, .granted (.request 2),
    .sized 0, .finished (.request 1) .swept, .began (.request 2) 7]) := rfl
  have step : step? s₁ (.loaded (.request 2) (.error 2)) =
      some (_, [.finished (.request 2) (.failed 2)]) := rfl
  have course : Course (.request 2) (.failed 2) s
      (getBehindReload ++ [.loaded (.request 2) (.error 2)]) :=
    course_of_run ran (by simp) step (.head _)
  exact ⟨s, _, reached, course, (results_have_source reached (Or.inl rfl) course (by simp)).2⟩

end SingleFlight
end MetricGateway
