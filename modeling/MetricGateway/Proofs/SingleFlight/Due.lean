import MetricGateway.Proofs.SingleFlight.Errand
import MetricGateway.Proofs.SingleFlight.Times

/- When a sweep acts. It goes by the time at which it began and by the times that its entries have
   when it comes to them: an entry that has not been used for too long leaves the table, unless it is
   being loaded, and one that has not been loaded for too long is reloaded. -/
namespace MetricGateway
namespace SingleFlight

variable {κ α ε : Type}

theorem olderThan_iff {limit : Option Nat} {began since : Nat} :
    State.olderThan limit began since = true ↔
      ∃ longest, limit = some longest ∧ longest < began - since := by
  cases limit <;> simp [State.olderThan]

section Sweep

variable {s : State κ α ε} {t : TaskId} {began : Nat}

/-- What a sweep does with an entry it comes to: it goes on, with the entry taken out of the table
    or as it is, or it stops to reload it. -/
inductive Visits (s : State κ α ε) (t : TaskId) (began id : Nat) (rest : List Nat) :
    State κ α ε → Prop where
  | skip : Visits s t began id rest (s.sweepOver t began rest).1
  | purge {e : Entry κ α ε} (here : s.entries[id]? = some e) (full : e.value.isSome = true)
      (free : e.holder = none) (due : State.olderThan s.settings.expireAfter began e.usedAt = true) :
      Visits s t began id rest ((s.modifyEntry id Entry.detach).sweepOver t began rest).1
  | reload {e : Entry κ α ε} (here : s.entries[id]? = some e) (full : e.value.isSome = true)
      (kept : State.olderThan s.settings.expireAfter began e.usedAt = false)
      (due : State.olderThan s.settings.refreshAfter began e.loadedAt = true) :
      Visits s t began id rest
        ((s.modifyEntry id (·.acquire t)).setPhase t (.refreshing id rest began))

theorem sweepOver_visits (s : State κ α ε) (t : TaskId) (began id : Nat) (rest : List Nat) :
    Visits s t began id rest (s.sweepOver t began (id :: rest)).1 := by
  unfold State.sweepOver
  cases here : s.entries[id]? with
  | none => exact .skip
  | some e =>
    dsimp only
    split
    · exact .skip
    · rename_i filled
      have full : e.value.isSome = true := by
        cases value : e.value with
        | none => simp [value] at filled
        | some v => rfl
      split
      · rename_i due
        split
        · rename_i idle
          rw [Bool.and_eq_true, Option.isNone_iff_eq_none] at idle
          exact .purge here full idle.1 due
        · exact .skip
      · rename_i young
        split
        · rename_i old
          rw [Bool.and_eq_true] at old
          exact .reload here full (by simpa using young) old.1
        · exact .skip

theorem due_sweepOver (t : TaskId) (order : List Nat) {id : Nat} {e : Entry κ α ε}
    (here : s.entries[id]? = some e)
    (due : State.olderThan s.settings.expireAfter began e.usedAt = true) :
    ∃ e', (s.sweepOver t began order).1.entries[id]? = some e' ∧ e'.value = e.value ∧
      e'.usedAt = e.usedAt ∧ e'.holder = e.holder := by
  induction order generalizing s e with
  | nil => exact ⟨e, here, rfl, rfl, rfl⟩
  | cons j rest ih =>
    have visits := sweepOver_visits s t began j rest
    generalize (s.sweepOver t began (j :: rest)).1 = after at visits
    cases visits with
    | skip => exact ih here due
    | purge there =>
      by_cases at_id : id = j
      · subst at_id
        exact ih (e := e.detach) (State.modifyEntry_of_getElem? here Entry.detach) due
      · refine ih ?_ due
        rw [State.getElem?_modifyEntry, if_neg at_id, here]
    | reload there full kept =>
      have apart : id ≠ j := by
        rintro rfl
        cases here.symm.trans there
        rw [due] at kept
        cases kept
      refine ⟨e, ?_, rfl, rfl, rfl⟩
      exact (State.getElem?_modifyEntry s j id (·.acquire t)).trans (by rw [if_neg apart, here])

theorem purged_sweepOver {order : List Nat} {id : Nat} {e e' : Entry κ α ε}
    (here : s.entries[id]? = some e) (listed : e.listed = true)
    (there : (s.sweepOver t began order).1.entries[id]? = some e') (gone : e'.listed = false) :
    e'.value.isSome = true ∧ e'.holder = none ∧
      State.olderThan s.settings.expireAfter began e'.usedAt = true := by
  induction order generalizing s e with
  | nil =>
    cases here.symm.trans there
    rw [listed] at gone
    cases gone
  | cons j rest ih =>
    have visits := sweepOver_visits s t began j rest
    generalize (s.sweepOver t began (j :: rest)).1 = after at visits there
    cases visits with
    | skip => exact ih here listed there
    | purge own full free due =>
      by_cases at_id : id = j
      · subst at_id
        cases here.symm.trans own
        have detached := State.modifyEntry_of_getElem? here Entry.detach
        obtain ⟨f, last, value, usedAt, holder⟩ := due_sweepOver t rest detached due
        cases there.symm.trans last
        rw [value, holder, usedAt]
        exact ⟨full, free, due⟩
      · refine ih (s := s.modifyEntry j Entry.detach) ?_ listed there
        rw [State.getElem?_modifyEntry, if_neg at_id, here]
    | reload =>
      obtain ⟨f, before, ⟨_, rfl⟩ | ⟨_, rfl⟩⟩ := State.getElem?_of_modifyEntry there
      · cases here.symm.trans before
        exact absurd (listed.symm.trans gone) (by decide)
      · cases here.symm.trans before
        exact absurd (listed.symm.trans gone) (by decide)

theorem reloads_sweepOver {order : List Nat} {p : Phase κ}
    (phase : (s.sweepOver t began order).1.phase? t = some p) :
    ∃ id rest e, p = .refreshing id rest began ∧
      (s.sweepOver t began order).1.entries[id]? = some e ∧ e.value.isSome = true ∧
        State.olderThan s.settings.refreshAfter began e.loadedAt = true := by
  induction order generalizing s with
  | nil => simp [State.sweepOver, State.finish, State.report, Effect.andThen] at phase
  | cons j rest ih =>
    have visits := sweepOver_visits s t began j rest
    generalize (s.sweepOver t began (j :: rest)).1 = after at visits phase ⊢
    cases visits with
    | skip => exact ih phase
    | purge => exact ih phase
    | reload here full _ due =>
      have same := State.phase_of_setPhase phase
      have taken := State.modifyEntry_of_getElem? here (·.acquire t)
      exact ⟨j, rest, _, same.symm, taken, full, due⟩

end Sweep

theorem listed_modifyEntry {s : State κ α ε} {j : Nat} {e : Entry κ α ε}
    (here : s.entries[j]? = some e) (id : Nat) {f : Entry κ α ε → Entry κ α ε}
    (frame : ∀ e, (f e).listed = e.listed) :
    ∃ e₁, (s.modifyEntry id f).entries[j]? = some e₁ ∧ e₁.listed = e.listed := by
  rw [State.getElem?_modifyEntry, here]
  split
  · exact ⟨f e, rfl, frame e⟩
  · exact ⟨e, rfl, rfl⟩

variable [DecidableEq κ]

theorem Move.settings {who : Actor} {s s' : State κ α ε} {seen : List (Signal κ α ε)}
    (move : Move who s seen s') : s'.settings = s.settings := by
  cases move with
  | quit =>
    unfold State.cancel
    split <;> rfl
  | _ => rfl

theorem run_settings {settings : Settings} {now : Nat} {actions : List (Action κ α ε)}
    {s : State κ α ε} {seen : List (Signal κ α ε)}
    (ran : run? { settings, now } actions = some (s, seen)) : s.settings = settings := by
  refine (run_keep (P := fun s => s.settings = settings) (A := fun _ => True) ?_
    (orderly_initial settings now) (fun _ _ => trivial) ran rfl).2
  intro s a s' seen order _ step same
  have moves : Moves a.actor s seen s' := step_byMoves order step
  exact moves.keep (P := fun s => s.settings = settings) (fun move => move.settings.trans) same

theorem sweeps_of_refreshing {s : State κ α ε} (order : Orderly s) {a : Action κ α ε}
    {effect : Effect κ α ε} (step : step? s a = some effect) {t : TaskId} (acts : a.actor = .task t)
    {id : Nat} {rest : List Nat} {began : Nat}
    (phase : effect.1.phase? t = some (.refreshing id rest began)) : s.Sweeps t a := by
  obtain ⟨own, _⟩ := waits_of_step order step acts phase
  cases a with
  | sweep u ids =>
    cases acts
    exact Or.inl ⟨ids, rfl⟩
  | resume =>
    cases acts
    obtain ⟨p, waits, errand⟩ := Option.map_eq_some_iff.1 own
    rcases step_of_waiting step rfl waits with ⟨_, line, _⟩ | ⟨_, _, same⟩ | same
    · cases p <;> cases errand
      cases line
    · cases same
    · cases same
  | loaded u outcome =>
    cases acts
    obtain ⟨p, waits, errand⟩ := Option.map_eq_some_iff.1 own
    cases p <;> cases errand
    exact Or.inr ⟨outcome, _, _, _, rfl, waits⟩
  | get | remove => cases own
  | put | invalidateAll | cancel | advance => cases own

def Action.sweeps (t : TaskId) : Action κ α ε → Bool
  | .sweep u _ => u = t
  | _ => false

def State.sweepStart (s : State κ α ε) (actions : List (Action κ α ε)) (t : TaskId) : Option Nat :=
  s.lastTime (fun _ a => a.sweeps t) actions

theorem sweepOver_of_step {s : State κ α ε} {a : Action κ α ε} {effect : Effect κ α ε}
    (step : step? s a = some effect) {t : TaskId} (sweeps : s.Sweeps t a) :
    ∃ (s₁ : State κ α ε) (order : List Nat) (began : Nat),
      effect.1 = (s₁.sweepOver t began order).1 ∧ s₁.settings = s.settings ∧
      (∀ (id : Nat) (e : Entry κ α ε), s.entries[id]? = some e →
        ∃ e₁ : Entry κ α ε, s₁.entries[id]? = some e₁ ∧ e₁.listed = e.listed) ∧
      (a.sweeps t = true ∧ began = s.now ∨
        a.sweeps t = false ∧ ∃ id, s.phase? t = some (.refreshing id order began)) := by
  rcases sweeps with ⟨order, rfl⟩ | ⟨outcome, id, rest, began, rfl, waits⟩
  · cases taken_of_step step with
    | sweep => exact ⟨s, order, s.now, rfl, rfl, fun id e here => ⟨e, here, rfl⟩,
        Or.inl ⟨by simp [Action.sweeps], rfl⟩⟩
  · cases taken_of_step step with
    | endLoad phase => cases waits.symm.trans phase
    | endRefresh phase here =>
      cases waits.symm.trans phase
      cases outcome with
      | ok value =>
        refine ⟨((s.modifyEntry id (·.install s.now false value)).release id).1, rest, began, rfl,
          rfl, fun j e there => ?_, Or.inr ⟨rfl, id, phase⟩⟩
        obtain ⟨e₁, between, same⟩ :=
          listed_modifyEntry there id (f := (·.install s.now false value)) fun _ => rfl
        obtain ⟨e₂, after, again⟩ :=
          listed_modifyEntry between id (f := Entry.release) fun _ => rfl
        exact ⟨e₂, after, again.trans same⟩
      | error error =>
        exact ⟨(s.release id).1, rest, began, rfl, rfl,
          fun j e there => listed_modifyEntry there id (f := Entry.release) fun _ => rfl,
          Or.inr ⟨rfl, id, phase⟩⟩

theorem run_began {settings : Settings} {now : Nat} {actions : List (Action κ α ε)}
    {s : State κ α ε} {seen : List (Signal κ α ε)}
    (ran : run? { settings, now } actions = some (s, seen)) {t : TaskId} {id : Nat}
    {rest : List Nat} {began : Nat} (phase : s.phase? t = some (.refreshing id rest began)) :
    State.sweepStart { settings, now } actions t = some began := by
  induction actions using List.reverseRecOn generalizing s seen id rest began with
  | nil =>
    cases ran
    simp [State.phase?] at phase
  | append_singleton actions a ih =>
    obtain ⟨s₁, first, shown, reached, step⟩ := run_concat ran
    rw [State.sweepStart, lastTime_concat reached step]
    have order := run_orderly (orderly_initial settings now) reached
    by_cases acts : a.actor = .task t
    · have sweeps := sweeps_of_refreshing order step acts phase
      obtain ⟨s₃, ids, start, swept, _, _, origin⟩ := sweepOver_of_step step sweeps
      have waits : (s₃.sweepOver t start ids).1.phase? t = some (.refreshing id rest began) := by
        rw [← swept]
        exact phase
      obtain ⟨_, _, _, same, _⟩ := reloads_sweepOver waits
      cases same
      rcases origin with ⟨begins, rfl⟩ | ⟨goes, _, before⟩
      · rw [if_pos begins]
      · rw [if_neg (by simp [goes])]
        exact ih reached before
    · have moves : Moves a.actor s₁ shown s := step_byMoves order step
      have goes : a.sweeps t = false := by
        cases a with
        | sweep u order =>
          have apart : u ≠ t := fun same => acts (by rw [same]; rfl)
          simp [Action.sweeps, apart]
        | _ => rfl
      rw [moves.phase_of_other acts] at phase
      rw [if_neg (by simp [goes])]
      exact ih reached phase

theorem used_of_refresh {s : State κ α ε} {t : TaskId} {id : Nat} {rest : List Nat} {began : Nat}
    {e : Entry κ α ε} (phase : s.phase? t = some (.refreshing id rest began))
    (here : s.entries[id]? = some e) (full : e.value.isSome = true) (outcome : Except ε α) :
    s.used (.loaded t outcome) = none := by
  cases outcome with
  | ok value => simp [State.used, phase, fills_of_entry here, full]
  | error error => rfl

/-- Whatever tasks there are and however they interleave, a sweep takes an entry out of the table
    only if nobody loads it and its last use was longer than allowed before the sweep began, and
    reloads one only if its last load was. These are the times that an entry with a value has, and
    the end of a refresh of such an entry leaves its last use. -/
theorem sweep_acts_when_due {settings : Settings} {now : Nat} {actions : List (Action κ α ε)}
    {a : Action κ α ε} {s s' : State κ α ε} {seen shown : List (Signal κ α ε)}
    (reached : run? { settings, now } actions = some (s, seen))
    (step : step? s a = some (s', shown)) :
    let start : State κ α ε := { settings, now }
    (∀ t, s.Sweeps t a → ∃ began, start.sweepStart (actions ++ [a]) t = some began ∧
      (∀ (id : Nat) (e e' : Entry κ α ε), s.entries[id]? = some e → e.listed = true →
        s'.entries[id]? = some e' → e'.listed = false →
          (∀ u p, s'.phase? u = some p → p.entry = id → p.isLoad = false) ∧
          ∃ limit last, settings.expireAfter = some limit ∧
            start.lastUse (actions ++ [a]) id = some last ∧ limit < began - last) ∧
      ∀ id rest since, s'.phase? t = some (.refreshing id rest since) →
        ∃ limit last, settings.refreshAfter = some limit ∧
          start.lastLoad (actions ++ [a]) id = some last ∧ limit < began - last) ∧
    (∀ (id : Nat) (e : Entry κ α ε), s'.entries[id]? = some e → e.value.isSome = true →
      start.lastUse (actions ++ [a]) id = some e.usedAt ∧
        start.lastLoad (actions ++ [a]) id = some e.loadedAt) ∧
    ∀ t outcome id rest since e, a = .loaded t outcome →
      s.phase? t = some (.refreshing id rest since) → s.entries[id]? = some e →
        e.value.isSome = true → start.lastUse (actions ++ [a]) id = start.lastUse actions id := by
  intro start
  have order := run_orderly (orderly_initial settings now) reached
  have order' := step_orderly order step
  have timed : Timed (start.lastUse (actions ++ [a])) (start.lastLoad (actions ++ [a])) s' := by
    rw [lastUse_concat reached step, lastLoad_concat reached step]
    exact (run_timed reached).step step
  refine ⟨fun t sweeps => ?_, timed, ?_⟩
  · obtain ⟨s₁, visited, began, swept, same, table, origin⟩ := sweepOver_of_step step sweeps
    have fixed : s₁.settings = settings := same.trans (run_settings reached)
    change s' = (s₁.sweepOver t began visited).1 at swept
    refine ⟨began, ?_, ?_, ?_⟩
    · rw [State.sweepStart, lastTime_concat reached step]
      rcases origin with ⟨begins, rfl⟩ | ⟨goes, id, phase⟩
      · rw [if_pos begins]
      · rw [if_neg (by simp [goes])]
        exact run_began reached phase
    · intro id e e' here listed there gone
      obtain ⟨e₁, before, still⟩ := table id e here
      obtain ⟨full, free, due⟩ := purged_sweepOver before (still.trans listed) (swept ▸ there) gone
      rw [fixed, olderThan_iff] at due
      obtain ⟨limit, expires, old⟩ := due
      refine ⟨fun u p phase at_id => ?_, limit, e'.usedAt, expires, (timed id e' there full).1, old⟩
      refine order'.unloaded_of_holder there ?_ phase at_id
      intro v q holds
      rw [free] at holds
      cases holds
    · intro id rest since phase
      rw [swept] at phase
      obtain ⟨j, later, e, same, there, full, due⟩ := reloads_sweepOver phase
      cases same
      rw [fixed, olderThan_iff] at due
      obtain ⟨limit, refreshes, old⟩ := due
      rw [← swept] at there
      exact ⟨limit, e.loadedAt, refreshes, (timed _ e there full).2, old⟩
  · rintro t outcome id rest since e rfl phase here full
    rw [lastUse_concat reached step, used_of_refresh phase here full]
    exact if_neg (by simp)

/-- Two keys are put, the first is asked for once more, and a sweep waits for its reload. -/
def refreshBeforePurge : List (Action Nat Nat Unit) :=
  [.put 0 10, .put 1 11, .advance 4, .get (.request 1) 0, .advance 4, .sweep (.request 0) [0, 1],
    .advance 1]

/-- When the reload of the first key ends, the sweep takes the second out of the table, by the time
    at which it began. The last use of the first is still that of the get. -/
theorem purge_behind_refresh :
    let start : State Nat Nat Unit := { settings := ⟨some 3, some 5, 1000, false⟩ }
    let whole := refreshBeforePurge ++ [.loaded (.request 0) (.ok 20)]
    ∃ s s' seen shown, run? start refreshBeforePurge = some (s, seen) ∧
      step? s (.loaded (.request 0) (.ok 20)) = some (s', shown) ∧ .expired 1 ∈ shown ∧
        (∃ last, start.lastUse whole 1 = some last ∧ 5 < 8 - last) ∧
          start.lastUse whole 0 = start.lastUse refreshBeforePurge 0 := by
  let start : State Nat Nat Unit := { settings := ⟨some 3, some 5, 1000, false⟩ }
  let first : Entry Nat Nat Unit := { key := 0, value := some 10, loadedAt := 0, usedAt := 4 }
  let second : Entry Nat Nat Unit := { key := 1, value := some 11, loadedAt := 0, usedAt := 0 }
  let s : State Nat Nat Unit := { start with
    now := 9, entries := [first.acquire (.request 0), second],
    tasks := [(.request 0, .refreshing 0 [1] 8)] }
  let s' : State Nat Nat Unit := { start with
    now := 9, entries := [first.install 9 false 20, second.detach] }
  have reached : run? start refreshBeforePurge = some (s, [.sized 1, .sized 2,
    .finished (.request 1) (.got 10), .began (.request 0) 0]) := rfl
  have step : step? s (.loaded (.request 0) (.ok 20)) = some (s', [.refreshed 0 true, .expired 1,
    .sized 1, .finished (.request 0) .swept]) := rfl
  obtain ⟨sweeps, _, refresh⟩ := sweep_acts_when_due reached step
  obtain ⟨began, since, purges, _⟩ := sweeps (.request 0) (Or.inr ⟨_, 0, [1], 8, rfl, rfl⟩)
  obtain ⟨_, limit, last, expires, used, old⟩ := purges 1 second second.detach rfl rfl rfl rfl
  have eight : began = 8 := (Option.some.inj since).symm
  have five : limit = 5 := (Option.some.inj expires).symm
  rw [eight, five] at old
  refine ⟨s, s', _, _, reached, step, by simp, ⟨last, used, old⟩, ?_⟩
  exact refresh (.request 0) (.ok 20) 0 [1] 8 (first.acquire (.request 0)) rfl rfl rfl rfl

end SingleFlight
end MetricGateway
