import MetricGateway.Proofs.SingleFlight.Due

/- Which removals give the same value. A removal that has found its entry may wait in line before it
   and comes to the gate after another one has taken the entry out of the table; it then gives the
   value once more. There is no other way: an entry out of the table before which a removal waits
   is loaded by nobody, so that its value stays what it was when it was taken out. -/
namespace MetricGateway
namespace SingleFlight

variable {κ α ε : Type}

def State.AwaitsRemoval (s : State κ α ε) (t : TaskId) (id : Nat) : Prop :=
  ∃ key, s.phase? t = some (.removeQueued key id)

def TakesOut (s s' : State κ α ε) (id : Nat) : Prop :=
  ∃ e e' : Entry κ α ε, s.entries[id]? = some e ∧ e.listed = true ∧ s'.entries[id]? = some e' ∧
    e'.listed = false

/-- What a chain of edits that is no sweep and no invalidation does with an entry: it leaves the
    table empty or by a removal that gives its value, and nothing is written there at that. -/
structure Entry.Quits (c : Causes κ α ε) (e e' : Entry κ α ε) : Prop where
  key : e'.key = e.key
  value : e'.value = e.value ∨ ∃ key v, c.writes key v
  left : e.listed = true → e'.listed = false →
    (e'.value = none ∨ c.removes e'.key e'.value) ∧ ∀ key v, ¬ c.writes key v

theorem Entry.quits_of_listed {c : Causes κ α ε} {e e' : Entry κ α ε} (key : e'.key = e.key)
    (value : e'.value = e.value ∨ ∃ key v, c.writes key v) (listed : e'.listed = e.listed) :
    e.Quits c e' := by
  refine ⟨key, value, fun before after => ?_⟩
  rw [listed, before] at after
  cases after

theorem Entry.Quits.trans {c : Causes κ α ε} {e f g : Entry κ α ε} (first : e.Quits c f)
    (rest : f.Quits c g) : e.Quits c g := by
  refine ⟨rest.key.trans first.key, ?_, fun before after => ?_⟩
  · rcases rest.value with same | written
    · rw [same]
      exact first.value
    · exact Or.inr written
  · cases between : f.listed with
    | true => exact rest.left between after
    | false =>
      obtain ⟨cause, silent⟩ := first.left before between
      have same : g.value = f.value :=
        rest.value.resolve_right fun ⟨key, v, written⟩ => silent key v written
      rw [same, rest.key]
      exact ⟨cause, silent⟩

variable [DecidableEq κ]

theorem write?_of_removal {s : State κ α ε} {a : Action κ α ε} {key : κ}
    (removes : s.removal? a = some key) (own : κ) : s.write? own a = none := by
  cases a with
  | remove | resume => rfl
  | get | sweep | put | invalidateAll | loaded | cancel | advance => cases removes

theorem quits_of_edits {s : State κ α ε} {a : Action κ α ε} {seen : List (Signal κ α ε)}
    (stays : a ≠ .invalidateAll) (sweeps : ∀ t, ¬ s.Sweeps t a) {e e' : Entry κ α ε}
    (edits : Edits (s.causes a seen) e e') : e.Quits (s.causes a seen) e' := by
  refine edits.keep (R := Entry.Quits (s.causes a seen)) ?_ Entry.Quits.trans ?_
  · exact fun e => Entry.quits_of_listed rfl (Or.inl rfl) rfl
  · intro e e' edit
    cases edit with
    | gate | touch => exact Entry.quits_of_listed rfl (Or.inl rfl) rfl
    | install written => exact Entry.quits_of_listed rfl (Or.inr ⟨_, _, written⟩) rfl
    | fail failed =>
      refine ⟨rfl, Or.inl rfl, fun before after => ?_⟩
      simp only [Entry.detachIfEmpty, Entry.fail, before, Bool.true_and] at after
      have empty : e.value = none := by simpa using after
      obtain ⟨t, id, _, same⟩ := failed
      refine ⟨Or.inl empty, fun key v written => ?_⟩
      rw [same] at written
      cases written
    | invalidate clears => exact absurd clears stays
    | remove gone =>
      refine ⟨rfl, Or.inl rfl, fun _ _ => ⟨Or.inr gone, fun key v written => ?_⟩⟩
      exact absurd ((write?_of_removal gone.1 key).symm.trans written) (by simp)
    | expire old =>
      obtain ⟨t, sweep⟩ := old.1
      exact absurd sweep (sweeps t)

section Leaving

variable {s s' : State κ α ε} {a : Action κ α ε} {seen : List (Signal κ α ε)} {id : Nat}

theorem free_of_sweeps (step : step? s a = some (s', seen)) {t : TaskId} (sweeps : s.Sweeps t a)
    {e e' : Entry κ α ε} (here : s.entries[id]? = some e) (listed : e.listed = true)
    (there : s'.entries[id]? = some e') (gone : e'.listed = false) : e'.holder = none := by
  obtain ⟨s₁, order, began, swept, _, table, _⟩ := sweepOver_of_step step sweeps
  change s' = (s₁.sweepOver t began order).1 at swept
  obtain ⟨e₁, between, still⟩ := table id e here
  exact (purged_sweepOver between (still.trans listed) (swept ▸ there) gone).2.1

theorem unloaded_of_takesOut (order : Orderly s) (step : step? s a = some (s', seen))
    (out : TakesOut s s' id) :
    ∀ u p, s'.phase? u = some p → p.entry = id → p.isLoad = false := by
  obtain ⟨e, e', here, listed, there, gone⟩ := out
  have order' := step_orderly order step
  intro u p phase at_id
  cases p with
  | getQueued | removeQueued => rfl
  | getLoading key j =>
    cases at_id
    obtain ⟨_, still, _⟩ := order'.getLoading_fits phase there
    exact absurd (still.symm.trans gone) (by decide)
  | refreshing j rest began =>
    cases at_id
    by_cases acts : a.actor = .task u
    · have free := free_of_sweeps step (sweeps_of_refreshing order step acts phase) here listed
        there gone
      obtain ⟨f, at_j, holds⟩ := order'.holder_of_load phase rfl
      cases there.symm.trans at_j
      rw [free] at holds
      cases holds
    · -- The task has waited for the reload before, so that the entry was out already.
      have moves : Moves a.actor s seen s' := step_byMoves order step
      have stale : s'.ReloadsUnlisted u e'.key := ⟨j, rest, began, e', phase, there, rfl, gone⟩
      rcases step_reload_unlisted order step stale with before | ⟨own, _⟩
      · obtain ⟨k, _, _, f, waits, at_k, _, out⟩ := before
        rw [moves.phase_of_other acts] at phase
        cases phase.symm.trans waits
        cases here.symm.trans at_k
        exact absurd (listed.symm.trans out) (by decide)
      · exact absurd own acts

theorem removed_of_takesOut (order : Orderly s) (step : step? s a = some (s', seen))
    {e e' : Entry κ α ε} (here : s.entries[id]? = some e) (listed : e.listed = true)
    (there : s'.entries[id]? = some e') (gone : e'.listed = false) (busy : e'.holder ≠ none) :
    e'.value = none ∨ ∃ u, .finished u (.removed e'.value) ∈ seen := by
  by_cases clears : a = .invalidateAll
  · subst clears
    cases step
    have mapped : s.invalidateAll.1.entries[id]? = some e.invalidate := by
      simp [State.invalidateAll, State.report, here]
    cases there.symm.trans mapped
    unfold Entry.invalidate at gone busy
    rw [if_pos listed] at gone busy
    split at gone
    · rename_i idle
      rw [if_pos idle] at busy
      exact absurd (Option.isNone_iff_eq_none.1 idle) busy
    · exact absurd (listed.symm.trans gone) (by decide)
  · have calm : ∀ t, ¬ s.Sweeps t a := fun t sweeps =>
      busy (free_of_sweeps step sweeps here listed there gone)
    obtain ⟨f, after, edits⟩ := (step_edited order step).kept id e here
    cases there.symm.trans after
    exact ((quits_of_edits clears calm edits).left listed gone).1.imp_right fun removed => removed.2

end Leaving

structure Late (t : TaskId) (id : Nat) (x : Option α) (s : State κ α ε) : Prop where
  order : Orderly s
  waits : s.AwaitsRemoval t id
  gone : ∃ e, s.entries[id]? = some e ∧ e.listed = false ∧ e.value = x
  unloaded : ∀ u p, s.phase? u = some p → p.entry = id → p.isLoad = false

theorem Late.move {who : Actor} {s s' : State κ α ε} {seen : List (Signal κ α ε)} {t : TaskId}
    {id : Nat} {x : Option α} (late : Late t id x s) (move : Move who s seen s')
    (other : who ≠ .task t) : Late t id x s' := by
  obtain ⟨e, here, gone, value⟩ := late.gone
  obtain ⟨key, waits⟩ := late.waits
  obtain ⟨_, h, holds⟩ := late.order.busy_of_waiting waits here
  have kept : ∃ e', s'.entries[id]? = some e' ∧ e.Keeps e' := by
    by_cases calm : who = .caller
    · subst calm
      cases move with
      | tell => exact ⟨e, here, .rfl⟩
      | add =>
        have bound := (List.getElem?_eq_some_iff.1 here).1
        exact ⟨e, by simp [State.getElem?_addEntry, Nat.ne_of_lt bound, here], .rfl⟩
      | touch => exact State.keeps_modifyEntry here fun _ => ⟨rfl, rfl, rfl, fun listed => listed⟩
      | put v found =>
        refine State.keeps_modifyEntry here fun same => ?_
        obtain ⟨f, there, listed, _⟩ := State.find?_eq_some found
        rw [← same, here] at there
        cases there
        exact absurd (listed.symm.trans gone) (by decide)
      | invalidate => exact ⟨e, by simp [here, Entry.invalidate, gone], .rfl⟩
    · refine move.content_kept calm here fun u p phase at_id load => ?_
      rw [late.unloaded u p phase at_id] at load
      cases load
  obtain ⟨e', there, keeps⟩ := kept
  refine ⟨move_orderly move late.order, ⟨key, (move.phase_of_other other).trans waits⟩,
    ⟨e', there, ?_, keeps.value.trans value⟩,
    move.unloaded here (by simp [holds]) (Or.inr gone) late.unloaded⟩
  cases back : e'.listed with
  | false => rfl
  | true => exact absurd ((keeps.listed back).symm.trans gone) (by decide)

/-- In a run, another removal has taken an entry out of the table and given its value, while this
    one waited in line before it. -/
def Overtaken (start : State κ α ε) (actions : List (Action κ α ε)) (t : TaskId) (id : Nat)
    (v : α) : Prop :=
  ∃ before b after s₁ s₂ seen shown u, actions = before ++ b :: after ∧
    run? start before = some (s₁, seen) ∧ step? s₁ b = some (s₂, shown) ∧ s₁.AwaitsRemoval t id ∧
      TakesOut s₁ s₂ id ∧ u ≠ t ∧ .finished u (.removed (some v)) ∈ shown

theorem Overtaken.append {start : State κ α ε} {actions : List (Action κ α ε)} {t : TaskId}
    {id : Nat} {v : α} (overtaken : Overtaken start actions t id v)
    (more : List (Action κ α ε)) : Overtaken start (actions ++ more) t id v := by
  obtain ⟨before, b, after, s₁, s₂, seen, shown, u, rfl, rest⟩ := overtaken
  exact ⟨before, b, after ++ more, s₁, s₂, seen, shown, u, by simp, rest⟩

theorem late_of_unlisted {settings : Settings} {now : Nat} {actions : List (Action κ α ε)}
    {s : State κ α ε} {seen : List (Signal κ α ε)}
    (ran : run? { settings, now } actions = some (s, seen)) {t : TaskId} {id : Nat}
    (waits : s.AwaitsRemoval t id) {e : Entry κ α ε} (here : s.entries[id]? = some e)
    (gone : e.listed = false) :
    Late t id e.value s ∧ ∀ v, e.value = some v → Overtaken { settings, now } actions t id v := by
  induction actions using List.reverseRecOn generalizing s seen e with
  | nil =>
    cases ran
    cases here
  | append_singleton actions a ih =>
    obtain ⟨s₁, first, shown, reached, step⟩ := run_concat ran
    have order := run_orderly (orderly_initial settings now) reached
    have order' := step_orderly order step
    obtain ⟨key, phase⟩ := waits
    obtain ⟨_, h, holds⟩ := order'.busy_of_waiting phase here
    -- A removal comes to wait only at an entry of the table; this one has waited before.
    have other : a.actor ≠ .task t := by
      intro acts
      obtain ⟨_, met⟩ := waits_of_step order step acts phase
      obtain ⟨f, there, listed⟩ := met rfl
      cases here.symm.trans there
      exact absurd (listed.symm.trans gone) (by decide)
    have moves : Moves a.actor s₁ shown s := step_byMoves order step
    have waited : s₁.phase? t = some (.removeQueued key id) := moves.phase_of_other other ▸ phase
    obtain ⟨e₁, before, _⟩ := order.seated t _ waited
    change s₁.entries[id]? = some e₁ at before
    cases listed : e₁.listed with
    | false =>
      obtain ⟨late, overtaken⟩ := ih reached ⟨key, waited⟩ before listed
      have still : Late t id e₁.value s := moves.keep (fun move late => late.move move other) late
      obtain ⟨f, there, _, same⟩ := still.gone
      cases here.symm.trans there
      exact ⟨same ▸ still, fun v full => (overtaken v (same.symm.trans full)).append [a]⟩
    | true =>
      have out : TakesOut s₁ s id := ⟨e₁, e, before, listed, here, gone⟩
      refine ⟨⟨order', ⟨key, phase⟩, ⟨e, here, gone, rfl⟩, unloaded_of_takesOut order step out⟩, ?_⟩
      intro v full
      rcases removed_of_takesOut order step before listed here gone (by simp [holds]) with
        empty | ⟨u, removed⟩
      · cases empty.symm.trans full
      · rw [full] at removed
        refine ⟨actions, a, [], s₁, s, first, shown, u, rfl, reached, step, ⟨key, waited⟩, out, ?_,
          removed⟩
        rintro rfl
        exact other (ends_of_step order step removed).1

theorem run_unlisted {actions : List (Action κ α ε)} {s s' : State κ α ε}
    {seen : List (Signal κ α ε)} (order : Orderly s) (ran : run? s actions = some (s', seen))
    {id : Nat} {e : Entry κ α ε} (here : s.entries[id]? = some e) (gone : e.listed = false) :
    ∃ e', s'.entries[id]? = some e' ∧ e'.listed = false := by
  refine (run_keep (P := fun s => ∃ e, s.entries[id]? = some e ∧ e.listed = false)
    (A := fun _ => True) ?_ order (fun _ _ => trivial) ran ⟨e, here, gone⟩).2
  rintro s a s' seen order _ step ⟨e, here, gone⟩
  obtain ⟨e', there, becomes⟩ := (step_continues order step).kept id e here
  refine ⟨e', there, ?_⟩
  cases back : e'.listed with
  | false => rfl
  | true => exact absurd ((becomes.listed back).symm.trans gone) (by decide)

/-- A removal that gives a value finds it in an entry of its key. It takes this entry out of the
    table in the same step, unless another removal has done so and given the value while this one
    waited in line before the entry. -/
theorem removal_takes_out_unless_overtaken {settings : Settings} {now : Nat}
    {actions : List (Action κ α ε)} {a : Action κ α ε} {s s' : State κ α ε}
    {seen shown : List (Signal κ α ε)} {t : TaskId} {v : α}
    (reached : run? { settings, now } actions = some (s, seen))
    (step : step? s a = some (s', shown)) (ends : .finished t (.removed (some v)) ∈ shown) :
    ∃ (id : Nat) (e : Entry κ α ε), s.entries[id]? = some e ∧ e.value = some v ∧
      s.removal? a = some e.key ∧
        (TakesOut s s' id ↔ ¬ Overtaken { settings, now } actions t id v) := by
  have order := run_orderly (orderly_initial settings now) reached
  obtain ⟨_, found⟩ := ends_of_step order step ends
  generalize same : Result.removed (some v) = r at found
  cases found with
  | served | told | missing | swept => cases same
  | @loaded _ _ outcome => cases outcome <;> cases same
  | @removed id e e' own here there gone met =>
    have full : e.value = some v := (Result.removed.inj same).symm
    refine ⟨id, e, here, full, own, ?_, fun free => ?_⟩
    · -- What another removal has taken out stays out, so that this one finds nothing to take out.
      rintro ⟨f, _, at_id, listed, _, _⟩ ⟨before, b, after, s₁, s₂, _, _, _, rfl, ran, taken,
        _, ⟨_, g, _, _, out, unlisted⟩, _⟩
      cases here.symm.trans at_id
      obtain ⟨s₃, _, _, ran', rest, _⟩ := run_append reached
      cases ran.symm.trans ran'
      obtain ⟨s₄, _, _, taken', others, _⟩ := run_cons rest
      cases taken.symm.trans taken'
      have order₁ := run_orderly (orderly_initial settings now) ran
      obtain ⟨e₁, last, still⟩ := run_unlisted (step_orderly order₁ taken) others out unlisted
      cases here.symm.trans last
      exact absurd (listed.symm.trans still) (by decide)
    · cases listed : e.listed with
      | true => exact ⟨e, e', here, listed, there, gone⟩
      | false =>
        have waits : s.AwaitsRemoval t id := by
          rcases met with still | waits
          · exact absurd (still.symm.trans listed) (by decide)
          · exact ⟨e.key, waits⟩
        exact absurd ((late_of_unlisted reached waits here listed).2 v full) free

/-- Two removals wait in line behind a load that succeeds. -/
def removalsBehindLoad : List (Action Nat Nat Unit) :=
  [.get (.request 0) 7, .remove (.request 1) 7, .remove (.request 2) 7,
    .loaded (.request 0) (.ok 5)]

def loadedSeven : Entry Nat Nat Unit := { key := 7, value := some 5, loadedAt := 0, usedAt := 0 }

def bothBehindLoad : State Nat Nat Unit where
  settings := ⟨none, none, 1000, false⟩
  entries := [{ loadedSeven with holder := some (.request 1), queue := [.request 2] }]
  tasks := [(.request 1, .removeQueued 7 0), (.request 2, .removeQueued 7 0)]

theorem first_removal_takes_out :
    let start : State Nat Nat Unit := { settings := ⟨none, none, 1000, false⟩ }
    ∃ s' seen shown, run? start removalsBehindLoad = some (bothBehindLoad, seen) ∧
      step? bothBehindLoad (.resume (.request 1)) = some (s', shown) ∧
        .finished (.request 1) (.removed (some 5)) ∈ shown ∧
        ∃ (id : Nat) (e : Entry Nat Nat Unit), bothBehindLoad.entries[id]? = some e ∧
          e.value = some 5 ∧ bothBehindLoad.removal? (.resume (.request 1)) = some e.key ∧
          (TakesOut bothBehindLoad s' id ↔
            ¬ Overtaken start removalsBehindLoad (.request 1) id 5) := by
  let start : State Nat Nat Unit := { settings := ⟨none, none, 1000, false⟩ }
  have reached : run? start removalsBehindLoad = some (bothBehindLoad, [.began (.request 0) 7,
    .sized 1, .finished (.request 0) (.got 5), .granted (.request 1)]) := rfl
  have step : step? bothBehindLoad (.resume (.request 1)) = some (_, [.sized 0,
    .finished (.request 1) (.removed (some 5)), .granted (.request 2)]) := rfl
  have ends : Signal.finished (.request 1) (.removed (some 5)) ∈ ([.sized 0,
    .finished (.request 1) (.removed (some 5)), .granted (.request 2)] :
      List (Signal Nat Nat Unit)) := .tail _ (.head _)
  exact ⟨_, _, _, reached, step, ends, removal_takes_out_unless_overtaken reached step ends⟩

theorem both_removals_give_value :
    ∃ s₁ s₂ seen first second,
      run? { settings := ⟨none, none, 1000, false⟩ } removalsBehindLoad =
          some (bothBehindLoad, seen) ∧
        step? bothBehindLoad (.resume (.request 1)) = some (s₁, first) ∧
          .finished (.request 1) (.removed (some 5)) ∈ first ∧
        step? s₁ (.resume (.request 2)) = some (s₂, second) ∧
          .finished (.request 2) (.removed (some 5)) ∈ second ∧ ∀ id, ¬ TakesOut s₁ s₂ id := by
  let s₁ : State Nat Nat Unit := { bothBehindLoad with
    entries := [{ loadedSeven.detach with holder := some (.request 2) }]
    tasks := [(.request 2, .removeQueued 7 0)] }
  have first : step? bothBehindLoad (.resume (.request 1)) = some (s₁, [.sized 0,
    .finished (.request 1) (.removed (some 5)), .granted (.request 2)]) := rfl
  have second : step? s₁ (.resume (.request 2)) = some ({ s₁ with
    entries := [loadedSeven.detach], tasks := [] }, [.sized 0,
      .finished (.request 2) (.removed (some 5))]) := rfl
  refine ⟨s₁, _, _, _, _, rfl, first, .tail _ (.head _), second, .tail _ (.head _), ?_⟩
  rintro id ⟨e, _, here, listed, _⟩
  cases id with
  | zero =>
    cases here
    cases listed
  | succ => cases here

end SingleFlight
end MetricGateway
