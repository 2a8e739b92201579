import MetricGateway.Proofs.SingleFlight.Order

/- Each step of an orderly single-flight cache is a chain of moves of its actor, one lemma for each
   operation. What moves keep holds in every state that a run reaches. -/
namespace MetricGateway
namespace SingleFlight

variable {κ α ε : Type} [DecidableEq κ]

def Effect.ByMoves (who : Actor) (s : State κ α ε) (e : Effect κ α ε) : Prop := Moves who s e.2 e.1

namespace Effect

theorem ByMoves.orderly {who : Actor} {s : State κ α ε} {e : Effect κ α ε} (moves : e.ByMoves who s)
    (order : Orderly s) : Orderly e.1 :=
  Moves.keep move_orderly moves order

theorem byMoves_andThen {who : Actor} {s : State κ α ε} {e : Effect κ α ε}
    {f : State κ α ε → Effect κ α ε} (first : e.ByMoves who s) (rest : (f e.1).ByMoves who e.1) :
    (e.andThen f).ByMoves who s :=
  Moves.append first rest

end Effect

open Effect

theorem byMoves_refl (who : Actor) (s : State κ α ε) : Effect.ByMoves who s (s, []) := .nil s

theorem byMoves_single {who : Actor} {s s' : State κ α ε} {seen : List (Signal κ α ε)}
    (move : Move who s seen s') : Effect.ByMoves who s (s', seen) := .single move

theorem byMoves_cons {who : Actor} {s s' : State κ α ε} {e : Effect κ α ε} (move : Move who s [] s')
    (rest : e.ByMoves who s') : e.ByMoves who s :=
  Moves.cons move rest

theorem byMoves_report (who : Actor) (s : State κ α ε) : s.report.ByMoves who s :=
  byMoves_single (.tell s trivial)

theorem byMoves_finish {s : State κ α ε} {t : TaskId} (idle : s.phase? t = none) (r : Result α ε) :
    (s.finish t r).ByMoves (.task t) s := by
  have same : s.dropTask t = s := State.dropTask_of_idle idle
  simp only [State.finish, same]
  exact byMoves_single (.tell s rfl)

theorem byMoves_finish_free {s : State κ α ε} {t : TaskId} {id : Nat} {e : Entry κ α ε}
    (idle : s.phase? t = none) (here : s.entries[id]? = some e) (free : e.holder = none)
    (empty : e.queue = []) (r : Result α ε) :
    (Effect.andThen (s.finish t r) (·.release id)).ByMoves (.task t) s := by
  have same : s.dropTask t = s := State.dropTask_of_idle idle
  simp only [Effect.andThen, State.finish, same, State.release_of_free here free empty]
  exact byMoves_single (.tell s rfl)

theorem byMoves_finish_release {s : State κ α ε} {t : TaskId} {p : Phase κ} {e : Entry κ α ε}
    (phase : s.phase? t = some p) (here : s.entries[p.entry]? = some e) (holds : e.holder = some t)
    (r : Result α ε) :
    (Effect.andThen (s.finish t r) (·.release p.entry)).ByMoves (.task t) s := by
  have quit := Move.quit phase here
  simp only [State.cancel, if_pos holds] at quit
  have told : Signal.ToldBy (.task t) (.finished t r : Signal κ α ε) := rfl
  exact Moves.cons (.tell s told) (.single quit)

theorem byMoves_claim (who : Actor) (s : State κ α ε) (key : κ) :
    Effect.ByMoves who s ((s.claim key).1, []) := by
  unfold State.claim
  split
  · exact byMoves_refl who s
  · rename_i missing
    exact byMoves_single (.add missing)

theorem byMoves_beginGet {s : State κ α ε} {t : TaskId} (idle : s.phase? t = none) (key : κ) :
    (s.beginGet t key).ByMoves (.task t) s := by
  have claim := byMoves_claim (.task t) s key
  have still : (s.claim key).1.phase? t = none := by
    unfold State.claim; split <;> simpa
  obtain ⟨e, here, listed, own⟩ := State.claim_listed s key
  unfold State.beginGet
  generalize s.claim key = claimed at *
  obtain ⟨s₁, id⟩ := claimed
  simp only at claim still here ⊢
  refine Moves.append claim ?_
  simp only [here]
  cases value : e.value with
  | some v =>
    have ended := byMoves_finish (s := s₁.modifyEntry id (·.touch s₁.now)) (by simpa) (.got v)
    exact byMoves_cons (.touch here value) ended
  | none =>
    cases holder : e.holder with
    | none =>
      have begun := Move.begin (p := .getLoading key id) still here holder rfl
        ⟨own, listed, rfl⟩ (fun _ _ _ => value)
      rw [own] at begun
      exact byMoves_single begun
    | some u =>
      exact byMoves_single (.queue (p := .getQueued key id e.failures) still here (by simp [holder])
        rfl own)

theorem byMoves_resumeGet {s : State κ α ε} {t : TaskId} {key : κ}
    {id failures : Nat} {e : Entry κ α ε} (phase : s.phase? t = some (.getQueued key id failures))
    (here : s.entries[id]? = some e) (holds : e.holder = some t) :
    (s.resumeGet t key id failures e).ByMoves (.task t) s := by
  unfold State.resumeGet
  cases value : e.value with
  | some v =>
    have there := State.modifyEntry_of_getElem? here (·.touch s.now)
    exact byMoves_cons (.touch here value) (byMoves_finish_release (s := s.modifyEntry id _)
      (p := .getQueued key id failures) phase there holds (.got v))
  | none =>
    simp only
    split
    · rename_i error _
      exact byMoves_finish_release (p := .getQueued key id failures) phase here holds
        (.failed error)
    · split
      · rename_i listed
        exact byMoves_single (.promote phase here holds value listed)
      · have quit := Move.quit phase here
        rw [State.cancel, if_pos holds] at quit
        refine byMoves_andThen (byMoves_single quit) (byMoves_beginGet ?_ key)
        simp [State.release]

theorem byMoves_completeRemove {s : State κ α ε} (order : Orderly s) {t : TaskId} {id : Nat}
    {e : Entry κ α ε} (here : s.entries[id]? = some e)
    (turn : e.holder = none ∧ s.phase? t = none ∨
      e.holder = some t ∧ ∃ key, s.phase? t = some (.removeQueued key id)) :
    (s.completeRemove t id e).ByMoves (.task t) s := by
  have unloaded : ∀ u p, s.phase? u = some p → p.entry = id → p.isLoad = false := by
    intro u p phase at_id
    refine order.unloaded_of_holder here ?_ phase at_id
    intro v q holds own
    rcases turn with ⟨free, _⟩ | ⟨held, key, waits⟩
    · simp [free] at holds
    · rw [held] at holds
      cases holds
      rw [waits] at own
      cases own
      rfl
  have there := State.modifyEntry_of_getElem? here Entry.detach
  refine byMoves_cons (.unlist unloaded) (byMoves_andThen (byMoves_report _ _) ?_)
  rcases turn with ⟨free, idle⟩ | ⟨holds, key, phase⟩
  · exact byMoves_finish_free (s := s.modifyEntry id _) (by simpa) there free
      (order.free id e here free) _
  · exact byMoves_finish_release (s := s.modifyEntry id _) (p := .removeQueued key id) phase there
      holds _

theorem byMoves_beginRemove {s : State κ α ε} (order : Orderly s) {t : TaskId}
    (idle : s.phase? t = none) (key : κ) : (s.beginRemove t key).ByMoves (.task t) s := by
  unfold State.beginRemove
  split
  · exact byMoves_finish idle _
  · rename_i id found
    obtain ⟨e, here, _, own⟩ := State.find?_eq_some found
    simp only [here]
    cases holder : e.holder with
    | none => exact byMoves_completeRemove order here (Or.inl ⟨holder, idle⟩)
    | some u =>
      exact byMoves_single (.queue (p := .removeQueued key id) idle here (by simp [holder]) rfl own)

theorem byMoves_sweepOver {s : State κ α ε} (order : Orderly s) {t : TaskId}
    (idle : s.phase? t = none) (began : Nat) (ids : List Nat) :
    (s.sweepOver t began ids).ByMoves (.task t) s := by
  induction ids generalizing s with
  | nil =>
    exact byMoves_andThen (byMoves_report _ s) (byMoves_finish (s := s) idle .swept)
  | cons id rest ih =>
    unfold State.sweepOver
    cases here : s.entries[id]? with
    | none => exact ih order idle
    | some e =>
      dsimp only
      split
      · exact ih order idle
      · split
        · split
          · rename_i due
            simp only [Bool.and_eq_true, Option.isNone_iff_eq_none] at due
            have unlist : Move (.task t) s [] (s.modifyEntry id Entry.detach) := by
              refine .unlist fun u p phase at_id => ?_
              exact order.unloaded_of_holder here (by simp [due.1]) phase at_id
            exact byMoves_andThen (byMoves_cons unlist (byMoves_single (.tell _ trivial)))
              (ih (move_orderly unlist order) (by simpa))
          · exact ih order idle
        · split
          · rename_i due
            simp only [Bool.and_eq_true, Option.isNone_iff_eq_none] at due
            exact byMoves_single (.begin (p := .refreshing id rest began) idle here due.2 rfl rfl
              (fun _ _ other => by cases other))
          · exact ih order idle

theorem byMoves_endLoad {s : State κ α ε} (order : Orderly s) {t : TaskId} {key : κ} {id : Nat}
    (phase : s.phase? t = some (.getLoading key id)) (outcome : Except ε α) :
    (s.endLoad t id outcome).ByMoves (.task t) s := by
  obtain ⟨e, here, holds⟩ := order.holder_of_load phase rfl
  change s.entries[id]? = some e at here
  cases outcome with
  | ok value =>
    have told : Signal.ToldBy (.task t) (.finished t (.got value) : Signal κ α ε) := rfl
    exact Moves.cons (.tell s trivial) (Moves.cons (.tell s told)
      (.single (.store true value phase rfl here holds)))
  | error error =>
    have failed := Move.fail error phase rfl
    have there := State.modifyEntry_of_getElem? here (·.fail error)
    have left := byMoves_finish_release (s := s.modifyEntry id (·.fail error)) phase there holds
      (.failed error)
    cases value : e.value with
    | some v =>
      have kept : s.modifyEntry id (fun e => (e.fail error).detachIfEmpty) =
          s.modifyEntry id (·.fail error) :=
        State.modifyEntry_congr here (by simp [Entry.detachIfEmpty, Entry.fail, value])
      rw [State.endLoad, kept]
      exact byMoves_cons failed left
    | none =>
      rw [State.endLoad_error_of_empty here value error]
      refine byMoves_cons failed (byMoves_andThen left (byMoves_single (.unlist ?_)))
      intro u p waits at_id
      -- Whoever loads here has the gate, and the task that had it is gone.
      have phases : s.phase? u = some p ∧ u ≠ t := by
        by_cases own : u = t
        · simp [Effect.andThen, State.finish, State.release, own] at waits
        · exact ⟨by simpa [Effect.andThen, State.finish, State.release, own] using waits, own⟩
      cases load : p.isLoad with
      | false => rfl
      | true =>
        obtain ⟨f, there, held⟩ := order.holder_of_load phases.1 load
        rw [at_id, here] at there
        cases there
        rw [holds] at held
        exact absurd (Option.some.inj held).symm phases.2

theorem byMoves_endRefresh {s : State κ α ε} (order : Orderly s) {t : TaskId} {id : Nat}
    {rest : List Nat} {began : Nat} (phase : s.phase? t = some (.refreshing id rest began))
    (key : κ) (outcome : Except ε α) :
    (s.endRefresh t id rest began key outcome).ByMoves (.task t) s := by
  obtain ⟨e, here, holds⟩ := order.holder_of_load phase rfl
  change s.entries[id]? = some e at here
  have goes : ∀ (s₁ : State κ α ε) (signal : Signal κ α ε), signal.ToldBy (.task t) →
      Move (.task t) s ((s₁.dropTask t).release id).2 ((s₁.dropTask t).release id).1 →
      (Effect.andThen (Effect.andThen (s₁, [signal]) (·.release id))
        (·.sweepOver t began rest)).ByMoves (.task t) s := by
    intro s₁ signal told leave
    have idle : ((s₁.dropTask t).release id).1.phase? t = none := by simp [State.release]
    have swept := byMoves_sweepOver (move_orderly leave order) idle began rest
    have chain := Moves.cons (.tell s told) (Moves.append (.single leave) swept)
    have same : ((s₁.dropTask t).release id).1.sweepOver t began rest =
        (s₁.release id).1.sweepOver t began rest :=
      State.sweepOver_dropTask (s₁.release id).1 t began rest
    rw [same, ← List.append_assoc] at chain
    exact chain
  cases outcome with
  | ok value =>
    exact goes _ (.refreshed key true) trivial (.store false value phase rfl here holds)
  | error =>
    have quit := Move.quit phase here
    simp only [State.cancel, Phase.entry, if_pos holds] at quit
    exact goes s (.refreshed key false) trivial quit

/-- The steps that can be taken in a state, and what each of them does. -/
inductive Taken (s : State κ α ε) : Action κ α ε → Effect κ α ε → Prop where
  | get {t : TaskId} (idle : s.phase? t = none) (key : κ) : Taken s (.get t key) (s.beginGet t key)
  | remove {t : TaskId} (idle : s.phase? t = none) (key : κ) :
      Taken s (.remove t key) (s.beginRemove t key)
  | sweep {t : TaskId} (idle : s.phase? t = none) (order : List Nat) :
      Taken s (.sweep t order) (s.sweepOver t s.now order)
  | put (key : κ) (value : α) : Taken s (.put key value) (s.put key value)
  | invalidateAll : Taken s .invalidateAll s.invalidateAll
  | resumeGet {t : TaskId} {key : κ} {id failures : Nat} {e : Entry κ α ε}
      (phase : s.phase? t = some (.getQueued key id failures)) (here : s.entries[id]? = some e)
      (holds : e.holder = some t) : Taken s (.resume t) (s.resumeGet t key id failures e)
  | resumeRemove {t : TaskId} {key : κ} {id : Nat} {e : Entry κ α ε}
      (phase : s.phase? t = some (.removeQueued key id)) (here : s.entries[id]? = some e)
      (holds : e.holder = some t) : Taken s (.resume t) (s.completeRemove t id e)
  | endLoad {t : TaskId} {key : κ} {id : Nat} {e : Entry κ α ε}
      (phase : s.phase? t = some (.getLoading key id)) (here : s.entries[id]? = some e)
      (outcome : Except ε α) : Taken s (.loaded t outcome) (s.endLoad t id outcome)
  | endRefresh {t : TaskId} {id : Nat} {rest : List Nat} {began : Nat} {e : Entry κ α ε}
      (phase : s.phase? t = some (.refreshing id rest began)) (here : s.entries[id]? = some e)
      (outcome : Except ε α) :
      Taken s (.loaded t outcome) (s.endRefresh t id rest began e.key outcome)
  | cancel {t : TaskId} {p : Phase κ} {e : Entry κ α ε} (phase : s.phase? t = some p)
      (here : s.entries[p.entry]? = some e) : Taken s (.cancel t) (s.cancel t p.entry e)
  | advance (ms : Nat) : Taken s (.advance ms) ({ s with now := s.now + ms }, [])

/-- Every step is one of them: what is said of steps is shown by cases over these. -/
theorem taken_of_step {s : State κ α ε} {a : Action κ α ε} {effect : Effect κ α ε}
    (step : step? s a = some effect) : Taken s a effect := by
  cases a with
  | get t key =>
    obtain ⟨idle, same⟩ := Option.ite_none_right_eq_some.1 step
    cases same
    exact .get (Option.isNone_iff_eq_none.1 idle) key
  | remove t key =>
    obtain ⟨idle, same⟩ := Option.ite_none_right_eq_some.1 step
    cases same
    exact .remove (Option.isNone_iff_eq_none.1 idle) key
  | sweep t order =>
    obtain ⟨idle, same⟩ := Option.ite_none_right_eq_some.1 step
    cases same
    rw [Bool.and_eq_true, Option.isNone_iff_eq_none] at idle
    exact .sweep idle.1 order
  | put key value =>
    cases step
    exact .put key value
  | invalidateAll =>
    cases step
    exact .invalidateAll
  | resume t =>
    simp only [step?, Option.bind_eq_bind, Option.bind_eq_some_iff] at step
    obtain ⟨p, phase, e, here, step⟩ := step
    split at step
    · cases step
    · rename_i holds
      rw [Decidable.not_not] at holds
      cases p with
      | getQueued key id failures =>
        cases step
        exact .resumeGet phase here holds
      | removeQueued key id =>
        cases step
        exact .resumeRemove phase here holds
      | getLoading | refreshing => cases step
  | loaded t outcome =>
    simp only [step?, Option.bind_eq_bind, Option.bind_eq_some_iff] at step
    obtain ⟨p, phase, e, here, step⟩ := step
    cases p with
    | getLoading key id =>
      cases step
      exact .endLoad phase here outcome
    | refreshing id rest began =>
      cases step
      exact .endRefresh phase here outcome
    | getQueued | removeQueued => cases step
  | cancel t =>
    simp only [step?, Option.bind_eq_bind, Option.bind_eq_some_iff] at step
    obtain ⟨p, phase, e, here, step⟩ := step
    cases step
    exact .cancel phase here
  | advance ms =>
    cases step
    exact .advance ms

theorem step_byMoves {s : State κ α ε} {a : Action κ α ε} {effect : Effect κ α ε}
    (order : Orderly s) (step : step? s a = some effect) : effect.ByMoves a.actor s := by
  cases taken_of_step step with
  | get idle key => exact byMoves_beginGet idle key
  | remove idle key => exact byMoves_beginRemove order idle key
  | sweep idle ids => exact byMoves_sweepOver order idle s.now ids
  | put key value =>
    have claim := byMoves_claim .caller s key
    exact Moves.append claim (byMoves_cons (.put value (State.find?_claim s key))
      (byMoves_report _ _))
  | invalidateAll => exact byMoves_cons (.invalidate s) (byMoves_report _ _)
  | resumeGet phase here holds => exact byMoves_resumeGet phase here holds
  | resumeRemove phase here holds =>
    exact byMoves_completeRemove order here (Or.inr ⟨holds, _, phase⟩)
  | endLoad phase _ outcome => exact byMoves_endLoad order phase outcome
  | endRefresh phase _ outcome => exact byMoves_endRefresh order phase _ outcome
  | cancel phase here => exact byMoves_single (.quit phase here)
  | advance ms => exact byMoves_single (.pass s ms)

theorem step_orderly {s : State κ α ε} {a : Action κ α ε} {effect : Effect κ α ε}
    (order : Orderly s) (step : step? s a = some effect) : Orderly effect.1 :=
  (step_byMoves order step).orderly order

theorem run_cons {s s' : State κ α ε} {a : Action κ α ε} {rest : List (Action κ α ε)}
    {seen : List (Signal κ α ε)} (ran : run? s (a :: rest) = some (s', seen)) :
    ∃ s₁ first more, step? s a = some (s₁, first) ∧ run? s₁ rest = some (s', more) ∧
      seen = first ++ more := by
  simp only [run?, Option.bind_eq_bind, Option.bind_eq_some_iff] at ran
  obtain ⟨⟨s₁, first⟩, step, ⟨s₂, more⟩, rest, same⟩ := ran
  cases same
  exact ⟨s₁, first, more, step, rest, rfl⟩

theorem run_of_step {s s₁ s' : State κ α ε} {a : Action κ α ε} {rest : List (Action κ α ε)}
    {first more : List (Signal κ α ε)} (step : step? s a = some (s₁, first))
    (ran : run? s₁ rest = some (s', more)) : run? s (a :: rest) = some (s', first ++ more) := by
  simp [run?, step, ran]

/-- What the steps of a kind keep in orderly states, runs of such steps keep. -/
theorem run_keep {P : State κ α ε → Prop} {A : Action κ α ε → Prop}
    (step : ∀ {s a s' seen}, Orderly s → A a → step? s a = some (s', seen) → P s → P s')
    {actions : List (Action κ α ε)} {s s' : State κ α ε} {seen : List (Signal κ α ε)}
    (order : Orderly s) (acts : ∀ a ∈ actions, A a) (ran : run? s actions = some (s', seen))
    (start : P s) : Orderly s' ∧ P s' := by
  induction actions generalizing s seen with
  | nil => cases ran; exact ⟨order, start⟩
  | cons a rest ih =>
    obtain ⟨s₁, first, more, taken, others, _⟩ := run_cons ran
    have own := acts a List.mem_cons_self
    have later : ∀ b ∈ rest, A b := fun b member => acts b (List.mem_cons_of_mem a member)
    exact ih (step_orderly order taken) later others (step order own taken start)

theorem run_orderly {actions : List (Action κ α ε)} {s s' : State κ α ε}
    {seen : List (Signal κ α ε)} (order : Orderly s) (ran : run? s actions = some (s', seen)) :
    Orderly s' :=
  (run_keep (P := fun _ => True) (A := fun _ => True) (fun _ _ _ _ => trivial) order
    (fun _ _ => trivial) ran trivial).1

end SingleFlight
end MetricGateway
