import MetricGateway.Proofs.SingleFlight.Invalidation

/- How long a put lasts. No value is compared with the one it replaces: what comes last stays, be
   it the result of a loader call that began before a put. Until the key is put again, removed,
   invalidated or expired, its entry has the value put or that of a call which ended since, and
   a get has it at once. -/
namespace MetricGateway
namespace SingleFlight

variable {κ α ε : Type}

def Lasts (values : α → Prop) (key : κ) (s : State κ α ε) : Prop :=
  ∃ (id : Nat) (e : Entry κ α ε) (v : α), s.entries[id]? = some e ∧ e.listed = true ∧
    e.key = key ∧ e.value = some v ∧ values v

theorem Lasts.mono {values values' : α → Prop} {key : κ} {s : State κ α ε}
    (lasts : Lasts values key s) (more : ∀ v, values v → values' v) : Lasts values' key s := by
  obtain ⟨id, e, v, here, listed, own, value, among⟩ := lasts
  exact ⟨id, e, v, here, listed, own, value, more v among⟩

variable [DecidableEq κ]

namespace State

/-- What displaces the value under a key in a step: a put, an invalidation, the end of a removal,
    or expiry. -/
def Displaces (s : State κ α ε) (key : κ) (a : Action κ α ε) (seen : List (Signal κ α ε)) : Prop :=
  (∃ v, a = .put key v) ∨ a = .invalidateAll ∨ Dropped (fun own => s.removal? a = some own) seen key

def Undisturbed (key : κ) (s : State κ α ε) : List (Action κ α ε) → Prop
  | [] => True
  | a :: rest => ∀ s' seen, step? s a = some (s', seen) →
      ¬ s.Displaces key a seen ∧ Undisturbed key s' rest

end State

theorem loaded?_of_write? {s : State κ α ε} {key : κ} {a : Action κ α ε}
    {seen : List (Signal κ α ε)} (calm : ¬ s.Displaces key a seen) {x : Option α}
    (writes : s.write? key a = some x) : ∃ v, x = some v ∧ s.loaded? key a = some v := by
  unfold State.write? at writes
  split at writes
  · split at writes
    · rename_i own value same
      exact absurd (Or.inl ⟨value, by rw [same]⟩) calm
    · cases writes
  · exact absurd (Or.inr (Or.inl rfl)) calm
  · rw [Option.map_eq_some_iff] at writes
    obtain ⟨v, loaded, rfl⟩ := writes
    exact ⟨v, rfl, loaded⟩

theorem lasts_put (s : State κ α ε) (key : κ) (v : α) : Lasts (· = v) key (s.put key v).1 := by
  obtain ⟨e, here, listed, own⟩ := State.claim_listed s key
  have there := State.modifyEntry_of_getElem? here (·.install (s.claim key).1.now true v)
  exact ⟨(s.claim key).2, e.install (s.claim key).1.now true v, v, there, listed, own, rfl, rfl⟩

theorem Lasts.step {values : α → Prop} {key : κ} {s s' : State κ α ε} {a : Action κ α ε}
    {seen : List (Signal κ α ε)} (lasts : Lasts values key s) (order : Orderly s)
    (step : step? s a = some (s', seen)) (calm : ¬ s.Displaces key a seen) :
    Lasts (fun v => values v ∨ s.loaded? key a = some v) key s' := by
  obtain ⟨id, e, v, here, listed, own, value, among⟩ := lasts
  obtain ⟨e', there, becomes⟩ := (step_continues order step).kept id e here
  rw [own] at becomes
  -- It would leave the table without a value, cleared, or dropped: the first it is not, and the
  -- others displace it.
  have still : e'.listed = true := by
    cases after : e'.listed with
    | true => rfl
    | false =>
      rcases becomes.left listed after with empty | cleared | dropped
      · cases value.symm.trans empty
      · obtain ⟨_, none_some, _⟩ := loaded?_of_write? calm cleared
        cases none_some
      · exact absurd (Or.inr (Or.inr dropped)) calm
  rcases becomes.value with same | written
  · exact ⟨id, e', v, there, still, becomes.key.trans own, same.trans value, Or.inl among⟩
  · obtain ⟨w, full, loaded⟩ := loaded?_of_write? calm written
    exact ⟨id, e', w, there, still, becomes.key.trans own, full, Or.inr loaded⟩

theorem Lasts.run {values : α → Prop} {key : κ} {actions : List (Action κ α ε)}
    {s s' : State κ α ε} {seen : List (Signal κ α ε)} (lasts : Lasts values key s)
    (order : Orderly s) (calm : s.Undisturbed key actions)
    (ran : run? s actions = some (s', seen)) :
    Lasts (fun v => values v ∨ v ∈ s.collect (fun s => s.loaded? key) actions) key s' := by
  induction actions generalizing s seen values with
  | nil =>
    cases ran
    exact lasts.mono fun _ => Or.inl
  | cons a rest ih =>
    obtain ⟨s₁, first, more, step, others, _⟩ := run_cons ran
    obtain ⟨still, later⟩ := calm s₁ first step
    refine (ih (lasts.step order step still) (step_orderly order step) later others).mono ?_
    intro v among
    rw [mem_collect_of_step step]
    exact or_assoc.1 among

/-- Whatever tasks there are and however they interleave, as long as nothing displaces what was put
    under a key a get of it ends in its first step, with the value put or with that of a loader call
    for the key that has ended since. -/
theorem put_lasts {settings : Settings} {now : Nat} {before after : List (Action κ α ε)}
    {s₀ s : State κ α ε} {seen₀ seen : List (Signal κ α ε)} {key : κ} {v : α} {t : TaskId}
    (reached : run? { settings, now } (before ++ [.put key v]) = some (s₀, seen₀))
    (calm : s₀.Undisturbed key after) (ran : run? s₀ after = some (s, seen))
    (idle : s.phase? t = none) :
    ∃ s' w, step? s (.get t key) = some (s', [.finished t (.got w)]) ∧
      (w = v ∨ w ∈ s₀.collect (fun s => s.loaded? key) after) := by
  have order₀ := run_orderly (orderly_initial settings now) reached
  obtain ⟨s₁, _, step⟩ := step_of_run_concat reached
  have put : Lasts (· = v) key s₀ := by
    cases step
    exact lasts_put s₁ key v
  obtain ⟨id, e, w, here, listed, own, value, among⟩ := put.run order₀ calm ran
  obtain ⟨s', served⟩ := (run_orderly order₀ ran).get_held here listed value idle
  exact ⟨s', w, own ▸ served, among⟩

/-- A load in flight at a put and a removal in line behind it displace nothing; neither does a put
    of another key. -/
theorem put_lasts_beside_load :
    ∃ (s₀ s : State Nat Nat Unit) (seen₀ seen : List (Signal Nat Nat Unit)),
      run? { settings := ⟨none, none, 1000, false⟩ } ([.get (.request 0) 7] ++ [.put 7 10]) =
          some (s₀, seen₀) ∧
        s₀.Undisturbed 7 [.remove (.request 1) 7, .put 8 20] ∧
        run? s₀ [.remove (.request 1) 7, .put 8 20] = some (s, seen) ∧
        s.phase? (.request 2) = none ∧
        ∃ s', step? s (.get (.request 2) 7) = some (s', [.finished (.request 2) (.got 10)]) := by
  let start : State Nat Nat Unit := { settings := ⟨none, none, 1000, false⟩ }
  let first := (run? start ([.get (.request 0) 7] ++ [.put 7 10])).get rfl
  let second := (run? first.1 [.remove (.request 1) 7, .put 8 20]).get rfl
  have reached : run? start ([.get (.request 0) 7] ++ [.put 7 10]) = some (first.1, first.2) := rfl
  have ran : run? first.1 [.remove (.request 1) 7, .put 8 20] = some (second.1, second.2) := rfl
  have calm : first.1.Undisturbed 7 [.remove (.request 1) 7, .put 8 20] := by
    intro s₁ seen₁ step₁
    cases step₁
    refine ⟨?_, fun s₂ seen₂ step₂ => ⟨?_, trivial⟩⟩
    · rintro (⟨_, put⟩ | clears | ⟨_, _, _, shown⟩ | shown)
      · cases put
      · cases clears
      · cases shown
      · cases shown
    · cases step₂
      rintro (⟨_, put⟩ | clears | ⟨removes, _⟩ | shown)
      · cases put
      · cases clears
      · cases removes
      · cases shown with
        | tail _ shown => cases shown
  obtain ⟨s', w, served, rfl | loaded⟩ := put_lasts reached calm ran (t := .request 2) rfl
  · exact ⟨first.1, second.1, first.2, second.2, reached, calm, ran, rfl, s', served⟩
  · cases loaded

/-- The load that was in flight at a put replaces the value put when it ends, though no loader call
    has begun since. -/
theorem older_load_replaces_put :
    ∃ (s₀ s : State Nat Nat Unit) (seen₀ seen : List (Signal Nat Nat Unit)),
      run? { settings := ⟨none, none, 1000, false⟩ } ([.get (.request 0) 7] ++ [.put 7 10]) =
          some (s₀, seen₀) ∧
        s₀.Undisturbed 7 [.loaded (.request 0) (.ok 5)] ∧
        run? s₀ [.loaded (.request 0) (.ok 5)] = some (s, seen) ∧ (∀ u, .began u 7 ∉ seen) ∧
        ∃ s', step? s (.get (.request 1) 7) = some (s', [.finished (.request 1) (.got 5)]) := by
  let start : State Nat Nat Unit := { settings := ⟨none, none, 1000, false⟩ }
  let first := (run? start ([.get (.request 0) 7] ++ [.put 7 10])).get rfl
  let second := (run? first.1 [.loaded (.request 0) (.ok 5)]).get rfl
  have ends : second.2 = [.sized 1, .finished (.request 0) (.got 5)] := rfl
  have calm : first.1.Undisturbed 7 [.loaded (.request 0) (.ok 5)] := by
    intro s₁ seen₁ step₁
    cases step₁
    refine ⟨?_, trivial⟩
    rintro (⟨_, put⟩ | clears | ⟨removes, _⟩ | shown)
    · cases put
    · cases clears
    · cases removes
    · have among : .expired 7 ∈ second.2 := shown
      simp [ends] at among
  refine ⟨first.1, second.1, first.2, second.2, rfl, calm, rfl, fun u => ?_, _, rfl⟩
  simp [ends]

end SingleFlight
end MetricGateway
