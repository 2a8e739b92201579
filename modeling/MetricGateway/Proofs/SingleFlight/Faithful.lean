import MetricGateway.SingleFlight.Timeline
import MetricGateway.Proofs.SingleFlight.Calls
import MetricGateway.Proofs.SingleFlight.Invalidation

/- A timeline whose loader gives each key only what is right for it hands out nothing else, however
   time passes: each answer on its way belongs to the call that its task waits for, so that it is
   stored under the key it was loaded for. -/
namespace MetricGateway
namespace SingleFlight

variable {κ α ε : Type}

/-- An answer on its way: the task it is for, the key that was loaded, and what came of it. -/
def Job.answer? : Job κ α ε → Option (TaskId × κ × Except ε α)
  | .answer t key _ outcome => some (t, key, outcome)
  | _ => none

def firstEnd (t : TaskId) (seen : List (Sighting κ α ε)) : Option (Result α ε) :=
  seen.findSome? fun
    | .signal s => s.endOf? t
    | _ => none

namespace Timeline

def answers (tl : Timeline κ α ε) : List (TaskId × κ × Except ε α) :=
  (tl.ready ++ tl.timers.map Timer.job).filterMap Job.answer?

def Idle (t : TaskId) (tl : Timeline κ α ε) : Prop :=
  tl.cache.phase? t = none ∧ firstEnd t tl.seen = none

def Tells (fits : κ → α → Prop) (t : TaskId) (key : κ) (tl : Timeline κ α ε) : Prop :=
  (∃ outcome, firstEnd t tl.seen = some (.ofLoad outcome) ∧ ∀ v, outcome = .ok v → fits key v) ∨
    firstEnd t tl.seen = none ∧ WaitsFor fits t key tl.cache

structure Stores (fits : κ → α → Prop) (tl : Timeline κ α ε) : Prop where
  order : Orderly tl.cache
  written : Written fits tl.cache
  loader : ∀ key n v, (tl.loader key n).outcome = .ok v → fits key v
  answers : ∀ t key outcome, (t, key, outcome) ∈ tl.answers →
    tl.cache.callOf? t = some key ∧ ∀ v, outcome = .ok v → fits key v
  single : (tl.answers.map Prod.fst).Nodup

/-- What is stored, on its way, or told to those who have asked is right. Requests from a number on
    have not been made yet. -/
structure Faithful (fits : κ → α → Prop) (asked : Nat → κ → Prop) (unmade : Nat)
    (tl : Timeline κ α ε) : Prop where
  stores : tl.Stores fits
  idle : ∀ n, unmade ≤ n → Idle (.request n) tl
  told : ∀ n key, asked n key → Tells fits (.request n) key tl

section Schedule

variable (tl : Timeline κ α ε)

theorem answers_schedule (due : Nat) (job : Job κ α ε) :
    (tl.schedule due job).answers.Perm (job.answer?.toList ++ tl.answers) := by
  unfold schedule answers
  split
  · rw [List.cons_append, List.filterMap_cons]
    cases job.answer? <;> exact List.Perm.refl _
  · rw [List.map_append, ← List.append_assoc, List.filterMap_append]
    cases answer : job.answer? with
    | none => simp [answer]
    | some a =>
      simp only [List.map_cons, List.map_nil, List.filterMap_cons, answer, List.filterMap_nil,
        Option.toList_some]
      exact List.perm_append_comm

@[simp] theorem cache_schedule (due : Nat) (job : Job κ α ε) :
    (tl.schedule due job).cache = tl.cache := by
  unfold schedule
  split <;> rfl

@[simp] theorem loader_schedule (due : Nat) (job : Job κ α ε) :
    (tl.schedule due job).loader = tl.loader := by
  unfold schedule
  split <;> rfl

@[simp] theorem seen_schedule (due : Nat) (job : Job κ α ε) :
    (tl.schedule due job).seen = tl.seen := by
  unfold schedule
  split <;> rfl

end Schedule

/-- A timeline in which nothing has changed that faithfulness is about. -/
structure Alike (tl tl' : Timeline κ α ε) : Prop where
  cache : tl'.cache = tl.cache
  loader : tl'.loader = tl.loader
  answers : tl'.answers.Perm tl.answers
  ends : ∀ t, firstEnd t tl'.seen = firstEnd t tl.seen

theorem alike_tick (tl : Timeline κ α ε) (due : Nat) : Alike tl (tl.schedule due .tick) :=
  ⟨by simp, by simp, answers_schedule tl due .tick, by simp⟩

theorem alike_awaitTick (tl : Timeline κ α ε) : Alike tl tl.awaitTick := by
  unfold awaitTick
  split
  · exact alike_tick tl _
  · exact ⟨rfl, rfl, .refl _, fun _ => rfl⟩

theorem alike_ensureRefresher (tl : Timeline κ α ε) : Alike tl tl.ensureRefresher := by
  unfold ensureRefresher startRefresher
  split
  · split
    · exact ⟨rfl, rfl, .refl _, fun _ => rfl⟩
    · have same := alike_awaitTick { tl with
        refresher := some ⟨tl.starts, tl.cache.now + tl.period⟩, starts := tl.starts + 1 }
      exact ⟨same.cache, same.loader, same.answers, same.ends⟩
  · exact ⟨rfl, rfl, .refl _, fun _ => rfl⟩

section Stores

variable {fits : κ → α → Prop} {tl tl' : Timeline κ α ε}

theorem Stores.alike (stores : tl.Stores fits) (same : Alike tl tl') : tl'.Stores fits := by
  constructor
  · exact same.cache ▸ stores.order
  · exact same.cache ▸ stores.written
  · exact same.loader ▸ stores.loader
  · intro t key outcome member
    rw [same.cache]
    exact stores.answers t key outcome (same.answers.mem_iff.1 member)
  · exact (same.answers.map Prod.fst).nodup_iff.2 stores.single

theorem Stores.unanswered (stores : tl.Stores fits) {t : TaskId}
    (silent : tl.cache.callOf? t = none) :
    t ∉ tl.answers.map Prod.fst := by
  intro member
  obtain ⟨⟨_, key, outcome⟩, among, rfl⟩ := List.mem_map.1 member
  have call := (stores.answers _ key outcome among).1
  rw [silent] at call
  cases call

end Stores

section Follow

theorem firstEnd_append (t : TaskId) (seen more : List (Sighting κ α ε)) :
    firstEnd t (seen ++ more) = (firstEnd t seen).or (firstEnd t more) := List.findSome?_append

theorem firstEnd_note (t : TaskId) (tl : Timeline κ α ε) (s : Signal κ α ε) :
    firstEnd t (tl.note (.signal s)).seen = (firstEnd t tl.seen).or (s.endOf? t) := by
  unfold note
  rw [firstEnd_append]
  congr 1
  unfold firstEnd
  rw [List.findSome?_singleton]

/-- What following signals does: for each call announced an answer is put on its way. -/
structure Follows (signals : List (Signal κ α ε)) (tl tl' : Timeline κ α ε) : Prop where
  cache : tl'.cache = tl.cache
  loader : tl'.loader = tl.loader
  answers : ∃ added, tl'.answers.Perm (added ++ tl.answers) ∧
    (added.map fun a => (a.1, a.2.1)).Perm (signals.filterMap Signal.call?) ∧
    ∀ a ∈ added, ∃ n, a.2.2 = (tl.loader a.2.1 n).outcome
  ends : ∀ t, firstEnd t tl'.seen = (firstEnd t tl.seen).or (signals.findSome? (Signal.endOf? t))

theorem follows_of_quiet {tl tl' : Timeline κ α ε} {s : Signal κ α ε}
    (same : Alike (tl.note (.signal s)) tl') (quiet : s.call? = none) : Follows [s] tl tl' := by
  refine ⟨same.cache, same.loader, ⟨[], same.answers, ?_, by simp⟩, fun t => ?_⟩
  · simp [quiet]
  · rw [same.ends, firstEnd_note, List.findSome?_singleton]

variable [DecidableEq κ]

theorem follows_follow (tl : Timeline κ α ε) (s : Signal κ α ε) : Follows [s] tl (tl.follow s) := by
  cases s with
  | began t key =>
    let call := tl.calls.count key + 1
    refine ⟨by simp [follow, note], by simp [follow, note],
      ⟨[(t, key, (tl.loader key call).outcome)], ?_, .refl _, ?_⟩, fun u => ?_⟩
    · exact answers_schedule _ _ _
    · intro a member
      rw [List.mem_singleton.1 member]
      exact ⟨call, rfl⟩
    · simp [follow, note, firstEnd, Signal.endOf?]
  | granted t =>
    refine follows_of_quiet ⟨rfl, rfl, .of_eq ?_, fun _ => rfl⟩ rfl
    simp only [follow, note, answers, List.append_assoc, List.filterMap_append]
    rfl
  | finished t r =>
    cases t with
    | refresher run => exact follows_of_quiet (alike_awaitTick _) rfl
    | request n => exact follows_of_quiet ⟨rfl, rfl, .refl _, fun _ => rfl⟩ rfl
  | sized | expired | refreshed => exact follows_of_quiet ⟨rfl, rfl, .refl _, fun _ => rfl⟩ rfl

theorem follows_foldl (signals : List (Signal κ α ε)) (tl : Timeline κ α ε) :
    Follows signals tl (signals.foldl follow tl) := by
  induction signals generalizing tl with
  | nil => exact ⟨rfl, rfl, ⟨[], .refl _, .refl _, by simp⟩, fun t => by simp⟩
  | cons s signals ih =>
    obtain ⟨cache, loader, ⟨added, answers, calls, outcomes⟩, ends⟩ := follows_follow tl s
    obtain ⟨cache', loader', ⟨added', answers', calls', outcomes'⟩, ends'⟩ := ih (tl.follow s)
    refine ⟨cache'.trans cache, loader'.trans loader, ⟨added' ++ added, ?_, ?_, ?_⟩, fun t => ?_⟩
    · rw [List.append_assoc]
      exact answers'.trans (answers.append_left added')
    · rw [List.map_append, ← List.singleton_append, List.filterMap_append]
      exact (calls'.append calls).trans List.perm_append_comm
    · intro a member
      rcases List.mem_append.1 member with later | first
      · exact loader ▸ outcomes' a later
      · exact outcomes a first
    · rw [List.foldl_cons, ends', ends, Option.or_assoc, ← List.findSome?_append,
        List.singleton_append]

end Follow

section Act

variable [DecidableEq κ] {fits : κ → α → Prop} {tl : Timeline κ α ε} {a : Action κ α ε}

theorem Stores.act (stores : tl.Stores fits)
    (writes : ∀ key v, tl.cache.write? key a = some (some v) → fits key v)
    (own : step? tl.cache a ≠ none → ∀ t, a.actor = .task t → t ∉ tl.answers.map Prod.fst) :
    (tl.act a).Stores fits := by
  unfold Timeline.act
  cases step : step? tl.cache a with
  | none => exact stores
  | some effect =>
    obtain ⟨s, signals⟩ := effect
    obtain ⟨cache, loader, ⟨added, answers, calls, outcomes⟩, _⟩ :=
      follows_foldl signals { tl with cache := s }
    obtain ⟨single, announced⟩ := calls_of_step step
    replace own := own (by simp [step])
    have opened : ∀ t key outcome, (t, key, outcome) ∈ added →
        a.actor = .task t ∧ s.callOf? t = some key := fun t key outcome member =>
      announced t key (calls.subset (List.mem_map.2 ⟨_, member, rfl⟩))
    constructor
    · rw [cache]
      exact step_orderly stores.order step
    · rw [cache]
      intro id e v here listed value
      rcases stores.written.step stores.order step id e v here listed value with before | now
      · exact before
      · exact writes e.key v now
    · rw [loader]
      exact stores.loader
    · intro t key outcome member
      rw [cache]
      rcases List.mem_append.1 (answers.mem_iff.1 member) with new | old
      · obtain ⟨n, same⟩ := outcomes _ new
        refine ⟨(opened t key outcome new).2, fun v fine => ?_⟩
        exact stores.loader key n v (same.symm.trans fine)
      · have other : a.actor ≠ .task t := fun actor =>
          own t actor (List.mem_map.2 ⟨_, old, rfl⟩)
        obtain ⟨call, fine⟩ := stores.answers t key outcome old
        exact ⟨callOf?_of_other stores.order step other call, fine⟩
    · refine (answers.map Prod.fst).nodup_iff.2 ?_
      rw [List.map_append, List.nodup_append]
      have firsts : (added.map Prod.fst).Perm ((signals.filterMap Signal.call?).map Prod.fst) := by
        have mapped := calls.map Prod.fst
        rw [List.map_map] at mapped
        exact mapped
      refine ⟨firsts.nodup_iff.2 single, stores.single, ?_⟩
      rintro t new _ old rfl
      obtain ⟨⟨_, key, outcome⟩, among, rfl⟩ := List.mem_map.1 new
      exact own _ (opened _ key outcome among).1 old

theorem ends_act {s : State κ α ε} {signals : List (Signal κ α ε)}
    (step : step? tl.cache a = some (s, signals)) :
    (tl.act a).cache = s ∧ ∀ t, firstEnd t (tl.act a).seen =
      (firstEnd t tl.seen).or (signals.findSome? (Signal.endOf? t)) := by
  unfold Timeline.act
  rw [step]
  have follows := follows_foldl signals { tl with cache := s }
  exact ⟨follows.cache, follows.ends⟩

theorem Idle.act {t : TaskId} (idle : Idle t tl) (order : Orderly tl.cache)
    (stays : a.begins t = false) : Idle t (tl.act a) := by
  cases step : step? tl.cache a with
  | none =>
    unfold Timeline.act
    rw [step]
    exact idle
  | some effect =>
    obtain ⟨s, signals⟩ := effect
    obtain ⟨cache, ends⟩ := ends_act step
    obtain ⟨phase, silent⟩ := step_idle order step idle.1 stays
    refine ⟨cache ▸ phase, ?_⟩
    rw [ends, idle.2, Option.none_or]
    exact findSome?_endOf?_of_own silent

theorem tells_of_gets {t : TaskId} {key : κ} {s : State κ α ε} {signals : List (Signal κ α ε)}
    (order : Orderly tl.cache) (step : step? tl.cache a = some (s, signals))
    (asks : a = .get t key ∨ ∃ id, tl.cache.phase? t = some (.getLoading key id) ∨
      ∃ n, tl.cache.phase? t = some (.getQueued key id n))
    (silent : firstEnd t tl.seen = none) (gets : Gets fits t key (s, signals)) :
    Tells fits t key (tl.act a) := by
  obtain ⟨cache, ends⟩ := ends_act step
  unfold Tells
  rw [cache, ends, silent, Option.none_or]
  refine gets.imp_left fun ⟨r, ended, right⟩ => ?_
  obtain ⟨signal, member, shown⟩ := List.exists_of_findSome?_eq_some ended
  have own : a.actor = .task t := by
    by_cases actor : a.actor = .task t
    · exact actor
    · have moves : Moves a.actor tl.cache signals s := step_byMoves order step
      rw [endOf?_of_own (moves.own_eq_false actor signal member)] at shown
      cases shown
  have finished : signal = .finished t r := by
    cases signal with
    | finished u q =>
      obtain ⟨rfl, same⟩ := Option.ite_none_right_eq_some.1 shown
      cases same
      rfl
    | began | granted | sized | expired | refreshed => cases shown
  obtain ⟨outcome, rfl⟩ := step_gives step own asks t r (finished ▸ member)
  exact ⟨outcome, ended, fun v same => right v (by rw [same]; rfl)⟩

theorem Tells.act {t : TaskId} {key : κ} (tells : Tells fits t key tl) (stores : tl.Stores fits)
    (writes : ∀ key v, tl.cache.write? key a = some (some v) → fits key v) (goes : a ≠ .cancel t) :
    Tells fits t key (tl.act a) := by
  cases step : step? tl.cache a with
  | none =>
    unfold Timeline.act
    rw [step]
    exact tells
  | some effect =>
    obtain ⟨s, signals⟩ := effect
    rcases tells with ⟨r, ended, right⟩ | ⟨silent, waits⟩
    · refine Or.inl ⟨r, ?_, right⟩
      rw [(ends_act step).2, ended, Option.some_or]
    · have gets := (waits.step stores.order stores.written goes step).mono fun v since =>
        since.elim id (writes key v)
      obtain ⟨id, phase, _⟩ := waits
      exact tells_of_gets stores.order step (Or.inr ⟨id, phase⟩) silent gets

end Act

section Faithful

variable {fits : κ → α → Prop} {asked : Nat → κ → Prop} {unmade : Nat} {tl tl' : Timeline κ α ε}

theorem Faithful.alike (faithful : tl.Faithful fits asked unmade) (same : Alike tl tl') :
    tl'.Faithful fits asked unmade := by
  refine ⟨faithful.stores.alike same, fun n later => ?_, fun n key before => ?_⟩
  · unfold Idle
    rw [same.cache, same.ends]
    exact faithful.idle n later
  · unfold Tells
    rw [same.cache, same.ends]
    exact faithful.told n key before

theorem Faithful.forget (faithful : tl.Faithful fits asked unmade) :
    tl.forget.Faithful fits (fun _ _ => False) unmade := by
  refine ⟨?_, fun n later => ⟨(faithful.idle n later).1, rfl⟩, fun _ _ nobody => nobody.elim⟩
  exact ⟨faithful.stores.order, faithful.stores.written, faithful.stores.loader,
    faithful.stores.answers, faithful.stores.single⟩

variable [DecidableEq κ]

theorem Faithful.act (faithful : tl.Faithful fits asked unmade) {a : Action κ α ε}
    (writes : ∀ key v, tl.cache.write? key a = some (some v) → fits key v)
    (own : step? tl.cache a ≠ none → ∀ t, a.actor = .task t → t ∉ tl.answers.map Prod.fst)
    (stays : ∀ n, a.begins (.request n) = false) (goes : ∀ t, a ≠ .cancel t) :
    (tl.act a).Faithful fits asked unmade :=
  ⟨faithful.stores.act writes own,
    fun n later => (faithful.idle n later).act faithful.stores.order (stays n),
    fun n key before => (faithful.told n key before).act faithful.stores writes (goes _)⟩

theorem Faithful.begin (faithful : tl.Faithful fits asked unmade) (key : κ) :
    (tl.act (.get (.request unmade) key)).Faithful fits (fun n k => n = unmade ∧ k = key)
      (unmade + 1) := by
  have idle := faithful.idle unmade (Nat.le_refl _)
  have step : step? tl.cache (.get (.request unmade) key) =
      some (tl.cache.beginGet (.request unmade) key) := by
    simp [step?, idle.1]
  refine ⟨faithful.stores.act (fun k v write => ?_) (fun goes t actor => ?_), fun n later => ?_,
    fun n k own => ?_⟩
  · simp [State.write?, State.loaded?] at write
  · exact faithful.stores.unanswered (callOf?_of_step goes actor (by simp) (by simp))
  · refine (faithful.idle n (Nat.le_of_succ_le later)).act faithful.stores.order ?_
    have other : unmade ≠ n := by omega
    simp [Action.begins, other]
  · obtain ⟨rfl, rfl⟩ := own
    exact tells_of_gets faithful.stores.order step (Or.inl rfl) idle.2
      (faithful.stores.written.gets _ _)

theorem Faithful.act_silent (faithful : tl.Faithful fits asked unmade) {a : Action κ α ε}
    (silent : ∀ key v, tl.cache.write? key a ≠ some (some v))
    (stays : ∀ n, a.begins (.request n) = false) (running : ∀ t outcome, a ≠ .loaded t outcome)
    (goes : ∀ t, a ≠ .cancel t) : (tl.act a).Faithful fits asked unmade := by
  refine faithful.act (fun key v write => absurd write (silent key v)) (fun taken t actor => ?_)
    stays goes
  exact faithful.stores.unanswered (callOf?_of_step taken actor (running t) (goes t))

theorem Faithful.tick (faithful : tl.Faithful fits asked unmade) :
    tl.tick.Faithful fits asked unmade := by
  unfold Timeline.tick
  split
  · exact faithful
  · refine Faithful.act_silent ?_ ?_ (fun _ => rfl) (by simp) (by simp)
    · exact faithful.alike ⟨rfl, rfl, .refl _, fun _ => rfl⟩
    · simp [State.write?, State.loaded?]

theorem Faithful.answer (faithful : tl.Faithful fits asked unmade) {t : TaskId} {key : κ} {call : Nat}
    {outcome : Except ε α} {rest : List (Job κ α ε)}
    (first : tl.answers = (t, key, outcome) :: { tl with ready := rest }.answers) :
    (({ tl with ready := rest }.note (.answered key call)).act (.loaded t outcome)).Faithful
      fits asked unmade := by
  have single := faithful.stores.single
  rw [first, List.map_cons, List.nodup_cons] at single
  obtain ⟨waits, right⟩ := faithful.stores.answers t key outcome (first ▸ List.mem_cons_self)
  let noted : Timeline κ α ε := { tl with ready := rest }.note (.answered key call)
  have silent : ∀ u, firstEnd u noted.seen = firstEnd u tl.seen := by
    intro u
    have last : firstEnd u [(Sighting.answered key call : Sighting κ α ε)] = none := rfl
    change firstEnd u (tl.seen ++ [.answered key call]) = _
    rw [firstEnd_append, last, Option.or_none]
  have ready : noted.Faithful fits asked unmade := by
    refine ⟨⟨faithful.stores.order, faithful.stores.written, faithful.stores.loader,
      fun u k o member => faithful.stores.answers u k o (first ▸ List.mem_cons_of_mem _ member),
      single.2⟩, fun n later => ?_, fun n k before => ?_⟩
    · exact ⟨(faithful.idle n later).1, (silent _).trans (faithful.idle n later).2⟩
    · unfold Tells
      rw [silent]
      exact faithful.told n k before
  refine ready.act (fun k v write => ?_) (fun _ u actor => ?_) (fun _ => rfl) (by simp)
  · cases outcome with
    | error e => simp [State.write?, State.loaded?] at write
    | ok w =>
      have waits : noted.cache.callOf? t = some key := waits
      simp only [State.write?, State.loaded?, waits, Option.some.injEq, Option.map_eq_some_iff,
        Option.ite_none_right_eq_some] at write
      obtain ⟨_, ⟨rfl, rfl⟩, same⟩ := write
      exact right _ (congrArg Except.ok same)
  · cases actor
    exact single.1

theorem Faithful.perform (faithful : tl.Faithful fits asked unmade) {job : Job κ α ε}
    {rest : List (Job κ α ε)} (first : tl.ready = job :: rest) :
    ({ tl with ready := rest }.perform job).Faithful fits asked unmade := by
  have answers : tl.answers = job.answer?.toList ++ { tl with ready := rest }.answers := by
    unfold Timeline.answers
    rw [first, List.cons_append, List.filterMap_cons]
    cases job.answer? <;> rfl
  cases job with
  | resume t =>
    have waiting : { tl with ready := rest }.Faithful fits asked unmade :=
      faithful.alike ⟨rfl, rfl, .of_eq answers.symm, fun _ => rfl⟩
    exact waiting.act_silent (by simp [State.write?, State.loaded?]) (fun _ => rfl) (by simp)
      (by simp)
  | answer t key call outcome => exact faithful.answer answers
  | tick =>
    have waiting : { tl with ready := rest }.Faithful fits asked unmade :=
      faithful.alike ⟨rfl, rfl, .of_eq answers.symm, fun _ => rfl⟩
    exact waiting.tick

theorem Faithful.drain (fuel : Nat) (faithful : tl.Faithful fits asked unmade) :
    (tl.drain fuel).Faithful fits asked unmade := by
  induction fuel generalizing tl with
  | zero => exact faithful
  | succ fuel ih =>
    unfold Timeline.drain
    split
    · exact faithful
    · rename_i job rest first
      exact ih (faithful.perform first)

theorem Faithful.settle (faithful : tl.Faithful fits asked unmade) :
    tl.settle.Faithful fits asked unmade := faithful.drain _

theorem Faithful.get (faithful : tl.Faithful fits asked unmade) (key : κ) :
    (tl.get (.request unmade) key).Faithful fits (fun n k => n = unmade ∧ k = key) (unmade + 1) :=
  ((faithful.begin key).alike (alike_ensureRefresher _)).settle

theorem Faithful.sweep (faithful : tl.Faithful fits asked unmade) :
    (tl.sweep (.request unmade)).Faithful fits (fun _ _ => False) (unmade + 1) := by
  refine Faithful.settle ⟨faithful.stores.act (fun k v write => ?_) fun goes t actor => ?_,
    fun n later => ?_, fun _ _ nobody => nobody.elim⟩
  · simp [State.write?, State.loaded?] at write
  · exact faithful.stores.unanswered (callOf?_of_step goes actor (by simp) (by simp))
  · refine (faithful.idle n (Nat.le_of_succ_le later)).act faithful.stores.order ?_
    have other : unmade ≠ n := by omega
    simp [Action.begins, other]

theorem Faithful.invalidateAll (faithful : tl.Faithful fits asked unmade) :
    tl.invalidateAll.Faithful fits asked unmade := by
  refine Faithful.settle (faithful.act (fun key v write => ?_) (fun _ t actor => ?_) (fun _ => rfl)
    (by simp))
  · simp [State.write?] at write
  · cases actor

theorem Faithful.moveTo (faithful : tl.Faithful fits asked unmade) (time : Nat) :
    (tl.moveTo time).Faithful fits asked unmade := by
  have passed : (tl.act (.advance (time - tl.cache.now))).Faithful fits asked unmade := by
    refine faithful.act (fun key v write => ?_) (fun _ t actor => ?_) (fun _ => rfl) (by simp)
    · simp [State.write?, State.loaded?] at write
    · cases actor
  unfold Timeline.moveTo
  rw [List.partition_eq_filter_filter]
  refine Faithful.settle (passed.alike ⟨rfl, rfl, ?_, fun _ => rfl⟩)
  -- What is due stands ready instead of being timed.
  have parts : ((tl.timers.filter fun timer => timer.due ≤ time).mergeSort
      (fun a b => decide (a.due ≤ b.due)) ++ tl.timers.filter fun timer => !(timer.due ≤ time)).Perm
        tl.timers :=
    ((List.mergeSort_perm _ _).append_right _).trans (List.filter_append_perm _ _)
  have timers : (tl.act (.advance (time - tl.cache.now))).timers = tl.timers := rfl
  unfold Timeline.answers
  rw [timers, List.append_assoc, ← List.map_append]
  exact ((parts.map Timer.job).append_left _).filterMap _

theorem Faithful.advanceTo (fuel time : Nat) (faithful : tl.Faithful fits asked unmade) :
    (tl.advanceTo fuel time).Faithful fits asked unmade := by
  induction fuel generalizing tl with
  | zero => exact faithful
  | succ fuel ih =>
    unfold Timeline.advanceTo
    split
    · split
      · exact ih (faithful.moveTo _)
      · exact faithful.moveTo _
    · exact faithful.moveTo _

theorem Faithful.advance (faithful : tl.Faithful fits asked unmade) (ms : Nat) :
    (tl.advance ms).Faithful fits asked unmade := faithful.advanceTo _ _

end Faithful
end Timeline
end SingleFlight
end MetricGateway
