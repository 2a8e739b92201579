import MetricGateway.Proofs.Service.AtWork
import MetricGateway.Proofs.SingleFlight.Asked

/- What a gateway at work discovers. Its lookups take no time, so that each is answered when it is
   made: whatever has been asked before and however time has passed, all instances of all targets
   are found, in the order of the settings. -/
namespace MetricGateway

namespace Directory

structure Kept (P : Directory → Prop) : Prop where
  find : ∀ d key, P d → P (d.find key).1
  invalidate : ∀ d, P d → P d.invalidate
  advance : ∀ (d : Directory) ms, P d → P { d with cache := d.cache.advance ms }
  moveTo : ∀ (d : Directory) time, P d → P { d with cache := d.cache.moveTo time }
  forget : ∀ (d : Directory), P d → P { d with cache := d.cache.forget }

theorem Kept.discover {P : Directory → Prop} (kept : Kept P) {d : Directory} (start : P d)
    (appId number : Option String) : P (d.discover appId number).1 := by
  rw [discover_eq]
  have whole : ∀ (keys : List TargetKey) (state : Directory × List Instance), P state.1 →
      P (keys.foldl (visit appId number) state).1 := by
    intro keys
    induction keys with
    | nil => exact fun _ start => start
    | cons key keys ih => exact fun state start => ih _ (kept.find state.1 key start)
  exact whole d.keys (d, []) start

/-- The directory of some targets, with no lookup on its way, where each call of the lookup is
    answered in some way. -/
structure AtRest (targets : List Target)
    (answers : TargetKey → Nat → Except LookupError (List Instance)) (d : Directory) : Prop where
  faithful : d.Faithful targets
  still : d.cache.AtRest answers

/-- Whether a target would be found: its instances are known, or the next call tells them. -/
def resolves (d : Directory) (answers : TargetKey → Nat → Except LookupError (List Instance))
    (key : TargetKey) : Bool :=
  d.cache.cache.contains key || (answers key (d.cache.calls.count key + 1)).isOk

variable {targets : List Target} {d : Directory}
  {answers : TargetKey → Nat → Except LookupError (List Instance)}

theorem atRest_withLookup (settings : SingleFlight.Settings)
    (right : ∀ key call instances, answers key call = .ok instances →
      lookUp targets key = .ok instances) :
    (withLookup targets settings answers).AtRest targets answers := by
  refine ⟨faithful_withLookup settings right, ?_⟩
  refine ⟨⟨SingleFlight.orderly_initial settings 0, fun key n => rfl⟩, ⟨rfl, ?_⟩, rfl, rfl⟩
  exact fun r own => nomatch own

theorem answer_of_end {n : Nat} {outcome : Except LookupError (List Instance)}
    (seen : List (SingleFlight.Sighting TargetKey (List Instance) LookupError))
    (ended : SingleFlight.firstEnd (.request n) seen = some (.ofLoad outcome)) :
    (seen.filterMap endOfRequest?).findSome? (answerTo? n) = some outcome := by
  induction seen with
  | nil => cases ended
  | cons s seen ih =>
    unfold SingleFlight.firstEnd at ended ih
    cases s with
    | called | answered => exact ih ended
    | signal s =>
      cases s with
      | began | granted | sized | expired | refreshed => exact ih ended
      | finished t r =>
        cases t with
        | refresher run => exact ih ended
        | request m =>
          by_cases own : m = n
          · subst own
            have first : r = .ofLoad outcome := by
              simpa [SingleFlight.Signal.endOf?] using ended
            subst first
            cases outcome <;> simp [SingleFlight.Result.ofLoad, endOfRequest?, answerTo?]
          · have other : SingleFlight.TaskId.request m ≠ .request n := fun same =>
              own (SingleFlight.TaskId.request.inj same)
            simp only [List.findSome?_cons, SingleFlight.Signal.endOf?, other, if_false] at ended
            have later := ih ended
            cases r with
            | got | failed => simpa [endOfRequest?, answerTo?, own] using later
            | removed | swept => exact later

theorem AtRest.find (rests : d.AtRest targets answers) (key : TargetKey) :
    (d.find key).1.AtRest targets answers ∧
      (∃ outcome, (d.find key).2 = some outcome ∧ outcome.isOk = d.resolves answers key ∧
        ∀ instances, outcome = .ok instances → lookUp targets key = .ok instances) ∧
      ∀ other ≠ key, (d.find key).1.resolves answers other = d.resolves answers other := by
  obtain ⟨asked, cache⟩ := rests.faithful.cache
  have silent := (cache.idle d.lookups (Nat.le_refl _)).2
  obtain ⟨faithful, right⟩ := rests.faithful.find key
  obtain ⟨still, ⟨outcome, ended, source⟩, spared⟩ := rests.still.get silent key
  have answer : (d.find key).2 = some outcome := by
    rw [find_answer]
    exact answer_of_end _ ended
  refine ⟨⟨faithful, still⟩, ⟨outcome, answer, ?_, fun instances found => ?_⟩, fun other apart => ?_⟩
  · unfold resolves
    rcases source with ⟨held, found, rfl⟩ | ⟨missing, rfl⟩
    · rw [held]
      rfl
    · rw [missing, Bool.false_or]
  · exact right instances (answer.trans (congrArg some found))
  · obtain ⟨contains, count⟩ := spared other apart
    let after := d.cache.get (.request d.lookups) key
    change (after.cache.contains other || (answers other (after.calls.count other + 1)).isOk) = _
    rw [contains, count]
    rfl

theorem kept_atRest (targets : List Target)
    (answers : TargetKey → Nat → Except LookupError (List Instance)) :
    Kept (AtRest targets answers) where
  find d key rests := (rests.find key).1
  invalidate d rests := by
    obtain ⟨asked, cache⟩ := rests.faithful.cache
    exact ⟨⟨rests.faithful.keys, asked, cache.invalidateAll⟩, rests.still.invalidateAll⟩
  advance d ms rests := by
    obtain ⟨asked, cache⟩ := rests.faithful.cache
    exact ⟨⟨rests.faithful.keys, asked, cache.advance ms⟩, rests.still.advance ms⟩
  moveTo d time rests := by
    obtain ⟨asked, cache⟩ := rests.faithful.cache
    exact ⟨⟨rests.faithful.keys, asked, cache.moveTo time⟩, rests.still.moveTo time⟩
  forget d rests := by
    obtain ⟨asked, cache⟩ := rests.faithful.cache
    exact ⟨⟨rests.faithful.keys, _, cache.forget⟩, rests.still.forget⟩

theorem AtRest.discover (rests : d.AtRest targets answers)
    (keys : targets.Pairwise fun t u => t.key ≠ u.key) (appId number : Option String) :
    (d.discover appId number).2 =
      ((targets.filter fun t => d.resolves answers t.key).flatMap Target.allInstances).filter
        (selects appId number) := by
  have whole : ∀ (rest : List Target) (d : Directory) (before : List Instance),
      d.AtRest targets answers → (∀ t ∈ rest, t ∈ targets) →
      (rest.Pairwise fun t u => t.key ≠ u.key) →
      ((rest.map Target.key).foldl (visit appId number) (d, before)).2 =
        before ++ ((rest.filter fun t => d.resolves answers t.key).flatMap
          Target.allInstances).filter (selects appId number) := by
    intro rest
    induction rest with
    | nil => exact fun d before _ _ _ => by simp
    | cons t rest ih =>
      intro d before rests among apart
      obtain ⟨kept, ⟨outcome, answer, isOk, right⟩, others⟩ := rests.find t.key
      obtain ⟨own, apart⟩ := List.pairwise_cons.1 apart
      have same : (rest.filter fun u => (d.find t.key).1.resolves answers u.key) =
          rest.filter fun u => d.resolves answers u.key :=
        List.filter_congr fun u member => others u.key (own u member).symm
      rw [List.map_cons, List.foldl_cons, List.filter_cons]
      refine (ih _ _ kept (fun u member => among u (List.mem_cons_of_mem t member)) apart).trans ?_
      -- Either the target is found, with its instances, or it is passed over.
      rw [same, answer, ← isOk]
      cases outcome with
      | error e => simp [Except.isOk, Except.toBool]
      | ok instances =>
        have own := (lookUp_key keys (among t List.mem_cons_self)).symm.trans (right instances rfl)
        cases own
        simp [Except.isOk, Except.toBool]
  rw [discover_eq, rests.faithful.keys, whole targets d [] rests (fun _ => id) keys,
    List.nil_append]

end Directory

namespace Gateway

variable {settings : GatewaySettings} {g : Gateway}

section Kept

variable {P : Directory → Prop} (kept : Directory.Kept P)

include kept

theorem kept_wait (start : P g.directory) (ms : Nat) : P (g.wait ms).directory :=
  kept.forget _ (kept.advance _ ms start)

theorem kept_discover (start : P g.directory) (appId number : Option String) :
    P (g.discover appId number).1.directory :=
  kept.forget _ (kept.discover start appId number)

theorem kept_scrape (start : P g.directory) (t : Transport) (instances : List Instance)
    (retainRaw : Bool) : P (g.scrape t instances retainRaw).1.directory :=
  kept_wait kept start _

theorem kept_serve (start : P g.directory) (t : Transport) (r : Request) (route : Route) :
    P (g.serve t r route).1.directory := by
  unfold serve
  cases route with
  | metrics =>
    dsimp only
    split
    · exact start
    · exact kept_scrape kept (kept_discover kept start none none) t _ false
  | single appId number =>
    dsimp only
    split
    · exact start
    · have found := kept_discover kept start (some appId) (some number)
      unfold serveSingle
      generalize g.discover (some appId) (some number) = discovered at found
      obtain ⟨g₁, instances⟩ := discovered
      cases instances with
      | nil => exact found
      | cons i instances =>
        dsimp only
        split
        · exact kept_scrape kept found t _ _
        · exact kept_scrape kept found t _ _
  | discovery => exact kept_discover kept start none none
  | invalidate => exact kept.forget _ (kept.invalidate _ start)
  | health => exact start

theorem AtWork.directory (start : P (.ofTargets settings.targets settings.cacheSettings))
    (works : AtWork settings g) : P g.directory := by
  induction works with
  | create made =>
    simp only [create?, bind, Except.bind] at made
    split at made
    · cases made
    · cases made
      exact start
  | @respond g _ t r before =>
    unfold Gateway.respond
    split
    · exact before
    · exact kept_serve kept before t r _
  | wait _ ms before => exact kept_wait kept before ms
  | jump _ ms before => exact kept.forget _ (kept.moveTo _ _ before)

end Kept

theorem AtWork.discover_all (keys : settings.targets.Pairwise fun t u => t.key ≠ u.key)
    (works : AtWork settings g) (appId number : Option String) :
    (g.discover appId number).2 =
      (settings.targets.flatMap Target.allInstances).filter
        (Directory.selects appId number) := by
  let answers (key : TargetKey) (_ : Nat) := lookUp settings.targets key
  have rests : g.directory.AtRest settings.targets answers :=
    works.directory (Directory.kept_atRest _ _)
      (Directory.atRest_withLookup _ fun _ _ _ same => same)
  have known : (settings.targets.filter fun t => g.directory.resolves answers t.key) =
      settings.targets := by
    refine List.filter_eq_self.2 fun t member => ?_
    have known : (lookUp settings.targets t.key).isOk = true :=
      congrArg Except.isOk (Directory.lookUp_key keys member)
    rw [Directory.resolves, Bool.or_eq_true_iff]
    exact Or.inr known
  refine (rests.discover keys appId number).trans ?_
  rw [known]

end Gateway
end MetricGateway
