import MetricGateway.Service.Response
import MetricGateway.Proofs.Metrics.Failures
import MetricGateway.Proofs.Service.Endpoints
import MetricGateway.Proofs.SingleFlight.Faithful

/- A gateway at work: whatever it has been asked and however time has passed, what it finds are
   instances of its targets, each target's once, and its metrics are what has been recorded. -/
namespace MetricGateway

namespace Directory

/-- The directory of some targets, which has told nothing else of them than there is. -/
structure Faithful (targets : List Target) (d : Directory) : Prop where
  keys : d.keys = targets.map Target.key
  cache : ∃ asked, d.cache.Faithful (fun key instances => lookUp targets key = .ok instances) asked
    d.lookups

variable {targets : List Target} {d : Directory}

def withLookup (targets : List Target) (settings : SingleFlight.Settings)
    (answers : TargetKey → Nat → Except LookupError (List Instance)) : Directory :=
  let d := ofTargets targets settings
  { d with cache := { d.cache with loader := fun key call => immediate (answers key call) } }

theorem faithful_withLookup (settings : SingleFlight.Settings)
    {answers : TargetKey → Nat → Except LookupError (List Instance)}
    (right : ∀ key call instances, answers key call = .ok instances →
      lookUp targets key = .ok instances) :
    (withLookup targets settings answers).Faithful targets := by
  refine ⟨rfl, fun _ _ => False, ⟨?_, ?_, right, ?_, ?_⟩, ?_, ?_⟩
  · exact SingleFlight.orderly_initial settings 0
  · intro id e v here
    cases here
  · intro t key outcome member
    cases member
  · exact List.nodup_nil
  · exact fun n _ => ⟨rfl, rfl⟩
  · exact fun _ _ nobody => nobody.elim

theorem faithful_ofTargets (targets : List Target) (settings : SingleFlight.Settings) :
    (ofTargets targets settings).Faithful targets := by
  have same : ofTargets targets settings =
      withLookup targets settings fun key _ => lookUp targets key := rfl
  rw [same]
  exact faithful_withLookup settings fun _ _ _ right => right

section Answers

variable {n : Nat} {outcome : Except LookupError (List Instance)}

def endOfRequest? : SingleFlight.Sighting TargetKey (List Instance) LookupError →
    Option (Nat × SingleFlight.Result (List Instance) LookupError)
  | .signal (.finished (.request m) r) => some (m, r)
  | _ => none

def answerTo? (n : Nat) : Nat × SingleFlight.Result (List Instance) LookupError →
    Option (Except LookupError (List Instance))
  | (m, .got instances) => if m = n then some (.ok instances) else none
  | (m, .failed e) => if m = n then some (.error e) else none
  | _ => none

theorem find_answer (d : Directory) (key : TargetKey) :
    (d.find key).2 = ((d.cache.get (.request d.lookups) key).seen.filterMap endOfRequest?).findSome?
      (answerTo? d.lookups) := by
  have results : (d.cache.get (.request d.lookups) key).results =
      (d.cache.get (.request d.lookups) key).seen.filterMap endOfRequest? := by
    unfold SingleFlight.Timeline.results
    refine congrArg (List.filterMap · _) (funext fun s => ?_)
    cases s with
    | called | answered => rfl
    | signal s =>
      cases s with
      | finished t r => cases t <;> rfl
      | began | granted | sized | expired | refreshed => rfl
  unfold find
  dsimp only
  rw [results]
  refine congrArg (List.findSome? · _) (funext fun (m, r) => ?_)
  cases r <;> rfl

theorem answer_of_firstEnd
    (seen : List (SingleFlight.Sighting TargetKey (List Instance) LookupError))
    (ends : ∀ r, SingleFlight.firstEnd (.request n) seen = some r → r = .ofLoad outcome)
    {answer : Except LookupError (List Instance)}
    (given : (seen.filterMap endOfRequest?).findSome? (answerTo? n) = some answer) :
    SingleFlight.firstEnd (.request n) seen = some (.ofLoad outcome) ∧ answer = outcome := by
  induction seen with
  | nil => cases given
  | cons s seen ih =>
    unfold SingleFlight.firstEnd at ends ⊢
    cases s with
    | called | answered => exact ih ends given
    | signal s =>
      cases s with
      | began | granted | sized | expired | refreshed => exact ih ends given
      | finished t r =>
        cases t with
        | refresher run => exact ih ends given
        | request m =>
          by_cases own : m = n
          · subst own
            have first := ends r (by simp [SingleFlight.Signal.endOf?])
            subst first
            refine ⟨by simp [SingleFlight.Signal.endOf?], ?_⟩
            cases outcome <;>
              simpa [SingleFlight.Result.ofLoad, endOfRequest?, answerTo?, eq_comm] using given
          · have other : SingleFlight.TaskId.request m ≠ .request n := fun same =>
              own (SingleFlight.TaskId.request.inj same)
            simp only [List.findSome?_cons, SingleFlight.Signal.endOf?, other, if_false] at ends ⊢
            refine ih ends ?_
            cases r with
            | got | failed => simpa [endOfRequest?, answerTo?, own] using given
            | removed | swept => exact given

end Answers

theorem Faithful.find (faithful : d.Faithful targets) (key : TargetKey) :
    (d.find key).1.Faithful targets ∧
      ∀ instances, (d.find key).2 = some (.ok instances) → lookUp targets key = .ok instances := by
  obtain ⟨asked, cache⟩ := faithful.cache
  have after := cache.get key
  refine ⟨⟨faithful.keys, _, after⟩, fun instances answer => ?_⟩
  rw [find_answer] at answer
  rcases after.told d.lookups key ⟨rfl, rfl⟩ with ⟨outcome, ended, right⟩ | ⟨silent, _⟩
  · have ends : ∀ r, SingleFlight.firstEnd (.request d.lookups)
        (d.cache.get (.request d.lookups) key).seen = some r → r = .ofLoad outcome :=
      fun r same => Option.some.inj (same.symm.trans ended)
    obtain ⟨_, rfl⟩ := answer_of_firstEnd _ ends answer
    exact right instances rfl
  · -- Without an end there is no answer.
    have ends : ∀ r, SingleFlight.firstEnd (.request d.lookups)
        (d.cache.get (.request d.lookups) key).seen = some r → r = .ofLoad (.ok []) := by
      intro r same
      rw [silent] at same
      cases same
    rw [(answer_of_firstEnd _ ends answer).1] at silent
    cases silent

def visit (appId number : Option String) (state : Directory × List Instance) (key : TargetKey) :
    Directory × List Instance :=
  ((state.1.find key).1, state.2 ++ match (state.1.find key).2 with
    | some (.ok instances) => instances.filter (selects appId number)
    | _ => [])

theorem discover_eq (d : Directory) (appId number : Option String) :
    d.discover appId number = d.keys.foldl (visit appId number) (d, []) := by
  unfold discover
  refine congrArg (List.foldl · _ _) (funext fun (d, found) => funext fun key => ?_)
  unfold visit
  dsimp only
  generalize d.find key = answer
  obtain ⟨d₁, answer⟩ := answer
  match answer with
  | some (.ok instances) => rfl
  | some (.error e) => simp
  | none => simp

theorem lookUp_key (keys : targets.Pairwise fun t u => t.key ≠ u.key) {t : Target}
    (member : t ∈ targets) : lookUp targets t.key = .ok t.allInstances := by
  unfold lookUp
  cases found : targets.reverse.find? fun u => decide (u.key = t.key) with
  | none =>
    have missing := List.find?_eq_none.1 found t (List.mem_reverse.2 member)
    simp at missing
  | some u =>
    have among := List.mem_reverse.1 (List.mem_of_find?_eq_some found)
    have same : u.key = t.key := by simpa using List.find?_some found
    rw [Target.eq_of_key keys among member same]

theorem Faithful.discover (faithful : d.Faithful targets)
    (keys : targets.Pairwise fun t u => t.key ≠ u.key) (appId number : Option String) :
    (d.discover appId number).1.Faithful targets ∧ ∃ found : List Target, found.Sublist targets ∧
      (d.discover appId number).2 =
        (found.flatMap Target.allInstances).filter (selects appId number) := by
  have whole : ∀ (rest : List Target) (d : Directory) (before : List Instance), d.Faithful targets →
      (∀ t ∈ rest, t ∈ targets) → ∃ found : List Target, found.Sublist rest ∧
        ∃ d', d'.Faithful targets ∧ (rest.map Target.key).foldl (visit appId number) (d, before) =
          (d', before ++ (found.flatMap Target.allInstances).filter (selects appId number)) := by
    intro rest
    induction rest with
    | nil => exact fun d before faithful _ => ⟨[], .slnil, d, faithful, by simp⟩
    | cons t rest ih =>
      intro d before faithful among
      obtain ⟨kept, right⟩ := faithful.find t.key
      obtain ⟨found, sub, d', still, visited⟩ :=
        ih _ (visit appId number (d, before) t.key).2 kept fun u member =>
          among u (List.mem_cons_of_mem t member)
      have next : ((t :: rest).map Target.key).foldl (visit appId number) (d, before) =
          (rest.map Target.key).foldl (visit appId number) (visit appId number (d, before) t.key) :=
        rfl
      -- Either the lookup has been answered, and rightly so, or the target is passed over.
      match answer : (d.find t.key).2 with
      | some (.ok instances) =>
        have own :=
          (lookUp_key keys (among t List.mem_cons_self)).symm.trans (right instances answer)
        cases own
        refine ⟨t :: found, sub.cons_cons t, d', still, next.trans (visited.trans ?_)⟩
        simp [visit, answer]
      | some (.error e) =>
        refine ⟨found, sub.cons t, d', still, next.trans (visited.trans ?_)⟩
        simp [visit, answer]
      | none =>
        refine ⟨found, sub.cons t, d', still, next.trans (visited.trans ?_)⟩
        simp [visit, answer]
  obtain ⟨found, sub, d', still, visited⟩ := whole targets d [] faithful fun _ => id
  rw [discover_eq, faithful.keys, visited, List.nil_append]
  exact ⟨still, found, sub, rfl⟩

end Directory

namespace GatewayMetrics

theorem InUse.recordIn {m : GatewayMetrics} (used : m.InUse) (settings : RoundSettings)
    (plans : List (Instance × FetchPlan)) : (Round.recordIn settings plans m).InUse := by
  unfold Round.recordIn
  refine InUse.foldl (fun _ s used => used.recordFailure s.source) _ (used.foldl ?_ _)
  intro m s used
  unfold Round.recordAnswer
  have observed := used.observeLatency s.source (Round.milliseconds s.duration)
  dsimp only
  split
  · exact observed
  · exact observed.recordFailure s.source

theorem InUse.recordSign {m : GatewayMetrics} (used : m.InUse)
    (sign : SingleFlight.Sighting TargetKey (List Instance) LookupError) :
    (Gateway.recordSign m sign).InUse := by
  unfold Gateway.recordSign
  split
  · exact used.recordSize _ _
  · exact used.recordExpiry _
  · exact used.recordRefresh _ _
  · exact used

end GatewayMetrics

namespace Gateway

/-- A gateway that has been created from settings, has answered requests, and has seen time pass. -/
inductive AtWork (settings : GatewaySettings) : Gateway → Prop where
  | create {id : String} {g : Gateway} (made : create? settings id = .ok g) : AtWork settings g
  | respond {g : Gateway} (works : AtWork settings g) (t : Transport) (r : Request) :
      AtWork settings (g.respond t r).1
  | wait {g : Gateway} (works : AtWork settings g) (ms : Nat) : AtWork settings (g.wait ms)
  | jump {g : Gateway} (works : AtWork settings g) (ms : Nat) : AtWork settings (g.jump ms)

structure Sound (settings : GatewaySettings) (g : Gateway) : Prop where
  settings_eq : g.settings = settings
  directory : g.directory.Faithful settings.targets
  metrics : ∀ m, g.metrics = some m → m.InUse

variable {settings : GatewaySettings} {g : Gateway}

theorem sound_create {id : String} (made : create? settings id = .ok g) : g.Sound settings := by
  simp only [create?, bind, Except.bind] at made
  split at made
  · cases made
  · rename_i own madeOwn
    cases made
    refine ⟨rfl, Directory.faithful_ofTargets _ _, fun m same => ?_⟩
    dsimp only at same
    split at same
    · cases same
      exact .create madeOwn
    · cases same

theorem Sound.withDirectory (sound : g.Sound settings) {d : Directory}
    (faithful : d.Faithful settings.targets) : (g.withDirectory d).Sound settings := by
  refine ⟨sound.settings_eq, ⟨faithful.keys, ?_⟩, fun m same => ?_⟩
  · obtain ⟨asked, cache⟩ := faithful.cache
    exact ⟨fun _ _ => False, cache.forget⟩
  · obtain ⟨m₀, here, rfl⟩ := Option.map_eq_some_iff.1 same
    exact (sound.metrics m₀ here).foldl (fun _ sign used => used.recordSign sign) _

theorem Sound.invalidate (sound : g.Sound settings) : g.invalidate.Sound settings := by
  obtain ⟨asked, cache⟩ := sound.directory.cache
  exact sound.withDirectory ⟨sound.directory.keys, asked, cache.invalidateAll⟩

theorem Sound.wait (sound : g.Sound settings) (ms : Nat) : (g.wait ms).Sound settings := by
  obtain ⟨asked, cache⟩ := sound.directory.cache
  exact sound.withDirectory ⟨sound.directory.keys, asked, cache.advance ms⟩

theorem Sound.jump (sound : g.Sound settings) (ms : Nat) : (g.jump ms).Sound settings := by
  obtain ⟨asked, cache⟩ := sound.directory.cache
  exact sound.withDirectory ⟨sound.directory.keys, asked, cache.moveTo _⟩

theorem Sound.retain (sound : g.Sound settings) (current : List Instance) :
    (g.retain current).Sound settings := by
  refine ⟨sound.settings_eq, sound.directory, fun m same => ?_⟩
  obtain ⟨m₀, here, rfl⟩ := Option.map_eq_some_iff.1 same
  exact (sound.metrics m₀ here).retain current

theorem Sound.scrape (sound : g.Sound settings) (t : Transport) (instances : List Instance)
    (retainRaw : Bool) : (g.scrape t instances retainRaw).1.Sound settings := by
  have recorded (sent : List FetchRequest) (plans : List (Instance × FetchPlan)) :
      Sound settings { g with
        sent := sent
        metrics := g.metrics.map (Round.recordIn g.settings.roundSettings plans) } := by
    refine ⟨sound.settings_eq, sound.directory, fun m same => ?_⟩
    obtain ⟨m₀, here, rfl⟩ := Option.map_eq_some_iff.1 same
    exact (sound.metrics m₀ here).recordIn _ _
  exact (recorded _ _).wait _

section Keys

variable (keys : settings.targets.Pairwise fun t u => t.key ≠ u.key)

include keys

theorem Sound.discover (sound : g.Sound settings) (appId number : Option String) :
    (g.discover appId number).1.Sound settings ∧ ∃ found : List Target,
      found.Sublist settings.targets ∧ (g.discover appId number).2 =
        (found.flatMap Target.allInstances).filter (Directory.selects appId number) := by
  obtain ⟨faithful, found⟩ := sound.directory.discover keys appId number
  exact ⟨sound.withDirectory faithful, found⟩

theorem Sound.serveAll (sound : g.Sound settings) (t : Transport) :
    (g.serveAll t).1.Sound settings :=
  ((sound.discover keys none none).1.retain _).scrape t _ false

theorem Sound.serveSingle (sound : g.Sound settings) (t : Transport) (appId number : String) :
    (g.serveSingle t appId number).1.Sound settings := by
  have found := (sound.discover keys (some appId) (some number)).1
  unfold Gateway.serveSingle
  generalize g.discover (some appId) (some number) = discovered at found
  obtain ⟨g₁, instances⟩ := discovered
  cases instances with
  | nil => exact found
  | cons i instances =>
    dsimp only
    split
    · exact found.scrape t _ _
    · exact found.scrape t _ _

theorem Sound.respond (sound : g.Sound settings) (t : Transport) (r : Request) :
    (g.respond t r).1.Sound settings := by
  unfold Gateway.respond
  split
  · exact sound
  · rename_i route _
    change (g.serve t r route).1.Sound settings
    cases route with
    | metrics =>
      unfold serve
      dsimp only
      split
      · exact sound
      · exact sound.serveAll keys t
    | single appId number =>
      unfold serve
      dsimp only
      split
      · exact sound
      · exact sound.serveSingle keys t appId number
    | discovery => exact (sound.discover keys none none).1
    | invalidate => exact sound.invalidate
    | health => exact sound

theorem AtWork.sound (works : AtWork settings g) : g.Sound settings := by
  induction works with
  | create made => exact sound_create made
  | respond _ t r before => exact before.respond keys t r
  | wait _ ms before => exact before.wait ms
  | jump _ ms before => exact before.jump ms

end Keys

theorem AtWork.found
    (keys : settings.targets.Pairwise fun t u => t.key ≠ u.key) (works : AtWork settings g)
    (appId number : Option String) :
    (g.discover appId number).2.Nodup ∧
      ∀ i ∈ (g.discover appId number).2, ∃ t ∈ settings.targets, i ∈ t.allInstances := by
  obtain ⟨_, found, sub, listed⟩ := (works.sound keys).discover keys appId number
  rw [listed]
  constructor
  · exact (Target.nodup_instances (keys.sublist sub)).filter _
  · intro i member
    obtain ⟨t, among, own⟩ := List.mem_flatMap.1 (List.mem_of_mem_filter member)
    exact ⟨t, sub.subset among, own⟩

def ofTwoEndpoints : Gateway where
  settings := twoEndpoints
  id := "gateway"
  directory := .ofTargets twoEndpoints.targets twoEndpoints.cacheSettings
  metrics := none
  started := 0

def twoFetches (first second : FetchPlan) : List (Instance × FetchPlan) :=
  [((Target.endpoint "/metrics").instanceAt 0, first),
    ((Target.endpoint "/more").instanceAt 0, second)]

theorem found_ofTwoEndpoints (first second : FetchPlan) :
    (twoFetches first second).map Prod.fst = (ofTwoEndpoints.discover none none).2 := by
  have found : (ofTwoEndpoints.discover none none).2 =
      [(Target.endpoint "/metrics").instanceAt 0, (Target.endpoint "/more").instanceAt 0] := by
    decide
  exact found.symm

theorem atWork_ofTwoEndpoints : AtWork twoEndpoints ofTwoEndpoints := by
  have made : create? twoEndpoints "gateway" = .ok ofTwoEndpoints := rfl
  exact .create made

end Gateway
end MetricGateway
