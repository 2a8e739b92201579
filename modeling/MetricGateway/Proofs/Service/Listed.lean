import MetricGateway.Proofs.Service.Discovered

/- What discovery finds of the configured targets while lookups may fail. Every target has a key of
   its own, so that none is taken for another: whatever has been asked for before, a target that can
   be looked up is found with all of its instances, and one that cannot is no matter of the rest. -/
namespace MetricGateway

structure Target.Describes (t : Target) (number : Nat) (i : Instance) : Prop where
  names : i.org = t.org ∧ i.space = t.space ∧ i.app = t.app
  application : i.appId = t.appId.getD t.app
  endpoint : i.path = t.path ∧ i.protocol = t.protocol
  url : i.url = t.protocol ++ "://" ++ t.route ++ t.path
  credentials : i.credentials = t.basicAuth
  number : i.number? = some (toString number)

theorem Target.describes_instanceAt (t : Target) (number : Nat) :
    t.Describes number (t.instanceAt number) :=
  ⟨⟨rfl, rfl, rfl⟩, rfl, ⟨rfl, rfl⟩, rfl, rfl, t.number_instanceAt number⟩

namespace Directory

/-- A lookup in the table of some targets that fails at times, by the key and by how often that has
    been looked up. -/
def lookUpUnless (fails : TargetKey → Nat → Option String) (targets : List Target) (key : TargetKey)
    (call : Nat) : Except LookupError (List Instance) :=
  match fails key call with
  | some reason => .error (.unresolved key reason)
  | none => lookUp targets key

inductive InUse (start : Directory) : Directory → Prop where
  | start : InUse start start
  | discover {d : Directory} (used : InUse start d) (appId number : Option String) :
      InUse start (d.discover appId number).1
  | find {d : Directory} (used : InUse start d) (key : TargetKey) : InUse start (d.find key).1
  | invalidate {d : Directory} (used : InUse start d) : InUse start d.invalidate
  | sweep {d : Directory} (used : InUse start d) :
      InUse start { d with
        cache := d.cache.sweep (.request d.lookups)
        lookups := d.lookups + 1 }
  | wait {d : Directory} (used : InUse start d) (ms : Nat) :
      InUse start { d with cache := d.cache.advance ms }
  | jump {d : Directory} (used : InUse start d) (time : Nat) :
      InUse start { d with cache := d.cache.moveTo time }
  | forget {d : Directory} (used : InUse start d) : InUse start { d with cache := d.cache.forget }

variable {targets : List Target} {d : Directory}
  {answers : TargetKey → Nat → Except LookupError (List Instance)}

theorem AtRest.sweep (rests : d.AtRest targets answers) :
    AtRest targets answers { d with
      cache := d.cache.sweep (.request d.lookups)
      lookups := d.lookups + 1 } := by
  obtain ⟨asked, cache⟩ := rests.faithful.cache
  exact ⟨⟨rests.faithful.keys, _, cache.sweep⟩, rests.still.sweep _⟩

theorem AtRest.inUse {start : Directory} (rests : start.AtRest targets answers)
    (used : InUse start d) : d.AtRest targets answers := by
  have kept := kept_atRest targets answers
  induction used with
  | start => exact rests
  | discover _ appId number before => exact kept.discover before appId number
  | find _ key before => exact kept.find _ key before
  | invalidate _ before => exact kept.invalidate _ before
  | sweep _ before => exact before.sweep
  | wait _ ms before => exact kept.advance _ ms before
  | jump _ time before => exact kept.moveTo _ time before
  | forget _ before => exact kept.forget _ before

theorem selects_eq (appId number : Option String) (i : Instance) :
    selects appId number i = decide ((appId = none ∨ appId = some i.appId) ∧
      (number = none ∨ number = i.number?)) := by
  rw [Bool.eq_iff_iff, decide_eq_true_iff]
  cases appId <;> cases number <;> simp [selects, @eq_comm _ i.number?]

theorem AtRest.find_isOk_iff (rests : d.AtRest targets answers) (key : TargetKey) :
    (∃ instances, (d.find key).2 = some (.ok instances)) ↔ d.resolves answers key = true := by
  obtain ⟨_, ⟨outcome, answer, isOk, _⟩, _⟩ := rests.find key
  rw [answer, ← isOk]
  cases outcome with
  | error e => simp [Except.isOk, Except.toBool]
  | ok instances => simp [Except.isOk, Except.toBool]

/-- Of the targets of checked settings, discovery finds those that are known or that the next lookup
    tells, in order, each with its instances in order and as the settings tell them. Asked for an
    application or for a number, it finds just those of the instances that have it. -/
theorem discover_lists_targets {s settings : GatewaySettings} (checked : s.check = .ok settings)
    {cacheSettings : SingleFlight.Settings} {fails : TargetKey → Nat → Option String}
    (used : InUse
      (withLookup settings.targets cacheSettings (lookUpUnless fails settings.targets)) d) :
    let found := settings.targets.filter fun t =>
      d.cache.cache.contains t.key || (fails t.key (d.cache.calls.count t.key + 1)).isNone
    (∀ t ∈ settings.targets, t ∈ found ↔ ∃ instances, (d.find t.key).2 = some (.ok instances)) ∧
      (d.discover none none).2 =
        found.flatMap (fun t => (List.range t.instances).map t.instanceAt) ∧
      (∀ t ∈ settings.targets, ∀ n < t.instances, t.Describes n (t.instanceAt n)) ∧
      ∀ appId number : Option String, (d.discover appId number).2 =
        (d.discover none none).2.filter fun i =>
          (appId = none ∨ appId = some i.appId) ∧ (number = none ∨ number = i.number?) := by
  intro found
  have keys := GatewaySettings.keys_of_check checked
  have right : ∀ key call instances, lookUpUnless fails settings.targets key call = .ok instances →
      lookUp settings.targets key = .ok instances := by
    intro key call instances answer
    unfold lookUpUnless at answer
    split at answer
    · cases answer
    · exact answer
  have rests := (atRest_withLookup cacheSettings right).inUse used
  have same : (settings.targets.filter fun t =>
      d.resolves (lookUpUnless fails settings.targets) t.key) = found := by
    refine List.filter_congr fun t member => congrArg (_ || ·) ?_
    unfold lookUpUnless
    rw [lookUp_key keys member]
    cases fails t.key _ <;> rfl
  have whole : (d.discover none none).2 = found.flatMap Target.allInstances := by
    rw [rests.discover keys, same]
    exact List.filter_eq_self.2 fun i _ => rfl
  refine ⟨fun t member => ?_, whole, fun t _ n _ => t.describes_instanceAt n, fun appId number => ?_⟩
  · rw [rests.find_isOk_iff, ← same, List.mem_filter]
    exact and_iff_right member
  · rw [whole, rests.discover keys, same]
    exact List.filter_congr fun i _ => selects_eq appId number i

/-- An application whose id has a colon, with two instances, and another with one. -/
def twoApplications : GatewaySettings where
  ownMetrics := { enabled := false }
  targets := [
    ⟨"org", "space", "shop", some "a:b", "shop.example", "/metrics", "https", 2, none⟩,
    ⟨"org", "space", "batch", none, "batch.example", "/metrics", "http", 1, none⟩]

/-- One of the applications cannot be looked up, and the other only once. -/
def failsSoon (key : TargetKey) (call : Nat) : Option String :=
  if key.app = "batch" ∨ call = 2 then some "down" else none

theorem found_while_failing :
    let start := withLookup twoApplications.targets ⟨none, some 5, 1000, false⟩
      (lookUpUnless failsSoon twoApplications.targets)
    let d := (start.find ⟨"org", "space", "shop", "/metrics", "https"⟩).1
    InUse start d ∧ (d.discover none none).2.map Instance.id = ["a:b:0", "a:b:1"] ∧
      (d.discover (some "a:b") (some "1")).2.map Instance.id = ["a:b:1"] := by
  intro start d
  have used : InUse start d := .find .start _
  have checked : twoApplications.check = .ok twoApplications := rfl
  obtain ⟨_, whole, _, narrowed⟩ := discover_lists_targets checked used
  have found : (twoApplications.targets.filter fun t => d.cache.cache.contains t.key ||
      (failsSoon t.key (d.cache.calls.count t.key + 1)).isNone) =
        twoApplications.targets.take 1 := by decide
  rw [found] at whole
  refine ⟨used, ?_, ?_⟩
  · rw [whole]
    rfl
  · rw [narrowed, whole]
    rfl

end Directory
end MetricGateway
