import MetricGateway.Proofs.Metrics.Retention

/- What calls have recorded under some label values since the children of these were taken away last,
   and that the children have it. -/
namespace MetricGateway

theorem MetricVector.child?_remove {α : Type} {v : MetricVector α} {values others : List String}
    (full : values.length = v.labelNames.length)
    (full' : others.length = v.labelNames.length) :
    (v.remove values).child? others = if values = others then none else v.child? others := by
  have key : (v.remove values).keyOf others = v.keyOf others := rfl
  rw [child?, key, remove, Std.ExtTreeMap.getElem?_erase]
  by_cases same : values = others
  · simp [same]
  · have apart : ¬ compare (v.keyOf values) (v.keyOf others) = .eq := fun equal =>
      same (keyOf_injective full full' (Std.compare_eq_iff_eq.1 equal))
    simp [same, apart, child?]

namespace GatewayMetrics

def Call.removes (values : List String) (m : GatewayMetrics) : Call → Bool
  | .failure _ | .latency .. => false
  | .deregister i => valuesOf i = values
  | .retain current => (m.vanished current).any fun k => valuesOf k = values

/-- Of some calls those since the children of some label values were taken away last. -/
def lasting (values : List String) (m : GatewayMetrics) (before : List Call) :
    List Call → List Call
  | [] => before
  | call :: rest =>
    lasting values (call.apply m) (if call.removes values m then [] else before ++ [call]) rest

def Call.fails (values : List String) : Call → Bool
  | .failure i => valuesOf i = values
  | .latency .. | .deregister _ | .retain _ => false

def Call.observes? (values : List String) : Call → Option Double
  | .latency i seconds => if valuesOf i = values then some seconds else none
  | .failure _ | .deregister _ | .retain _ => none

def failuresOf (values : List String) (calls : List Call) : Nat := calls.countP (Call.fails values)

def latenciesOf (values : List String) (calls : List Call) : Latencies :=
  calls.filterMap (Call.observes? values)

theorem failuresOf_concat (values : List String) (calls : List Call) (call : Call) :
    failuresOf values (calls ++ [call]) =
      failuresOf values calls + if call.fails values then 1 else 0 := by
  rw [failuresOf, failuresOf, List.countP_append, List.countP_singleton]

theorem latenciesOf_concat (values : List String) (calls : List Call) (call : Call) :
    latenciesOf values (calls ++ [call]) =
      latenciesOf values calls ++ (call.observes? values).toList := by
  rw [latenciesOf, latenciesOf, List.filterMap_append]
  cases seen : call.observes? values <;> simp [seen]

theorem length_lasting (values : List String) (m : GatewayMetrics) (before calls : List Call) :
    (lasting values m before calls).length ≤ before.length + calls.length := by
  induction calls generalizing m before with
  | nil => exact Nat.le_refl _
  | cons call rest ih =>
    rw [lasting, List.length_cons]
    split
    · have rests := ih (call.apply m) []
      rw [List.length_nil] at rests
      omega
    · have rests := ih (call.apply m) (before ++ [call])
      rw [List.length_append, List.length_singleton] at rests
      omega

/-- The children of some label values have what some calls have recorded; where these have recorded
    nothing there are none. -/
structure Tallies (values : List String) (calls : List Call) (m : GatewayMetrics) : Prop where
  failures : m.failures.child? values =
    if failuresOf values calls = 0 then none else some (failuresOf values calls)
  latency : ∀ v, m.latency = some v → v.child? values =
    if latenciesOf values calls = [] then none else some (latenciesOf values calls)

variable {values : List String} {calls : List Call} {m : GatewayMetrics}

theorem length_failures (sound : m.Sound) {values : List String}
    (full : values.length = originLabelNames.length) :
    values.length = m.failures.labelNames.length := by
  rw [sound.failures.labelNames_eq, length_ownLabelNames, full]

theorem length_latency (sound : m.Sound) {values : List String}
    (full : values.length = originLabelNames.length) {v : MetricVector Latencies}
    (here : m.latency = some v) : values.length = v.labelNames.length := by
  rw [(sound.latency v here).labelNames_eq, length_ownLabelNames, full]

theorem Tallies.failure (tallies : Tallies values calls m) (sound : m.Sound)
    (full : values.length = originLabelNames.length) (i : Instance) :
    Tallies values (calls ++ [.failure i]) (m.recordFailure i) := by
  constructor
  · have own : (valuesOf i).length = m.failures.labelNames.length := length_failures sound rfl
    have updated : (m.recordFailure i).failures.child? values = _ :=
      MetricVector.child?_update own (length_failures sound full) 0 (· + 1)
    rw [updated, tallies.failures, failuresOf_concat]
    by_cases same : valuesOf i = values
    · by_cases silent : failuresOf values calls = 0
      · simp [Call.fails, same, silent]
      · simp [Call.fails, same, silent]
    · simp [Call.fails, same]
  · intro v here
    rw [latenciesOf_concat]
    simpa [Call.observes?] using tallies.latency v here

theorem Tallies.latencies (tallies : Tallies values calls m) (sound : m.Sound)
    (full : values.length = originLabelNames.length) (i : Instance) (seconds : Double) :
    Tallies values (calls ++ [.latency i seconds]) (m.observeLatency i seconds) := by
  constructor
  · rw [failures_observeLatency, tallies.failures, failuresOf_concat]
    simp [Call.fails]
  · intro w observed
    unfold observeLatency at observed
    cases here : m.latency with
    | none => simp [here] at observed
    | some v =>
      rw [here] at observed
      cases observed
      have own : (valuesOf i).length = v.labelNames.length := length_latency sound rfl here
      rw [MetricVector.child?_update own (length_latency sound full here), tallies.latency v here,
        latenciesOf_concat]
      by_cases same : valuesOf i = values
      · by_cases silent : latenciesOf values calls = []
        · simp [Call.observes?, same, silent]
        · simp [Call.observes?, same, silent]
      · simp [Call.observes?, same]

theorem Tallies.deregister (tallies : Tallies values calls m) (sound : m.Sound)
    (full : values.length = originLabelNames.length) (i : Instance) :
    Tallies values (if valuesOf i = values then [] else calls) (m.deregister i) := by
  constructor
  · have own : (valuesOf i).length = m.failures.labelNames.length := length_failures sound rfl
    have removed : (m.deregister i).failures.child? values = _ :=
      MetricVector.child?_remove own (length_failures sound full)
    rw [removed, tallies.failures]
    split
    · rfl
    · rfl
  · intro w deregistered
    obtain ⟨v, here, rfl⟩ := Option.map_eq_some_iff.1 deregistered
    have own : (valuesOf i).length = v.labelNames.length := length_latency sound rfl here
    rw [MetricVector.child?_remove own (length_latency sound full here), tallies.latency v here]
    split
    · rfl
    · rfl

theorem Tallies.foldl_deregister {gone : List Instance} (tallies : Tallies values calls m)
    (used : m.InUse) (full : values.length = originLabelNames.length) :
    Tallies values (if gone.any fun k => valuesOf k = values then [] else calls)
      (gone.foldl GatewayMetrics.deregister m) := by
  induction gone generalizing m calls with
  | nil => exact tallies
  | cons i gone ih =>
    have next := ih (tallies.deregister used.sound full i) (used.deregister i)
    rw [List.foldl_cons, List.any_cons]
    by_cases same : valuesOf i = values
    · simpa [same] using next
    · simpa [same] using next

theorem Tallies.silent (tallies : Tallies values calls m) (call : Call)
    (fails : call.fails values = false) (observes : call.observes? values = none) :
    Tallies values (calls ++ [call]) m := by
  constructor
  · rw [tallies.failures, failuresOf_concat]
    simp [fails]
  · intro v here
    rw [tallies.latency v here, latenciesOf_concat]
    simp [observes]

theorem Tallies.apply (tallies : Tallies values calls m) (used : m.InUse)
    (full : values.length = originLabelNames.length) (call : Call) :
    Tallies values (if call.removes values m then [] else calls ++ [call]) (call.apply m) := by
  cases call with
  | failure i => exact tallies.failure used.sound full i
  | latency i seconds => exact tallies.latencies used.sound full i seconds
  | deregister i =>
    have next := (tallies.silent (.deregister i) rfl rfl).deregister used.sound full i
    simpa [Call.removes, Call.apply] using next
  | retain current =>
    exact (tallies.silent (.retain current) rfl rfl).foldl_deregister used full

theorem Tallies.foldl_apply {before : List Call} (tallies : Tallies values before m) (used : m.InUse)
    (full : values.length = originLabelNames.length) (calls : List Call) :
    Tallies values (lasting values m before calls) (calls.foldl Call.apply m) := by
  induction calls generalizing m before with
  | nil => exact tallies
  | cons call rest ih => exact ih (tallies.apply used full call) (used.apply call)

theorem tallies_create {labelPrefix : Option String} {latency : Bool}
    (made : create? labelPrefix latency = .ok m) (values : List String) : Tallies values [] m := by
  obtain ⟨failures, latencies, _⟩ := children_create made
  constructor
  · simp [MetricVector.child?, failures, failuresOf]
  · intro v here
    simp [MetricVector.child?, latencies v here, latenciesOf]

end GatewayMetrics
end MetricGateway
