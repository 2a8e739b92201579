import MetricGateway.Metrics.Gateway

/- Children of metric vectors are told apart by their label values alone, whatever the names; the
   failure counters of the gateway's metrics grow where a failure is recorded and nowhere else. -/
namespace MetricGateway

/-- Label names with their places, in the order in which a child's key has their values. -/
def keyOrder (names : List String) : List (String × Nat) :=
  names.zipIdx.mergeSort fun a b => decide (a.1 ≤ b.1)

theorem childKey_zip {names values : List String} (full : values.length = names.length) :
    childKey (names.zip values) = (keyOrder names).map fun place => values[place.2]?.getD "" := by
  have zipped : names.zip values =
      names.zipIdx.map fun place => (place.1, values[place.2]?.getD "") := by
    refine List.ext_getElem (by simp [full]) ?_
    intro i bound _
    have inside : i < values.length := by
      simp only [List.length_zip] at bound
      omega
    simp [inside]
  have sorted : (names.zipIdx.map fun place => (place.1, values[place.2]?.getD "")).mergeSort
      (fun a b => decide (a.1 ≤ b.1)) =
        (keyOrder names).map fun place => (place.1, values[place.2]?.getD "") :=
    (List.map_mergeSort (f := fun place : String × Nat => (place.1, values[place.2]?.getD ""))
      fun _ _ _ _ => rfl).symm
  rw [childKey, sortedLabels, zipped, sorted, List.map_map]
  rfl

namespace MetricVector

variable {α : Type}

theorem keyOf_injective {v : MetricVector α} {values others : List String}
    (full : values.length = v.labelNames.length) (full' : others.length = v.labelNames.length)
    (same : v.keyOf values = v.keyOf others) : values = others := by
  rw [keyOf, keyOf, childKey_zip full, childKey_zip full', List.map_inj_left] at same
  refine List.ext_getElem (full.trans full'.symm) ?_
  intro i bound bound'
  have place : (v.labelNames.get ⟨i, by omega⟩, i) ∈ keyOrder v.labelNames := by
    rw [keyOrder, List.mem_mergeSort, List.mem_zipIdx_iff_getElem?]
    simp
  simpa [bound, bound'] using same _ place

theorem labelNames_create? {name help : String} {type : MetricType} {labelNames : List String}
    {v : MetricVector α} (made : create? name type help labelNames = .ok v) :
    v.labelNames = labelNames := by
  unfold create? at made
  split at made
  · cases made
  · cases made
    rfl

theorem child?_update {v : MetricVector α} {values others : List String}
    (full : values.length = v.labelNames.length) (full' : others.length = v.labelNames.length)
    (fresh : α) (change : α → α) :
    (v.update values fresh change).child? others =
      if values = others then some (change ((v.child? others).getD fresh))
      else v.child? others := by
  have key : ∀ values, (v.update values fresh change).keyOf others = v.keyOf others := fun _ => rfl
  rw [child?, key, update, Std.ExtTreeMap.getElem?_alter]
  by_cases same : values = others
  · subst same
    simp [child?]
  · have apart : ¬ compare (v.keyOf values) (v.keyOf others) = .eq := fun equal =>
      same (keyOf_injective full full' (Std.compare_eq_iff_eq.1 equal))
    simp [same, apart, child?]

end MetricVector

namespace GatewayMetrics

def failureCount (m : GatewayMetrics) (values : List String) : Nat :=
  (m.failures.child? values).getD 0

/-- The failure counters have the origin labels, behind the gateway's label prefix. -/
def Labelled (m : GatewayMetrics) : Prop := m.failures.labelNames = ownLabelNames m.labelPrefix

theorem length_ownLabelNames (labelPrefix : Option String) :
    (ownLabelNames labelPrefix).length = originLabelNames.length := by
  cases labelPrefix <;> rfl

theorem labelled_create? {labelPrefix : Option String} {latency : Bool} {m : GatewayMetrics}
    (made : create? labelPrefix latency = .ok m) : m.Labelled := by
  simp only [create?, bind, Except.bind] at made
  split at made
  · cases made
  · rename_i failures created
    iterate 5
      split at made
      · cases made
    cases made
    exact MetricVector.labelNames_create? created

theorem labelled_recordFailure {m : GatewayMetrics} (labelled : m.Labelled) (i : Instance) :
    (m.recordFailure i).Labelled := labelled

theorem failures_observeLatency (m : GatewayMetrics) (i : Instance) (seconds : Double) :
    (m.observeLatency i seconds).failures = m.failures := by
  unfold observeLatency
  split <;> rfl

theorem labelled_observeLatency {m : GatewayMetrics} (labelled : m.Labelled) (i : Instance)
    (seconds : Double) : (m.observeLatency i seconds).Labelled := by
  unfold observeLatency
  split
  · exact labelled
  · exact labelled

/-- The gateway's metrics as they come to be, by what is recorded and deregistered. -/
inductive InUse : GatewayMetrics → Prop where
  | create {labelPrefix : Option String} {latency : Bool} {m : GatewayMetrics}
      (made : create? labelPrefix latency = .ok m) : InUse m
  | recordFailure {m : GatewayMetrics} (used : InUse m) (i : Instance) : InUse (m.recordFailure i)
  | observeLatency {m : GatewayMetrics} (used : InUse m) (i : Instance) (seconds : Double) :
      InUse (m.observeLatency i seconds)
  | deregister {m : GatewayMetrics} (used : InUse m) (i : Instance) : InUse (m.deregister i)
  | recordSize {m : GatewayMetrics} (used : InUse m) (cache : String) (size : Nat) :
      InUse (m.recordSize cache size)
  | recordExpiry {m : GatewayMetrics} (used : InUse m) (cache : String) :
      InUse (m.recordExpiry cache)
  | recordRefresh {m : GatewayMetrics} (used : InUse m) (cache : String) (success : Bool) :
      InUse (m.recordRefresh cache success)

theorem InUse.foldl {β : Type} {f : GatewayMetrics → β → GatewayMetrics}
    (records : ∀ m b, InUse m → InUse (f m b)) (list : List β) {m : GatewayMetrics}
    (used : m.InUse) : (list.foldl f m).InUse := by
  induction list generalizing m with
  | nil => exact used
  | cons b list ih => exact ih (records m b used)

theorem InUse.retain {m : GatewayMetrics} (used : m.InUse) (current : List Instance) :
    (m.retain current).InUse :=
  used.foldl (fun _ i used => used.deregister i) _

theorem InUse.labelled {m : GatewayMetrics} (used : m.InUse) : m.Labelled := by
  induction used with
  | create made => exact labelled_create? made
  | recordFailure _ i before => exact labelled_recordFailure before i
  | observeLatency _ i seconds before => exact labelled_observeLatency before i seconds
  | deregister _ _ before => exact before
  | recordSize _ _ _ before => exact before
  | recordExpiry _ _ before => exact before
  | recordRefresh _ _ success before => cases success <;> exact before

theorem failureCount_recordFailure {m : GatewayMetrics} (labelled : m.Labelled) (i : Instance)
    {values : List String} (full : values.length = originLabelNames.length) :
    (m.recordFailure i).failureCount values =
      m.failureCount values + if valuesOf i = values then 1 else 0 := by
  have names : m.failures.labelNames.length = originLabelNames.length := by
    rw [labelled, length_ownLabelNames]
  have own : (valuesOf i).length = m.failures.labelNames.length := by
    rw [names]
    rfl
  have updated := MetricVector.child?_update own (full.trans names.symm) 0 (· + 1)
  have recorded : (m.recordFailure i).failures = m.failures.update (valuesOf i) 0 (· + 1) := rfl
  rw [failureCount, recorded, updated, failureCount]
  split <;> simp

end GatewayMetrics
end MetricGateway
