import MetricGateway.Proofs.Metrics.Indicator

/- What is left of instances in the gateway's metrics. Children are told apart by five label values,
   the instances that are remembered by their ids alone. Retaining drops a child only if
   an instance that is remembered under a vanished id has the child's labels. An instance that comes
   under the id of a remembered one with other labels is not remembered itself. -/
namespace MetricGateway

def instanceNames : List String :=
  ["fetcher_failed_requests_total", "fetcher_latency_seconds"].map metricName

def cacheNames : List String :=
  ["cache_expiry_total", "cache_refresh_failure_total", "cache_refresh_success_total",
    "cache_size"].map metricName

/-- A sample of one of the metrics that have a child for each instance. -/
def Sample.PerInstance (s : Sample) : Prop := ∃ name ∈ instanceNames, name.toList <+: s.name.toList

theorem unrelated_instanceNames {m n : String} (left : m ∈ cacheNames) (right : n ∈ instanceNames) :
    Unrelated m n := by
  have work : workNames.Pairwise Unrelated := (List.pairwise_append.1 unrelated_names).2.1
  have split : workNames = cacheNames ++ instanceNames := rfl
  rw [split] at work
  exact (List.pairwise_append.1 work).2.2 m left n right

namespace MetricVector

variable {α : Type} {v : MetricVector α} {points : α → List Point} {key : List String} {s : Sample}

def ShowsAt (v : MetricVector α) (points : α → List Point) (key : List String) (s : Sample) : Prop :=
  ∃ child, v.children[key]? = some child ∧ ∃ p ∈ points child,
    Sample.marked ⟨v.name ++ p.suffix, (keyNames v.labelNames).zip key ++ p.labels, p.value⟩ = some s

theorem exists_showsAt :
    (∃ t ∈ (v.family points).samples, t.marked = some s) ↔ ∃ key, v.ShowsAt points key s := by
  constructor
  · rintro ⟨t, member, shown⟩
    obtain ⟨key, child, here, p, own, rfl⟩ := mem_family.1 member
    exact ⟨key, child, here, p, own, shown⟩
  · rintro ⟨key, child, here, p, own, shown⟩
    exact ⟨_, mem_family.2 ⟨key, child, here, p, own, rfl⟩, shown⟩

theorem showsAt_remove (values : List String) :
    (v.remove values).ShowsAt points key s ↔ v.ShowsAt points key s ∧ v.keyOf values ≠ key := by
  unfold ShowsAt
  simp only [remove, Std.ExtTreeMap.getElem?_erase, Std.compare_eq_iff_eq]
  by_cases own : v.keyOf values = key
  · simp [own]
  · simp [own]

theorem showsAt_update {values : List String} {fresh : α} {change : α → α}
    (shown : (v.update values fresh change).ShowsAt points key s) :
    key = v.keyOf values ∨ v.ShowsAt points key s := by
  obtain ⟨child, here, rest⟩ := shown
  rw [update, Std.ExtTreeMap.getElem?_alter] at here
  split at here
  · rename_i same
    exact Or.inl (Std.compare_eq_iff_eq.1 same).symm
  · exact Or.inr ⟨child, here, rest⟩

theorem children_create? {name help : String} {type : MetricType} {labelNames : List String}
    (made : create? name type help labelNames = .ok v) : v.children = ∅ := by
  unfold create? at made
  split at made
  · cases made
  · cases made
    rfl

section Labels

variable {name : String} {labelNames values : List String} (fits : v.Fits name labelNames)
  (names : VectorLabels labelNames) (fit : ∀ child, PointsFit (points child))
  (full : values.length = labelNames.length)

include fits full

theorem labels_of_showsAt (shown : v.ShowsAt points (childKey (labelNames.zip values)) s) :
    labelNames.zip values ⊆ s.labels := by
  obtain ⟨child, _, p, _, shown⟩ := shown
  obtain ⟨t, read, rfl⟩ := Option.map_eq_some_iff.1 shown
  obtain ⟨_, _, rfl⟩ := Option.map_eq_some_iff.1 read
  intro label member
  rw [fits.labelNames_eq, zip_childKey full]
  refine List.mem_append_left _ (List.mem_append_left _ ?_)
  exact List.mem_mergeSort.2 member

include names fit

theorem key_of_showsAt (shown : v.ShowsAt points key s) (within : labelNames.zip values ⊆ s.labels) :
    childKey (labelNames.zip values) = key := by
  obtain ⟨child, here, p, own, shown⟩ := shown
  obtain ⟨t, read, rfl⟩ := Option.map_eq_some_iff.1 shown
  obtain ⟨_, _, rfl⟩ := Option.map_eq_some_iff.1 read
  simp only [Labelling.labelSample, fits.labelNames_eq, List.append_assoc] at within
  refine childKey_of_subset names.distinct full (fits.full key child here) ?_ within
  intro label member among
  obtain ⟨_, unbound, unmarked⟩ := names.proper label.1 among
  rcases List.mem_append.1 member with bound | mark
  · exact unbound ((fit child).labels p own label bound)
  · exact unmarked (List.of_mem_zip mark).1

end Labels

end MetricVector

namespace GatewayMetrics

def ownLabels (m : GatewayMetrics) (i : Instance) : List (String × String) :=
  (Labelling.own m.labelPrefix i.origin).labels

def instanceKey (m : GatewayMetrics) (i : Instance) : List String := childKey (m.ownLabels i)

/-- What the rendered document shows of the children under a key. -/
def ShowsAt (m : GatewayMetrics) (key : List String) (s : Sample) : Prop :=
  m.failures.ShowsAt countPoint key s ∨
    ∃ v, m.latency = some v ∧ v.ShowsAt Latencies.points key s

section Shown

variable {m : GatewayMetrics} (sound : m.Sound) {s : Sample}

include sound

theorem mem_samplesIn_render (own : s.PerInstance) :
    s ∈ samplesIn m.render ↔ ∃ key, m.ShowsAt key s := by
  have legible : ∀ f ∈ m.families, f.Legible := fun f member => (sound.own f member).legible
  rw [render, mem_samplesIn_markedDocument legible]
  constructor
  · rintro ⟨f, member, shown⟩
    -- A family of the caches shows no sample whose name begins as that of the others.
    have other : f.name ∉ cacheNames := by
      intro named
      obtain ⟨name, among, before⟩ := own
      obtain ⟨t, inside, marked⟩ := shown
      obtain ⟨u, read, rfl⟩ := Option.map_eq_some_iff.1 marked
      obtain ⟨_, _, rfl⟩ := Option.map_eq_some_iff.1 read
      exact (unrelated_instanceNames named among).ne ((sound.own f member).prefix_sample inside).1
        before rfl
    have listed : ∀ {α : Type} {w : MetricVector α} {name : String} {labelNames : List String}
        {points : α → List Point}, w.Fits name labelNames → name ∈ cacheNames →
          (w.family points).name ∈ cacheNames := by
      intro α w name labelNames points fits among
      rw [← fits.name_eq] at among
      exact among
    simp only [families, List.mem_append, List.mem_cons, List.not_mem_nil, or_false, List.mem_map,
      Option.mem_toList] at member
    rcases member with (rfl | rfl | rfl | rfl | rfl) | ⟨v, here, rfl⟩
    · exact absurd (listed sound.cacheExpiry (by simp [cacheNames])) other
    · exact absurd (listed sound.refreshFailure (by simp [cacheNames])) other
    · exact absurd (listed sound.refreshSuccess (by simp [cacheNames])) other
    · exact absurd (listed sound.cacheSize (by simp [cacheNames])) other
    · obtain ⟨key, shows⟩ := MetricVector.exists_showsAt.1 shown
      exact ⟨key, Or.inl shows⟩
    · obtain ⟨key, shows⟩ := MetricVector.exists_showsAt.1 shown
      exact ⟨key, Or.inr ⟨v, here, shows⟩⟩
  · rintro ⟨key, shows | ⟨v, here, shows⟩⟩
    · exact ⟨_, by simp [families], MetricVector.exists_showsAt.2 ⟨key, shows⟩⟩
    · exact ⟨_, by simp [families, here], MetricVector.exists_showsAt.2 ⟨key, shows⟩⟩

theorem keyOf_failures (i : Instance) : m.failures.keyOf (valuesOf i) = m.instanceKey i := by
  rw [MetricVector.keyOf, sound.failures.labelNames_eq]
  rfl

theorem keyOf_latency {v : MetricVector Latencies} (here : m.latency = some v) (i : Instance) :
    v.keyOf (valuesOf i) = m.instanceKey i := by
  rw [MetricVector.keyOf, (sound.latency v here).labelNames_eq]
  rfl

theorem labels_of_showsAt {i : Instance} (shown : m.ShowsAt (m.instanceKey i) s) :
    m.ownLabels i ⊆ s.labels := by
  have full := length_valuesOf i m.labelPrefix
  rcases shown with shown | ⟨v, here, shown⟩
  · exact MetricVector.labels_of_showsAt sound.failures full shown
  · exact MetricVector.labels_of_showsAt (sound.latency v here) full shown

theorem key_of_showsAt {key : List String} {i : Instance} (shown : m.ShowsAt key s)
    (labels : m.ownLabels i ⊆ s.labels) : m.instanceKey i = key := by
  have full := length_valuesOf i m.labelPrefix
  have names := vectorLabels_own sound.labels
  rcases shown with shown | ⟨v, here, shown⟩
  · exact MetricVector.key_of_showsAt sound.failures names (fun _ => pointsFit_value _) full shown
      labels
  · exact MetricVector.key_of_showsAt (sound.latency v here) names pointsFit_latencies full shown
      labels

theorem instanceKey_eq_iff {i j : Instance} :
    m.instanceKey i = m.instanceKey j ↔ i.origin = j.origin := by
  constructor
  · intro same
    have full : ∀ i, (valuesOf i).length = m.failures.labelNames.length := fun i => by
      rw [sound.failures.labelNames_eq]
      exact length_valuesOf i m.labelPrefix
    rw [← keyOf_failures sound, ← keyOf_failures sound] at same
    have values : i.origin.values = j.origin.values :=
      MetricVector.keyOf_injective (full i) (full j) same
    simp only [Origin.values, List.cons.injEq] at values
    obtain ⟨org, space, app, id, _⟩ := values
    rw [Origin.mk.injEq]
    exact ⟨org, space, app, id⟩
  · intro same
    rw [instanceKey, instanceKey, ownLabels, ownLabels, same]

theorem showsAt_deregister {key : List String} (i : Instance) :
    (m.deregister i).ShowsAt key s ↔ m.ShowsAt key s ∧ m.instanceKey i ≠ key := by
  have failures : (m.deregister i).failures.ShowsAt countPoint key s ↔
      m.failures.ShowsAt countPoint key s ∧ m.instanceKey i ≠ key := by
    rw [← keyOf_failures sound]
    exact MetricVector.showsAt_remove _
  have latency : (∃ v, (m.deregister i).latency = some v ∧ v.ShowsAt Latencies.points key s) ↔
      (∃ v, m.latency = some v ∧ v.ShowsAt Latencies.points key s) ∧ m.instanceKey i ≠ key := by
    constructor
    · rintro ⟨_, here, shown⟩
      obtain ⟨v, before, rfl⟩ := Option.map_eq_some_iff.1 here
      rw [← keyOf_latency sound before]
      obtain ⟨shown, apart⟩ := (MetricVector.showsAt_remove _).1 shown
      exact ⟨⟨v, before, shown⟩, apart⟩
    · rintro ⟨⟨v, before, shown⟩, apart⟩
      rw [← keyOf_latency sound before] at apart
      exact ⟨_, Option.map_eq_some_iff.2 ⟨v, before, rfl⟩,
        (MetricVector.showsAt_remove _).2 ⟨shown, apart⟩⟩
  unfold ShowsAt
  rw [failures, latency, or_and_right]

theorem showsAt_recordFailure {key : List String} {i : Instance}
    (shown : (m.recordFailure i).ShowsAt key s) : key = m.instanceKey i ∨ m.ShowsAt key s := by
  rcases shown with shown | shown
  · rw [← keyOf_failures sound]
    exact (MetricVector.showsAt_update shown).imp_right Or.inl
  · exact Or.inr (Or.inr shown)

theorem showsAt_observeLatency {key : List String} {i : Instance} {seconds : Double}
    (shown : (m.observeLatency i seconds).ShowsAt key s) :
    key = m.instanceKey i ∨ m.ShowsAt key s := by
  unfold observeLatency at shown
  split at shown
  · exact Or.inr shown
  · rename_i v here
    rcases shown with shown | ⟨_, same, shown⟩
    · exact Or.inr (Or.inl shown)
    · cases same
      rw [← keyOf_latency sound here]
      exact (MetricVector.showsAt_update shown).imp_right fun shown => Or.inr ⟨v, here, shown⟩

end Shown

theorem showsAt_foldl_deregister (gone : List Instance) {m : GatewayMetrics} (used : m.InUse)
    {key : List String} {s : Sample} : (gone.foldl deregister m).ShowsAt key s ↔
      m.ShowsAt key s ∧ ∀ k ∈ gone, m.instanceKey k ≠ key := by
  induction gone generalizing m with
  | nil => simp
  | cons i gone ih =>
    have next : (gone.foldl deregister (m.deregister i)).ShowsAt key s ↔ _ := ih (used.deregister i)
    rw [List.foldl_cons, next, showsAt_deregister used.sound, List.forall_mem_cons, and_assoc]
    rfl

/-- What the fetcher and the handlers ask of the metrics that are kept of instances. -/
inductive Call where
  | failure (i : Instance)
  | latency (i : Instance) (seconds : Double)
  | deregister (i : Instance)
  | retain (current : List Instance)

def Call.apply (m : GatewayMetrics) : Call → GatewayMetrics
  | .failure i => m.recordFailure i
  | .latency i seconds => m.observeLatency i seconds
  | .deregister i => m.deregister i
  | .retain current => m.retain current

def Call.about : Call → List Instance
  | .failure i | .latency i _ | .deregister i => [i]
  | .retain _ => []

theorem InUse.apply {m : GatewayMetrics} (used : m.InUse) (call : Call) :
    (Call.apply m call).InUse := by
  cases call with
  | failure i => exact used.recordFailure i
  | latency i seconds => exact used.observeLatency i seconds
  | deregister i => exact used.deregister i
  | retain current => exact used.retain current

/-- What is remembered and shown of instances, when nothing else than some has been recorded. -/
structure Keeps (instances : List Instance) (m : GatewayMetrics) : Prop where
  known : ∀ id k, m.known[id]? = some k → k.id = id ∧ k ∈ instances
  shown : ∀ key s, m.ShowsAt key s → ∃ i ∈ instances, m.instanceKey i = key

def Tracked (m : GatewayMetrics) : Prop :=
  ∀ key s, m.ShowsAt key s → ∃ k, m.known[k.id]? = some k ∧ m.instanceKey k = key

def TellApart (instances : List Instance) : Prop :=
  ∀ i ∈ instances, ∀ j ∈ instances, i.id = j.id → i.origin = j.origin

structure Records (i : Instance) (m m' : GatewayMetrics) : Prop where
  labelPrefix : m'.labelPrefix = m.labelPrefix
  known : m'.known = m.known.insertIfNew i.id i
  shown : ∀ key s, m'.ShowsAt key s → key = m.instanceKey i ∨ m.ShowsAt key s

variable {instances : List Instance} {m m' : GatewayMetrics}

theorem instanceKey_of_labelPrefix (same : m'.labelPrefix = m.labelPrefix) (i : Instance) :
    m'.instanceKey i = m.instanceKey i := by
  rw [instanceKey, instanceKey, ownLabels, ownLabels, same]

theorem records_recordFailure (sound : m.Sound) (i : Instance) :
    Records i m (m.recordFailure i) :=
  ⟨rfl, rfl, fun _ _ => showsAt_recordFailure sound⟩

theorem records_observeLatency (sound : m.Sound) (i : Instance) (seconds : Double) :
    m.observeLatency i seconds = m ∨ Records i m (m.observeLatency i seconds) := by
  have shown : ∀ key s, (m.observeLatency i seconds).ShowsAt key s → _ :=
    fun key s => showsAt_observeLatency sound
  unfold observeLatency at shown ⊢
  cases here : m.latency with
  | none => exact Or.inl rfl
  | some v =>
    rw [here] at shown
    exact Or.inr ⟨rfl, rfl, shown⟩

theorem known_records {i k : Instance} {id : String} (recorded : Records i m m')
    (here : m'.known[id]? = some k) : i.id = id ∧ k = i ∨ m.known[id]? = some k := by
  rw [recorded.known, Std.ExtTreeMap.getElem?_insertIfNew] at here
  split at here
  · rename_i fresh
    exact Or.inl ⟨Std.compare_eq_iff_eq.1 fresh.1, (Option.some.inj here).symm⟩
  · exact Or.inr here

theorem Keeps.records (keeps : m.Keeps instances) {i : Instance} (among : i ∈ instances)
    (recorded : Records i m m') : m'.Keeps instances := by
  constructor
  · intro id k here
    rcases known_records recorded here with ⟨own, rfl⟩ | before
    · exact ⟨own, among⟩
    · exact keeps.known id k before
  · intro key s shown
    rw [funext (instanceKey_of_labelPrefix recorded.labelPrefix)]
    rcases recorded.shown key s shown with rfl | before
    · exact ⟨i, among, rfl⟩
    · exact keeps.shown key s before

theorem Keeps.deregister (used : m.InUse) (keeps : m.Keeps instances) (i : Instance) :
    (m.deregister i).Keeps instances := by
  constructor
  · intro id k here
    have erased : (m.known.erase i.id)[id]? = some k := here
    rw [Std.ExtTreeMap.getElem?_erase] at erased
    split at erased
    · cases erased
    · exact keeps.known id k erased
  · intro key s shown
    exact keeps.shown key s ((showsAt_deregister used.sound i).1 shown).1

theorem Keeps.foldl_deregister (gone : List Instance) (used : m.InUse) (keeps : m.Keeps instances) :
    (gone.foldl GatewayMetrics.deregister m).Keeps instances := by
  induction gone generalizing m with
  | nil => exact keeps
  | cons i gone ih => exact ih (used.deregister i) (keeps.deregister used i)

theorem Keeps.apply (used : m.InUse) (keeps : m.Keeps instances) (call : Call)
    (about : call.about ⊆ instances) : (call.apply m).Keeps instances := by
  cases call with
  | failure i =>
    exact keeps.records (about List.mem_cons_self) (records_recordFailure used.sound i)
  | latency i seconds =>
    rcases records_observeLatency used.sound i seconds with same | recorded
    · rw [Call.apply, same]
      exact keeps
    · exact keeps.records (about List.mem_cons_self) recorded
  | deregister i => exact keeps.deregister used i
  | retain current => exact keeps.foldl_deregister _ used

section Apart

variable (apart : TellApart instances)

include apart

theorem instanceKey_eq_of_id {i k : Instance} (left : k ∈ instances) (right : i ∈ instances)
    (same : k.id = i.id) : m.instanceKey k = m.instanceKey i := by
  rw [instanceKey, instanceKey, ownLabels, ownLabels, apart k left i right same]

theorem Tracked.records (keeps : m.Keeps instances) (tracked : m.Tracked) {i : Instance}
    (among : i ∈ instances) (recorded : Records i m m') : m'.Tracked := by
  intro key s shown
  rw [funext (instanceKey_of_labelPrefix recorded.labelPrefix), recorded.known]
  have kept : ∀ {id : String} {k : Instance}, m.known[id]? = some k → (m.known.insertIfNew i.id i)[id]? = some k := by
    intro id k here
    have listed : id ∈ m.known := Std.ExtTreeMap.mem_iff_isSome_getElem?.2 (by simp [here])
    rw [Std.ExtTreeMap.getElem?_insertIfNew, if_neg, here]
    rintro ⟨same, missing⟩
    rw [Std.compare_eq_iff_eq.1 same] at missing
    exact missing listed
  rcases recorded.shown key s shown with rfl | before
  · cases here : m.known[i.id]? with
    | none =>
      have fresh : i.id ∉ m.known := fun listed => by
        simp [Std.ExtTreeMap.mem_iff_isSome_getElem?, here] at listed
      refine ⟨i, ?_, rfl⟩
      rw [Std.ExtTreeMap.getElem?_insertIfNew, if_pos ⟨Std.compare_eq_iff_eq.2 rfl, fresh⟩]
    | some k =>
      -- Who is remembered under the id has the origin of who is recorded.
      obtain ⟨own, within⟩ := keeps.known i.id k here
      refine ⟨k, ?_, instanceKey_eq_of_id apart within among own⟩
      rw [own]
      exact kept here
  · obtain ⟨k, here, own⟩ := tracked key s before
    exact ⟨k, kept here, own⟩

theorem Tracked.deregister (used : m.InUse) (keeps : m.Keeps instances) (tracked : m.Tracked)
    {i : Instance} (among : i ∈ instances) : (m.deregister i).Tracked := by
  intro key s shown
  obtain ⟨before, other⟩ := (showsAt_deregister used.sound i).1 shown
  obtain ⟨k, here, own⟩ := tracked key s before
  have differ : k.id ≠ i.id := fun same =>
    other ((instanceKey_eq_of_id apart (keeps.known _ k here).2 among same).symm.trans own)
  refine ⟨k, ?_, own⟩
  have erased : (m.known.erase i.id)[k.id]? = some k := by
    rw [Std.ExtTreeMap.getElem?_erase, if_neg, here]
    exact fun same => differ (Std.compare_eq_iff_eq.1 same).symm
  exact erased

theorem Tracked.foldl_deregister {gone : List Instance} (among : gone ⊆ instances)
    (used : m.InUse) (keeps : m.Keeps instances) (tracked : m.Tracked) :
    (gone.foldl GatewayMetrics.deregister m).Tracked := by
  induction gone generalizing m with
  | nil => exact tracked
  | cons i gone ih =>
    obtain ⟨here, later⟩ := List.cons_subset.1 among
    exact ih later (used.deregister i) (keeps.deregister used i)
      (tracked.deregister apart used keeps here)

end Apart

theorem mem_vanished {current : List Instance} {k : Instance} : k ∈ m.vanished current ↔
    (∃ id : String, m.known[id]? = some k) ∧ ∀ c ∈ current, c.id ≠ k.id := by
  simp [vanished, mem_values]

theorem Tracked.apply (apart : TellApart instances) (used : m.InUse) (keeps : m.Keeps instances)
    (tracked : m.Tracked) (call : Call) (about : call.about ⊆ instances) :
    (call.apply m).Tracked := by
  cases call with
  | failure i =>
    exact tracked.records apart keeps (about List.mem_cons_self)
      (records_recordFailure used.sound i)
  | latency i seconds =>
    rcases records_observeLatency used.sound i seconds with same | recorded
    · rw [Call.apply, same]
      exact tracked
    · exact tracked.records apart keeps (about List.mem_cons_self) recorded
  | deregister i => exact tracked.deregister apart used keeps (about List.mem_cons_self)
  | retain current =>
    refine tracked.foldl_deregister apart (fun k gone => ?_) used keeps
    obtain ⟨⟨id, here⟩, _⟩ := mem_vanished.1 gone
    exact (keeps.known id k here).2

theorem foldl_apply {calls : List Call} (used : m.InUse) (keeps : m.Keeps instances)
    (about : calls.flatMap Call.about ⊆ instances) :
    (calls.foldl Call.apply m).Keeps instances ∧
      (TellApart instances → m.Tracked → (calls.foldl Call.apply m).Tracked) := by
  induction calls generalizing m with
  | nil => exact ⟨keeps, fun _ tracked => tracked⟩
  | cons call calls ih =>
    rw [List.flatMap_cons, List.append_subset] at about
    obtain ⟨kept, tracks⟩ := ih (used.apply call) (keeps.apply used call about.1) about.2
    exact ⟨kept, fun apart tracked => tracks apart (tracked.apply apart used keeps call about.1)⟩

section Created

variable {labelPrefix : Option String} {latency : Bool} {m₀ : GatewayMetrics}
  (made : create? labelPrefix latency = .ok m₀)

include made

theorem children_create : m₀.failures.children = ∅ ∧
    (∀ v, m₀.latency = some v → v.children = ∅) ∧ m₀.known = ∅ := by
  simp only [create?, bind, Except.bind] at made
  split at made
  · cases made
  rename_i failures madeFailures
  split at made
  · cases made
  rename_i latencies madeLatencies
  iterate 4
    split at made
    · cases made
  cases made
  refine ⟨MetricVector.children_create? madeFailures, fun v same => ?_, rfl⟩
  cases latency with
  | false => cases same
  | true =>
    cases same
    exact MetricVector.children_create? madeLatencies

theorem showsAt_create (key : List String) (s : Sample) : ¬ m₀.ShowsAt key s := by
  obtain ⟨failures, latency, _⟩ := children_create made
  rintro (⟨child, here, _⟩ | ⟨v, same, child, here, _⟩)
  · rw [failures] at here
    simp at here
  · rw [latency v same] at here
    simp at here

theorem failureCount_create (values : List String) : m₀.failureCount values = 0 := by
  obtain ⟨failures, _, _⟩ := children_create made
  simp [failureCount, MetricVector.child?, failures]

end Created

theorem exists_shown_of_failure (used : m.InUse) {i : Instance}
    (once : m.failureCount (valuesOf i) = 1) :
    ∃ s : Sample, s.PerInstance ∧ m.ShowsAt (m.instanceKey i) s := by
  have child : m.failures.children[m.instanceKey i]? = some 1 := by
    rw [failureCount, MetricVector.child?, keyOf_failures used.sound] at once
    cases here : m.failures.children[m.instanceKey i]? with
    | none => simp [here] at once
    | some n => simpa [here] using once
  obtain ⟨s, marked, name, _, _⟩ := RequestMetrics.exists_marked (m.failures.name ++ "")
    ((keyNames m.failures.labelNames).zip (m.instanceKey i) ++ [])
    (RequestMetrics.reread_indicator true)
  have value : RequestMetrics.indicator true = .ofNat 1 := by
    rw [RequestMetrics.indicator, if_pos rfl]
  rw [value] at marked
  have point : ({ value := .ofNat 1 } : Point) ∈ countPoint 1 := List.mem_cons_self
  refine ⟨s, ⟨m.failures.name, ?_, ?_⟩, Or.inl ⟨1, child, _, point, ?_⟩⟩
  · simp [used.sound.failures.name_eq, instanceNames]
  · simp [name]
  · dsimp only
    exact marked

theorem spared_iff (used : m.InUse) (keeps : m.Keeps instances) {current : List Instance}
    {i : Instance} : (∀ k ∈ m.vanished current, m.instanceKey k ≠ m.instanceKey i) ↔
      (∃ c ∈ current, c.id = i.id) ∨ ∀ k, m.known[i.id]? = some k → k.origin ≠ i.origin := by
  constructor
  · intro spared
    by_cases among : ∃ c ∈ current, c.id = i.id
    · exact Or.inl among
    · refine Or.inr fun k here same => ?_
      have own := (keeps.known i.id k here).1
      have gone : k ∈ m.vanished current :=
        mem_vanished.2 ⟨⟨i.id, here⟩, fun c member equal => among ⟨c, member, equal.trans own⟩⟩
      exact spared k gone ((instanceKey_eq_iff used.sound).2 same)
  · intro spared k gone same
    obtain ⟨⟨id, here⟩, vanished⟩ := mem_vanished.1 gone
    have origins := (instanceKey_eq_iff used.sound).1 same
    have ids : k.id = i.id := congrArg Origin.instanceId origins
    rcases spared with ⟨c, member, own⟩ | others
    · exact vanished c member (own.trans ids.symm)
    · rw [← (keeps.known id k here).1, ids] at here
      exact others k here origins

/-- Retaining leaves no sample of an instance that is not current, except under an id that is
    current or is remembered for another origin. Where ids tell the instances apart, it leaves
    those of current instances only. -/
theorem left_behind_iff {labelPrefix : Option String} {latency : Bool} {m₀ : GatewayMetrics}
    (made : create? labelPrefix latency = .ok m₀) (calls : List Call) (current : List Instance) :
    let m := calls.foldl Call.apply m₀
    (∀ s : Sample, s.PerInstance → (s ∈ samplesIn (m.retain current).render ↔
      s ∈ samplesIn m.render ∧ ∃ i ∈ calls.flatMap Call.about, m.ownLabels i ⊆ s.labels ∧
        ((∃ c ∈ current, c.id = i.id) ∨ ∀ k, m.known[i.id]? = some k → k.origin ≠ i.origin))) ∧
    (TellApart (current ++ calls.flatMap Call.about) →
      ∀ s ∈ samplesIn (m.retain current).render, s.PerInstance →
        ∃ c ∈ current, m.ownLabels c ⊆ s.labels) := by
  intro m
  have fresh : m₀.Keeps (calls.flatMap Call.about) := by
    refine ⟨fun id k here => ?_, fun key s shown => absurd shown (showsAt_create made key s)⟩
    rw [(children_create made).2.2] at here
    simp at here
  have blank : m₀.Tracked := fun key s shown => absurd shown (showsAt_create made key s)
  obtain ⟨keeps, tracks⟩ := foldl_apply (.create made) fresh (List.Subset.refl _)
  have used : m.InUse := InUse.foldl (fun _ call used => used.apply call) calls (.create made)
  have after := used.retain current
  have retained : ∀ key s, (m.retain current).ShowsAt key s ↔ _ :=
    fun _ _ => showsAt_foldl_deregister (m.vanished current) used
  constructor
  · intro s own
    rw [mem_samplesIn_render after.sound own, mem_samplesIn_render used.sound own]
    constructor
    · rintro ⟨key, shown⟩
      obtain ⟨before, spared⟩ := (retained key s).1 shown
      obtain ⟨i, among, rfl⟩ := keeps.shown key s before
      exact ⟨⟨_, before⟩, i, among, labels_of_showsAt used.sound before,
        (spared_iff used keeps).1 spared⟩
    · rintro ⟨⟨key, before⟩, i, _, labels, spared⟩
      have same := key_of_showsAt used.sound before labels
      subst same
      exact ⟨_, (retained _ s).2 ⟨before, (spared_iff used keeps).2 spared⟩⟩
  · intro apart s member own
    obtain ⟨key, shown⟩ := (mem_samplesIn_render after.sound own).1 member
    obtain ⟨before, spared⟩ := (retained key s).1 shown
    have apart' : TellApart (calls.flatMap Call.about) := fun i left j right =>
      apart i (List.mem_append_right _ left) j (List.mem_append_right _ right)
    obtain ⟨k, here, rfl⟩ := tracks apart' blank key s before
    have within := (keeps.known _ k here).2
    rcases (spared_iff used keeps).1 spared with ⟨c, among, same⟩ | others
    · have origins := apart c (List.mem_append_left _ among) k (List.mem_append_right _ within) same
      refine ⟨c, among, ?_⟩
      rw [ownLabels, origins]
      exact labels_of_showsAt used.sound before
    · exact absurd rfl (others k here)

def instanceIn (org id : String) : Instance where
  org := org
  space := "space"
  app := "app"
  appId := "app"
  path := "/metrics"
  protocol := "http"
  id := id
  url := "http://app.example/metrics"
  credentials := none

theorem vanished_leaves_nothing : ∃ m₀, create? none true = .ok m₀ ∧
    let first := instanceIn "org" "app:0"
    let second := instanceIn "org" "app:1"
    let calls : List Call := [.failure first, .failure second, .latency second (.ofNat 1)]
    TellApart ([first] ++ calls.flatMap Call.about) ∧
      ∀ s ∈ samplesIn ((calls.foldl Call.apply m₀).retain [first]).render, s.PerInstance →
        (calls.foldl Call.apply m₀).ownLabels first ⊆ s.labels := by
  obtain ⟨m₀, made⟩ : ∃ m₀, create? none true = .ok m₀ := ⟨_, rfl⟩
  have apart : TellApart [instanceIn "org" "app:0", instanceIn "org" "app:0",
      instanceIn "org" "app:1", instanceIn "org" "app:1"] := by
    unfold TellApart
    decide
  refine ⟨m₀, made, apart, fun s member own => ?_⟩
  obtain ⟨c, among, labels⟩ := (left_behind_iff made _ _).2 apart s member own
  rwa [List.mem_singleton.1 among] at labels

/-- Instances of two organizations under one id: the second one's counter is left, although none of
    the two is current. -/
theorem same_id_left_behind : ∃ (labelPrefix : Option String) (latency : Bool) (m₀ : GatewayMetrics)
    (calls : List Call) (current : List Instance) (s : Sample),
    create? labelPrefix latency = .ok m₀ ∧
      s ∈ samplesIn ((calls.foldl Call.apply m₀).retain current).render ∧ s.PerInstance ∧
        ∀ c ∈ current, ¬ (calls.foldl Call.apply m₀).ownLabels c ⊆ s.labels := by
  obtain ⟨m₀, made⟩ : ∃ m₀, create? none false = .ok m₀ := ⟨_, rfl⟩
  let first := instanceIn "org" "app:0"
  let second := instanceIn "other" "app:0"
  let m := (m₀.recordFailure first).recordFailure second
  have used : m.InUse := ((InUse.create made).recordFailure first).recordFailure second
  have once : m.failureCount (valuesOf second) = 1 := by
    have start : m₀.Labelled := (InUse.create made).labelled
    have full : (valuesOf second).length = originLabelNames.length := rfl
    have counted := failureCount_recordFailure (labelled_recordFailure start first) second full
    rw [failureCount_recordFailure start first full, failureCount_create made] at counted
    exact counted.trans (by decide)
  obtain ⟨s, own, shown⟩ := exists_shown_of_failure used once
  refine ⟨none, false, m₀, [.failure first, .failure second], [], s, made, ?_, own, by simp⟩
  refine (mem_samplesIn_render (used.retain []).sound own).2 ⟨m.instanceKey second, ?_⟩
  refine (showsAt_foldl_deregister (m.vanished []) used).2 ⟨shown, fun k gone same => ?_⟩
  -- The first one is remembered under the id of both, and only its child is removed.
  obtain ⟨⟨id, here⟩, _⟩ := mem_vanished.1 gone
  have known : m.known = (m₀.known.insertIfNew "app:0" first).insertIfNew "app:0" second := rfl
  have origins := (instanceKey_eq_iff used.sound).1 same
  have remembered : k = first := by
    rw [known, (children_create made).2.2] at here
    have both : compare "app:0" id = .eq ∧ first = k := by
      simpa [Std.ExtTreeMap.getElem?_insertIfNew] using here
    exact both.2.symm
  rw [remembered] at origins
  exact absurd origins (by decide)

end GatewayMetrics
end MetricGateway
