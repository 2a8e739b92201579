import MetricGateway.Proofs.Metrics.History
import MetricGateway.Proofs.Metrics.Points

/- The counters and histograms that are kept of instances have exactly what has been recorded of them
   since they were taken away last, and what is read of the rendered document has nothing else. -/
namespace MetricGateway
namespace GatewayMetrics

def failuresName : String := metricName "fetcher_failed_requests_total"

def latencyName : String := metricName "fetcher_latency_seconds"

section Found

variable {m : GatewayMetrics} {s : Sample}

/-- What is read of the rendered document under a name and, perhaps among others, some labels. -/
def found (m : GatewayMetrics) (name : String) (labels : List (String × String)) : List Sample :=
  (readSamples m.render).filter fun s => s.name = name ∧ labels ⊆ s.labels

theorem once_render (sound : m.Sound) : NoRepeats (samplesIn m.render) := by
  have apart := (List.pairwise_append.1 unrelated_names).2.1.sublist sound.sublist
  exact (OwnText.marked sound.own apart).once

theorem unrelated_own : Unrelated failuresName latencyName := by
  have rests : Unrelated "fetcher_failed_requests_total" "fetcher_latency_seconds" := by decide
  unfold Unrelated failuresName latencyName
  rw [toList_metricName, toList_metricName, List.prefix_append_right_inj,
    List.prefix_append_right_inj]
  exact rests

theorem mem_failures (sound : m.Sound) (name : s.name = failuresName) :
    s ∈ samplesIn m.render ↔ ∃ key, m.failures.ShowsAt countPoint key s := by
  have own : s.PerInstance := ⟨failuresName, List.mem_cons_self, name ▸ List.prefix_rfl⟩
  rw [mem_samplesIn_render sound own]
  constructor
  · intro shown
    obtain ⟨key, shown | ⟨v, here, shown⟩⟩ := shown
    · exact ⟨key, shown⟩
    · obtain ⟨suffix, other⟩ := MetricVector.name_of_showsAt shown
      rw [(sound.latency v here).name_eq] at other
      have behind : latencyName.toList <+: s.name.toList :=
        ⟨suffix.toList, by rw [other, String.toList_append]; rfl⟩
      exact absurd name.symm (unrelated_own.ne List.prefix_rfl behind)
  · intro shown
    obtain ⟨key, shown⟩ := shown
    exact ⟨key, Or.inl shown⟩

theorem mem_latency (sound : m.Sound) {v : MetricVector Latencies} (here : m.latency = some v)
    {suffix : String} (name : s.name = latencyName ++ suffix) :
    s ∈ samplesIn m.render ↔ ∃ key, v.ShowsAt Latencies.points key s := by
  have behind : latencyName.toList <+: s.name.toList :=
    ⟨suffix.toList, by rw [name, String.toList_append]⟩
  have own : s.PerInstance := ⟨latencyName, List.mem_cons_of_mem _ List.mem_cons_self, behind⟩
  rw [mem_samplesIn_render sound own]
  constructor
  · intro shown
    obtain ⟨key, shown | ⟨w, same, shown⟩⟩ := shown
    · obtain ⟨rest, other⟩ := MetricVector.name_of_showsAt shown
      rw [sound.failures.name_eq] at other
      have before : failuresName.toList <+: s.name.toList :=
        ⟨rest.toList, by rw [other, String.toList_append]; rfl⟩
      exact absurd rfl (unrelated_own.ne before behind)
    · cases here.symm.trans same
      exact ⟨key, shown⟩
  · intro shown
    obtain ⟨key, shown⟩ := shown
    exact ⟨key, Or.inr ⟨v, here, shown⟩⟩

theorem found_failures (sound : m.Sound) (i : Instance)
    (word : ∀ n, m.failures.child? (valuesOf i) = some n → n < 2 ^ 64) :
    m.found failuresName (m.ownLabels i) = ((m.failures.child? (valuesOf i)).map fun n =>
      (⟨failuresName, sortedLabels (m.ownLabels i) ++ Labelling.gateway.labels, .ofNat n⟩ :
        Sample)).toList := by
  have point : ∀ (n : Nat) (p : Point), p ∈ countPoint n ∧ p.suffix = "" ∧ [] ⊆ p.labels ↔
      p = ⟨"", [], .ofNat n⟩ := by
    intro n p
    simp only [countPoint, List.mem_singleton]
    constructor
    · exact fun found => found.1
    · intro same
      subst same
      exact ⟨rfl, rfl, List.nil_subset _⟩
  refine filter_of_noRepeats (once_render sound).read fun s => ?_
  have shown := MetricVector.shown_iff_count (s := s) sound.failures (vectorLabels_own sound.labels)
    (fun _ => pointsFit_value _) (length_valuesOf i m.labelPrefix) (by simp) point word
  rw [String.append_empty, List.append_nil, List.append_nil] at shown
  rw [mem_readSamples, decide_eq_true_eq]
  constructor
  · intro read
    obtain ⟨member, name, labels⟩ := read
    exact shown.1 ⟨(mem_failures sound name).1 member, name, labels⟩
  · intro same
    obtain ⟨member, name, labels⟩ := shown.2 same
    exact ⟨(mem_failures sound name).2 member, name, labels⟩

theorem found_latency (sound : m.Sound) {v : MetricVector Latencies} (here : m.latency = some v)
    (i : Instance) (suffix : String) (more : List (String × String)) {count : Latencies → Nat}
    (bound : ∀ label ∈ more, label.1 = "le")
    (point : ∀ (observed : Latencies) p, p ∈ observed.points ∧ p.suffix = suffix ∧ more ⊆ p.labels ↔
      p = ⟨suffix, more, .ofNat (count observed)⟩)
    (word : ∀ observed, v.child? (valuesOf i) = some observed → count observed < 2 ^ 64) :
    m.found (latencyName ++ suffix) (m.ownLabels i ++ more) =
      ((v.child? (valuesOf i)).map fun observed =>
        (⟨latencyName ++ suffix, sortedLabels (m.ownLabels i) ++ more ++ Labelling.gateway.labels,
          .ofNat (count observed)⟩ : Sample)).toList := by
  refine filter_of_noRepeats (once_render sound).read fun s => ?_
  have shown := MetricVector.shown_iff_count (s := s) (sound.latency v here)
    (vectorLabels_own sound.labels) pointsFit_latencies (length_valuesOf i m.labelPrefix) bound
    point word
  rw [mem_readSamples, decide_eq_true_eq]
  constructor
  · intro read
    obtain ⟨member, name, labels⟩ := read
    exact shown.1 ⟨(mem_latency sound here name).1 member, name, labels⟩
  · intro same
    obtain ⟨member, name, labels⟩ := shown.2 same
    exact ⟨(mem_latency sound here name).2 member, name, labels⟩

end Found

section Exact

variable {labelPrefix : Option String} {latency : Bool} {m m₀ : GatewayMetrics}

theorem kind_create (made : create? labelPrefix latency = .ok m₀) :
    m₀.labelPrefix = labelPrefix.filter (· != "") ∧ m₀.latency.isSome = latency := by
  simp only [create?, bind, Except.bind] at made
  iterate 6
    split at made
    · cases made
  cases made
  cases latency with
  | false => exact ⟨rfl, rfl⟩
  | true => exact ⟨rfl, rfl⟩

theorem kind_deregister (gone : List Instance) (m : GatewayMetrics) :
    (gone.foldl deregister m).labelPrefix = m.labelPrefix ∧
      (gone.foldl deregister m).latency.isSome = m.latency.isSome := by
  induction gone generalizing m with
  | nil => exact ⟨rfl, rfl⟩
  | cons i gone ih =>
    obtain ⟨same, kept⟩ := ih (m.deregister i)
    exact ⟨same, kept.trans Option.isSome_map⟩

theorem kind_apply (m : GatewayMetrics) (call : Call) :
    (call.apply m).labelPrefix = m.labelPrefix ∧
      (call.apply m).latency.isSome = m.latency.isSome := by
  cases call with
  | failure i => exact ⟨rfl, rfl⟩
  | latency i seconds =>
    unfold Call.apply observeLatency
    cases here : m.latency with
    | none => simp [here]
    | some v => exact ⟨rfl, rfl⟩
  | deregister i => exact ⟨rfl, Option.isSome_map⟩
  | retain current => exact kind_deregister (m.vanished current) m

theorem kind_foldl_apply (calls : List Call) (m : GatewayMetrics) :
    (calls.foldl Call.apply m).labelPrefix = m.labelPrefix ∧
      (calls.foldl Call.apply m).latency.isSome = m.latency.isSome := by
  induction calls generalizing m with
  | nil => exact ⟨rfl, rfl⟩
  | cons call calls ih =>
    obtain ⟨same, kept⟩ := ih (call.apply m)
    obtain ⟨first, second⟩ := kind_apply m call
    exact ⟨same.trans first, kept.trans second⟩

/-- A count with the labels that it is kept under, a bound perhaps, and the mark at the end. -/
def countSample (name : String) (labels more : List (String × String)) (n : Nat) : Sample where
  name
  labels := sortedLabels labels ++ more ++ [("herakles_gateway", "true")]
  value := .ofNat n

/-- What is read of the latencies that are kept under some labels: their number once, the same in the
    last bucket, and in no bucket less than in those below. -/
structure ShowsLatencies (m : GatewayMetrics) (labels : List (String × String))
    (observed : Latencies) : Prop where
  count : m.found (latencyName ++ "_count") labels =
    if observed = [] then [] else [countSample (latencyName ++ "_count") labels [] observed.length]
  buckets : ∀ edge ∈ Latencies.edges, m.found (latencyName ++ "_bucket") (labels ++ [("le", edge)]) =
    if observed = [] then []
    else [countSample (latencyName ++ "_bucket") labels [("le", edge)] (observed.bucket edge)]
  last : observed.bucket "+Inf" = observed.length
  ascending : Latencies.edges.Pairwise fun a b =>
    (Double.ofNat (observed.bucket a)).le (.ofNat (observed.bucket b)) = true

theorem shows_failures (sound : m.Sound) (i : Instance) {n : Nat} (word : n < 2 ^ 64)
    (child : m.failures.child? (valuesOf i) = if n = 0 then none else some n) :
    m.found failuresName (m.ownLabels i) =
      if n = 0 then [] else [countSample failuresName (m.ownLabels i) [] n] := by
  have known : ∀ kept, m.failures.child? (valuesOf i) = some kept → kept < 2 ^ 64 := by
    intro kept same
    rw [child] at same
    split at same
    · cases same
    · cases same
      exact word
  rw [found_failures sound i known, child]
  split
  · rfl
  · rw [countSample, List.append_nil]
    rfl

theorem bucket_le_length (observed : Latencies) (edge : String) :
    observed.bucket edge ≤ observed.length := by
  unfold Latencies.bucket
  split
  · exact Nat.le_refl _
  · exact observed.countUpTo_le_length edge

theorem shows_latencies (sound : m.Sound) {v : MetricVector Latencies} (here : m.latency = some v)
    (i : Instance) {observed : Latencies} (word : observed.length < 2 ^ 64)
    (child : v.child? (valuesOf i) = if observed = [] then none else some observed) :
    m.ShowsLatencies (m.ownLabels i) observed := by
  have known : ∀ kept, v.child? (valuesOf i) = some kept → kept = observed := by
    intro kept same
    rw [child] at same
    split at same
    · cases same
    · exact (Option.some.inj same).symm
  constructor
  · have found := found_latency sound here i "_count" [] (by simp)
      (fun kept p => by simpa using kept.count_point)
      (fun kept same => known kept same ▸ word)
    rw [List.append_nil, child] at found
    rw [found]
    split
    · rfl
    · rfl
  · intro edge member
    have found := found_latency sound here i "_bucket" [("le", edge)] (by simp)
      (fun kept p => kept.bucket_point member)
      (fun kept same => Nat.lt_of_le_of_lt (bucket_le_length kept edge) (known kept same ▸ word))
    rw [found, child]
    split
    · rfl
    · rfl
  · exact if_pos rfl
  · exact observed.ascending_buckets.imp Double.ofNat_mono

theorem labels_of_shown (sound : m.Sound) {i : Instance} {s : Sample}
    (shown : m.ShowsAt (m.instanceKey i) s) : ∃ more : List (String × String),
      (∀ label ∈ more, label.1 = "le") ∧
        s.labels = sortedLabels (m.ownLabels i) ++ more ++ [("herakles_gateway", "true")] := by
  have full := length_valuesOf i m.labelPrefix
  have place : m.instanceKey i = childKey ((ownLabelNames m.labelPrefix).zip (valuesOf i)) := rfl
  rcases shown with ⟨child, _, p, own, shown⟩ | ⟨v, here, child, _, p, own, shown⟩
  · rw [sound.failures.labelNames_eq, place, zip_childKey full] at shown
    exact ⟨p.labels, (pointsFit_value _).labels p own, (Sample.of_marked shown).2⟩
  · rw [(sound.latency v here).labelNames_eq, place, zip_childKey full] at shown
    exact ⟨p.labels, (pointsFit_latencies child).labels p own, (Sample.of_marked shown).2⟩

/-- Whatever has been recorded and taken away, with fewer calls than a word can count: the document
    has for an instance's label values one counter, if a failure was recorded under them since they
    were taken away last, with the number of such failures; and so for the latencies, if they are
    kept. No other sample of the kind is there. -/
theorem counts_exact (made : create? labelPrefix latency = .ok m₀) {calls : List Call}
    (few : calls.length < 2 ^ 64) :
    let m := calls.foldl Call.apply m₀
    let labels := fun i : Instance => (Labelling.ownMetrics labelPrefix i.origin).labels
    let failed := fun i => failuresOf (valuesOf i) (lasting (valuesOf i) m₀ [] calls)
    let observed := fun i => latenciesOf (valuesOf i) (lasting (valuesOf i) m₀ [] calls)
    (∀ i, m.found failuresName (labels i) =
      if failed i = 0 then [] else [countSample failuresName (labels i) [] (failed i)]) ∧
    (latency = true → ∀ i, m.ShowsLatencies (labels i) (observed i)) ∧
    ∀ s ∈ readSamples m.render, s.PerInstance → ∃ i ∈ calls.flatMap Call.about,
      ∃ more : List (String × String), (∀ label ∈ more, label.1 = "le") ∧
        s.labels = sortedLabels (labels i) ++ more ++ [("herakles_gateway", "true")] := by
  intro m labels failed observed
  have used : m.InUse := InUse.foldl (fun _ call used => used.apply call) calls (.create made)
  have sound := used.sound
  obtain ⟨labelled, kind⟩ := kind_foldl_apply calls m₀
  obtain ⟨given, kept⟩ := kind_create made
  have own : ∀ i, m.ownLabels i = labels i := by
    intro i
    rw [ownLabels, labelled, given]
    rfl
  have tallies : ∀ i, Tallies (valuesOf i) (lasting (valuesOf i) m₀ [] calls) m := fun i =>
    (tallies_create made (valuesOf i)).foldl_apply (.create made) rfl calls
  have short : ∀ i, (lasting (valuesOf i) m₀ [] calls).length < 2 ^ 64 := by
    intro i
    have bound := length_lasting (valuesOf i) m₀ [] calls
    rw [List.length_nil] at bound
    omega
  refine ⟨fun i => ?_, fun on i => ?_, fun s read own_name => ?_⟩
  · have word : failed i < 2 ^ 64 := Nat.lt_of_le_of_lt List.countP_le_length (short i)
    rw [← own]
    exact shows_failures sound i word (tallies i).failures
  · have there : m.latency.isSome = true := (kind.trans kept).trans on
    obtain ⟨v, here⟩ := Option.isSome_iff_exists.1 there
    have word : (observed i).length < 2 ^ 64 :=
      Nat.lt_of_le_of_lt (List.length_filterMap_le _ _) (short i)
    rw [← own]
    exact shows_latencies sound here i word ((tallies i).latency v here)
  · have fresh : m₀.Keeps (calls.flatMap Call.about) := by
      refine ⟨fun id k here => ?_, fun key s shown => absurd shown (showsAt_create made key s)⟩
      rw [(children_create made).2.2] at here
      simp at here
    obtain ⟨keeps, _⟩ := foldl_apply (.create made) fresh (List.Subset.refl _)
    obtain ⟨key, shown⟩ := (mem_samplesIn_render sound own_name).1 (mem_readSamples.1 read)
    obtain ⟨i, among, rfl⟩ := keeps.shown key s shown
    exact ⟨i, among, own i ▸ labels_of_shown sound shown⟩

/-- An instance under whose names a document could be broken up. -/
def quoted : Instance := instanceIn "\"\n\\" "a:b,c=\"x\x7d 1\n:0"

theorem quoted_failures_counted :
    let other := instanceIn "org" "app:1"
    let calls : List Call := [.failure quoted, .deregister quoted, .failure quoted, .failure other,
      .latency quoted (.ofNat 1), .failure quoted, .retain [quoted]]
    let labels := (Labelling.ownMetrics (some "own") quoted.origin).labels
    ∃ m₀, create? (some "own") true = .ok m₀ ∧ calls.length < 2 ^ 64 ∧
      (calls.foldl Call.apply m₀).found failuresName labels =
        [countSample failuresName labels [] 2] := by
  intro other calls labels
  have counted : (create? (some "own") true).toOption.map (fun m₀ =>
      failuresOf (valuesOf quoted) (lasting (valuesOf quoted) m₀ [] calls)) = some 2 := by
    decide +kernel
  obtain ⟨m₀, made⟩ : ∃ m₀, create? (some "own") true = .ok m₀ := ⟨_, rfl⟩
  have two : failuresOf (valuesOf quoted) (lasting (valuesOf quoted) m₀ [] calls) = 2 := by
    rw [made] at counted
    exact Option.some.inj counted
  have few : calls.length < 2 ^ 64 := by decide
  have shown := (counts_exact made few).1 quoted
  simp only [two] at shown
  exact ⟨m₀, made, few, shown.trans (if_neg (by decide))⟩

end Exact

end GatewayMetrics
end MetricGateway
