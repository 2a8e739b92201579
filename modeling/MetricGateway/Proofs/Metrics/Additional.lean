import MetricGateway.Proofs.Metrics.Failures
import MetricGateway.Proofs.Metrics.Vectors

/- The text that the gateway puts behind a scraped document: the metrics of the request and of all
   its work. It declares each name once and repeats no series, and all its names begin as the
   gateway's own do. -/
namespace MetricGateway

/-- A text all of whose names begin with some of the given ones. -/
structure OwnText (names : List String) (text : String) : Prop where
  isClosed : Text.IsClosed text
  declared : (declaredIn text).Nodup
  declaredUnder : ∀ name ∈ declaredIn text, ∃ n ∈ names, n.toList <+: name.toList
  once : NoRepeats (samplesIn text)
  samplesUnder : ∀ s ∈ samplesIn text, ∃ n ∈ names, n.toList <+: s.name.toList

theorem Unrelated.ne {m n x y : String} (apart : Unrelated m n) (left : m.toList <+: x.toList)
    (right : n.toList <+: y.toList) : x ≠ y := by
  rintro rfl
  rcases List.prefix_or_prefix_of_prefix left right with within | within
  · exact apart.1 within
  · exact apart.2 within

theorem OwnText.empty : OwnText [] "" where
  isClosed := ⟨[], by simp, rfl⟩
  declared := by decide
  declaredUnder := by
    have nothing : declaredIn "" = [] := rfl
    simp [nothing]
  once := by decide
  samplesUnder := by
    have nothing : samplesIn "" = [] := rfl
    simp [nothing]

theorem OwnText.append {a b : List String} {t u : String} (first : OwnText a t)
    (second : OwnText b u) (apart : (a ++ b).Pairwise Unrelated) : OwnText (a ++ b) (t ++ u) := by
  have across := (List.pairwise_append.1 apart).2.2
  have declared := observed_append declaredName?_blank first.isClosed u
  have samples := observed_append sampleOf?_blank first.isClosed u
  constructor
  · obtain ⟨lines, one, text⟩ := first.isClosed
    obtain ⟨lines', one', text'⟩ := second.isClosed
    refine ⟨lines ++ lines', fun line member => ?_, ?_⟩
    · rcases List.mem_append.1 member with own | later
      · exact one line own
      · exact one' line later
    · rw [String.toList_append, text, text', Text.closed, Text.closed, Text.closed,
        List.flatMap_append]
  · rw [declaredIn, declared, List.nodup_append]
    refine ⟨first.declared, second.declared, fun x left y right => ?_⟩
    obtain ⟨m, own, before⟩ := first.declaredUnder x left
    obtain ⟨n, own', before'⟩ := second.declaredUnder y right
    exact (across m own n own').ne before before'
  · intro name member
    rw [declaredIn, declared] at member
    rcases List.mem_append.1 member with own | later
    · obtain ⟨n, among, before⟩ := first.declaredUnder name own
      exact ⟨n, List.mem_append_left b among, before⟩
    · obtain ⟨n, among, before⟩ := second.declaredUnder name later
      exact ⟨n, List.mem_append_right a among, before⟩
  · rw [NoRepeats, samplesIn, samples, List.pairwise_append]
    refine ⟨first.once, second.once, fun s left s' right same => ?_⟩
    obtain ⟨m, own, before⟩ := first.samplesUnder s left
    obtain ⟨n, own', before'⟩ := second.samplesUnder s' right
    exact (across m own n own').ne before before' same.1
  · intro s member
    rw [samplesIn, samples] at member
    rcases List.mem_append.1 member with own | later
    · obtain ⟨n, among, before⟩ := first.samplesUnder s own
      exact ⟨n, List.mem_append_left b among, before⟩
    · obtain ⟨n, among, before⟩ := second.samplesUnder s later
      exact ⟨n, List.mem_append_right a among, before⟩

theorem Family.Own.prefix_sample {f : Family} (own : f.Own) {s : Sample} (member : s ∈ f.samples) :
    f.name.toList <+: s.name.toList ∧ f.name.toList <+: (baseName s.name).toList := by
  obtain ⟨suffix, ends, same⟩ := own.suffixes s member
  rw [same]
  exact ⟨⟨suffix.toList, String.toList_append.symm⟩, prefix_baseName own.listed ends⟩

theorem OwnText.marked {families : List Family} (own : ∀ f ∈ families, f.Own)
    (apart : (families.map Family.name).Pairwise Unrelated) :
    OwnText (families.map Family.name) (markedDocument families) := by
  have legible : ∀ f ∈ families, f.Legible := fun f member => (own f member).legible
  constructor
  · exact isClosed_markedDocument
  · exact declaredIn_markedDocument_nodup
  · intro name declared
    obtain ⟨f, member, s, inside, rfl | rfl⟩ := sample_of_declared legible declared
    · exact ⟨f.name, List.mem_map_of_mem member, ((own f member).prefix_sample inside).1⟩
    · exact ⟨f.name, List.mem_map_of_mem member, ((own f member).prefix_sample inside).2⟩
  · refine noRepeats_markedDocument legible ?_ fun f member s inside label among =>
      ((own f member).labels s inside label among).2
    rw [NoRepeats, List.pairwise_flatMap]
    refine ⟨fun f member => (own f member).once, ?_⟩
    refine (List.pairwise_map.1 apart).imp_of_mem ?_
    intro f g left right differ s inside t inside' same
    exact differ.ne ((own f left).prefix_sample inside).1
      ((own g right).prefix_sample inside').1 same.1
  · intro s shown
    obtain ⟨f, member, t, inside, marked⟩ := (mem_samplesIn_markedDocument legible).1 shown
    refine ⟨f.name, List.mem_map_of_mem member, ?_⟩
    obtain ⟨u, read, rfl⟩ := Option.map_eq_some_iff.1 marked
    obtain ⟨_, _, rfl⟩ := Option.map_eq_some_iff.1 read
    exact ((own f member).prefix_sample inside).1

section Labels

theorem isLabelName_of {name : String} (proper : isLabelName name = true) :
    IsLabelName name.toList := by
  unfold isLabelName at proper
  cases text : name.toList with
  | nil => simp [text] at proper
  | cons c rest =>
    simp only [text, Bool.and_eq_true, Bool.or_eq_true, beq_iff_eq, List.all_eq_true] at proper
    refine ⟨List.cons_ne_nil c rest, fun d member => ?_⟩
    rcases List.mem_cons.1 member with rfl | later
    · rcases proper.1 with letter | rfl
      · simp [isLabelNameChar, Text.isAlphanumeric, letter]
      · decide
    · rcases proper.2 d later with letter | rfl
      · simp [isLabelNameChar, letter]
      · decide

theorem suffix_of_own {labelPrefix : Option String} {name : String}
    (member : name ∈ ownLabelNames labelPrefix) :
    ∃ origin ∈ originLabelNames, origin.toList <:+ name.toList := by
  cases labelPrefix with
  | none => exact ⟨name, member, List.suffix_rfl⟩
  | some text =>
    obtain ⟨origin, own, rfl⟩ := List.mem_map.1 member
    refine ⟨origin, own, ?_⟩
    rw [String.toList_append]
    exact List.suffix_append _ _

theorem nodup_own (labelPrefix : Option String) : (ownLabelNames labelPrefix).Nodup := by
  have distinct : originLabelNames.Nodup := by decide
  cases labelPrefix with
  | none => exact distinct
  | some text =>
    refine List.pairwise_map.2 (distinct.imp fun differ same => differ ?_)
    have lists := congrArg String.toList same
    simp only [String.toList_append] at lists
    exact String.toList_inj.1 (List.append_cancel_left lists)

theorem vectorLabels_own {labelPrefix : Option String}
    (proper : ∀ name ∈ ownLabelNames labelPrefix, IsLabelName name.toList) :
    VectorLabels (ownLabelNames labelPrefix) := by
  have ends : ∀ origin ∈ originLabelNames, ¬ origin.toList <:+ "le".toList ∧
      ¬ origin.toList <:+ "herakles_gateway".toList := by decide
  refine ⟨nodup_own labelPrefix, fun name member => ⟨proper name member, ?_, ?_⟩⟩
  · rintro rfl
    obtain ⟨origin, own, suffix⟩ := suffix_of_own member
    exact (ends origin own).1 suffix
  · intro marked
    obtain ⟨origin, own, suffix⟩ := suffix_of_own member
    rw [List.mem_singleton.1 marked] at suffix
    exact (ends origin own).2 suffix

theorem vectorLabels_origin : VectorLabels originLabelNames := by
  have proper : (ownLabelNames none).all isLabelName = true := by decide
  exact vectorLabels_own fun name member => isLabelName_of (List.all_eq_true.1 proper name member)

theorem vectorLabels_cache : VectorLabels ["cache_name"] := by
  refine ⟨by decide, fun name member => ?_⟩
  rw [List.mem_singleton.1 member]
  exact ⟨isLabelName_of (by decide), by decide, by decide⟩

end Labels

section Points

theorem pointsFit_value (value : Double) : PointsFit [{ value }] := by
  constructor
  · intro p member
    rw [List.mem_singleton.1 member]
    exact List.mem_cons_self
  · intro p member label inside
    rw [List.mem_singleton.1 member] at inside
    cases inside
  · exact List.pairwise_singleton _ _

/-- Suffixes and labels of latencies, which do not depend on what has been observed. -/
def Latencies.shape : List (String × List (String × String)) :=
  bounds.map (fun b => ("_bucket", [("le", b)])) ++
    [("_bucket", [("le", "+Inf")]), ("_sum", []), ("_count", [])]

theorem Latencies.map_points (observed : Latencies) :
    observed.points.map (fun p => (p.suffix, p.labels)) = shape := by
  simp only [points, shape, List.map_append, List.map_map, List.map_cons, List.map_nil]
  rfl

theorem pointsFit_latencies (observed : Latencies) : PointsFit observed.points := by
  have parts : ∀ p ∈ Latencies.shape, p.1 ∈ pointSuffixes ∧ ∀ label ∈ p.2, label.1 = "le" := by
    decide
  have once : Latencies.shape.Pairwise fun p q => p.1 = q.1 → ¬ (p.2 ⊆ q.2 ∧ q.2 ⊆ p.2) := by
    decide
  rw [← observed.map_points] at parts once
  constructor
  · exact fun p member => (parts _ (List.mem_map_of_mem member)).1
  · exact fun p member => (parts _ (List.mem_map_of_mem member)).2
  · exact List.pairwise_map.1 once

end Points

namespace RequestMetrics

def labelNames (m : RequestMetrics) : List String := if m.originLabels then originLabelNames else []

def Sound (m : RequestMetrics) : Prop := m.up.Fits (metricName "up") m.labelNames

theorem sound_create (originLabels : Bool) : (create originLabels).Sound :=
  ⟨rfl, rfl, fun key child here => by simp [create] at here⟩

theorem Sound.setUp {m : RequestMetrics} (sound : m.Sound) (i : Instance) (up : Bool) :
    (m.setUp i up).Sound := by
  have full : (if m.originLabels then i.origin.values else []).length = m.labelNames.length := by
    unfold labelNames
    cases m.originLabels <;> rfl
  exact sound.update full .zero fun _ => .ofNat (if up then 1 else 0)

theorem Sound.record {m : RequestMetrics} (sound : m.Sound) (up : List (Instance × Bool))
    (duration : Double) : (m.record up duration).Sound := by
  have set : (up.foldl (fun m r => m.setUp r.1 r.2) m).Sound := by
    induction up generalizing m with
    | nil => exact sound
    | cons r up ih => exact ih (sound.setUp r.1 r.2)
  exact set

theorem Sound.own {m : RequestMetrics} (sound : m.Sound) : ∀ f ∈ m.families, f.Own := by
  have names : VectorLabels m.labelNames := by
    unfold labelNames
    split
    · exact vectorLabels_origin
    · exact ⟨List.nodup_nil, by simp⟩
  intro f member
  simp only [families, List.mem_cons, List.not_mem_nil, or_false] at member
  rcases member with rfl | rfl
  · refine ⟨by simp [durationFamily, requestNames], ?_, ?_, List.pairwise_singleton _ _⟩
    · intro s inside
      rw [List.mem_singleton.1 inside]
      exact ⟨"", by decide, by simp [Sample.unlabelled, durationFamily]⟩
    · intro s inside label among
      rw [List.mem_singleton.1 inside] at among
      cases among
  · exact MetricVector.Fits.own sound names pointsFit_value (by simp [requestNames])

theorem Sound.ownText {m : RequestMetrics} (sound : m.Sound) : OwnText requestNames m.render := by
  have names : m.families.map Family.name = requestNames := by
    simp [families, durationFamily, requestNames, MetricVector.family, sound.name_eq]
  rw [← names]
  refine OwnText.marked sound.own ?_
  rw [names]
  exact (List.pairwise_append.1 unrelated_names).1

end RequestMetrics

namespace GatewayMetrics

structure Sound (m : GatewayMetrics) : Prop where
  labels : ∀ name ∈ ownLabelNames m.labelPrefix, IsLabelName name.toList
  failures : m.failures.Fits (metricName "fetcher_failed_requests_total")
    (ownLabelNames m.labelPrefix)
  latency : ∀ v, m.latency = some v →
    v.Fits (metricName "fetcher_latency_seconds") (ownLabelNames m.labelPrefix)
  cacheSize : m.cacheSize.Fits (metricName "cache_size") ["cache_name"]
  cacheExpiry : m.cacheExpiry.Fits (metricName "cache_expiry_total") ["cache_name"]
  refreshSuccess : m.refreshSuccess.Fits (metricName "cache_refresh_success_total") ["cache_name"]
  refreshFailure : m.refreshFailure.Fits (metricName "cache_refresh_failure_total") ["cache_name"]

theorem isLabelName_of_create {α : Type} {name help : String} {type : MetricType}
    {labelNames : List String} {v : MetricVector α}
    (made : MetricVector.create? name type help labelNames = .ok v) :
    ∀ n ∈ labelNames, IsLabelName n.toList := by
  unfold MetricVector.create? at made
  split at made
  · cases made
  · rename_i none_bad
    intro n member
    have proper := List.find?_eq_none.1 none_bad n member
    exact isLabelName_of (by simpa using proper)

theorem sound_create {labelPrefix : Option String} {latency : Bool} {m : GatewayMetrics}
    (made : create? labelPrefix latency = .ok m) : m.Sound := by
  simp only [create?, bind, Except.bind] at made
  split at made
  · cases made
  rename_i failures madeFailures
  split at made
  · cases made
  rename_i latencies madeLatencies
  split at made
  · cases made
  rename_i cacheSize madeSize
  split at made
  · cases made
  rename_i cacheExpiry madeExpiry
  split at made
  · cases made
  rename_i refreshSuccess madeSuccess
  split at made
  · cases made
  rename_i refreshFailure madeFailure
  cases made
  constructor
  · exact isLabelName_of_create madeFailures
  · exact MetricVector.fits_create madeFailures
  · intro v here
    cases latency with
    | false => cases here
    | true =>
      cases here
      exact MetricVector.fits_create madeLatencies
  · exact MetricVector.fits_create madeSize
  · exact MetricVector.fits_create madeExpiry
  · exact MetricVector.fits_create madeSuccess
  · exact MetricVector.fits_create madeFailure

theorem length_valuesOf (i : Instance) (labelPrefix : Option String) :
    (valuesOf i).length = (ownLabelNames labelPrefix).length := by
  rw [length_ownLabelNames]
  rfl

theorem InUse.sound {m : GatewayMetrics} (used : m.InUse) : m.Sound := by
  induction used with
  | create made => exact sound_create made
  | recordFailure _ i before =>
    exact { before with failures := before.failures.update (length_valuesOf i _) _ _ }
  | @observeLatency m _ i seconds before =>
    unfold GatewayMetrics.observeLatency
    cases here : m.latency with
    | none => exact before
    | some v =>
      refine { before with latency := fun w same => ?_ }
      cases same
      exact (before.latency v here).update (length_valuesOf i _) _ _
  | @deregister m _ i before =>
    refine { before with failures := before.failures.remove _, latency := fun w same => ?_ }
    obtain ⟨v, here, rfl⟩ := Option.map_eq_some_iff.1 same
    exact (before.latency v here).remove _
  | recordSize _ cache size before =>
    have full : [cache].length = ["cache_name"].length := rfl
    exact { before with
      cacheSize := before.cacheSize.update full 0 fun _ => min size 0x7fffffffffffffff }
  | recordExpiry _ cache before =>
    have full : [cache].length = ["cache_name"].length := rfl
    exact { before with cacheExpiry := before.cacheExpiry.update full _ _ }
  | recordRefresh _ cache success before =>
    have full : [cache].length = ["cache_name"].length := rfl
    cases success with
    | false => exact { before with refreshFailure := before.refreshFailure.update full _ _ }
    | true => exact { before with refreshSuccess := before.refreshSuccess.update full _ _ }

theorem Sound.own {m : GatewayMetrics} (sound : m.Sound) : ∀ f ∈ m.families, f.Own := by
  have names := vectorLabels_own sound.labels
  have cache := vectorLabels_cache
  intro f member
  simp only [families, List.mem_append, List.mem_cons, List.not_mem_nil, or_false, List.mem_map,
    Option.mem_toList] at member
  rcases member with (rfl | rfl | rfl | rfl | rfl) | ⟨v, here, rfl⟩
  · exact sound.cacheExpiry.own cache (fun _ => pointsFit_value _) (by simp [workNames])
  · exact sound.refreshFailure.own cache (fun _ => pointsFit_value _) (by simp [workNames])
  · exact sound.refreshSuccess.own cache (fun _ => pointsFit_value _) (by simp [workNames])
  · exact sound.cacheSize.own cache (fun _ => pointsFit_value _) (by simp [workNames])
  · exact sound.failures.own names (fun _ => pointsFit_value _) (by simp [workNames])
  · exact (sound.latency v here).own names pointsFit_latencies (by simp [workNames])

theorem Sound.sublist {m : GatewayMetrics} (sound : m.Sound) :
    (m.families.map Family.name).Sublist workNames := by
  have fixed : m.families.map Family.name =
      workNames.take 5 ++ (m.latency.toList.map fun v => v.name) := by
    simp [families, MetricVector.family, workNames, sound.cacheExpiry.name_eq,
      sound.refreshFailure.name_eq, sound.refreshSuccess.name_eq, sound.cacheSize.name_eq,
      sound.failures.name_eq]
  rw [fixed]
  cases here : m.latency with
  | none => exact List.take_sublist 5 workNames
  | some v =>
    have last : v.name = metricName "fetcher_latency_seconds" := (sound.latency v here).name_eq
    rw [Option.toList_some, List.map_singleton, last]
    exact List.Sublist.refl _

end GatewayMetrics

theorem ownText_additional {m : RequestMetrics} (sound : m.Sound) {own : Option GatewayMetrics}
    (sounds : ∀ w, own = some w → w.Sound) :
    ∃ names, names ⊆ requestNames ++ workNames ∧ OwnText names (m.additional own) := by
  unfold RequestMetrics.additional
  cases own with
  | none =>
    refine ⟨requestNames, List.subset_append_left _ _, ?_⟩
    have text := sound.ownText.append OwnText.empty (by
      rw [List.append_nil]
      exact (List.pairwise_append.1 unrelated_names).1)
    simpa using text
  | some w =>
    have fine := sounds w rfl
    have names := fine.sublist
    have apart : (requestNames ++ w.families.map Family.name).Pairwise Unrelated :=
      unrelated_names.sublist (names.append_left requestNames)
    refine ⟨requestNames ++ w.families.map Family.name, ?_, ?_⟩
    · exact (names.append_left requestNames).subset
    · exact sound.ownText.append (OwnText.marked fine.own (List.pairwise_append.1 apart).2.1) apart

end MetricGateway
