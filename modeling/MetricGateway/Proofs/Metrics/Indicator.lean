import MetricGateway.Proofs.Metrics.Additional
import Mathlib.Data.List.Induction

/- What a request's metrics show of the instances that were asked. There is one indicator for each
   list of origin label values, and it has the state that was reported last under them. -/
namespace MetricGateway

namespace RequestMetrics

def lastState? (up : List (Instance × Bool)) (values : List String) : Option Bool :=
  (up.filter fun r => r.1.origin.values = values).getLast?.map Prod.snd

def indicator (up : Bool) : Double := .ofNat (if up then 1 else 0)

theorem indicator_false : indicator false = .zero := by decide +kernel

theorem indicator_injective {up other : Bool} (same : indicator up = indicator other) :
    up = other := by
  have differ : indicator true ≠ indicator false := by decide +kernel
  cases up <;> cases other
  · rfl
  · exact absurd same.symm differ
  · exact absurd same differ
  · rfl

theorem reread_indicator (up : Bool) :
    Decimal.sampleValue? (Decimal.plainText (indicator up)) = some (indicator up) := by
  have bounded : ∀ up negative, indicator up ≠ .infinite negative := by decide +kernel
  exact Decimal.sampleValue?_plainText (bounded up)

/-- The metrics of a request, with origin labels, once some instances have been reported. -/
def reported (up : List (Instance × Bool)) : RequestMetrics :=
  up.foldl (fun m (i, up) => m.setUp i up) (create true)

theorem reported_append (up : List (Instance × Bool)) (r : Instance × Bool) :
    reported (up ++ [r]) = (reported up).setUp r.1 r.2 := by
  rw [reported, List.foldl_append]
  rfl

theorem originLabels_reported (up : List (Instance × Bool)) :
    (reported up).originLabels = true := by
  induction up using List.reverseRecOn with
  | nil => rfl
  | append_singleton up r ih =>
    rw [reported_append]
    exact ih

theorem labelNames_reported (up : List (Instance × Bool)) :
    (reported up).up.labelNames = originLabelNames := by
  induction up using List.reverseRecOn with
  | nil => rfl
  | append_singleton up r ih =>
    rw [reported_append]
    exact ih

theorem child?_reported (up : List (Instance × Bool)) {values : List String}
    (full : values.length = originLabelNames.length) :
    (reported up).up.child? values = (lastState? up values).map indicator := by
  induction up using List.reverseRecOn with
  | nil => exact Std.ExtTreeMap.getElem?_empty
  | append_singleton up r ih =>
    have names := labelNames_reported up
    have own : r.1.origin.values.length = (reported up).up.labelNames.length := by
      rw [names]
      rfl
    have set : (reported (up ++ [r])).up =
        (reported up).up.update r.1.origin.values .zero fun _ => indicator r.2 := by
      rw [reported_append, setUp, originLabels_reported]
      rfl
    rw [set, MetricVector.child?_update own (full.trans (by rw [names])), ih, lastState?,
      lastState?, List.filter_append, List.getLast?_append]
    by_cases same : r.1.origin.values = values
    · simp [same]
    · simp [same]

theorem up_record (up : List (Instance × Bool)) (duration : Double) :
    ((create true).record up duration).up = (reported up).up := rfl

theorem mem_samplesIn_record {up : List (Instance × Bool)} {duration : Double} {s : Sample}
    (name : s.name = metricName "up") :
    s ∈ samplesIn ((create true).record up duration).render ↔
      ∃ (key : List String) (child : Double), (reported up).up.children[key]? = some child ∧
        Sample.marked ⟨metricName "up", (keyNames originLabelNames).zip key, child⟩ = some s := by
  have sound := (sound_create true).record up duration
  have legible : ∀ f ∈ ((create true).record up duration).families, f.Legible :=
    fun f member => (sound.own f member).legible
  have title : (reported up).up.name = metricName "up" := sound.name_eq
  rw [render, mem_samplesIn_markedDocument legible]
  simp only [families, up_record, List.mem_cons, List.not_mem_nil, or_false, exists_eq_or_imp,
    exists_eq_left]
  constructor
  · rintro (⟨t, member, shown⟩ | ⟨t, member, shown⟩)
    · obtain ⟨u, read, rfl⟩ := Option.map_eq_some_iff.1 shown
      obtain ⟨v, _, rfl⟩ := Option.map_eq_some_iff.1 read
      rw [List.mem_singleton.1 member] at name
      have differ : "scrape_duration_seconds".toList ≠ "up".toList := by decide
      have text : (metricName "scrape_duration_seconds").toList = (metricName "up").toList :=
        congrArg String.toList name
      rw [toList_metricName, toList_metricName, List.append_cancel_left_eq] at text
      exact absurd text differ
    · obtain ⟨key, child, here, p, own, rfl⟩ := MetricVector.mem_family.1 member
      rw [List.mem_singleton.1 own, title, labelNames_reported] at shown
      refine ⟨key, child, here, ?_⟩
      simpa using shown
  · rintro ⟨key, child, here, shown⟩
    refine .inr
      ⟨_, MetricVector.mem_family.2 ⟨key, child, here, _, List.mem_singleton.2 rfl, rfl⟩, ?_⟩
    rw [title, labelNames_reported]
    simpa using shown

theorem exists_marked (name : String) (labels : List (String × String)) {value : Double}
    (read : Decimal.sampleValue? (Decimal.plainText value) = some value) :
    ∃ s, Sample.marked ⟨name, labels, value⟩ = some s ∧ s.name = name ∧
      s.labels = labels ++ Labelling.gateway.labels ∧ s.value = value := by
  refine ⟨Labelling.gateway.labelSample ⟨name, labels, value⟩, ?_, rfl, rfl, rfl⟩
  rw [Sample.marked, Sample.reread, read]
  rfl

theorem fits_reported (up : List (Instance × Bool)) :
    (reported up).up.Fits (metricName "up") originLabelNames := by
  have sound := (sound_create true).record up .zero
  have labels : ((create true).record up .zero).labelNames = originLabelNames := by
    unfold labelNames
    exact if_pos (originLabels_reported up)
  rw [Sound, labels] at sound
  exact sound

theorem key_of_labels {values key : List String} (full : values.length = originLabelNames.length)
    (full' : key.length = originLabelNames.length)
    (within : originLabelNames.zip values ⊆
      (keyNames originLabelNames).zip key ++ Labelling.gateway.labels) :
    childKey (originLabelNames.zip values) = key := by
  have apart : ∀ label ∈ Labelling.gateway.labels, label.1 ∉ originLabelNames := by decide
  exact childKey_of_subset (by decide) full full' apart within

theorem shown_iff_last (up : List (Instance × Bool)) (duration : Double) {values : List String}
    (full : values.length = originLabelNames.length) (state : Bool) :
    (∃ s ∈ samplesIn ((create true).record up duration).render, s.name = metricName "up" ∧
      originLabelNames.zip values ⊆ s.labels ∧ s.value = indicator state) ↔
        lastState? up values = some state := by
  have key : (reported up).up.keyOf values = childKey (originLabelNames.zip values) := by
    rw [MetricVector.keyOf, labelNames_reported]
  have child := child?_reported up full
  rw [MetricVector.child?, key] at child
  constructor
  · rintro ⟨s, member, name, labels, value⟩
    obtain ⟨other, v, here, shown⟩ := (mem_samplesIn_record name).1 member
    have marked := shown
    obtain ⟨t, read, rfl⟩ := Option.map_eq_some_iff.1 marked
    obtain ⟨_, _, rfl⟩ := Option.map_eq_some_iff.1 read
    have own := key_of_labels full ((fits_reported up).full other v here) labels
    rw [← own] at here shown
    obtain ⟨last, given, rfl⟩ := Option.map_eq_some_iff.1 (child.symm.trans here)
    obtain ⟨t, again, _, _, same⟩ := exists_marked _ _ (reread_indicator last)
    cases Option.some.inj (shown.symm.trans again)
    rw [given, indicator_injective (same.symm.trans value)]
  · intro last
    rw [last, Option.map_some] at child
    obtain ⟨t, shown, name, labels, value⟩ := exists_marked _ _ (reread_indicator state)
    refine ⟨t, (mem_samplesIn_record name).2 ⟨_, _, child, shown⟩, name, ?_, value⟩
    rw [labels, zip_childKey full]
    exact fun label member => List.mem_append_left _ (List.mem_mergeSort.2 member)

end RequestMetrics
end MetricGateway
