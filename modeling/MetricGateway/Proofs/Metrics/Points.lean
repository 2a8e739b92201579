import MetricGateway.Proofs.Metrics.Retention
import MetricGateway.Proofs.Number.Rounding

/- What is read of a rendered document: of a vector's samples those of one child, by suffix and bound,
   and among them those that are counts. -/
namespace MetricGateway

def readSamples (text : String) : List Sample :=
  (FamilyMap.ofText text).sorted.flatMap Family.samples

theorem mem_readSamples {text : String} {s : Sample} :
    s ∈ readSamples text ↔ s ∈ samplesIn text := by
  have named := FamilyMap.named_ofText text
  rw [readSamples, List.mem_flatMap, mem_samplesIn_iff]
  constructor
  · intro read
    obtain ⟨f, member, own⟩ := read
    exact ⟨f.name, f, named.mem_sorted.1 member, own⟩
  · intro shown
    obtain ⟨key, f, here, own⟩ := shown
    have name := named key f here
    exact ⟨f, named.mem_sorted.2 (name ▸ here), own⟩

theorem NoRepeats.read {text : String} (once : NoRepeats (samplesIn text)) :
    NoRepeats (readSamples text) := by
  have named := FamilyMap.named_ofText text
  rw [NoRepeats, readSamples, List.pairwise_flatMap]
  constructor
  · intro f member
    exact once.family (named.mem_sorted.1 member)
  · refine named.sorted_pairwise.imp_of_mem ?_
    intro f g left right before s own t own'
    refine once.families (named.mem_sorted.1 left) (named.mem_sorted.1 right) ?_ s own t own'
    exact fun same => String.lt_irrefl _ (same ▸ before)

theorem filter_of_noRepeats {samples : List Sample} (once : NoRepeats samples)
    {p : Sample → Bool} {found : Option Sample}
    (same : ∀ s, s ∈ samples ∧ p s = true ↔ found = some s) : samples.filter p = found.toList := by
  have among : ∀ s, s ∈ samples.filter p ↔ found = some s := by
    intro s
    rw [List.mem_filter, same]
  have single : NoRepeats (samples.filter p) := once.sublist List.filter_sublist
  cases left : samples.filter p with
  | nil =>
    cases found with
    | none => rfl
    | some s => simp [left] at among
  | cons s rest =>
    rw [left] at among single
    have first := (among s).1 List.mem_cons_self
    cases rest with
    | nil => rw [first, Option.toList_some]
    | cons t rest =>
      have second := (among t).1 (List.mem_cons_of_mem s List.mem_cons_self)
      cases first.symm.trans second
      have differ := (List.pairwise_cons.1 single).1 s List.mem_cons_self
      exact absurd ⟨rfl, List.Subset.refl _, List.Subset.refl _⟩ differ

namespace Latencies

/-- The upper ends of all buckets, of which the last one takes everything in. -/
def edges : List String := bounds ++ ["+Inf"]

def bucket (observed : Latencies) (edge : String) : Nat :=
  if edge = "+Inf" then observed.length else observed.countUpTo edge

theorem bucket_point {observed : Latencies} {p : Point} {edge : String} (member : edge ∈ edges) :
    p ∈ observed.points ∧ p.suffix = "_bucket" ∧ [("le", edge)] ⊆ p.labels ↔
      p = ⟨"_bucket", [("le", edge)], .ofNat (observed.bucket edge)⟩ := by
  have finite : ∀ b ∈ bounds, b ≠ "+Inf" := by decide
  have others : "_sum" ≠ "_bucket" ∧ "_count" ≠ "_bucket" := by decide
  constructor
  · intro found
    obtain ⟨among, suffix, within⟩ := found
    simp only [points, List.mem_append, List.mem_map, List.mem_cons, List.not_mem_nil,
      or_false] at among
    rcases among with ⟨b, own, rfl⟩ | rfl | rfl | rfl
    · have same : edge = b := by simpa using within
      rw [same, bucket, if_neg (finite b own)]
    · have same : edge = "+Inf" := by simpa using within
      rw [same, bucket, if_pos rfl]
    · exact absurd suffix others.1
    · exact absurd suffix others.2
  · intro same
    subst same
    refine ⟨?_, rfl, List.Subset.refl _⟩
    rw [edges, List.mem_append, List.mem_singleton] at member
    rw [points, List.mem_append]
    rcases member with own | rfl
    · rw [bucket, if_neg (finite edge own)]
      exact Or.inl (List.mem_map_of_mem own)
    · rw [bucket, if_pos rfl]
      exact Or.inr List.mem_cons_self

theorem count_point {observed : Latencies} {p : Point} :
    p ∈ observed.points ∧ p.suffix = "_count" ↔ p = ⟨"_count", [], .ofNat observed.length⟩ := by
  have others : "_bucket" ≠ "_count" ∧ "_sum" ≠ "_count" := by decide
  constructor
  · intro found
    obtain ⟨among, suffix⟩ := found
    simp only [points, List.mem_append, List.mem_map, List.mem_cons, List.not_mem_nil,
      or_false] at among
    rcases among with ⟨b, own, rfl⟩ | rfl | rfl | rfl
    · exact absurd suffix others.1
    · exact absurd suffix others.1
    · exact absurd suffix others.2
    · rfl
  · intro same
    subst same
    exact ⟨by simp [points], rfl⟩

theorem countUpTo_le_length (observed : Latencies) (b : String) :
    observed.countUpTo b ≤ observed.length := by
  unfold countUpTo
  split
  · exact List.countP_le_length
  · exact Nat.zero_le _

theorem ascending_bounds : bounds.Pairwise fun a b => ∃ x y,
    Decimal.number? a.toList = some x ∧ Decimal.number? b.toList = some y ∧ x.le y = true := by
  have numbers : bounds.Pairwise fun a b =>
      ((Decimal.number? a.toList).bind fun x => (Decimal.number? b.toList).map x.le) =
        some true := by decide +kernel
  refine numbers.imp fun {a b} below => ?_
  obtain ⟨x, left, below⟩ := Option.bind_eq_some_iff.1 below
  obtain ⟨y, right, below⟩ := Option.map_eq_some_iff.1 below
  exact ⟨x, y, left, right, below⟩

theorem ascending_buckets (observed : Latencies) :
    edges.Pairwise fun a b => observed.bucket a ≤ observed.bucket b := by
  have finite : ∀ b ∈ bounds, b ≠ "+Inf" := by decide
  rw [edges, List.pairwise_append]
  refine ⟨?_, List.pairwise_singleton _ _, ?_⟩
  · refine ascending_bounds.imp_of_mem ?_
    intro a b left right below
    obtain ⟨x, y, readA, readB, below⟩ := below
    rw [bucket, bucket, if_neg (finite a left), if_neg (finite b right), countUpTo, countUpTo,
      readA, readB]
    exact List.countP_mono_left fun v _ within => Double.le_trans within below
  · intro a left b right
    rw [List.mem_singleton.1 right, bucket, bucket, if_neg (finite a left), if_pos rfl]
    exact countUpTo_le_length observed a

end Latencies

section Vectors

theorem Sample.of_marked {t s : Sample} (shown : t.marked = some s) :
    s.name = t.name ∧ s.labels = t.labels ++ Labelling.gateway.labels := by
  obtain ⟨_, read, rfl⟩ := Option.map_eq_some_iff.1 shown
  obtain ⟨_, _, rfl⟩ := Option.map_eq_some_iff.1 read
  exact ⟨rfl, rfl⟩

namespace MetricVector

variable {α : Type} {v : MetricVector α} {points : α → List Point} {name : String}
  {labelNames values : List String} {s : Sample}

theorem name_of_showsAt {key : List String} (shown : v.ShowsAt points key s) :
    ∃ suffix, s.name = v.name ++ suffix := by
  obtain ⟨_, _, p, _, shown⟩ := shown
  exact ⟨p.suffix, (Sample.of_marked shown).1⟩

theorem shown_iff (fits : v.Fits name labelNames) (names : VectorLabels labelNames)
    (fit : ∀ child, PointsFit (points child)) (full : values.length = labelNames.length)
    {suffix : String} {more : List (String × String)} (bound : ∀ label ∈ more, label.1 = "le") :
    (∃ key, v.ShowsAt points key s) ∧ s.name = name ++ suffix ∧
        labelNames.zip values ++ more ⊆ s.labels ↔
      ∃ child, v.child? values = some child ∧ ∃ p ∈ points child,
        (p.suffix = suffix ∧ more ⊆ p.labels) ∧
          Sample.marked ⟨name ++ suffix, sortedLabels (labelNames.zip values) ++ p.labels, p.value⟩ =
            some s := by
  have place : v.keyOf values = childKey (labelNames.zip values) := by
    rw [keyOf, fits.labelNames_eq]
  constructor
  · intro found
    obtain ⟨⟨key, shown⟩, named, within⟩ := found
    rw [List.append_subset] at within
    have own := key_of_showsAt fits names fit full shown within.1
    subst own
    obtain ⟨child, here, p, among, shown⟩ := shown
    rw [fits.name_eq, fits.labelNames_eq, zip_childKey full] at shown
    obtain ⟨title, labels⟩ := Sample.of_marked shown
    have suffixes : p.suffix = suffix := by
      have text : (name ++ p.suffix).toList = (name ++ suffix).toList :=
        congrArg String.toList (title.symm.trans named)
      rw [String.toList_append, String.toList_append,
        List.append_cancel_left_eq] at text
      exact String.toList_inj.1 text
    refine ⟨child, by rw [child?, place, here], p, among, ⟨suffixes, ?_⟩, suffixes ▸ shown⟩
    -- A bound is neither one of the vector's own labels nor the mark.
    intro label member
    have le := bound label member
    rcases List.mem_append.1 (labels ▸ within.2 member) with before | mark
    · rcases List.mem_append.1 before with own | behind
      · have listed := (List.of_mem_zip (List.mem_mergeSort.1 own)).1
        exact absurd le (names.proper label.1 listed).2.1
      · exact behind
    · have gateway : label.1 = "herakles_gateway" :=
        List.mem_singleton.1 (List.of_mem_zip mark).1
      exact absurd (gateway.symm.trans le) (by decide)
  · intro found
    obtain ⟨child, here, p, among, ⟨suffixes, within⟩, shown⟩ := found
    rw [child?, place] at here
    refine ⟨⟨_, child, here, p, among, ?_⟩, ?_⟩
    · rw [fits.name_eq, fits.labelNames_eq, zip_childKey full, suffixes]
      exact shown
    · obtain ⟨title, labels⟩ := Sample.of_marked shown
      rw [labels]
      refine ⟨title, List.append_subset.2 ⟨?_, ?_⟩⟩
      · intro label member
        have own : label ∈ sortedLabels (labelNames.zip values) := List.mem_mergeSort.2 member
        exact List.mem_append_left _ (List.mem_append_left _ own)
      · intro label member
        exact List.mem_append_left _ (List.mem_append_right _ (within member))

theorem marked_ofNat (name : String) (labels : List (String × String)) {n : Nat}
    (word : n < 2 ^ 64) : Sample.marked ⟨name, labels, .ofNat n⟩ =
      some ⟨name, labels ++ Labelling.gateway.labels, .ofNat n⟩ := by
  have read := Decimal.sampleValue?_plainText (Double.ofNat_finite word)
  rw [Sample.marked, Sample.reread, read]
  rfl

theorem shown_iff_count (fits : v.Fits name labelNames) (names : VectorLabels labelNames)
    (fit : ∀ child, PointsFit (points child)) (full : values.length = labelNames.length)
    {suffix : String} {more : List (String × String)} (bound : ∀ label ∈ more, label.1 = "le")
    {count : α → Nat} (point : ∀ child p, p ∈ points child ∧ p.suffix = suffix ∧ more ⊆ p.labels ↔
      p = ⟨suffix, more, .ofNat (count child)⟩)
    (word : ∀ child, v.child? values = some child → count child < 2 ^ 64) :
    (∃ key, v.ShowsAt points key s) ∧ s.name = name ++ suffix ∧
        labelNames.zip values ++ more ⊆ s.labels ↔
      ((v.child? values).map fun child => ⟨name ++ suffix,
        sortedLabels (labelNames.zip values) ++ more ++ Labelling.gateway.labels,
          .ofNat (count child)⟩) = some s := by
  rw [shown_iff fits names fit full bound]
  constructor
  · intro found
    obtain ⟨child, here, p, among, fitting, shown⟩ := found
    have own := (point child p).1 ⟨among, fitting⟩
    subst own
    rw [marked_ofNat _ _ (word child here)] at shown
    rw [here, Option.map_some]
    exact shown
  · intro found
    obtain ⟨child, here, same⟩ := Option.map_eq_some_iff.1 found
    obtain ⟨among, fitting⟩ := (point child _).2 rfl
    refine ⟨child, here, _, among, fitting, ?_⟩
    rw [marked_ofNat _ _ (word child here), same]

end MetricVector

end Vectors

end MetricGateway
