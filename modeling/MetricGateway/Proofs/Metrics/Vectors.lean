import MetricGateway.Metrics.Request
import MetricGateway.Proofs.Metrics.Marked

/- The samples of metric vectors: no two are of one series, and in a marked document they stand
   under names that no other family of the gateway's own has. -/
namespace MetricGateway

def requestNames : List String := ["scrape_duration_seconds", "up"].map metricName

def workNames : List String :=
  ["cache_expiry_total", "cache_refresh_failure_total", "cache_refresh_success_total", "cache_size",
    "fetcher_failed_requests_total", "fetcher_latency_seconds"].map metricName

def pointSuffixes : List String := ["", "_bucket", "_sum", "_count"]

def Unrelated (m n : String) : Prop := ¬ m.toList <+: n.toList ∧ ¬ n.toList <+: m.toList

instance (m n : String) : Decidable (Unrelated m n) := inferInstanceAs (Decidable (_ ∧ _))

section Names

theorem toList_metricName (rest : String) :
    (metricName rest).toList = "herakles_gateway_".toList ++ rest.toList := String.toList_append

theorem unrelated_names : (requestNames ++ workNames).Pairwise Unrelated := by
  rw [requestNames, workNames, ← List.map_append, List.pairwise_map]
  have rests : (["scrape_duration_seconds", "up"] ++ ["cache_expiry_total",
      "cache_refresh_failure_total", "cache_refresh_success_total", "cache_size",
      "fetcher_failed_requests_total", "fetcher_latency_seconds"]).Pairwise Unrelated := by decide
  refine rests.imp fun apart => ?_
  unfold Unrelated
  rw [toList_metricName, toList_metricName, List.prefix_append_right_inj,
    List.prefix_append_right_inj]
  exact apart

theorem rest_of_name {name : String} (member : name ∈ requestNames ++ workNames) :
    ∃ rest : String, name = metricName rest ∧ rest.toList ≠ [] ∧
      rest.toList.all isNameChar = true ∧
      ∀ suffix ∈ compoundSuffixes, suffix.toList.getLast? ≠ rest.toList.getLast? := by
  have rests : ∀ rest ∈ ["scrape_duration_seconds", "up"] ++ ["cache_expiry_total",
      "cache_refresh_failure_total", "cache_refresh_success_total", "cache_size",
      "fetcher_failed_requests_total", "fetcher_latency_seconds"],
      rest.toList ≠ [] ∧ rest.toList.all isNameChar = true ∧
        ∀ suffix ∈ compoundSuffixes, suffix.toList.getLast? ≠ rest.toList.getLast? := by decide
  rw [requestNames, workNames, ← List.map_append] at member
  obtain ⟨rest, among, rfl⟩ := List.mem_map.1 member
  exact ⟨rest, rfl, rests rest among⟩

theorem isName_of_name {name : String} (member : name ∈ requestNames ++ workNames) :
    IsName name.toList := by
  obtain ⟨rest, rfl, filled, chars, _⟩ := rest_of_name member
  have start : "herakles_gateway_".toList.all isNameChar = true := by decide
  rw [toList_metricName]
  refine ⟨fun empty => filled (List.append_eq_nil_iff.1 empty).2, fun c inside => ?_⟩
  rcases List.mem_append.1 inside with before | behind
  · exact List.all_eq_true.1 start c before
  · exact List.all_eq_true.1 chars c behind

theorem length_compound_le {name suffix c : String} (member : name ∈ requestNames ++ workNames)
    (ends : suffix ∈ pointSuffixes) (compound : c ∈ compoundSuffixes)
    (stripped : c.toList <:+ name.toList ++ suffix.toList) :
    c.toList.length ≤ suffix.toList.length := by
  obtain ⟨rest, rfl, filled, _, last⟩ := rest_of_name member
  refine Nat.le_of_not_lt fun longer => ?_
  -- Were it longer, the suffix of the point would end it, and so be empty.
  have inner := List.suffix_of_suffix_length_le (List.suffix_append _ _) stripped
    (Nat.le_of_lt longer)
  have none_longer : ∀ c ∈ compoundSuffixes, ∀ suffix ∈ pointSuffixes, suffix ≠ "" →
      suffix.toList <:+ c.toList → c.toList.length ≤ suffix.toList.length := by decide
  have empty : suffix = "" := by
    by_cases empty : suffix = ""
    · exact empty
    · exact absurd (none_longer c compound suffix ends empty inner) (Nat.not_le.2 longer)
  subst empty
  obtain ⟨front, whole⟩ := stripped
  refine last c compound ?_
  have ending := congrArg List.getLast? whole
  have kind : c.toList ≠ [] := by
    intro empty
    rw [empty] at longer
    exact absurd longer (by decide)
  rw [toList_metricName, String.toList_empty, List.append_nil,
    List.getLast?_append_of_ne_nil _ kind, List.getLast?_append_of_ne_nil _ filled] at ending
  exact ending

theorem prefix_baseName {name suffix : String} (member : name ∈ requestNames ++ workNames)
    (ends : suffix ∈ pointSuffixes) : name.toList <+: (baseName (name ++ suffix)).toList := by
  unfold baseName
  cases found : compoundSuffixes.findSome? fun c =>
      (Text.beforeEnd? c.toList (name ++ suffix).toList).map String.ofList with
  | none => exact ⟨suffix.toList, String.toList_append.symm⟩
  | some base =>
    obtain ⟨c, compound, cut⟩ := List.exists_of_findSome?_eq_some found
    obtain ⟨text, before, rfl⟩ := Option.map_eq_some_iff.1 cut
    obtain ⟨stripped, same⟩ := Option.ite_none_right_eq_some.1 before
    cases same
    rw [List.isSuffixOf_iff_suffix, String.toList_append] at stripped
    have short := length_compound_le member ends compound stripped
    rw [Option.getD_some, String.toList_ofList, String.toList_append, List.prefix_take_iff]
    refine ⟨List.prefix_append _ _, ?_⟩
    rw [List.length_append]
    omega

end Names

/-- A family of the gateway's own, as it comes out of a metric vector. -/
structure Family.Own (f : Family) : Prop where
  listed : f.name ∈ requestNames ++ workNames
  suffixes : ∀ s ∈ f.samples, ∃ suffix ∈ pointSuffixes, s.name = f.name ++ suffix
  labels : ∀ s ∈ f.samples, ∀ label ∈ s.labels,
    IsLabelName label.1.toList ∧ label.1 ∉ Labelling.gateway.names
  once : NoRepeats f.samples

theorem Family.Own.legible {f : Family} (own : f.Own) : f.Legible := by
  have name := isName_of_name own.listed
  constructor
  · exact name.2
  · intro s member
    obtain ⟨suffix, ends, same⟩ := own.suffixes s member
    have chars : ∀ suffix ∈ pointSuffixes, suffix.toList.all isNameChar = true := by decide
    constructor
    · rw [same, String.toList_append]
      refine ⟨fun empty => name.1 (List.append_eq_nil_iff.1 empty).1, fun c inside => ?_⟩
      rcases List.mem_append.1 inside with before | behind
      · exact name.2 c before
      · exact List.all_eq_true.1 (chars suffix ends) c behind
    · exact fun label inside => (own.labels s member label inside).1

/-- Points of one child: they are told apart by suffix and labels, the latter being bounds. -/
structure PointsFit (points : List Point) : Prop where
  suffixes : ∀ p ∈ points, p.suffix ∈ pointSuffixes
  labels : ∀ p ∈ points, ∀ label ∈ p.labels, label.1 = "le"
  once : points.Pairwise fun p q =>
    p.suffix = q.suffix → ¬ (p.labels ⊆ q.labels ∧ q.labels ⊆ p.labels)

structure VectorLabels (names : List String) : Prop where
  distinct : names.Nodup
  proper : ∀ name ∈ names, IsLabelName name.toList ∧ name ≠ "le" ∧ name ∉ Labelling.gateway.names

section Keys

/-- Label names, in the order in which the children of a vector have their values. -/
def keyNames (names : List String) : List String := names.mergeSort fun a b => decide (a ≤ b)

variable {names values : List String}

@[simp] theorem mem_keyNames {name : String} : name ∈ keyNames names ↔ name ∈ names :=
  List.mem_mergeSort

@[simp] theorem length_keyNames : (keyNames names).length = names.length := List.length_mergeSort _

theorem nodup_keyNames : (keyNames names).Nodup ↔ names.Nodup := (List.mergeSort_perm _ _).nodup_iff

theorem length_childKey (full : values.length = names.length) :
    (childKey (names.zip values)).length = names.length := by
  rw [childKey, sortedLabels, List.length_map, List.length_mergeSort, List.length_zip, full,
    Nat.min_self]

theorem zip_childKey (full : values.length = names.length) :
    (keyNames names).zip (childKey (names.zip values)) = sortedLabels (names.zip values) := by
  have sorted : (sortedLabels (names.zip values)).map Prod.fst = keyNames names := by
    rw [sortedLabels, List.map_mergeSort (s := fun a b => decide (a ≤ b)) fun _ _ _ _ => rfl,
      List.map_fst_zip (Nat.le_of_eq full.symm), keyNames]
  rw [← sorted, childKey]
  exact (List.zip_of_prod rfl rfl).symm

theorem childKey_of_subset {key : List String} {others : List (String × String)}
    (distinct : names.Nodup) (full : values.length = names.length)
    (full' : key.length = names.length) (free : ∀ label ∈ others, label.1 ∉ names)
    (within : names.zip values ⊆ (keyNames names).zip key ++ others) :
    childKey (names.zip values) = key := by
  refine zip_injective (nodup_keyNames.2 distinct) ?_ ?_ ?_
  · rw [length_childKey full, length_keyNames]
  · rw [full', length_keyNames]
  · intro label member
    rw [zip_childKey full, sortedLabels, List.mem_mergeSort] at member
    rcases List.mem_append.1 (within member) with own | other
    · exact own
    · exact absurd (List.of_mem_zip member).1 (free label other)

end Keys

namespace MetricVector

variable {α : Type} {v : MetricVector α} {name : String} {labelNames : List String}

structure Fits (v : MetricVector α) (name : String) (labelNames : List String) : Prop where
  name_eq : v.name = name
  labelNames_eq : v.labelNames = labelNames
  full : ∀ (key : List String) child, v.children[key]? = some child → key.length = labelNames.length

theorem fits_create {help : String} {type : MetricType}
    (made : create? name type help labelNames = .ok v) : v.Fits name labelNames := by
  unfold create? at made
  split at made
  · cases made
  · cases made
    exact ⟨rfl, rfl, fun key child here => by simp at here⟩

theorem length_keyOf (fits : v.Fits name labelNames) {values : List String}
    (full : values.length = labelNames.length) : (v.keyOf values).length = labelNames.length := by
  rw [keyOf, fits.labelNames_eq]
  exact length_childKey full

theorem Fits.update (fits : v.Fits name labelNames) {values : List String}
    (full : values.length = labelNames.length) (fresh : α) (change : α → α) :
    (v.update values fresh change).Fits name labelNames := by
  refine ⟨fits.name_eq, fits.labelNames_eq, fun key child here => ?_⟩
  rw [MetricVector.update, Std.ExtTreeMap.getElem?_alter] at here
  split at here
  · rename_i same
    rw [← Std.compare_eq_iff_eq.1 same]
    exact length_keyOf fits full
  · exact fits.full key child here

theorem Fits.remove (fits : v.Fits name labelNames) (values : List String) :
    (v.remove values).Fits name labelNames := by
  refine ⟨fits.name_eq, fits.labelNames_eq, fun key child here => ?_⟩
  rw [MetricVector.remove, Std.ExtTreeMap.getElem?_erase] at here
  split at here
  · cases here
  · exact fits.full key child here

theorem mem_family {points : α → List Point} {s : Sample} :
    s ∈ (v.family points).samples ↔
      ∃ (key : List String) (child : α), v.children[key]? = some child ∧ ∃ p ∈ points child,
        s = ⟨v.name ++ p.suffix, (keyNames v.labelNames).zip key ++ p.labels, p.value⟩ := by
  simp only [family, List.mem_flatMap, List.mem_map, Prod.exists,
    Std.ExtTreeMap.mem_toList_iff_getElem?_eq_some]
  constructor
  · rintro ⟨key, child, here, p, member, rfl⟩
    exact ⟨key, child, here, p, member, rfl⟩
  · rintro ⟨key, child, here, p, member, rfl⟩
    exact ⟨key, child, here, p, member, rfl⟩

section Own

variable (fits : v.Fits name labelNames) (names : VectorLabels labelNames) {points : α → List Point}
  (fit : ∀ child, PointsFit (points child))

include fits names fit

/-- Behind a child's labels there are only bounds, so that samples of one series are of one child,
    and there of points with the same suffix and bounds. -/
theorem Fits.series {key other : List String} {child child' : α}
    (here : v.children[key]? = some child) (there : v.children[other]? = some child') {p q : Point}
    (left : p ∈ points child) (right : q ∈ points child')
    (same : Sample.SameSeries
      ⟨v.name ++ p.suffix, (keyNames v.labelNames).zip key ++ p.labels, p.value⟩
      ⟨v.name ++ q.suffix, (keyNames v.labelNames).zip other ++ q.labels, q.value⟩) :
    key = other ∧ p.suffix = q.suffix ∧ p.labels ⊆ q.labels ∧ q.labels ⊆ p.labels := by
  rw [fits.labelNames_eq] at same
  have bound : ∀ child, ∀ p ∈ points child, ∀ label ∈ p.labels,
      label.1 ∉ keyNames labelNames := by
    intro child p member label inside among
    obtain ⟨_, unbound, _⟩ := names.proper label.1 (mem_keyNames.1 among)
    exact unbound ((fit child).labels p member label inside)
  obtain ⟨own, keys⟩ := Sample.SameSeries.of_prepended (nodup_keyNames.2 names.distinct)
    ((fits.full key child here).trans length_keyNames.symm)
    ((fits.full other child' there).trans length_keyNames.symm)
    (bound child p left) (bound child' q right) same
  refine ⟨keys, ?_, own⟩
  have name := congrArg String.toList same.1
  rw [String.toList_append, String.toList_append, List.append_cancel_left_eq] at name
  exact String.toList_inj.1 name

theorem Fits.noRepeats : NoRepeats (v.family points).samples := by
  rw [NoRepeats, family, List.pairwise_flatMap]
  constructor
  · rintro ⟨key, child⟩ member
    have here := Std.ExtTreeMap.mem_toList_iff_getElem?_eq_some.1 member
    rw [List.pairwise_map]
    refine (fit child).once.imp_of_mem fun {p q} left right differ same => ?_
    obtain ⟨_, suffix, labels⟩ := fits.series names fit here here left right same
    exact differ suffix labels
  · refine Std.ExtTreeMap.distinct_keys_toList.imp_of_mem ?_
    rintro ⟨key, child⟩ ⟨other, child'⟩ first second differ s left t right same
    have here := Std.ExtTreeMap.mem_toList_iff_getElem?_eq_some.1 first
    have there := Std.ExtTreeMap.mem_toList_iff_getElem?_eq_some.1 second
    obtain ⟨p, own, rfl⟩ := List.mem_map.1 left
    obtain ⟨q, own', rfl⟩ := List.mem_map.1 right
    obtain ⟨keys, _⟩ := fits.series names fit here there own own' same
    exact differ (Std.compare_eq_iff_eq.2 keys)

theorem Fits.own (listed : name ∈ requestNames ++ workNames) : (v.family points).Own := by
  constructor
  · rw [← fits.name_eq] at listed
    exact listed
  · intro s member
    obtain ⟨_, child, _, p, own, rfl⟩ := mem_family.1 member
    exact ⟨p.suffix, (fit child).suffixes p own, rfl⟩
  · intro s member label inside
    obtain ⟨_, child, _, p, own, rfl⟩ := mem_family.1 member
    rcases List.mem_append.1 inside with before | behind
    · rw [fits.labelNames_eq] at before
      obtain ⟨isLabel, _, unmarked⟩ :=
        names.proper label.1 (mem_keyNames.1 (List.of_mem_zip before).1)
      exact ⟨isLabel, unmarked⟩
    · rw [(fit child).labels p own label behind]
      exact ⟨⟨by decide, List.all_eq_true.1 (by decide)⟩, by decide⟩
  · exact fits.noRepeats names fit

end Own

end MetricVector
end MetricGateway
