import MetricGateway.Metrics.Vector
import MetricGateway.Proofs.Exposition.Series
import Mathlib.Data.List.Flatten

/- What a document of metric vectors shows once it has been read back and marked: each sample whose
   value can be read, with the mark, and each name once. -/
namespace MetricGateway

namespace Labelling

variable {l : Labelling} {m : FamilyMap}

theorem getElem?_apply (key : String) : (l.apply m)[key]? = m[key]?.map l.labelFamily :=
  Std.ExtTreeMap.getElem?_map

theorem named_apply (named : m.Named) : (l.apply m).Named := by
  intro key f here
  rw [getElem?_apply, Option.map_eq_some_iff] at here
  obtain ⟨g, own, rfl⟩ := here
  exact named key g own

theorem mem_sorted_apply (named : m.Named) {f : Family} :
    f ∈ (l.apply m).sorted ↔ ∃ g, m[f.name]? = some g ∧ l.labelFamily g = f := by
  rw [(named_apply named).mem_sorted, getElem?_apply, Option.map_eq_some_iff]

theorem legible_labelFamily (names : ∀ name ∈ l.names, IsLabelName name.toList) {f : Family}
    (legible : f.Legible) : (l.labelFamily f).Legible := by
  constructor
  · exact legible.name
  · intro s member
    obtain ⟨t, own, rfl⟩ := List.mem_map.1 member
    have plain := legible.samples t own
    refine ⟨plain.name, fun label inside => ?_⟩
    rcases List.mem_append.1 inside with before | behind
    · exact plain.labels label before
    · exact names label.1 (List.of_mem_zip behind).1

end Labelling

/-- A sample of a metric vector as the marked document shows it. -/
def Sample.marked (s : Sample) : Option Sample :=
  (s.reread Decimal.plainText).map Labelling.gateway.labelSample

section Marked

variable {families : List Family}

theorem legible_marked {f : Family}
    (member : f ∈ (Labelling.gateway.apply (FamilyMap.ofText (plainDocument families))).sorted) :
    f.Legible := by
  obtain ⟨g, here, rfl⟩ := (Labelling.mem_sorted_apply (FamilyMap.named_ofText _)).1 member
  refine Labelling.legible_labelFamily (fun name own => ?_) (FamilyMap.legible_ofText here)
  cases List.mem_singleton.1 own
  exact ⟨by decide, List.all_eq_true.1 (by decide)⟩

theorem isClosed_markedDocument : Text.IsClosed (markedDocument families) :=
  (shows_toText fun _ => legible_marked).isClosed

theorem declaredIn_markedDocument :
    declaredIn (markedDocument families) =
      (Labelling.gateway.apply (FamilyMap.ofText (plainDocument families))).sorted.map
        Family.name :=
  (shows_toText fun _ => legible_marked).declared

theorem declared_nodup {m : FamilyMap} (named : m.Named) : (m.sorted.map Family.name).Nodup := by
  rw [List.Nodup, List.pairwise_map]
  refine named.sorted_pairwise.imp fun {f g} before same => ?_
  rw [same] at before
  exact String.lt_irrefl _ before

theorem declaredIn_markedDocument_nodup : (declaredIn (markedDocument families)).Nodup := by
  rw [declaredIn_markedDocument]
  exact declared_nodup (Labelling.named_apply (FamilyMap.named_ofText _))

theorem declared_of_sample {s : Sample} (shown : s ∈ samplesIn (markedDocument families))
    (base : baseName s.name = s.name) : s.name ∈ declaredIn (markedDocument families) := by
  have named := FamilyMap.named_ofText (plainDocument families)
  rw [markedDocument, samplesIn_toText fun _ => legible_marked] at shown
  rw [declaredIn_markedDocument]
  obtain ⟨f, member, own⟩ := List.mem_flatMap.1 shown
  obtain ⟨g, here, rfl⟩ := (Labelling.mem_sorted_apply named).1 member
  obtain ⟨t, inside, rfl⟩ := List.mem_map.1 own
  refine List.mem_map.2 ⟨_, member, ?_⟩
  rcases FamilyMap.key_of_sample here inside with same | same
  · exact same
  · exact same.trans base

variable (legible : ∀ f ∈ families, f.Legible)

include legible

theorem mem_samplesIn_plainDocument {s : Sample} :
    s ∈ samplesIn (plainDocument families) ↔
      ∃ f ∈ families, ∃ t ∈ f.samples, t.reread Decimal.plainText = some s := by
  obtain ⟨filled, same, shows⟩ := shows_plainDocument legible
  simp only [shows.samples, List.mem_flatMap, List.mem_filterMap, same.mem_iff, List.mem_filter]
  constructor
  · rintro ⟨f, ⟨member, _⟩, t, own, read⟩
    exact ⟨f, member, t, own, read⟩
  · rintro ⟨f, member, t, own, read⟩
    refine ⟨f, ⟨member, ?_⟩, t, own, read⟩
    cases samples : f.samples with
    | nil => simp [samples] at own
    | cons => rfl

theorem mem_samplesIn_markedDocument {s : Sample} :
    s ∈ samplesIn (markedDocument families) ↔
      ∃ f ∈ families, ∃ t ∈ f.samples, t.marked = some s := by
  have named := FamilyMap.named_ofText (plainDocument families)
  rw [markedDocument, samplesIn_toText fun _ => legible_marked]
  simp only [List.mem_flatMap]
  constructor
  · rintro ⟨f, member, own⟩
    obtain ⟨g, here, rfl⟩ := (Labelling.mem_sorted_apply named).1 member
    obtain ⟨t, inside, rfl⟩ := List.mem_map.1 own
    obtain ⟨f, among, u, given, read⟩ :=
      (mem_samplesIn_plainDocument legible).1 (mem_samplesIn_iff.2 ⟨_, g, here, inside⟩)
    exact ⟨f, among, u, given, by rw [Sample.marked, read]; rfl⟩
  · rintro ⟨f, among, u, given, shown⟩
    obtain ⟨t, read, rfl⟩ := Option.map_eq_some_iff.1 shown
    obtain ⟨key, g, here, inside⟩ :=
      mem_samplesIn_iff.1 ((mem_samplesIn_plainDocument legible).2 ⟨f, among, u, given, read⟩)
    have same := named key g here
    refine ⟨Labelling.gateway.labelFamily g, ?_, List.mem_map_of_mem inside⟩
    exact (Labelling.mem_sorted_apply named).2 ⟨g, same ▸ here, rfl⟩

theorem sample_of_declared {name : String}
    (declared : name ∈ declaredIn (markedDocument families)) :
    ∃ f ∈ families, ∃ s ∈ f.samples, name = s.name ∨ name = baseName s.name := by
  rw [declaredIn_markedDocument] at declared
  obtain ⟨f, member, rfl⟩ := List.mem_map.1 declared
  obtain ⟨g, here, _⟩ := (Labelling.mem_sorted_apply (FamilyMap.named_ofText _)).1 member
  obtain ⟨s, inside⟩ := FamilyMap.exists_sample here
  obtain ⟨f', among, t, given, read⟩ :=
    (mem_samplesIn_plainDocument legible).1 (mem_samplesIn_iff.2 ⟨_, g, here, inside⟩)
  have own := FamilyMap.key_of_sample here inside
  obtain ⟨_, _, rfl⟩ := Option.map_eq_some_iff.1 read
  exact ⟨f', among, t, given, own⟩

theorem noRepeats_plainDocument (once : NoRepeats (families.flatMap Family.samples)) :
    NoRepeats (samplesIn (plainDocument families)) := by
  obtain ⟨filled, same, shows⟩ := shows_plainDocument legible
  rw [shows.samples, ← List.filterMap_flatMap]
  refine NoRepeats.reread ?_ _
  rw [NoRepeats.perm (same.flatMap_right Family.samples)]
  exact List.Pairwise.sublist (List.filter_sublist.flatMap _) once

theorem noRepeats_markedDocument (once : NoRepeats (families.flatMap Family.samples))
    (free : ∀ f ∈ families, ∀ s ∈ f.samples, ∀ label ∈ s.labels,
      label.1 ∉ Labelling.gateway.names) :
    NoRepeats (samplesIn (markedDocument families)) := by
  have plain := noRepeats_plainDocument legible once
  have unmarked : ∀ (key : String) g, (FamilyMap.ofText (plainDocument families))[key]? = some g →
      ∀ s ∈ g.samples, ∀ label ∈ s.labels, label.1 ∉ Labelling.gateway.names := by
    intro key g here s inside
    obtain ⟨f, among, t, given, read⟩ :=
      (mem_samplesIn_plainDocument legible).1 (mem_samplesIn_iff.2 ⟨key, g, here, inside⟩)
    obtain ⟨_, _, rfl⟩ := Option.map_eq_some_iff.1 read
    exact free f among t given
  have apart : ∀ (key other : String) g h,
      (FamilyMap.ofText (plainDocument families))[key]? = some g →
      (FamilyMap.ofText (plainDocument families))[other]? = some h → ∀ s ∈ g.samples,
        ∀ t ∈ h.samples, ¬ s.SameSeries t →
          ¬ (Labelling.gateway.labelSample s).SameSeries (Labelling.gateway.labelSample t) := by
    intro key other g h here there s left t right differ series
    have full := Labelling.gateway.names_length_eq_values_length.symm
    exact differ (Sample.SameSeries.of_appended (by decide) full full (unmarked key g here s left)
      (unmarked other h there t right) series).1
  have named := FamilyMap.named_ofText (plainDocument families)
  rw [markedDocument, samplesIn_toText fun _ => legible_marked, NoRepeats, List.pairwise_flatMap]
  constructor
  · intro f member
    obtain ⟨g, here, rfl⟩ := (Labelling.mem_sorted_apply named).1 member
    refine List.pairwise_map.2 ((plain.family here).imp_of_mem ?_)
    exact fun left right differ => apart _ _ g g here here _ left _ right differ
  · refine (Labelling.named_apply named).sorted_pairwise.imp_of_mem ?_
    intro f f' member member' before s left t right
    obtain ⟨g, here, rfl⟩ := (Labelling.mem_sorted_apply named).1 member
    obtain ⟨h, there, rfl⟩ := (Labelling.mem_sorted_apply named).1 member'
    obtain ⟨s, own, rfl⟩ := List.mem_map.1 left
    obtain ⟨t, own', rfl⟩ := List.mem_map.1 right
    refine apart _ _ g h here there s own t own' (plain.families here there ?_ s own t own')
    exact fun same => String.lt_irrefl _ (same ▸ before)

end Marked
end MetricGateway
