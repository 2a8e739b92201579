import MetricGateway.Proofs.Exposition.Collected
import Mathlib.Data.List.Pairwise

/- Series, which are told apart by name and set of labels, and samples that repeat none. -/
namespace MetricGateway

namespace Sample

/-- The same name and the same set of labels. -/
def SameSeries (s t : Sample) : Prop :=
  s.name = t.name ∧ s.labels ⊆ t.labels ∧ t.labels ⊆ s.labels

instance (s t : Sample) : Decidable (s.SameSeries t) := inferInstanceAs (Decidable (_ ∧ _ ∧ _))

theorem SameSeries.symm {s t : Sample} (same : s.SameSeries t) : t.SameSeries s :=
  ⟨same.1.symm, same.2.2, same.2.1⟩

theorem reread_sampleText (s : Sample) : s.reread Decimal.sampleText = some s := by
  rw [reread, Decimal.sampleValue?_sampleText]
  rfl

end Sample

def NoRepeats (samples : List Sample) : Prop := samples.Pairwise fun s t => ¬ s.SameSeries t

instance (samples : List Sample) : Decidable (NoRepeats samples) :=
  inferInstanceAs (Decidable (List.Pairwise _ _))

theorem NoRepeats.perm {samples others : List Sample} (same : samples.Perm others) :
    NoRepeats samples ↔ NoRepeats others :=
  same.pairwise_iff fun apart same => apart same.symm

theorem NoRepeats.reread {samples : List Sample} (once : NoRepeats samples)
    (token : Double → List Char) : NoRepeats (samples.filterMap (Sample.reread token)) := by
  unfold NoRepeats
  rw [List.pairwise_filterMap]
  refine once.imp fun apart s' left t' right same => apart ?_
  obtain ⟨_, _, rfl⟩ := Option.map_eq_some_iff.1 left
  obtain ⟨_, _, rfl⟩ := Option.map_eq_some_iff.1 right
  exact same

theorem samplesIn_toText {m : FamilyMap} (legible : ∀ f ∈ m.sorted, f.Legible) :
    samplesIn m.toText = m.sorted.flatMap Family.samples := by
  rw [(shows_toText legible).samples]
  refine List.flatMap_congr fun f _ => ?_
  rw [List.filterMap_congr fun s _ => s.reread_sampleText]
  exact List.filterMap_some

section Labelled

theorem zip_injective {names values others : List String} (distinct : names.Nodup)
    (full : values.length = names.length) (full' : others.length = names.length)
    (within : names.zip values ⊆ names.zip others) : values = others := by
  induction names generalizing values others with
  | nil => rw [List.length_eq_zero_iff.1 full, List.length_eq_zero_iff.1 full']
  | cons n names ih =>
    cases values with
    | nil => cases full
    | cons v values =>
      cases others with
      | nil => cases full'
      | cons w others =>
        obtain ⟨fresh, distinct⟩ := List.nodup_cons.1 distinct
        simp only [List.zip_cons_cons, List.length_cons, Nat.add_right_cancel_iff] at *
        have first : v = w := by
          rcases List.mem_cons.1 (within List.mem_cons_self) with same | later
          · exact (Prod.mk.inj same).2
          · exact absurd (List.of_mem_zip later).1 fresh
        have rest : names.zip values ⊆ names.zip others := by
          intro pair member
          rcases List.mem_cons.1 (within (List.mem_cons_of_mem _ member)) with same | later
          · rw [same] at member
            exact absurd (List.of_mem_zip member).1 fresh
          · exact later
        rw [first, ih distinct full full' rest]

theorem Sample.SameSeries.of_appended {names values others : List String} {s t : Sample}
    (distinct : names.Nodup) (full : values.length = names.length)
    (full' : others.length = names.length) (free : ∀ label ∈ s.labels, label.1 ∉ names)
    (free' : ∀ label ∈ t.labels, label.1 ∉ names)
    (same : Sample.SameSeries { s with labels := s.labels ++ names.zip values }
      { t with labels := t.labels ++ names.zip others }) : s.SameSeries t ∧ values = others := by
  have own : ∀ {front back : List (String × String)} {vs ws : List String},
      (∀ label ∈ front, label.1 ∉ names) → front ++ names.zip vs ⊆ back ++ names.zip ws →
        front ⊆ back := by
    intro front back vs ws clear within label member
    rcases List.mem_append.1 (within (List.mem_append_left _ member)) with before | behind
    · exact before
    · exact absurd (List.of_mem_zip behind).1 (clear label member)
  obtain ⟨name, left, right⟩ := same
  refine ⟨⟨name, own free left, own free' right⟩, zip_injective distinct full full' ?_⟩
  intro pair member
  rcases List.mem_append.1 (left (List.mem_append_right _ member)) with before | behind
  · exact absurd (List.of_mem_zip member).1 (free' pair before)
  · exact behind

theorem Sample.SameSeries.of_prepended {names values others : List String} {m n : String}
    {behind behind' : List (String × String)} {x y : Double} (distinct : names.Nodup)
    (full : values.length = names.length) (full' : others.length = names.length)
    (free : ∀ label ∈ behind, label.1 ∉ names) (free' : ∀ label ∈ behind', label.1 ∉ names)
    (same : Sample.SameSeries ⟨m, names.zip values ++ behind, x⟩
      ⟨n, names.zip others ++ behind', y⟩) :
    (behind ⊆ behind' ∧ behind' ⊆ behind) ∧ values = others := by
  have swap : ∀ {a b c d : List (String × String)}, a ++ b ⊆ c ++ d → b ++ a ⊆ d ++ c := by
    intro a b c d within l member
    exact List.mem_append.2 (List.mem_append.1 (within (List.mem_append.2
      (List.mem_append.1 member).symm))).symm
  obtain ⟨name, left, right⟩ := same
  have swapped : Sample.SameSeries ⟨m, behind ++ names.zip values, x⟩
      ⟨n, behind' ++ names.zip others, y⟩ := ⟨name, swap left, swap right⟩
  obtain ⟨⟨_, labels⟩, values⟩ := Sample.SameSeries.of_appended (s := ⟨m, behind, x⟩)
    (t := ⟨n, behind', y⟩) distinct full full' free free' swapped
  exact ⟨labels, values⟩

theorem Sample.SameSeries.append {s t : Sample} (same : s.SameSeries t)
    (labels : List (String × String)) :
    Sample.SameSeries { s with labels := s.labels ++ labels }
      { t with labels := t.labels ++ labels } := by
  obtain ⟨name, left, right⟩ := same
  refine ⟨name, ?_, ?_⟩
  · exact List.append_subset.2 ⟨fun l member => List.mem_append_left _ (left member),
      List.subset_append_right _ _⟩
  · exact List.append_subset.2 ⟨fun l member => List.mem_append_left _ (right member),
      List.subset_append_right _ _⟩

end Labelled

section Document

variable {text key : String} {f : Family}

theorem samples_sublist (here : (FamilyMap.ofText text)[key]? = some f) :
    f.samples.Sublist (samplesIn text) := by
  obtain ⟨a, others, own, _, _, samples⟩ := Reading.arrivals_of_family here
  have lines : samplesIn text = (Reading.arrivals {} (Text.lines text.toList)).map Prod.snd :=
    (Reading.samples_arrivals {} _).symm
  rw [samples, ← own, lines]
  exact List.filter_sublist.map Prod.snd

theorem NoRepeats.family (once : NoRepeats (samplesIn text))
    (here : (FamilyMap.ofText text)[key]? = some f) : NoRepeats f.samples :=
  List.Pairwise.sublist (samples_sublist here) once

theorem NoRepeats.families {other : String} {g : Family} (once : NoRepeats (samplesIn text))
    (here : (FamilyMap.ofText text)[key]? = some f)
    (there : (FamilyMap.ofText text)[other]? = some g)
    (apart : key ≠ other) : ∀ s ∈ f.samples, ∀ t ∈ g.samples, ¬ s.SameSeries t := by
  have lines : samplesIn text = (Reading.arrivals {} (Text.lines text.toList)).map Prod.snd :=
    (Reading.samples_arrivals {} _).symm
  rw [NoRepeats, lines, List.pairwise_map] at once
  obtain ⟨_, _, own, _, _, samples⟩ := Reading.arrivals_of_family here
  obtain ⟨_, _, own', _, _, samples'⟩ := Reading.arrivals_of_family there
  intro s left t right
  rw [samples, ← own] at left
  rw [samples', ← own'] at right
  obtain ⟨a, under, rfl⟩ := List.mem_map.1 left
  obtain ⟨b, under', rfl⟩ := List.mem_map.1 right
  obtain ⟨first, ofKey⟩ := Reading.mem_underKey.1 under
  obtain ⟨second, ofOther⟩ := Reading.mem_underKey.1 under'
  have symmetric : Std.Symm fun a b : Reading × Sample => ¬ a.2.SameSeries b.2 :=
    ⟨fun _ _ apart same => apart same.symm⟩
  refine once.forall first second ?_
  rintro rfl
  exact apart (ofKey.symm.trans ofOther)

end Document
end MetricGateway
