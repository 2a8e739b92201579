import MetricGateway.Proofs.Exposition.Accepted
import MetricGateway.Proofs.Exposition.Lines

/- What the families of a document hold: the samples that its lines show, each in one family, and
   names that can stand in a document again. -/
namespace MetricGateway
namespace SampleLine

theorem legible_of_read {line : List Char} {s : Sample} (done : read line = .ok s) : s.Legible := by
  obtain ⟨l, proper, _, _, rfl⟩ := exists_spelling done
  refine ⟨?_, fun label member => ?_⟩
  · rw [Spelling.sample, String.toList_ofList]
    exact proper.name
  · obtain ⟨p, own, rfl⟩ := proper.middle.exists_pair member
    rw [Pair.label, String.toList_ofList]
    exact own.name

end SampleLine

theorem legible_of_sampleOf {line : List Char} {s : Sample}
    (shown : Reading.sampleOf? line = some s) : s.Legible := by
  unfold Reading.sampleOf? at shown
  split at shown
  · cases done : SampleLine.read line with
    | error e => simp [done, Except.toOption] at shown
    | ok t =>
      simp only [done, Except.toOption, Option.some.injEq] at shown
      exact shown ▸ SampleLine.legible_of_read done
  · cases shown

theorem legible_of_samplesIn {text : String} {s : Sample} (shown : s ∈ samplesIn text) :
    s.Legible := by
  obtain ⟨line, _, own⟩ := List.mem_filterMap.1 shown
  exact legible_of_sampleOf own

namespace Reading

theorem samples_arrivals (r : Reading) (lines : List (List Char)) :
    (r.arrivals lines).map Prod.snd = lines.filterMap sampleOf? := by
  induction lines generalizing r with
  | nil => rfl
  | cons line lines ih =>
    rw [arrivals, List.map_append, ih, List.filterMap_cons]
    cases sampleOf? line <;> rfl

theorem keyOf_cases (r : Reading) (name : String) :
    r.keyOf name = name ∨ r.keyOf name = baseName name := by
  unfold keyOf
  split
  · exact Or.inr rfl
  · exact Or.inl rfl

theorem exists_family {text : String} {a : Reading × Sample}
    (arrives : a ∈ arrivals {} (Text.lines text.toList)) :
    ∃ f, (FamilyMap.ofText text)[a.1.keyOf a.2.name]? = some f ∧ a.2 ∈ f.samples := by
  have own : a ∈ underKey (a.1.keyOf a.2.name) (arrivals {} (Text.lines text.toList)) :=
    mem_underKey.2 ⟨arrives, rfl⟩
  have unknown : ({} : Reading).families[a.1.keyOf a.2.name]? = none :=
    Std.ExtTreeMap.getElem?_empty
  rw [FamilyMap.ofText, finish, Std.ExtTreeMap.getElem?_map, families_foldl, unknown]
  cases under : underKey (a.1.keyOf a.2.name) (arrivals {} (Text.lines text.toList)) with
  | nil =>
    rw [under] at own
    cases own
  | cons first others =>
    rw [under] at own
    exact ⟨_, rfl, List.mem_map.2 ⟨a, own, rfl⟩⟩

end Reading

theorem mem_samplesIn_iff {text : String} {s : Sample} :
    s ∈ samplesIn text ↔
      ∃ (key : String) (f : Family), (FamilyMap.ofText text)[key]? = some f ∧ s ∈ f.samples := by
  have lines : samplesIn text = (Reading.arrivals {} (Text.lines text.toList)).map Prod.snd :=
    (Reading.samples_arrivals {} _).symm
  rw [lines, List.mem_map]
  constructor
  · rintro ⟨a, arrives, rfl⟩
    obtain ⟨f, here, member⟩ := Reading.exists_family arrives
    exact ⟨_, f, here, member⟩
  · rintro ⟨key, f, here, member⟩
    obtain ⟨a, others, own, _, _, samples⟩ := Reading.arrivals_of_family here
    rw [samples, ← own] at member
    obtain ⟨b, under, rfl⟩ := List.mem_map.1 member
    exact ⟨b, (Reading.mem_underKey.1 under).1, rfl⟩

namespace FamilyMap

theorem named_ofText (text : String) : (ofText text).Named := by
  intro key f here
  obtain ⟨_, _, _, name, _⟩ := Reading.arrivals_of_family here
  exact name

theorem key_of_sample {text key : String} {f : Family} (here : (ofText text)[key]? = some f)
    {s : Sample} (member : s ∈ f.samples) : key = s.name ∨ key = baseName s.name := by
  obtain ⟨a, others, own, _, _, samples⟩ := Reading.arrivals_of_family here
  rw [samples, ← own] at member
  obtain ⟨b, under, rfl⟩ := List.mem_map.1 member
  rw [← (Reading.mem_underKey.1 under).2]
  exact b.1.keyOf_cases b.2.name

theorem exists_sample {text key : String} {f : Family} (here : (ofText text)[key]? = some f) :
    ∃ s, s ∈ f.samples := by
  obtain ⟨a, others, _, _, _, samples⟩ := Reading.arrivals_of_family here
  exact ⟨a.2, by simp [samples]⟩

theorem legible_ofText {text key : String} {f : Family} (here : (ofText text)[key]? = some f) :
    f.Legible := by
  constructor
  · obtain ⟨s, member⟩ := exists_sample here
    have name := (legible_of_samplesIn (mem_samplesIn_iff.2 ⟨key, f, here, member⟩)).name.2
    rw [named_ofText text key f here]
    rcases key_of_sample here member with rfl | rfl
    · exact name
    · obtain ⟨suffix, longer⟩ := baseName_prefix s.name
      intro c member
      exact name c (by rw [longer]; exact List.mem_append_left suffix member)
  · intro s member
    exact legible_of_samplesIn (mem_samplesIn_iff.2 ⟨key, f, here, member⟩)

end FamilyMap
end MetricGateway
