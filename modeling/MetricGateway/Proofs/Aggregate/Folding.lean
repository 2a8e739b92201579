import MetricGateway.Aggregate

/- What an aggregate has under a key, in closed form. Folding acts on each key alone; there the
   first family fixes name and type, and the samples of the later families of that type follow its
   own. -/
namespace MetricGateway

/-- What is known under a key once all that is reported there has been taken in. -/
def absorbAll (known : Option Family) (reports : List Family) : Option Family :=
  reports.foldl (fun known reported => absorbInto reported known) known

/-- The first help text of a list of families that says something, or else the empty one. -/
def firstHelp (families : List Family) : String :=
  ((families.map Family.help).find? (· ≠ "")).getD ""

namespace Family

def alike (first : Family) (reports : List Family) : List Family :=
  reports.filter fun f => f.type = first.type

def joined (first : Family) (reports : List Family) : Family where
  name := first.name
  type := first.type
  help := firstHelp (first :: first.alike reports)
  samples := (first :: first.alike reports).flatMap Family.samples

theorem joined_nil (first : Family) : first.joined [] = first := by
  unfold joined alike firstHelp
  by_cases empty : first.help = ""
  · cases first
    simp_all
  · simp [empty]

theorem joined_cons (first f : Family) (reports : List Family) :
    first.joined (f :: reports) = (first.absorb f).joined reports := by
  unfold absorb
  by_cases same : first.type = f.type
  · by_cases empty : first.help = ""
    · by_cases other : f.help = ""
      · simp [joined, alike, firstHelp, same, empty, other]
      · simp [joined, alike, firstHelp, same, empty, other]
    · simp [joined, alike, firstHelp, same, empty]
  · have apart : ¬ f.type = first.type := fun equal => same equal.symm
    simp [joined, alike, firstHelp, same, apart]

end Family

theorem absorbAll_some (first : Family) (reports : List Family) :
    absorbAll (some first) reports = some (first.joined reports) := by
  induction reports generalizing first with
  | nil => exact congrArg some (Family.joined_nil first).symm
  | cons f reports ih =>
    have next : absorbAll (some first) (f :: reports) = absorbAll (some (first.absorb f)) reports :=
      rfl
    rw [next, ih, Family.joined_cons]

theorem absorbAll_none (reports : List Family) :
    absorbAll none reports = reports.head?.map fun first => first.joined reports.tail := by
  cases reports with
  | nil => rfl
  | cons f reports => exact absorbAll_some f reports

namespace FamilyMap

theorem getElem?_foldl_alter {entries : List (String × Family)}
    (distinct : entries.Pairwise fun a b => a.1 ≠ b.1) (sum : FamilyMap) (key : String) :
    (entries.foldl (fun sum entry => sum.alter entry.1 (absorbInto entry.2)) sum)[key]? =
      match entries.lookup key with
      | some reported => absorbInto reported sum[key]?
      | none => sum[key]? := by
  induction entries generalizing sum with
  | nil => rfl
  | cons entry entries ih =>
    obtain ⟨name, reported⟩ := entry
    obtain ⟨first, distinct⟩ := List.pairwise_cons.1 distinct
    rw [List.foldl_cons, ih distinct, Std.ExtTreeMap.getElem?_alter]
    by_cases own : name = key
    · subst own
      have gone : entries.lookup name = none := by
        rw [List.lookup_eq_none_iff]
        intro other member
        simpa using first other member
      simp [gone]
    · have apart : ¬ compare name key = .eq := fun equal => own (Std.compare_eq_iff_eq.1 equal)
      have other : (key == name) = false := by simpa using Ne.symm own
      simp only [apart, if_false, List.lookup_cons, other]

theorem lookup_toList (m : FamilyMap) (key : String) : m.toList.lookup key = m[key]? := by
  cases here : m[key]? with
  | none =>
    rw [List.lookup_eq_none_iff]
    intro entry member
    have there := Std.ExtTreeMap.mem_toList_iff_getElem?_eq_some.1 member
    have other : key ≠ entry.1 := by
      rintro rfl
      rw [here] at there
      cases there
    simpa using other
  | some f =>
    have member := Std.ExtTreeMap.mem_toList_iff_getElem?_eq_some.2 here
    cases found : m.toList.lookup key with
    | none =>
      have missing := List.lookup_eq_none_iff.1 found (key, f) member
      simp at missing
    | some g =>
      obtain ⟨before, after, split, _⟩ := List.lookup_eq_some_iff.1 found
      have among : (key, g) ∈ m.toList := split ▸ by simp
      have there := Std.ExtTreeMap.mem_toList_iff_getElem?_eq_some.1 among
      exact there.symm.trans here

theorem getElem?_fold (sum batch : FamilyMap) (key : String) :
    (sum.fold batch)[key]? =
      match batch[key]? with
      | some reported => absorbInto reported sum[key]?
      | none => sum[key]? := by
  have distinct : batch.toList.Pairwise fun a b => a.1 ≠ b.1 :=
    Std.ExtTreeMap.distinct_keys_toList.imp fun apart equal =>
      apart (Std.compare_eq_iff_eq.2 equal)
  rw [fold, Std.ExtTreeMap.foldl_eq_foldl_toList, getElem?_foldl_alter distinct, lookup_toList]

theorem getElem?_foldl_fold (batches : List FamilyMap) (sum : FamilyMap) (key : String) :
    (batches.foldl fold sum)[key]? = absorbAll sum[key]? (batches.filterMap (·[key]?)) := by
  induction batches generalizing sum with
  | nil => rfl
  | cons batch batches ih =>
    rw [List.foldl_cons, ih, getElem?_fold]
    cases here : batch[key]? with
    | none => simp [here]
    | some reported =>
      simp only [List.filterMap_cons, here]
      rfl

theorem parts_of_foldl {batches : List FamilyMap} {key : String} {f : Family}
    (here : (batches.foldl fold ∅)[key]? = some f) :
    (∃ b ∈ batches, ∃ g, b[key]? = some g ∧ f.name = g.name) ∧
      ∀ s ∈ f.samples, ∃ b ∈ batches, ∃ g, b[key]? = some g ∧ s ∈ g.samples := by
  have unknown : (∅ : FamilyMap)[key]? = none := Std.ExtTreeMap.getElem?_empty
  rw [getElem?_foldl_fold, unknown, absorbAll_none, Option.map_eq_some_iff] at here
  obtain ⟨first, head, rfl⟩ := here
  have brought : ∀ g ∈ batches.filterMap (·[key]?), ∃ b ∈ batches, b[key]? = some g :=
    fun g member => List.mem_filterMap.1 member
  obtain ⟨rest, brings⟩ := List.head?_eq_some_iff.1 head
  constructor
  · obtain ⟨b, among, own⟩ := brought first (brings ▸ List.mem_cons_self)
    exact ⟨b, among, first, own, rfl⟩
  · intro s member
    obtain ⟨g, inside, own⟩ := List.mem_flatMap.1 member
    have listed : g ∈ batches.filterMap (·[key]?) := by
      rw [brings]
      rcases List.mem_cons.1 inside with rfl | later
      · exact List.mem_cons_self
      · rw [brings, List.tail_cons] at later
        exact List.mem_cons_of_mem _ (List.mem_filter.1 later).1
    obtain ⟨b, among, has⟩ := brought g listed
    exact ⟨b, among, g, has, own⟩

theorem isSome_foldl {batches : List FamilyMap} {key : String} :
    (batches.foldl fold ∅)[key]?.isSome = true ↔ ∃ b ∈ batches, b[key]?.isSome = true := by
  have unknown : (∅ : FamilyMap)[key]? = none := Std.ExtTreeMap.getElem?_empty
  rw [getElem?_foldl_fold, unknown, absorbAll_none, Option.isSome_map, List.isSome_head?]
  simp [List.filterMap_eq_nil_iff]

end FamilyMap
end MetricGateway
