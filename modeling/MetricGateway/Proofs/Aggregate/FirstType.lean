import MetricGateway.Proofs.Aggregate.Folding
import MetricGateway.Proofs.Exposition.ReadBack

/- What a sequence of batches folds to, and how much of it depends on their order. The first batch
   that has a key fixes the type under it. What comes later with another type leaves no trace, and
   what comes with the same type is only put in another place when it comes at another time. -/
namespace MetricGateway

def OneType (families : List Family) : Prop :=
  ∀ f ∈ families, ∀ g ∈ families, f.type = g.type

/-- The families do not have two help texts that say something and differ. -/
def OneHelp (families : List Family) : Prop :=
  ∀ f ∈ families, ∀ g ∈ families, f.help ≠ "" → g.help ≠ "" → f.help = g.help

structure Family.SameButOrder (f g : Family) : Prop where
  type : f.type = g.type
  help : f.help = g.help
  samples : f.samples.Perm g.samples

section Help

variable {families others : List Family}

theorem firstHelp_silent (silent : ∀ f ∈ families, f.help = "") : firstHelp families = "" := by
  have missed : (families.map Family.help).find? (· ≠ "") = none := by
    simpa using silent
  rw [firstHelp, missed, Option.getD_none]

theorem firstHelp_of_mem (one : OneHelp families) {f : Family} (member : f ∈ families)
    (telling : f.help ≠ "") : firstHelp families = f.help := by
  cases found : (families.map Family.help).find? (· ≠ "") with
  | none =>
    have silent := List.find?_eq_none.1 found f.help (List.mem_map_of_mem member)
    simp [telling] at silent
  | some help =>
    obtain ⟨g, among, rfl⟩ := List.mem_map.1 (List.mem_of_find?_eq_some found)
    have told : g.help ≠ "" := by simpa using List.find?_some found
    rw [firstHelp, found, Option.getD_some]
    exact one g among f member told telling

theorem OneType.perm (one : OneType families) (reordered : others.Perm families) :
    OneType others := fun f left g right =>
  one f (reordered.mem_iff.1 left) g (reordered.mem_iff.1 right)

theorem firstHelp_perm (one : OneHelp families) (reordered : others.Perm families) :
    firstHelp others = firstHelp families := by
  by_cases telling : ∃ f ∈ families, f.help ≠ ""
  · obtain ⟨f, member, told⟩ := telling
    have others_one : OneHelp others := fun f left g right =>
      one f (reordered.mem_iff.1 left) g (reordered.mem_iff.1 right)
    rw [firstHelp_of_mem one member told,
      firstHelp_of_mem others_one (reordered.mem_iff.2 member) told]
  · have silent : ∀ f ∈ families, f.help = "" := by simpa using telling
    rw [firstHelp_silent silent,
      firstHelp_silent fun f member => silent f (reordered.mem_iff.1 member)]

end Help

namespace Family

variable {first : Family} {rest : List Family}

theorem alike_self : (first :: rest).filter (fun f => f.type = first.type) =
    first :: first.alike rest := by
  simp [alike]

theorem alike_of_oneType (one : OneType (first :: rest)) : first.alike rest = rest :=
  List.filter_eq_self.2 fun f member => by
    simpa using one f (List.mem_cons_of_mem _ member) first List.mem_cons_self

theorem joined_of_oneType (one : OneType (first :: rest)) : first.joined rest =
    ⟨first.name, first.type, firstHelp (first :: rest), (first :: rest).flatMap Family.samples⟩ := by
  rw [joined, alike_of_oneType one]

theorem joined_perm {second : Family} {tail : List Family}
    (reordered : (second :: tail).Perm (first :: rest)) (type : OneType (first :: rest))
    (help : OneHelp (first :: rest)) :
    (first.joined rest).SameButOrder (second.joined tail) := by
  rw [joined_of_oneType type, joined_of_oneType (type.perm reordered)]
  constructor
  · exact type first List.mem_cons_self second (reordered.mem_iff.1 List.mem_cons_self)
  · exact (firstHelp_perm help reordered).symm
  · exact reordered.symm.flatMap_right _

end Family

namespace FamilyMap

def reports (batches : List FamilyMap) (key : String) : List Family :=
  batches.filterMap (·[key]?)

variable {batches others : List FamilyMap} {key : String}

theorem getElem?_foldl_empty : (batches.foldl fold ∅)[key]? =
    (reports batches key).head?.map fun first => first.joined (reports batches key).tail := by
  have unknown : (∅ : FamilyMap)[key]? = none := Std.ExtTreeMap.getElem?_empty
  rw [getElem?_foldl_fold, unknown, absorbAll_none]
  rfl

theorem getElem?_foldl_perm (reordered : others.Perm batches)
    (type : OneType (reports batches key)) (help : OneHelp (reports batches key)) :
    Option.Rel Family.SameButOrder (batches.foldl fold ∅)[key]? (others.foldl fold ∅)[key]? := by
  have swapped : (reports others key).Perm (reports batches key) := reordered.filterMap _
  rw [getElem?_foldl_empty, getElem?_foldl_empty]
  cases told : reports batches key with
  | nil =>
    rw [told] at swapped
    rw [swapped.eq_nil]
    exact .none
  | cons first rest =>
    rw [told] at swapped type help
    cases again : reports others key with
    | nil =>
      rw [again] at swapped
      exact absurd swapped.symm.eq_nil (List.cons_ne_nil _ _)
    | cons second tail =>
      rw [again] at swapped
      exact .some (Family.joined_perm swapped type help)

theorem named_foldl (named : ∀ batch ∈ batches, batch.Named) : (batches.foldl fold ∅).Named := by
  intro key f here
  obtain ⟨batch, among, g, own, same⟩ := (parts_of_foldl here).1
  exact same.trans (named batch among key g own)

/-- Batches folded into nothing come to the keys that one of them has. Under a key, the first report
    fixes the type, the samples of the reports of this type follow one another, and the first help
    text among them that says something is kept; the other reports leave no trace. Whatever the
    order of the batches, families stay under their own names; and where the reports under a key
    agree in type and help text, another order changes that of the samples at most. -/
theorem fold_first_type_wins (batches : List FamilyMap) :
    (∀ key, key ∈ batches.foldl fold ∅ ↔ ∃ batch ∈ batches, key ∈ batch) ∧
    (∀ key first rest, reports batches key = first :: rest →
      let kept := (reports batches key).filter fun f => f.type = first.type
      (batches.foldl fold ∅)[key]? =
        some ⟨first.name, first.type, firstHelp kept, kept.flatMap Family.samples⟩) ∧
    ∀ others : List FamilyMap, others.Perm batches →
      ((∀ batch ∈ batches, batch.Named) → (others.foldl fold ∅).Named) ∧
      ∀ key, OneType (reports batches key) → OneHelp (reports batches key) →
        Option.Rel Family.SameButOrder (batches.foldl fold ∅)[key]? (others.foldl fold ∅)[key]? := by
  refine ⟨fun key => ?_, fun key first rest told => ?_, fun others reordered => ⟨?_, ?_⟩⟩
  · simp only [Std.ExtTreeMap.mem_iff_isSome_getElem?]
    exact isSome_foldl
  · rw [getElem?_foldl_empty, told, Family.alike_self]
    rfl
  · intro named
    exact named_foldl fun batch member => named batch (reordered.mem_iff.1 member)
  · intro key type help
    exact getElem?_foldl_perm reordered type help

def alone (f : Family) : FamilyMap := (∅ : FamilyMap).insert f.name f

theorem getElem?_alone (f : Family) (key : String) :
    (alone f)[key]? = if f.name = key then some f else none := by
  simp [alone, Std.ExtTreeMap.getElem?_insert]

theorem named_alone (f : Family) : (alone f).Named := by
  intro key g here
  rw [getElem?_alone] at here
  split at here
  · cases here
    assumption
  · cases here

def counted (help : String) (value : Double) : Family :=
  ⟨"requests", .counter, help, [.unlabelled "requests" value]⟩

def gauged : Family :=
  ⟨"requests", .gauge, "Requests in flight", [.unlabelled "requests" (.infinite false)]⟩

theorem gauge_between_counters_dropped :
    let early := alone (counted "" .zero)
    let late := alone (counted "Requests served" .nan)
    ([early, alone gauged, late].foldl fold ∅)["requests"]? = some ⟨"requests", .counter,
        "Requests served", [.unlabelled "requests" .zero, .unlabelled "requests" .nan]⟩ ∧
      ([late, early].foldl fold ∅).Named ∧
      Option.Rel Family.SameButOrder ([early, late].foldl fold ∅)["requests"]?
        ([late, early].foldl fold ∅)["requests"]? := by
  intro early late
  have told : reports [early, alone gauged, late] "requests" =
      [counted "" .zero, gauged, counted "Requests served" .nan] := by
    simp [reports, early, late, getElem?_alone, counted, gauged]
  have told' : reports [early, late] "requests" =
      [counted "" .zero, counted "Requests served" .nan] := by
    simp [reports, early, late, getElem?_alone, counted]
  have type : OneType (reports [early, late] "requests") := by
    rw [told']
    unfold OneType
    decide
  have help : OneHelp (reports [early, late] "requests") := by
    rw [told']
    unfold OneHelp
    decide
  have named : ∀ batch ∈ [early, late], batch.Named := by
    intro batch member
    simp only [List.mem_cons, List.not_mem_nil, or_false] at member
    rcases member with rfl | rfl <;> exact named_alone _
  obtain ⟨-, sum, -⟩ := fold_first_type_wins [early, alone gauged, late]
  obtain ⟨-, -, orders⟩ := fold_first_type_wins [early, late]
  obtain ⟨own, same⟩ := orders [late, early] (.swap early late [])
  refine ⟨?_, own named, same "requests" type help⟩
  have first := sum "requests" _ _ told
  rw [told] at first
  exact first

end FamilyMap
end MetricGateway
