import MetricGateway.Proofs.Aggregate.FirstType
import MetricGateway.Proofs.Metrics.Additional
import Mathlib.Data.List.Forall2
import Mathlib.Data.List.Nodup

/- What a labelling does to a family map. Every sample gets the same labels behind its own, and
   nothing else changes. The names of the new labels are apart, but nothing keeps a sample from
   having one of them already; so its names stay apart exactly if it has none. -/
namespace MetricGateway

structure Sample.ExtendedBy (added : List (String × String)) (s s' : Sample) : Prop where
  name : s'.name = s.name
  value : s'.value = s.value
  labels : s'.labels = s.labels ++ added

structure Family.Related (R : Sample → Sample → Prop) (f f' : Family) : Prop where
  name : f'.name = f.name
  type : f'.type = f.type
  help : f'.help = f.help
  samples : List.Forall₂ R f.samples f'.samples

namespace Labelling

theorem map_fst_labels (l : Labelling) : l.labels.map Prod.fst = l.names :=
  List.map_fst_zip (Nat.le_of_eq l.names_length_eq_values_length)

theorem nodup_names (l : Labelling) : l.names.Nodup := by
  cases l with
  | origin o => exact nodup_own .none
  | own labelPrefix o => exact nodup_own labelPrefix
  | instanceOnly id => exact List.nodup_singleton _
  | gateway => exact List.nodup_singleton _
  | none => exact List.nodup_nil

theorem labelNames_labelSample (l : Labelling) (s : Sample) :
    (l.labelSample s).labelNames = s.labelNames ++ l.names := by
  rw [Sample.labelNames, labelSample, List.map_append, map_fst_labels]
  rfl

theorem nodup_labelSample_iff {l : Labelling} {s : Sample} (distinct : s.labelNames.Nodup) :
    (l.labelSample s).labelNames.Nodup ↔ ∀ name ∈ l.names, name ∉ s.labelNames := by
  rw [labelNames_labelSample, List.nodup_append]
  constructor
  · rintro ⟨_, _, apart⟩ name new old
    exact apart name old name new rfl
  · intro free
    refine ⟨distinct, l.nodup_names, ?_⟩
    rintro name old _ new rfl
    exact free name new old

theorem related_labelFamily (l : Labelling) {R : Sample → Sample → Prop} {f : Family}
    (each : ∀ s ∈ f.samples, R s (l.labelSample s)) : f.Related R (l.labelFamily f) := by
  refine ⟨rfl, rfl, rfl, ?_⟩
  rw [labelFamily, List.forall₂_map_right_iff, List.forall₂_same]
  exact each

/-- A labelling keeps keys, families and samples as they are and in their order, but for some labels
    with its own names that it puts behind those of every sample. Where the names of each sample
    have been apart, those of a labelled one are so exactly if it had none of the new names. -/
theorem labels_apart_iff (l : Labelling) (families : FamilyMap)
    (distinct : ∀ (key : String) (f : Family), families[key]? = some f →
      ∀ s ∈ f.samples, s.labelNames.Nodup) :
    ∃ added : List (String × String), added.map Prod.fst = l.names ∧ ∀ key : String,
      Option.Rel (Family.Related fun s s' => s.ExtendedBy added s' ∧
        (s'.labelNames.Nodup ↔ ∀ name ∈ l.names, name ∉ s.labelNames))
          families[key]? (l.apply families)[key]? := by
  refine ⟨l.labels, l.map_fst_labels, fun key => ?_⟩
  rw [getElem?_apply]
  cases here : families[key]? with
  | none => exact .none
  | some f =>
    refine .some (related_labelFamily l fun s member => ⟨⟨rfl, rfl, rfl⟩, ?_⟩)
    exact nodup_labelSample_iff (distinct key f here s member)

/-- Requests counted by the application that sent them, as its own label tells. -/
def requestsByApp : Family :=
  ⟨"requests", .counter, "", [⟨"requests", [("app_name", "client")], .zero⟩]⟩

def shop : Origin := ⟨"org", "space", "shop", "shop:0"⟩

theorem prefixed_labels_apart : ∃ f' : Family,
    ((ownMetrics (some "gw") shop).apply (FamilyMap.alone requestsByApp))["requests"]? = some f' ∧
      ∀ s ∈ f'.samples, s.labelNames.Nodup := by
  have distinct : ∀ (key : String) (f : Family), (FamilyMap.alone requestsByApp)[key]? = some f →
      ∀ s ∈ f.samples, s.labelNames.Nodup := by
    intro key f here
    rw [FamilyMap.getElem?_alone] at here
    split at here
    · cases here
      decide
    · cases here
  obtain ⟨added, names, related⟩ := labels_apart_iff (ownMetrics (some "gw") shop) _ distinct
  have own := related "requests"
  have there : (FamilyMap.alone requestsByApp)["requests"]? = some requestsByApp :=
    FamilyMap.getElem?_alone requestsByApp "requests"
  rw [there] at own
  generalize ((ownMetrics (some "gw") shop).apply (FamilyMap.alone requestsByApp))["requests"]? =
    found at own
  cases own with
  | @some _ f' whole =>
    refine ⟨f', rfl, ?_⟩
    have samples := whole.samples
    generalize f'.samples = after at samples
    cases samples with
    | cons first rest =>
      cases rest
      exact List.forall_mem_singleton.2 (first.2.2 (by decide))

/-- A sample has its application's label and the origin label of the same name. -/
theorem app_name_twice : ∃ f' : Family,
    ((Labelling.origin shop).apply (FamilyMap.alone requestsByApp))["requests"]? = some f' ∧
      (∀ s ∈ requestsByApp.samples, s.labelNames.Nodup) ∧
      ∃ s ∈ f'.samples, ¬ s.labelNames.Nodup := by
  refine ⟨(Labelling.origin shop).labelFamily requestsByApp, ?_, by decide, by decide⟩
  rw [getElem?_apply, FamilyMap.getElem?_alone]
  rfl

end Labelling
end MetricGateway
