import MetricGateway.Proofs.Settings.Consistency
import MetricGateway.Proofs.Text.Scan
import Mathlib.Data.List.Nodup
import Mathlib.Data.List.Pairwise
import Mathlib.Data.List.TakeWhile

/- The endpoints that settings name. Checked settings name each of them once. What the origin labels
   of an instance tell is its application and its number, but not which endpoint of the application.
   -/
namespace MetricGateway
namespace Target

def SameApplication (t u : Target) : Prop :=
  t.org = u.org ∧ t.space = u.space ∧ t.app = u.app ∧ t.effectiveAppId = u.effectiveAppId

theorem number_instanceAt (t : Target) (n : Nat) :
    (t.instanceAt n).number? = some (toString n) := by
  have digits : ':' ∉ (toString n).toList := by
    intro member
    rw [Nat.toString_eq_ofList_toDigits, String.toList_ofList] at member
    exact absurd (Nat.isDigit_of_mem_toDigits (by decide) (by decide) member) (by decide)
  have text : (t.instanceAt n).id.toList =
      t.effectiveAppId.toList ++ ':' :: (toString n).toList := by
    simp [instanceAt, String.toList_append]
  rw [Instance.number?, instanceNumber?, text, Text.afterLast?_append digits, Option.map_some,
    String.ofList_toList]

theorem values_instanceAt {t u : Target} {m n : Nat} :
    (t.instanceAt m).origin.values = (u.instanceAt n).origin.values ↔
      t.SameApplication u ∧ m = n := by
  constructor
  · intro same
    have numbers : ∀ (t : Target) (n : Nat), instanceNumber? (t.instanceAt n).id =
        some (toString n) := number_instanceAt
    simp only [Origin.values, Instance.origin, numbers, Option.getD_some, List.cons.injEq,
      and_true] at same
    obtain ⟨org, space, app, id, number⟩ := same
    rw [Nat.toString_eq_ofList_toDigits, Nat.toString_eq_ofList_toDigits] at number
    have digits := congrArg (fun text => Nat.ofDigitChars 10 (String.toList text) 0) number
    simp only [String.toList_ofList, Nat.ofDigitChars_ten_toDigits] at digits
    subst digits
    refine ⟨⟨org, space, app, ?_⟩, rfl⟩
    have text := congrArg String.toList id
    simp only [instanceAt, String.toList_append, List.append_cancel_right_eq] at text
    exact String.toList_inj.1 text
  · rintro ⟨⟨org, space, app, id⟩, rfl⟩
    simp [Origin.values, Instance.origin, instanceAt, org, space, app, id]

theorem instanceAt_injective {t : Target} {m n : Nat} (same : t.instanceAt m = t.instanceAt n) :
    m = n :=
  (values_instanceAt.1 (congrArg (fun i => i.origin.values) same)).2

theorem instance_of_values {t u : Target} {i j : Instance} (own : i ∈ t.allInstances)
    (other : j ∈ u.allInstances) (alone : u.SameApplication t → u = t)
    (same : j.origin.values = i.origin.values) : j = i := by
  obtain ⟨m, _, rfl⟩ := List.mem_map.1 own
  obtain ⟨n, _, rfl⟩ := List.mem_map.1 other
  obtain ⟨application, rfl⟩ := values_instanceAt.1 same
  rw [alone application]

theorem key_of_instance {t u : Target} {i : Instance} (left : i ∈ t.allInstances)
    (right : i ∈ u.allInstances) : t.key = u.key := by
  obtain ⟨m, _, rfl⟩ := List.mem_map.1 left
  obtain ⟨n, _, same⟩ := List.mem_map.1 right
  have fields : ∀ (t : Target) (n : Nat), t.key = ⟨(t.instanceAt n).org, (t.instanceAt n).space,
      (t.instanceAt n).app, (t.instanceAt n).path, (t.instanceAt n).protocol⟩ := fun _ _ => rfl
  rw [fields t m, fields u n, same]

theorem eq_of_key {targets : List Target} (keys : targets.Pairwise fun t u => t.key ≠ u.key)
    {t u : Target} (left : t ∈ targets) (right : u ∈ targets) (same : t.key = u.key) : t = u := by
  have symmetric : Std.Symm fun t u : Target => t.key ≠ u.key := ⟨fun _ _ apart => apart.symm⟩
  by_cases equal : t = u
  · exact equal
  · exact absurd same (keys.forall left right equal)

theorem nodup_instances {targets : List Target} (keys : targets.Pairwise fun t u => t.key ≠ u.key) :
    (targets.flatMap allInstances).Nodup := by
  rw [List.nodup_flatMap]
  constructor
  · intro t _
    exact List.Nodup.map (fun m n => instanceAt_injective) List.nodup_range
  · exact keys.imp fun apart => fun i left right => apart (key_of_instance left right)

end Target

theorem GatewaySettings.keys_of_check {s settings : GatewaySettings}
    (checked : s.check = .ok settings) : settings.targets.Pairwise fun t u => t.key ≠ u.key :=
  (consistent_of_check checked).keys

theorem GatewaySettings.processingTime_of_check {s settings : GatewaySettings}
    (checked : s.check = .ok settings) : 0 < settings.scraping.maxProcessingTime :=
  Nat.pos_of_ne_zero (consistent_of_check checked).processingTime

def Target.endpoint (path : String) : Target :=
  ⟨"org", "space", "app", none, "app.example", path, "http", 1, none⟩

def twoEndpoints : GatewaySettings where
  ownMetrics := { enabled := false }
  targets := [.endpoint "/metrics", .endpoint "/more"]

end MetricGateway
