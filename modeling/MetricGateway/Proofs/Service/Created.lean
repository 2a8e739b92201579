import MetricGateway.Proofs.Settings.Consistency
import MetricGateway.Service.Gateway

/- Checked settings always make a gateway. The check lets only such label prefixes pass as make
   label names, and nothing else can keep the gateway's metrics from being set up. -/
namespace MetricGateway

theorem isLabelName_append {front : String} (proper : isLabelName front = true) {back : String}
    (plain : back.toList.all (fun c => Text.isAlphanumeric c || c == '_') = true) :
    isLabelName (front ++ back) = true := by
  unfold isLabelName at proper ⊢
  rw [String.toList_append]
  cases text : front.toList with
  | nil => simp [text] at proper
  | cons c rest =>
    simp only [text, Bool.and_eq_true] at proper
    simp only [List.cons_append, Bool.and_eq_true, List.all_append]
    exact ⟨proper.1, proper.2, plain⟩

theorem MetricVector.create?_eq {α : Type} {labelNames : List String}
    (proper : ∀ n ∈ labelNames, isLabelName n = true) (name : String) (type : MetricType)
    (help : String) : (create? name type help labelNames : Except MetricsError (MetricVector α)) =
      .ok { name, type, help, labelNames } := by
  have missing : labelNames.find? (fun n => !isLabelName n) = none := by
    rw [List.find?_eq_none]
    intro n member
    rw [proper n member]
    decide
  unfold create?
  rw [missing]

theorem GatewayMetrics.exists_create {labelPrefix : Option String} (latency : Bool)
    (fits : labelPrefix.all (fun p => p == "" || isLabelName p) = true) :
    ∃ m, create? labelPrefix latency = .ok m := by
  have origin : ∀ name ∈ originLabelNames, isLabelName name = true ∧
      ("_" ++ name).toList.all (fun c => Text.isAlphanumeric c || c == '_') = true := by decide
  have own : ∀ name ∈ ownLabelNames (labelPrefix.filter (· != "")), isLabelName name = true := by
    cases labelPrefix with
    | none => exact fun name member => (origin name member).1
    | some p =>
      by_cases empty : p = ""
      · subst empty
        exact fun name member => (origin name member).1
      · have proper : isLabelName p = true := by simpa [empty] using fits
        have kept : (some p).filter (· != "") = some p := by simp [empty]
        rw [kept]
        intro name member
        obtain ⟨label, known, rfl⟩ := List.mem_map.1 member
        rw [String.append_assoc]
        exact isLabelName_append proper (origin label known).2
  have cache : ∀ name ∈ ["cache_name"], isLabelName name = true := by decide
  simp only [create?, MetricVector.create?_eq own, MetricVector.create?_eq cache, bind, Except.bind]
  exact ⟨_, rfl⟩

namespace Gateway

theorem exists_create {s settings : GatewaySettings} (checked : s.check = .ok settings)
    (id : String) : ∃ g, create? settings id = .ok g := by
  have fits : settings.prefixFits = true :=
    settings.prefixFits_iff.2 (GatewaySettings.consistent_of_check checked).labelPrefix
  obtain ⟨own, made⟩ := GatewayMetrics.exists_create settings.ownMetrics.requestLatency fits
  unfold create?
  rw [made]
  exact ⟨_, rfl⟩

end Gateway
end MetricGateway
