import MetricGateway.Proofs.Metrics.Indicator
import MetricGateway.Proofs.Round.Attribution
import MetricGateway.Proofs.Service.AtWork
import MetricGateway.Proofs.Service.Endpoints

/- Whether an instance that is down can be seen to be so. Instances at several endpoints of one
   application share an indicator; it has the state of the one that was reported last. -/
namespace MetricGateway

def ShowsDown (text : String) (i : Instance) : Prop :=
  ∃ s ∈ samplesIn text, s.name = metricName "up" ∧ originLabelNames.zip i.origin.values ⊆ s.labels ∧
    s.value = .zero

theorem lastState?_of_alone {up : List (Instance × Bool)} (once : (up.map Prod.fst).Nodup)
    {i : Instance} {state : Bool} (member : (i, state) ∈ up)
    (alone : ∀ r ∈ up, r.1.origin.values = i.origin.values → r.1 = i) :
    RequestMetrics.lastState? up i.origin.values = some state := by
  unfold RequestMetrics.lastState?
  cases last : (up.filter fun r => r.1.origin.values = i.origin.values).getLast? with
  | none =>
    have among : (i, state) ∈ up.filter fun r => r.1.origin.values = i.origin.values :=
      List.mem_filter.2 ⟨member, by simp⟩
    rw [List.getLast?_eq_none_iff.1 last] at among
    cases among
  | some r =>
    obtain ⟨inside, same⟩ := List.mem_filter.1 (List.mem_of_getLast? last)
    have own := alone r inside (of_decide_eq_true same)
    rw [List.inj_on_of_nodup_map once inside member own, Option.map_some]

theorem showsDown_iff (report : RoundReport) (i : Instance) :
    ShowsDown (report.metrics true).render i ↔
      RequestMetrics.lastState? report.up i.origin.values = some false := by
  have full : i.origin.values.length = originLabelNames.length := rfl
  have last :=
    RequestMetrics.shown_iff_last report.up (Round.milliseconds report.duration) full false
  rw [RequestMetrics.indicator_false] at last
  exact last

/-- A round over instances found under checked settings shows an instance that is down as such
    exactly if, of all that it reports with the same origin labels, the last is down. It does so for
    sure if no other target names an endpoint of the same application. -/
theorem down_shown_iff {s settings : GatewaySettings} (checked : s.check = .ok settings)
    {g : Gateway} (works : Gateway.AtWork settings g) (appId number : Option String)
    {plans : List (Instance × FetchPlan)}
    (scraped : plans.map Prod.fst = (g.discover appId number).2) (retainRaw : Bool)
    {order left : List Slot} (course : Round.Course settings.roundSettings plans order left) :
    let report := Round.settle settings.roundSettings retainRaw plans order left
    ∀ i, (i, false) ∈ report.up →
      (ShowsDown (report.metrics true).render i ↔
        RequestMetrics.lastState? report.up i.origin.values = some false) ∧
      ∃ t ∈ settings.targets, i ∈ t.allInstances ∧
        ((∀ u ∈ settings.targets, u.SameApplication t → u = t) →
          ShowsDown (report.metrics true).render i) := by
  intro report i down
  have keys := GatewaySettings.keys_of_check checked
  obtain ⟨once, targets⟩ := works.found keys appId number
  have reported := Round.reported_of_course course retainRaw
  rw [scraped] at reported
  have target : ∀ r ∈ report.up, ∃ t ∈ settings.targets, r.1 ∈ t.allInstances := fun r member =>
    targets r.1 (reported.subset (List.mem_map_of_mem member))
  obtain ⟨t, named, own⟩ := target (i, false) down
  refine ⟨showsDown_iff report i, t, named, own, fun alone => (showsDown_iff report i).2 ?_⟩
  refine lastState?_of_alone (reported.nodup_iff.2 once) down fun r member same => ?_
  obtain ⟨u, named', own'⟩ := target r member
  exact Target.instance_of_values own own' (alone u named') same

/-- The first endpoint fails after some milliseconds, the second answers. -/
def halfDown (delay : Nat) : List (Instance × FetchPlan) :=
  Gateway.twoFetches ⟨some delay, .failed⟩ ⟨some 10, .page ⟨"", .text004⟩⟩

theorem late_failure_shown :
    let settings := twoEndpoints.roundSettings
    let order := (slots settings (halfDown 20)).reverse
    let report := Round.settle settings false (halfDown 20) order []
    ((Target.endpoint "/metrics").instanceAt 0, false) ∈ report.up ∧
      ShowsDown (report.metrics true).render ((Target.endpoint "/metrics").instanceAt 0) := by
  have course : Round.Course twoEndpoints.roundSettings (halfDown 20)
      (slots twoEndpoints.roundSettings (halfDown 20)).reverse [] := by
    constructor
    · rw [List.append_nil]
      exact List.reverse_perm _
    · decide
    · simp
    · decide
  have down : ((Target.endpoint "/metrics").instanceAt 0, false) ∈
      (Round.settle twoEndpoints.roundSettings false (halfDown 20)
        (slots twoEndpoints.roundSettings (halfDown 20)).reverse []).up := by decide
  have checked : twoEndpoints.check = .ok twoEndpoints := by decide
  have shown := down_shown_iff checked Gateway.atWork_ofTwoEndpoints none none
    (Gateway.found_ofTwoEndpoints _ _) false course _ down
  exact ⟨down, shown.1.2 (by decide)⟩

theorem failure_hidden_behind_answer : ∃ (s settings : GatewaySettings) (g : Gateway)
    (plans : List (Instance × FetchPlan)) (order left : List Slot) (i : Instance),
    s.check = .ok settings ∧ Gateway.AtWork settings g ∧
      plans.map Prod.fst = (g.discover none none).2 ∧
      Round.Course settings.roundSettings plans order left ∧
      (i, false) ∈ (Round.settle settings.roundSettings false plans order left).up ∧
      ¬ ShowsDown ((Round.settle settings.roundSettings false plans order left).metrics true).render
        i := by
  have course : Round.Course twoEndpoints.roundSettings (halfDown 0)
      (slots twoEndpoints.roundSettings (halfDown 0)) [] := by
    constructor
    · rw [List.append_nil]
    · decide
    · simp
    · decide
  refine ⟨twoEndpoints, twoEndpoints, .ofTwoEndpoints, halfDown 0, _, _,
    (Target.endpoint "/metrics").instanceAt 0, by decide, Gateway.atWork_ofTwoEndpoints,
    Gateway.found_ofTwoEndpoints _ _, course, by decide, ?_⟩
  rw [showsDown_iff]
  decide

end MetricGateway
