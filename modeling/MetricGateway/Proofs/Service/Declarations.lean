import MetricGateway.Proofs.Metrics.Indicator
import MetricGateway.Proofs.Service.Body

/- How often a served body declares a name. What has been collected and what the gateway adds
   declare each name once, so that a name stands twice if it comes in both. -/
namespace MetricGateway
namespace Gateway

section Shown

variable {enriched : Bool} {documents : List (Instance × Page)} {additional body : String}

def Brought (documents : List (Instance × Page)) (name : String) : Prop :=
  ∃ d ∈ documents, (FamilyMap.ofText d.2.data)[name]?.isSome = true

theorem declared_collected (enriched : Bool) (documents : List (Instance × Page)) (name : String) :
    name ∈ (Round.collected enriched documents).sorted.map Family.name ↔
      Brought documents name := by
  have named := Round.named_collected enriched documents
  rw [Brought, ← Round.isSome_collected enriched, Option.isSome_iff_exists, List.mem_map]
  constructor
  · rintro ⟨f, member, rfl⟩
    exact ⟨f, named.mem_sorted.1 member⟩
  · rintro ⟨f, here⟩
    have same := named name f here
    exact ⟨f, named.mem_sorted.2 (same ▸ here), same⟩

theorem Shown.count (shown : Shown enriched documents additional body) (name : String) :
    (declaredIn body).count name ≤ 2 ∧
      (1 < (declaredIn body).count name ↔
        name ∈ declaredIn additional ∧ Brought documents name) := by
  obtain ⟨names, _, text⟩ := shown.own
  rw [shown.declared, List.count_append]
  have first := List.nodup_iff_count_le_one.1
    (declared_nodup (Round.named_collected enriched documents)) name
  have second := List.nodup_iff_count_le_one.1 text.declared name
  refine ⟨by omega, ?_⟩
  rw [← declared_collected enriched, ← List.count_pos_iff, ← List.count_pos_iff]
  omega

theorem Shown.own_names (shown : Shown enriched documents additional body) {name : String}
    (declared : name ∈ declaredIn additional) : "herakles_gateway_".toList <+: name.toList := by
  obtain ⟨names, among, text⟩ := shown.own
  obtain ⟨n, member, before⟩ := text.declaredUnder name declared
  obtain ⟨rest, rfl, _⟩ := rest_of_name (among member)
  rw [toList_metricName] at before
  exact (List.prefix_append _ _).trans before

end Shown

theorem up_declared {report : RoundReport} {r : Instance × Bool} (member : r ∈ report.up)
    (own : Option GatewayMetrics) :
    metricName "up" ∈ declaredIn ((report.metrics true).additional own) := by
  obtain ⟨state, last⟩ : ∃ state,
      RequestMetrics.lastState? report.up r.1.origin.values = some state := by
    rw [← Option.isSome_iff_exists, RequestMetrics.lastState?, Option.isSome_map,
      List.getLast?_isSome]
    exact List.ne_nil_of_mem (List.mem_filter.2 ⟨member, by simp⟩)
  have full : r.1.origin.values.length = originLabelNames.length := rfl
  obtain ⟨s, shown, name, _⟩ := (RequestMetrics.shown_iff_last report.up
    (Round.milliseconds report.duration) full state).2 last
  have base : baseName (metricName "up") = metricName "up" := by decide
  have declared := declared_of_sample shown (by rw [name]; exact base)
  rw [name] at declared
  have isClosed : Text.IsClosed (report.metrics true).render := isClosed_markedDocument
  have parted := observed_append declaredName?_blank isClosed
    ((own.map GatewayMetrics.render).getD "")
  rw [RequestMetrics.additional, declaredIn, parted]
  exact List.mem_append_left _ declared

/-- Whatever the targets answer with, a served body declares no name more than twice, and twice only
    a name of the gateway's own metrics, if a document has brought a family of that name too. -/
theorem declared_twice_iff {s settings : GatewaySettings} (checked : s.check = .ok settings)
    {g : Gateway} (works : AtWork settings g) :
    (∀ t, ∃ documents additional, Serves settings g documents additional (g.serveAll t).2.body) ∧
    ∀ documents additional body, Serves settings g documents additional body → ∀ name,
      (declaredIn body).count name ≤ 2 ∧
      (1 < (declaredIn body).count name ↔ name ∈ declaredIn additional ∧ Brought documents name) ∧
      (name ∈ declaredIn additional → "herakles_gateway_".toList <+: name.toList) := by
  have keys := GatewaySettings.keys_of_check checked
  refine ⟨fun t => (works.sound keys).serves keys t, ?_⟩
  intro documents additional body serves name
  obtain ⟨bound, twice⟩ := serves.shown.count name
  exact ⟨bound, twice, serves.shown.own_names⟩

theorem blank_documents_declare_once :
    ((Target.endpoint "/metrics").instanceAt 0, true) ∈ (bothReport "" "").up ∧
      ∀ name, (declaredIn ((bothReport "" "").document none)).count name ≤ 1 := by
  refine ⟨by decide, fun name => ?_⟩
  have checked : twoEndpoints.check = .ok twoEndpoints := by decide
  obtain ⟨_, twice, _⟩ :=
    (declared_twice_iff checked atWork_ofTwoEndpoints).2 _ _ _ (serves_both "" "") name
  refine Nat.le_of_not_lt fun more => ?_
  obtain ⟨d, member, brought⟩ := (twice.1 more).2
  have blank : ∀ d ∈ bothDocuments "" "", d.2.data = "" := by decide
  have empty : (FamilyMap.ofText "")[name]? = none := Std.ExtTreeMap.getElem?_empty
  rw [blank d member, empty] at brought
  cases brought

/-- A document of another gateway brings an indicator too. -/
theorem up_declared_twice : ∃ (s settings : GatewaySettings) (g : Gateway)
    (documents : List (Instance × Page)) (additional body : String),
    s.check = .ok settings ∧ AtWork settings g ∧ Serves settings g documents additional body ∧
      1 < (declaredIn body).count (metricName "up") := by
  have serves := serves_both "" "herakles_gateway_up 1\n"
  have reported : ((Target.endpoint "/metrics").instanceAt 0, true) ∈
      (bothReport "" "herakles_gateway_up 1\n").up := by decide
  refine ⟨twoEndpoints, twoEndpoints, ofTwoEndpoints, _, _, _, by decide, atWork_ofTwoEndpoints,
    serves, ?_⟩
  rw [(serves.shown.count _).2]
  refine ⟨up_declared reported none, _, List.mem_cons_of_mem _ List.mem_cons_self, ?_⟩
  decide

end Gateway
end MetricGateway
