import MetricGateway.Proofs.Metrics.Additional
import MetricGateway.Proofs.Round.Attribution
import MetricGateway.Proofs.Service.AtWork

/- What a gateway serves for all its instances: the families of the documents that came, and behind
   them what it adds of its own. -/
namespace MetricGateway

namespace Round

def collected (enriched : Bool) (documents : List (Instance × Page)) : FamilyMap :=
  (documents.map fun d => batch enriched d.1 d.2).foldl FamilyMap.fold ∅

theorem collected_true (documents : List (Instance × Page)) :
    collected true documents = aggregated documents := rfl

theorem families_settle (settings : RoundSettings) (plans : List (Instance × FetchPlan))
    (order left : List Slot) : (settle settings false plans order left).families =
      collected settings.labelEnrichment (documents order) := by
  rw [settle, foldl_take]
  rfl

theorem raw_settle (settings : RoundSettings) (plans : List (Instance × FetchPlan))
    (order left : List Slot) : (settle settings true plans order left).raw = documents order := by
  rw [settle, foldl_take]
  rfl

section Collected

variable {enriched : Bool} {documents : List (Instance × Page)} {key : String} {f : Family}

theorem isSome_batch {i : Instance} {p : Page} :
    (batch enriched i p)[key]?.isSome = (FamilyMap.ofText p.data)[key]?.isSome := by
  rw [batch, Labelling.getElem?_apply, Option.isSome_map]

theorem legible_batch {i : Instance} {p : Page} (here : (batch enriched i p)[key]? = some f) :
    f.name = key ∧ f.Legible := by
  rw [batch, Labelling.getElem?_apply, Option.map_eq_some_iff] at here
  obtain ⟨g, own, rfl⟩ := here
  refine ⟨FamilyMap.named_ofText _ key g own, ?_⟩
  refine Labelling.legible_labelFamily (fun name member => ?_) (FamilyMap.legible_ofText own)
  cases enriched with
  | false => cases member
  | true => exact (vectorLabels_origin.proper name member).1

theorem legible_collected (here : (collected enriched documents)[key]? = some f) :
    f.name = key ∧ f.Legible := by
  obtain ⟨⟨b, among, g, own, same⟩, samples⟩ := FamilyMap.parts_of_foldl here
  obtain ⟨d, _, rfl⟩ := List.mem_map.1 among
  obtain ⟨name, legible⟩ := legible_batch own
  refine ⟨same.trans name, ⟨by rw [same]; exact legible.name, fun s member => ?_⟩⟩
  obtain ⟨b, among, g, own, inside⟩ := samples s member
  obtain ⟨d, _, rfl⟩ := List.mem_map.1 among
  exact (legible_batch own).2.samples s inside

theorem named_collected (enriched : Bool) (documents : List (Instance × Page)) :
    (collected enriched documents).Named := fun _ _ here => (legible_collected here).1

theorem isSome_collected (enriched : Bool) (documents : List (Instance × Page)) (key : String) :
    (collected enriched documents)[key]?.isSome = true ↔
      ∃ d ∈ documents, (FamilyMap.ofText d.2.data)[key]?.isSome = true := by
  rw [collected, FamilyMap.isSome_foldl]
  simp only [List.mem_map, exists_exists_and_eq_and, isSome_batch]

end Collected

end Round

theorem document_eq (r : RoundReport) (own : Option GatewayMetrics) :
    r.document own = r.families.toText ++ (r.metrics true).additional own := by
  unfold RoundReport.document appendTo Page.append
  dsimp only
  split
  · rename_i empty
    rw [empty, String.append_empty]
  · rfl

theorem toList_plans (t : Transport) (id : String) (earlier : List FetchRequest)
    (instances : List Instance) : (t.plans id earlier instances).map Prod.fst = instances := by
  induction instances generalizing earlier with
  | nil => rfl
  | cons i instances ih => exact congrArg (i :: ·) (ih _)

namespace Gateway

/-- What can be served for all instances, by the documents that have come and what is added to them:
    whatever the fetches bring, in whatever order they end, and whatever has been recorded before.
    -/
inductive Serves (settings : GatewaySettings) (g : Gateway) :
    List (Instance × Page) → String → String → Prop where
  | answer {plans : List (Instance × FetchPlan)} {order left : List Slot} {report : RoundReport}
      {own : Option GatewayMetrics} (asked : plans.map Prod.fst = (g.discover none none).2)
      (course : Round.Course settings.roundSettings plans order left)
      (ends : Round.settle settings.roundSettings false plans order left = report)
      (used : ∀ m, own = some m → m.InUse) :
      Serves settings g (Round.documents order) ((report.metrics true).additional own)
        (report.document own)

variable {settings : GatewaySettings} {g : Gateway}

structure Shown (enriched : Bool) (documents : List (Instance × Page)) (additional body : String) :
    Prop where
  own : ∃ names, names ⊆ requestNames ++ workNames ∧ OwnText names additional
  samples : samplesIn body =
    (Round.collected enriched documents).sorted.flatMap Family.samples ++ samplesIn additional
  declared : declaredIn body =
    (Round.collected enriched documents).sorted.map Family.name ++ declaredIn additional

theorem Serves.shown {documents : List (Instance × Page)} {additional body : String}
    (serves : Serves settings g documents additional body) :
    Shown settings.scraping.labelEnrichment documents additional body := by
  cases serves with
  | @answer plans order left report own asked course ends used =>
    have families : report.families =
        Round.collected settings.scraping.labelEnrichment (Round.documents order) := by
      rw [← ends]
      exact Round.families_settle settings.roundSettings _ _ _
    have legible : ∀ f ∈ report.families.sorted, f.Legible := by
      intro f member
      rw [families] at member
      exact (Round.legible_collected ((Round.named_collected _ _).mem_sorted.1 member)).2
    have text := shows_toText legible
    have sound : (report.metrics true).Sound := (RequestMetrics.sound_create true).record _ _
    rw [document_eq]
    constructor
    · exact ownText_additional sound fun m same => (used m same).sound
    · rw [samplesIn, observed_append sampleOf?_blank text.isClosed, ← families]
      exact congrArg (· ++ _) (samplesIn_toText legible)
    · rw [declaredIn, observed_append declaredName?_blank text.isClosed, ← families]
      exact congrArg (· ++ _) text.declared

theorem Sound.serves (keys : settings.targets.Pairwise fun t u => t.key ≠ u.key)
    (sound : g.Sound settings) (t : Transport) :
    ∃ documents additional, Serves settings g documents additional (g.serveAll t).2.body := by
  have retained := (sound.discover keys none none).1.retain (g.discover none none).2
  let asking := (g.discover none none).1.retain (g.discover none none).2
  let plans := t.plans asking.id asking.sent (g.discover none none).2
  have body : (g.serveAll t).2.body =
      (Round.run asking.settings.roundSettings false plans).document (g.serveAll t).1.metrics := rfl
  rw [retained.settings_eq] at body
  rw [body]
  exact ⟨_, _, .answer (toList_plans t _ _ _) (Round.course_run _ _)
    (Round.run_eq_settle settings.roundSettings false plans).symm (sound.serveAll keys t).metrics⟩

section Example

variable (first second : String)

def bothAnswer : List (Instance × FetchPlan) :=
  twoFetches ⟨some 0, .page ⟨first, .text004⟩⟩ ⟨some 10, .page ⟨second, .text004⟩⟩

def bothDocuments : List (Instance × Page) :=
  [((Target.endpoint "/metrics").instanceAt 0, ⟨first, .text004⟩),
    ((Target.endpoint "/more").instanceAt 0, ⟨second, .text004⟩)]

def bothReport : RoundReport :=
  Round.settle twoEndpoints.roundSettings false (bothAnswer first second)
    (slots twoEndpoints.roundSettings (bothAnswer first second)) []

theorem serves_both : Serves twoEndpoints ofTwoEndpoints (bothDocuments first second)
    (((bothReport first second).metrics true).additional none)
    ((bothReport first second).document none) := by
  have both : slots twoEndpoints.roundSettings (bothAnswer first second) =
      [⟨(Target.endpoint "/metrics").instanceAt 0, 0, 0, .page ⟨first, .text004⟩⟩,
        ⟨(Target.endpoint "/more").instanceAt 0, 0, 10, .page ⟨second, .text004⟩⟩] := rfl
  have course : Round.Course twoEndpoints.roundSettings (bothAnswer first second)
      (slots twoEndpoints.roundSettings (bothAnswer first second)) [] := by
    constructor
    · rw [List.append_nil]
    · rw [both]
      simp [Round.isAnswer, GatewaySettings.roundSettings, twoEndpoints]
    · simp
    · rw [both]
      simp
  exact .answer (found_ofTwoEndpoints _ _) course rfl (by simp)

end Example

end Gateway
end MetricGateway
