import MetricGateway.Proofs.Service.Body

/- Whether a served body repeats a series. Origin labels tell apart what different applications and
   instances bring, but not what several endpoints of one instance do. -/
namespace MetricGateway

/-- A document that does not repeat a series, and whose samples have neither origin labels nor names
    such as the gateway's own. -/
structure FairDocument (text : String) : Prop where
  once : NoRepeats (samplesIn text)
  unlabelled : ∀ s ∈ samplesIn text, ∀ label ∈ s.labels, label.1 ∉ originLabelNames
  foreign : ∀ s ∈ samplesIn text, ¬ "herakles_gateway".toList <+: s.name.toList

namespace Round

def Kept (documents : List (Instance × Page)) (d : Instance × Page) (s : Sample) : Prop :=
  ∃ (key : String) (f g : Family), (FamilyMap.ofText d.2.data)[key]? = some f ∧
    (aggregated documents)[key]? = some g ∧ f.type = g.type ∧ s ∈ f.samples

/-- Both documents bring a sample of one series, and the origin labels of the two are the same. -/
def Clash (documents : List (Instance × Page)) (d e : Instance × Page) : Prop :=
  d.1.origin.values = e.1.origin.values ∧
    ∃ s t, Kept documents d s ∧ Kept documents e t ∧ s.SameSeries t

theorem Clash.symm {documents : List (Instance × Page)} {d e : Instance × Page}
    (clash : Clash documents d e) : Clash documents e d := by
  obtain ⟨values, s, t, left, right, same⟩ := clash
  exact ⟨values.symm, t, s, right, left, same.symm⟩

section Contribution

variable {type : MetricType} {key : String} {d : Instance × Page} {s : Sample}

theorem mem_contribution : s ∈ contribution type key d ↔
    ∃ f t, (FamilyMap.ofText d.2.data)[key]? = some f ∧ f.type = type ∧ t ∈ f.samples ∧
      (Labelling.origin d.1.origin).labelSample t = s := by
  unfold contribution
  cases (FamilyMap.ofText d.2.data)[key]? with
  | none => simp
  | some f =>
    by_cases same : f.type = type
    · simp [same, Labelling.labelSample, Labelling.labels, Labelling.names, Labelling.values]
    · simp [same]

theorem named_aggregated (documents : List (Instance × Page)) : (aggregated documents).Named :=
  fun _ _ => name_aggregated

theorem mem_samples_aggregated {documents : List (Instance × Page)} {g : Family}
    (listed : g ∈ (aggregated documents).sorted) :
    s ∈ g.samples ↔ ∃ d ∈ documents, s ∈ contribution g.type g.name d := by
  have named := named_aggregated documents
  rw [samples_aggregated (named.mem_sorted.1 listed), List.mem_flatMap]

end Contribution

section Fair

variable {documents : List (Instance × Page)} (fair : ∀ d ∈ documents, FairDocument d.2.data)
  {d e : Instance × Page} (left : d ∈ documents) (right : e ∈ documents)

include fair left right

theorem sameSeries_labelled {s t : Sample} (own : s ∈ samplesIn d.2.data)
    (own' : t ∈ samplesIn e.2.data) :
    ((Labelling.origin d.1.origin).labelSample s).SameSeries
        ((Labelling.origin e.1.origin).labelSample t) ↔
      d.1.origin.values = e.1.origin.values ∧ s.SameSeries t := by
  constructor
  · intro same
    have full (d : Instance × Page) : d.1.origin.values.length = originLabelNames.length := rfl
    obtain ⟨before, values⟩ := Sample.SameSeries.of_appended (by decide) (full d) (full e)
      ((fair d left).unlabelled s own) ((fair e right).unlabelled t own') same
    exact ⟨values, before⟩
  · rintro ⟨values, same⟩
    have labels : (Labelling.origin d.1.origin).labels = (Labelling.origin e.1.origin).labels :=
      congrArg originLabelNames.zip values
    unfold Labelling.labelSample
    rw [labels]
    exact same.append _

/-- What two documents contribute is of one series only if they clash or are one, and in the latter
    case only under one name and not twice. -/
theorem clash_of_contributions {key key' : String} {g g' : Family}
    (here : (aggregated documents)[key]? = some g) (here' : (aggregated documents)[key']? = some g')
    {s t : Sample} (first : s ∈ contribution g.type key d)
    (second : t ∈ contribution g'.type key' e) (series : s.SameSeries t) :
    Clash documents d e ∧ (d = e → key = key') := by
  obtain ⟨f, s, own, type, member, rfl⟩ := mem_contribution.1 first
  obtain ⟨f', t, own', type', member', rfl⟩ := mem_contribution.1 second
  obtain ⟨values, same⟩ := (sameSeries_labelled fair left right
    (mem_samplesIn_iff.2 ⟨key, f, own, member⟩)
    (mem_samplesIn_iff.2 ⟨key', f', own', member'⟩)).1 series
  refine ⟨⟨values, s, t, ⟨key, f, g, own, here, type, member⟩,
    ⟨key', f', g', own', here', type', member'⟩, same⟩, ?_⟩
  rintro rfl
  refine Decidable.byContradiction fun apart => ?_
  exact (fair d left).once.families own own' apart s member t member' same

end Fair

section Aggregated

variable {documents : List (Instance × Page)} (fair : ∀ d ∈ documents, FairDocument d.2.data)

include fair

theorem noRepeats_contribution {d : Instance × Page} (member : d ∈ documents) (type : MetricType)
    (key : String) : NoRepeats (contribution type key d) := by
  unfold contribution
  cases own : (FamilyMap.ofText d.2.data)[key]? with
  | none => exact .nil
  | some f =>
    dsimp only
    split
    · refine List.pairwise_map.2 (((fair d member).once.family own).imp_of_mem ?_)
      intro s t left right differ series
      have sources := sameSeries_labelled fair member member
        (mem_samplesIn_iff.2 ⟨key, f, own, left⟩) (mem_samplesIn_iff.2 ⟨key, f, own, right⟩)
      exact differ (sources.1 series).2
    · exact .nil

theorem noRepeats_aggregated (apart : documents.Pairwise fun d e => ¬ Clash documents d e) :
    NoRepeats ((aggregated documents).sorted.flatMap Family.samples) := by
  have named := named_aggregated documents
  have symmetric : Std.Symm fun d e => ¬ Clash documents d e :=
    ⟨fun _ _ clear clash => clear clash.symm⟩
  rw [NoRepeats, List.pairwise_flatMap]
  constructor
  · intro g listed
    have here := named.mem_sorted.1 listed
    rw [samples_aggregated here, List.pairwise_flatMap]
    refine ⟨fun d member => noRepeats_contribution fair member _ _, apart.imp_of_mem ?_⟩
    intro d e left right clear s first t second series
    exact clear (clash_of_contributions fair left right here here first second series).1
  · refine named.sorted_pairwise.imp_of_mem ?_
    intro g g' listed listed' before s first t second series
    obtain ⟨d, left, first⟩ := (mem_samples_aggregated listed).1 first
    obtain ⟨e, right, second⟩ := (mem_samples_aggregated listed').1 second
    obtain ⟨clash, one⟩ := clash_of_contributions fair left right (named.mem_sorted.1 listed)
      (named.mem_sorted.1 listed') first second series
    refine apart.forall left right (fun same => ?_) clash
    rw [one same] at before
    exact String.lt_irrefl _ before

theorem apart_of_noRepeats
    (once : NoRepeats ((aggregated documents).sorted.flatMap Family.samples)) :
    documents.Pairwise fun d e => ¬ Clash documents d e := by
  have named := named_aggregated documents
  have symmetric : Std.Symm fun f g : Family =>
      ∀ s ∈ f.samples, ∀ t ∈ g.samples, ¬ s.SameSeries t :=
    ⟨fun _ _ apart t right s left same => apart s left t right same.symm⟩
  rw [NoRepeats, List.pairwise_flatMap] at once
  obtain ⟨inside, across⟩ := once
  rw [List.pairwise_iff_forall_sublist]
  rintro d e both ⟨values, s, t, ⟨key, f, g, own, here, type, member⟩,
    ⟨key', f', g', own', here', type', member'⟩, same⟩
  have left : d ∈ documents := both.subset List.mem_cons_self
  have right : e ∈ documents := both.subset (List.mem_cons_of_mem _ List.mem_cons_self)
  have series := (sameSeries_labelled fair left right (mem_samplesIn_iff.2 ⟨key, f, own, member⟩)
    (mem_samplesIn_iff.2 ⟨key', f', own', member'⟩)).2 ⟨values, same⟩
  have first := mem_contribution.2 ⟨f, s, own, type, member, rfl⟩
  have second := mem_contribution.2 ⟨f', t, own', type', member', rfl⟩
  cases name_aggregated here
  cases name_aggregated here'
  have listed := named.mem_sorted.2 here
  have listed' := named.mem_sorted.2 here'
  by_cases one : g = g'
  · -- Within one family the documents stand one behind the other.
    subst one
    have order := inside g listed
    rw [samples_aggregated here, List.pairwise_flatMap] at order
    exact List.pairwise_iff_forall_sublist.1 order.2 both _ first _ second series
  · exact across.forall listed listed' one _ ((mem_samples_aggregated listed).2 ⟨d, left, first⟩) _
      ((mem_samples_aggregated listed').2 ⟨e, right, second⟩) series

end Aggregated

end Round

namespace Gateway

open Round

theorem Shown.noRepeats_iff {documents : List (Instance × Page)} {additional body : String}
    (shown : Shown true documents additional body)
    (fair : ∀ d ∈ documents, FairDocument d.2.data) :
    NoRepeats (samplesIn body) ↔ documents.Pairwise fun d e => ¬ Clash documents d e := by
  obtain ⟨names, among, text⟩ := shown.own
  have across : ∀ s ∈ (aggregated documents).sorted.flatMap Family.samples,
      ∀ t ∈ samplesIn additional, ¬ s.SameSeries t := by
    intro s collected t added same
    obtain ⟨g, listed, member⟩ := List.mem_flatMap.1 collected
    obtain ⟨d, came, brought⟩ := (mem_samples_aggregated listed).1 member
    obtain ⟨f, u, own, _, inside, rfl⟩ := mem_contribution.1 brought
    obtain ⟨n, named, before⟩ := text.samplesUnder t added
    obtain ⟨rest, rfl, _⟩ := rest_of_name (among named)
    have start : "herakles_gateway".toList <+: (metricName rest).toList := by
      have parts : "herakles_gateway_".toList = "herakles_gateway".toList ++ ['_'] := by decide
      rw [toList_metricName, parts, List.append_assoc]
      exact List.prefix_append _ _
    refine (fair d came).foreign u (mem_samplesIn_iff.2 ⟨_, f, own, inside⟩) ?_
    have name : u.name = t.name := same.1
    rw [name]
    exact start.trans before
  rw [NoRepeats, shown.samples, collected_true, List.pairwise_append]
  constructor
  · exact fun once => apart_of_noRepeats fair once.1
  · exact fun apart => ⟨noRepeats_aggregated fair apart, text.once, across⟩

variable {settings : GatewaySettings} {g : Gateway}

theorem Serves.sources (keys : settings.targets.Pairwise fun t u => t.key ≠ u.key)
    (works : AtWork settings g) {documents : List (Instance × Page)} {additional body : String}
    (serves : Serves settings g documents additional body) :
    (documents.map Prod.fst).Nodup ∧
      ∀ d ∈ documents, ∃ t ∈ settings.targets, d.1 ∈ t.allInstances := by
  obtain ⟨once, targets⟩ := works.found keys none none
  cases serves with
  | @answer plans order left report own asked course =>
    have sources := course.whole.map Slot.source
    rw [sources_slots, asked, List.map_append] at sources
    have within :=
      (instances_documents order).trans (List.sublist_append_left _ (left.map Slot.source))
    refine ⟨(sources.nodup_iff.2 once).sublist within, fun d member => targets d.1 ?_⟩
    exact sources.subset (within.subset (List.mem_map_of_mem member))

/-- With origin labels and fair documents, a served body repeats a series exactly if two documents
    with the same origin labels bring a sample of one series each. It repeats none for sure if no
    two targets name endpoints of one application. -/
theorem body_repeats_iff {s : GatewaySettings} (checked : s.check = .ok settings)
    (works : AtWork settings g) (labelled : settings.scraping.labelEnrichment = true) :
    (∀ t, ∃ documents additional, Serves settings g documents additional (g.serveAll t).2.body) ∧
    ∀ documents additional body, Serves settings g documents additional body →
      (∀ d ∈ documents, FairDocument d.2.data) →
        (NoRepeats (samplesIn body) ↔ documents.Pairwise fun d e => ¬ Clash documents d e) ∧
        ((∀ t ∈ settings.targets, ∀ u ∈ settings.targets, t.SameApplication u → t = u) →
          NoRepeats (samplesIn body)) := by
  have keys := GatewaySettings.keys_of_check checked
  refine ⟨fun t => (works.sound keys).serves keys t, ?_⟩
  intro documents additional body serves fair
  have shown := serves.shown
  rw [labelled] at shown
  have exactly := shown.noRepeats_iff fair
  refine ⟨exactly, fun alone => exactly.2 ?_⟩
  obtain ⟨once, targets⟩ := serves.sources keys works
  refine (List.pairwise_map.1 once).imp_of_mem ?_
  intro d e left right differ clash
  obtain ⟨t, named, own⟩ := targets d left
  obtain ⟨u, named', own'⟩ := targets e right
  exact differ (Target.instance_of_values own' own (alone t named u named') clash.1)

section Example

theorem fair_loads : FairDocument "load 1\n" := ⟨by decide, by decide, by decide⟩

theorem fair_jobs : FairDocument "jobs 2\n" := ⟨by decide, by decide, by decide⟩

theorem different_names_repeat_nothing :
    NoRepeats (samplesIn ((bothReport "load 1\n" "jobs 2\n").document none)) := by
  have checked : twoEndpoints.check = .ok twoEndpoints := by decide
  have fair : ∀ d ∈ bothDocuments "load 1\n" "jobs 2\n", FairDocument d.2.data := by
    simp [bothDocuments, fair_loads, fair_jobs]
  have served := serves_both "load 1\n" "jobs 2\n"
  refine ((body_repeats_iff checked atWork_ofTwoEndpoints rfl).2 _ _ _ served fair).1.2 ?_
  rw [bothDocuments, List.pairwise_pair]
  rintro ⟨_, s, t, ⟨key, f, g, own, _, _, member⟩, ⟨key', f', g', own', _, _, member'⟩, same⟩
  have apart : ∀ s ∈ samplesIn "load 1\n", ∀ t ∈ samplesIn "jobs 2\n", s.name ≠ t.name := by decide
  exact apart s (mem_samplesIn_iff.2 ⟨key, f, own, member⟩) t
    (mem_samplesIn_iff.2 ⟨key', f', own', member'⟩) same.1

theorem shared_name_repeats : ∃ (s settings : GatewaySettings) (g : Gateway)
    (documents : List (Instance × Page)) (additional body : String),
    s.check = .ok settings ∧ AtWork settings g ∧ settings.scraping.labelEnrichment = true ∧
      Serves settings g documents additional body ∧
      (∀ d ∈ documents, FairDocument d.2.data) ∧ ¬ NoRepeats (samplesIn body) := by
  have serves := serves_both "load 1\n" "load 1\n"
  have fair : ∀ d ∈ bothDocuments "load 1\n" "load 1\n", FairDocument d.2.data := by
    simp [bothDocuments, fair_loads]
  refine ⟨twoEndpoints, twoEndpoints, ofTwoEndpoints, _, _, _, by decide, atWork_ofTwoEndpoints,
    rfl, serves, fair, fun once => ?_⟩
  have apart := (serves.shown.noRepeats_iff fair).1 once
  rw [bothDocuments, List.pairwise_pair] at apart
  obtain ⟨f, own⟩ : ∃ f, (FamilyMap.ofText "load 1\n")["load"]? = some f :=
    Option.isSome_iff_exists.1 (by decide)
  obtain ⟨g, here⟩ : ∃ g, (aggregated (bothDocuments "load 1\n" "load 1\n"))["load"]? = some g :=
    Option.isSome_iff_exists.1 (by decide)
  have type : f.type = g.type := by
    have first : (FamilyMap.ofText "load 1\n")["load"]?.map Family.type = some .unknown := by decide
    have both : (aggregated (bothDocuments "load 1\n" "load 1\n"))["load"]?.map Family.type =
        some .unknown := by decide
    rw [own] at first
    rw [here] at both
    exact (Option.some.inj first).trans (Option.some.inj both).symm
  obtain ⟨s, member⟩ := FamilyMap.exists_sample own
  have kept : ∀ i, Kept (bothDocuments "load 1\n" "load 1\n") (i, ⟨"load 1\n", .text004⟩) s :=
    fun i => ⟨"load", f, g, own, here, type, member⟩
  exact apart ⟨by decide, s, s, kept _, kept _, rfl, List.Subset.refl _, List.Subset.refl _⟩

end Example

end Gateway
end MetricGateway
