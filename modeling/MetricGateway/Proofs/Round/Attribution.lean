import MetricGateway.Proofs.Aggregate.Folding
import MetricGateway.Proofs.Exposition.Grouping
import MetricGateway.Proofs.Round.Accounting

/- Where the samples of a round come from. Answers are taken in one after the other, in whatever
   order they come; each document is folded in with its answer and none without. So under each name
   the documents of the instances that are up stand one behind the other, each whole or not at all.
   -/
namespace MetricGateway

namespace RoundReport

def take (settings : RoundSettings) (retainRaw : Bool) (r : RoundReport) (s : Slot) :
    RoundReport where
  families := match s.page? with
    | some p =>
      if retainRaw && !settings.labelEnrichment then r.families
      else r.families.fold (Round.batch settings.labelEnrichment s.source p)
    | none => r.families
  up := r.up ++ [(s.source, s.page?.isSome)]
  raw := if retainRaw then r.raw ++ (s.page?.map (s.source, ·)).toList else r.raw
  duration := r.duration

def close (r : RoundReport) (left : List Slot) (duration : Nat) : RoundReport :=
  { r with up := r.up ++ left.map (fun s => (s.source, false)), duration }

end RoundReport

namespace Round

/-- A course that a round can take: the order in which answers come, and what is left. Answers that
    are there at one moment come in any order, and one that is there at the deadline may come or
    not. -/
structure Course (settings : RoundSettings) (plans : List (Instance × FetchPlan))
    (order left : List Slot) : Prop where
  whole : (order ++ left).Perm (slots settings plans)
  answers : ∀ s ∈ order, isAnswer s.result = true ∧ s.ends ≤ settings.maxProcessingTime
  cut : ∀ s ∈ left, s.ends < settings.maxProcessingTime → isAnswer s.result = false
  inTurn : order.Pairwise fun a b => a.ends ≤ b.ends

def settle (settings : RoundSettings) (retainRaw : Bool) (plans : List (Instance × FetchPlan))
    (order left : List Slot) : RoundReport :=
  (order.foldl (RoundReport.take settings retainRaw) {}).close left
    (duration settings.maxProcessingTime (slots settings plans))

/-- What the aggregate holds once documents have been labelled and folded in. -/
def aggregated (documents : List (Instance × Page)) : FamilyMap :=
  (documents.map fun d => (Labelling.origin d.1.origin).apply (FamilyMap.ofText d.2.data)).foldl
    FamilyMap.fold ∅

/-- The samples that a document brings under a key at which the aggregate has a type. -/
def contribution (type : MetricType) (key : String) (d : Instance × Page) : List Sample :=
  match (FamilyMap.ofText d.2.data)[key]? with
  | some f =>
    if f.type = type then
      f.samples.map fun s => { s with labels := s.labels ++ originLabelNames.zip d.1.origin.values }
    else []
  | none => []

/-- What the report has after some answers, by the documents that came with them. -/
structure Attributed (documents : List (Instance × Page)) (r : RoundReport) : Prop where
  up : (r.up.filter Prod.snd).map Prod.fst = documents.map Prod.fst
  families : r.families = aggregated documents

theorem aggregated_append (before : List (Instance × Page)) (d : Instance × Page) :
    aggregated (before ++ [d]) =
      (aggregated before).fold
        ((Labelling.origin d.1.origin).apply (FamilyMap.ofText d.2.data)) := by
  simp [aggregated]

theorem Attributed.take {settings : RoundSettings} (labelled : settings.labelEnrichment = true)
    (retainRaw : Bool) {before : List (Instance × Page)} {r : RoundReport}
    (attributed : Attributed before r) (s : Slot) :
    Attributed (before ++ (s.page?.map (s.source, ·)).toList) (r.take settings retainRaw s) := by
  obtain ⟨up, families⟩ := attributed
  unfold RoundReport.take
  cases s.page? with
  | none => exact ⟨by simpa using up, by simpa using families⟩
  | some p =>
    constructor
    · simp [up]
    · simp only [Option.map_some, Option.toList_some, aggregated_append, labelled, Bool.not_true,
        Bool.and_false, Bool.false_eq_true, if_false, families]
      rfl

theorem Attributed.foldl {settings : RoundSettings} (labelled : settings.labelEnrichment = true)
    (retainRaw : Bool) (order : List Slot) {before : List (Instance × Page)} {r : RoundReport}
    (attributed : Attributed before r) :
    Attributed (before ++ documents order)
      (order.foldl (RoundReport.take settings retainRaw) r) := by
  induction order generalizing before r with
  | nil => simpa [documents] using attributed
  | cons s order ih =>
    have after := ih (attributed.take labelled retainRaw s)
    have split : documents (s :: order) =
        (s.page?.map (s.source, ·)).toList ++ documents order := by
      unfold documents
      rw [List.filterMap_cons]
      cases s.page? <;> rfl
    rw [split, ← List.append_assoc]
    exact after

theorem attributed_settle {settings : RoundSettings} (labelled : settings.labelEnrichment = true)
    (retainRaw : Bool) (plans : List (Instance × FetchPlan)) (order left : List Slot) :
    Attributed (documents order) (settle settings retainRaw plans order left) := by
  have start : Attributed [] {} := ⟨rfl, rfl⟩
  obtain ⟨up, families⟩ := start.foldl labelled retainRaw order
  constructor
  · have down : (left.map fun s => (s.source, false)).filter Prod.snd = [] := by
      rw [List.filter_eq_nil_iff]
      intro r member
      obtain ⟨s, _, rfl⟩ := List.mem_map.1 member
      exact Bool.false_ne_true
    have whole : (settle settings retainRaw plans order left).up =
        (order.foldl (RoundReport.take settings retainRaw) {}).up ++
          left.map fun s => (s.source, false) := rfl
    rw [whole, List.filter_append, down, List.append_nil]
    exact up
  · exact families

section Course

variable (settings : RoundSettings) (retainRaw : Bool) (plans : List (Instance × FetchPlan))

theorem foldl_take (order : List Slot) (r : RoundReport) :
    order.foldl (RoundReport.take settings retainRaw) r =
      { families :=
          if retainRaw && !settings.labelEnrichment then r.families
          else ((documents order).map fun (i, p) => batch settings.labelEnrichment i p).foldl
            FamilyMap.fold r.families
        up := r.up ++ order.map fun s => (s.source, s.page?.isSome)
        raw := if retainRaw then r.raw ++ documents order else r.raw
        duration := r.duration } := by
  induction order generalizing r with
  | nil => cases r; simp [documents]
  | cons s order ih =>
    rw [List.foldl_cons, ih]
    unfold RoundReport.take documents
    rw [List.filterMap_cons]
    cases page : s.page? <;> cases retainRaw <;> cases settings.labelEnrichment <;> simp [page]

theorem run_eq_settle :
    run settings retainRaw plans =
      settle settings retainRaw plans (answered settings.maxProcessingTime (slots settings plans))
        (unanswered settings.maxProcessingTime (slots settings plans)) := by
  rw [settle, foldl_take]
  unfold run RoundReport.close
  cases retainRaw <;> cases settings.labelEnrichment <;> simp

theorem course_run :
    Course settings plans (answered settings.maxProcessingTime (slots settings plans))
      (unanswered settings.maxProcessingTime (slots settings plans)) := by
  constructor
  · exact answered_append_unanswered _ _
  · intro s member
    obtain ⟨arrives, answer⟩ := List.mem_filter.1 member
    rw [arrived, List.mem_mergeSort, List.mem_filter] at arrives
    exact ⟨answer, Nat.le_of_lt (of_decide_eq_true arrives.2)⟩
  · intro s member early
    have cut := (List.mem_filter.1 member).2
    simpa [early] using cut
  · have sorted : (arrived settings.maxProcessingTime (slots settings plans)).Pairwise
        fun a b => decide (a.ends ≤ b.ends) = true := by
      refine List.pairwise_mergeSort (fun a b c first second => ?_) (fun a b => ?_) _
      · simp only [decide_eq_true_eq] at first second ⊢
        omega
      · simp only [Bool.or_eq_true, decide_eq_true_eq]
        omega
    exact (sorted.imp of_decide_eq_true).filter _

end Course

theorem sources_slots (settings : RoundSettings) (plans : List (Instance × FetchPlan)) :
    (slots settings plans).map Slot.source = plans.map Prod.fst := by
  let spans := plans.map fun p => p.2.span settings.fetchTimeout
  have begun : (Schedule.begins (Schedule.idleWorkers settings.workers plans.length) spans).length =
      plans.length := by
    have turns := Schedule.begins_idleWorkers settings.workers spans
    have count : spans.length = plans.length := List.length_map ..
    rw [← count]
    exact turns.length_eq
  calc (slots settings plans).map Slot.source
      = ((plans.zip (Schedule.begins (Schedule.idleWorkers settings.workers plans.length)
          spans)).map Prod.fst).map Prod.fst := by
        rw [slots, List.map_map, List.map_map]
        rfl
    _ = plans.map Prod.fst := by rw [List.map_fst_zip (Nat.le_of_eq begun.symm)]

theorem reported_of_course {settings : RoundSettings}
    {plans : List (Instance × FetchPlan)} {order left : List Slot}
    (course : Course settings plans order left) (retainRaw : Bool) :
    ((settle settings retainRaw plans order left).up.map Prod.fst).Perm (plans.map Prod.fst) := by
  have up : (settle settings retainRaw plans order left).up.map Prod.fst =
      (order ++ left).map Slot.source := by
    rw [settle, foldl_take]
    simp only [RoundReport.close, List.nil_append, List.map_append, List.map_map]
    rfl
  rw [up, ← sources_slots settings]
  exact course.whole.map _

theorem instances_documents (order : List Slot) :
    ((documents order).map Prod.fst).Sublist (order.map Slot.source) := by
  induction order with
  | nil => exact .slnil
  | cons s order ih =>
    unfold documents at ih ⊢
    rw [List.filterMap_cons]
    cases s.page? with
    | none => exact ih.cons _
    | some p => exact ih.cons_cons _

theorem plan_of_document {settings : RoundSettings} {plans : List (Instance × FetchPlan)}
    {order left : List Slot} (course : Course settings plans order left) {d : Instance × Page}
    (member : d ∈ documents order) : ∃ plan, (d.1, plan) ∈ plans ∧ plan.outcome = .page d.2 := by
  obtain ⟨s, inOrder, brought⟩ := List.mem_filterMap.1 member
  obtain ⟨p, page, rfl⟩ := Option.map_eq_some_iff.1 brought
  have slot : s ∈ slots settings plans :=
    course.whole.subset (List.mem_append_left _ inOrder)
  obtain ⟨⟨⟨i, plan⟩, start⟩, planned, rfl⟩ := List.mem_map.1 slot
  refine ⟨plan, (List.of_mem_zip planned).1, ?_⟩
  -- Only a result in time is a page, and then it is the outcome itself.
  unfold Slot.page? at page
  dsimp only [FetchPlan.result] at page
  split at page
  · rename_i result
    cases page
    split at result
    · exact result
    · cases result
  · cases page
  · cases page

section Closed

def reports (key : String) (documents : List (Instance × Page)) : List Family :=
  documents.filterMap fun d =>
    ((Labelling.origin d.1.origin).apply (FamilyMap.ofText d.2.data))[key]?

theorem getElem?_aggregated (documents : List (Instance × Page)) (key : String) :
    (aggregated documents)[key]? = absorbAll none (reports key documents) := by
  rw [aggregated, FamilyMap.getElem?_foldl_fold, List.filterMap_map,
    show (∅ : FamilyMap)[key]? = none from Std.ExtTreeMap.getElem?_empty]
  rfl

theorem getElem?_labelled (o : Origin) (families : FamilyMap) (key : String) :
    ((Labelling.origin o).apply families)[key]? =
      families[key]?.map (Labelling.origin o).labelFamily :=
  Std.ExtTreeMap.getElem?_map

theorem samples_reports (type : MetricType) (key : String) (documents : List (Instance × Page)) :
    ((reports key documents).filter fun f => f.type = type).flatMap Family.samples =
      documents.flatMap (contribution type key) := by
  induction documents with
  | nil => rfl
  | cons d documents ih =>
    have first : reports key (d :: documents) =
        (((FamilyMap.ofText d.2.data)[key]?.map
          (Labelling.origin d.1.origin).labelFamily).toList ++ reports key documents) := by
      unfold reports
      rw [List.filterMap_cons, getElem?_labelled]
      cases (FamilyMap.ofText d.2.data)[key]? <;> rfl
    rw [first, List.filter_append, List.flatMap_append, ih, List.flatMap_cons]
    congr 1
    unfold contribution
    cases (FamilyMap.ofText d.2.data)[key]? with
    | none => rfl
    | some f =>
      have kept : ((Labelling.origin d.1.origin).labelFamily f).type = f.type := rfl
      dsimp only
      by_cases same : f.type = type
      · rw [if_pos same, Option.map_some, Option.toList_some,
          List.filter_cons_of_pos (by simpa [kept] using same), List.filter_nil,
          List.flatMap_singleton]
        rfl
      · simp [kept, same]

theorem samples_aggregated {documents : List (Instance × Page)} {key : String} {g : Family}
    (here : (aggregated documents)[key]? = some g) :
    g.samples = documents.flatMap (contribution g.type key) := by
  rw [getElem?_aggregated, absorbAll_none, Option.map_eq_some_iff] at here
  obtain ⟨first, head, rfl⟩ := here
  obtain ⟨rest, reported⟩ := List.head?_eq_some_iff.1 head
  have samples := samples_reports first.type key documents
  rw [reported, List.filter_cons_of_pos (by simp)] at samples
  rw [reported]
  exact samples

theorem aggregated_later {before : List (Instance × Page)} {key : String} {known : Family}
    (here : (aggregated before)[key]? = some known) (after : List (Instance × Page)) :
    ∃ g, (aggregated (before ++ after))[key]? = some g ∧ g.name = known.name ∧
      g.type = known.type := by
  rw [getElem?_aggregated] at here
  have parted : reports key (before ++ after) = reports key before ++ reports key after :=
    List.filterMap_append
  have whole : (aggregated (before ++ after))[key]? =
      absorbAll (some known) (reports key after) := by
    rw [getElem?_aggregated, parted, ← here]
    exact List.foldl_append
  refine ⟨known.joined (reports key after), ?_, rfl, rfl⟩
  rw [whole, absorbAll_some]

theorem aggregated_first {before : List (Instance × Page)} {d : Instance × Page} {key : String}
    {f : Family} (missing : (aggregated before)[key]? = none)
    (here : (FamilyMap.ofText d.2.data)[key]? = some f) :
    (aggregated (before ++ [d]))[key]? = some ((Labelling.origin d.1.origin).labelFamily f) := by
  rw [aggregated_append, FamilyMap.getElem?_fold, getElem?_labelled, here, missing]
  rfl

theorem name_aggregated {documents : List (Instance × Page)} {key : String} {g : Family}
    (here : (aggregated documents)[key]? = some g) : g.name = key := by
  rw [getElem?_aggregated, absorbAll_none, Option.map_eq_some_iff] at here
  obtain ⟨first, head, rfl⟩ := here
  obtain ⟨d, _, brought⟩ := List.mem_filterMap.1 (List.mem_of_mem_head? head)
  rw [getElem?_labelled, Option.map_eq_some_iff] at brought
  obtain ⟨f, own, rfl⟩ := brought
  obtain ⟨_, _, _, name, _⟩ := Reading.arrivals_of_family own
  exact name

theorem samples_of_family {before after : List (Instance × Page)} {d : Instance × Page}
    {key : String} {f : Family} (own : (FamilyMap.ofText d.2.data)[key]? = some f) :
    ∃ g, (aggregated (before ++ d :: after))[key]? = some g ∧
      g.samples = before.flatMap (contribution g.type key) ++
        (if (aggregated before)[key]?.all (fun known => known.type = f.type) then
          f.samples.map fun s =>
            { s with labels := s.labels ++ originLabelNames.zip d.1.origin.values }
        else []) ++ after.flatMap (contribution g.type key) := by
  have whole : before ++ d :: after = before ++ [d] ++ after := by simp
  cases here : (aggregated before)[key]? with
  | none =>
    have first := aggregated_first here own
    obtain ⟨g, there, _, type⟩ := aggregated_later first after
    have same : f.type = g.type := type.symm
    refine ⟨g, whole ▸ there, ?_⟩
    rw [samples_aggregated there]
    simp [contribution, own, same]
  | some known =>
    obtain ⟨g, there, _, type⟩ := aggregated_later here (d :: after)
    refine ⟨g, there, ?_⟩
    rw [samples_aggregated there]
    simp [contribution, own, type, eq_comm]

end Closed

/-- Whatever course a round takes, its families are the fold of the labelled documents of the
    instances that are up, in the order of their answers. Under each name the samples are what these
    documents bring there, one document behind the other. A document brings all samples of its
    family, in their order and with the five origin labels of its instance behind their own, unless
    the aggregate had another type there when it came; then it brings none. -/
theorem round_attributes {settings : RoundSettings} (labelled : settings.labelEnrichment = true)
    (retainRaw : Bool) (plans : List (Instance × FetchPlan)) :
    (∃ order left, Course settings plans order left ∧
      run settings retainRaw plans = settle settings retainRaw plans order left) ∧
    ∀ order left, Course settings plans order left →
      let report := settle settings retainRaw plans order left
      (report.up.filter Prod.snd).map Prod.fst = (documents order).map Prod.fst ∧
      (∀ d ∈ documents order, ∃ plan, (d.1, plan) ∈ plans ∧ plan.outcome = .page d.2) ∧
      report.families = ((documents order).map fun d =>
        (Labelling.origin d.1.origin).apply (FamilyMap.ofText d.2.data)).foldl FamilyMap.fold ∅ ∧
      (∀ (key : String) (g : Family), report.families[key]? = some g →
        g.name = key ∧ g.samples = (documents order).flatMap (contribution g.type key)) ∧
      ∀ before d after, documents order = before ++ d :: after →
        ∀ (key : String) (f : Family), (FamilyMap.ofText d.2.data)[key]? = some f →
          ∃ g, report.families[key]? = some g ∧
            g.samples = before.flatMap (contribution g.type key) ++
              (if (aggregated before)[key]?.all (fun known => known.type = f.type) then
                f.samples.map fun s =>
                  { s with labels := s.labels ++ originLabelNames.zip d.1.origin.values }
              else []) ++ after.flatMap (contribution g.type key) := by
  refine ⟨⟨_, _, course_run settings plans, run_eq_settle settings retainRaw plans⟩, ?_⟩
  intro order left course
  obtain ⟨up, families⟩ := attributed_settle labelled retainRaw plans order left
  refine ⟨up, fun d member => plan_of_document course member, families, ?_, ?_⟩
  · intro key g here
    rw [families] at here
    exact ⟨name_aggregated here, samples_aggregated here⟩
  · intro before d after split key f own
    rw [families, split]
    exact samples_of_family own

def gaugeDocument : Instance × Page := (numbered "0", ⟨"# TYPE load gauge\nload 1\n", .text004⟩)

def counterDocument : Instance × Page :=
  (numbered "1", ⟨"# TYPE load counter\nload\x7bcpu=\"0\"\x7d 2\nload 3\n", .text004⟩)

/-- Two documents with a name in common that come at one moment, and a fetch that fails. -/
def meeting : List (Instance × FetchPlan) :=
  [(gaugeDocument.1, ⟨some 30, .page gaugeDocument.2⟩),
    (counterDocument.1, ⟨some 30, .page counterDocument.2⟩), (numbered "2", ⟨some 10, .failed⟩)]

def wide : RoundSettings := ⟨3, 100, 250, true⟩

/-- The counter comes first, so that the gauge is left out. -/
theorem meeting_attributes : ∃ order left, Course wide meeting order left ∧
    ∃ g, (settle wide false meeting order left).families["load"]? = some g ∧ g.type = .counter ∧
      g.samples.map Sample.labelValues = [["0", "org", "space", "app", "id:1", "1"],
        ["org", "space", "app", "id:1", "1"]] := by
  let order := (slots wide meeting).reverse
  have course : Course wide meeting order [] := by
    constructor
    · rw [List.append_nil]
      exact List.reverse_perm _
    · decide
    · simp
    · decide
  have order_eq : documents order = [counterDocument] ++ [gaugeDocument] := by decide
  obtain ⟨f, own⟩ : ∃ f, (FamilyMap.ofText gaugeDocument.2.data)["load"]? = some f :=
    Option.isSome_iff_exists.1 (by decide)
  have labelled : wide.labelEnrichment = true := rfl
  obtain ⟨_, taken⟩ := round_attributes labelled false meeting
  obtain ⟨_, _, _, _, parts⟩ := taken order [] course
  obtain ⟨g, here, samples⟩ := parts [counterDocument] gaugeDocument [] order_eq "load" f own
  have typed : (settle wide false meeting order []).families["load"]?.map Family.type =
      some .counter := by decide
  have type : g.type = .counter := by simpa [here] using typed
  have gauge : f.type = .gauge := by
    have read : (FamilyMap.ofText gaugeDocument.2.data)["load"]?.map Family.type = some .gauge := by
      decide
    simpa [own] using read
  have earlier : (aggregated [counterDocument])["load"]?.all (fun known => known.type = .gauge) =
      false := by decide
  refine ⟨order, [], course, g, here, type, ?_⟩
  rw [samples, type, gauge, earlier, if_neg Bool.false_ne_true]
  decide

end Round
end MetricGateway
