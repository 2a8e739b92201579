import MetricGateway.Proofs.Exposition.StandsIn
import MetricGateway.Proofs.Round.Promptly
import MetricGateway.Proofs.Service.Advertised
import MetricGateway.Proofs.Service.Body

/- What is passed on for one application id and number where samples are not labelled. Only the
   document that came last is, so that nothing gets lost exactly if there is one instance to ask. -/
namespace MetricGateway

theorem Text.ofBytes_replicate (n : Nat) :
    ofBytes (List.replicate n 97) = String.ofList (List.replicate n 'a') := by
  have letters : ∀ n, decode n (List.replicate n 97) = List.replicate n 'a' := by
    intro n
    induction n with
    | zero => rfl
    | succ n ih =>
      rw [List.replicate_succ, List.replicate_succ, ← ih]
      rfl
  rw [ofBytes, List.length_replicate, letters]

namespace Transport

variable {t : Transport} {id : String} {earlier : List FetchRequest} {instances : List Instance}

theorem sendable_of_page {i : Instance} {plan : FetchPlan} {p : Page}
    (member : (i, plan) ∈ t.plans id earlier instances) (page : plan.outcome = .page p) :
    (i.fetchRequest id).isSendable = true := by
  induction instances generalizing earlier with
  | nil => cases member
  | cons j rest ih =>
    rcases List.mem_cons.1 member with same | later
    · cases same
      unfold Transport.plan at page
      split at page
      · assumption
      · cases page
    · exact ih later

/-- All instances answer at once; the first request after the first `start` is answered with `n`
    letters, all others with nothing. -/
def lettersFirst (start n : Nat) : Transport := fun earlier _ =>
  { reply := some ⟨200, none, if earlier.length = start then List.replicate n 97 else []⟩ }

theorem plan_letters (n : Nat) :
    Exchange.plan { reply := some ⟨200, none, List.replicate n 97⟩ } =
      ⟨some 0, .page (.letters n)⟩ := by
  rw [Page.letters, ← Text.ofBytes_replicate]
  rfl

theorem plans_later {start n : Nat} (late : start < earlier.length)
    (sendable : ∀ i ∈ instances, (i.fetchRequest id).isSendable = true) :
    (lettersFirst start n).plans id earlier instances =
      Round.promptly (instances.map fun i => (i, .letters 0)) := by
  induction instances generalizing earlier with
  | nil => rfl
  | cons i rest ih =>
    have own := sendable i List.mem_cons_self
    have next : start < (earlier ++ [i.fetchRequest id]).length := by
      rw [List.length_append]
      omega
    have others := ih next fun j member => sendable j (List.mem_cons_of_mem i member)
    rw [plans, if_pos own, others, Transport.plan, if_pos own, lettersFirst, if_neg (by omega)]
    rfl

theorem plans_first {n : Nat} {i : Instance}
    (sendable : ∀ j ∈ i :: instances, (j.fetchRequest id).isSendable = true) :
    (lettersFirst earlier.length n).plans id earlier (i :: instances) =
      Round.promptly ((i, .letters n) :: instances.map fun j => (j, .letters 0)) := by
  have own := sendable i List.mem_cons_self
  have next : earlier.length < (earlier ++ [i.fetchRequest id]).length := by
    rw [List.length_append]
    exact Nat.lt_succ_self _
  have others := plans_later (n := n) next fun j member =>
    sendable j (List.mem_cons_of_mem i member)
  rw [plans, if_pos own, others, Transport.plan, if_pos own, lettersFirst, if_pos rfl, plan_letters]
  rfl

end Transport

/-- A request for the instances of an application id and number that comes from elsewhere. -/
structure Request.AsksFor (r : Request) (g : Gateway) (appId number : String) : Prop where
  get : r.method = "GET"
  route : Route.ofRequest r = .ok (.single appId number)
  foreign : g.isOwn r = false

namespace Gateway

def fetched (g : Gateway) (t : Transport) (appId number : String) : List (Instance × Page) :=
  let found := g.discover (some appId) (some number)
  (found.1.scrape t found.2 true).2.raw

/-- What can be answered to a request for the instances of an application id and number where
    samples are not labelled, by the documents that have come: in whatever order the fetches end,
    and whatever has been recorded before. -/
inductive PassesOn (settings : GatewaySettings) (g : Gateway) (t : Transport)
    (appId number : String) : List (Instance × Page) → String → Prop where
  | nobody (missing : (g.discover (some appId) (some number)).2 = []) :
      PassesOn settings g t appId number [] Response.noInstance.body
  | answer {plans : List (Instance × FetchPlan)} {order left : List Slot} {report : RoundReport}
      {own : Option GatewayMetrics}
      (asked : t.plans g.id g.sent (g.discover (some appId) (some number)).2 = plans)
      (course : Round.Course settings.roundSettings plans order left)
      (ends : Round.settle settings.roundSettings true plans order left = report)
      (used : ∀ m, own = some m → m.InUse) :
      PassesOn settings g t appId number (Round.documents order)
        (appendTo (report.raw.getLast?.map Prod.snd) ((report.metrics false).additional own))

variable {settings : GatewaySettings} {g : Gateway} {t : Transport} {appId number : String}

theorem respond_of_asksFor {r : Request} (asks : r.AsksFor g appId number) :
    g.respond t r = g.serveSingle t appId number := by
  have get : ¬ r.method = "HEAD" := by
    rw [asks.get]
    decide
  rw [respond, asks.route]
  dsimp only
  rw [if_neg get, serve, asks.foreign]
  rfl

theorem body_serveSingle (bare : g.settings.scraping.labelEnrichment = false)
    (anyone : (g.discover (some appId) (some number)).2 ≠ []) :
    let scraped := (g.discover (some appId) (some number)).1.scrape t
      (g.discover (some appId) (some number)).2 true
    (g.serveSingle t appId number).2.body =
      appendTo (scraped.2.raw.getLast?.map Prod.snd)
        ((scraped.2.metrics false).additional scraped.1.metrics) := by
  have own : (g.discover (some appId) (some number)).1.settings = g.settings := rfl
  rw [serveSingle]
  generalize g.discover (some appId) (some number) = found at *
  obtain ⟨g', instances⟩ := found
  cases instances with
  | nil => exact absurd rfl anyone
  | cons i instances =>
    dsimp only at own ⊢
    rw [own, bare]
    rfl

theorem Sound.passesOn (keys : settings.targets.Pairwise fun t u => t.key ≠ u.key)
    (sound : g.Sound settings) (bare : settings.scraping.labelEnrichment = false) (t : Transport)
    (appId number : String) :
    PassesOn settings g t appId number (g.fetched t appId number)
      (g.serveSingle t appId number).2.body := by
  by_cases anyone : (g.discover (some appId) (some number)).2 = []
  · have body : (g.serveSingle t appId number).2.body = Response.noInstance.body := by
      rw [Gateway.serveSingle]
      generalize g.discover (some appId) (some number) = found at *
      obtain ⟨g', instances⟩ := found
      cases anyone
      rfl
    have nothing : g.fetched t appId number = [] := by
      rw [fetched, anyone]
      simp [Gateway.scrape, Transport.plans, Round.run, Round.documents, Round.answered,
        Round.arrived, slots]
    rw [body, nothing]
    exact .nobody anyone
  · have asked := (sound.discover keys (some appId) (some number)).1
    have scraped := asked.scrape t (g.discover (some appId) (some number)).2 true
    let plans := t.plans g.id g.sent (g.discover (some appId) (some number)).2
    have report : ((g.discover (some appId) (some number)).1.scrape t
        (g.discover (some appId) (some number)).2 true).2 =
          Round.run settings.roundSettings true plans := by
      rw [← asked.settings_eq]
      rfl
    rw [← sound.settings_eq] at bare
    rw [body_serveSingle bare anyone, fetched, report]
    exact .answer rfl (Round.course_run _ _)
      (Round.run_eq_settle settings.roundSettings true plans).symm scraped.metrics

section PassesOn

variable {documents : List (Instance × Page)} {body : String}

theorem PassesOn.last (passes : PassesOn settings g t appId number documents body)
    {d : Instance × Page} (last : documents.getLast? = some d) : d.2.StandsIn body := by
  cases passes with
  | nobody => cases last
  | answer _ _ ends =>
    rw [← ends, Round.raw_settle, last]
    exact Page.standsIn_append d.2 _

theorem PassesOn.sources (passes : PassesOn settings g t appId number documents body)
    (once : (g.discover (some appId) (some number)).2.Nodup) :
    (documents.map Prod.fst).Nodup ∧ ∀ d ∈ documents,
      d.1 ∈ (g.discover (some appId) (some number)).2 ∧
        (d.1.fetchRequest g.id).isSendable = true := by
  cases passes with
  | nobody => exact ⟨List.nodup_nil, fun d member => nomatch member⟩
  | @answer plans order left report own asked course =>
    have sources := course.whole.map Slot.source
    rw [Round.sources_slots, ← asked, toList_plans, List.map_append] at sources
    have within :=
      (Round.instances_documents order).trans (List.sublist_append_left _ (left.map Slot.source))
    refine ⟨(sources.nodup_iff.2 once).sublist within, fun d member => ⟨?_, ?_⟩⟩
    · exact sources.subset (within.subset (List.mem_map_of_mem member))
    · obtain ⟨plan, planned, page⟩ := Round.plan_of_document course member
      rw [← asked] at planned
      exact Transport.sendable_of_page planned page

end PassesOn

/-- No two targets have an instance of the application id and number to which a request can be
    sent. -/
def Unshared (settings : GatewaySettings) (g : Gateway) (appId number : String) : Prop :=
  ∀ t ∈ settings.targets, ∀ u ∈ settings.targets, ∀ n, t.effectiveAppId = appId →
    u.effectiveAppId = appId → toString n = number → n < t.instances → n < u.instances →
      ((t.instanceAt n).fetchRequest g.id).isSendable = true → t = u

theorem mem_discovered (keys : settings.targets.Pairwise fun t u => t.key ≠ u.key)
    (works : AtWork settings g) {i : Instance} :
    i ∈ (g.discover (some appId) (some number)).2 ↔ ∃ t ∈ settings.targets, ∃ n < t.instances,
      i = t.instanceAt n ∧ t.effectiveAppId = appId ∧ toString n = number := by
  rw [works.discover_all keys, List.mem_filter, List.mem_flatMap]
  have fits : ∀ (t : Target) (n : Nat), Directory.selects (some appId) (some number)
      (t.instanceAt n) = true ↔ t.effectiveAppId = appId ∧ toString n = number := by
    intro t n
    simp only [Directory.selects, Option.all_some, t.number_instanceAt n, Bool.and_eq_true,
      beq_iff_eq, Option.some_inj]
    rw [eq_comm (a := appId)]
    rfl
  constructor
  · rintro ⟨⟨t, named, own⟩, selected⟩
    obtain ⟨n, small, rfl⟩ := List.mem_map.1 own
    exact ⟨t, named, n, List.mem_range.1 small, rfl, (fits t n).1 selected⟩
  · rintro ⟨t, named, n, small, rfl, selected⟩
    exact ⟨⟨t, named, List.mem_map.2 ⟨n, List.mem_range.2 small, rfl⟩⟩, (fits t n).2 selected⟩

theorem PassesOn.whole (keys : settings.targets.Pairwise fun t u => t.key ≠ u.key)
    (works : AtWork settings g) (unshared : Unshared settings g appId number)
    {documents : List (Instance × Page)} {body : String}
    (passes : PassesOn settings g t appId number documents body) {d : Instance × Page}
    (member : d ∈ documents) : d.2.StandsIn body := by
  obtain ⟨once, found⟩ := passes.sources (works.found keys _ _).1
  obtain ⟨e, last⟩ : ∃ e, documents.getLast? = some e :=
    Option.isSome_iff_exists.1 (List.getLast?_isSome.2 (List.ne_nil_of_mem member))
  have among := List.mem_of_getLast? last
  obtain ⟨here, sendable⟩ := found d member
  obtain ⟨t, named, n, small, own, app, digits⟩ := (mem_discovered keys works).1 here
  obtain ⟨u, named', m, small', own', app', digits'⟩ :=
    (mem_discovered keys works).1 (found e among).1
  have same : m = n := toString_injective (digits'.trans digits.symm)
  subst same
  rw [own] at sendable
  have one := unshared t named u named' m app app' digits small small' sendable
  have source : d.1 = e.1 := by rw [own, own', one]
  have equal : d = e := List.inj_on_of_nodup_map once member among source
  rw [equal]
  exact passes.last last

section Promptly

variable (bare : g.settings.scraping.labelEnrichment = false)
  (positive : 0 < g.settings.scraping.maxProcessingTime)

include bare positive

theorem report_promptly {documents : List (Instance × Page)}
    (prompt : t.plans g.id g.sent (g.discover (some appId) (some number)).2 =
      Round.promptly documents) :
    ((g.discover (some appId) (some number)).1.scrape t
        (g.discover (some appId) (some number)).2 true).2 =
      { up := documents.map fun d => (d.1, true), raw := documents } := by
  have ran : ((g.discover (some appId) (some number)).1.scrape t
      (g.discover (some appId) (some number)).2 true).2 =
        Round.run g.settings.roundSettings true
          (t.plans g.id g.sent (g.discover (some appId) (some number)).2) := rfl
  rw [ran, prompt, Round.run_promptly documents positive bare]

theorem exists_additional (anyone : (g.discover (some appId) (some number)).2 ≠ []) :
    ∃ additional, ∀ (t : Transport) (documents : List (Instance × Page)),
      t.plans g.id g.sent (g.discover (some appId) (some number)).2 = Round.promptly documents →
        g.fetched t appId number = documents ∧ (g.serveSingle t appId number).2.body =
          appendTo (documents.getLast?.map Prod.snd) additional := by
  let asked := (g.discover (some appId) (some number)).1
  let instances := (g.discover (some appId) (some number)).2
  let report : RoundReport := { up := instances.map fun i => (i, true) }
  let observe := fun (m : GatewayMetrics) i => m.observeLatency i (Round.milliseconds 0)
  let own := (asked.metrics.map fun m => instances.foldl observe m).map fun m =>
    (asked.directory.cache.advance 0).seen.foldl recordSign m
  refine ⟨(report.metrics false).additional own, fun t documents prompt => ?_⟩
  have sources : documents.map Prod.fst = instances := by
    have whole := toList_plans t g.id g.sent instances
    rw [prompt, Round.promptly, List.map_map] at whole
    exact whole
  have up : (documents.map fun d => (d.1, true)) = instances.map fun i => (i, true) := by
    rw [← sources, List.map_map]
    rfl
  have scraped := report_promptly bare positive prompt
  have metrics : (asked.scrape t instances true).1.metrics = own := by
    have made : (asked.scrape t instances true).1.metrics =
        (asked.metrics.map (Round.recordIn g.settings.roundSettings
          (t.plans g.id g.sent instances))).map fun m =>
            (asked.directory.cache.advance (asked.scrape t instances true).2.duration).seen.foldl
              recordSign m := rfl
    rw [made, scraped, prompt]
    dsimp only [own]
    rw [← sources]
    exact congrArg (Option.map _) (Option.map_congr fun m _ =>
      Round.recordIn_promptly documents positive m)
  constructor
  · rw [fetched, scraped]
  · rw [body_serveSingle bare anyone, scraped, metrics, up]
    rfl

end Promptly

/-- If the first of several instances brings enough and the others nothing, then its document is
    missing. -/
theorem exists_missing (bare : g.settings.scraping.labelEnrichment = false)
    (positive : 0 < g.settings.scraping.maxProcessingTime) {i j : Instance} {rest : List Instance}
    (found : (g.discover (some appId) (some number)).2 = i :: j :: rest)
    (sendable : ∀ k ∈ i :: j :: rest, (k.fetchRequest g.id).isSendable = true) :
    ∃ t, ∃ d ∈ g.fetched t appId number, ¬ d.2.StandsIn (g.serveSingle t appId number).2.body := by
  have anyone : (g.discover (some appId) (some number)).2 ≠ [] := by
    rw [found]
    exact List.cons_ne_nil _ _
  obtain ⟨additional, answers⟩ := exists_additional bare positive anyone
  rw [found] at answers
  let size := additional.toList.length + 1
  obtain ⟨fetched, body⟩ := answers _ _ (Transport.plans_first (n := size) sendable)
  have last : ((i, Page.letters size) :: (j :: rest).map fun k =>
      (k, Page.letters 0)).getLast?.map Prod.snd = some (Page.letters 0) := by
    have others : ((j :: rest).map fun k => (k, Page.letters 0)) ≠ [] := by simp
    rw [List.getLast?_cons_of_ne_nil others, List.getLast?_map,
      List.getLast?_eq_some_getLast (List.cons_ne_nil j rest)]
    rfl
  refine ⟨_, (i, Page.letters size), fetched ▸ List.mem_cons_self, fun stands => ?_⟩
  rw [body, last, appendTo_nothing] at stands
  have short := stands.length_le
  omega

theorem unshared_of_whole (keys : settings.targets.Pairwise fun t u => t.key ≠ u.key)
    (works : AtWork settings g) (bare : settings.scraping.labelEnrichment = false)
    (positive : 0 < settings.scraping.maxProcessingTime)
    (whole : ∀ t, ∀ d ∈ g.fetched t appId number,
      d.2.StandsIn (g.serveSingle t appId number).2.body) :
    Unshared settings g appId number := by
  intro t named u named' n app app' digits small small' sendable
  refine Decidable.byContradiction fun differ => ?_
  have here := (mem_discovered keys works).2 ⟨t, named, n, small, rfl, app, digits⟩
  have there := (mem_discovered keys works).2 ⟨u, named', n, small', rfl, app', digits⟩
  have apart : t.instanceAt n ≠ u.instanceAt n := by
    intro same
    have own : t.instanceAt n ∈ t.allInstances := List.mem_map.2 ⟨n, List.mem_range.2 small, rfl⟩
    have other : t.instanceAt n ∈ u.allInstances :=
      List.mem_map.2 ⟨n, List.mem_range.2 small', same.symm⟩
    exact differ (Target.eq_of_key keys named named' (Target.key_of_instance own other))
  -- All of them have one id, so that requests can be sent to all.
  have sent : ∀ i ∈ (g.discover (some appId) (some number)).2,
      (i.fetchRequest g.id).isSendable = true := by
    intro i member
    obtain ⟨v, _, m, _, rfl, same, numbered⟩ := (mem_discovered keys works).1 member
    obtain rfl : m = n := toString_injective (numbered.trans digits.symm)
    have names : (v.instanceAt m).id = (t.instanceAt m).id := by
      rw [Target.instanceAt, Target.instanceAt, same, app]
    rw [FetchRequest.isSendable, Instance.fetchRequest, names]
    exact sendable
  rw [← (works.sound keys).settings_eq] at bare positive
  cases found : (g.discover (some appId) (some number)).2 with
  | nil =>
    rw [found] at here
    cases here
  | cons i rest =>
    cases rest with
    | nil =>
      rw [found, List.mem_singleton] at here there
      exact apart (here.trans there.symm)
    | cons j rest =>
      rw [found] at sent
      obtain ⟨t, d, member, missing⟩ := exists_missing bare positive found sent
      exact missing (whole t d member)

/-- Without labelling, what is answered for an application id and number has the document in it that
    came last. It has all documents in it, in whatever order they come, exactly if no two targets
    share the instance. -/
theorem passed_on_whole_iff {s : GatewaySettings} (checked : s.check = .ok settings)
    (works : AtWork settings g) (bare : settings.scraping.labelEnrichment = false)
    (appId number : String) :
    (∀ t, PassesOn settings g t appId number (g.fetched t appId number)
        (g.serveSingle t appId number).2.body ∧
      ∀ r : Request, r.AsksFor g appId number → g.respond t r = g.serveSingle t appId number) ∧
    (∀ t documents body, PassesOn settings g t appId number documents body →
      ∀ d, documents.getLast? = some d → d.2.StandsIn body) ∧
    (Unshared settings g appId number → ∀ t documents body,
      PassesOn settings g t appId number documents body → ∀ d ∈ documents, d.2.StandsIn body) ∧
    ((∀ t, ∀ d ∈ g.fetched t appId number,
        d.2.StandsIn (g.serveSingle t appId number).2.body) →
      Unshared settings g appId number) := by
  have keys := GatewaySettings.keys_of_check checked
  have positive := GatewaySettings.processingTime_of_check checked
  refine ⟨fun t => ⟨?_, ?_⟩, ?_, ?_, ?_⟩
  · exact (works.sound keys).passesOn keys bare t appId number
  · exact fun r asks => respond_of_asksFor asks
  · exact fun t documents body passes d last => passes.last last
  · exact fun unshared t documents body passes d member => passes.whole keys works unshared member
  · exact unshared_of_whole keys works bare positive

section Example

def unlabelled (targets : List Target) : GatewaySettings where
  scraping := { labelEnrichment := false }
  ownMetrics := { enabled := false }
  targets := targets

def ofUnlabelled (targets : List Target) : Gateway where
  settings := unlabelled targets
  id := "gateway"
  directory := .ofTargets targets (unlabelled targets).cacheSettings
  metrics := none
  started := 0

theorem atWork_ofUnlabelled (targets : List Target) :
    AtWork (unlabelled targets) (ofUnlabelled targets) := by
  have made : create? (unlabelled targets) "gateway" = .ok (ofUnlabelled targets) := rfl
  exact .create made

def jobsPage : Transport := fun _ _ =>
  { reply := some ⟨200, some "application/openmetrics-text", "jobs 2\n# EOF\n".toUTF8.toList⟩ }

theorem lone_document_passed_on : ∃ (s settings : GatewaySettings) (g : Gateway)
    (d : Instance × Page), s.check = .ok settings ∧ AtWork settings g ∧
      settings.scraping.labelEnrichment = false ∧ g.fetched jobsPage "app" "0" = [d] ∧
        d.2 = ⟨"jobs 2\n# EOF\n", .openMetrics100⟩ ∧
          d.2.StandsIn (g.serveSingle jobsPage "app" "0").2.body := by
  let targets : List Target := [.endpoint "/more"]
  have checked : (unlabelled targets).check = .ok (unlabelled targets) := by decide
  have works := atWork_ofUnlabelled targets
  have fetched : (ofUnlabelled targets).fetched jobsPage "app" "0" =
      [((Target.endpoint "/more").instanceAt 0, ⟨"jobs 2\n# EOF\n", .openMetrics100⟩)] := by
    decide +kernel
  have unshared : Unshared (unlabelled targets) (ofUnlabelled targets) "app" "0" := by
    intro t named u named' _ _ _ _ _ _ _
    rw [List.mem_singleton.1 named, List.mem_singleton.1 named']
  obtain ⟨answers, _, whole, _⟩ := passed_on_whole_iff checked works rfl "app" "0"
  have passed := whole unshared jobsPage _ _ (answers jobsPage).1 _
    (fetched ▸ List.mem_singleton_self _)
  exact ⟨_, _, _, _, checked, works, rfl, fetched, rfl, passed⟩

theorem earlier_document_missing : ∃ (s settings : GatewaySettings) (g : Gateway) (t : Transport)
    (r : Request) (d : Instance × Page), s.check = .ok settings ∧ AtWork settings g ∧
      settings.scraping.labelEnrichment = false ∧ r.AsksFor g "app" "0" ∧
        d ∈ g.fetched t "app" "0" ∧ ¬ d.2.StandsIn (g.respond t r).2.body := by
  let targets : List Target := [.endpoint "/metrics", .endpoint "/more"]
  have checked : (unlabelled targets).check = .ok (unlabelled targets) := by decide
  have asks : Request.AsksFor { method := "GET", target := "/singleTargetMetrics/app/0" }
      (ofUnlabelled targets) "app" "0" := ⟨rfl, by decide +kernel, by decide⟩
  have found : ((ofUnlabelled targets).discover (some "app") (some "0")).2 =
      [(Target.endpoint "/metrics").instanceAt 0, (Target.endpoint "/more").instanceAt 0] := by
    decide +kernel
  obtain ⟨t, d, fetched, missing⟩ := exists_missing rfl (by decide) found (by decide)
  rw [← respond_of_asksFor asks] at missing
  exact ⟨_, _, _, t, _, d, checked, atWork_ofUnlabelled targets, rfl, asks, fetched, missing⟩

end Example

end Gateway
end MetricGateway
