import MetricGateway.CommandLine.Run
import MetricGateway.Proofs.Service.Bare

/- A gateway without credentials finds, asks and answers the same, as long as the instances do not
   look at them. -/
namespace MetricGateway

/-- Answers that do not depend on who asks. -/
def Transport.Blind (t : Transport) : Prop :=
  ∀ earlier r, t (earlier.map FetchRequest.bare) r.bare = t earlier r

theorem Transport.Blind.plans {t : Transport} (blind : t.Blind) (id : String)
    (earlier : List FetchRequest) (instances : List Instance) :
    t.plans id (earlier.map FetchRequest.bare) (instances.map Instance.bare) =
      barePlans (t.plans id earlier instances) := by
  induction instances generalizing earlier with
  | nil => rfl
  | cons i instances ih =>
    have plan : t.plan (earlier.map FetchRequest.bare) (i.bare.fetchRequest id) =
        t.plan earlier (i.fetchRequest id) := by
      unfold Transport.plan
      exact congrArg (fun e => if (i.fetchRequest id).isSendable then Exchange.plan e else _)
        (blind earlier (i.fetchRequest id))
    have next : (if (i.bare.fetchRequest id).isSendable then
        earlier.map FetchRequest.bare ++ [i.bare.fetchRequest id]
          else earlier.map FetchRequest.bare) =
        (if (i.fetchRequest id).isSendable then earlier ++ [i.fetchRequest id]
          else earlier).map FetchRequest.bare := by
      have same : (i.bare.fetchRequest id).isSendable = (i.fetchRequest id).isSendable := rfl
      rw [same]
      split
      · rw [List.map_append]
        rfl
      · rfl
    rw [List.map_cons]
    unfold Transport.plans
    dsimp only
    rw [plan, next, ih]
    rfl

namespace Gateway

def bare (g : Gateway) : Gateway :=
  { g with
    settings := g.settings.bare
    directory := g.directory.bare
    metrics := g.metrics.map GatewayMetrics.bare
    sent := g.sent.map FetchRequest.bare }

variable (g : Gateway)

theorem withDirectory_bare (d : Directory) :
    g.bare.withDirectory d.bare = (g.withDirectory d).bare := by
  have signs : ∀ (seen : List (SingleFlight.Sighting TargetKey (List Instance) LookupError))
      (m : GatewayMetrics), (seen.map (SingleFlight.Sighting.map (List.map Instance.bare))).foldl
        recordSign m.bare = (seen.foldl recordSign m).bare := by
    intro seen m
    rw [List.foldl_map]
    exact List.foldl_hom GatewayMetrics.bare fun m sign => (m.bare_recordSign sign).symm
  have metrics : (g.metrics.map GatewayMetrics.bare).map
      (fun m => d.bare.cache.seen.foldl recordSign m) =
        (g.metrics.map fun m => d.cache.seen.foldl recordSign m).map GatewayMetrics.bare := by
    rw [Option.map_map, Option.map_map]
    exact Option.map_congr fun m _ => signs d.cache.seen m
  unfold withDirectory bare
  dsimp only
  rw [metrics]
  rfl

theorem discover_bare (appId number : Option String) :
    g.bare.discover appId number =
      ((g.discover appId number).1.bare, (g.discover appId number).2.map Instance.bare) := by
  have found := Directory.discover_bare g.directory appId number
  have directory : g.bare.directory = g.directory.bare := rfl
  unfold discover
  rw [directory, found]
  exact congrArg (·, _) (withDirectory_bare g _)

theorem invalidate_bare : g.bare.invalidate = g.invalidate.bare := by
  have cache := SingleFlight.Timeline.invalidateAll_map (List.map Instance.bare) g.directory.cache
  have directory : g.bare.directory.invalidate = g.directory.invalidate.bare :=
    congrArg (fun cache => { g.directory with cache }) cache.symm
  unfold invalidate
  rw [directory, withDirectory_bare]

theorem wait_bare (ms : Nat) : g.bare.wait ms = (g.wait ms).bare := by
  have cache := SingleFlight.Timeline.advance_map (List.map Instance.bare) g.directory.cache ms
  have directory : { g.bare.directory with cache := g.bare.directory.cache.advance ms } =
      ({ g.directory with cache := g.directory.cache.advance ms } : Directory).bare :=
    congrArg (fun cache => { g.directory with cache }) cache.symm
  unfold wait
  rw [directory, withDirectory_bare]

theorem jump_bare (ms : Nat) : g.bare.jump ms = (g.jump ms).bare := by
  have cache := SingleFlight.Timeline.moveTo_map (List.map Instance.bare) g.directory.cache
    (g.now + ms)
  have directory : { g.bare.directory with cache := g.bare.directory.cache.moveTo (g.now + ms) } =
      ({ g.directory with cache := g.directory.cache.moveTo (g.now + ms) } : Directory).bare :=
    congrArg (fun cache => { g.directory with cache }) cache.symm
  have now : g.bare.now = g.now := rfl
  unfold jump
  rw [now, directory, withDirectory_bare]

theorem retain_bare (current : List Instance) :
    g.bare.retain (current.map Instance.bare) = (g.retain current).bare := by
  have metrics : (g.metrics.map GatewayMetrics.bare).map
      (·.retain (current.map Instance.bare)) =
        (g.metrics.map (·.retain current)).map GatewayMetrics.bare := by
    rw [Option.map_map, Option.map_map]
    exact Option.map_congr fun m _ => (GatewayMetrics.bare_retain m current).symm
  unfold retain bare
  dsimp only
  rw [metrics]

theorem begun_bare (settings : RoundSettings) (plans : List (Instance × FetchPlan)) :
    begun settings (barePlans plans) = begun settings plans := by
  unfold begun
  rw [slots_bare, List.countP_map]
  rfl

section Answers

variable {t : Transport} (blind : t.Blind)

include blind

theorem scrape_bare (instances : List Instance) (retainRaw : Bool) :
    g.bare.scrape t (instances.map Instance.bare) retainRaw =
      ((g.scrape t instances retainRaw).1.bare, (g.scrape t instances retainRaw).2.bare) := by
  have settings : g.bare.settings.roundSettings = g.settings.roundSettings := rfl
  have plans := blind.plans g.id g.sent instances
  have tried : (((instances.map Instance.bare).take (begun g.settings.roundSettings
      (t.plans g.id g.sent instances))).map (Instance.fetchRequest g.id)).filter
        FetchRequest.isSendable =
      (((instances.take (begun g.settings.roundSettings (t.plans g.id g.sent instances))).map
        (Instance.fetchRequest g.id)).filter FetchRequest.isSendable).map FetchRequest.bare := by
    rw [← List.map_take, List.map_map, List.filter_map, List.filter_map, List.map_map]
    rfl
  have metrics : (g.metrics.map GatewayMetrics.bare).map (Round.recordIn g.settings.roundSettings
      (barePlans (t.plans g.id g.sent instances))) =
        (g.metrics.map (Round.recordIn g.settings.roundSettings
          (t.plans g.id g.sent instances))).map GatewayMetrics.bare := by
    rw [Option.map_map, Option.map_map]
    exact Option.map_congr fun m _ => (Round.recordIn_bare _ _ m).symm
  have names : g.bare.id = g.id ∧ g.bare.sent = g.sent.map FetchRequest.bare ∧
      g.bare.metrics = g.metrics.map GatewayMetrics.bare := ⟨rfl, rfl, rfl⟩
  obtain ⟨id, sent, own⟩ := names
  unfold scrape
  dsimp only
  rw [settings, id, sent, own, plans, begun_bare, tried, metrics, Round.run_bare, ← List.map_append]
  refine congrArg (·, _) ?_
  exact wait_bare { g with
    sent := _
    metrics := g.metrics.map (Round.recordIn g.settings.roundSettings
      (t.plans g.id g.sent instances)) } _

theorem serveAll_bare : g.bare.serveAll t = ((g.serveAll t).1.bare, (g.serveAll t).2) := by
  have document : ∀ (g : Gateway) (r : RoundReport),
      r.bare.document g.bare.metrics = r.document g.metrics :=
    fun g r => r.document_bare g.metrics
  unfold serveAll
  rw [discover_bare]
  dsimp only
  rw [retain_bare, scrape_bare _ blind]
  dsimp only
  rw [document]

theorem serveSingle_bare (appId number : String) : g.bare.serveSingle t appId number =
    ((g.serveSingle t appId number).1.bare, (g.serveSingle t appId number).2) := by
  have document : ∀ (g : Gateway) (r : RoundReport),
      r.bare.document g.bare.metrics = r.document g.metrics :=
    fun g r => r.document_bare g.metrics
  have additional : ∀ (g : Gateway) (r : RoundReport), (r.bare.metrics false).additional
      g.bare.metrics = (r.metrics false).additional g.metrics := by
    intro g r
    rw [RoundReport.metrics_bare]
    exact RequestMetrics.additional_bare _ _
  have page : ∀ r : RoundReport, r.bare.raw.getLast?.map Prod.snd =
      r.raw.getLast?.map Prod.snd := by
    intro r
    have raw : r.bare.raw = r.raw.map fun d => (d.1.bare, d.2) := rfl
    rw [raw, List.getLast?_map, Option.map_map]
    rfl
  unfold serveSingle
  rw [discover_bare]
  generalize g.discover (some appId) (some number) = found
  obtain ⟨g', instances⟩ := found
  cases instances with
  | nil => rfl
  | cons i instances =>
    have labelled : g'.bare.settings.scraping.labelEnrichment =
        g'.settings.scraping.labelEnrichment := rfl
    have scraped := scrape_bare g' blind (i :: instances)
    rw [List.map_cons] at scraped ⊢
    dsimp only
    rw [labelled, scraped]
    dsimp only
    rw [document, additional, page]
    split <;> rfl

theorem serve_bare (r : Request) (route : Route) :
    g.bare.serve t r route = ((g.serve t r route).1.bare, (g.serve t r route).2) := by
  have own : g.bare.isOwn r = g.isOwn r := rfl
  cases route with
  | metrics =>
    unfold serve
    dsimp only
    rw [own, serveAll_bare g blind]
    split <;> rfl
  | single appId number =>
    unfold serve
    dsimp only
    rw [own, serveSingle_bare g blind]
    split <;> rfl
  | discovery =>
    have listed : ∀ (address : String) (instances : List Instance),
        listing address (instances.map Instance.bare) = listing address instances := by
      intro address instances
      unfold listing
      rw [List.map_map]
      rfl
    have place : ∀ g : Gateway, g.bare.address = g.address := fun _ => rfl
    unfold serve serveListing
    rw [discover_bare]
    dsimp only
    rw [listed, place]
  | invalidate => exact congrArg (·, _) (invalidate_bare g)
  | health =>
    have size : g.bare.directory.cache.cache.size = g.directory.cache.cache.size :=
      SingleFlight.State.size_map (List.map Instance.bare) g.directory.cache.cache
    have summary : g.bare.summary = g.summary := by
      unfold Gateway.summary
      rw [size]
      rfl
    unfold serve
    dsimp only
    rw [summary]

theorem respond_bare (r : Request) :
    g.bare.respond t r = ((g.respond t r).1.bare, (g.respond t r).2) := by
  unfold respond
  cases Route.ofRequest r with
  | error e => rfl
  | ok route =>
    dsimp only
    rw [serve_bare g blind]

end Answers

theorem listInstances_bare (g : Gateway) (format : MarkupFormat) :
    CommandLine.listInstances g.bare format = CommandLine.listInstances g format := by
  have written : ∀ instances : List Instance,
      instancesText (instances.map Instance.bare) format = instancesText instances format := by
    intro instances
    unfold instancesText
    rw [List.map_map]
    rfl
  unfold CommandLine.listInstances
  rw [discover_bare]
  dsimp only
  rw [written, List.length_map]
  rfl

end Gateway
end MetricGateway
