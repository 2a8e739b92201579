import MetricGateway.Service.Pages
import MetricGateway.Service.Route

/- Answers to requests. -/
namespace MetricGateway

structure Response where
  status : Nat
  contentType : Option String := none
  body : String := ""
  deriving DecidableEq, Repr

namespace Response

def plainText : String := "text/plain; charset=utf-8"

def plain (status : Nat) (body : String) : Response := ⟨status, some plainText, body⟩

def ofRouteError : RouteError → Response
  | .notFound => { status := 404 }
  | .methodNotAllowed => { status := 405 }
  | .badParameter name => plain 400 ("Invalid URL: Invalid UTF-8 in \x60" ++ name ++ "\x60")

def document (framing : Framing) (body : String) : Response := ⟨200, some framing.header, body⟩

def noInstance : Response := plain 404 "no instance matched the request"

def loopback : Response := plain 508 "request originates from this gateway"

end Response

namespace Gateway

def isOwn (g : Gateway) (r : Request) : Bool :=
  r.header? "X-Herakles-Gateway-Instance" == some g.id

/-- All instances in one document, with the metrics of those that are gone removed. -/
def serveAll (g : Gateway) (t : Transport) : Gateway × Response :=
  let (g, instances) := g.discover none none
  let (g, report) := (g.retain instances).scrape t instances false
  (g, .document .text004 (report.document g.metrics))

/-- The instances of one application with one number. Without labelling the document that came last
    is passed through in its own framing. -/
def serveSingle (g : Gateway) (t : Transport) (appId number : String) : Gateway × Response :=
  match g.discover (some appId) (some number) with
  | (g, []) => (g, .noInstance)
  | (g, instances) =>
    let labelled := g.settings.scraping.labelEnrichment
    let (g, report) := g.scrape t instances !labelled
    if labelled then (g, .document .text004 (report.document g.metrics))
    else
      let page := report.raw.getLast?.map Prod.snd
      let additional := (report.metrics false).additional g.metrics
      (g, .document (page.elim .text004 Page.framing) (appendTo page additional))

def serveListing (g : Gateway) (r : Request) : Gateway × Response :=
  let (g, instances) := g.discover none none
  (g, ⟨200, some "application/json", listing ((r.header? "host").getD g.address) instances⟩)

def serve (g : Gateway) (t : Transport) (r : Request) : Route → Gateway × Response
  | .metrics => if g.isOwn r then (g, .loopback) else g.serveAll t
  | .single appId number => if g.isOwn r then (g, .loopback) else g.serveSingle t appId number
  | .discovery => g.serveListing r
  | .invalidate => (g.invalidate, .plain 200 "Discovery cache invalidated\n")
  | .health => (g, .plain 200 g.summary)

/-- Answers a request. One for the head alone is answered in the same way, without the body. -/
def respond (g : Gateway) (t : Transport) (r : Request) : Gateway × Response :=
  match Route.ofRequest r with
  | .error e => (g, .ofRouteError e)
  | .ok route =>
    let (g, response) := g.serve t r route
    (g, if r.method = "HEAD" then { response with body := "" } else response)

end Gateway
end MetricGateway
