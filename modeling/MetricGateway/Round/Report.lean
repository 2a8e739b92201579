import MetricGateway.Round.Schedule
import MetricGateway.Metrics.Request
import MetricGateway.Aggregate

/- A scraping round: documents are labelled and folded in the order in which they arrive. An
   instance without an answer at the deadline is down; what has arrived is always returned. -/
namespace MetricGateway

structure RoundReport where
  families : FamilyMap := ∅
  up : List (Instance × Bool) := []
  raw : List (Instance × Page) := []
  /-- Milliseconds. -/
  duration : Nat := 0

namespace Round

def arrived (deadline : Nat) (slots : List Slot) : List Slot :=
  (slots.filter fun s => s.ends < deadline).mergeSort fun a b => decide (a.ends ≤ b.ends)

def isAnswer : FetchOutcome → Bool
  | .crashed => false
  | .page _ | .failed => true

def answered (deadline : Nat) (slots : List Slot) : List Slot :=
  (arrived deadline slots).filter fun s => isAnswer s.result

/-- The slots without an answer: broken down, cut off, or never begun. -/
def unanswered (deadline : Nat) (slots : List Slot) : List Slot :=
  slots.filter fun s => !(s.ends < deadline && isAnswer s.result)

def batch (labelEnrichment : Bool) (i : Instance) (p : Page) : FamilyMap :=
  let labelling := if labelEnrichment then Labelling.origin i.origin else .none
  labelling.apply (FamilyMap.ofText p.data)

def documents (answered : List Slot) : List (Instance × Page) :=
  answered.filterMap fun s => s.page?.map (s.source, ·)

/-- The round ends with its last task, or at the deadline. -/
def duration (deadline : Nat) (slots : List Slot) : Nat :=
  min deadline ((slots.map Slot.ends).max?.getD 0)

/-- With `retainRaw` the documents are kept. If they are not labelled either, they are passed
    through and not read at all. -/
def run (settings : RoundSettings) (retainRaw : Bool) (plans : List (Instance × FetchPlan)) :
    RoundReport :=
  let deadline := settings.maxProcessingTime
  let slots := slots settings plans
  let answered := answered deadline slots
  let documents := documents answered
  let passThrough := retainRaw && !settings.labelEnrichment
  { families := if passThrough then ∅ else
      (documents.map fun (i, p) => batch settings.labelEnrichment i p).foldl FamilyMap.fold ∅
    up := answered.map (fun s => (s.source, s.page?.isSome)) ++
      (unanswered deadline slots).map fun s => (s.source, false)
    raw := if retainRaw then documents else []
    duration := duration deadline slots }

def milliseconds (ms : Nat) : Double := .ofNanoseconds (ms * 1000000)

def recordAnswer (m : GatewayMetrics) (s : Slot) : GatewayMetrics :=
  let m := m.observeLatency s.source (milliseconds s.duration)
  if s.page?.isSome then m else m.recordFailure s.source

def recordIn (settings : RoundSettings) (plans : List (Instance × FetchPlan)) (m : GatewayMetrics) :
    GatewayMetrics :=
  let deadline := settings.maxProcessingTime
  let slots := slots settings plans
  let m := (answered deadline slots).foldl recordAnswer m
  (unanswered deadline slots).foldl (fun m s => m.recordFailure s.source) m

end Round

def RoundReport.metrics (r : RoundReport) (originLabels : Bool) : RequestMetrics :=
  (RequestMetrics.create originLabels).record r.up (Round.milliseconds r.duration)

def RoundReport.document (r : RoundReport) (own : Option GatewayMetrics) : String :=
  appendTo (some ⟨r.families.toText, .text004⟩) ((r.metrics true).additional own)

end MetricGateway
