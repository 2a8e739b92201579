import MetricGateway.Proofs.Exposition.ReadBack
import MetricGateway.Proofs.Round.Attribution
import MetricGateway.Proofs.Service.AtWork
import MetricGateway.Proofs.SingleFlight.ValuesInTime

/- Everything without its credentials. What the gateway finds, measures and reports of instances is
   found, measured and reported alike if their credentials are taken off beforehand. -/
namespace MetricGateway

def Instance.bare (i : Instance) : Instance := { i with credentials := none }

def Target.bare (t : Target) : Target := { t with basicAuth := none }

def FetchRequest.bare (r : FetchRequest) : FetchRequest := { r with authorization := none }

def GatewaySettings.bare (s : GatewaySettings) : GatewaySettings :=
  { s with targets := s.targets.map Target.bare }

theorem Target.allInstances_bare (t : Target) :
    t.bare.allInstances = t.allInstances.map Instance.bare := by
  unfold allInstances
  rw [List.map_map]
  rfl

theorem lookUp_bare (targets : List Target) (key : TargetKey) :
    lookUp (targets.map Target.bare) key = (lookUp targets key).map (List.map Instance.bare) := by
  have found : (targets.map Target.bare).reverse.find? (fun t => decide (t.key = key)) =
      (targets.reverse.find? fun t => decide (t.key = key)).map Target.bare := by
    rw [← List.map_reverse, List.find?_map]
    rfl
  unfold lookUp
  rw [found]
  cases targets.reverse.find? fun t => decide (t.key = key) with
  | none => rfl
  | some t => exact congrArg Except.ok t.allInstances_bare

namespace Directory

def bare (d : Directory) : Directory :=
  { d with cache := d.cache.map (List.map Instance.bare) }

theorem bare_ofTargets (targets : List Target) (settings : SingleFlight.Settings) :
    (ofTargets targets settings).bare = ofTargets (targets.map Target.bare) settings := by
  have keys : (targets.map Target.bare).map Target.key = targets.map Target.key := by
    rw [List.map_map]
    rfl
  have loader : (fun key (_ : Nat) => immediate (lookUp (targets.map Target.bare) key)) =
      fun key _ => (immediate (lookUp targets key)).map (List.map Instance.bare) := by
    funext key _
    rw [lookUp_bare]
    rfl
  unfold ofTargets
  rw [keys, loader]
  rfl

theorem endOfRequest?_bare (sign : SingleFlight.Sighting TargetKey (List Instance) LookupError) :
    endOfRequest? (sign.map (List.map Instance.bare)) =
      (endOfRequest? sign).map
        (Prod.map id (SingleFlight.Result.map (List.map Instance.bare))) := by
  cases sign with
  | called | answered => rfl
  | signal s =>
    cases s with
    | began | granted | sized | expired | refreshed => rfl
    | finished t r => cases t <;> rfl

theorem answerTo?_bare (n : Nat) (e : Nat × SingleFlight.Result (List Instance) LookupError) :
    answerTo? n (Prod.map id (SingleFlight.Result.map (List.map Instance.bare)) e) =
      (answerTo? n e).map (Except.map (List.map Instance.bare)) := by
  obtain ⟨m, r⟩ := e
  cases r with
  | got | failed =>
    simp only [Prod.map, SingleFlight.Result.map, answerTo?, id]
    split <;> rfl
  | removed | swept => rfl

theorem answers_bare (n : Nat)
    (seen : List (SingleFlight.Sighting TargetKey (List Instance) LookupError)) :
    ((seen.map (SingleFlight.Sighting.map (List.map Instance.bare))).filterMap
        endOfRequest?).findSome? (answerTo? n) =
      ((seen.filterMap endOfRequest?).findSome? (answerTo? n)).map
        (Except.map (List.map Instance.bare)) := by
  have ends : endOfRequest? ∘ SingleFlight.Sighting.map (List.map Instance.bare) = _ :=
    funext endOfRequest?_bare
  rw [List.filterMap_map, ends, ← List.map_filterMap, List.findSome?_map, List.map_findSome?]
  exact congrArg (List.findSome? · _) (funext (answerTo?_bare n))

theorem find_bare (d : Directory) (key : TargetKey) :
    d.bare.find key = ((d.find key).1.bare,
      (d.find key).2.map (Except.map (List.map Instance.bare))) := by
  have cache := SingleFlight.Timeline.get_map (List.map Instance.bare) d.cache
    (.request d.lookups) key
  refine Prod.ext ?_ ?_
  · exact congrArg (fun cache => { d with cache, lookups := d.lookups + 1 }) cache.symm
  · have seen : (d.bare.cache.get (.request d.lookups) key).seen =
        (d.cache.get (.request d.lookups) key).seen.map
          (SingleFlight.Sighting.map (List.map Instance.bare)) :=
      congrArg SingleFlight.Timeline.seen cache.symm
    have lookups : d.bare.lookups = d.lookups := rfl
    rw [find_answer, lookups, seen, answers_bare, ← find_answer]

theorem discover_bare (d : Directory) (appId number : Option String) :
    d.bare.discover appId number = ((d.discover appId number).1.bare,
      (d.discover appId number).2.map Instance.bare) := by
  let taken (found : Directory × List Instance) := (found.1.bare, found.2.map Instance.bare)
  have step : ∀ (found : Directory × List Instance) (key : TargetKey),
      visit appId number (taken found) key = taken (visit appId number found key) := by
    intro found key
    unfold visit taken
    dsimp only
    rw [find_bare]
    refine Prod.ext rfl ?_
    cases (found.1.find key).2 with
    | none => simp
    | some answer =>
      cases answer with
      | error e => simp [Except.map]
      | ok instances =>
        dsimp only [Option.map_some, Except.map]
        rw [List.map_append, List.filter_map]
        rfl
  have visited : d.keys.foldl (visit appId number) (taken (d, [])) =
      taken (d.keys.foldl (visit appId number) (d, [])) := List.foldl_hom taken step
  rw [discover_eq, discover_eq]
  exact visited

end Directory

namespace GatewayMetrics

def bare (m : GatewayMetrics) : GatewayMetrics :=
  { m with known := m.known.map fun _ i => i.bare }

variable (m : GatewayMetrics) (i : Instance)

theorem bare_remember : (m.remember i).bare = m.bare.remember i.bare := by
  have known : (m.known.insertIfNew i.id i).map (fun _ i => i.bare) =
      (m.known.map fun _ i => i.bare).insertIfNew i.id i.bare := by
    refine Std.ExtTreeMap.ext_getElem? fun key => ?_
    simp only [Std.ExtTreeMap.getElem?_map, Std.ExtTreeMap.getElem?_insertIfNew,
      Std.ExtTreeMap.mem_map]
    split <;> rfl
  unfold remember bare
  rw [known]
  rfl

theorem bare_recordFailure : (m.recordFailure i).bare = m.bare.recordFailure i.bare := by
  have remembered := bare_remember m i
  unfold recordFailure
  rw [← remembered]
  rfl

theorem bare_observeLatency (seconds : Double) :
    (m.observeLatency i seconds).bare = m.bare.observeLatency i.bare seconds := by
  have remembered := bare_remember m i
  have latency : m.bare.latency = m.latency := rfl
  unfold observeLatency
  rw [latency, ← remembered]
  cases m.latency <;> rfl

theorem bare_deregister : (m.deregister i).bare = m.bare.deregister i.bare := by
  have known : (m.known.erase i.id).map (fun _ i => i.bare) =
      (m.known.map fun _ i => i.bare).erase i.id := by
    refine Std.ExtTreeMap.ext_getElem? fun key => ?_
    rw [Std.ExtTreeMap.getElem?_map, Std.ExtTreeMap.getElem?_erase, Std.ExtTreeMap.getElem?_erase,
      Std.ExtTreeMap.getElem?_map]
    split <;> rfl
  unfold deregister bare
  rw [known]
  rfl

theorem vanished_bare (current : List Instance) :
    m.bare.vanished (current.map Instance.bare) = (m.vanished current).map Instance.bare := by
  have values : m.bare.known.values = m.known.values.map Instance.bare := by
    rw [values_eq_map_toList, values_eq_map_toList, List.map_map]
    unfold bare
    rw [Std.ExtTreeMap.toList_map, List.map_map]
    rfl
  have present : ∀ k : Instance, (current.map Instance.bare).any (·.id == k.bare.id) =
      current.any (·.id == k.id) := by
    intro k
    rw [List.any_map]
    rfl
  unfold vanished
  rw [values, List.filter_map]
  exact congrArg (List.map _) (List.filter_congr fun k _ => congrArg not (present k))

theorem bare_retain (current : List Instance) :
    (m.retain current).bare = m.bare.retain (current.map Instance.bare) := by
  unfold retain
  rw [vanished_bare, List.foldl_map]
  exact (List.foldl_hom bare fun m i => (bare_deregister m i).symm).symm

theorem bare_recordSign
    (sign : SingleFlight.Sighting TargetKey (List Instance) LookupError) :
    (Gateway.recordSign m sign).bare =
      Gateway.recordSign m.bare (sign.map (List.map Instance.bare)) := by
  cases sign with
  | called | answered => rfl
  | signal s =>
    cases s with
    | refreshed key success => cases success <;> rfl
    | began | granted | finished | sized | expired => rfl

end GatewayMetrics

section Rounds

def Slot.bare (s : Slot) : Slot := { s with source := s.source.bare }

def RoundReport.bare (r : RoundReport) : RoundReport :=
  { r with
    up := r.up.map fun u => (u.1.bare, u.2)
    raw := r.raw.map fun d => (d.1.bare, d.2) }

def barePlans (plans : List (Instance × FetchPlan)) : List (Instance × FetchPlan) :=
  plans.map fun p => (p.1.bare, p.2)

theorem slots_bare (settings : RoundSettings) (plans : List (Instance × FetchPlan)) :
    slots settings (barePlans plans) = (slots settings plans).map Slot.bare := by
  have spans : ((barePlans plans).map fun p => p.2.span settings.fetchTimeout) =
      plans.map fun p => p.2.span settings.fetchTimeout := by
    rw [barePlans, List.map_map]
    rfl
  have length : (barePlans plans).length = plans.length := List.length_map ..
  unfold slots
  rw [spans, length]
  dsimp only
  rw [barePlans, List.zip_map_left, List.map_map, List.map_map]
  rfl

namespace Round

variable (settings : RoundSettings) (deadline : Nat) (slots : List Slot)

theorem answered_bare : answered deadline (slots.map Slot.bare) =
    (answered deadline slots).map Slot.bare := by
  have sorted := List.map_mergeSort (f := Slot.bare) (r := fun a b => decide (a.ends ≤ b.ends))
    (s := fun a b => decide (a.ends ≤ b.ends)) (l := slots.filter fun s => s.ends < deadline)
    fun _ _ _ _ => rfl
  have early : ((slots.map Slot.bare).filter fun s => s.ends < deadline) =
      (slots.filter fun s => s.ends < deadline).map Slot.bare := List.filter_map
  unfold answered arrived
  rw [early, ← sorted, List.filter_map]
  rfl

theorem unanswered_bare : unanswered deadline (slots.map Slot.bare) =
    (unanswered deadline slots).map Slot.bare := List.filter_map

theorem documents_bare : documents (slots.map Slot.bare) =
    (documents slots).map fun d => (d.1.bare, d.2) := by
  unfold documents
  rw [List.filterMap_map, List.map_filterMap]
  refine congrArg (List.filterMap · _) (funext fun s => ?_)
  rw [Option.map_map]
  rfl

variable {slots} (retainRaw : Bool) (plans : List (Instance × FetchPlan)) (order left : List Slot)

theorem settle_bare : settle settings retainRaw (barePlans plans) (order.map Slot.bare)
    (left.map Slot.bare) = (settle settings retainRaw plans order left).bare := by
  have families : ((documents order).map fun d => (d.1.bare, d.2)).map
      (fun d => batch settings.labelEnrichment d.1 d.2) =
        (documents order).map fun d => batch settings.labelEnrichment d.1 d.2 := by
    rw [List.map_map]
    rfl
  have ends : ((slots settings plans).map Slot.bare).map Slot.ends =
      (slots settings plans).map Slot.ends := by
    rw [List.map_map]
    rfl
  have up : ((order.map Slot.bare).map fun s => (s.source, s.page?.isSome)) ++
      (left.map Slot.bare).map (fun s => (s.source, false)) =
        ((order.map fun s => (s.source, s.page?.isSome)) ++
          left.map fun s => (s.source, false)).map fun u => (u.1.bare, u.2) := by
    simp only [List.map_append, List.map_map]
    rfl
  unfold settle
  rw [foldl_take, foldl_take, slots_bare, documents_bare]
  unfold RoundReport.close RoundReport.bare duration
  dsimp only
  rw [families, ends, List.nil_append, List.nil_append, up]
  cases retainRaw <;> rfl

theorem run_bare : run settings retainRaw (barePlans plans) =
    (run settings retainRaw plans).bare := by
  rw [run_eq_settle, run_eq_settle, slots_bare, answered_bare, unanswered_bare, settle_bare]

theorem recordIn_bare (m : GatewayMetrics) :
    (recordIn settings plans m).bare = recordIn settings (barePlans plans) m.bare := by
  have answer : ∀ (m : GatewayMetrics) (s : Slot),
      (recordAnswer m s).bare = recordAnswer m.bare s.bare := by
    intro m s
    have observed := m.bare_observeLatency s.source (milliseconds s.duration)
    have page : s.bare.page? = s.page? := rfl
    unfold recordAnswer
    rw [page]
    dsimp only
    split
    · exact observed
    · exact (GatewayMetrics.bare_recordFailure _ _).trans
        (congrArg (GatewayMetrics.recordFailure · _) observed)
  have folded : ∀ (record : GatewayMetrics → Slot → GatewayMetrics),
      (∀ m s, (record m s).bare = record m.bare s.bare) → ∀ (slots : List Slot)
        (m : GatewayMetrics), (slots.foldl record m).bare =
          (slots.map Slot.bare).foldl record m.bare := by
    intro record same slots m
    rw [List.foldl_map]
    exact (List.foldl_hom GatewayMetrics.bare fun m s => (same m s).symm).symm
  unfold recordIn
  dsimp only
  rw [folded _ fun m s => m.bare_recordFailure s.source, folded _ answer, slots_bare,
    answered_bare, unanswered_bare]

end Round

theorem RoundReport.metrics_bare (r : RoundReport) (originLabels : Bool) :
    r.bare.metrics originLabels = r.metrics originLabels := by
  have recorded : ∀ (up : List (Instance × Bool)) (m : RequestMetrics) (duration : Double),
      m.record (up.map fun u => (u.1.bare, u.2)) duration = m.record up duration := by
    intro up m duration
    unfold RequestMetrics.record
    rw [List.foldl_map]
    rfl
  exact recorded r.up _ _

theorem RequestMetrics.additional_bare (m : RequestMetrics) (own : Option GatewayMetrics) :
    m.additional (own.map GatewayMetrics.bare) = m.additional own := by
  cases own <;> rfl

theorem RoundReport.document_bare (r : RoundReport) (own : Option GatewayMetrics) :
    r.bare.document (own.map GatewayMetrics.bare) = r.document own := by
  unfold document
  rw [metrics_bare, RequestMetrics.additional_bare]
  rfl

end Rounds
end MetricGateway
