import MetricGateway.Proofs.Service.Blind
import MetricGateway.Proofs.Service.Created

/- Credentials stay where they belong. If the settings of two gateways differ in passwords only,
   nobody can tell which is which but the instances that are asked, and each of those is sent the
   credentials of its own target. -/
namespace MetricGateway
namespace Gateway

section Contacted

def contacted (g : Gateway) (t : Transport) (instances : List Instance) : List Instance :=
  (instances.take (begun g.settings.roundSettings (t.plans g.id g.sent instances))).filter fun i =>
    (i.fetchRequest g.id).isSendable

/-- The instances to which requests are sent before a request is answered. -/
def contactedFor (g : Gateway) (t : Transport) (r : Request) : List Instance :=
  let among (appId number : Option String) :=
    let found := g.discover appId number
    found.1.contacted t found.2
  match Route.ofRequest r with
  | .ok .metrics => if g.isOwn r then [] else among none none
  | .ok (.single appId number) => if g.isOwn r then [] else among (some appId) (some number)
  | _ => []

variable {g : Gateway} {t : Transport}

theorem sent_scrape (instances : List Instance) (retainRaw : Bool) :
    (g.scrape t instances retainRaw).1.sent =
      g.sent ++ (g.contacted t instances).map (Instance.fetchRequest g.id) := by
  have sent : (g.scrape t instances retainRaw).1.sent = g.sent ++
      ((instances.take (begun g.settings.roundSettings (t.plans g.id g.sent instances))).map
        (Instance.fetchRequest g.id)).filter FetchRequest.isSendable := rfl
  rw [sent, List.filter_map]
  rfl

theorem sent_respond (r : Request) : (g.respond t r).1.id = g.id ∧
    (g.respond t r).1.sent =
      g.sent ++ (g.contactedFor t r).map (Instance.fetchRequest g.id) := by
  unfold respond contactedFor
  cases Route.ofRequest r with
  | error e => exact ⟨rfl, (List.append_nil _).symm⟩
  | ok route =>
    cases route with
    | metrics =>
      dsimp only [serve]
      split
      · exact ⟨rfl, (List.append_nil _).symm⟩
      · exact ⟨rfl, sent_scrape _ _⟩
    | single appId number =>
      dsimp only [serve]
      split
      · exact ⟨rfl, (List.append_nil _).symm⟩
      · have id : (g.discover (some appId) (some number)).1.id = g.id := rfl
        have sent : (g.discover (some appId) (some number)).1.sent = g.sent := rfl
        unfold serveSingle
        generalize g.discover (some appId) (some number) = found at *
        obtain ⟨g', instances⟩ := found
        cases instances with
        | nil =>
          refine ⟨id, sent.trans ?_⟩
          simp [contacted]
        | cons i instances =>
          have asked : ∀ retainRaw, (g'.scrape t (i :: instances) retainRaw).1.sent = g.sent ++
              (g'.contacted t (i :: instances)).map (Instance.fetchRequest g.id) := by
            intro retainRaw
            rw [sent_scrape, sent, id]
          dsimp only
          split
          · exact ⟨id, asked _⟩
          · exact ⟨id, asked _⟩
    | discovery | invalidate | health => exact ⟨rfl, (List.append_nil _).symm⟩

theorem contactedFor_bare (blind : t.Blind) (r : Request) :
    g.bare.contactedFor t r = (g.contactedFor t r).map Instance.bare := by
  have own : g.bare.isOwn r = g.isOwn r := rfl
  have among : ∀ appId number : Option String, (g.bare.discover appId number).1.contacted t
      (g.bare.discover appId number).2 =
        ((g.discover appId number).1.contacted t (g.discover appId number).2).map
          Instance.bare := by
    intro appId number
    rw [discover_bare]
    generalize g.discover appId number = found
    obtain ⟨g', instances⟩ := found
    have plans := blind.plans g'.id g'.sent instances
    have names : g'.bare.settings.roundSettings = g'.settings.roundSettings ∧
        g'.bare.id = g'.id ∧ g'.bare.sent = g'.sent.map FetchRequest.bare := ⟨rfl, rfl, rfl⟩
    obtain ⟨settings, id, sent⟩ := names
    unfold contacted
    dsimp only
    rw [settings, id, sent, plans, begun_bare, ← List.map_take, List.filter_map]
    rfl
  unfold contactedFor
  cases Route.ofRequest r with
  | error e => rfl
  | ok route =>
    cases route with
    | metrics =>
      dsimp only
      rw [own, among]
      split <;> rfl
    | single appId number =>
      dsimp only
      rw [own, among]
      split <;> rfl
    | discovery | invalidate | health => rfl

theorem found_contactedFor {settings : GatewaySettings}
    (keys : settings.targets.Pairwise fun t u => t.key ≠ u.key) (works : AtWork settings g)
    (r : Request) : ∀ i ∈ g.contactedFor t r, ∃ target ∈ settings.targets,
      i ∈ target.allInstances := by
  have among : ∀ (appId number : Option String),
      ∀ i ∈ (g.discover appId number).1.contacted t (g.discover appId number).2,
        ∃ target ∈ settings.targets, i ∈ target.allInstances := by
    intro appId number i member
    have taken := List.mem_of_mem_take (List.mem_of_mem_filter member)
    exact (works.found keys appId number).2 i taken
  unfold contactedFor
  cases Route.ofRequest r with
  | error e => exact fun i member => absurd member List.not_mem_nil
  | ok route =>
    cases route with
    | metrics =>
      dsimp only
      split
      · exact fun i member => absurd member List.not_mem_nil
      · exact among none none
    | single appId number =>
      dsimp only
      split
      · exact fun i member => absurd member List.not_mem_nil
      · exact among (some appId) (some number)
    | discovery | invalidate | health => exact fun i member => absurd member List.not_mem_nil

end Contacted

/-- What can happen to a gateway: a request, with the way in which instances answer meanwhile, and
    time that passes. -/
inductive Event where
  | ask (t : Transport) (r : Request)
  | wait (ms : Nat)
  | jump (ms : Nat)

def Event.Blind : Event → Prop
  | .ask t _ => t.Blind
  | .wait _ | .jump _ => True

/-- Lets events happen. Each request is noted with its answer and the instances that were sent
    requests for it. -/
def play (g : Gateway) : List Event → Gateway × List (Response × List Instance)
  | [] => (g, [])
  | .ask t r :: rest =>
    let after := (g.respond t r).1.play rest
    (after.1, ((g.respond t r).2, g.contactedFor t r) :: after.2)
  | .wait ms :: rest => (g.wait ms).play rest
  | .jump ms :: rest => (g.jump ms).play rest

theorem play_bare (g : Gateway) {script : List Event} (blind : ∀ e ∈ script, e.Blind) :
    g.bare.play script = ((g.play script).1.bare,
      (g.play script).2.map fun e => (e.1, e.2.map Instance.bare)) := by
  induction script generalizing g with
  | nil => rfl
  | cons e script ih =>
    have first := blind e List.mem_cons_self
    have rest : ∀ e ∈ script, e.Blind := fun e member => blind e (List.mem_cons_of_mem _ member)
    cases e with
    | ask t r =>
      have unseeing : t.Blind := first
      unfold play
      rw [respond_bare g unseeing, contactedFor_bare unseeing]
      dsimp only
      rw [ih _ rest]
      rfl
    | wait ms =>
      unfold play
      rw [wait_bare]
      exact ih _ rest
    | jump ms =>
      unfold play
      rw [jump_bare]
      exact ih _ rest

/-- Requests have been sent for the instances of targets only, and each with the credentials of the
    one target to which its instance belongs. -/
structure Confined (settings : GatewaySettings) (id : String) (sent : List FetchRequest)
    (contacted : List Instance) : Prop where
  sent_eq : sent = contacted.map (Instance.fetchRequest id)
  own : ∀ i ∈ contacted, ∃ t ∈ settings.targets, i ∈ t.allInstances ∧
    (∀ u ∈ settings.targets, i ∈ u.allInstances → u = t) ∧
      (i.fetchRequest id).authorization = t.basicAuth.map BasicAuth.authorization

theorem confined_play {settings : GatewaySettings}
    (keys : settings.targets.Pairwise fun t u => t.key ≠ u.key) {g : Gateway}
    (works : AtWork settings g) (script : List Event) :
    ∃ more, (g.play script).1.sent = g.sent ++ more ∧
      Confined settings g.id more ((g.play script).2.flatMap Prod.snd) := by
  induction script generalizing g with
  | nil => exact ⟨[], (List.append_nil _).symm, rfl, fun i member => absurd member List.not_mem_nil⟩
  | cons e script ih =>
    cases e with
    | wait ms => exact ih (works.wait ms)
    | jump ms => exact ih (works.jump ms)
    | ask t r =>
      obtain ⟨same, sent⟩ := sent_respond (g := g) (t := t) r
      obtain ⟨more, rest, confined⟩ := ih (works.respond t r)
      rw [same] at confined
      refine ⟨(g.contactedFor t r).map (Instance.fetchRequest g.id) ++ more, ?_, ?_, ?_⟩
      · unfold play
        dsimp only
        rw [rest, sent, List.append_assoc]
      · unfold play
        rw [List.flatMap_cons, List.map_append, confined.sent_eq]
      · unfold play
        intro i member
        rcases List.mem_append.1 member with now | later
        · obtain ⟨target, named, own⟩ := found_contactedFor keys works r i now
          refine ⟨target, named, own, ?_, ?_⟩
          · exact fun u other also =>
              Target.eq_of_key keys other named (Target.key_of_instance also own)
          · obtain ⟨n, _, rfl⟩ := List.mem_map.1 own
            rfl
        · exact confined.own i later

end Gateway

section Passwords

def BasicAuth.withoutPassword (a : BasicAuth) : BasicAuth := { a with password := "" }

def Target.withoutPassword (t : Target) : Target :=
  { t with basicAuth := t.basicAuth.map BasicAuth.withoutPassword }

def GatewaySettings.withoutPasswords (s : GatewaySettings) : GatewaySettings :=
  { s with targets := s.targets.map Target.withoutPassword }

theorem GatewaySettings.bare_of_check {s s' settings settings' : GatewaySettings}
    (alike : s.withoutPasswords = s'.withoutPasswords) (checked : s.check = .ok settings)
    (checked' : s'.check = .ok settings') : settings.bare = settings'.bare := by
  have blanked : ∀ s : GatewaySettings, s.withoutPasswords.bare = s.bare := by
    intro s
    unfold withoutPasswords bare
    dsimp only
    rw [List.map_map]
    rfl
  have same : s.bare = s'.bare := by
    rw [← blanked s, alike, blanked]
  have capped : ∀ {s settings : GatewaySettings}, s.check = .ok settings →
      settings.bare = s.bare.capped := by
    intro s settings checked
    unfold check at checked
    iterate 5
      split at checked
      · cases checked
    split at checked
    · cases checked
    · cases checked
      rfl
  rw [capped checked, capped checked', same]

end Passwords

namespace Gateway

theorem bare_of_create {settings settings' : GatewaySettings}
    (alike : settings.bare = settings'.bare) {id : String} {g g' : Gateway}
    (made : create? settings id = .ok g) (made' : create? settings' id = .ok g') :
    g.bare = g'.bare := by
  have own : settings.bare.ownMetrics = settings'.bare.ownMetrics := by rw [alike]
  have cached : settings.bare.cacheSettings = settings'.bare.cacheSettings := by rw [alike]
  have targets : settings.bare.targets = settings'.bare.targets := by rw [alike]
  change settings.ownMetrics = settings'.ownMetrics at own
  change settings.cacheSettings = settings'.cacheSettings at cached
  change settings.targets.map Target.bare = settings'.targets.map Target.bare at targets
  simp only [create?, bind, Except.bind, own] at made made'
  split at made
  · cases made
  · rename_i metrics created
    rw [created] at made'
    cases made
    cases made'
    unfold bare
    dsimp only
    rw [alike, Directory.bare_ofTargets, Directory.bare_ofTargets, targets, cached]

theorem confined_of_create {s settings : GatewaySettings} (checked : s.check = .ok settings)
    {id : String} {g : Gateway} (made : create? settings id = .ok g) (script : List Event) :
    Confined settings id (g.play script).1.sent ((g.play script).2.flatMap Prod.snd) := by
  have fresh : g.id = id ∧ g.sent = [] := by
    simp only [create?, bind, Except.bind] at made
    split at made
    · cases made
    · cases made
      exact ⟨rfl, rfl⟩
  obtain ⟨named, nothing⟩ := fresh
  obtain ⟨more, sent, confined⟩ :=
    confined_play (GatewaySettings.keys_of_check checked) (.create made) script
  rw [sent, nothing, List.nil_append, ← named]
  exact confined

/-- Of two configurations that differ in passwords only, and whatever happens to their gateways as
    long as the instances do not look at credentials, the answers and listings are the same, and
    so are the requests that are sent but for their credentials, which are those of the target to
    which the instance belongs. -/
theorem credentials_confined {s s' settings settings' : GatewaySettings}
    (alike : s.withoutPasswords = s'.withoutPasswords) (checked : s.check = .ok settings)
    (checked' : s'.check = .ok settings') (id : String) :
    ∃ g g' : Gateway, create? settings id = .ok g ∧ create? settings' id = .ok g' ∧
      (∀ script : List Event, (∀ e ∈ script, e.Blind) →
        (g.play script).2.map Prod.fst = (g'.play script).2.map Prod.fst ∧
        (g.play script).1.sent.map FetchRequest.bare =
          (g'.play script).1.sent.map FetchRequest.bare ∧
        Confined settings id (g.play script).1.sent ((g.play script).2.flatMap Prod.snd) ∧
        Confined settings' id (g'.play script).1.sent ((g'.play script).2.flatMap Prod.snd)) ∧
      ∀ (t : Transport) (format : MarkupFormat),
        CommandLine.finish? t (CommandLine.taskOf g (some (.targets format))) =
          CommandLine.finish? t (CommandLine.taskOf g' (some (.targets format))) := by
  obtain ⟨g, made⟩ := exists_create checked id
  obtain ⟨g', made'⟩ := exists_create checked' id
  have same : g.bare = g'.bare :=
    bare_of_create (GatewaySettings.bare_of_check alike checked checked') made made'
  refine ⟨g, g', made, made', ?_, ?_⟩
  · intro script blind
    have played : ((g.play script).1.bare,
        (g.play script).2.map fun e => (e.1, e.2.map Instance.bare)) =
          ((g'.play script).1.bare,
            (g'.play script).2.map fun e => (e.1, e.2.map Instance.bare)) := by
      rw [← play_bare g blind, same, play_bare g' blind]
    obtain ⟨after, log⟩ := Prod.mk.inj played
    refine ⟨?_, ?_, ?_, ?_⟩
    · have answers := congrArg (List.map Prod.fst) log
      rw [List.map_map, List.map_map] at answers
      exact answers
    · exact congrArg Gateway.sent after
    · exact confined_of_create checked made script
    · exact confined_of_create checked' made' script
  · intro t format
    have listed : CommandLine.listInstances g format = CommandLine.listInstances g' format := by
      rw [← listInstances_bare g, same, listInstances_bare]
    exact congrArg some listed

section Example

def guarded (first second : String) : GatewaySettings where
  ownMetrics := { enabled := false }
  targets := [{ Target.endpoint "/metrics" with basicAuth := some ⟨"user", first⟩ },
    { Target.endpoint "/more" with basicAuth := some ⟨"user", second⟩ }]

def ofGuarded (first second : String) : Gateway where
  settings := guarded first second
  id := "gateway"
  directory := .ofTargets (guarded first second).targets (guarded first second).cacheSettings
  metrics := none
  started := 0

def oneRequest : List Event := [.ask .refusing { method := "GET", target := "/metrics" }]

theorem exchanged_passwords_reach_owners :
    (guarded "one" "two").withoutPasswords = (guarded "two" "one").withoutPasswords ∧
      (guarded "one" "two").check = .ok (guarded "one" "two") ∧
      (guarded "two" "one").check = .ok (guarded "two" "one") ∧
      ((ofGuarded "one" "two").play oneRequest).2.map Prod.fst =
        ((ofGuarded "two" "one").play oneRequest).2.map Prod.fst ∧
      ((ofGuarded "one" "two").play oneRequest).1.sent.map FetchRequest.authorization =
        [some "Basic dXNlcjpvbmU=", some "Basic dXNlcjp0d28="] ∧
      ((ofGuarded "two" "one").play oneRequest).1.sent.map FetchRequest.authorization =
        [some "Basic dXNlcjp0d28=", some "Basic dXNlcjpvbmU="] := by
  have alike : (guarded "one" "two").withoutPasswords = (guarded "two" "one").withoutPasswords :=
    rfl
  have checked : (guarded "one" "two").check = .ok (guarded "one" "two") := by decide
  have checked' : (guarded "two" "one").check = .ok (guarded "two" "one") := by decide
  have blind : ∀ e ∈ oneRequest, e.Blind := by
    intro e member
    rw [List.mem_singleton.1 member]
    exact fun _ _ => rfl
  obtain ⟨g, g', made, made', played, _⟩ := credentials_confined alike checked checked' "gateway"
  have one : create? (guarded "one" "two") "gateway" = .ok (ofGuarded "one" "two") := rfl
  have two : create? (guarded "two" "one") "gateway" = .ok (ofGuarded "two" "one") := rfl
  cases one.symm.trans made
  cases two.symm.trans made'
  exact ⟨alike, checked, checked', (played oneRequest blind).1, by decide +kernel,
    by decide +kernel⟩

end Example

end Gateway
end MetricGateway
