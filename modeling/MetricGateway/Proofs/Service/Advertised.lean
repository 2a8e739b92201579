import MetricGateway.Proofs.Service.Discovered
import MetricGateway.Proofs.Service.Routing
import Mathlib.Data.List.Nodup

/- Whether the path under which an instance is listed leads to it. The path is the application id as
   it is written, and the instance's number; neither has to tell the instance from all others. -/
namespace MetricGateway

theorem plain_number {carries : Char → Bool}
    (digits : ∀ c : Char, c.isDigit = true → carries c = true) (n : Nat) :
    Route.Plain carries (toString n) := by
  have digit : ∀ c ∈ (toString n).toList, c.isDigit = true := by
    intro c member
    rw [Nat.toString_eq_ofList_toDigits, String.toList_ofList] at member
    exact Nat.isDigit_of_mem_toDigits (by decide) (by decide) member
  have lacks : ∀ c : Char, c.isDigit = false → c ∉ (toString n).toList := by
    intro c other member
    rw [digit c member] at other
    cases other
  refine ⟨⟨lacks '/' (by decide), lacks '?' (by decide), lacks '#' (by decide), ?_⟩, ?_, ?_⟩
  · exact Text.hasEscape_of_unsigned (lacks '%' (by decide))
  · intro empty
    rw [Nat.toString_eq_ofList_toDigits, String.ofList_eq_empty_iff] at empty
    exact Nat.toDigits_ne_nil empty
  · exact fun c member => digits c (digit c member)

theorem toString_injective {m n : Nat} (same : toString m = toString n) : m = n := by
  rw [Nat.toString_eq_ofList_toDigits, Nat.toString_eq_ofList_toDigits, String.ofList_inj] at same
  calc
    m = Nat.ofDigitChars 10 (Nat.toDigits 10 m) 0 := Nat.ofDigitChars_ten_toDigits.symm
    _ = Nat.ofDigitChars 10 (Nat.toDigits 10 n) 0 := by rw [same]
    _ = n := Nat.ofDigitChars_ten_toDigits

theorem filter_of_nodup {α : Type} {p : α → Bool} {l : List α} (once : l.Nodup) {a : α}
    (member : a ∈ l) (fits : p a = true) : l.filter p = [a] ↔ ∀ b ∈ l, p b = true → b = a := by
  constructor
  · intro only b among selected
    have found : b ∈ l.filter p := List.mem_filter.2 ⟨among, selected⟩
    rw [only] at found
    exact List.mem_singleton.1 found
  · intro only
    refine List.perm_singleton.1 ?_
    refine (List.perm_ext_iff_of_nodup (once.filter p) (List.nodup_singleton a)).2 fun b => ?_
    rw [List.mem_filter, List.mem_singleton]
    constructor
    · rintro ⟨among, selected⟩
      exact only b among selected
    · rintro rfl
      exact ⟨member, fits⟩

namespace Target

variable {t u : Target} {n : Nat}

theorem selects_instanceAt {m : Nat} :
    Directory.selects (some (t.instanceAt n).appId) (some (toString n)) (u.instanceAt m) = true ↔
      u.effectiveAppId = t.effectiveAppId ∧ m = n := by
  have numbers := u.number_instanceAt m
  simp only [Directory.selects, Option.all_some, numbers, Bool.and_eq_true, beq_iff_eq,
    Option.some_inj]
  constructor
  · rintro ⟨app, number⟩
    exact ⟨app.symm, toString_injective number⟩
  · rintro ⟨app, rfl⟩
    exact ⟨app.symm, rfl⟩

theorem alone_iff {targets : List Target} (keys : targets.Pairwise fun t u => t.key ≠ u.key)
    (named : t ∈ targets) (small : n < t.instances) :
    (targets.flatMap allInstances).filter
        (Directory.selects (some (t.instanceAt n).appId) (some (toString n))) = [t.instanceAt n] ↔
      ∀ u ∈ targets, u.effectiveAppId = t.effectiveAppId → n < u.instances → u = t := by
  have own : t.instanceAt n ∈ t.allInstances := List.mem_map.2 ⟨n, List.mem_range.2 small, rfl⟩
  rw [filter_of_nodup (nodup_instances keys) (List.mem_flatMap.2 ⟨t, named, own⟩)
    (selects_instanceAt.2 ⟨rfl, rfl⟩)]
  constructor
  · intro only u other app more
    have among : u.instanceAt n ∈ u.allInstances := List.mem_map.2 ⟨n, List.mem_range.2 more, rfl⟩
    have same := only _ (List.mem_flatMap.2 ⟨u, other, among⟩) (selects_instanceAt.2 ⟨app, rfl⟩)
    exact eq_of_key keys other named (key_of_instance (same ▸ among) own)
  · intro only j member selected
    obtain ⟨u, other, among⟩ := List.mem_flatMap.1 member
    obtain ⟨m, more, rfl⟩ := List.mem_map.1 among
    obtain ⟨app, rfl⟩ := selects_instanceAt.1 selected
    rw [only u other app (List.mem_range.1 more)]

end Target

theorem Instance.toList_singlePath {i : Instance} {number : String}
    (own : i.number? = some number) : i.singlePath.toList =
      Route.singleStart ++ (i.appId.toList ++ '/' :: number.toList) := by
  have slash : "/".toList = ['/'] := by decide
  unfold Instance.singlePath Route.singleStart
  rw [own, Option.getD_some, String.toList_append, String.toList_append, String.toList_append,
    slash, List.append_assoc, List.append_assoc, List.singleton_append]

namespace Gateway

variable {settings : GatewaySettings}

/-- Whatever characters a target can carry, if only those of the path's beginning and of numbers are
    among them: the path of an instance that a gateway lists leads to that instance if its
    application id can stand in the path as it is, and discovery then has it alone if no other
    target of that id has as many instances. -/
theorem advertised_path_leads_iff {carries : Char → Bool}
    (start : ∀ c ∈ Route.singleStart, carries c = true)
    (digits : ∀ c : Char, c.isDigit = true → carries c = true) {s : GatewaySettings}
    (checked : s.check = .ok settings) {g g' : Gateway} (listing : AtWork settings g)
    (asked : AtWork settings g') {i : Instance} (listed : i ∈ (g.discover none none).2) :
    ∃ t ∈ settings.targets, ∃ n < t.instances,
      i = t.instanceAt n ∧ i.number? = some (toString n) ∧
        (∀ r : Request, r.method = "GET" → r.target = i.singlePath →
          (Route.Leads carries r i.appId (toString n) ↔ Route.Plain carries i.appId)) ∧
        ((g'.discover (some i.appId) (some (toString n))).2 = [i] ↔
          ∀ u ∈ settings.targets, u.effectiveAppId = i.appId → n < u.instances → u = t) := by
  have keys := GatewaySettings.keys_of_check checked
  obtain ⟨_, targets⟩ := listing.found keys none none
  obtain ⟨t, named, own⟩ := targets i listed
  obtain ⟨n, small, rfl⟩ := List.mem_map.1 own
  rw [List.mem_range] at small
  have number := t.number_instanceAt n
  refine ⟨t, named, n, small, rfl, number, fun r get target => ?_, ?_⟩
  · refine Route.leads_iff start get ?_ (plain_number digits n)
    rw [target, Instance.toList_singlePath number]
  · rw [asked.discover_all keys]
    exact Target.alone_iff keys named small

def oneTarget (appId : String) : GatewaySettings where
  ownMetrics := { enabled := false }
  targets := [{ Target.endpoint "/metrics" with appId := some appId }]

def ofOneTarget (appId : String) : Gateway where
  settings := oneTarget appId
  id := "gateway"
  directory := .ofTargets (oneTarget appId).targets (oneTarget appId).cacheSettings
  metrics := none
  started := 0

theorem atWork_ofOneTarget (appId : String) : AtWork (oneTarget appId) (ofOneTarget appId) := by
  have made : create? (oneTarget appId) "gateway" = .ok (ofOneTarget appId) := rfl
  exact .create made

/-- The visible characters of ASCII, without those that addresses are quoted with. -/
def visible (c : Char) : Bool :=
  0x21 ≤ c.toNat && c.toNat < 0x7F && c != '<' && c != '>' && c.toNat != 0x60

theorem visible_of_isDigit {c : Char} (digit : c.isDigit = true) : visible c = true := by
  have bounds : 48 ≤ c.toNat ∧ c.toNat ≤ 57 := by
    simpa [Char.isDigit, UInt32.le_iff_toNat_le] using digit
  have less : c ≠ '<' := by
    rintro rfl
    exact absurd digit (by decide)
  have greater : c ≠ '>' := by
    rintro rfl
    exact absurd digit (by decide)
  have tick : c.toNat ≠ 0x60 := by omega
  have low : 0x21 ≤ c.toNat := by omega
  have high : c.toNat < 0x7F := by omega
  simp [visible, less, greater, tick, low, high]

/-- A colon is no trouble, although the number of an instance is what stands behind the last one. -/
theorem path_with_colon_leads : ∃ i ∈ ((ofOneTarget "shop:1").discover none none).2,
    Route.Leads visible { method := "GET", target := i.singlePath } "shop:1" "0" ∧
      ((ofOneTarget "shop:1").discover (some "shop:1") (some "0")).2 = [i] := by
  have start : ∀ c ∈ Route.singleStart, visible c = true := List.all_eq_true.1 (by decide)
  have plain : Route.Plain visible "shop:1" := by decide
  have checked : (oneTarget "shop:1").check = .ok (oneTarget "shop:1") := by decide
  have works := atWork_ofOneTarget "shop:1"
  have listed : Target.instanceAt { Target.endpoint "/metrics" with appId := some "shop:1" } 0 ∈
      ((ofOneTarget "shop:1").discover none none).2 := by decide +kernel
  obtain ⟨t, named, n, small, _, _, leads, alone⟩ :=
    advertised_path_leads_iff start (fun _ => visible_of_isDigit) checked works works listed
  have only : ∀ u ∈ (oneTarget "shop:1").targets, u = t := by
    intro u member
    rw [List.mem_singleton.1 member, List.mem_singleton.1 named]
  have first : n = 0 := by
    rw [List.mem_singleton.1 named] at small
    exact Nat.lt_one_iff.1 small
  subst first
  refine ⟨_, listed, ?_, ?_⟩
  · exact (leads _ rfl rfl).2 plain
  · exact alone.2 fun u member _ _ => only u member

theorem path_with_slash_leads_nowhere : ∃ (s settings : GatewaySettings) (g : Gateway)
    (i : Instance), s.check = .ok settings ∧ AtWork settings g ∧ i ∈ (g.discover none none).2 ∧
      Route.ofRequest { method := "GET", target := i.singlePath } = .error .notFound := by
  have listed : Target.instanceAt { Target.endpoint "/metrics" with appId := some "a/b" } 0 ∈
      ((ofOneTarget "a/b").discover none none).2 := by decide +kernel
  exact ⟨oneTarget "a/b", oneTarget "a/b", ofOneTarget "a/b", _, by decide,
    atWork_ofOneTarget "a/b", listed, by decide +kernel⟩

end Gateway
end MetricGateway
