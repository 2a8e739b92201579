import MetricGateway.Settings.Check
import Mathlib.Data.List.Pairwise
import Mathlib.Tactic.SplitIfs

/- Which settings pass the check. They are those that are consistent, said here without the check
   and its order; what comes out differs from them by a shorter fetch timeout at most and passes
   again. Of several faulty targets the first one is told. -/
namespace MetricGateway

def IsLetter (c : Char) : Prop := 'A' ≤ c ∧ c ≤ 'Z' ∨ 'a' ≤ c ∧ c ≤ 'z'

def IsDigit (c : Char) : Prop := '0' ≤ c ∧ c ≤ '9'

def IsWord (text : String) : Prop :=
  ∃ c rest, text.toList = c :: rest ∧ (IsLetter c ∨ c = '_') ∧
    ∀ d ∈ rest, IsLetter d ∨ IsDigit d ∨ d = '_'

structure Target.Complete (t : Target) : Prop where
  org : t.org ≠ ""
  space : t.space ≠ ""
  app : t.app ≠ ""
  route : t.route ≠ ""
  protocol : t.protocol = "http" ∨ t.protocol = "https"
  path : ['/'] <+: t.path.toList
  instances : 1 ≤ t.instances

/-- The target at an index is not complete, or has the key of an earlier one. -/
def FaultyAt (targets : List Target) (index : Nat) : Prop :=
  ∃ t, targets[index]? = some t ∧ (¬ t.Complete ∨ ∃ u ∈ targets.take index, u.key = t.key)

namespace GatewaySettings

structure Workable (s : GatewaySettings) : Prop where
  threads : s.scraping.threads ≠ 0
  processingTime : s.scraping.maxProcessingTime ≠ 0
  fetchTimeout : s.scraping.fetchTimeout ≠ 0
  sweepInterval : s.discovery.sweepInterval ≠ 0
  labelPrefix : ∀ text, s.ownMetrics.labelPrefix = some text → text = "" ∨ IsWord text

structure Consistent (s : GatewaySettings) : Prop extends s.Workable where
  complete : ∀ t ∈ s.targets, t.Complete
  keys : s.targets.Pairwise fun t u => t.key ≠ u.key

end GatewaySettings

section Words

theorem isAlpha_iff (c : Char) : c.isAlpha = true ↔ IsLetter c := by
  change (decide ('A' ≤ c ∧ c ≤ 'Z') || (decide ('a' ≤ c) && decide (c ≤ 'z'))) = true ↔ IsLetter c
  simp [IsLetter]

theorem isDigit_iff (c : Char) : c.isDigit = true ↔ IsDigit c := by
  simp [Char.isDigit, IsDigit, Char.le_def]

theorem isLabelName_iff (text : String) : isLabelName text = true ↔ IsWord text := by
  unfold isLabelName IsWord
  cases text.toList with
  | nil => simp
  | cons c rest =>
    have own : ((c.isAlpha || c == '_') && rest.all fun d => Text.isAlphanumeric d || d == '_') =
        true ↔ (IsLetter c ∨ c = '_') ∧ ∀ d ∈ rest, IsLetter d ∨ IsDigit d ∨ d = '_' := by
      simp [Text.isAlphanumeric, isAlpha_iff, isDigit_iff, or_assoc]
    refine own.trans ⟨fun proper => ⟨c, rest, rfl, proper⟩, ?_⟩
    rintro ⟨_, _, same, proper⟩
    cases same
    exact proper

theorem GatewaySettings.prefixFits_iff (s : GatewaySettings) : s.prefixFits = true ↔
    ∀ text, s.ownMetrics.labelPrefix = some text → text = "" ∨ IsWord text := by
  simp [prefixFits, Option.all_eq_true, isLabelName_iff]

end Words

section Targets

theorem Target.fault?_eq_none_iff (t : Target) (earlier : List TargetKey) :
    t.fault? earlier = none ↔ t.Complete ∧ t.key ∉ earlier := by
  have slash : t.path.toList.head? = some '/' ↔ ['/'] <+: t.path.toList := by
    cases t.path.toList <;> simp [eq_comm]
  unfold fault?
  constructor
  · intro passes
    split_ifs at passes with name route protocol path instances key
    rw [not_or, not_or] at name
    refine ⟨⟨name.1, name.2.1, name.2.2, route, ?_, slash.1 (not_not.1 path), ?_⟩, key⟩
    · by_contra other
      exact protocol (not_or.1 other)
    · exact Nat.one_le_iff_ne_zero.2 instances
  · rintro ⟨complete, key⟩
    have protocol : ¬ (t.protocol ≠ "http" ∧ t.protocol ≠ "https") := fun ⟨h, hs⟩ =>
      complete.protocol.elim h hs
    have instances := Nat.one_le_iff_ne_zero.1 complete.instances
    simp [complete.org, complete.space, complete.app, complete.route, protocol,
      slash.2 complete.path, instances, key]

variable {before rest : List Target} {earlier : List TargetKey}

theorem faultyAt_length {t : Target} (known : ∀ k, k ∈ earlier ↔ ∃ u ∈ before, u.key = k) :
    FaultyAt (before ++ t :: rest) before.length ↔ t.fault? earlier ≠ none := by
  rw [Ne, Target.fault?_eq_none_iff, not_and_or, not_not, known]
  simp [FaultyAt]

theorem firstBadTarget?_behind (known : ∀ k, k ∈ earlier ↔ ∃ u ∈ before, u.key = k) :
    (firstBadTarget? before.length earlier rest = none →
      ∀ i, before.length ≤ i → ¬ FaultyAt (before ++ rest) i) ∧
    ∀ e, firstBadTarget? before.length earlier rest = some e → ∃ index t fault,
      e = .badTarget index t fault ∧ (before ++ rest)[index]? = some t ∧
        FaultyAt (before ++ rest) index ∧
        ∀ i, before.length ≤ i → i < index → ¬ FaultyAt (before ++ rest) i := by
  induction rest generalizing before earlier with
  | nil =>
    refine ⟨fun _ i behind => ?_, fun e told => by cases told⟩
    rintro ⟨t, here, _⟩
    rw [List.append_nil, List.getElem?_eq_none behind] at here
    cases here
  | cons t rest ih =>
    have first : FaultyAt (before ++ t :: rest) before.length ↔ t.fault? earlier ≠ none :=
      faultyAt_length known
    unfold firstBadTarget?
    cases fault : t.fault? earlier with
    | some f =>
      refine ⟨fun quiet => (nomatch quiet), fun e told => ?_⟩
      cases told
      have faulty := first.2 (by simp [fault])
      refine ⟨before.length, t, f, rfl, by simp, faulty, fun i behind ahead => ?_⟩
      exact absurd behind (Nat.not_le.2 ahead)
    | none =>
      have fine : ¬ FaultyAt (before ++ t :: rest) before.length := fun faulty =>
        first.1 faulty fault
      have more : ∀ k, k ∈ t.key :: earlier ↔ ∃ u ∈ before ++ [t], u.key = k := by
        intro k
        simp only [List.mem_cons, known, List.mem_append, List.not_mem_nil, or_false, or_and_right,
          exists_or, exists_eq_left]
        exact or_comm.trans (or_congr_right eq_comm)
      have later := ih more
      rw [List.length_append, List.length_singleton, List.append_assoc, List.singleton_append]
        at later
      refine ⟨fun quiet i behind => ?_, fun e told => ?_⟩
      · rcases Nat.eq_or_lt_of_le behind with rfl | ahead
        · exact fine
        · exact later.1 quiet i ahead
      · obtain ⟨index, u, f, same, here, faulty, least⟩ := later.2 e told
        refine ⟨index, u, f, same, here, faulty, fun i behind ahead => ?_⟩
        rcases Nat.eq_or_lt_of_le behind with rfl | after
        · exact fine
        · exact least i after ahead

variable {targets : List Target}

theorem firstBadTarget?_some {e : SettingsError} (told : firstBadTarget? 0 [] targets = some e) :
    ∃ index t fault, e = .badTarget index t fault ∧ targets[index]? = some t ∧
      FaultyAt targets index ∧ ∀ i < index, ¬ FaultyAt targets i := by
  obtain ⟨index, t, fault, same, here, faulty, least⟩ :=
    (@firstBadTarget?_behind [] targets [] (by simp)).2 e told
  exact ⟨index, t, fault, same, here, faulty, fun i => least i (Nat.zero_le i)⟩

theorem firstBadTarget?_eq_none_iff :
    firstBadTarget? 0 [] targets = none ↔ ∀ index, ¬ FaultyAt targets index := by
  constructor
  · intro passes index
    exact (@firstBadTarget?_behind [] targets [] (by simp)).1 passes index (Nat.zero_le index)
  · intro fine
    cases told : firstBadTarget? 0 [] targets with
    | none => rfl
    | some e =>
      obtain ⟨index, _, _, _, _, faulty, _⟩ := firstBadTarget?_some told
      exact absurd faulty (fine index)

theorem not_faultyAt_iff : (∀ index, ¬ FaultyAt targets index) ↔
    (∀ t ∈ targets, t.Complete) ∧ targets.Pairwise fun t u => t.key ≠ u.key := by
  constructor
  · intro fine
    refine ⟨fun t member => ?_, List.pairwise_iff_getElem.2 fun i j left right before same => ?_⟩
    · obtain ⟨index, here⟩ := List.getElem?_of_mem member
      by_contra lacking
      exact fine index ⟨t, here, .inl lacking⟩
    · refine fine j ⟨_, List.getElem?_eq_getElem right, .inr ⟨targets[i], ?_, same⟩⟩
      exact List.mem_take_iff_getElem.2 ⟨i, by omega, rfl⟩
  · rintro ⟨complete, keys⟩ index ⟨t, here, lacking | ⟨u, among, same⟩⟩
    · exact lacking (complete t (List.mem_of_getElem? here))
    · obtain ⟨bound, rfl⟩ := List.getElem?_eq_some_iff.1 here
      obtain ⟨i, before, rfl⟩ := List.mem_take_iff_getElem.1 among
      exact List.pairwise_iff_getElem.1 keys i index (by omega) bound (by omega) same

end Targets

namespace GatewaySettings

variable {s r : GatewaySettings}

theorem check_of_workable (works : s.Workable) :
    s.check = (firstBadTarget? 0 [] s.targets).elim (.ok s.capped) .error := by
  have fits := s.prefixFits_iff.2 works.labelPrefix
  simp only [check, works.threads, works.processingTime, works.fetchTimeout, works.sweepInterval,
    fits, if_false, Bool.not_true, Bool.false_eq_true]
  cases firstBadTarget? 0 [] s.targets <;> rfl

theorem check_of_not_workable (fails : ¬ s.Workable) :
    ∃ e, s.check = .error e ∧ ∀ index t fault, e ≠ .badTarget index t fault := by
  unfold check
  split_ifs with threads processingTime fetchTimeout sweepInterval fits
  · exact ⟨_, rfl, fun _ _ _ same => nomatch same⟩
  · exact ⟨_, rfl, fun _ _ _ same => nomatch same⟩
  · exact ⟨_, rfl, fun _ _ _ same => nomatch same⟩
  · exact ⟨_, rfl, fun _ _ _ same => nomatch same⟩
  · exact ⟨_, rfl, fun _ _ _ same => nomatch same⟩
  · refine absurd ⟨threads, processingTime, fetchTimeout, sweepInterval, ?_⟩ fails
    exact s.prefixFits_iff.1 (by simpa using fits)

theorem consistent_iff :
    s.Consistent ↔ s.Workable ∧ firstBadTarget? 0 [] s.targets = none := by
  rw [firstBadTarget?_eq_none_iff, not_faultyAt_iff]
  exact ⟨fun whole => ⟨whole.toWorkable, whole.complete, whole.keys⟩,
    fun ⟨works, complete, keys⟩ => ⟨works, complete, keys⟩⟩

theorem check_eq_ok_iff : s.check = .ok r ↔ s.Consistent ∧ r = s.capped := by
  rw [consistent_iff]
  by_cases works : s.Workable
  · rw [check_of_workable works]
    cases firstBadTarget? 0 [] s.targets with
    | none => simp [works, eq_comm]
    | some e => simp
  · obtain ⟨e, failed, _⟩ := check_of_not_workable works
    simp [failed, works]

theorem check_eq_badTarget {index : Nat} {t : Target} {fault : TargetFault}
    (told : s.check = .error (.badTarget index t fault)) :
    s.Workable ∧ s.targets[index]? = some t ∧ FaultyAt s.targets index ∧
      ∀ i < index, ¬ FaultyAt s.targets i := by
  by_cases works : s.Workable
  · rw [check_of_workable works] at told
    cases found : firstBadTarget? 0 [] s.targets with
    | none => simp [found] at told
    | some e =>
      have same : e = .badTarget index t fault := by simpa [found] using told
      obtain ⟨_, _, _, own, here, faulty, least⟩ := firstBadTarget?_some found
      cases own.symm.trans same
      exact ⟨works, here, faulty, least⟩
  · obtain ⟨e, failed, other⟩ := check_of_not_workable works
    exact absurd (Except.error.inj (failed.symm.trans told)) (other index t fault)

theorem exists_badTarget (works : s.Workable) {i : Nat} (faulty : FaultyAt s.targets i) :
    ∃ index t fault, s.check = .error (.badTarget index t fault) := by
  rw [check_of_workable works]
  cases found : firstBadTarget? 0 [] s.targets with
  | none => exact absurd faulty (firstBadTarget?_eq_none_iff.1 found i)
  | some e =>
    obtain ⟨index, t, fault, rfl, _⟩ := firstBadTarget?_some found
    exact ⟨index, t, fault, rfl⟩

theorem Consistent.capped (whole : s.Consistent) : s.capped.Consistent where
  threads := whole.threads
  processingTime := whole.processingTime
  fetchTimeout := by
    have fetch := whole.fetchTimeout
    have budget := whole.processingTime
    change min s.scraping.fetchTimeout s.scraping.maxProcessingTime ≠ 0
    omega
  sweepInterval := whole.sweepInterval
  labelPrefix := whole.labelPrefix
  complete := whole.complete
  keys := whole.keys

theorem consistent_of_check (checked : s.check = .ok r) : r.Consistent := by
  obtain ⟨whole, rfl⟩ := check_eq_ok_iff.1 checked
  exact whole.capped

theorem capped_capped (s : GatewaySettings) : s.capped.capped = s.capped := by
  simp [GatewaySettings.capped]

end GatewaySettings

theorem exists_message (index : Nat) (t : Target) (fault : TargetFault) :
    ∃ rest, (SettingsError.badTarget index t fault).message =
      "targets[" ++ toString index ++ "]" ++ rest := by
  unfold SettingsError.message TargetFault.message
  dsimp only
  generalize "targets[" ++ toString index ++ "]" = place
  cases fault with
  | emptyName => exact ⟨_, rfl⟩
  | duplicate => exact ⟨_, String.append_assoc⟩
  | emptyRoute | badProtocol | badPath | noInstances =>
    simp only [String.append_assoc]
    exact ⟨_, rfl⟩

namespace GatewaySettings

/-- Settings pass the check exactly if they are consistent. What comes out of it has a fetch timeout
    within the time for a scrape, all else as it was, and passes again unchanged. Where all but the
    targets is in order, the check tells the first faulty target, if there is one, and it tells a
    target in no other case. -/
theorem check_accepts_consistent (s : GatewaySettings) :
    (∀ r, s.check = .ok r ↔ s.Consistent ∧ r = { s with scraping := { s.scraping with
      fetchTimeout := min s.scraping.fetchTimeout s.scraping.maxProcessingTime } }) ∧
    (∀ r, s.check = .ok r → r.check = .ok r) ∧
    (∀ index, (∃ t fault, s.check = .error (.badTarget index t fault)) ↔
      s.Workable ∧ FaultyAt s.targets index ∧ ∀ i < index, ¬ FaultyAt s.targets i) ∧
    ∀ index t fault, s.check = .error (.badTarget index t fault) →
      s.targets[index]? = some t ∧ ∃ rest, (SettingsError.badTarget index t fault).message =
        "targets[" ++ toString index ++ "]" ++ rest := by
  refine ⟨fun r => check_eq_ok_iff, fun r passed => ?_, fun index => ⟨?_, ?_⟩, ?_⟩
  · obtain ⟨whole, rfl⟩ := check_eq_ok_iff.1 passed
    exact check_eq_ok_iff.2 ⟨whole.capped, s.capped_capped.symm⟩
  · rintro ⟨t, fault, told⟩
    obtain ⟨works, _, faulty, least⟩ := check_eq_badTarget told
    exact ⟨works, faulty, least⟩
  · rintro ⟨works, faulty, least⟩
    obtain ⟨first, t, fault, told⟩ := exists_badTarget works faulty
    obtain ⟨_, _, also, before⟩ := check_eq_badTarget told
    have same : first = index := by
      rcases Nat.lt_trichotomy first index with less | same | more
      · exact absurd also (least first less)
      · exact same
      · exact absurd faulty (before index more)
    exact same ▸ ⟨t, fault, told⟩
  · intro index t fault told
    exact ⟨(check_eq_badTarget told).2.1, exists_message index t fault⟩

def shopAt (path : String) : Target :=
  ⟨"org", "space", "shop", none, "shop.example", path, "https", 2, none⟩

def hurried (paths : List String) : GatewaySettings where
  scraping := { maxProcessingTime := 1000 }
  ownMetrics := { labelPrefix := some "gw_1" }
  targets := paths.map shopAt

theorem first_repetition_told :
    (hurried ["/metrics", "/more"]).Consistent ∧
      (hurried ["/metrics", "/more"]).capped.check = .ok (hurried ["/metrics", "/more"]).capped ∧
      FaultyAt (hurried ["/metrics", "/more", "/metrics", "/more"]).targets 2 ∧
      ¬ FaultyAt (hurried ["/metrics", "/more", "/metrics", "/more"]).targets 1 := by
  have passed : (hurried ["/metrics", "/more"]).check =
      .ok (hurried ["/metrics", "/more"]).capped := rfl
  have failed : (hurried ["/metrics", "/more", "/metrics", "/more"]).check =
      .error (.badTarget 2 (shopAt "/metrics") .duplicate) := rfl
  obtain ⟨accepts, again, _⟩ := check_accepts_consistent (hurried ["/metrics", "/more"])
  obtain ⟨_, _, tells, _⟩ :=
    check_accepts_consistent (hurried ["/metrics", "/more", "/metrics", "/more"])
  obtain ⟨_, faulty, least⟩ := (tells 2).1 ⟨_, _, failed⟩
  exact ⟨((accepts _).1 passed).1, again _ passed, faulty, least 1 (by decide)⟩

end GatewaySettings
end MetricGateway
