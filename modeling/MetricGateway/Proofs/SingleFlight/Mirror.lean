import MetricGateway.Proofs.SingleFlight.Decompose

/- Two states of single-flight caches of which the second has what the first has under one key, and
   nothing else. What an operation does under the key, it does in both; what it does under another
   key, the second does not see. -/
namespace MetricGateway
namespace SingleFlight

variable {κ α ε : Type}

def Phase.moveTo (p : Phase κ) (id : Nat) : Phase κ :=
  match p with
  | .getQueued key _ failures => .getQueued key id failures
  | .getLoading key _ => .getLoading key id
  | .removeQueued key _ => .removeQueued key id
  | .refreshing _ rest began => .refreshing id rest began

@[simp] theorem Phase.entry_moveTo (p : Phase κ) (id : Nat) : (p.moveTo id).entry = id := by
  cases p <;> rfl

/-- A wait at one of some entries, which are numbered anew. -/
def Phase.among? (ids : List Nat) (p : Phase κ) : Option (Phase κ) :=
  (ids.idxOf? p.entry).map p.moveTo

/-- The entries of a key stand at `ids` in the one state; the other has no more than them. -/
structure State.Mirrors (key : κ) (ids : List Nat) (s s' : State κ α ε) : Prop where
  now : s'.now = s.now
  nodup : ids.Nodup
  own : ∀ i : Nat, i ∈ ids ↔ s.entries[i]?.map Entry.key = some key
  entries : ∀ j : Nat, s'.entries[j]? = ids[j]?.bind fun i => s.entries[i]?
  phases : ∀ t, s'.phase? t = (s.phase? t).bind (Phase.among? ids)

theorem mirrors_initial (settings : Settings) (now : Nat) (key : κ) :
    State.Mirrors key [] ({ settings, now } : State κ α ε) { settings, now } where
  now := rfl
  nodup := List.nodup_nil
  own := by simp
  entries := by simp
  phases := by simp [State.phase?]

theorem State.key_modifyEntry {s : State κ α ε} {f : Entry κ α ε → Entry κ α ε} {id : Nat}
    (same : ∀ e, (f e).key = e.key) (i : Nat) :
    (s.modifyEntry id f).entries[i]?.map Entry.key = s.entries[i]?.map Entry.key := by
  rw [State.getElem?_modifyEntry]
  split
  · simp [Function.comp_def, same]
  · rfl

section Places

variable {ids : List Nat} {i j : Nat}

theorem getElem?_idxOf? (found : ids.idxOf? i = some j) : ids[j]? = some i := by
  obtain ⟨bound, same, _⟩ := List.findIdx?_eq_some_iff_getElem.1 found
  rw [List.getElem?_eq_getElem bound, Option.some.injEq]
  exact beq_iff_eq.1 same

theorem idxOf?_of_getElem? (nodup : ids.Nodup) (place : ids[j]? = some i) :
    ids.idxOf? i = some j := by
  obtain ⟨bound, same⟩ := List.getElem?_eq_some_iff.1 place
  cases found : ids.idxOf? i with
  | none =>
    have absent := List.findIdx?_eq_none_iff.1 found i (List.mem_of_getElem? place)
    simp at absent
  | some k =>
    have same := (List.getElem?_inj bound nodup).1 (place.trans (getElem?_idxOf? found).symm)
    rw [same]

theorem idxOf?_of_not_mem (away : i ∉ ids) : ids.idxOf? i = none := by
  rw [List.idxOf?, List.findIdx?_eq_none_iff]
  intro k member
  have apart : k ≠ i := fun same => away (same ▸ member)
  simpa using apart

theorem idxOf?_concat {n : Nat} (older : i ≠ n) : (ids ++ [n]).idxOf? i = ids.idxOf? i := by
  have apart : n ≠ i := older.symm
  simp [List.idxOf?, List.findIdx?_append, apart]

end Places

namespace State.Mirrors

variable {key : κ} {ids : List Nat} {s s' : State κ α ε} {i j : Nat} {t : TaskId}

theorem at_place (mirrors : s.Mirrors key ids s') (place : ids[j]? = some i) :
    s'.entries[j]? = s.entries[i]? := by
  rw [mirrors.entries, place, Option.bind_some]

theorem exists_entry (mirrors : s.Mirrors key ids s') (place : ids[j]? = some i) :
    ∃ e, s.entries[i]? = some e ∧ e.key = key :=
  Option.map_eq_some_iff.1 ((mirrors.own i).1 (List.mem_of_getElem? place))

theorem place_of_key (mirrors : s.Mirrors key ids s') {e : Entry κ α ε}
    (here : s.entries[i]? = some e) (own : e.key = key) : ∃ j : Nat, ids[j]? = some i :=
  List.getElem?_of_mem ((mirrors.own i).2 (Option.map_eq_some_iff.2 ⟨e, here, own⟩))

theorem not_mem_of_key (mirrors : s.Mirrors key ids s') {e : Entry κ α ε}
    (here : s.entries[i]? = some e) (other : e.key ≠ key) : i ∉ ids := by
  intro member
  have own := (mirrors.own i).1 member
  rw [here] at own
  exact other (Option.some.inj own)

theorem length (mirrors : s.Mirrors key ids s') : s'.entries.length = ids.length := by
  have ends : ∀ j : Nat, s'.entries.length ≤ j ↔ ids.length ≤ j := by
    intro j
    rw [← List.getElem?_eq_none_iff, ← List.getElem?_eq_none_iff]
    cases place : ids[j]? with
    | none => simp [mirrors.entries, place]
    | some i =>
      obtain ⟨e, here, _⟩ := mirrors.exists_entry place
      simp [mirrors.at_place place, here]
  have first := ends s'.entries.length
  have second := ends ids.length
  omega

theorem phase_of_place (mirrors : s.Mirrors key ids s') {p : Phase κ}
    (phase : s.phase? t = some p) (place : ids[j]? = some p.entry) :
    s'.phase? t = some (p.moveTo j) := by
  simp [mirrors.phases, phase, Phase.among?, idxOf?_of_getElem? mirrors.nodup place]

theorem idle (mirrors : s.Mirrors key ids s') (idle : s.phase? t = none) : s'.phase? t = none := by
  simp [mirrors.phases, idle]

theorem idle_of_not_mem (mirrors : s.Mirrors key ids s') {p : Phase κ}
    (phase : s.phase? t = some p) (away : p.entry ∉ ids) : s'.phase? t = none := by
  simp [mirrors.phases, phase, Phase.among?, idxOf?_of_not_mem away]

theorem modify (mirrors : s.Mirrors key ids s') (place : ids[j]? = some i)
    {f : Entry κ α ε → Entry κ α ε} (same : ∀ e, (f e).key = e.key) :
    (s.modifyEntry i f).Mirrors key ids (s'.modifyEntry j f) where
  now := mirrors.now
  nodup := mirrors.nodup
  own k := by rw [mirrors.own, State.key_modifyEntry same]
  entries k := by
    obtain ⟨bound, _⟩ := List.getElem?_eq_some_iff.1 place
    rw [State.getElem?_modifyEntry]
    by_cases at_place : k = j
    · subst at_place
      simp [place, mirrors.at_place place, State.getElem?_modifyEntry]
    · rw [if_neg at_place, mirrors.entries]
      cases elsewhere : ids[k]? with
      | none => rfl
      | some n =>
        have apart : n ≠ i := by
          intro equal
          subst equal
          have equal := (List.getElem?_inj bound mirrors.nodup).1 (place.trans elsewhere.symm)
          exact at_place equal.symm
        simp [State.getElem?_modifyEntry, apart]
  phases := mirrors.phases

theorem modify_other (mirrors : s.Mirrors key ids s') (away : i ∉ ids)
    {f : Entry κ α ε → Entry κ α ε} (same : ∀ e, (f e).key = e.key) :
    (s.modifyEntry i f).Mirrors key ids s' where
  now := mirrors.now
  nodup := mirrors.nodup
  own k := by rw [mirrors.own, State.key_modifyEntry same]
  entries k := by
    rw [mirrors.entries]
    cases place : ids[k]? with
    | none => rfl
    | some n =>
      have apart : n ≠ i := fun equal => away (equal ▸ List.mem_of_getElem? place)
      simp [State.getElem?_modifyEntry, apart]
  phases := mirrors.phases

theorem drop (mirrors : s.Mirrors key ids s') (t : TaskId) :
    (s.dropTask t).Mirrors key ids (s'.dropTask t) where
  now := mirrors.now
  nodup := mirrors.nodup
  own := mirrors.own
  entries := mirrors.entries
  phases u := by
    rw [State.phase?_dropTask, State.phase?_dropTask]
    split
    · rfl
    · exact mirrors.phases u

theorem drop_other (mirrors : s.Mirrors key ids s') (away : s'.phase? t = none) :
    (s.dropTask t).Mirrors key ids s' := by
  have both := mirrors.drop t
  rwa [State.dropTask_of_idle away] at both

theorem set (mirrors : s.Mirrors key ids s') {p : Phase κ} (place : ids[j]? = some p.entry) :
    (s.setPhase t p).Mirrors key ids (s'.setPhase t (p.moveTo j)) where
  now := mirrors.now
  nodup := mirrors.nodup
  own := mirrors.own
  entries := mirrors.entries
  phases u := by
    rw [State.phase?_setPhase, State.phase?_setPhase]
    split
    · simp [Phase.among?, idxOf?_of_getElem? mirrors.nodup place]
    · exact mirrors.phases u

theorem set_other (mirrors : s.Mirrors key ids s') {p : Phase κ} (away : s'.phase? t = none)
    (elsewhere : p.entry ∉ ids) : (s.setPhase t p).Mirrors key ids s' where
  now := mirrors.now
  nodup := mirrors.nodup
  own := mirrors.own
  entries := mirrors.entries
  phases u := by
    rw [State.phase?_setPhase]
    split
    · rename_i same
      simp [same, away, Phase.among?, idxOf?_of_not_mem elsewhere]
    · exact mirrors.phases u

theorem map (mirrors : s.Mirrors key ids s') {f : Entry κ α ε → Entry κ α ε}
    (same : ∀ e, (f e).key = e.key) :
    State.Mirrors key ids { s with entries := s.entries.map f }
      { s' with entries := s'.entries.map f } where
  now := mirrors.now
  nodup := mirrors.nodup
  own k := by
    rw [mirrors.own]
    simp [Function.comp_def, same]
  entries k := by
    simp only [List.getElem?_map, mirrors.entries]
    cases ids[k]? <;> rfl
  phases := mirrors.phases

theorem pass (mirrors : s.Mirrors key ids s') (ms : Nat) :
    State.Mirrors key ids { s with now := s.now + ms } { s' with now := s'.now + ms } where
  now := congrArg (· + ms) mirrors.now
  nodup := mirrors.nodup
  own := mirrors.own
  entries := mirrors.entries
  phases := mirrors.phases

theorem phases_concat (mirrors : s.Mirrors key ids s') (order : Orderly s) (t : TaskId) :
    s'.phase? t = (s.phase? t).bind (Phase.among? (ids ++ [s.entries.length])) := by
  rw [mirrors.phases]
  cases phase : s.phase? t with
  | none => rfl
  | some p =>
    obtain ⟨e, here, _⟩ := order.seated t p phase
    obtain ⟨bound, _⟩ := List.getElem?_eq_some_iff.1 here
    simp only [Option.bind_some, Phase.among?, idxOf?_concat (Nat.ne_of_lt bound)]

theorem add (mirrors : s.Mirrors key ids s') (order : Orderly s) :
    (s.addEntry key).Mirrors key (ids ++ [s.entries.length]) (s'.addEntry key) where
  now := mirrors.now
  nodup := by
    rw [List.nodup_append]
    refine ⟨mirrors.nodup, by simp, ?_⟩
    intro k member n last
    obtain ⟨j, place⟩ := List.getElem?_of_mem member
    obtain ⟨e, here, _⟩ := mirrors.exists_entry place
    obtain ⟨bound, _⟩ := List.getElem?_eq_some_iff.1 here
    rw [List.mem_singleton] at last
    omega
  own k := by
    rw [List.mem_append, List.mem_singleton, mirrors.own, State.getElem?_addEntry]
    by_cases last : k = s.entries.length
    · simp [last, Entry.vacant]
    · simp [last]
  entries k := by
    rw [State.getElem?_addEntry, mirrors.length, mirrors.now]
    by_cases last : k = ids.length
    · simp [last, State.getElem?_addEntry]
    · rw [if_neg last, mirrors.entries]
      cases place : ids[k]? with
      | none =>
        have bound := List.getElem?_eq_none_iff.1 place
        have beyond : (ids ++ [s.entries.length]).length ≤ k := by
          rw [List.length_append, List.length_singleton]
          omega
        rw [List.getElem?_eq_none beyond]
        rfl
      | some n =>
        obtain ⟨e, here, _⟩ := mirrors.exists_entry place
        obtain ⟨bound, _⟩ := List.getElem?_eq_some_iff.1 here
        obtain ⟨inside, _⟩ := List.getElem?_eq_some_iff.1 place
        simp [List.getElem?_append_left inside, place, State.getElem?_addEntry,
          Nat.ne_of_lt bound]
  phases t := mirrors.phases_concat order t

theorem add_other (mirrors : s.Mirrors key ids s') {k : κ} (other : k ≠ key) :
    (s.addEntry k).Mirrors key ids s' where
  now := mirrors.now
  nodup := mirrors.nodup
  own n := by
    rw [mirrors.own, State.getElem?_addEntry]
    by_cases last : n = s.entries.length
    · simp [last, Entry.vacant, other]
    · rw [if_neg last]
  entries n := by
    rw [mirrors.entries]
    cases place : ids[n]? with
    | none => rfl
    | some m =>
      obtain ⟨e, here, _⟩ := mirrors.exists_entry place
      obtain ⟨bound, _⟩ := List.getElem?_eq_some_iff.1 here
      simp [State.getElem?_addEntry, Nat.ne_of_lt bound]
  phases := mirrors.phases

variable [DecidableEq κ]

theorem find?_of_found (mirrors : s.Mirrors key ids s') (order : Orderly s)
    (found : s.find? key = some i) : ∃ j : Nat, ids[j]? = some i ∧ s'.find? key = some j := by
  obtain ⟨e, here, listed, own⟩ := State.find?_eq_some found
  obtain ⟨j, place⟩ := mirrors.place_of_key here own
  have there : s'.entries[j]? = some e := (mirrors.at_place place).trans here
  cases search : s'.find? key with
  | none => exact absurd own (State.find?_eq_none search there listed)
  | some k =>
    obtain ⟨f, at_k, also, same⟩ := State.find?_eq_some search
    rw [mirrors.entries, Option.bind_eq_some_iff] at at_k
    obtain ⟨n, spot, at_n⟩ := at_k
    have equal := order.unique n i f e at_n here also listed (same.trans own.symm)
    subst equal
    exact ⟨k, spot, rfl⟩

theorem find?_of_missing (mirrors : s.Mirrors key ids s') (missing : s.find? key = none) :
    s'.find? key = none := by
  cases search : s'.find? key with
  | none => rfl
  | some k =>
    obtain ⟨f, at_k, listed, own⟩ := State.find?_eq_some search
    rw [mirrors.entries, Option.bind_eq_some_iff] at at_k
    obtain ⟨n, _, at_n⟩ := at_k
    exact absurd own (State.find?_eq_none missing at_n listed)

theorem claim (mirrors : s.Mirrors key ids s') (order : Orderly s) :
    ∃ ids' : List Nat, (s.claim key).1.Mirrors key ids' (s'.claim key).1 ∧
      ids'[(s'.claim key).2]? = some (s.claim key).2 := by
  unfold State.claim
  cases found : s.find? key with
  | some i =>
    obtain ⟨j, place, search⟩ := mirrors.find?_of_found order found
    rw [search]
    exact ⟨ids, mirrors, place⟩
  | none =>
    rw [mirrors.find?_of_missing found]
    exact ⟨ids ++ [s.entries.length], mirrors.add order, by simp [mirrors.length]⟩

theorem claim_other (mirrors : s.Mirrors key ids s') {k : κ} (other : k ≠ key) :
    (s.claim k).1.Mirrors key ids s' ∧ (s.claim k).2 ∉ ids := by
  obtain ⟨e, here, _, own⟩ := State.claim_listed s k
  have still : (s.claim k).1.Mirrors key ids s' := by
    unfold State.claim
    split
    · exact mirrors
    · exact mirrors.add_other other
  exact ⟨still, still.not_mem_of_key here (own ▸ other)⟩

end State.Mirrors

end SingleFlight
end MetricGateway
