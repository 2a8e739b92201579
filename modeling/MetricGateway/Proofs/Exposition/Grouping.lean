import MetricGateway.Exposition.Document

/- Which samples come together in a family. Each line's sample goes to the key that the TYPE lines
   before it make out for its name, and the first sample under a key fixes the family's type. Later
   TYPE lines, or a name that is the stripped form of another, can bring samples of both kinds of
   types under one key; exactly then a sample stands where its name does not belong. -/
namespace MetricGateway

def MetricType.familyOf (type : MetricType) (name : String) : String :=
  if type.isCompound then baseName name else name

def Family.Holds (f : Family) (s : Sample) : Prop := f.type.familyOf s.name = f.name

instance (f : Family) (s : Sample) : Decidable (f.Holds s) :=
  inferInstanceAs (Decidable (_ = _))

namespace Reading

def sampleOf? (line : List Char) : Option Sample :=
  match LineKind.of line with
  | .sample => (SampleLine.read line).toOption
  | _ => none

/-- The samples that lines bring, each with what has been read before its line. -/
def arrivals (r : Reading) : List (List Char) → List (Reading × Sample)
  | [] => []
  | line :: rest => (sampleOf? line).toList.map (r, ·) ++ arrivals (r.addLine line) rest

def underKey (key : String) (arrived : List (Reading × Sample)) : List (Reading × Sample) :=
  arrived.filter fun a => a.1.keyOf a.2.name = key

def grown (key : String) (arrived : List (Reading × Sample)) : Option Family → Option Family
  | some f => some { f with samples := f.samples ++ arrived.map Prod.snd }
  | none => arrived.head?.map fun a => ⟨key, a.1.typeOf a.2.name, "", arrived.map Prod.snd⟩

theorem grown_nil (key : String) (known : Option Family) : grown key [] known = known := by
  cases known <;> simp [grown]

theorem grown_cons (key : String) (a : Reading × Sample) (arrived : List (Reading × Sample))
    (known : Option Family) :
    grown key (a :: arrived) known = grown key arrived (grown key [a] known) := by
  cases known <;> simp [grown]

theorem families_addSample (r : Reading) (s : Sample) (key : String) :
    (r.addSample s).families[key]? = grown key (underKey key [(r, s)]) r.families[key]? := by
  simp only [addSample, Std.ExtTreeMap.getElem?_alter, Std.compare_eq_iff_eq, underKey]
  by_cases own : r.keyOf s.name = key
  · subst own
    cases r.families[r.keyOf s.name]? <;> simp [grown]
  · simp [own, grown_nil]

theorem families_addLine (r : Reading) (line : List Char) :
    (r.addLine line).families =
      match sampleOf? line with
      | some s => (r.addSample s).families
      | none => r.families := by
  unfold addLine sampleOf?
  cases LineKind.of line with
  | blank | comment => rfl
  | help text =>
    dsimp only
    cases Directive.help? text <;> rfl
  | type text =>
    dsimp only
    cases Directive.type? text <;> rfl
  | sample =>
    dsimp only
    cases SampleLine.read line <;> rfl

theorem families_foldl (lines : List (List Char)) (r : Reading) (key : String) :
    (lines.foldl addLine r).families[key]? =
      grown key (underKey key (r.arrivals lines)) r.families[key]? := by
  -- Each line is read by what has been read before it, so that the reading is generalised.
  induction lines generalizing r with
  | nil => simp [arrivals, underKey, grown_nil]
  | cons line rest ih =>
    rw [List.foldl_cons, ih, families_addLine, arrivals]
    cases sampleOf? line with
    | none => rfl
    | some s =>
      simp only [families_addSample, underKey, Option.toList_some, List.map_cons, List.map_nil,
        List.singleton_append]
      by_cases own : r.keyOf s.name = key
      · simp only [own, decide_true, List.filter_cons_of_pos, List.filter_nil]
        exact (grown_cons key (r, s) _ _).symm
      · simp [own, grown_nil]

theorem arrivals_of_family {text key : String} {f : Family}
    (here : (FamilyMap.ofText text)[key]? = some f) :
    ∃ a arrived, underKey key (arrivals {} (Text.lines text.toList)) = a :: arrived ∧
      f.name = key ∧ f.type = a.1.typeOf a.2.name ∧ f.samples = (a :: arrived).map Prod.snd := by
  rw [FamilyMap.ofText, finish, Std.ExtTreeMap.getElem?_map, Option.map_eq_some_iff] at here
  obtain ⟨g, before, rfl⟩ := here
  have unknown : ({} : Reading).families[key]? = none := Std.ExtTreeMap.getElem?_empty
  rw [families_foldl, unknown] at before
  cases own : underKey key (arrivals {} (Text.lines text.toList)) with
  | nil => simp [own, grown] at before
  | cons a arrived =>
    rw [own] at before
    cases before
    exact ⟨a, arrived, rfl, rfl, rfl, rfl⟩

theorem mem_underKey {key : String} {arrived : List (Reading × Sample)} {a : Reading × Sample} :
    a ∈ underKey key arrived ↔ a ∈ arrived ∧ a.1.keyOf a.2.name = key := by
  simp [underKey]

theorem holds_iff {r : Reading} {s : Sample} {f : Family} (own : r.keyOf s.name = f.name) :
    f.Holds s ↔ (r.typeOf s.name).isCompound = f.type.isCompound ∨ baseName s.name = s.name := by
  unfold keyOf at own
  unfold Family.Holds MetricType.familyOf
  rw [← own]
  cases (r.typeOf s.name).isCompound <;> cases f.type.isCompound <;> simp [eq_comm]

end Reading

/-- Every family of a document has its key as name and at least one sample, the first of which fits
    it. A sample that does not fit is one with a suffix, found to be compound at its line in a
    family that is not, or the other way round. -/
theorem family_of_document {text key : String} {f : Family}
    (here : (FamilyMap.ofText text)[key]? = some f) :
    f.name = key ∧ f.samples ≠ [] ∧
      (∀ s ∈ f.samples, s.labelNames.length = s.labelValues.length) ∧
      (∀ s, f.samples.head? = some s → f.Holds s) ∧
      ∀ s ∈ f.samples, ∃ r, (r, s) ∈ Reading.arrivals {} (Text.lines text.toList) ∧
        r.keyOf s.name = key ∧
        (f.Holds s ↔
          (r.typeOf s.name).isCompound = f.type.isCompound ∨ baseName s.name = s.name) := by
  obtain ⟨a, arrived, own, rfl, type, samples⟩ := Reading.arrivals_of_family here
  have under : ∀ b ∈ a :: arrived, b ∈ Reading.arrivals {} (Text.lines text.toList) ∧
      b.1.keyOf b.2.name = f.name := by
    intro b member
    rw [← own] at member
    exact Reading.mem_underKey.1 member
  refine ⟨rfl, by simp [samples], ?_, ?_, ?_⟩
  · intro s _
    simp [Sample.labelNames, Sample.labelValues]
  · intro s first
    rw [samples, List.map_cons, List.head?_cons] at first
    cases first
    exact (Reading.holds_iff (under a List.mem_cons_self).2).2 (Or.inl (by rw [type]))
  · intro s member
    rw [samples] at member
    obtain ⟨b, among, rfl⟩ := List.mem_map.1 member
    obtain ⟨arrives, key⟩ := under b among
    exact ⟨b.1, arrives, key, Reading.holds_iff key⟩

def gaugeBesideSummary : String :=
  "# TYPE batch gauge\nbatch 7\n# TYPE batch_max summary\nbatch_max 3\n"

theorem gauge_family_of_document :
    ∃ f s r, (FamilyMap.ofText gaugeBesideSummary)["batch"]? = some f ∧ f.type = .gauge ∧
      s ∈ f.samples ∧ ¬ f.Holds s ∧
      (r, s) ∈ Reading.arrivals {} (Text.lines gaugeBesideSummary.toList) ∧
      (r.typeOf s.name).isCompound = true := by
  let f := ((FamilyMap.ofText gaugeBesideSummary)["batch"]?).get (by decide)
  have here : (FamilyMap.ofText gaugeBesideSummary)["batch"]? = some f := (Option.some_get _).symm
  obtain ⟨s, member, misfit⟩ : ∃ s ∈ f.samples, ¬ f.Holds s := by decide
  obtain ⟨_, _, _, _, placed⟩ := family_of_document here
  obtain ⟨r, arrives, _, fits⟩ := placed s member
  have type : f.type = .gauge := by decide
  rw [fits, not_or, type] at misfit
  refine ⟨f, s, r, here, type, member, ?_, arrives, ?_⟩
  · rw [fits, not_or, type]
    exact misfit
  · simpa [MetricType.isCompound] using misfit.1

theorem summary_sample_in_gauge :
    ∃ f s, (FamilyMap.ofText gaugeBesideSummary)["batch"]? = some f ∧ f.type = .gauge ∧
      s ∈ f.samples ∧ s.name = "batch_max" ∧ ¬ f.Holds s := by
  let f := ((FamilyMap.ofText gaugeBesideSummary)["batch"]?).get (by decide)
  obtain ⟨s, misfit⟩ : ∃ s ∈ f.samples, s.name = "batch_max" ∧ ¬ f.Holds s := by decide
  exact ⟨f, s, (Option.some_get _).symm, by decide, misfit⟩

end MetricGateway
