import MetricGateway.Exposition.Framing
import MetricGateway.Proofs.Exposition.WrittenLines

/- A written document is read back: its families come out under their keys with their samples, help
   texts and types, also behind another document whose tables are still in force. -/
namespace MetricGateway

/-- The type that a text 0.0.4 document keeps. -/
def MetricType.written : MetricType → MetricType
  | .info | .stateSet => .unknown
  | type => type

/-- A family that a text 0.0.4 document can carry: each sample is one that belongs to it. -/
structure Family.Plain (f : Family) : Prop where
  name : IsName f.name.toList
  help : IsHelp f.help.toList
  filled : f.samples ≠ []
  samples : ∀ s ∈ f.samples, s.Plain
  own : ∀ s ∈ f.samples, (if f.type.isCompound then baseName s.name else s.name) = f.name

def Family.entered (f : Family) : Family := { f with type := f.type.written, help := "" }

theorem ofWord?_word (type : MetricType) :
    MetricType.ofWord? type.word.toList = some type.written := by
  cases type <;> rfl

theorem isCompound_written (type : MetricType) : type.written.isCompound = type.isCompound := by
  cases type <;> rfl

namespace Reading

def readText (r : Reading) (text : List Char) : Reading := (Text.lines text).foldl addLine r

def enter (r : Reading) (f : Family) : Reading where
  helps := r.helps.insert f.name f.help
  types := r.types.insert f.name f.type.written
  families := r.families.insert f.name f.entered

/-- No table has anything under the family's name or under another name of its samples. -/
structure Open (r : Reading) (f : Family) : Prop where
  families : f.name ∉ r.families
  types : ∀ s ∈ f.samples, s.name ≠ f.name → s.name ∉ r.types

theorem readText_nil (r : Reading) : r.readText [] = r := rfl

theorem readText_line {line : List Char} (isLine : IsLine line) (r : Reading) (rest : List Char) :
    r.readText (line ++ '\n' :: rest) = (r.addLine line).readText rest := by
  simp only [readText, Text.lines_append isLine.one isLine.finish, List.foldl_cons]

theorem addLine_help {f : Family} (plain : f.Plain) (r : Reading) :
    r.addLine f.helpLine = { r with helps := r.helps.insert f.name f.help } := by
  have same : String.ofList f.name.toList = f.name := String.ofList_toList
  simp only [addLine, helpLine_kind plain.name, Directive.help?_written plain.name plain.help, same]

theorem addLine_type {f : Family} (plain : f.Plain) (r : Reading) :
    r.addLine f.typeLine = { r with types := r.types.insert f.name f.type.written } := by
  have same : String.ofList f.name.toList = f.name := String.ofList_toList
  simp only [addLine, typeLine_kind plain.name,
    Directive.type?_written plain.name (word_letters f.type), same, ofWord?_word, Option.getD_some]

theorem addLine_sample {s : Sample} (plain : s.Plain) (r : Reading) :
    r.addLine s.line = r.addSample s := by
  simp only [addLine, sampleLine_kind plain, SampleLine.read_written plain]

theorem readText_samples {samples : List Sample} (plain : ∀ s ∈ samples, s.Plain) (r : Reading)
    (rest : List Char) :
    r.readText (samples.flatMap Sample.write ++ rest) =
      (samples.foldl addSample r).readText rest := by
  induction samples generalizing r with
  | nil => rfl
  | cons s samples ih =>
    have own := plain s List.mem_cons_self
    have text : (s :: samples).flatMap Sample.write ++ rest =
        s.line ++ '\n' :: (samples.flatMap Sample.write ++ rest) := by
      simp [Sample.write, Sample.line, Sample.lineWith]
    rw [text, readText_line (sampleLine_isLine own), addLine_sample own, List.foldl_cons]
    exact ih (fun t member => plain t (List.mem_cons_of_mem s member)) (r.addSample s)

theorem typeOf_own {r : Reading} {f : Family} {s : Sample}
    (typed : r.types[f.name]? = some f.type.written)
    (own : (if f.type.isCompound then baseName s.name else s.name) = f.name)
    (clear : s.name ≠ f.name → s.name ∉ r.types) : r.typeOf s.name = f.type.written := by
  unfold typeOf
  by_cases named : s.name = f.name
  · simp only [named, typed]
  · have absent : r.types[s.name]? = none := Std.ExtTreeMap.getElem?_eq_none (clear named)
    cases compound : f.type.isCompound with
    | false => simp [compound, named] at own
    | true =>
      simp only [compound, if_true] at own
      simp only [absent, own, typed, isCompound_written, compound, if_true]

theorem keyOf_own {r : Reading} {f : Family} {s : Sample} (typed : r.typeOf s.name = f.type.written)
    (own : (if f.type.isCompound then baseName s.name else s.name) = f.name) :
    r.keyOf s.name = f.name := by
  simp only [keyOf, typed, isCompound_written, own]

theorem insert_insert (families : FamilyMap) (key : String) (f g : Family) :
    (families.insert key f).insert key g = families.insert key g := by
  ext k : 1
  simp only [Std.ExtTreeMap.getElem?_insert]
  split <;> rfl

theorem addSample_first {r : Reading} {s : Sample} {key : String} (own : r.keyOf s.name = key)
    (absent : r.families[key]? = none) :
    r.addSample s =
      { r with families := r.families.insert key ⟨key, r.typeOf s.name, "", [s]⟩ } := by
  simp only [addSample, own]
  congr 1
  ext k : 1
  rw [Std.ExtTreeMap.getElem?_alter, Std.ExtTreeMap.getElem?_insert, absent]

theorem addSample_later {r : Reading} {s : Sample} {key : String} {f : Family}
    (own : r.keyOf s.name = key) (here : r.families[key]? = some f) :
    r.addSample s =
      { r with families := r.families.insert key { f with samples := f.samples ++ [s] } } := by
  simp only [addSample, own]
  congr 1
  ext k : 1
  rw [Std.ExtTreeMap.getElem?_alter, Std.ExtTreeMap.getElem?_insert, here]

theorem foldl_addSample {r : Reading} {key : String} {f : Family} {samples : List Sample}
    (keys : ∀ s ∈ samples, r.keyOf s.name = key) (here : r.families[key]? = some f) :
    samples.foldl addSample r =
      { r with families := r.families.insert key { f with samples := f.samples ++ samples } } := by
  induction samples generalizing r f with
  | nil =>
    have same : r.families.insert key f = r.families := by
      ext k : 1
      rw [Std.ExtTreeMap.getElem?_insert]
      split
      · rename_i equal
        rw [← Std.compare_eq_iff_eq.1 equal, here]
      · rfl
    simp only [List.append_nil, same]
    rfl
  | cons s samples ih =>
    rw [List.foldl_cons, addSample_later (keys s List.mem_cons_self) here]
    refine (ih (fun t member => ?_) Std.ExtTreeMap.getElem?_insert_self).trans ?_
    · exact keys t (List.mem_cons_of_mem s member)
    simp only [insert_insert, List.append_assoc, List.singleton_append]

theorem readText_family {f : Family} (plain : f.Plain) {r : Reading} (isOpen : r.Open f)
    (rest : List Char) : r.readText (f.write ++ rest) = (r.enter f).readText rest := by
  have text : f.write ++ rest = f.helpLine ++ '\n' :: (f.typeLine ++ '\n' ::
      (f.samples.flatMap Sample.write ++ rest)) := by
    have help : "# HELP ".toList = ['#', ' ', 'H', 'E', 'L', 'P', ' '] := rfl
    have type : "# TYPE ".toList = ['#', ' ', 'T', 'Y', 'P', 'E', ' '] := rfl
    unfold Family.write
    rw [help, type]
    simp only [Family.helpLine, Family.typeLine, List.cons_append, List.nil_append,
      List.append_assoc]
  rw [text, readText_line (helpLine_isLine plain.name plain.help), addLine_help plain,
    readText_line (typeLine_isLine plain.name), addLine_type plain, readText_samples plain.samples]
  congr 1
  -- Where the samples are read the family's type is declared, and none of their other names is.
  generalize declared : ({ r with
    helps := r.helps.insert f.name f.help
    types := r.types.insert f.name f.type.written } : Reading) = d
  have typed : d.types[f.name]? = some f.type.written := by
    rw [← declared]
    exact Std.ExtTreeMap.getElem?_insert_self
  have types : ∀ s ∈ f.samples, d.typeOf s.name = f.type.written := by
    intro s member
    refine typeOf_own typed (plain.own s member) fun other => ?_
    rw [← declared, Std.ExtTreeMap.mem_insert]
    rintro (same | before)
    · exact other (Std.compare_eq_iff_eq.1 same).symm
    · exact isOpen.types s member other before
  have keys : ∀ s ∈ f.samples, d.keyOf s.name = f.name := fun s member =>
    keyOf_own (types s member) (plain.own s member)
  have absent : d.families[f.name]? = none := by
    rw [← declared]
    exact Std.ExtTreeMap.getElem?_eq_none isOpen.families
  cases samples : f.samples with
  | nil => exact absurd samples plain.filled
  | cons s others =>
    rw [samples] at types keys
    rw [List.foldl_cons, addSample_first (keys s List.mem_cons_self) absent]
    refine (foldl_addSample (fun t member => ?_) Std.ExtTreeMap.getElem?_insert_self).trans ?_
    · exact keys t (List.mem_cons_of_mem s member)
    · have first := types s List.mem_cons_self
      simp only [first, insert_insert, List.singleton_append]
      simp only [← declared, enter, Family.entered, samples]

theorem readText_families {families : List Family} (plain : ∀ f ∈ families, f.Plain)
    (apart : families.Pairwise fun f g => f.name ≠ g.name ∧ ∀ s ∈ g.samples, s.name ≠ f.name)
    {r : Reading} (isOpen : ∀ f ∈ families, r.Open f) (rest : List Char) :
    r.readText (families.flatMap Family.write ++ rest) =
      (families.foldl enter r).readText rest := by
  induction families generalizing r with
  | nil => rfl
  | cons f families ih =>
    obtain ⟨first, apart⟩ := List.pairwise_cons.1 apart
    rw [List.flatMap_cons, List.append_assoc, readText_family (plain f List.mem_cons_self)
      (isOpen f List.mem_cons_self), List.foldl_cons]
    refine ih (fun g member => plain g (List.mem_cons_of_mem f member)) apart fun g member => ?_
    have before := isOpen g (List.mem_cons_of_mem f member)
    obtain ⟨names, samples⟩ := first g member
    constructor
    · simp only [enter, Std.ExtTreeMap.mem_insert, not_or]
      exact ⟨fun same => names (Std.compare_eq_iff_eq.1 same), before.families⟩
    · intro s own other
      simp only [enter, Std.ExtTreeMap.mem_insert, not_or]
      exact ⟨fun same => samples s own (Std.compare_eq_iff_eq.1 same).symm,
        before.types s own other⟩

theorem getElem?_foldl_insert {β : Type} (value : Family → β) {families : List Family}
    (apart : families.Pairwise fun f g => f.name ≠ g.name) (table : Std.ExtTreeMap String β)
    (key : String) :
    (families.foldl (fun table f => table.insert f.name (value f)) table)[key]? =
      ((families.find? (·.name = key)).map value).or table[key]? := by
  induction families generalizing table with
  | nil => rfl
  | cons f families ih =>
    obtain ⟨first, apart⟩ := List.pairwise_cons.1 apart
    rw [List.foldl_cons, ih apart]
    by_cases own : f.name = key
    · have gone : families.find? (·.name = key) = none := by
        rw [List.find?_eq_none]
        intro g member
        simpa [← own] using (first g member).symm
      simp [gone, own]
    · simp [own, Std.ExtTreeMap.getElem?_insert]

theorem foldl_enter (families : List Family) (r : Reading) :
    families.foldl enter r = {
      helps := families.foldl (fun table f => table.insert f.name f.help) r.helps
      types := families.foldl (fun table f => table.insert f.name f.type.written) r.types
      families := families.foldl (fun table f => table.insert f.name f.entered) r.families } := by
  induction families generalizing r with
  | nil => rfl
  | cons f families ih => exact ih (r.enter f)

end Reading

/-- What the keys of a map lead to can stand in a document under these keys. -/
def FamilyMap.Plain (m : FamilyMap) : Prop :=
  ∀ (key : String) (f : Family), m[key]? = some f → f.name = key ∧ f.Plain

def FamilyMap.sorted (m : FamilyMap) : List Family :=
  m.values.mergeSort fun a b => decide (a.name ≤ b.name)

theorem values_eq_map_toList {β : Type} (m : Std.ExtTreeMap String β) :
    m.values = m.toList.map Prod.snd := by
  obtain ⟨⟨q⟩⟩ := m
  induction q using Quotient.ind with
  | _ t =>
    change t.inner.values = (Std.DTreeMap.Internal.Impl.Const.toList t.inner).map Prod.snd
    rw [Std.DTreeMap.Internal.Impl.values_eq_map_snd,
      Std.DTreeMap.Internal.Impl.Const.toList_eq_toListModel_map]
    simp

theorem mem_values {β : Type} {m : Std.ExtTreeMap String β} {b : β} :
    b ∈ m.values ↔ ∃ key : String, m[key]? = some b := by
  rw [values_eq_map_toList, List.mem_map]
  constructor
  · rintro ⟨⟨key, b⟩, member, rfl⟩
    exact ⟨key, Std.ExtTreeMap.mem_toList_iff_getElem?_eq_some.1 member⟩
  · rintro ⟨key, here⟩
    exact ⟨(key, b), Std.ExtTreeMap.mem_toList_iff_getElem?_eq_some.2 here, rfl⟩

def FamilyMap.Named (m : FamilyMap) : Prop :=
  ∀ (key : String) (f : Family), m[key]? = some f → f.name = key

theorem FamilyMap.Plain.named {m : FamilyMap} (plain : m.Plain) : m.Named :=
  fun key f here => (plain key f here).1

theorem FamilyMap.Named.mem_sorted {m : FamilyMap} (named : m.Named) {f : Family} :
    f ∈ m.sorted ↔ m[f.name]? = some f := by
  rw [FamilyMap.sorted, List.mem_mergeSort, mem_values]
  constructor
  · rintro ⟨key, here⟩
    rwa [named key f here]
  · exact fun here => ⟨f.name, here⟩

theorem FamilyMap.Named.sorted_pairwise {m : FamilyMap} (named : m.Named) :
    m.sorted.Pairwise fun f g => f.name < g.name := by
  have ordered : (m.toList.map Prod.snd).Pairwise fun f g => f.name < g.name := by
    rw [List.pairwise_map]
    refine Std.ExtTreeMap.ordered_keys_toList.imp_of_mem ?_
    intro a b left right before
    have first := named _ _ (Std.ExtTreeMap.mem_toList_iff_getElem?_eq_some.1 left)
    have second := named _ _ (Std.ExtTreeMap.mem_toList_iff_getElem?_eq_some.1 right)
    rw [first, second]
    exact compareOfLessAndEq_eq_lt.1 before
  rw [FamilyMap.sorted, values_eq_map_toList, List.mergeSort_of_pairwise]
  · exact ordered
  · exact ordered.imp fun before => decide_eq_true (Std.le_of_lt before)

theorem mem_sorted {m : FamilyMap} (plain : m.Plain) {f : Family} :
    f ∈ m.sorted ↔ m[f.name]? = some f := plain.named.mem_sorted

theorem sorted_pairwise {m : FamilyMap} (plain : m.Plain) :
    m.sorted.Pairwise fun f g => f.name < g.name := plain.named.sorted_pairwise

theorem baseName_prefix (name : String) :
    ∃ suffix, name.toList = (baseName name).toList ++ suffix := by
  unfold baseName
  cases found : compoundSuffixes.findSome? fun suffix =>
      (Text.beforeEnd? suffix.toList name.toList).map String.ofList with
  | none => exact ⟨[], by simp⟩
  | some base =>
    obtain ⟨suffix, _, cut⟩ := List.exists_of_findSome?_eq_some found
    obtain ⟨text, before, rfl⟩ := Option.map_eq_some_iff.1 cut
    obtain ⟨_, same⟩ := Option.ite_none_right_eq_some.1 before
    cases same
    exact ⟨name.toList.drop (name.toList.length - suffix.toList.length), by simp⟩

theorem sample_name_ne {f g : Family} (plain : g.Plain) (before : f.name < g.name) {s : Sample}
    (member : s ∈ g.samples) : s.name ≠ f.name := by
  intro same
  obtain ⟨suffix, longer⟩ : ∃ suffix, s.name.toList = g.name.toList ++ suffix := by
    have own := plain.own s member
    split at own
    · exact own ▸ baseName_prefix s.name
    · exact ⟨[], by rw [own, List.append_nil]⟩
  rw [String.lt_iff, ← same, longer] at before
  exact absurd before (List.not_lt.2 List.le_append_left)

theorem sorted_apart {m : FamilyMap} (plain : m.Plain) :
    m.sorted.Pairwise fun f g => f.name ≠ g.name ∧ ∀ s ∈ g.samples, s.name ≠ f.name := by
  refine (sorted_pairwise plain).imp_of_mem ?_
  intro f g _ right before
  have own := (plain _ _ ((mem_sorted plain).1 right)).2
  refine ⟨?_, fun s member => sample_name_ne own before member⟩
  intro same
  rw [same] at before
  exact String.lt_irrefl _ before

theorem find?_sorted {m : FamilyMap} (plain : m.Plain) (key : String) :
    m.sorted.find? (·.name = key) = m[key]? := by
  cases here : m[key]? with
  | none =>
    rw [List.find?_eq_none]
    intro f member own
    rw [mem_sorted plain, of_decide_eq_true own, here] at member
    cases member
  | some f =>
    have own := (plain key f here).1
    have member : f ∈ m.sorted := (mem_sorted plain).2 (own.symm ▸ here)
    cases found : m.sorted.find? (·.name = key) with
    | none => exact absurd (decide_eq_true own) (List.find?_eq_none.1 found f member)
    | some g =>
      have named : g.name = key := by simpa using List.find?_some found
      have there := (mem_sorted plain).1 (List.mem_of_find?_eq_some found)
      rw [named, here] at there
      exact there.symm

def Reading.enterAll (r : Reading) (m : FamilyMap) : Reading := m.sorted.foldl Reading.enter r

theorem readText_document {m : FamilyMap} (plain : m.Plain) {r : Reading}
    (isOpen : ∀ (key : String) f, m[key]? = some f → r.Open f) (rest : List Char) :
    r.readText (m.toText.toList ++ rest) = (r.enterAll m).readText rest := by
  have text : m.toText.toList = m.sorted.flatMap Family.write := String.toList_ofList
  rw [text]
  exact Reading.readText_families (fun f member => (plain _ f ((mem_sorted plain).1 member)).2)
    (sorted_apart plain) (fun f member => isOpen _ f ((mem_sorted plain).1 member)) rest

theorem families_enterAll {m : FamilyMap} (plain : m.Plain) (r : Reading) (key : String) :
    (r.enterAll m).families[key]? = (m[key]?.map Family.entered).or r.families[key]? := by
  have apart := (sorted_apart plain).imp fun other => other.1
  rw [Reading.enterAll, Reading.foldl_enter, Reading.getElem?_foldl_insert _ apart,
    find?_sorted plain]

theorem helps_enterAll {m : FamilyMap} (plain : m.Plain) (r : Reading) (key : String) :
    (r.enterAll m).helps[key]? = (m[key]?.map Family.help).or r.helps[key]? := by
  have apart := (sorted_apart plain).imp fun other => other.1
  rw [Reading.enterAll, Reading.foldl_enter, Reading.getElem?_foldl_insert _ apart,
    find?_sorted plain]

theorem types_enterAll {m : FamilyMap} (plain : m.Plain) (r : Reading) (key : String) :
    (r.enterAll m).types[key]? = (m[key]?.map fun f => f.type.written).or r.types[key]? := by
  have apart := (sorted_apart plain).imp fun other => other.1
  rw [Reading.enterAll, Reading.foldl_enter, Reading.getElem?_foldl_insert _ apart,
    find?_sorted plain]

theorem append_text004 (data additional : String) :
    appendTo (some ⟨data, .text004⟩) additional = data ++ additional := by
  simp only [appendTo, Page.append]
  split
  · rename_i empty
    rw [empty, String.append_empty]
  · rfl

/-- A served document is read back: the families of a document and of the one put behind it come
    out as they were, but for two types that the format does not know. The keys of the one are
    neither keys nor sample names of the other. -/
theorem served_document_reads_back {m additional : FamilyMap} (plain : m.Plain)
    (plain' : additional.Plain)
    (apart : ∀ (key : String) f, additional[key]? = some f →
      key ∉ m ∧ ∀ s ∈ f.samples, s.name ∉ m) :
    FamilyMap.ofText (appendTo (some ⟨m.toText, .text004⟩) additional.toText) =
      (m ∪ additional).map fun _ f => { f with type := f.type.written } := by
  have first : ∀ (key : String) f, m[key]? = some f → Reading.Open {} f := fun _ _ _ =>
    ⟨Std.ExtTreeMap.not_mem_empty, fun _ _ _ => Std.ExtTreeMap.not_mem_empty⟩
  have second : ∀ (key : String) f, additional[key]? = some f → (Reading.enterAll {} m).Open f := by
    intro key f here
    obtain ⟨fresh, names⟩ := apart key f here
    have missing : ∀ name, name ∉ m → m[name]? = none := fun _ => Std.ExtTreeMap.getElem?_eq_none
    constructor
    · rw [(plain' key f here).1, Std.ExtTreeMap.mem_iff_isSome_getElem?, families_enterAll plain,
        missing key fresh]
      simp
    · intro s member _
      rw [Std.ExtTreeMap.mem_iff_isSome_getElem?, types_enterAll plain, missing _ (names s member)]
      simp
  have read : FamilyMap.ofText (appendTo (some ⟨m.toText, .text004⟩) additional.toText) =
      ((Reading.enterAll {} m).enterAll additional).finish := by
    have last := readText_document plain' second []
    rw [List.append_nil, Reading.readText_nil] at last
    rw [append_text004, FamilyMap.ofText, String.toList_append, ← last,
      ← readText_document plain first]
    rfl
  rw [read]
  ext key : 1
  rw [Reading.finish, Std.ExtTreeMap.getElem?_map, Std.ExtTreeMap.getElem?_map,
    families_enterAll plain', helps_enterAll plain', families_enterAll plain, helps_enterAll plain,
    Std.ExtTreeMap.getElem?_union]
  cases additional[key]? with
  | some f => simp [Family.entered]
  | none => cases m[key]? <;> simp [Family.entered]

/-- A histogram whose samples lack a value, have an infinite one, or have a label with every
    escape. -/
def oddHistogram : Family :=
  ⟨"h", .histogram, "a\\b\nc", [⟨"h_bucket", [("le", "\"\x7d\\\n\r"), ("x", "")], .infinite false⟩,
    ⟨"h", [], .nan⟩, ⟨"h_sum", [], .zero⟩]⟩

def oddInfo : Family := ⟨"h_max", .info, "", [⟨"h_max", [], .infinite true⟩]⟩

theorem oddHistogram_plain : oddHistogram.Plain where
  name := ⟨by decide, List.all_eq_true.1 (by decide)⟩
  help := ⟨fun c head => by cases head; decide, by decide⟩
  filled := by decide
  samples := by
    intro s member
    simp only [oddHistogram, List.mem_cons, List.not_mem_nil, or_false] at member
    rcases member with rfl | rfl | rfl
    · refine ⟨⟨by decide, List.all_eq_true.1 (by decide)⟩, ?_, rfl⟩
      intro label member
      simp only [List.mem_cons, List.not_mem_nil, or_false] at member
      rcases member with rfl | rfl
      · exact ⟨by decide, List.all_eq_true.1 (by decide)⟩
      · exact ⟨by decide, List.all_eq_true.1 (by decide)⟩
    · exact ⟨⟨by decide, List.all_eq_true.1 (by decide)⟩, by simp, rfl⟩
    · exact ⟨⟨by decide, List.all_eq_true.1 (by decide)⟩, by simp, by decide⟩
  own := by decide

theorem oddInfo_plain : oddInfo.Plain where
  name := ⟨by decide, List.all_eq_true.1 (by decide)⟩
  help := ⟨fun c head => (by cases head), by decide⟩
  filled := by decide
  samples := by
    intro s member
    simp only [oddInfo, List.mem_cons, List.not_mem_nil, or_false] at member
    subst member
    exact ⟨⟨by decide, List.all_eq_true.1 (by decide)⟩, by simp, rfl⟩
  own := by decide

theorem plain_insert {f : Family} (plain : f.Plain) :
    FamilyMap.Plain ((∅ : FamilyMap).insert f.name f) := by
  intro key g here
  rw [Std.ExtTreeMap.getElem?_insert] at here
  split at here
  · rename_i same
    cases here
    exact ⟨Std.compare_eq_iff_eq.1 same, plain⟩
  · simp at here

theorem odd_document_reads_back :
    FamilyMap.ofText (appendTo
        (some ⟨FamilyMap.toText ((∅ : FamilyMap).insert "h" oddHistogram), .text004⟩)
        (FamilyMap.toText ((∅ : FamilyMap).insert "h_max" oddInfo))) =
      ((∅ : FamilyMap).insert "h" oddHistogram ∪ (∅ : FamilyMap).insert "h_max" oddInfo).map
        fun _ f => { f with type := f.type.written } := by
  refine served_document_reads_back (plain_insert oddHistogram_plain)
    (plain_insert oddInfo_plain) ?_
  intro key f here
  rw [Std.ExtTreeMap.getElem?_insert] at here
  split at here
  · rename_i same
    cases here
    have absent : "h_max" ∉ (∅ : FamilyMap).insert "h" oddHistogram := by
      rw [Std.ExtTreeMap.mem_insert]
      rintro (equal | inside)
      · exact absurd (Std.compare_eq_iff_eq.1 equal) (by decide)
      · exact Std.ExtTreeMap.not_mem_empty inside
    refine ⟨Std.compare_eq_iff_eq.1 same ▸ absent, ?_⟩
    intro s member
    cases List.mem_singleton.1 member
    exact absent
  · simp at here

end MetricGateway
