import MetricGateway.Metrics.Vector
import MetricGateway.Proofs.Exposition.Grouping
import MetricGateway.Proofs.Exposition.ReadBack
import MetricGateway.Proofs.Number.RoundTrip
import Mathlib.Data.List.Basic

/- What a text shows to a reader who takes it line by line: its samples, and the names that its TYPE
   lines declare. Families that are written show what they have, whatever their help texts hold;
   only the values are those that are read from their tokens. -/
namespace MetricGateway

def observed {β : Type} (look : List Char → Option β) (text : String) : List β :=
  (Text.lines text.toList).filterMap look

def samplesIn (text : String) : List Sample := observed Reading.sampleOf? text

/-- The name in a TYPE line: what stands between the keyword and the next space. -/
def declaredName? (line : List Char) : Option String :=
  (Text.afterStart? "# TYPE ".toList line).map fun rest => String.ofList (rest.takeWhile (· ≠ ' '))

def declaredIn (text : String) : List String := observed declaredName? text

namespace Text

def closed (lines : List (List Char)) : List Char := lines.flatMap (· ++ ['\n'])

def IsClosed (text : String) : Prop :=
  ∃ lines, (∀ line ∈ lines, '\n' ∉ line) ∧ text.toList = closed lines

theorem closed_cons (line : List Char) (lines : List (List Char)) (rest : List Char) :
    closed (line :: lines) ++ rest = line ++ '\n' :: (closed lines ++ rest) := by
  simp [closed]

theorem lines_closed {ended : List (List Char)} (one : ∀ line ∈ ended, '\n' ∉ line)
    (rest : List Char) : lines (closed ended ++ rest) = ended.map dropReturn ++ lines rest := by
  induction ended with
  | nil => rfl
  | cons line ended ih =>
    have others := ih fun l member => one l (List.mem_cons_of_mem line member)
    unfold lines at others ⊢
    rw [closed_cons, splitLines_append (one line List.mem_cons_self), List.map_cons, others]
    rfl

theorem dropReturn_cons_cons (c d : Char) (rest : List Char) :
    dropReturn (c :: d :: rest) = c :: dropReturn (d :: rest) := by
  unfold dropReturn
  rw [List.getLast?_cons_cons]
  split <;> rfl

end Text

section Observed

variable {β : Type} {look : List Char → Option β}

theorem observed_closed (blank : look [] = none) {ended : List (List Char)}
    (one : ∀ line ∈ ended, '\n' ∉ line) {text : String} (lines : text.toList = Text.closed ended) :
    observed look text = ended.filterMap fun line => look (Text.dropReturn line) := by
  have split := Text.lines_closed one []
  rw [List.append_nil] at split
  have rest : Text.lines [] = [[]] := rfl
  rw [observed, lines, split, rest, List.filterMap_append, List.filterMap_map]
  simp [blank]

theorem observed_append (blank : look [] = none) {text : String} (isClosed : Text.IsClosed text)
    (more : String) : observed look (text ++ more) = observed look text ++ observed look more := by
  obtain ⟨ended, one, lines⟩ := isClosed
  rw [observed_closed blank one lines, observed, String.toList_append, lines,
    Text.lines_closed one, List.filterMap_append, List.filterMap_map]
  rfl

theorem sampleOf?_blank : Reading.sampleOf? [] = none := rfl

theorem declaredName?_blank : declaredName? [] = none := rfl

end Observed

theorem sampleOf?_mark (rest : List Char) : Reading.sampleOf? ('#' :: rest) = none := by
  have mark : Text.isBlank '#' = false := by decide
  unfold Reading.sampleOf? LineKind.of
  rw [List.all_cons, mark, Bool.false_and, if_neg Bool.false_ne_true]
  cases Directive.after? "HELP" ('#' :: rest) with
  | some text => rfl
  | none => cases Directive.after? "TYPE" ('#' :: rest) <;> rfl

/-- The sample with the value that is read from a token for its own, if that is one. -/
def Sample.reread (token : Double → List Char) (s : Sample) : Option Sample :=
  (Decimal.sampleValue? (token s.value)).map fun v => { s with value := v }

/-- A family whose samples are read back from their lines; its own name may also be empty. -/
structure Family.Legible (f : Family) : Prop where
  name : ∀ c ∈ f.name.toList, isNameChar c = true
  samples : ∀ s ∈ f.samples, s.Legible

namespace Family

def lines (help : List (List Char)) (token : Double → List Char) (f : Family) : List (List Char) :=
  help ++ f.typeLine :: f.samples.map fun s => s.lineWith (token s.value)

theorem closed_samples (write : Sample → List Char) (token : Double → List Char)
    (ends : ∀ s, write s = s.lineWith (token s.value) ++ ['\n']) (samples : List Sample) :
    samples.flatMap write = Text.closed (samples.map fun s => s.lineWith (token s.value)) := by
  induction samples with
  | nil => rfl
  | cons s samples ih =>
    rw [List.flatMap_cons, ih, ends]
    rfl

theorem write_eq_closed (f : Family) :
    f.write = Text.closed (f.lines [f.helpLine] Decimal.sampleText) := by
  have help : "# HELP ".toList = ['#', ' ', 'H', 'E', 'L', 'P', ' '] := rfl
  have type : "# TYPE ".toList = ['#', ' ', 'T', 'Y', 'P', 'E', ' '] := rfl
  have samples := closed_samples Sample.write Decimal.sampleText
    (fun s => by simp [Sample.write, Sample.lineWith]) f.samples
  unfold Family.write
  rw [help, type, samples]
  simp [lines, Text.closed, helpLine, typeLine]

theorem writePlain_eq_closed (f : Family) :
    f.writePlain =
      Text.closed (f.lines (if f.help = "" then [] else [f.helpLine]) Decimal.plainText) := by
  have help : "# HELP ".toList = ['#', ' ', 'H', 'E', 'L', 'P', ' '] := rfl
  have type : "# TYPE ".toList = ['#', ' ', 'T', 'Y', 'P', 'E', ' '] := rfl
  have samples := closed_samples Sample.writePlain Decimal.plainText
    (fun s => by simp [Sample.writePlain, Sample.lineWith]) f.samples
  unfold Family.writePlain
  rw [help, type, samples]
  split <;> simp [lines, Text.closed, helpLine, typeLine]

variable {f : Family} (legible : f.Legible)

include legible

theorem feed_notMem_helpLine : '\n' ∉ f.helpLine := by
  have name := feed_notMem_of_name legible.name
  have help := Escape.feed_notMem_encode .help f.help.toList
  simp [helpLine, name, help]

theorem feed_notMem_typeLine : '\n' ∉ f.typeLine := by
  have name := feed_notMem_of_name legible.name
  have word : '\n' ∉ f.type.word.toList := fun member =>
    absurd (word_letters f.type _ member) (by decide)
  simp [typeLine, name, word]

theorem declaredName?_typeLine : declaredName? (Text.dropReturn f.typeLine) = some f.name := by
  have type : "# TYPE ".toList = ['#', ' ', 'T', 'Y', 'P', 'E', ' '] := rfl
  have finish : f.typeLine.getLast? ≠ some '\r' :=
    last_of_tail ('#' :: ' ' :: 'T' :: 'Y' :: 'P' :: 'E' :: ' ' :: f.name.toList) (c := ' ')
      (by decide) fun last =>
        absurd (word_letters f.type _ (List.mem_of_mem_getLast? last)) (by decide)
  have line : f.typeLine = "# TYPE ".toList ++ (f.name.toList ++ ' ' :: f.type.word.toList) := by
    rw [type]
    rfl
  have name : (f.name.toList ++ ' ' :: f.type.word.toList).takeWhile (· ≠ ' ') = f.name.toList := by
    rw [List.takeWhile_append_of_pos]
    · simp
    · intro c member
      have char := isBlank_of_isNameChar (legible.name c member)
      simp only [decide_eq_true_eq]
      rintro rfl
      cases char
  rw [Text.dropReturn_of_last finish, declaredName?, line, Text.afterStart?_append, Option.map_some,
    name, String.ofList_toList]

variable {help : List (List Char)} (helps : ∀ line ∈ help, line = f.helpLine)
  {token : Double → List Char} (chars : ∀ v, ∀ c ∈ token v, Decimal.isTokenChar c = true)

include helps chars

theorem feed_notMem_lines (line : List Char) (member : line ∈ f.lines help token) :
    '\n' ∉ line := by
  rcases List.mem_append.1 member with comment | rest
  · rw [helps line comment]
    exact feed_notMem_helpLine legible
  · rcases List.mem_cons.1 rest with rfl | sample
    · exact feed_notMem_typeLine legible
    · obtain ⟨s, own, rfl⟩ := List.mem_map.1 sample
      exact (lineWith_isLine (legible.samples s own) (chars s.value)).one

theorem samples_lines :
    (f.lines help token).filterMap (fun line => Reading.sampleOf? (Text.dropReturn line)) =
      f.samples.filterMap (Sample.reread token) := by
  have comments : help.filterMap (fun line => Reading.sampleOf? (Text.dropReturn line)) = [] := by
    rw [List.filterMap_eq_nil_iff]
    intro line member
    rw [helps line member, helpLine, Text.dropReturn_cons_cons, sampleOf?_mark]
  have declaration : Reading.sampleOf? (Text.dropReturn f.typeLine) = none := by
    rw [typeLine, Text.dropReturn_cons_cons, sampleOf?_mark]
  rw [lines, List.filterMap_append, comments, List.nil_append, List.filterMap_cons, declaration,
    List.filterMap_map]
  refine List.filterMap_congr fun s member => ?_
  have own := legible.samples s member
  have line := lineWith_isLine own (chars s.value)
  rw [Function.comp_apply, Text.dropReturn_of_last line.finish, Reading.sampleOf?,
    lineWith_kind own, Sample.reread]
  simp only [SampleLine.read_lineWith own (chars s.value)]
  cases Decimal.sampleValue? (token s.value) <;> rfl

theorem declared_lines :
    (f.lines help token).filterMap (fun line => declaredName? (Text.dropReturn line)) =
      [f.name] := by
  have comments : help.filterMap (fun line => declaredName? (Text.dropReturn line)) = [] := by
    rw [List.filterMap_eq_nil_iff]
    intro line member
    rw [helps line member, helpLine]
    simp only [List.cons_append, Text.dropReturn_cons_cons]
    rfl
  have samples : (f.samples.map fun s => s.lineWith (token s.value)).filterMap
      (fun line => declaredName? (Text.dropReturn line)) = [] := by
    rw [List.filterMap_map, List.filterMap_eq_nil_iff]
    intro s member
    have own := legible.samples s member
    obtain ⟨c, head, name⟩ := own.name.head (writeLabels s.labels ++ ' ' :: token s.value)
    rw [← List.append_assoc] at head
    obtain ⟨tail, line⟩ := List.head?_eq_some_iff.1 head
    have apart : '#' ≠ c := by
      rintro rfl
      cases name
    rw [Function.comp_apply, Text.dropReturn_of_last (lineWith_isLine own (chars s.value)).finish,
      Sample.lineWith, line]
    simp [declaredName?, Text.afterStart?, apart]
  rw [lines, List.filterMap_append, comments, List.nil_append, List.filterMap_cons,
    declaredName?_typeLine legible, samples]

end Family

structure Shows (token : Double → List Char) (families : List Family) (text : String) : Prop where
  isClosed : Text.IsClosed text
  samples : samplesIn text = families.flatMap fun f => f.samples.filterMap (Sample.reread token)
  declared : declaredIn text = families.map Family.name

theorem shows_of_lines {families : List Family} (legible : ∀ f ∈ families, f.Legible)
    (help : Family → List (List Char)) (helps : ∀ f, ∀ line ∈ help f, line = f.helpLine)
    {token : Double → List Char} (chars : ∀ v, ∀ c ∈ token v, Decimal.isTokenChar c = true)
    {text : String}
    (written : text.toList = families.flatMap fun f => Text.closed (f.lines (help f) token)) :
    Shows token families text := by
  have lines : text.toList = Text.closed (families.flatMap fun f => f.lines (help f) token) := by
    rw [written, Text.closed, List.flatMap_assoc]
    rfl
  have one : ∀ line ∈ families.flatMap (fun f => f.lines (help f) token), '\n' ∉ line := by
    intro line member
    obtain ⟨f, own, inside⟩ := List.mem_flatMap.1 member
    exact Family.feed_notMem_lines (legible f own) (helps f) chars line inside
  constructor
  · exact ⟨_, one, lines⟩
  · rw [samplesIn, observed_closed sampleOf?_blank one lines, List.filterMap_flatMap]
    refine List.flatMap_congr fun f member => ?_
    exact Family.samples_lines (legible f member) (helps f) chars
  · rw [declaredIn, observed_closed declaredName?_blank one lines, List.filterMap_flatMap,
      ← List.flatMap_singleton' (families.map Family.name), List.flatMap_map]
    refine List.flatMap_congr fun f member => ?_
    exact Family.declared_lines (legible f member) (helps f) chars

theorem shows_toText {m : FamilyMap} (legible : ∀ f ∈ m.sorted, f.Legible) :
    Shows Decimal.sampleText m.sorted m.toText := by
  refine shows_of_lines legible (fun f => [f.helpLine])
    (fun f line member => List.mem_singleton.1 member)
    (fun v c member => Decimal.isTokenChar_of_sampleText member) ?_
  have text : m.toText.toList = m.sorted.flatMap Family.write := String.toList_ofList
  rw [text]
  exact List.flatMap_congr fun f _ => f.write_eq_closed

theorem shows_plainDocument {families : List Family} (legible : ∀ f ∈ families, f.Legible) :
    ∃ filled : List Family, filled.Perm (families.filter fun f => !f.samples.isEmpty) ∧
      Shows Decimal.plainText filled (plainDocument families) := by
  let filled := (families.filter fun f => !f.samples.isEmpty).mergeSort
    fun a b => decide (a.name ≤ b.name)
  have text : (plainDocument families).toList = filled.flatMap Family.writePlain :=
    String.toList_ofList
  refine ⟨filled, List.mergeSort_perm _ _, ?_⟩
  refine shows_of_lines (fun f member => ?_)
    (fun f => if f.help = "" then [] else [f.helpLine]) (fun f line member => ?_)
    (fun v c member => Decimal.isTokenChar_of_plainText member) ?_
  · exact legible f (List.mem_of_mem_filter (List.mem_mergeSort.1 member))
  · split at member
    · cases member
    · exact List.mem_singleton.1 member
  · rw [text]
    exact List.flatMap_congr fun f _ => f.writePlain_eq_closed

end MetricGateway
