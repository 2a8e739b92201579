import MetricGateway.Exposition.Document
import MetricGateway.Exposition.Written
import MetricGateway.Proofs.Exposition.Spelling

/- Each written line is taken for what it is, and read back: HELP and TYPE lines, and sample lines
   with any label values. -/
namespace MetricGateway

structure IsHelp (text : List Char) : Prop where
  start : ∀ c, text.head? = some c → Text.isBlank c = false
  finish : text.getLast? ≠ some '\r'

def Family.helpLine (f : Family) : List Char :=
  '#' :: ' ' :: (['H', 'E', 'L', 'P'] ++ ' ' ::
    (f.name.toList ++ ' ' :: Escape.encode .help f.help.toList))

def Family.typeLine (f : Family) : List Char :=
  '#' :: ' ' :: (['T', 'Y', 'P', 'E'] ++ ' ' :: (f.name.toList ++ ' ' :: f.type.word.toList))

def Sample.lineWith (token : List Char) (s : Sample) : List Char :=
  s.name.toList ++ writeLabels s.labels ++ ' ' :: token

def Sample.line (s : Sample) : List Char := s.lineWith (Decimal.sampleText s.value)

theorem IsName.head {text : List Char} (name : IsName text) (rest : List Char) :
    ∃ c, (text ++ rest).head? = some c ∧ isNameChar c = true := by
  cases text with
  | nil => exact absurd rfl name.1
  | cons c text => exact ⟨c, rfl, name.2 c List.mem_cons_self⟩

theorem IsName.blank_free {text : List Char} (name : IsName text) (rest : List Char) (c : Char)
    (head : (text ++ rest).head? = some c) : Text.isBlank c = false := by
  obtain ⟨d, first, nameChar⟩ := name.head rest
  cases head.symm.trans first
  exact isBlank_of_isNameChar nameChar

namespace Directive

theorem skipSomeBlanks?_cons {text : List Char}
    (head : ∀ c, text.head? = some c → Text.isBlank c = false) :
    skipSomeBlanks? (' ' :: text) = some text := by
  have blank : Text.isBlank ' ' = true := by decide
  simp [skipSomeBlanks?, blank, Text.skipBlanks_of_head head]

theorem after?_keyword {text : List Char} (keyword : List Char)
    (word : ∀ c, (keyword ++ ' ' :: text).head? = some c → Text.isBlank c = false)
    (head : ∀ c, text.head? = some c → Text.isBlank c = false) :
    after? (String.ofList keyword) ('#' :: ' ' :: (keyword ++ ' ' :: text)) = some text := by
  have mark := Text.afterStart?_append ['#'] (' ' :: (keyword ++ ' ' :: text))
  rw [List.singleton_append] at mark
  simp only [after?, mark, Option.bind_eq_bind, Option.bind_some, skipSomeBlanks?_cons word,
    String.toList_ofList, Text.afterStart?_append, skipSomeBlanks?_cons head]

theorem takeName?_append {name rest : List Char} (isName : IsName name)
    (stop : ∀ c, rest.head? = some c → isNameChar c = false) :
    takeName? (name ++ rest) = some (name, rest) := by
  simp only [takeName?, Text.span_append isName.2 stop, isName.isEmpty, Bool.false_eq_true,
    if_false]

theorem help?_written {name : List Char} {help : String} (isName : IsName name)
    (isHelp : IsHelp help.toList) :
    help? (name ++ ' ' :: Escape.encode .help help.toList) = some (String.ofList name, help) := by
  have start : ∀ c, (Escape.encode .help help.toList).head? = some c → Text.isBlank c = false := by
    intro c head
    rcases Escape.head_encode head with rfl | same
    · decide
    · exact isHelp.start c same
  have stop : ∀ c, (' ' :: Escape.encode .help help.toList).head? = some c →
      isNameChar c = false := by
    intro c head
    cases head
    decide
  simp [help?, takeName?_append isName stop, skipSomeBlanks?_cons start, Escape.decode_encode]

theorem type?_written {name word : List Char} (isName : IsName name)
    (letters : ∀ c ∈ word, c.isAlpha = true) :
    type? (name ++ ' ' :: word) = some (String.ofList name, word) := by
  have start : ∀ c, word.head? = some c → Text.isBlank c = false := by
    intro c head
    have letter := letters c (List.mem_of_mem_head? head)
    refine isBlank_of_isNameChar ?_
    simp [isNameChar, Text.isAlphanumeric, letter]
  have stop : ∀ c, (' ' :: word).head? = some c → isNameChar c = false := by
    intro c head
    cases head
    decide
  have whole : word.span Char.isAlpha = (word, []) := Text.span_all letters
  simp only [type?, takeName?_append isName stop, Option.bind_eq_bind, Option.bind_some,
    skipSomeBlanks?_cons start, whole, List.all_nil, if_true]

end Directive

theorem helpLine_kind {f : Family} (isName : IsName f.name.toList) :
    LineKind.of f.helpLine =
      .help (f.name.toList ++ ' ' :: Escape.encode .help f.help.toList) := by
  have word : String.ofList ['H', 'E', 'L', 'P'] = "HELP" := rfl
  have found := Directive.after?_keyword ['H', 'E', 'L', 'P'] (fun c head => by cases head; decide)
    (isName.blank_free (' ' :: Escape.encode .help f.help.toList))
  rw [word] at found
  have mark : Text.isBlank '#' = false := by decide
  rw [Family.helpLine, LineKind.of, List.all_cons, mark, found]
  rfl

theorem typeLine_kind {f : Family} (isName : IsName f.name.toList) :
    LineKind.of f.typeLine = .type (f.name.toList ++ ' ' :: f.type.word.toList) := by
  have word : String.ofList ['T', 'Y', 'P', 'E'] = "TYPE" := rfl
  have found := Directive.after?_keyword ['T', 'Y', 'P', 'E'] (fun c head => by cases head; decide)
    (isName.blank_free (' ' :: f.type.word.toList))
  rw [word] at found
  have mark : Text.isBlank '#' = false := by decide
  have noHelp : Directive.after? "HELP" ('#' :: ' ' :: (['T', 'Y', 'P', 'E'] ++ ' ' ::
      (f.name.toList ++ ' ' :: f.type.word.toList))) = none := by
    simp [Directive.after?, Text.afterStart?, Directive.skipSomeBlanks?, Text.skipBlanks,
      Text.isBlank]
  rw [Family.typeLine, LineKind.of, List.all_cons, mark, noHelp, found]
  rfl

/-- A sample whose names are read back from its line. -/
structure Sample.Legible (s : Sample) : Prop where
  name : IsName s.name.toList
  labels : ∀ label ∈ s.labels, IsLabelName label.1.toList

/-- A sample that can stand in a line of text: proper names, and a value whose text is read back. -/
structure Sample.Plain (s : Sample) : Prop where
  name : IsName s.name.toList
  labels : ∀ label ∈ s.labels, IsLabelName label.1.toList
  value : Decimal.sampleValue? (Decimal.sampleText s.value) = some s.value

theorem Sample.Plain.legible {s : Sample} (plain : s.Plain) : s.Legible :=
  ⟨plain.name, plain.labels⟩

namespace SampleLine

def writtenPair (separators : List Char) (label : String × String) : Pair :=
  ⟨separators, label.1.toList, [], Escape.encode .label label.2.toList⟩

def writtenPairs : List (String × String) → List Pair
  | [] => []
  | label :: labels => writtenPair [] label :: labels.map (writtenPair [','])

def writtenMiddle : List (String × String) → Middle
  | [] => .blanks [' ']
  | label :: labels => .block [] (writtenPairs (label :: labels)) [] [' ']

theorem text_writtenPair (separators : List Char) (label : String × String) :
    (writtenPair separators label).text = separators ++ writeLabel label := by
  simp [writtenPair, Pair.text, Pair.opened, writeLabel]

theorem label_writtenPair (separators : List Char) (label : String × String) :
    (writtenPair separators label).label = label := by
  simp [writtenPair, Pair.label, Escape.decode_encode]

theorem proper_writtenPair {separators : List Char} (run : Separators separators)
    {label : String × String} (isLabel : IsLabelName label.1.toList) :
    (writtenPair separators label).Proper := by
  have closed := Escape.splitQuote_encode label.2.toList []
  exact ⟨run, isLabel, nofun, (Escape.splitQuote_eq_some_iff.1 closed).2⟩

theorem intercalate_labels (label : String × String) (labels : List (String × String)) :
    List.intercalate [','] ((label :: labels).map writeLabel) =
      writeLabel label ++ labels.flatMap fun l => ',' :: writeLabel l := by
  induction labels generalizing label with
  | nil => simp [List.intercalate]
  | cons next labels ih =>
    have later := ih next
    simp only [List.intercalate, List.map_cons, List.intersperse_cons_cons, List.flatten_cons] at later ⊢
    rw [later]
    simp

theorem text_writtenMiddle (labels : List (String × String)) :
    (writtenMiddle labels).text = writeLabels labels ++ [' '] := by
  cases labels with
  | nil => rfl
  | cons label labels =>
    have pairs : (writtenPairs (label :: labels)).flatMap Pair.text =
        List.intercalate [','] ((label :: labels).map writeLabel) := by
      rw [intercalate_labels, writtenPairs, List.flatMap_cons, text_writtenPair, List.flatMap_map]
      simp [text_writtenPair]
    rw [writtenMiddle, Middle.text, pairs, writeLabels]
    simp

theorem labels_writtenMiddle (labels : List (String × String)) :
    (writtenMiddle labels).labels = labels := by
  cases labels with
  | nil => rfl
  | cons label labels =>
    simp [writtenMiddle, Middle.labels, writtenPairs, label_writtenPair, Function.comp_def]

theorem proper_writtenMiddle {labels : List (String × String)}
    (isLabel : ∀ label ∈ labels, IsLabelName label.1.toList) : (writtenMiddle labels).Proper := by
  have space : Blanks [' '] := by decide
  have nothing : Separators [] := nofun
  cases labels with
  | nil => exact space
  | cons label labels =>
    obtain ⟨first, others⟩ := List.forall_mem_cons.1 isLabel
    refine ⟨nofun, List.forall_mem_cons.2 ⟨proper_writtenPair nothing first, ?_⟩, nothing, space⟩
    intro p member
    obtain ⟨other, own, rfl⟩ := List.mem_map.1 member
    exact proper_writtenPair (by decide) (others other own)

theorem value?_token {token : List Char} (chars : ∀ c ∈ token, Decimal.isTokenChar c = true) :
    value? token = match Decimal.sampleValue? token with
      | some v => .ok v
      | none => .error .invalidValue := by
  have whole : token.span (fun c => !Text.isBlank c) = (token, []) :=
    Text.span_all fun c member => by simp [isBlank_of_isTokenChar (chars c member)]
  simp only [value?, whole]
  cases Decimal.sampleValue? token <;> rfl

theorem read_lineWith {s : Sample} (legible : s.Legible) {token : List Char}
    (chars : ∀ c ∈ token, Decimal.isTokenChar c = true) :
    read (s.lineWith token) = match Decimal.sampleValue? token with
      | some v => .ok { s with value := v }
      | none => .error .invalidValue := by
  have line : s.lineWith token = s.name.toList ++ ((writtenMiddle s.labels).text ++ token) := by
    rw [text_writtenMiddle]
    simp [Sample.lineWith]
  have tokens : Tokens token := ⟨fun c member => .inl (chars c member),
    fun c head => isBlank_of_isTokenChar (chars c (List.mem_of_mem_head? head))⟩
  have stop : ∀ c, ((writtenMiddle s.labels).text ++ token).head? = some c →
      isNameChar c = false := by
    intro c head
    rw [text_writtenMiddle] at head
    unfold writeLabels at head
    split at head <;> cases head <;> decide
  rw [line, read_parts legible.name (proper_writtenMiddle legible.labels) tokens stop,
    value?_token chars, labels_writtenMiddle, String.ofList_toList]
  cases Decimal.sampleValue? token <;> rfl

theorem read_written {s : Sample} (plain : s.Plain) : read s.line = .ok s := by
  have chars := fun c => Decimal.isTokenChar_of_sampleValue (c := c) plain.value
  rw [Sample.line, read_lineWith plain.legible chars, plain.value]

end SampleLine

theorem lineKind_of_name {c : Char} (name : isNameChar c = true) (tail : List Char) :
    LineKind.of (c :: tail) = .sample := by
  have noMark : c ≠ '#' := by
    rintro rfl
    exact absurd name (by decide)
  have noDirective : ∀ keyword, Directive.after? keyword (c :: tail) = none := by
    intro keyword
    simp [Directive.after?, Text.afterStart?, Ne.symm noMark]
  simp only [LineKind.of, List.all_cons, isBlank_of_isNameChar name, Bool.false_and,
    Bool.false_eq_true, if_false, noDirective, List.head?_cons, Option.some.injEq, noMark]

theorem lineWith_kind {s : Sample} (legible : s.Legible) (token : List Char) :
    LineKind.of (s.lineWith token) = .sample := by
  have text : s.lineWith token = s.name.toList ++ (writeLabels s.labels ++ ' ' :: token) :=
    List.append_assoc ..
  obtain ⟨c, head, name⟩ := legible.name.head (writeLabels s.labels ++ ' ' :: token)
  rw [← text] at head
  obtain ⟨tail, line⟩ := List.head?_eq_some_iff.1 head
  rw [line, lineKind_of_name name]

theorem sampleLine_kind {s : Sample} (plain : s.Plain) : LineKind.of s.line = .sample :=
  lineWith_kind plain.legible _

structure IsLine (line : List Char) : Prop where
  one : '\n' ∉ line
  finish : line.getLast? ≠ some '\r'

theorem feed_notMem_of_name {text : List Char} (name : ∀ c ∈ text, isNameChar c = true) :
    '\n' ∉ text := by
  intro member
  exact absurd (name _ member) (by decide)

theorem last_of_tail (front : List Char) {tail : List Char} {c : Char} (noReturn : c ≠ '\r')
    (last : tail.getLast? ≠ some '\r') : (front ++ c :: tail).getLast? ≠ some '\r' := by
  rw [List.getLast?_append]
  cases tail with
  | nil => simpa using noReturn
  | cons d tail =>
    rw [List.getLast?_cons_cons]
    cases ends : (d :: tail).getLast? with
    | none => simp at ends
    | some e =>
      rw [ends] at last
      exact last

theorem helpLine_isLine {f : Family} (isName : IsName f.name.toList)
    (isHelp : IsHelp f.help.toList) : IsLine f.helpLine := by
  have name := feed_notMem_of_name isName.2
  have help := Escape.feed_notMem_encode .help f.help.toList
  constructor
  · simp [Family.helpLine, name, help]
  · exact last_of_tail ('#' :: ' ' :: 'H' :: 'E' :: 'L' :: 'P' :: ' ' :: f.name.toList) (c := ' ')
      (by decide) fun last => isHelp.finish (Escape.getLast_encode last)

theorem word_letters (type : MetricType) : ∀ c ∈ type.word.toList, c.isAlpha = true := by
  cases type <;> exact List.all_eq_true.1 (by decide)

theorem typeLine_isLine {f : Family} (isName : IsName f.name.toList) : IsLine f.typeLine := by
  have name := feed_notMem_of_name isName.2
  have word : '\n' ∉ f.type.word.toList := fun member =>
    absurd (word_letters f.type _ member) (by decide)
  constructor
  · simp [Family.typeLine, name, word]
  · exact last_of_tail ('#' :: ' ' :: 'T' :: 'Y' :: 'P' :: 'E' :: ' ' :: f.name.toList) (c := ' ')
      (by decide) fun last =>
        absurd (word_letters f.type _ (List.mem_of_mem_getLast? last)) (by decide)

theorem feed_notMem_writeLabel {label : String × String} (isLabel : IsLabelName label.1.toList) :
    '\n' ∉ writeLabel label := by
  have name := feed_notMem_of_name fun c member =>
    isNameChar_of_isLabelNameChar (isLabel.2 c member)
  have value := Escape.feed_notMem_encode .label label.2.toList
  simp [writeLabel, name, value]

theorem feed_notMem_writeLabels {labels : List (String × String)}
    (isLabel : ∀ label ∈ labels, IsLabelName label.1.toList) : '\n' ∉ writeLabels labels := by
  cases labels with
  | nil => nofun
  | cons label labels =>
    obtain ⟨first, others⟩ := List.forall_mem_cons.1 isLabel
    have own := feed_notMem_writeLabel first
    have behind : '\n' ∉ labels.flatMap fun l => ',' :: writeLabel l := by
      intro member
      obtain ⟨l, among, inside⟩ := List.mem_flatMap.1 member
      rcases List.mem_cons.1 inside with comma | within
      · cases comma
      · exact feed_notMem_writeLabel (others l among) within
    rw [writeLabels, SampleLine.intercalate_labels]
    simp [own, behind]

theorem lineWith_isLine {s : Sample} (legible : s.Legible) {token : List Char}
    (chars : ∀ c ∈ token, Decimal.isTokenChar c = true) : IsLine (s.lineWith token) := by
  constructor
  · have name := feed_notMem_of_name legible.name.2
    have labels := feed_notMem_writeLabels legible.labels
    have value : '\n' ∉ token := fun member => absurd (chars _ member) (by decide)
    simp [Sample.lineWith, name, labels, value]
  · unfold Sample.lineWith
    refine last_of_tail _ (by decide) fun last => ?_
    exact absurd (chars _ (List.mem_of_mem_getLast? last)) (by decide)

theorem sampleLine_isLine {s : Sample} (plain : s.Plain) : IsLine s.line :=
  lineWith_isLine plain.legible fun c => Decimal.isTokenChar_of_sampleValue (c := c) plain.value

end MetricGateway
