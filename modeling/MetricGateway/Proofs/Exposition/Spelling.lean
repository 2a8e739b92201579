import MetricGateway.Exposition.SampleLine
import MetricGateway.Proofs.Exposition.Quoted
import MetricGateway.Proofs.Number.Token

/- The ways to spell a sample in a line, as a grammar beside the reader. A spelling has the parts of
   a line one by one, with the blanks and separators around them; what the sample is does not hang
   on these. Each spelling is read as its sample. -/
namespace MetricGateway

def IsName (text : List Char) : Prop := text ≠ [] ∧ ∀ c ∈ text, isNameChar c = true

def IsLabelName (text : List Char) : Prop := text ≠ [] ∧ ∀ c ∈ text, isLabelNameChar c = true

def Blanks (text : List Char) : Prop := ∀ c ∈ text, Text.isBlank c = true

def Separators (text : List Char) : Prop := ∀ c ∈ text, SampleLine.isSeparator c = true

instance (text : List Char) : Decidable (IsName text) :=
  @instDecidableAnd _ _ _ (List.decidableBAll ..)

instance (text : List Char) : Decidable (IsLabelName text) :=
  @instDecidableAnd _ _ _ (List.decidableBAll ..)

instance (text : List Char) : Decidable (Blanks text) := List.decidableBAll ..

instance (text : List Char) : Decidable (Separators text) := List.decidableBAll ..

theorem isBlank_of_isNameChar {c : Char} (name : isNameChar c = true) : Text.isBlank c = false := by
  cases blank : Text.isBlank c with
  | false => rfl
  | true =>
    simp only [Text.isBlank, Bool.or_eq_true, beq_iff_eq] at blank
    rcases blank with rfl | rfl <;> exact absurd name (by decide)

theorem isNameChar_of_isBlank {c : Char} (blank : Text.isBlank c = true) : isNameChar c = false := by
  cases name : isNameChar c with
  | false => rfl
  | true => exact absurd blank (by simp [isBlank_of_isNameChar name])

theorem isNameChar_of_isLabelNameChar {c : Char} (label : isLabelNameChar c = true) :
    isNameChar c = true := by
  simp only [isLabelNameChar, isNameChar, Bool.or_eq_true] at label ⊢
  exact Or.inl label

theorem isLabelNameChar_of_isBlank {c : Char} (blank : Text.isBlank c = true) :
    isLabelNameChar c = false := by
  cases label : isLabelNameChar c with
  | false => rfl
  | true =>
    have name := isNameChar_of_isLabelNameChar label
    rw [isNameChar_of_isBlank blank] at name
    cases name

theorem isBlank_of_isTokenChar {c : Char} (token : Decimal.isTokenChar c = true) :
    Text.isBlank c = false := by
  cases blank : Text.isBlank c with
  | false => rfl
  | true =>
    simp only [Text.isBlank, Bool.or_eq_true, beq_iff_eq] at blank
    rcases blank with rfl | rfl <;> exact absurd token (by decide)

theorem IsName.isEmpty {text : List Char} (name : IsName text) : text.isEmpty = false := by
  simpa using name.1

theorem IsLabelName.isEmpty {text : List Char} (name : IsLabelName text) :
    text.isEmpty = false := by
  simpa using name.1

theorem IsLabelName.head {text : List Char} (name : IsLabelName text) (rest : List Char) (c : Char)
    (head : (text ++ rest).head? = some c) : SampleLine.isSeparator c = false := by
  cases text with
  | nil => exact absurd rfl name.1
  | cons d text =>
    have same : d = c := by simpa using head
    subst same
    have label := name.2 d List.mem_cons_self
    have blank := isBlank_of_isNameChar (isNameChar_of_isLabelNameChar label)
    have noComma : d ≠ ',' := by
      rintro rfl
      exact absurd label (by decide)
    simp [SampleLine.isSeparator, blank, noComma]

namespace SampleLine

/-- A label as it is spelled in a block: what parts it from the label before, its name, blanks, and
    the text between its quotes. -/
structure Pair where
  separators : List Char
  name : List Char
  blanks : List Char
  quoted : List Char

namespace Pair

def opened (p : Pair) : List Char :=
  p.separators ++ (p.name ++ (p.blanks ++ '=' :: '"' :: p.quoted))

def text (p : Pair) : List Char := p.opened ++ ['"']

def label (p : Pair) : String × String :=
  (String.ofList p.name, String.ofList (Escape.decode .label p.quoted))

structure Open (p : Pair) : Prop where
  separators : Separators p.separators
  name : IsLabelName p.name
  blanks : Blanks p.blanks
  unbroken : Escape.Unbroken p.quoted

structure Proper (p : Pair) : Prop where
  separators : Separators p.separators
  name : IsLabelName p.name
  blanks : Blanks p.blanks
  quoted : Escape.Enclosed p.quoted

end Pair

/-- What stands between the name and the value of a sample: blanks, or a label block with blanks
    around it. The last text of a block may lack its closing quote; the block is then taken to end
    at the last brace of the line, and that label does not count. -/
inductive Middle where
  | blanks (run : List Char)
  | block (before : List Char) (pairs : List Pair) (separators behind : List Char)
  | unclosed (before : List Char) (pairs : List Pair) (last : Pair) (behind : List Char)

namespace Middle

def text : Middle → List Char
  | .blanks run => run
  | .block before pairs separators behind =>
    before ++ '{' :: (pairs.flatMap Pair.text ++ (separators ++ '}' :: behind))
  | .unclosed before pairs last behind =>
    before ++ '{' :: (pairs.flatMap Pair.text ++ (last.opened ++ '}' :: behind))

def labels : Middle → List (String × String)
  | .blanks _ => []
  | .block _ pairs _ _ | .unclosed _ pairs _ _ => pairs.map Pair.label

def Proper : Middle → Prop
  | .blanks run => Blanks run
  | .block before pairs separators behind =>
    Blanks before ∧ (∀ p ∈ pairs, p.Proper) ∧ Separators separators ∧ Blanks behind
  | .unclosed before pairs last behind =>
    Blanks before ∧ (∀ p ∈ pairs, p.Proper) ∧ last.Open ∧ Blanks behind

end Middle

/-- The end of a sample line: the token for the value, with the number it stands for, maybe a
    timestamp with the blanks before it, and blanks. -/
structure Ending where
  token : List Char
  number : Double
  timestamp : Option (List Char × List Char)
  blanks : List Char

namespace Ending

def tail (e : Ending) : List Char :=
  (match e.timestamp with
    | none => []
    | some (gap, stamp) => gap ++ stamp) ++ e.blanks

def text (e : Ending) : List Char := e.token ++ e.tail

structure Proper (e : Ending) : Prop where
  token : Decimal.sampleValue? e.token = some e.number
  timestamp : ∀ gap stamp, e.timestamp = some (gap, stamp) →
    gap ≠ [] ∧ Blanks gap ∧ (Decimal.sampleValue? stamp).isSome = true
  blanks : Blanks e.blanks

end Ending

structure Spelling where
  name : List Char
  middle : Middle
  ending : Ending

namespace Spelling

def text (l : Spelling) : List Char := l.name ++ (l.middle.text ++ l.ending.text)

def sample (l : Spelling) : Sample := ⟨String.ofList l.name, l.middle.labels, l.ending.number⟩

structure Proper (l : Spelling) : Prop where
  name : IsName l.name
  middle : l.middle.Proper
  ending : l.ending.Proper

def Apart (l : Spelling) : Prop := l.middle ≠ .blanks []

/-- The value stands right behind the name, and begins with a character that no name has. -/
def Touching (l : Spelling) : Prop :=
  l.middle = .blanks [] ∧ ∀ c, l.ending.token.head? = some c → isNameChar c = false

end Spelling

section Labels

theorem labelStart?_spelled {name blanks : List Char} (isLabel : IsLabelName name)
    (run : Blanks blanks) (rest : List Char) :
    labelStart? (name ++ (blanks ++ '=' :: '"' :: rest)) = some (name, rest) := by
  have stop : ∀ c, (blanks ++ '=' :: '"' :: rest).head? = some c → isLabelNameChar c = false := by
    intro c head
    cases blanks with
    | nil =>
      cases head
      decide
    | cons b blanks =>
      have same : b = c := by simpa using head
      exact isLabelNameChar_of_isBlank (same ▸ run b List.mem_cons_self)
  have skipped : Text.skipBlanks (blanks ++ '=' :: '"' :: rest) = '=' :: '"' :: rest :=
    Text.dropWhile_append run fun c head => by cases head; decide
  have quote := Text.afterStart?_append ['=', '"'] rest
  simp only [List.cons_append, List.nil_append] at quote
  simp only [labelStart?, Text.span_append isLabel.2 stop, isLabel.isEmpty, Bool.false_eq_true,
    if_false, skipped, quote, Option.map_some]

theorem readPairs_of_start {text begun name after : List Char}
    (dropped : text.dropWhile isSeparator = begun) (started : labelStart? begun = some (name, after))
    (fuel : Nat) :
    readPairs (fuel + 1) text = match Escape.splitQuote after with
      | none => .unterminated []
      | some (quoted, rest) =>
        .cons (String.ofList name, String.ofList (Escape.decode .label quoted))
          (readPairs fuel rest) := by
  rw [readPairs, dropped]
  split
  · have brace : isLabelNameChar '}' = false := by decide
    simp [labelStart?, List.span_eq_takeWhile_dropWhile, brace] at started
  · exact started ▸ rfl

theorem readPairs_opened {p : Pair} (separators : Separators p.separators)
    (name : IsLabelName p.name) (blanks : Blanks p.blanks) (fuel : Nat) (rest : List Char) :
    readPairs (fuel + 1) (p.opened ++ rest) = match Escape.splitQuote (p.quoted ++ rest) with
      | none => .unterminated []
      | some (quoted, rest) =>
        .cons (String.ofList p.name, String.ofList (Escape.decode .label quoted))
          (readPairs fuel rest) := by
  have parts : p.opened ++ rest =
      p.separators ++ (p.name ++ (p.blanks ++ '=' :: '"' :: (p.quoted ++ rest))) := by
    simp [Pair.opened]
  rw [parts]
  refine readPairs_of_start (Text.dropWhile_append separators ?_)
    (labelStart?_spelled name blanks _) fuel
  exact name.head _

theorem readPairs_pair {p : Pair} (proper : p.Proper) (fuel : Nat) (rest : List Char) :
    readPairs (fuel + 1) (p.text ++ rest) = (readPairs fuel rest).cons p.label := by
  have parts : p.text ++ rest = p.opened ++ '"' :: rest := by simp [Pair.text]
  rw [parts, readPairs_opened proper.separators proper.name proper.blanks,
    Escape.splitQuote_enclosed proper.quoted]
  rfl

theorem readPairs_open {p : Pair} (isOpen : p.Open) {rest : List Char} (clear : '"' ∉ rest)
    (fuel : Nat) : readPairs (fuel + 1) (p.opened ++ rest) = .unterminated [] := by
  have unbroken := Escape.splitQuote_eq_none_iff.2 (isOpen.unbroken.append clear)
  rw [readPairs_opened isOpen.separators isOpen.name isOpen.blanks, unbroken]

theorem readPairs_brace {separators : List Char} (run : Separators separators) (fuel : Nat)
    (rest : List Char) :
    readPairs (fuel + 1) (separators ++ '}' :: rest) = .closed [] rest := by
  have dropped : (separators ++ '}' :: rest).dropWhile isSeparator = '}' :: rest :=
    Text.dropWhile_append run fun c head => by cases head; decide
  simp only [readPairs, dropped]

theorem readPairs_pairs {pairs : List Pair} (proper : ∀ p ∈ pairs, p.Proper) (fuel : Nat)
    (rest : List Char) :
    readPairs (fuel + pairs.length) (pairs.flatMap Pair.text ++ rest) =
      (pairs.map Pair.label).foldr Block.cons (readPairs fuel rest) := by
  induction pairs with
  | nil => rfl
  | cons p pairs ih =>
    rw [List.length_cons, ← Nat.add_assoc, List.flatMap_cons, List.append_assoc,
      readPairs_pair (proper p List.mem_cons_self),
      ih fun q member => proper q (List.mem_cons_of_mem p member)]
    rfl

theorem foldr_cons_closed (labels : List (String × String)) (rest : List Char) :
    labels.foldr Block.cons (.closed [] rest) = .closed labels rest := by
  induction labels with
  | nil => rfl
  | cons label labels ih => rw [List.foldr_cons, ih, Block.cons]

theorem foldr_cons_unterminated (labels : List (String × String)) :
    labels.foldr Block.cons (.unterminated []) = .unterminated labels := by
  induction labels with
  | nil => rfl
  | cons label labels ih => rw [List.foldr_cons, ih, Block.cons]

theorem length_pairs_le (pairs : List Pair) : pairs.length ≤ (pairs.flatMap Pair.text).length := by
  induction pairs with
  | nil => simp
  | cons p pairs ih =>
    have filled : 0 < p.text.length := by simp [Pair.text]
    rw [List.flatMap_cons, List.length_append, List.length_cons]
    omega

theorem readBlock_pairs {pairs : List Pair} (proper : ∀ p ∈ pairs, p.Proper) (rest : List Char) :
    ∃ fuel, readBlock ('{' :: (pairs.flatMap Pair.text ++ rest)) =
      (pairs.map Pair.label).foldr Block.cons (readPairs (fuel + 1) rest) := by
  have enough := length_pairs_le pairs
  refine ⟨1 + (pairs.flatMap Pair.text ++ rest).length - pairs.length, ?_⟩
  rw [← readPairs_pairs proper, readBlock, List.drop_one, List.tail_cons, List.length_cons]
  congr 1
  rw [List.length_append]
  omega

end Labels

structure Tokens (text : List Char) : Prop where
  chars : ∀ c ∈ text, Decimal.isTokenChar c = true ∨ Text.isBlank c = true
  start : ∀ c, text.head? = some c → Text.isBlank c = false

theorem Tokens.notMem {text : List Char} (tokens : Tokens text) {c : Char}
    (noToken : Decimal.isTokenChar c = false) (noBlank : Text.isBlank c = false) : c ∉ text := by
  intro member
  rcases tokens.chars c member with token | blank
  · rw [noToken] at token
    cases token
  · rw [noBlank] at blank
    cases blank

theorem labels?_block {text : List Char} :
    labels? ('{' :: text) = match readBlock ('{' :: text) with
      | .closed labels rest => .ok (labels, Text.skipBlanks rest)
      | .unterminated labels => match Text.afterLast? '}' ('{' :: text) with
        | some rest => .ok (labels, Text.skipBlanks rest)
        | none => .error .malformedLabels
      | .malformed => .error .malformedLabels := rfl

namespace Middle

variable {middle : Middle} (proper : middle.Proper) {rest : List Char}

include proper

theorem Proper.begins (apart : middle ≠ .blanks []) (rest : List Char) :
    ∃ c, (middle.text ++ rest).head? = some c ∧ (Text.isBlank c = true ∨ c = '{') := by
  have first : ∀ {before block : List Char}, Blanks before →
      ∃ c, (before ++ '{' :: block ++ rest).head? = some c ∧
        (Text.isBlank c = true ∨ c = '{') := by
    intro before block run
    cases before with
    | nil => exact ⟨'{', rfl, .inr rfl⟩
    | cons b before => exact ⟨b, rfl, .inl (run b List.mem_cons_self)⟩
  cases middle with
  | blanks run =>
    cases run with
    | nil => exact absurd rfl apart
    | cons b run => exact ⟨b, rfl, .inl (proper b List.mem_cons_self)⟩
  | block before pairs separators behind => exact first proper.1
  | unclosed before pairs last behind => exact first proper.1

theorem Proper.labels?_text (tokens : Tokens rest) :
    labels? (Text.skipBlanks (middle.text ++ rest)) = .ok (middle.labels, rest) := by
  cases middle with
  | blanks run =>
    have noBrace : '{' ∉ rest := tokens.notMem (by decide) (by decide)
    have other : rest.head? ≠ some '{' := fun head => noBrace (List.mem_of_mem_head? head)
    rw [text, Text.skipBlanks, Text.dropWhile_append proper tokens.start, labels?, if_neg other]
    rfl
  | block before pairs separators behind =>
    obtain ⟨run, pairsProper, isSeparators, after⟩ := proper
    have parts : (Middle.block before pairs separators behind).text ++ rest = before ++
        '{' :: (pairs.flatMap Pair.text ++ (separators ++ '}' :: (behind ++ rest))) := by
      simp [text]
    have skipped : Text.skipBlanks (behind ++ rest) = rest :=
      Text.dropWhile_append after tokens.start
    obtain ⟨fuel, read⟩ := readBlock_pairs pairsProper (separators ++ '}' :: (behind ++ rest))
    rw [readPairs_brace isSeparators, foldr_cons_closed] at read
    rw [parts, Text.skipBlanks, Text.dropWhile_append run fun c head => by cases head; decide,
      labels?_block, read]
    simp only [skipped, labels]
  | unclosed before pairs last behind =>
    obtain ⟨run, pairsProper, isOpen, after⟩ := proper
    have clear : '"' ∉ '}' :: (behind ++ rest) := by
      have noQuote : '"' ∉ rest := tokens.notMem (by decide) (by decide)
      have noBlank : '"' ∉ behind := fun member => absurd (after _ member) (by decide)
      simp [noQuote, noBlank]
    have noBrace : '}' ∉ behind ++ rest := by
      have noToken : '}' ∉ rest := tokens.notMem (by decide) (by decide)
      have noBlank : '}' ∉ behind := fun member => absurd (after _ member) (by decide)
      simp [noToken, noBlank]
    have parts : (Middle.unclosed before pairs last behind).text ++ rest = before ++
        '{' :: (pairs.flatMap Pair.text ++ (last.opened ++ '}' :: (behind ++ rest))) := by
      simp [text]
    have skipped : Text.skipBlanks (behind ++ rest) = rest :=
      Text.dropWhile_append after tokens.start
    have found : Text.afterLast? '}'
        ('{' :: (pairs.flatMap Pair.text ++ (last.opened ++ '}' :: (behind ++ rest)))) =
          some (behind ++ rest) := by
      have split := Text.afterLast?_append noBrace
        ('{' :: (pairs.flatMap Pair.text ++ last.opened))
      simpa using split
    obtain ⟨fuel, read⟩ := readBlock_pairs pairsProper (last.opened ++ '}' :: (behind ++ rest))
    rw [readPairs_open isOpen clear, foldr_cons_unterminated] at read
    rw [parts, Text.skipBlanks, Text.dropWhile_append run fun c head => by cases head; decide,
      labels?_block, read]
    simp only [found, skipped, labels]

end Middle

theorem read_parts {name : List Char} (isName : IsName name) {middle : Middle}
    (proper : middle.Proper) {rest : List Char} (tokens : Tokens rest)
    (stop : ∀ c, (middle.text ++ rest).head? = some c → isNameChar c = false) :
    read (name ++ (middle.text ++ rest)) =
      (value? rest).map fun v => ⟨String.ofList name, middle.labels, v⟩ := by
  simp only [read, Text.span_append isName.2 stop, isName.isEmpty, Bool.false_eq_true, if_false,
    proper.labels?_text tokens, bind, Except.bind]
  cases value? rest <;> rfl

theorem head?_token {token : List Char} {v : Double}
    (number : Decimal.sampleValue? token = some v) (rest : List Char) :
    (token ++ rest).head? = token.head? := by
  cases token with
  | nil => cases number
  | cons c token => rfl

theorem isBlank_of_token {token : List Char} {v : Double}
    (number : Decimal.sampleValue? token = some v) {c : Char} (member : c ∈ token) :
    Text.isBlank c = false :=
  isBlank_of_isTokenChar (Decimal.isTokenChar_of_sampleValue number member)

namespace Ending

variable {e : Ending} (proper : e.Proper)

include proper

theorem Proper.head_tail (c : Char) (head : e.tail.head? = some c) : Text.isBlank c = true := by
  unfold tail at head
  cases timed : e.timestamp with
  | none =>
    rw [timed] at head
    exact proper.blanks c (List.mem_of_mem_head? head)
  | some stamped =>
    obtain ⟨gap, stamp⟩ := stamped
    obtain ⟨filled, run, _⟩ := proper.timestamp gap stamp timed
    rw [timed] at head
    cases gap with
    | nil => exact absurd rfl filled
    | cons b gap =>
      cases head
      exact run _ List.mem_cons_self

theorem Proper.timestamp_tail :
    Text.dropEndWhile Text.isBlank (Text.skipBlanks e.tail) =
      (e.timestamp.map Prod.snd).getD [] := by
  unfold tail
  cases timed : e.timestamp with
  | none =>
    have skipped : Text.skipBlanks e.blanks = [] := List.dropWhile_eq_nil_iff.2 proper.blanks
    rw [List.nil_append, skipped]
    rfl
  | some stamped =>
    obtain ⟨gap, stamp⟩ := stamped
    obtain ⟨_, run, number⟩ := proper.timestamp gap stamp timed
    obtain ⟨v, read⟩ := Option.isSome_iff_exists.1 number
    have skipped : Text.skipBlanks (gap ++ (stamp ++ e.blanks)) = stamp ++ e.blanks := by
      refine Text.dropWhile_append run fun c head => ?_
      rw [head?_token read] at head
      exact isBlank_of_token read (List.mem_of_mem_head? head)
    rw [List.append_assoc, skipped, Text.dropEndWhile_append proper.blanks fun c last =>
      isBlank_of_token read (List.mem_of_mem_getLast? last)]
    rfl

theorem Proper.value?_text : value? e.text = .ok e.number := by
  have spanned : (e.token ++ e.tail).span (fun c => !Text.isBlank c) = (e.token, e.tail) := by
    refine Text.span_append (fun c member => ?_) fun c head => ?_
    · simp [isBlank_of_token proper.token member]
    · simp [proper.head_tail c head]
  simp only [value?, text, spanned, proper.token, proper.timestamp_tail]
  cases timed : e.timestamp with
  | none => rfl
  | some stamped =>
    obtain ⟨gap, stamp⟩ := stamped
    obtain ⟨_, _, number⟩ := proper.timestamp gap stamp timed
    simp [number]

theorem Proper.tokens : Tokens e.text := by
  constructor
  · intro c member
    rcases List.mem_append.1 member with token | tail
    · exact .inl (Decimal.isTokenChar_of_sampleValue proper.token token)
    · unfold Ending.tail at tail
      rcases List.mem_append.1 tail with stamped | blank
      · cases timed : e.timestamp with
        | none =>
          rw [timed] at stamped
          cases stamped
        | some parts =>
          obtain ⟨gap, stamp⟩ := parts
          obtain ⟨_, run, number⟩ := proper.timestamp gap stamp timed
          obtain ⟨v, read⟩ := Option.isSome_iff_exists.1 number
          rw [timed] at stamped
          rcases List.mem_append.1 stamped with blank | char
          · exact .inr (run c blank)
          · exact .inl (Decimal.isTokenChar_of_sampleValue read char)
      · exact .inr (proper.blanks c blank)
  · intro c head
    rw [text, head?_token proper.token] at head
    exact isBlank_of_token proper.token (List.mem_of_mem_head? head)

end Ending

namespace Spelling

variable {l : Spelling} (proper : l.Proper)

include proper

theorem Proper.stop (bounded : l.Apart ∨ l.Touching) (c : Char)
    (head : (l.middle.text ++ l.ending.text).head? = some c) : isNameChar c = false := by
  rcases bounded with apart | ⟨touching, begins⟩
  · obtain ⟨d, first, blank | brace⟩ := proper.middle.begins apart l.ending.text
    · cases head.symm.trans first
      exact isNameChar_of_isBlank blank
    · cases head.symm.trans first
      subst brace
      decide
  · have nothing : l.middle.text = [] := congrArg Middle.text touching
    rw [nothing, List.nil_append, Ending.text, head?_token proper.ending.token] at head
    exact begins c head

theorem Proper.read_text (bounded : l.Apart ∨ l.Touching) : read l.text = .ok l.sample := by
  rw [text, read_parts proper.name proper.middle proper.ending.tokens (proper.stop bounded),
    proper.ending.value?_text]
  rfl

end Spelling

/-- However a sample is spelled, it is read: with any blanks and separators around its parts, with
    any texts for its label values, and with any timestamp or none. -/
theorem every_spelling_read {l : Spelling} (proper : l.Proper) (apart : l.Apart) :
    read l.text = .ok l.sample ∧
      ∀ other : Spelling, other.Proper → other.Apart → other.name = l.name →
        other.middle.labels = l.middle.labels → other.ending.number = l.ending.number →
          read other.text = read l.text := by
  have own := proper.read_text (.inl apart)
  refine ⟨own, fun other properToo apartToo name labels number => ?_⟩
  rw [own, properToo.read_text (.inl apartToo), Spelling.sample, Spelling.sample, name, labels,
    number]

/-- A label text with an escaped quote, a brace, a comma and an equals sign in it, and blanks and
    separators wherever they can stand. -/
def spacedSpelling : Spelling where
  name := "up".toList
  middle := .block " \t".toList
    [⟨", ".toList, "job".toList, "\t".toList, "a\\\"\x7d,b=\\\\".toList⟩,
      ⟨[], "pod".toList, [], "\\n".toList⟩] " ,".toList []
  ending := ⟨"+Inf".toList, .infinite false, some ("  ".toList, "NaN".toList), "\t ".toList⟩

theorem spaced_line_read :
    (spacedSpelling.Proper ∧ spacedSpelling.Apart) ∧
      read "up \t\x7b, job\t=\"a\\\"\x7d,b=\\\\\"pod=\"\\n\" ,\x7d+Inf  NaN\t ".toList =
        .ok ⟨"up", [("job", "a\"\x7d,b=\\"), ("pod", "\n")], .infinite false⟩ := by
  have first : Pair.Proper ⟨", ".toList, "job".toList, "\t".toList, "a\\\"\x7d,b=\\\\".toList⟩ :=
    ⟨by decide, by decide, by decide, by decide, by decide⟩
  have second : Pair.Proper ⟨[], "pod".toList, [], "\\n".toList⟩ :=
    ⟨by decide, by decide, by decide, by decide, by decide⟩
  have middle : spacedSpelling.middle.Proper :=
    ⟨by decide, List.forall_mem_cons.2 ⟨first, List.forall_mem_singleton.2 second⟩, by decide,
      by decide⟩
  have ending : spacedSpelling.ending.Proper := by
    refine ⟨by decide, fun gap stamp timed => ?_, by decide⟩
    cases timed
    exact ⟨by decide, by decide, by decide⟩
  have proper : spacedSpelling.Proper := ⟨by decide, middle, ending⟩
  have apart : spacedSpelling.Apart := nofun
  exact ⟨⟨proper, apart⟩, (every_spelling_read proper apart).1⟩

end SampleLine
end MetricGateway
