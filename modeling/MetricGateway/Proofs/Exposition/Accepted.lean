import MetricGateway.Exposition.Document
import MetricGateway.Proofs.Exposition.Spelling

/- Which lines are accepted. What has been read from a line is taken back to a spelling of it, part
   by part; so nothing is read from a line that spells no sample. The one thing that is accepted
   besides is a value right behind the name, without the blank that should part them. -/
namespace MetricGateway
namespace SampleLine

theorem labelStart?_eq_some {text name rest : List Char}
    (started : labelStart? text = some (name, rest)) :
    IsLabelName name ∧ ∃ blanks, Blanks blanks ∧ text = name ++ (blanks ++ '=' :: '"' :: rest) := by
  cases read : text.span isLabelNameChar with
  | mk run after =>
    obtain ⟨split, chars, _⟩ := Text.of_span read
    simp only [labelStart?, read, Option.ite_none_left_eq_some, Option.map_eq_some_iff] at started
    obtain ⟨filled, behind, found, same⟩ := started
    cases same
    obtain ⟨blanks, parts, blank, _⟩ := Text.exists_run Text.isBlank after
    rw [← Text.skipBlanks, Text.afterStart?_eq_some found] at parts
    refine ⟨⟨by simpa using filled, chars⟩, blanks, blank, ?_⟩
    rw [split, parts]
    rfl

def Block.Spelled (text : List Char) : Block → Prop
  | .closed labels rest => ∃ (pairs : List Pair) (separators : List Char),
      (∀ p ∈ pairs, p.Proper) ∧ Separators separators ∧ pairs.map Pair.label = labels ∧
        text = pairs.flatMap Pair.text ++ (separators ++ '}' :: rest)
  | .unterminated labels => ∃ (pairs : List Pair) (last : Pair),
      (∀ p ∈ pairs, p.Proper) ∧ last.Open ∧ pairs.map Pair.label = labels ∧
        text = pairs.flatMap Pair.text ++ last.opened
  | .malformed => True

theorem Block.Spelled.cons {b : Block} {text : List Char} {p : Pair} (spelled : b.Spelled text)
    (proper : p.Proper) : (b.cons p.label).Spelled (p.text ++ text) := by
  cases b with
  | closed labels rest =>
    obtain ⟨pairs, separators, others, run, same, rfl⟩ := spelled
    refine ⟨p :: pairs, separators, List.forall_mem_cons.2 ⟨proper, others⟩, run, ?_, ?_⟩
    · rw [List.map_cons, same]
    · rw [List.flatMap_cons, List.append_assoc]
  | unterminated labels =>
    obtain ⟨pairs, last, others, isOpen, same, rfl⟩ := spelled
    refine ⟨p :: pairs, last, List.forall_mem_cons.2 ⟨proper, others⟩, isOpen, ?_, ?_⟩
    · rw [List.map_cons, same]
    · rw [List.flatMap_cons, List.append_assoc]
  | malformed => trivial

theorem spelled_readPairs (fuel : Nat) (text : List Char) : (readPairs fuel text).Spelled text := by
  induction fuel generalizing text with
  | zero => trivial
  | succ fuel ih =>
    obtain ⟨separators, split, run, _⟩ := Text.exists_run isSeparator text
    rw [readPairs]
    split
    · rename_i rest brace
      rw [brace] at split
      exact ⟨[], separators, List.forall_mem_nil _, run, rfl, split⟩
    · cases started : labelStart? (text.dropWhile isSeparator) with
      | none => trivial
      | some start =>
        obtain ⟨name, rest⟩ := start
        obtain ⟨isLabel, blanks, blank, parts⟩ := labelStart?_eq_some started
        rw [parts] at split
        cases quote : Escape.splitQuote rest with
        | none =>
          have unbroken := Escape.splitQuote_eq_none_iff.1 quote
          simp only [quote]
          exact ⟨[], ⟨separators, name, blanks, rest⟩, List.forall_mem_nil _,
            ⟨run, isLabel, blank, unbroken⟩, rfl, split⟩
        | some found =>
          obtain ⟨quoted, after⟩ := found
          obtain ⟨ends, enclosed⟩ := Escape.splitQuote_eq_some_iff.1 quote
          have whole : text = Pair.text ⟨separators, name, blanks, quoted⟩ ++ after := by
            rw [split, ends]
            simp [Pair.text, Pair.opened]
          simp only [quote]
          rw [whole]
          exact (ih after).cons ⟨run, isLabel, blank, enclosed⟩

theorem exists_tail {token tail : List Char} {v : Double}
    (number : Decimal.sampleValue? token = some v)
    (stop : ∀ c, tail.head? = some c → Text.isBlank c = true)
    (checked : Text.dropEndWhile Text.isBlank (Text.skipBlanks tail) = [] ∨
      (Decimal.sampleValue? (Text.dropEndWhile Text.isBlank (Text.skipBlanks tail))).isSome = true) :
    ∃ e : Ending, e.Proper ∧ e.number = v ∧ e.text = token ++ tail := by
  obtain ⟨gap, parts, run, _⟩ := Text.exists_run Text.isBlank tail
  obtain ⟨ends, pieces, behind⟩ := Text.exists_ends Text.isBlank (Text.skipBlanks tail)
  rw [← Text.skipBlanks, pieces] at parts
  generalize Text.dropEndWhile Text.isBlank (Text.skipBlanks tail) = stamp at checked parts
  rcases checked with rfl | timed
  · have blanks : Blanks (gap ++ ends) := List.forall_mem_append.2 ⟨run, behind⟩
    refine ⟨⟨token, v, none, gap ++ ends⟩, ⟨number, ?_, blanks⟩, rfl, ?_⟩
    · intro _ _ timed
      cases timed
    · rw [parts]
      rfl
  · obtain ⟨w, read⟩ := Option.isSome_iff_exists.1 timed
    have filled : gap ≠ [] := by
      -- Without a blank the timestamp would have been part of the value.
      rintro rfl
      rw [parts, List.nil_append, head?_token read] at stop
      cases stamp with
      | nil => cases read
      | cons c stamp =>
        have blank := stop c rfl
        rw [isBlank_of_token read List.mem_cons_self] at blank
        cases blank
    refine ⟨⟨token, v, some (gap, stamp), ends⟩, ⟨number, ?_, behind⟩, rfl, ?_⟩
    · rintro _ _ ⟨⟩
      exact ⟨filled, run, timed⟩
    · rw [parts, ← List.append_assoc gap]
      rfl

theorem exists_ending {rest : List Char} {v : Double} (read : value? rest = .ok v) :
    ∃ e : Ending, e.Proper ∧ e.number = v ∧ e.text = rest := by
  cases spanned : rest.span (fun c => !Text.isBlank c) with
  | mk token tail =>
    obtain ⟨split, _, stop⟩ := Text.of_span spanned
    simp only [value?, spanned] at read
    cases number : Decimal.sampleValue? token with
    | none => simp [number] at read
    | some w =>
      simp only [number] at read
      split at read
      · rename_i checked
        cases read
        rw [split]
        refine exists_tail number (fun c head => by simpa using stop c head) ?_
        simpa using checked
      · cases read

theorem Pair.Open.cut {p : Pair} (isOpen : p.Open) {before front behind : List Char}
    (clear : '"' ∉ behind) (split : before ++ p.opened = front ++ '}' :: behind) :
    ∃ q : Pair, q.Open ∧ p.opened = q.opened ++ '}' :: behind := by
  have parts : front ++ '}' :: behind =
      (before ++ (p.separators ++ (p.name ++ (p.blanks ++ ['='])))) ++ '"' :: p.quoted := by
    rw [← split]
    simp [opened]
  have away : '"' ∉ '}' :: behind := by simp [clear]
  obtain ⟨inner, _, quoted⟩ := Text.exists_of_append_eq away parts
  have unbroken := isOpen.unbroken
  rw [quoted] at unbroken
  refine ⟨{ p with quoted := inner },
    ⟨isOpen.separators, isOpen.name, isOpen.blanks, unbroken.front⟩, ?_⟩
  simp [opened, quoted]

theorem exists_closed {before behind : List Char} {pairs : List Pair} {separators : List Char}
    (run : Blanks before) (proper : ∀ p ∈ pairs, p.Proper) (separate : Separators separators) :
    ∃ middle : Middle, middle.Proper ∧ middle.labels = pairs.map Pair.label ∧
      middle.text ++ Text.skipBlanks behind =
        before ++ '{' :: (pairs.flatMap Pair.text ++ (separators ++ '}' :: behind)) := by
  obtain ⟨blanks, parts, blank, _⟩ := Text.exists_run Text.isBlank behind
  have whole : blanks ++ Text.skipBlanks behind = behind := parts.symm
  refine ⟨.block before pairs separators blanks, ⟨run, proper, separate, blank⟩, rfl, ?_⟩
  simp [Middle.text, whole]

/-- Behind a block that is not closed, reading goes on at the last brace of the line. What is left
    there has no quote in it, so that the brace belongs to the text that is not closed. -/
theorem exists_unclosed {before behind : List Char} {pairs : List Pair} {last : Pair}
    (run : Blanks before) (proper : ∀ p ∈ pairs, p.Proper) (isOpen : last.Open)
    (resumed : Text.afterLast? '}' ('{' :: (pairs.flatMap Pair.text ++ last.opened)) = some behind)
    (tokens : Tokens (Text.skipBlanks behind)) :
    ∃ middle : Middle, middle.Proper ∧ middle.labels = pairs.map Pair.label ∧
      middle.text ++ Text.skipBlanks behind =
        before ++ '{' :: (pairs.flatMap Pair.text ++ last.opened) := by
  obtain ⟨blanks, parts, blank, _⟩ := Text.exists_run Text.isBlank behind
  have whole : blanks ++ Text.skipBlanks behind = behind := parts.symm
  have clear : '"' ∉ behind := by
    have noToken := tokens.notMem (c := '"') (by decide) (by decide)
    have noBlank : '"' ∉ blanks := fun member => absurd (blank _ member) (by decide)
    rw [← whole]
    simp [noToken, noBlank]
  obtain ⟨front, split⟩ := Text.afterLast?_eq_some resumed
  rw [← List.cons_append] at split
  obtain ⟨cut, cutOpen, shorter⟩ := isOpen.cut clear split
  refine ⟨.unclosed before pairs cut blanks, ⟨run, proper, cutOpen, blank⟩, rfl, ?_⟩
  simp [Middle.text, whole, shorter]

theorem exists_middle {text rest : List Char} {labels : List (String × String)}
    (read : labels? (Text.skipBlanks text) = .ok (labels, rest)) (tokens : Tokens rest) :
    ∃ middle : Middle, middle.Proper ∧ middle.labels = labels ∧ middle.text ++ rest = text := by
  obtain ⟨before, split, run, _⟩ := Text.exists_run Text.isBlank text
  rw [← Text.skipBlanks] at split
  by_cases brace : (Text.skipBlanks text).head? = some '{'
  · obtain ⟨body, begun⟩ := List.head?_eq_some_iff.1 brace
    have spelled : (readBlock ('{' :: body)).Spelled body := spelled_readPairs _ _
    rw [begun] at split read
    rw [labels?_block] at read
    rw [split]
    cases block : readBlock ('{' :: body) with
    | closed found behind =>
      rw [block] at spelled read
      obtain ⟨pairs, separators, proper, separate, rfl, rfl⟩ := spelled
      cases read
      exact exists_closed run proper separate
    | unterminated found =>
      rw [block] at spelled read
      obtain ⟨pairs, last, proper, isOpen, rfl, rfl⟩ := spelled
      cases resumed : Text.afterLast? '}' ('{' :: (pairs.flatMap Pair.text ++ last.opened)) with
      | none =>
        rw [resumed] at read
        cases read
      | some behind =>
        rw [resumed] at read
        cases read
        exact exists_unclosed run proper isOpen resumed tokens
    | malformed =>
      rw [block] at read
      cases read
  · rw [labels?, if_neg brace] at read
    cases read
    exact ⟨.blanks before, run, rfl, split.symm⟩

theorem Middle.Proper.exists_pair {middle : Middle} (proper : middle.Proper)
    {label : String × String} (member : label ∈ middle.labels) :
    ∃ p : Pair, p.Proper ∧ p.label = label := by
  cases middle with
  | blanks run => cases member
  | block before pairs separators behind =>
    obtain ⟨p, own, same⟩ := List.mem_map.1 member
    exact ⟨p, proper.2.1 p own, same⟩
  | unclosed before pairs last behind =>
    obtain ⟨p, own, same⟩ := List.mem_map.1 member
    exact ⟨p, proper.2.1 p own, same⟩

theorem exists_spelling {line : List Char} {s : Sample} (done : read line = .ok s) :
    ∃ l : Spelling, l.Proper ∧ (l.Apart ∨ l.Touching) ∧ l.text = line ∧ l.sample = s := by
  cases spanned : line.span isNameChar with
  | mk name behind =>
    obtain ⟨split, chars, stop⟩ := Text.of_span spanned
    simp only [read, spanned, bind, Except.bind] at done
    split at done
    · cases done
    · rename_i filled
      have isName : IsName name := ⟨by simpa using filled, chars⟩
      split at done
      · cases done
      · rename_i found read
        obtain ⟨labels, rest⟩ := found
        cases number : value? rest with
        | error e => simp [number] at done
        | ok v =>
          simp only [number] at done
          cases done
          obtain ⟨ending, properEnding, rfl, rfl⟩ := exists_ending number
          obtain ⟨middle, properMiddle, rfl, rfl⟩ := exists_middle read properEnding.tokens
          refine ⟨⟨name, middle, ending⟩, ⟨isName, properMiddle, properEnding⟩, ?_, split.symm, rfl⟩
          by_cases apart : middle = .blanks []
          · refine .inr ⟨apart, fun c head => stop c ?_⟩
            rw [apart]
            exact (head?_token properEnding.token ending.tail).trans head
          · exact .inl apart

theorem read_eq_ok_iff {line : List Char} {s : Sample} :
    read line = .ok s ↔
      ∃ l : Spelling, l.Proper ∧ (l.Apart ∨ l.Touching) ∧ l.text = line ∧ l.sample = s := by
  constructor
  · exact exists_spelling
  · rintro ⟨l, proper, bounded, rfl, rfl⟩
    exact proper.read_text bounded

theorem Spelling.Proper.text_ne {l m : Spelling} (proper : l.Proper) (apart : l.Apart)
    (properToo : m.Proper) (touching : m.Touching) : l.text ≠ m.text := by
  intro same
  have own : l.text.span isNameChar = (l.name, l.middle.text ++ l.ending.text) :=
    Text.span_append proper.name.2 (proper.stop (.inl apart))
  have others : m.text.span isNameChar = (m.name, m.middle.text ++ m.ending.text) :=
    Text.span_append properToo.name.2 (properToo.stop (.inr touching))
  have nothing : m.middle.text = [] := congrArg Middle.text touching.1
  have behind : l.middle.text ++ l.ending.text = m.ending.text := by
    rw [same, others, nothing, List.nil_append] at own
    exact (congrArg Prod.snd own).symm
  have tokens := properToo.ending.tokens
  obtain ⟨c, head, blank | brace⟩ := proper.middle.begins apart l.ending.text
  · rw [behind] at head
    rw [tokens.start c head] at blank
    cases blank
  · rw [behind, brace] at head
    exact tokens.notMem (by decide) (by decide) (List.mem_of_mem_head? head)

def Spells (line : List Char) (s : Sample) : Prop :=
  ∃ l : Spelling, l.Proper ∧ l.Apart ∧ l.text = line ∧ l.sample = s

/-- The line has the value right behind the name, which is outside of the grammar. -/
def SpellsTouching (line : List Char) (s : Sample) : Prop :=
  ∃ l : Spelling, l.Proper ∧ l.Touching ∧ l.text = line ∧ l.sample = s

theorem read_eq_ok_iff_spells {line : List Char} {s : Sample} :
    read line = .ok s ↔ Spells line s ∨ SpellsTouching line s := by
  rw [read_eq_ok_iff]
  constructor
  · rintro ⟨l, proper, apart | touching, same⟩
    · exact .inl ⟨l, proper, apart, same⟩
    · exact .inr ⟨l, proper, touching, same⟩
  · rintro (⟨l, proper, apart, same⟩ | ⟨l, proper, touching, same⟩)
    · exact ⟨l, proper, .inl apart, same⟩
    · exact ⟨l, proper, .inr touching, same⟩

theorem SpellsTouching.unspelled {line : List Char} {s t : Sample}
    (touching : SpellsTouching line s) : ¬ Spells line t := by
  obtain ⟨m, properToo, isTouching, rfl, _⟩ := touching
  rintro ⟨l, proper, apart, same, _⟩
  exact proper.text_ne apart properToo isTouching same

theorem families_addLine_of_error {line : List Char} {e : LineError} (failed : read line = .error e)
    (r : Reading) : (r.addLine line).families = r.families := by
  unfold Reading.addLine
  cases LineKind.of line with
  | blank | comment => rfl
  | help text => cases found : Directive.help? text <;> simp only [found]
  | type text => cases found : Directive.type? text <;> simp only [found]
  | sample => simp only [failed]

/-- A line by the grammar is read as the sample that it spells. What is accepted outside of the
    grammar are exactly the lines that have the value right behind the name, and every other line is
    rejected and adds nothing to a document. -/
theorem accepted_outside_grammar_iff (line : List Char) :
    (∀ s, Spells line s → read line = .ok s) ∧
      (∀ s, (read line = .ok s ∧ ∀ t, ¬ Spells line t) ↔ SpellsTouching line s) ∧
      ((∀ s, ¬ Spells line s ∧ ¬ SpellsTouching line s) →
        (∃ e, read line = .error e) ∧
          ∀ r : Reading, (r.addLine line).families = r.families) := by
  refine ⟨fun s spelled => read_eq_ok_iff_spells.2 (.inl spelled), fun s => ⟨?_, ?_⟩, ?_⟩
  · rintro ⟨accepted, unspelled⟩
    exact (read_eq_ok_iff_spells.1 accepted).resolve_left (unspelled s)
  · intro touching
    exact ⟨read_eq_ok_iff_spells.2 (.inr touching), fun t => touching.unspelled⟩
  · intro unspelled
    cases done : read line with
    | error e => exact ⟨⟨e, rfl⟩, families_addLine_of_error done⟩
    | ok s =>
      rcases read_eq_ok_iff_spells.1 done with spelled | touching
      · exact absurd spelled (unspelled s).1
      · exact absurd touching (unspelled s).2

/-- A block whose last text is not closed, and has a brace in it before the one that ends it. -/
def unclosedSpelling : Spelling where
  name := "m".toList
  middle := .unclosed [] [⟨[], "a".toList, [], "b".toList⟩]
    ⟨",".toList, "c".toList, [], "o\x7dpen".toList⟩ " ".toList
  ending := ⟨"+Inf".toList, .infinite false, none, []⟩

theorem unclosed_block_accepted :
    Spells "m\x7ba=\"b\",c=\"o\x7dpen\x7d +Inf".toList ⟨"m", [("a", "b")], .infinite false⟩ ∧
      read "m\x7ba=\"b\",c=\"o\x7dpen\x7d +Inf".toList =
        .ok ⟨"m", [("a", "b")], .infinite false⟩ := by
  have pair : Pair.Proper ⟨[], "a".toList, [], "b".toList⟩ :=
    ⟨by decide, by decide, by decide, by decide, by decide⟩
  have last : Pair.Open ⟨",".toList, "c".toList, [], "o\x7dpen".toList⟩ :=
    ⟨by decide, by decide, by decide, by decide⟩
  have middle : unclosedSpelling.middle.Proper :=
    ⟨by decide, List.forall_mem_singleton.2 pair, last, by decide⟩
  have proper : unclosedSpelling.Proper := ⟨by decide, middle, ⟨by decide, nofun, by decide⟩⟩
  have spelled : Spells unclosedSpelling.text unclosedSpelling.sample :=
    ⟨unclosedSpelling, proper, nofun, rfl, rfl⟩
  exact ⟨spelled, (accepted_outside_grammar_iff _).1 _ spelled⟩

def touchingSpelling : Spelling :=
  ⟨"m".toList, .blanks [], ⟨"-Inf".toList, .infinite true, none, []⟩⟩

theorem touchingSpelling_proper : touchingSpelling.Proper :=
  ⟨by decide, nofun, ⟨by decide, nofun, nofun⟩⟩

theorem touching_value_accepted :
    read "m-Inf".toList = .ok ⟨"m", [], .infinite true⟩ ∧ ∀ s, ¬ Spells "m-Inf".toList s := by
  have touching : touchingSpelling.Touching := by
    refine ⟨rfl, fun c head => ?_⟩
    cases head
    decide
  have proper := touchingSpelling_proper
  refine ⟨proper.read_text (.inr touching), fun s => ?_⟩
  exact SpellsTouching.unspelled ⟨touchingSpelling, proper, touching, rfl, rfl⟩

end SampleLine
end MetricGateway
