import MetricGateway.Text.Line
import Mathlib.Data.List.TakeDrop
import Mathlib.Data.List.TakeWhile

/- Scanning undoes joining: a run of characters is read off in front of what is no part of it, and
   lines that end in a line feed come back one by one. -/
namespace MetricGateway
namespace Text

theorem dropWhile_append {p : Char → Bool} {run rest : List Char} (within : ∀ c ∈ run, p c = true)
    (stop : ∀ c, rest.head? = some c → p c = false) : (run ++ rest).dropWhile p = rest := by
  rw [List.dropWhile_append_of_pos within]
  cases rest with
  | nil => rfl
  | cons c rest =>
    have out := stop c rfl
    simp [out]

theorem span_append {p : Char → Bool} {run rest : List Char} (within : ∀ c ∈ run, p c = true)
    (stop : ∀ c, rest.head? = some c → p c = false) : (run ++ rest).span p = (run, rest) := by
  rw [List.span_eq_takeWhile_dropWhile, List.takeWhile_append_of_pos within, dropWhile_append within stop]
  cases rest with
  | nil => simp
  | cons c rest =>
    have out := stop c rfl
    simp [out]

theorem span_all {p : Char → Bool} {run : List Char} (within : ∀ c ∈ run, p c = true) :
    run.span p = (run, []) := by
  have ends : (run ++ []).span p = (run, []) := span_append within (by simp)
  rwa [List.append_nil] at ends

theorem mem_span {p : Char → Bool} {text : List Char} {c : Char} (member : c ∈ text) :
    p c = true ∨ c ∈ (text.span p).2 := by
  rw [List.span_eq_takeWhile_dropWhile]
  rw [← List.takeWhile_append_dropWhile (p := p) (l := text)] at member
  rcases List.mem_append.1 member with inside | behind
  · exact Or.inl (List.mem_takeWhile_imp inside)
  · exact Or.inr behind

theorem of_span {p : Char → Bool} {text run rest : List Char} (read : text.span p = (run, rest)) :
    text = run ++ rest ∧ (∀ c ∈ run, p c = true) ∧ ∀ c, rest.head? = some c → p c = false := by
  rw [List.span_eq_takeWhile_dropWhile] at read
  cases read
  have out := List.head?_dropWhile_not p text
  refine ⟨List.takeWhile_append_dropWhile.symm, fun c member => List.mem_takeWhile_imp member,
    fun c head => ?_⟩
  rwa [head] at out

theorem exists_run (p : Char → Bool) (text : List Char) :
    ∃ run, text = run ++ text.dropWhile p ∧ (∀ c ∈ run, p c = true) ∧
      ∀ c, (text.dropWhile p).head? = some c → p c = false :=
  ⟨text.takeWhile p, of_span (List.span_eq_takeWhile_dropWhile p text)⟩

theorem skipBlanks_of_head {text : List Char}
    (head : ∀ c, text.head? = some c → isBlank c = false) : skipBlanks text = text := by
  cases text with
  | nil => rfl
  | cons c rest =>
    have out := head c rfl
    simp [skipBlanks, out]

theorem afterStart?_append (start rest : List Char) :
    afterStart? start (start ++ rest) = some rest := by
  induction start with
  | nil => rfl
  | cons c start ih => simp [afterStart?, ih]

theorem afterStart?_eq_some {start text rest : List Char}
    (found : afterStart? start text = some rest) : text = start ++ rest := by
  induction start generalizing text with
  | nil =>
    cases found
    rfl
  | cons c start ih =>
    cases text with
    | nil => cases found
    | cons d text =>
      simp only [afterStart?, Option.ite_none_right_eq_some] at found
      obtain ⟨rfl, found⟩ := found
      rw [ih found, List.cons_append]

theorem afterLast?_append {mark : Char} {tail : List Char} (clear : mark ∉ tail)
    (front : List Char) : afterLast? mark (front ++ mark :: tail) = some tail := by
  have run : ∀ c ∈ tail.reverse, (c != mark) = true := by
    intro c member
    rw [bne_iff_ne]
    rintro rfl
    exact clear (List.mem_reverse.1 member)
  have back : (front ++ mark :: tail).reverse = tail.reverse ++ mark :: front.reverse := by simp
  rw [afterLast?, if_pos (by simp), back, List.takeWhile_append_of_pos run]
  simp

theorem afterLast?_eq_some {mark : Char} {text tail : List Char}
    (found : afterLast? mark text = some tail) : ∃ front, text = front ++ mark :: tail := by
  obtain ⟨member, _⟩ := Option.ite_none_right_eq_some.1 found
  obtain ⟨front, back, split, clear⟩ := List.eq_append_cons_of_mem (List.mem_reverse.2 member)
  have whole : text = back.reverse ++ mark :: front.reverse := by
    rw [← List.reverse_reverse text, split]
    simp
  have clear : mark ∉ front.reverse := fun inside => clear (List.mem_reverse.1 inside)
  rw [whole, afterLast?_append clear] at found
  cases found
  exact ⟨back.reverse, whole⟩

theorem dropEndWhile_append {p : Char → Bool} {text ends : List Char}
    (within : ∀ c ∈ ends, p c = true) (stop : ∀ c, text.getLast? = some c → p c = false) :
    dropEndWhile p (text ++ ends) = text := by
  have back : ∀ c ∈ ends.reverse, p c = true := fun c member => within c (List.mem_reverse.1 member)
  rw [dropEndWhile, List.reverse_append, dropWhile_append back, List.reverse_reverse]
  intro c head
  rw [List.head?_reverse] at head
  exact stop c head

theorem exists_ends (p : Char → Bool) (text : List Char) :
    ∃ ends, text = dropEndWhile p text ++ ends ∧ ∀ c ∈ ends, p c = true := by
  obtain ⟨run, split, within, _⟩ := exists_run p text.reverse
  refine ⟨run.reverse, ?_, fun c member => within c (List.mem_reverse.1 member)⟩
  rw [dropEndWhile, ← List.reverse_append, ← split, List.reverse_reverse]

theorem exists_of_append_eq {first second front back : List Char} {c : Char}
    (absent : c ∉ second) (same : first ++ second = front ++ c :: back) :
    ∃ inner, first = front ++ c :: inner ∧ back = inner ++ second := by
  rcases List.append_eq_append_iff.1 same with ⟨more, rfl, behind⟩ | ⟨more, rfl, behind⟩
  · exact absurd (behind ▸ List.mem_append_right more List.mem_cons_self) absent
  · cases more with
    | nil =>
      rw [List.nil_append] at behind
      exact absurd (behind ▸ List.mem_cons_self) absent
    | cons d inner =>
      obtain ⟨rfl, rfl⟩ := List.cons.inj behind
      exact ⟨inner, rfl, rfl⟩

theorem splitLines_ne_nil (text : List Char) : splitLines text ≠ [] := by
  cases text with
  | nil => simp [splitLines]
  | cons c text =>
    rw [splitLines]
    split
    · simp
    · split <;> simp

theorem splitLines_cons {c : Char} (noFeed : c ≠ '\n') {text line : List Char}
    {lines : List (List Char)} (split : splitLines text = line :: lines) :
    splitLines (c :: text) = (c :: line) :: lines := by
  rw [splitLines, if_neg noFeed, split]

theorem splitLines_append_cons (front rest : List Char) :
    splitLines (front ++ '\n' :: rest) = splitLines front ++ splitLines rest := by
  induction front with
  | nil => rfl
  | cons c front ih =>
    by_cases feed : c = '\n'
    · subst feed
      exact congrArg ([] :: ·) ih
    · obtain ⟨line, lines, split⟩ := List.exists_cons_of_ne_nil (splitLines_ne_nil front)
      rw [split] at ih
      rw [List.cons_append, splitLines_cons feed ih, splitLines_cons feed split]
      rfl

theorem splitLines_plain {line : List Char} (plain : '\n' ∉ line) : splitLines line = [line] := by
  induction line with
  | nil => rfl
  | cons c line ih =>
    simp only [List.mem_cons, not_or] at plain
    obtain ⟨other, plain⟩ := plain
    exact splitLines_cons (Ne.symm other) (ih plain)

theorem splitLines_append {line : List Char} (plain : '\n' ∉ line) (rest : List Char) :
    splitLines (line ++ '\n' :: rest) = line :: splitLines rest := by
  rw [splitLines_append_cons, splitLines_plain plain, List.singleton_append]

theorem splitLines_concat {c : Char} (noFeed : c ≠ '\n') (text : List Char) :
    ∃ before line, splitLines text = before ++ [line] ∧
      splitLines (text ++ [c]) = before ++ [line ++ [c]] := by
  induction text with
  | nil => exact ⟨[], [], rfl, splitLines_plain (by simpa using Ne.symm noFeed)⟩
  | cons d text ih =>
    obtain ⟨before, line, split, longer⟩ := ih
    by_cases feed : d = '\n'
    · subst feed
      exact ⟨[] :: before, line, congrArg ([] :: ·) split, congrArg ([] :: ·) longer⟩
    · cases before with
      | nil => exact ⟨[], d :: line, splitLines_cons feed split, splitLines_cons feed longer⟩
      | cons first before =>
        exact ⟨(d :: first) :: before, line, splitLines_cons feed split,
          splitLines_cons feed longer⟩

theorem prefix_of_splitLines {text line : List Char} {lines : List (List Char)}
    (split : splitLines text = line :: lines) : line <+: text := by
  induction text generalizing line lines with
  | nil =>
    cases split
    exact List.prefix_rfl
  | cons c text ih =>
    by_cases feed : c = '\n'
    · subst feed
      cases split
      exact List.nil_prefix
    · obtain ⟨first, others, below⟩ := List.exists_cons_of_ne_nil (splitLines_ne_nil text)
      rw [splitLines_cons feed below] at split
      cases split
      exact List.cons_prefix_cons.2 ⟨rfl, ih below⟩

theorem infix_of_mem_splitLines {text line : List Char} (member : line ∈ splitLines text) :
    line <:+: text := by
  induction text with
  | nil => exact List.mem_singleton.1 member ▸ List.infix_rfl
  | cons c text ih =>
    have deeper : ∀ {line : List Char}, line <:+: text → line <:+: c :: text :=
      fun within => within.trans (List.suffix_cons c text).isInfix
    obtain ⟨first, others, below⟩ := List.exists_cons_of_ne_nil (splitLines_ne_nil text)
    by_cases feed : c = '\n'
    · subst feed
      rcases List.mem_cons.1 member with rfl | later
      · exact List.nil_infix
      · exact deeper (ih later)
    · have whole := splitLines_cons feed below
      rw [whole] at member
      rcases List.mem_cons.1 member with rfl | later
      · exact (prefix_of_splitLines whole).isInfix
      · exact deeper (ih (below ▸ List.mem_cons_of_mem first later))

theorem dropReturn_of_last {line : List Char} (last : line.getLast? ≠ some '\r') :
    dropReturn line = line := by
  simp [dropReturn, last]

theorem lines_append {line : List Char} (plain : '\n' ∉ line) (last : line.getLast? ≠ some '\r')
    (rest : List Char) : lines (line ++ '\n' :: rest) = line :: lines rest := by
  simp only [lines, splitLines_append plain, List.map_cons, dropReturn_of_last last]

end Text
end MetricGateway
