import MetricGateway.Exposition.Framing
import Mathlib.Data.List.DropRight
import Mathlib.Data.List.Infix

/- Where the end mark of an OpenMetrics document stands once a text has been put behind it. No line
   feed is part of the mark, so that it is found line by line; the texts that are joined have none,
   and the one that is added is the document's last line. What is joined is a document again. -/
namespace MetricGateway

section Occurrences

variable {mark : List Char} {sep : Char}

def occurrences (mark text : List Char) : Nat := text.tails.countP mark.isPrefixOf

theorem occurrences_cons (c : Char) (text : List Char) :
    occurrences mark (c :: text) =
      occurrences mark text + if mark <+: c :: text then 1 else 0 := by
  simp only [occurrences, List.tails_cons, List.countP_cons, List.isPrefixOf_iff_prefix]

theorem occurrences_nil (filled : mark ≠ []) : occurrences mark [] = 0 := by
  simp [occurrences, filled]

theorem occurrences_eq_zero {text : List Char} : occurrences mark text = 0 ↔ ¬ mark <:+: text := by
  simp only [occurrences, List.countP_eq_zero, List.mem_tails, List.isPrefixOf_iff_prefix,
    List.infix_iff_prefix_suffix, not_exists, not_and]
  exact ⟨fun absent tail begins ends => absent tail ends begins,
    fun absent tail ends begins => absent tail begins ends⟩

theorem prefix_append_cons (apart : sep ∉ mark) {front rest : List Char} :
    mark <+: front ++ sep :: rest ↔ mark <+: front := by
  refine ⟨fun begins => ?_, fun begins => begins.trans (List.prefix_append _ _)⟩
  rcases List.prefix_or_prefix_of_prefix begins (List.prefix_append front (sep :: rest)) with
    within | ⟨more, same⟩
  · exact within
  · cases more with
    | nil => exact (same.symm.trans (List.append_nil front)) ▸ List.prefix_rfl
    | cons c more =>
      rw [← same, List.prefix_append_right_inj, List.cons_prefix_cons] at begins
      refine absurd ?_ apart
      rw [← same, ← begins.1]
      exact List.mem_append_right front List.mem_cons_self

theorem occurrences_append_cons (filled : mark ≠ []) (apart : sep ∉ mark) (front rest : List Char) :
    occurrences mark (front ++ sep :: rest) = occurrences mark front + occurrences mark rest := by
  induction front with
  | nil =>
    have away : ¬ mark <+: sep :: rest := by
      intro begins
      rw [← List.nil_append (sep :: rest), prefix_append_cons apart, List.prefix_nil] at begins
      exact filled begins
    rw [List.nil_append, occurrences_cons, occurrences_nil filled, if_neg away]
    omega
  | cons c front ih =>
    have here : mark <+: c :: front ++ sep :: rest ↔ mark <+: c :: front :=
      prefix_append_cons apart
    rw [List.cons_append] at here ⊢
    rw [occurrences_cons, occurrences_cons, ih, if_congr here rfl rfl]
    omega

end Occurrences

section Trimming

def LineEndings (ends : List Char) : Prop := ∀ c ∈ ends, Text.isLineEnding c = true

def Filled (text : List Char) : Prop := ∃ c ∈ text, Text.isLineEnding c = false

theorem trimLineEndings_append {ends : List Char} (endings : LineEndings ends) (text : List Char) :
    trimLineEndings (text ++ ends) = trimLineEndings text := by
  have reversed : ∀ c ∈ ends.reverse, Text.isLineEnding c = true :=
    fun c member => endings c (List.mem_reverse.1 member)
  simp only [trimLineEndings, Text.dropEndWhile, List.reverse_append,
    List.dropWhile_append_of_pos reversed]

theorem trimLineEndings_behind {text : List Char} (filled : Filled text) (front : List Char) :
    trimLineEndings (front ++ text) = front ++ trimLineEndings text := by
  obtain ⟨c, member, other⟩ := filled
  have left : (text.reverse.dropWhile Text.isLineEnding).isEmpty = false := by
    rw [List.isEmpty_eq_false_iff, Ne, List.dropWhile_eq_nil_iff]
    intro endings
    have ending := endings c (List.mem_reverse.2 member)
    rw [other] at ending
    cases ending
  simp [trimLineEndings, Text.dropEndWhile, List.dropWhile_append, left]

theorem trimLineEndings_within (text : List Char) : trimLineEndings text <+: text :=
  List.rdropWhile_prefix Text.isLineEnding text

theorem trimLineEndings_trimmed (text : List Char) :
    trimLineEndings (trimLineEndings text) = trimLineEndings text :=
  List.rdropWhile_idempotent Text.isLineEnding text

theorem Filled.trimmed {text : List Char} (filled : Filled text) :
    Filled (trimLineEndings text) := by
  obtain ⟨c, member, other⟩ := filled
  refine ⟨c, ?_, other⟩
  rw [trimLineEndings, Text.dropEndWhile, List.mem_reverse]
  rw [← List.mem_reverse, ← List.takeWhile_append_dropWhile (p := Text.isLineEnding)
    (l := text.reverse)] at member
  rcases List.mem_append.1 member with ending | rest
  · have ends := List.mem_takeWhile_imp ending
    rw [other] at ends
    cases ends
  · exact rest

end Trimming

theorem endMark_filled : Filled endMark := ⟨'F', by decide, by decide⟩

theorem trimLineEndings_endMark (front : List Char) :
    trimLineEndings (front ++ endMark) = front ++ endMark := by
  have own : trimLineEndings endMark = endMark := by decide
  rw [trimLineEndings_behind endMark_filled, own]

theorem withoutEndMark_marked {text front : List Char}
    (trimmed : trimLineEndings text = front ++ endMark) :
    withoutEndMark text = trimLineEndings front := by
  have before : Text.beforeEnd? endMark (front ++ endMark) = some front := by
    have ends : endMark.isSuffixOf (front ++ endMark) = true :=
      List.isSuffixOf_iff_suffix.2 (List.suffix_append _ _)
    rw [Text.beforeEnd?, if_pos ends, List.length_append, Nat.add_sub_cancel, List.take_left]
  simp only [withoutEndMark, trimmed, before, Option.getD_some]

theorem withoutEndMark_unmarked {text : List Char} (unmarked : ¬ endMark <:+: trimLineEndings text) :
    withoutEndMark text = trimLineEndings text := by
  have before : Text.beforeEnd? endMark (trimLineEndings text) = none := by
    rw [Text.beforeEnd?, if_neg]
    exact fun ends => unmarked (List.isSuffixOf_iff_suffix.1 ends).isInfix
  simp only [withoutEndMark, before, Option.getD_none, trimLineEndings_trimmed]

/-- Data of an OpenMetrics document: the end mark, if it is not missing, has the last line that is
    not empty for itself and stands nowhere else. -/
def Framed (data : List Char) : Prop :=
  ¬ endMark <:+: trimLineEndings data ∨
    ∃ front, trimLineEndings data = front ++ endMark ∧
      (front = [] ∨ front.getLast? = some '\n') ∧ ¬ endMark <:+: front

theorem Framed.unmarked {data : List Char} (framed : Framed data) :
    ¬ endMark <:+: withoutEndMark data := by
  rcases framed with unmarked | ⟨front, trimmed, _, unmarked⟩
  · rwa [withoutEndMark_unmarked unmarked]
  · rw [withoutEndMark_marked trimmed]
    exact fun within => unmarked (within.trans (trimLineEndings_within front).isInfix)

def framedWith (body text : List Char) : List Char :=
  body ++ '\n' :: (text ++ '\n' :: (endMark ++ ['\n']))

theorem toList_append_openMetrics {additional : String} (filled : Filled additional.toList)
    (data : String) :
    ((Page.mk data .openMetrics100).append additional).toList =
      framedWith (withoutEndMark data.toList) (trimLineEndings additional.toList) := by
  have given : additional ≠ "" := by
    rintro rfl
    obtain ⟨c, member, _⟩ := filled
    cases member
  rw [Page.append, if_neg given]
  exact String.toList_ofList

theorem occurrences_framedWith {body text : List Char} (before : ¬ endMark <:+: body)
    (behind : ¬ endMark <:+: text) : occurrences endMark (framedWith body text) = 1 := by
  have filled : endMark ≠ [] := by decide
  have apart : '\n' ∉ endMark := by decide
  have last : occurrences endMark (endMark ++ ['\n']) = 1 := by decide
  rw [framedWith, occurrences_append_cons filled apart, occurrences_append_cons filled apart, last,
    occurrences_eq_zero.2 before, occurrences_eq_zero.2 behind]

theorem withoutEndMark_framedWith (body : List Char) {text : List Char} (filled : Filled text) :
    withoutEndMark (framedWith body (trimLineEndings text)) =
      body ++ '\n' :: trimLineEndings text := by
  have feed : LineEndings ['\n'] := fun c member => List.mem_singleton.1 member ▸ rfl
  have whole : framedWith body (trimLineEndings text) =
      (body ++ '\n' :: trimLineEndings text) ++ ['\n'] ++ endMark ++ ['\n'] := by
    simp [framedWith]
  have marked : trimLineEndings (framedWith body (trimLineEndings text)) =
      (body ++ '\n' :: trimLineEndings text) ++ ['\n'] ++ endMark := by
    rw [whole, trimLineEndings_append feed, trimLineEndings_endMark]
  have split : body ++ '\n' :: trimLineEndings text = (body ++ ['\n']) ++ trimLineEndings text := by
    simp
  rw [withoutEndMark_marked marked, trimLineEndings_append feed, split,
    trimLineEndings_behind filled.trimmed, trimLineEndings_trimmed]

/-- The end mark of a document to which a text has been added stands there once, on the last line.
    How many line endings were behind document or text makes no difference, and a second text is
    added as if it had stood behind the first. -/
theorem end_mark_once_and_last {data a b : String} (framed : Framed data.toList)
    (filled : Filled a.toList) (unmarked : ¬ endMark <:+: a.toList) (filled' : Filled b.toList) :
    let joined := (Page.mk data .openMetrics100).append a
    occurrences endMark joined.toList = 1 ∧
      (∃ front, joined.toList = front ++ '\n' :: (endMark ++ ['\n'])) ∧
      (∀ ends ends' : String, LineEndings ends.toList → LineEndings ends'.toList →
        (Page.mk (data ++ ends) .openMetrics100).append (a ++ ends') = joined) ∧
      (Page.mk joined .openMetrics100).append b =
        (Page.mk data .openMetrics100).append
          (String.ofList (trimLineEndings a.toList) ++ "\n" ++ b) := by
  intro joined
  have text : joined.toList =
      framedWith (withoutEndMark data.toList) (trimLineEndings a.toList) :=
    toList_append_openMetrics filled data
  refine ⟨?_, ?_, ?_, ?_⟩
  · rw [text]
    exact occurrences_framedWith framed.unmarked fun within =>
      unmarked (within.trans (trimLineEndings_within a.toList).isInfix)
  · exact ⟨withoutEndMark data.toList ++ '\n' :: trimLineEndings a.toList, by
      rw [text, framedWith, List.append_assoc, List.cons_append]⟩
  · intro ends ends' endings endings'
    have more : Filled (a ++ ends').toList := by
      obtain ⟨c, member, other⟩ := filled
      exact ⟨c, by simp [member], other⟩
    have same : withoutEndMark (data ++ ends).toList = withoutEndMark data.toList := by
      rw [String.toList_append, withoutEndMark, trimLineEndings_append endings]
      rfl
    rw [← String.toList_inj, toList_append_openMetrics more, text, same, String.toList_append,
      trimLineEndings_append endings']
  · have behind : (String.ofList (trimLineEndings a.toList) ++ "\n" ++ b).toList =
        (trimLineEndings a.toList ++ ['\n']) ++ b.toList := by
      simp
    have more : Filled (String.ofList (trimLineEndings a.toList) ++ "\n" ++ b).toList := by
      obtain ⟨c, member, other⟩ := filled'
      exact ⟨c, by simp [member], other⟩
    rw [← String.toList_inj, toList_append_openMetrics filled', toList_append_openMetrics more, text,
      withoutEndMark_framedWith _ filled, behind, trimLineEndings_behind filled']
    simp [framedWith]

theorem end_mark_moves_twice :
    Framed "up 1\n\r\n# EOF\r\n\n".toList ∧ Filled "more 2\r\n".toList ∧
      ¬ endMark <:+: "more 2\r\n".toList ∧ Filled "\nlast 3\n".toList ∧
      occurrences endMark
        ((Page.mk "up 1\n\r\n# EOF\r\n\n" .openMetrics100).append "more 2\r\n").toList = 1 ∧
      (Page.mk ((Page.mk "up 1\n\r\n# EOF\r\n\n" .openMetrics100).append "more 2\r\n")
        .openMetrics100).append "\nlast 3\n" = "up 1\nmore 2\n\nlast 3\n# EOF\n" := by
  have framed : Framed "up 1\n\r\n# EOF\r\n\n".toList :=
    Or.inr ⟨"up 1\n\r\n".toList, by decide, Or.inr (by decide), occurrences_eq_zero.1 (by decide)⟩
  have filled : Filled "more 2\r\n".toList := ⟨'m', by decide, by decide⟩
  have unmarked : ¬ endMark <:+: "more 2\r\n".toList := occurrences_eq_zero.1 (by decide)
  have filled' : Filled "\nlast 3\n".toList := ⟨'l', by decide, by decide⟩
  obtain ⟨once, _, _, chained⟩ := end_mark_once_and_last framed filled unmarked filled'
  exact ⟨framed, filled, unmarked, filled', once, chained.trans (by decide)⟩

end MetricGateway
