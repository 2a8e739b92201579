import MetricGateway.Proofs.Exposition.EndMark
import MetricGateway.Proofs.Exposition.StandsIn
import MetricGateway.Proofs.Text.Scan

/- What an OpenMetrics document and the text behind it are, line by line, once they are joined: the
   lines of both, and the end mark on a line of its own. Only a document without any line leaves an
   empty one where its lines would be. -/
namespace MetricGateway

/-- The lines of a text, without the line endings behind them. A line feed ends a line, so that
    behind the last one there is no line. -/
def linesOf (text : List Char) : List (List Char) :=
  let pieces := Text.splitLines text
  (if pieces.getLast? = some [] then pieces.dropLast else pieces).map trimLineEndings

def filledLines (text : List Char) : List (List Char) := (linesOf text).rdropWhile List.isEmpty

/-- The lines of a document without its end mark, and without the empty ones before that. -/
def bodyLines (data : List Char) : List (List Char) :=
  let lines := filledLines data
  if lines.getLast? = some endMark then lines.dropLast.rdropWhile List.isEmpty else lines

section Filled

theorem filledLines_eq (text : List Char) :
    filledLines text = ((Text.splitLines text).map trimLineEndings).rdropWhile List.isEmpty := by
  -- All pieces may be looked at, since an empty one at the end does not count.
  unfold filledLines linesOf
  dsimp only
  split
  · rename_i last
    have whole : Text.splitLines text = (Text.splitLines text).dropLast ++ [[]] := by
      rw [List.dropLast_append_getLast?]
      exact last
    rw [whole, List.dropLast_concat, List.map_append]
    exact (List.rdropWhile_concat_pos _ _ _ rfl).symm
  · rfl

theorem filledLines_nil : filledLines [] = [] := by decide

theorem filledLines_return (text : List Char) :
    filledLines (text ++ ['\r']) = filledLines text := by
  obtain ⟨before, line, split, longer⟩ := Text.splitLines_concat (c := '\r') (by decide) text
  have ends : LineEndings ['\r'] := by
    intro c member
    exact List.mem_singleton.1 member ▸ rfl
  rw [filledLines_eq, filledLines_eq, split, longer, List.map_append, List.map_append,
    List.map_singleton, List.map_singleton, trimLineEndings_append ends]

theorem filledLines_feed (text : List Char) :
    filledLines (text ++ ['\n']) = filledLines text := by
  have nothing : Text.splitLines [] = [[]] := rfl
  rw [filledLines_eq, filledLines_eq, Text.splitLines_append_cons, nothing, List.map_append]
  exact List.rdropWhile_concat_pos _ _ _ rfl

theorem filledLines_append {ends : List Char} (endings : LineEndings ends) (text : List Char) :
    filledLines (text ++ ends) = filledLines text := by
  induction ends generalizing text with
  | nil => rw [List.append_nil]
  | cons c ends ih =>
    have later := ih (fun d member => endings d (List.mem_cons_of_mem c member)) (text ++ [c])
    rw [List.append_assoc, List.singleton_append] at later
    have ending := endings c List.mem_cons_self
    simp only [Text.isLineEnding, Bool.or_eq_true, beq_iff_eq] at ending
    rcases ending with rfl | rfl
    · rw [later, filledLines_return]
    · rw [later, filledLines_feed]

theorem filledLines_trimmed (text : List Char) :
    filledLines (trimLineEndings text) = filledLines text := by
  obtain ⟨ends, split, endings⟩ := exists_lineEndings text
  rw [← filledLines_append endings (trimLineEndings text), ← split]

theorem isLineEnding_of_trimmed {init : List Char} {c : Char}
    (trimmed : trimLineEndings (init ++ [c]) = init ++ [c]) : Text.isLineEnding c = false := by
  cases ending : Text.isLineEnding c with
  | false => rfl
  | true =>
    have endings : LineEndings [c] := fun d member => List.mem_singleton.1 member ▸ ending
    rw [trimLineEndings_append endings] at trimmed
    have short := (trimLineEndings_within init).length_le
    rw [trimmed, List.length_append, List.length_singleton] at short
    omega

theorem filledLines_of_trimmed {text : List Char} (trimmed : trimLineEndings text = text)
    (filled : text ≠ []) :
    filledLines text = (Text.splitLines text).map trimLineEndings := by
  rcases List.eq_nil_or_concat text with rfl | ⟨init, c, rfl⟩
  · exact absurd rfl filled
  · rw [List.concat_eq_append] at trimmed ⊢
    have other := isLineEnding_of_trimmed trimmed
    have noFeed : c ≠ '\n' := by
      rintro rfl
      cases other
    obtain ⟨before, line, _, longer⟩ := Text.splitLines_concat noFeed init
    have own : trimLineEndings [c] = [c] := by
      simp [trimLineEndings, Text.dropEndWhile, other]
    have last : trimLineEndings (line ++ [c]) = line ++ [c] := by
      rw [trimLineEndings_behind ⟨c, List.mem_singleton_self c, other⟩, own]
    rw [filledLines_eq, longer, List.map_append, List.map_singleton, last]
    exact List.rdropWhile_concat_neg _ _ _ (by simp)

theorem mem_filledLines {text line : List Char} (member : line ∈ filledLines text) :
    ∃ piece ∈ Text.splitLines text, trimLineEndings piece = line := by
  rw [filledLines_eq] at member
  exact List.mem_map.1 ((List.rdropWhile_prefix _ _).subset member)

theorem filledLines_marked {front : List Char} (ends : front = [] ∨ front.getLast? = some '\n') :
    ∃ lines, filledLines (front ++ endMark) = lines ++ [endMark] ∧
      lines.rdropWhile List.isEmpty = filledLines front := by
  rcases ends with rfl | feed
  · exact ⟨[], by decide, by decide⟩
  · obtain ⟨init, rfl⟩ := List.getLast?_eq_some_iff.1 feed
    have mark : Text.splitLines endMark = [endMark] := by decide
    have own : trimLineEndings endMark = endMark := by decide
    refine ⟨(Text.splitLines init).map trimLineEndings, ?_, ?_⟩
    · rw [List.append_assoc, List.singleton_append, filledLines_eq,
        Text.splitLines_append_cons, mark, List.map_append, List.map_singleton, own]
      exact List.rdropWhile_concat_neg _ _ _ (by decide)
    · rw [filledLines_feed, filledLines_eq]

theorem endMark_notMem_filledLines {text : List Char}
    (unmarked : ¬ endMark <:+: trimLineEndings text) : endMark ∉ filledLines text := by
  intro member
  rw [← filledLines_trimmed] at member
  obtain ⟨piece, own, cut⟩ := mem_filledLines member
  have within := (trimLineEndings_within piece).isInfix
  rw [cut] at within
  exact unmarked (within.trans (Text.infix_of_mem_splitLines own))

end Filled

theorem Framed.bodyLines_eq {data : List Char} (framed : Framed data) :
    bodyLines data = filledLines (withoutEndMark data) := by
  have same : filledLines data = filledLines (trimLineEndings data) :=
    (filledLines_trimmed data).symm
  rcases framed with absent | ⟨front, trimmed, ends, _⟩
  · have unmarked : (filledLines data).getLast? ≠ some endMark := fun last =>
      endMark_notMem_filledLines absent (List.mem_of_mem_getLast? last)
    rw [withoutEndMark_unmarked absent, bodyLines, if_neg unmarked, same]
  · obtain ⟨lines, whole, before⟩ := filledLines_marked ends
    rw [← trimmed, ← same] at whole
    rw [withoutEndMark_marked trimmed, filledLines_trimmed, bodyLines, whole,
      List.getLast?_concat, if_pos rfl, List.dropLast_concat, before]

theorem trimLineEndings_withoutEndMark (data : List Char) :
    trimLineEndings (withoutEndMark data) = withoutEndMark data :=
  trimLineEndings_trimmed _

theorem linesOf_framedWith (body text : List Char) :
    linesOf (framedWith body text) =
      (Text.splitLines body).map trimLineEndings ++
        ((Text.splitLines text).map trimLineEndings ++ [endMark]) := by
  have mark : Text.splitLines (endMark ++ ['\n']) = [endMark] ++ [[]] := by decide
  have own : trimLineEndings endMark = endMark := by decide
  have pieces : Text.splitLines (framedWith body text) =
      (Text.splitLines body ++ (Text.splitLines text ++ [endMark])) ++ [[]] := by
    rw [framedWith, Text.splitLines_append_cons, Text.splitLines_append_cons, mark]
    simp
  unfold linesOf
  dsimp only
  rw [pieces, List.getLast?_concat, if_pos rfl, List.dropLast_concat, List.map_append,
    List.map_append, List.map_singleton, own]

theorem filledLines_eq_nil_iff {text : List Char} (trimmed : trimLineEndings text = text) :
    filledLines text = [] ↔ text = [] := by
  constructor
  · intro empty
    by_contra filled
    rw [filledLines_of_trimmed trimmed filled, List.map_eq_nil_iff] at empty
    exact Text.splitLines_ne_nil text empty
  · rintro rfl
    exact filledLines_nil

theorem Filled.ne_nil {text : List Char} (filled : Filled text) : text ≠ [] := by
  rintro rfl
  obtain ⟨c, member, _⟩ := filled
  cases member

/-- Joining keeps the lines of a document and of the text behind it, and ends in the end mark, if
    the document has a line. If it has none, an empty line comes first. -/
theorem every_line_kept_iff {data additional : String} (framed : Framed data.toList)
    (filled : Filled additional.toList) :
    let joined := ((Page.mk data .openMetrics100).append additional).toList
    let kept := bodyLines data.toList
    let added := filledLines additional.toList
    (linesOf joined = kept ++ (added ++ [endMark]) ↔ kept ≠ []) ∧
      (kept = [] → linesOf joined = [] :: (added ++ [endMark])) := by
  intro joined kept added
  have body := trimLineEndings_withoutEndMark data.toList
  have text : added =
      (Text.splitLines (trimLineEndings additional.toList)).map trimLineEndings := by
    rw [← filledLines_of_trimmed (trimLineEndings_trimmed _) filled.trimmed.ne_nil]
    exact (filledLines_trimmed _).symm
  have lines : linesOf joined =
      (Text.splitLines (withoutEndMark data.toList)).map trimLineEndings ++
        (added ++ [endMark]) := by
    rw [text, ← linesOf_framedWith, ← toList_append_openMetrics filled]
  have empty : kept = [] → linesOf joined = [] :: (added ++ [endMark]) := by
    intro bare
    have nothing := (filledLines_eq_nil_iff body).1 (framed.bodyLines_eq.symm.trans bare)
    rw [lines, nothing]
    rfl
  refine ⟨⟨fun whole bare => ?_, fun lined => ?_⟩, empty⟩
  · rw [empty bare, bare, List.nil_append] at whole
    have longer := congrArg List.length whole
    rw [List.length_cons] at longer
    omega
  · have own : kept = filledLines (withoutEndMark data.toList) := framed.bodyLines_eq
    rw [own, Ne, filledLines_eq_nil_iff body] at lined
    rw [lines, own, filledLines_of_trimmed body lined]

/-- Empty lines at the ends of document and text are gone, and one within is not. -/
theorem lines_kept_between_returns :
    Framed "a 1\r\n\r\n# EOF\n".toList ∧ Filled "\nb 2\r\n\n".toList ∧
      linesOf ((Page.mk "a 1\r\n\r\n# EOF\n" .openMetrics100).append "\nb 2\r\n\n").toList =
        ["a 1".toList, [], "b 2".toList, "# EOF".toList] := by
  have framed : Framed "a 1\r\n\r\n# EOF\n".toList :=
    .inr ⟨"a 1\r\n\r\n".toList, by decide, .inr (by decide), occurrences_eq_zero.1 (by decide)⟩
  have filled : Filled "\nb 2\r\n\n".toList := ⟨'b', by decide, by decide⟩
  have kept : bodyLines "a 1\r\n\r\n# EOF\n".toList = ["a 1".toList] := by decide
  have added : filledLines "\nb 2\r\n\n".toList = [[], "b 2".toList] := by decide
  have whole := (every_line_kept_iff framed filled).1.2 (kept ▸ List.cons_ne_nil _ _)
  rw [kept, added] at whole
  exact ⟨framed, filled, whole⟩

theorem empty_document_leaves_line :
    Framed "# EOF\n".toList ∧ Filled "up 1\n".toList ∧
      linesOf ((Page.mk "# EOF\n" .openMetrics100).append "up 1\n").toList =
        [[], "up 1".toList, "# EOF".toList] ∧
      bodyLines "# EOF\n".toList ++ (filledLines "up 1\n".toList ++ [endMark]) =
        ["up 1".toList, "# EOF".toList] := by
  have framed : Framed "# EOF\n".toList :=
    .inr ⟨[], by decide, .inl rfl, occurrences_eq_zero.1 (by decide)⟩
  exact ⟨framed, ⟨'u', by decide, by decide⟩, by decide, by decide⟩

end MetricGateway
