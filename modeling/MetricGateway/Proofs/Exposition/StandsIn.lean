import MetricGateway.Proofs.Exposition.EndMark
import MetricGateway.Proofs.Text.Scan

/- Whether a document stands in a body. What is put behind a document leaves it whole but for its
   end: line endings and an end mark may be gone from there. -/
namespace MetricGateway

theorem exists_lineEndings (text : List Char) :
    ∃ ends, text = trimLineEndings text ++ ends ∧ LineEndings ends :=
  Text.exists_ends Text.isLineEnding text

/-- What a document may lose at its end: line endings, and an OpenMetrics document its end mark
    among these. -/
def Framing.Closing (framing : Framing) (rest : List Char) : Prop :=
  LineEndings rest ∨ framing = .openMetrics100 ∧
    ∃ front back, rest = front ++ (endMark ++ back) ∧ LineEndings front ∧ LineEndings back

theorem closing_withoutEndMark (text : List Char) :
    ∃ rest, text = withoutEndMark text ++ rest ∧ Framing.Closing .openMetrics100 rest := by
  obtain ⟨back, parts, behind⟩ := exists_lineEndings text
  by_cases marked : endMark <:+ trimLineEndings text
  · obtain ⟨body, same⟩ := marked
    obtain ⟨front, split, before⟩ := exists_lineEndings body
    refine ⟨front ++ (endMark ++ back), ?_, .inr ⟨rfl, front, back, rfl, before, behind⟩⟩
    rw [withoutEndMark_marked same.symm, ← List.append_assoc, ← split, ← List.append_assoc, same]
    exact parts
  · refine ⟨back, ?_, .inl behind⟩
    have missing : Text.beforeEnd? endMark (trimLineEndings text) = none := by
      rw [Text.beforeEnd?, if_neg]
      exact fun ends => marked (List.isSuffixOf_iff_suffix.1 ends)
    rw [withoutEndMark]
    rw [missing, Option.getD_none, trimLineEndings_trimmed]
    exact parts

namespace Page

def StandsIn (p : Page) (body : String) : Prop :=
  ∃ kept rest, p.data.toList = kept ++ rest ∧ p.framing.Closing rest ∧ kept <:+: body.toList

theorem standsIn_append (p : Page) (additional : String) : p.StandsIn (p.append additional) := by
  obtain ⟨data, framing⟩ := p
  have nothing : framing.Closing [] := .inl fun c member => nomatch member
  unfold append
  split
  · exact ⟨data.toList, [], (List.append_nil _).symm, nothing, List.infix_rfl⟩
  · cases framing with
    | text004 =>
      refine ⟨data.toList, [], (List.append_nil _).symm, nothing, ?_⟩
      rw [String.toList_append]
      exact (List.prefix_append _ _).isInfix
    | openMetrics100 =>
      obtain ⟨rest, parts, closing⟩ := closing_withoutEndMark data.toList
      refine ⟨_, rest, parts, closing, ?_⟩
      rw [String.toList_ofList]
      exact (List.prefix_append _ _).isInfix

theorem StandsIn.trimmed {data body : String} (stands : (Page.mk data .text004).StandsIn body) :
    trimLineEndings data.toList <:+: body.toList := by
  obtain ⟨kept, rest, parts, closing | ⟨other, _⟩, within⟩ := stands
  · have parts : data.toList = kept ++ rest := parts
    rw [parts, trimLineEndings_append closing]
    exact (trimLineEndings_within kept).isInfix.trans within
  · cases other

def letters (n : Nat) : Page := ⟨String.ofList (List.replicate n 'a'), .text004⟩

theorem StandsIn.length_le {n : Nat} {body : String} (stands : (letters n).StandsIn body) :
    n ≤ body.toList.length := by
  have whole : trimLineEndings (letters n).data.toList = List.replicate n 'a' := by
    rw [letters, String.toList_ofList, trimLineEndings, Text.dropEndWhile, List.reverse_replicate]
    cases n with
    | zero => rfl
    | succ n => rw [List.replicate_succ, List.dropWhile_cons_of_neg (by decide),
        ← List.replicate_succ, List.reverse_replicate]
  have inside : trimLineEndings (letters n).data.toList <:+: body.toList := StandsIn.trimmed stands
  have short := inside.length_le
  rw [whole, List.length_replicate] at short
  exact short

end Page

theorem appendTo_nothing (additional : String) :
    appendTo (some (Page.letters 0)) additional = additional := by
  have nothing : Page.letters 0 = ⟨"", .text004⟩ := rfl
  rw [appendTo, nothing, Page.append]
  split
  · rename_i empty
    exact empty.symm
  · exact String.empty_append

end MetricGateway
