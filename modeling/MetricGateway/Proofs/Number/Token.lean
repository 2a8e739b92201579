import MetricGateway.Number.Decimal
import MetricGateway.Proofs.Text.Scan

/- What is read as a sample value holds no blank and no line ending, so that it can stand in a
   line of text. -/
namespace MetricGateway
namespace Decimal

def isTokenChar (c : Char) : Bool := Text.isAlphanumeric c || c == '+' || c == '-' || c == '.'

theorem isTokenChar_of_isDigit {c : Char} (digit : c.isDigit = true) : isTokenChar c = true := by
  simp [isTokenChar, Text.isAlphanumeric, digit]

theorem mem_takeSign {text : List Char} {c : Char} (member : c ∈ text) :
    isTokenChar c = true ∨ c ∈ (takeSign text).2 := by
  unfold takeSign
  split
  · rcases List.mem_cons.1 member with rfl | rest
    · exact Or.inl (by decide)
    · exact Or.inr rest
  · rcases List.mem_cons.1 member with rfl | rest
    · exact Or.inl (by decide)
    · exact Or.inr rest
  · exact Or.inr member

theorem mem_takeFraction {text : List Char} {c : Char} (member : c ∈ text) :
    isTokenChar c = true ∨ c ∈ (takeFraction text).2 := by
  unfold takeFraction
  split
  · rcases List.mem_cons.1 member with rfl | rest
    · exact Or.inl (by decide)
    · exact (Text.mem_span rest).imp_left isTokenChar_of_isDigit
  · exact Or.inr member

theorem isTokenChar_of_exponent {text : List Char} {e : Int} (read : exponent? text = some e)
    {c : Char} (member : c ∈ text) : isTokenChar c = true := by
  cases text with
  | nil => cases member
  | cons mark rest =>
    simp only [exponent?, Option.ite_none_right_eq_some, Bool.and_eq_true, Bool.or_eq_true,
      beq_iff_eq] at read
    obtain ⟨⟨⟨marked, _⟩, digits⟩, _⟩ := read
    rcases List.mem_cons.1 member with rfl | inside
    · rcases marked with rfl | rfl <;> decide
    · rcases mem_takeSign inside with sign | digit
      · exact sign
      · exact isTokenChar_of_isDigit (List.all_eq_true.1 digits c digit)

theorem isTokenChar_of_number {token : List Char} {v : Double} (read : number? token = some v)
    {c : Char} (member : c ∈ token) : isTokenChar c = true := by
  simp only [number?] at read
  split at read
  · cases read
  · obtain ⟨e, exponent, _⟩ := Option.map_eq_some_iff.1 read
    rcases mem_takeSign member with sign | unsigned
    · exact sign
    · rcases Text.mem_span (p := Char.isDigit) unsigned with digit | behind
      · exact isTokenChar_of_isDigit digit
      · rcases mem_takeFraction behind with fraction | tail
        · exact fraction
        · exact isTokenChar_of_exponent exponent tail

theorem isTokenChar_of_sampleValue {token : List Char} {v : Double}
    (read : sampleValue? token = some v) {c : Char} (member : c ∈ token) :
    isTokenChar c = true := by
  unfold sampleValue? at read
  split at read
  · rename_i word
    simp only [Bool.or_eq_true, decide_eq_true_eq] at word
    rcases word with rfl | rfl
    · exact List.all_eq_true.1 (by decide : "NaN".toList.all isTokenChar = true) c member
    · exact List.all_eq_true.1 (by decide : "Nan".toList.all isTokenChar = true) c member
  · split at read
    · rename_i word
      subst word
      exact List.all_eq_true.1 (by decide : "+Inf".toList.all isTokenChar = true) c member
    · split at read
      · rename_i word
        subst word
        exact List.all_eq_true.1 (by decide : "-Inf".toList.all isTokenChar = true) c member
      · exact isTokenChar_of_number read member

end Decimal
end MetricGateway
