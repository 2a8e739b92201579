import MetricGateway.Proofs.Number.Token
import Mathlib.Algebra.Order.Ring.Nat
import Mathlib.Tactic.Positivity.Basic
import Mathlib.Tactic.Ring

/- The written form of a double is read back as the same double: its digits stand for a decimal that
   reads back, be it a short one that the search has found or the exact value. -/
namespace MetricGateway
namespace Double

theorem length_repr (n : Nat) : (Nat.repr n).length = (Nat.toDigits 10 n).length := by
  rw [Nat.repr_eq_ofList_toDigits, String.length_ofList]

theorem length_toDigits_mul_pow {digits : Nat} (filled : digits ≠ 0) (zeros : Nat) :
    (Nat.toDigits 10 (digits * 10 ^ zeros)).length = (Nat.toDigits 10 digits).length + zeros := by
  induction zeros with
  | zero => simp
  | succ zeros ih =>
    have positive : 0 < digits * 10 ^ zeros := by positivity
    have longer := Nat.toDigits_append_toDigits (b := 10) (d := 0) (by decide) positive (by decide)
    have next : digits * 10 ^ (zeros + 1) = 10 * (digits * 10 ^ zeros) + 0 := by ring
    rw [next, ← longer, List.length_append, ih]
    rfl

theorem ofDecimal_mul_pow (negative : Bool) {digits : Nat} (filled : digits ≠ 0) (zeros : Nat) :
    ofDecimal negative (digits * 10 ^ zeros) 0 = ofDecimal negative digits zeros := by
  have product : digits * 10 ^ zeros ≠ 0 := by positivity
  have scale : (0 : Int) + (Nat.toDigits 10 (digits * 10 ^ zeros)).length =
      (zeros : Int) + (Nat.toDigits 10 digits).length := by
    rw [length_toDigits_mul_pow filled]
    omega
  have whole : (0 : Int) ≤ zeros := Int.natCast_nonneg zeros
  simp [ofDecimal, length_repr, scale, filled]

theorem nearest_negative (negative : Bool) {num den units : Nat} {fits : Representable units}
    (read : nearest false num den = .finite false units fits) :
    nearest negative num den = .finite negative units fits := by
  unfold nearest at read ⊢
  dsimp only at read ⊢
  split at read
  · rename_i bounded
    cases read
    rw [dif_pos bounded]
  · cases read

theorem ofDecimal_negative (negative : Bool) {digits units : Nat} {exponent : Int}
    {fits : Representable units}
    (read : ofDecimal false digits exponent = .finite false units fits) :
    ofDecimal negative digits exponent = .finite negative units fits := by
  unfold ofDecimal at read ⊢
  dsimp only at read ⊢
  split at read
  · rename_i zero
    cases read
    rw [if_pos zero]
  rename_i filled
  split at read
  · cases read
  rename_i bounded
  split at read
  · rename_i small
    cases read
    rw [if_neg filled, if_neg bounded, if_pos small]
  rename_i large
  rw [if_neg filled, if_neg bounded, if_neg large]
  split at read
  · rename_i whole
    rw [if_pos whole]
    exact nearest_negative negative read
  · rename_i fraction
    rw [if_neg fraction]
    exact nearest_negative negative read

theorem nearestQuotient_mul {den : Nat} (positive : 0 < den) (q : Nat) :
    nearestQuotient (q * den) den = q := by
  simp [nearestQuotient, Nat.mul_div_cancel q positive, positive]

theorem nearest_mul (negative : Bool) {units den : Nat} (positive : 0 < den)
    (fits : Representable units) :
    nearest negative (units * den) den = .finite negative units fits := by
  have quotient : units * den / den = units := Nat.mul_div_cancel units positive
  have step : 0 < spacing units := by
    unfold spacing
    exact Nat.pow_pos (by decide)
  have same : nearestQuotient (units * den) (den * spacing units) * spacing units = units := by
    obtain ⟨q, whole⟩ := fits.onGrid
    have shape : units * den = q * (den * spacing units) := by
      conv_lhs => rw [whole]
      ring
    rw [shape, nearestQuotient_mul (Nat.mul_pos positive step), Nat.mul_comm]
    exact whole.symm
  simp only [nearest, quotient, same, fits.bounded, dite_true]

end Double

namespace Decimal

open Double

section Notation

theorem digits_toDigits (n : Nat) : ∀ c ∈ Nat.toDigits 10 n, c.isDigit = true := by
  intro c member
  exact Nat.isDigit_of_mem_toDigits (by decide) (by decide) member

theorem digits_replicate (n : Nat) : ∀ c ∈ List.replicate n '0', c.isDigit = true := by
  intro c member
  rw [List.eq_of_mem_replicate member]
  decide

theorem digits_append {text more : List Char} (numeric : ∀ c ∈ text, c.isDigit = true)
    (others : ∀ c ∈ more, c.isDigit = true) : ∀ c ∈ text ++ more, c.isDigit = true := by
  intro c member
  rcases List.mem_append.1 member with inside | behind
  · exact numeric c inside
  · exact others c behind

theorem takeSign_signText (negative : Bool) {digits : List Char} (filled : digits ≠ [])
    (numeric : ∀ c ∈ digits, c.isDigit = true) (rest : List Char) :
    takeSign (signText negative (digits ++ rest)) = (negative, digits ++ rest) := by
  cases negative with
  | true => rfl
  | false =>
    cases digits with
    | nil => exact absurd rfl filled
    | cons c digits =>
      -- A digit stands first, so that there is no sign to take off but the one that has been put on.
      have digit := numeric c List.mem_cons_self
      unfold signText takeSign
      split
      · rename_i same
        cases same
        exact absurd digit (by decide)
      · rename_i same
        cases same
        exact absurd digit (by decide)
      · rfl

theorem value_toDigits (n : Nat) : value (Nat.toDigits 10 n) = n := Nat.ofDigitChars_ten_toDigits

theorem value_zeros (zeros : Nat) (digits : List Char) :
    value (List.replicate zeros '0' ++ digits) = value digits := by
  have parted : Nat.ofDigitChars 10 (List.replicate zeros '0' ++ digits) 0 =
      Nat.ofDigitChars 10 digits 0 := by
    rw [Nat.ofDigitChars_append, Nat.ofDigitChars_replicate_zero, Nat.mul_zero]
  exact parted

theorem value_mul_pow (digits : List Char) (zeros : Nat) :
    value (digits ++ List.replicate zeros '0') = value digits * 10 ^ zeros := by
  have parted : Nat.ofDigitChars 10 (digits ++ List.replicate zeros '0') 0 =
      10 ^ zeros * Nat.ofDigitChars 10 digits 0 := by
    rw [Nat.ofDigitChars_append, Nat.ofDigitChars_replicate_zero]
  exact parted.trans (Nat.mul_comm ..)

theorem number?_whole (negative : Bool) {digits : List Char} (filled : digits ≠ [])
    (numeric : ∀ c ∈ digits, c.isDigit = true) :
    number? (signText negative digits) = some (ofDecimal negative (value digits) 0) := by
  have sign := takeSign_signText negative filled numeric []
  rw [List.append_nil] at sign
  simp only [number?, sign, Text.span_all numeric]
  simp [takeFraction, exponent?, filled]

theorem number?_point (negative : Bool) {digits fraction : List Char} (filled : digits ≠ [])
    (numeric : ∀ c ∈ digits, c.isDigit = true) (behind : ∀ c ∈ fraction, c.isDigit = true) :
    number? (signText negative (digits ++ '.' :: fraction)) =
      some (ofDecimal negative (value (digits ++ fraction)) (-(fraction.length : Int))) := by
  have sign := takeSign_signText negative filled numeric ('.' :: fraction)
  have stop : ∀ c, ('.' :: fraction).head? = some c → c.isDigit = false := by
    intro c head
    cases head
    decide
  simp only [number?, sign, Text.span_append numeric stop, takeFraction, Text.span_all behind]
  simp [exponent?, filled]

theorem number?_positional (negative : Bool) {digits : Nat} (filled : digits ≠ 0) (exponent : Int) :
    number? (signText negative (positional digits exponent)) =
      some (ofDecimal negative digits exponent) := by
  have text := digits_toDigits digits
  have some_digit : Nat.toDigits 10 digits ≠ [] := Nat.toDigits_ne_nil
  unfold positional
  dsimp only
  split
  · rename_i whole
    obtain ⟨zeros, rfl⟩ := Int.eq_ofNat_of_zero_le whole
    rw [number?_whole negative (by simp [some_digit]) (digits_append text (digits_replicate _)),
      value_mul_pow, value_toDigits, Int.toNat_natCast, ofDecimal_mul_pow negative filled]
  · rename_i fraction
    have places : -((exponent.natAbs : Nat) : Int) = exponent := by omega
    split
    · rename_i inside
      have front : (Nat.toDigits 10 digits).take
          ((Nat.toDigits 10 digits).length - exponent.natAbs) ≠ [] := by
        intro empty
        have length := congrArg List.length empty
        simp only [List.length_take, List.length_nil] at length
        omega
      have behind : ((Nat.toDigits 10 digits).drop
          ((Nat.toDigits 10 digits).length - exponent.natAbs)).length = exponent.natAbs := by
        rw [List.length_drop]
        omega
      rw [number?_point negative front (fun c member => text c (List.mem_of_mem_take member))
        (fun c member => text c (List.mem_of_mem_drop member)), List.take_append_drop,
        value_toDigits, behind, places]
    · rename_i beyond
      have behind : (List.replicate (exponent.natAbs - (Nat.toDigits 10 digits).length) '0' ++
          Nat.toDigits 10 digits).length = exponent.natAbs := by
        rw [List.length_append, List.length_replicate]
        omega
      have point := number?_point negative (List.cons_ne_nil '0' []) (digits_replicate 1)
        (digits_append (digits_replicate (exponent.natAbs - (Nat.toDigits 10 digits).length)) text)
      have zero : value (['0'] ++ (List.replicate
          (exponent.natAbs - (Nat.toDigits 10 digits).length) '0' ++ Nat.toDigits 10 digits)) =
            digits := by
        have first := value_zeros (exponent.natAbs - (Nat.toDigits 10 digits).length + 1)
          (Nat.toDigits 10 digits)
        rw [value_toDigits] at first
        exact first
      rw [behind, zero, places] at point
      exact point

end Notation

section Shortest

theorem ofDecimal_mul {units factor : Nat} {exponent : Int} (places bits low high : Nat)
    (filled : units ≠ 0) (fits : Representable units) (same : exponent = -(places : Int))
    (power : factor * unitsPerOne = Nat.pow 10 places) (below : units < Nat.pow 2 bits)
    (least : Nat.pow 10 (low + 1) ≤ factor)
    (most : Nat.pow 2 bits * factor < Nat.pow 10 (high + 1)) (negative : 0 < places)
    (small : places ≤ low + 327) (large : high ≤ places + 309) :
    ofDecimal false (units * factor) exponent = .finite false units fits := by
  subst same
  have positive : 0 < factor := Nat.lt_of_lt_of_le (Nat.pow_pos (by decide)) least
  have long : low + 1 < (Nat.toDigits 10 (units * factor)).length := by
    refine Nat.lt_of_not_le fun short => ?_
    have bound := (Nat.length_toDigits_le_iff (by decide) (Nat.succ_pos low)).1 short
    have more : factor ≤ units * factor := Nat.le_mul_of_pos_left _ (Nat.pos_of_ne_zero filled)
    exact absurd (Nat.lt_of_le_of_lt more bound) (Nat.not_lt.2 least)
  have short : (Nat.toDigits 10 (units * factor)).length ≤ high + 1 := by
    refine (Nat.length_toDigits_le_iff (by decide) (Nat.succ_pos high)).2 ?_
    exact Nat.lt_trans (Nat.mul_lt_mul_of_pos_right below positive) most
  have ratio := nearest_mul false (Nat.pow_pos (by decide : 0 < 10) : 0 < Nat.pow 10 places) fits
  unfold ofDecimal
  dsimp only
  rw [length_repr, if_neg (Nat.mul_ne_zero filled (Nat.ne_of_gt positive)), if_neg (by omega),
    if_neg (by omega), if_neg (by omega), ofRatio, Int.natAbs_neg, Int.natAbs_natCast,
    Nat.mul_assoc, power]
  exact ratio

theorem ofDecimal_exact {units : Nat} (filled : units ≠ 0) (fits : Representable units) :
    ofDecimal false (units * Nat.pow 5 1074) (-1074) = .finite false units fits := by
  have below (bits : Nat) (bounded : Nat.log2 units < bits) : units < Nat.pow 2 bits :=
    (Nat.log2_lt filled).1 bounded
  exact ofDecimal_mul 1074 2098 747 1383 filled fits (by decide) (by decide +kernel)
    (below 2098 fits.bounded) (by decide +kernel) (by decide +kernel) (by decide) (by decide)
    (by decide)

theorem shortest_cases (units : Nat) :
    shortest units = (units * Nat.pow 5 1074, -1074) ∨ readsBack units (shortest units) = true := by
  unfold shortest
  dsimp only
  generalize found : (List.range 17).findSome? (fun n =>
      (neighbours units (n + 1)).find? (readsBack units)) = first
  cases first with
  | none => exact .inl (Option.getD_none ..)
  | some candidate =>
    obtain ⟨n, _, first⟩ := List.exists_of_findSome?_eq_some found
    exact .inr (List.find?_some first)

theorem ofDecimal_shortest {units : Nat} (filled : units ≠ 0) (fits : Representable units) :
    ofDecimal false (shortest units).1 (shortest units).2 = .finite false units fits := by
  have found := shortest_cases units
  generalize shortest units = candidate at found ⊢
  obtain ⟨digits, exponent⟩ := candidate
  dsimp only
  rcases found with exact_value | back
  · obtain ⟨first, second⟩ := Prod.mk.inj exact_value
    rw [first, second]
    exact ofDecimal_exact filled fits
  · unfold readsBack at back
    split at back
    · rename_i read
      cases of_decide_eq_true back
      exact read
    · cases back

theorem number?_magnitudeText (negative : Bool) {units : Nat} (fits : Representable units) :
    number? (signText negative (magnitudeText units)) = some (.finite negative units fits) := by
  unfold magnitudeText
  split
  · rename_i zero
    subst zero
    exact number?_whole negative (List.cons_ne_nil '0' []) (digits_replicate 1)
  · rename_i filled
    have read := ofDecimal_shortest filled fits
    have digits : (shortest units).1 ≠ 0 := by
      intro zero
      rw [zero] at read
      cases read
      exact filled rfl
    rw [number?_positional negative digits, ofDecimal_negative negative read]

theorem sampleValue?_of_number {token : List Char} {v : Double} (read : number? token = some v) :
    sampleValue? token = some v := by
  have words : ∀ word ∈ ["NaN".toList, "Nan".toList, "+Inf".toList, "-Inf".toList],
      number? word = none := by decide
  have other : ∀ word ∈ ["NaN".toList, "Nan".toList, "+Inf".toList, "-Inf".toList],
      token ≠ word := by
    rintro word member rfl
    rw [words token member] at read
    cases read
  simp only [List.mem_cons, List.not_mem_nil, or_false, forall_eq_or_imp, forall_eq] at other
  obtain ⟨nan, nan', above, below⟩ := other
  rw [sampleValue?, decide_eq_false nan, decide_eq_false nan', Bool.or_false,
    if_neg Bool.false_ne_true, if_neg above, if_neg below, read]

theorem sampleValue?_sampleText (v : Double) : sampleValue? (sampleText v) = some v := by
  cases v with
  | nan => rfl
  | infinite negative => cases negative <;> rfl
  | finite negative units fits =>
    exact sampleValue?_of_number (number?_magnitudeText negative fits)

theorem sampleValue?_plainText {v : Double} (bounded : ∀ negative, v ≠ .infinite negative) :
    sampleValue? (plainText v) = some v := by
  cases v with
  | nan => rfl
  | infinite negative => exact absurd rfl (bounded negative)
  | finite negative units fits => exact sampleValue?_sampleText (.finite negative units fits)

theorem isTokenChar_of_sampleText {v : Double} {c : Char} (member : c ∈ sampleText v) :
    isTokenChar c = true :=
  isTokenChar_of_sampleValue (sampleValue?_sampleText v) member

theorem isTokenChar_of_plainText {v : Double} {c : Char} (member : c ∈ plainText v) :
    isTokenChar c = true := by
  cases v with
  | nan => exact isTokenChar_of_sampleText (v := .nan) member
  | infinite negative =>
    cases negative
    · exact List.all_eq_true.1 (by decide : "inf".toList.all isTokenChar = true) c member
    · exact List.all_eq_true.1 (by decide : "-inf".toList.all isTokenChar = true) c member
  | finite negative units representable =>
    exact isTokenChar_of_sampleText (v := .finite negative units representable) member

end Shortest
end Decimal
end MetricGateway
