import MetricGateway.Number.Double

/- Rounding keeps the order of magnitudes, and with it that of whole numbers made doubles. -/
namespace MetricGateway
namespace Double

theorem nearestQuotient_mono {a b den : Nat} (below : a ≤ b) :
    nearestQuotient a den ≤ nearestQuotient b den := by
  have left := Nat.div_add_mod a den
  have right := Nat.div_add_mod b den
  rcases Nat.lt_or_eq_of_le (Nat.div_le_div_right (c := den) below) with less | same
  · have up := nearestQuotient_le a den
    have down : b / den ≤ nearestQuotient b den := by
      simp only [nearestQuotient]
      repeat' split
      all_goals omega
    omega
  · rw [← same] at right
    have rests : a % den ≤ b % den := by omega
    simp only [nearestQuotient, ← same]
    repeat' split
    all_goals omega

def rounded (u : Nat) : Nat := nearestQuotient u (spacing u) * spacing u

theorem rounded_bounds {u : Nat} (filled : u ≠ 0) :
    Nat.pow 2 (Nat.log2 u) ≤ rounded u ∧ rounded u ≤ Nat.pow 2 (Nat.log2 u + 1) := by
  have step : 0 < spacing u := Nat.pow_pos (by decide)
  have grid : ∀ k, Nat.log2 u ≤ k → spacing u ∣ Nat.pow 2 k := by
    intro k above
    exact Nat.pow_dvd_pow 2 (by omega)
  have exact_at : ∀ k, nearestQuotient (k * spacing u) (spacing u) * spacing u = k * spacing u := by
    intro k
    simp [nearestQuotient, Nat.mul_div_cancel k step, step]
  unfold rounded
  constructor
  · obtain ⟨k, whole⟩ := grid (Nat.log2 u) (Nat.le_refl _)
    rw [whole, Nat.mul_comm (spacing u) k, ← exact_at k]
    refine Nat.mul_le_mul_right _ (nearestQuotient_mono ?_)
    rw [Nat.mul_comm, ← whole]
    exact Nat.log2_self_le filled
  · obtain ⟨k, whole⟩ := grid (Nat.log2 u + 1) (Nat.le_succ _)
    rw [whole, Nat.mul_comm (spacing u) k, ← exact_at k]
    refine Nat.mul_le_mul_right _ (nearestQuotient_mono ?_)
    rw [Nat.mul_comm, ← whole]
    exact Nat.le_of_lt Nat.lt_log2_self

theorem log2_mono {u v : Nat} (below : u ≤ v) : Nat.log2 u ≤ Nat.log2 v := by
  rcases Nat.eq_zero_or_pos u with rfl | positive
  · simp
  · rw [Nat.le_log2 (by omega)]
    exact Nat.le_trans (Nat.log2_self_le (by omega)) below

theorem rounded_zero : rounded 0 = 0 := by decide

theorem rounded_mono {u v : Nat} (below : u ≤ v) : rounded u ≤ rounded v := by
  rcases Nat.eq_zero_or_pos u with rfl | positive
  · rw [rounded_zero]
    exact Nat.zero_le _
  · rcases Nat.lt_or_eq_of_le (log2_mono below) with apart | same
    · -- A power of two lies between the two, and neither is rounded beyond it.
      have up := (rounded_bounds (u := u) (by omega)).2
      have down := (rounded_bounds (u := v) (by omega)).1
      have between : Nat.pow 2 (Nat.log2 u + 1) ≤ Nat.pow 2 (Nat.log2 v) :=
        Nat.pow_le_pow_right (by decide) apart
      exact Nat.le_trans up (Nat.le_trans between down)
    · have grid : spacing u = spacing v := by rw [spacing, spacing, same]
      rw [rounded, rounded, grid]
      exact Nat.mul_le_mul_right _ (nearestQuotient_mono below)

theorem nearest_cases (negative : Bool) (u : Nat) :
    (∃ fits, nearest negative u 1 = .finite negative (rounded u) fits) ∧
        Nat.log2 (rounded u) < 2098 ∨
      nearest negative u 1 = .infinite negative ∧ 2098 ≤ Nat.log2 (rounded u) := by
  simp only [nearest, rounded, Nat.div_one, Nat.one_mul]
  split
  · rename_i bounded
    have grid := spacing_dvd_nearest u 1
    simp only [Nat.div_one, Nat.one_mul] at grid
    exact Or.inl ⟨⟨⟨bounded, grid⟩, rfl⟩, bounded⟩
  · rename_i beyond
    exact Or.inr ⟨rfl, Nat.le_of_not_lt beyond⟩

theorem finite_le {x y : Nat} {left right} (below : x ≤ y) :
    (Double.finite false x left).le (Double.finite false y right) = true := by
  simp only [le, signed, Bool.false_eq_true, if_false, Int.ofNat_le, decide_eq_true_eq]
  exact below

theorem ofNat_mono {m n : Nat} (below : m ≤ n) : (ofNat m).le (ofNat n) = true := by
  have units : rounded (m * unitsPerOne) ≤ rounded (n * unitsPerOne) :=
    rounded_mono (Nat.mul_le_mul_right _ below)
  have logs := log2_mono units
  unfold ofNat ofRatio
  rcases nearest_cases false (m * unitsPerOne) with ⟨⟨_, left⟩, _⟩ | ⟨left, beyond⟩
  · rcases nearest_cases false (n * unitsPerOne) with ⟨⟨_, right⟩, _⟩ | ⟨right, _⟩
    · rw [left, right]
      exact finite_le units
    · rw [left, right]
      rfl
  · rcases nearest_cases false (n * unitsPerOne) with ⟨_, bounded⟩ | ⟨right, _⟩
    · omega
    · rw [left, right]
      rfl

theorem ofNat_finite {n : Nat} (word : n < UInt64.size) (negative : Bool) :
    ofNat n ≠ .infinite negative := by
  have top : Nat.log2 (rounded (UInt64.size * unitsPerOne)) < 2098 := by decide +kernel
  have below : n * unitsPerOne ≤ UInt64.size * unitsPerOne :=
    Nat.mul_le_mul_right _ (Nat.le_of_lt word)
  have logs := log2_mono (rounded_mono below)
  unfold ofNat ofRatio
  rcases nearest_cases false (n * unitsPerOne) with ⟨⟨_, same⟩, _⟩ | ⟨_, beyond⟩
  · rw [same]
    exact nofun
  · omega

theorem le_trans {x y z : Double} (first : x.le y = true) (second : y.le z = true) :
    x.le z = true := by
  cases x with
  | nan => cases first
  | infinite a =>
    cases y with
    | nan => cases first
    | infinite b => cases a <;> cases b <;> cases z <;> simp_all [le]
    | finite b v _ => cases z <;> simp_all [le]
  | finite a u _ =>
    cases y with
    | nan => cases first
    | infinite b => cases z <;> simp_all [le]
    | finite b v _ =>
      cases z with
      | nan => cases second
      | infinite c => exact second
      | finite c w _ =>
        simp only [le, decide_eq_true_eq] at first second ⊢
        exact Int.le_trans first second

end Double
end MetricGateway
