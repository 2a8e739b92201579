/- Double-precision numbers. A finite magnitude is a whole number of units of 2 ^ -1074, the
   least positive double, so arithmetic is exact on natural numbers and rounds once at the end. -/
namespace MetricGateway
namespace Double

/-- Distance to the next double at a magnitude of `u` units: 53 significant bits are kept. -/
def spacing (u : Nat) : Nat := Nat.pow 2 (Nat.log2 u - 52)

structure Representable (u : Nat) : Prop where
  bounded : Nat.log2 u < 2098
  onGrid : spacing u ∣ u

theorem representable_zero : Representable 0 := ⟨by decide, by decide⟩

/-- The whole number nearest to `num / den`; a half goes to the even neighbour. -/
def nearestQuotient (num den : Nat) : Nat :=
  let q := num / den
  let r := num % den
  if 2 * r < den then q
  else if den < 2 * r then q + 1
  else if q % 2 = 0 then q else q + 1

theorem nearestQuotient_le (num den : Nat) : nearestQuotient num den ≤ num / den + 1 := by
  simp only [nearestQuotient]
  repeat' split
  all_goals omega

theorem div_spacing_lt (u : Nat) : u / spacing u < Nat.pow 2 53 := by
  simp only [spacing, Nat.pow_eq]
  rw [Nat.div_lt_iff_lt_mul (Nat.two_pow_pos _), ← Nat.pow_add]
  refine Nat.lt_of_lt_of_le Nat.lt_log2_self (Nat.pow_le_pow_right (by decide) (by omega))

/-- Up to 2 ^ 53 steps of one spacing stay on the grid of the magnitude they reach. -/
theorem spacing_dvd_mul_two_pow {k : Nat} (e : Nat) (small : k ≤ Nat.pow 2 53) :
    spacing (k * Nat.pow 2 e) ∣ k * Nat.pow 2 e := by
  simp only [spacing, Nat.pow_eq] at small ⊢
  rcases Nat.eq_zero_or_pos k with zero | pos
  · simp [zero]
  · rcases Nat.lt_or_eq_of_le small with below | top
    · refine Nat.dvd_mul_left_of_dvd (Nat.pow_dvd_pow 2 ?_) k
      have product : k * 2 ^ e < 2 ^ (53 + e) := by
        rw [Nat.pow_add]; exact Nat.mul_lt_mul_of_pos_right below (Nat.two_pow_pos e)
      have nonzero : k * 2 ^ e ≠ 0 :=
        Nat.pos_iff_ne_zero.1 (Nat.mul_pos pos (Nat.two_pow_pos e))
      have := (Nat.log2_lt nonzero).2 product
      omega
    · rw [top, ← Nat.pow_add, Nat.log2_two_pow]
      exact Nat.pow_dvd_pow 2 (by omega)

theorem spacing_dvd_nearest (num den : Nat) :
    let step := spacing (num / den)
    spacing (nearestQuotient num (den * step) * step) ∣
      nearestQuotient num (den * step) * step := by
  refine spacing_dvd_mul_two_pow _ ?_
  refine Nat.le_trans (nearestQuotient_le _ _) ?_
  rw [← Nat.div_div_eq_div_mul]
  exact div_spacing_lt (num / den)

end Double

/-- A double; the sign of a zero is kept and all NaNs are one. -/
inductive Double where
  | nan
  | infinite (negative : Bool)
  | finite (negative : Bool) (units : Nat) (representable : Double.Representable units)
  deriving DecidableEq

namespace Double

def zero : Double := .finite false 0 representable_zero

instance : Inhabited Double := ⟨zero⟩

def nearest (negative : Bool) (num den : Nat) : Double :=
  let step := spacing (num / den)
  let units := nearestQuotient num (den * step) * step
  if bounded : Nat.log2 units < 2098 then
    .finite negative units ⟨bounded, spacing_dvd_nearest num den⟩
  else .infinite negative

def unitsPerOne : Nat := Nat.pow 2 1074

def ofRatio (negative : Bool) (num den : Nat) : Double := nearest negative (num * unitsPerOne) den

def ofNat (n : Nat) : Double := ofRatio false n 1

def ofInt (i : Int) : Double := ofRatio (i < 0) i.natAbs 1

/-- The double nearest to `digits * 10 ^ exponent`. Powers of ten far beyond the range are not
   computed: with `n` digits the value lies between `10 ^ (n - 1 + exponent)` and
   `10 ^ (n + exponent)`. -/
def ofDecimal (negative : Bool) (digits : Nat) (exponent : Int) : Double :=
  let scale := exponent + (Nat.repr digits).length
  if digits = 0 then .finite negative 0 representable_zero
  else if 310 < scale then .infinite negative
  else if scale < -325 then .finite negative 0 representable_zero
  else if 0 ≤ exponent then ofRatio negative (digits * Nat.pow 10 exponent.toNat) 1
  else ofRatio negative digits (Nat.pow 10 exponent.natAbs)

def signed (negative : Bool) (units : Nat) : Int := if negative then -(units : Int) else units

def add : Double → Double → Double
  | .nan, _ | _, .nan => .nan
  | .infinite a, .infinite b => if a = b then .infinite a else .nan
  | .infinite a, .finite .. | .finite .., .infinite a => .infinite a
  | .finite a x _, .finite b y _ =>
    let sum := signed a x + signed b y
    nearest (if sum = 0 then a && b else sum < 0) sum.natAbs 1

def scale (x : Double) (num den : Nat) : Double :=
  match x with
  | .nan => .nan
  | .infinite negative => .infinite negative
  | .finite negative units _ => nearest negative (units * num) den

/-- Numeric order; nothing compares with NaN. -/
def le : Double → Double → Bool
  | .nan, _ | _, .nan => false
  | .infinite a, .infinite b => a || !b
  | .infinite a, .finite .. => a
  | .finite .., .infinite b => !b
  | .finite a x _, .finite b y _ => signed a x ≤ signed b y

def lt (x y : Double) : Bool := le x y && !le y x

/-- A span of time in seconds: whole seconds and the rest are rounded apart, then added. -/
def ofNanoseconds (ns : Nat) : Double :=
  add (ofNat (ns / 1000000000)) ((ofNat (ns % 1000000000)).scale 1 1000000000)

def signBit (negative : Bool) : Nat := if negative then 0x8000000000000000 else 0

def bits : Double → Nat
  | .nan => 0x7ff8000000000000
  | .infinite negative => signBit negative + 0x7ff0000000000000
  | .finite negative units _ =>
    let e := Nat.log2 units - 52
    signBit negative + e * Nat.pow 2 52 + units / Nat.pow 2 e

end Double
end MetricGateway
