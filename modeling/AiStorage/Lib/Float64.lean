import Mathlib.Data.Nat.Log
import Mathlib.Tactic.Linarith
import Mathlib.Tactic.Ring

/-!
# Binary64 numbers by value

A finite number is a sign and a magnitude counted in units of `2 ^ -1074`, the smallest
subnormal. A magnitude is representable exactly when rounding leaves it alone.
-/
namespace AiStorage.Lib

/-- The integer nearest to `num / den`, ties to even. -/
def roundHalfEven (num den : Nat) : Nat :=
  let q := num / den
  let r := num % den
  if 2 * r < den then q else if den < 2 * r then q + 1 else if q % 2 = 0 then q else q + 1

/-- The magnitude nearest to `num / den` with 53 significant bits. -/
def roundMagnitude (num den : Nat) : Nat :=
  let scale := 2 ^ ((num / den).log2 + 1 - 53)
  roundHalfEven num (den * scale) * scale

theorem roundHalfEven_mul (m : Nat) {den : Nat} (positive : 0 < den) :
    roundHalfEven (m * den) den = m := by
  simp [roundHalfEven, Nat.mul_div_cancel m positive, positive]

theorem roundHalfEven_le {num den bound : Nat} (positive : 0 < den) (below : num < bound * den) :
    roundHalfEven num den ≤ bound := by
  have q : num / den < bound := (Nat.div_lt_iff_lt_mul positive).mpr below
  unfold roundHalfEven
  dsimp only
  split_ifs <;> omega

theorem roundMagnitude_exact {m : Nat} (small : m ≤ 2 ^ 53) (k : Nat) :
    roundMagnitude (m * 2 ^ k) 1 = m * 2 ^ k := by
  unfold roundMagnitude
  dsimp only
  rw [Nat.div_one, Nat.one_mul]
  suffices divides : 2 ^ ((m * 2 ^ k).log2 + 1 - 53) ∣ m * 2 ^ k by
    generalize 2 ^ ((m * 2 ^ k).log2 + 1 - 53) = scale at divides
    obtain ⟨c, whole⟩ := divides
    rw [whole]
    rcases Nat.eq_zero_or_pos scale with rfl | positive
    · simp
    · rw [Nat.mul_comm scale c, roundHalfEven_mul c positive]
  by_cases zero : m * 2 ^ k = 0
  · rw [zero]
    exact dvd_zero _
  by_cases top : m = 2 ^ 53
  · subst top
    rw [← Nat.pow_add, Nat.log2_two_pow]
    exact Nat.pow_dvd_pow 2 (by omega)
  · have below : m * 2 ^ k < 2 ^ (53 + k) := by
      rw [Nat.pow_add]
      exact Nat.mul_lt_mul_of_pos_right (lt_of_le_of_ne small top) (Nat.two_pow_pos k)
    have log := (Nat.log2_lt zero).mpr below
    exact Dvd.dvd.mul_left (Nat.pow_dvd_pow 2 (by omega)) m

theorem roundMagnitude_idem (num : Nat) {den : Nat} (positive : 0 < den) :
    roundMagnitude (roundMagnitude num den) 1 = roundMagnitude num den := by
  conv_lhs => rw [roundMagnitude.eq_def num den]
  conv_rhs => rw [roundMagnitude.eq_def num den]
  dsimp only
  generalize shift : (num / den).log2 + 1 - 53 = k
  have quotient : num / den < 2 ^ ((num / den).log2 + 1) := Nat.lt_log2_self
  have upper : num / den < 2 ^ (53 + k) :=
    lt_of_lt_of_le quotient (Nat.pow_le_pow_right (by norm_num) (by omega))
  refine roundMagnitude_exact (roundHalfEven_le (Nat.mul_pos positive (Nat.two_pow_pos k)) ?_) k
  calc num < 2 ^ (53 + k) * den := (Nat.div_lt_iff_lt_mul positive).mp upper
    _ = 2 ^ 53 * (den * 2 ^ k) := by rw [Nat.pow_add]; ring

theorem roundHalfEven_scale {num den c : Nat} (positive : 0 < c) :
    roundHalfEven (c * num) (c * den) = roundHalfEven num den := by
  unfold roundHalfEven
  dsimp only
  rw [Nat.mul_div_mul_left num den positive, Nat.mul_mod_mul_left]
  have left : 2 * (c * (num % den)) < c * den ↔ 2 * (num % den) < den := by
    rw [Nat.mul_left_comm]
    exact Nat.mul_lt_mul_left positive
  have right : c * den < 2 * (c * (num % den)) ↔ den < 2 * (num % den) := by
    rw [Nat.mul_left_comm]
    exact Nat.mul_lt_mul_left positive
  simp only [left, right]

theorem roundMagnitude_scale {num den c : Nat} (positive : 0 < c) :
    roundMagnitude (c * num) (c * den) = roundMagnitude num den := by
  unfold roundMagnitude
  dsimp only
  rw [Nat.mul_div_mul_left num den positive, Nat.mul_assoc, roundHalfEven_scale positive]

/-! ## Numbers -/

/-- Finite numbers are whole multiples of `2 ^ -unitBits`. -/
def unitBits : Nat := 1074

/-- The magnitude of the first number that is too large, in units. -/
@[irreducible] def unitLimit : Nat := 2 ^ (1024 + unitBits)

inductive Float64 where
  | finite (negative : Bool) (units : Nat) (representable : roundMagnitude units 1 = units)
      (bounded : units < unitLimit)
  | infinite (negative : Bool)
  | nan
  deriving DecidableEq

namespace Float64

/-- The number nearest to `± num / den` units, infinite on overflow. -/
def ofUnits (negative : Bool) (num den : Nat) (positive : 0 < den) : Float64 :=
  if fits : roundMagnitude num den < unitLimit then
    .finite negative (roundMagnitude num den) (roundMagnitude_idem num positive) fits
  else .infinite negative

/-- The number nearest to `± mantissa * 10 ^ exponent`. -/
def ofDecimal (negative : Bool) (mantissa : Nat) : Int → Float64
  | .ofNat e => ofUnits negative (mantissa * 10 ^ e * 2 ^ unitBits) 1 Nat.one_pos
  | .negSucc e =>
    ofUnits negative (mantissa * 2 ^ unitBits) (10 ^ (e + 1)) (Nat.pow_pos (by decide))

/-- `float(n)` of an integer; `none` is `OverflowError`. -/
def ofInt (n : Int) : Option Float64 :=
  match ofDecimal (n < 0) n.natAbs 0 with
  | .finite negative units representable bounded =>
    some (.finite negative units representable bounded)
  | _ => none

def isFinite : Float64 → Bool
  | .finite .. => true
  | _ => false

/-- `x < 0` for a finite number; a negative zero is not below zero. -/
def isNegative : Float64 → Bool
  | .finite negative units _ _ => negative && 0 < units
  | .infinite negative => negative
  | .nan => false

theorem ofUnits_exact (negative : Bool) {num den units : Nat} (positive : 0 < den)
    (ratio : roundMagnitude num den = units) (representable : roundMagnitude units 1 = units)
    (bounded : units < unitLimit) :
    ofUnits negative num den positive = .finite negative units representable bounded := by
  subst ratio
  simp only [ofUnits, bounded, dif_pos]

theorem roundMagnitude_decimal {units : Nat} (representable : roundMagnitude units 1 = units)
    (e : Nat) : roundMagnitude (units * 5 ^ e * 2 ^ e) (10 ^ e) = units := by
  have num : units * 5 ^ e * 2 ^ e = 10 ^ e * units := by
    rw [Nat.mul_assoc, ← Nat.mul_pow, Nat.mul_comm]
  have scaled := @roundMagnitude_scale units 1 (10 ^ e) (Nat.pow_pos (by decide))
  rw [Nat.mul_one] at scaled
  rw [num, scaled, representable]

theorem ofDecimal_exact (negative : Bool) {units : Nat}
    (representable : roundMagnitude units 1 = units) (bounded : units < unitLimit) :
    ofDecimal negative (units * 5 ^ unitBits) (.negSucc (unitBits - 1)) =
      .finite negative units representable bounded := by
  have whole : unitBits - 1 + 1 = unitBits := rfl
  refine ofUnits_exact negative (Nat.pow_pos (by decide)) ?_ representable bounded
  rw [whole]
  exact roundMagnitude_decimal representable unitBits

end Float64

end AiStorage.Lib
