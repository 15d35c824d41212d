import AiStorage.Lib.Float64
import Mathlib.Tactic.FieldSimp
import Mathlib.Tactic.Positivity

/-!
# Exact and rounded arithmetic

A computation on `float64` values can be read over the rationals, where it is exact, and over
binary64, where each operation is the exact one followed by a rounding to the nearest number.
-/
namespace AiStorage.Lib

/-- The numbers a computation is carried out in. Its inputs and constants are rationals, taken
to the nearest number where they are used. -/
class Arithmetic (F : Type) extends Add F, Sub F, Mul F, Div F, LT F, RatCast F where
  /-- `math.Inf(-1)`, which exact arithmetic does not have. -/
  lowest : WithBot F

instance : Arithmetic ℚ where
  lowest := ⊥

def accumulate {F : Type} [Arithmetic F] (start : F) (numbers : List ℚ) : F :=
  numbers.foldl (fun sum (q : ℚ) => sum + (q : F)) start

/-! ## The distance to the rounded magnitude -/

theorem roundHalfEven_near (num : Nat) {den : Nat} (positive : 0 < den) :
    |(roundHalfEven num den : ℚ) * den - num| ≤ den / 2 := by
  have parts := Nat.div_add_mod num den
  have rest := Nat.mod_lt num positive
  have near : 2 * (roundHalfEven num den * den) ≤ 2 * num + den ∧
      2 * num ≤ 2 * (roundHalfEven num den * den) + den := by
    unfold roundHalfEven
    dsimp only
    split_ifs <;> rw [Nat.mul_comm _ den] <;> (try rw [Nat.mul_add]) <;> omega
  have upper : (2 * (roundHalfEven num den * den) : ℚ) ≤ 2 * num + den := by exact_mod_cast near.1
  have lower : (2 * num : ℚ) ≤ 2 * (roundHalfEven num den * den) + den := by exact_mod_cast near.2
  rw [abs_le]
  constructor <;> linarith

theorem roundMagnitude_near {num den k : Nat} (positive : 0 < den)
    (small : num < 2 ^ (53 + k) * den) :
    |(roundMagnitude num den : ℚ) - num / den| ≤ 2 ^ k / 2 := by
  have log : (num / den).log2 + 1 - 53 ≤ k := by
    by_cases zero : num / den = 0
    · simp [zero]
    · have := (Nat.log2_lt zero).mpr ((Nat.div_lt_iff_lt_mul positive).mpr small)
      omega
  have step : ((2 : ℚ) ^ ((num / den).log2 + 1 - 53)) ≤ 2 ^ k := by
    exact pow_le_pow_right₀ (by norm_num) log
  unfold roundMagnitude
  dsimp only
  generalize (num / den).log2 + 1 - 53 = j at step
  have real : (0 : ℚ) < den := by exact_mod_cast positive
  have near := roundHalfEven_near num (Nat.mul_pos positive (Nat.two_pow_pos j))
  push_cast at near ⊢
  have scaled : (roundHalfEven num (den * 2 ^ j) : ℚ) * 2 ^ j - num / den =
      (roundHalfEven num (den * 2 ^ j) * (den * 2 ^ j) - num) / den := by
    field_simp
  rw [scaled, abs_div, abs_of_pos real, div_le_iff₀ real]
  calc _ ≤ (den * 2 ^ j : ℚ) / 2 := near
    _ ≤ 2 ^ k / 2 * den := by nlinarith

theorem roundMagnitude_congr {num den num' den' : Nat} (positive : 0 < den) (positive' : 0 < den')
    (same : num * den' = num' * den) : roundMagnitude num den = roundMagnitude num' den' := by
  rw [← roundMagnitude_scale positive', ← @roundMagnitude_scale num' den' den positive,
    Nat.mul_comm den' num, same, Nat.mul_comm num' den, Nat.mul_comm den' den]

/-! ## Operations -/

namespace Float64

def toRat : Float64 → ℚ
  | .finite negative units _ _ => mkRat (if negative then -units else units) (2 ^ unitBits)
  | _ => 0

def negative : Float64 → Bool
  | .finite negative .. => negative
  | .infinite negative => negative
  | .nan => false

/-- The number nearest to `q`; a result that is exactly zero takes the sign bit `zero`. -/
def round (q : ℚ) (zero : Bool) : Float64 :=
  ofUnits (q < 0 || (q = 0 && zero)) (2 ^ unitBits * q.num.natAbs) q.den q.den_pos

def add : Float64 → Float64 → Float64
  | .nan, _ | _, .nan => .nan
  | .infinite s, .infinite t => if s = t then .infinite s else .nan
  | .infinite s, .finite .. | .finite .., .infinite s => .infinite s
  | x, y => round (x.toRat + y.toRat) (x.negative && y.negative)

def neg : Float64 → Float64
  | .finite s units representable bounded => .finite (!s) units representable bounded
  | .infinite s => .infinite !s
  | .nan => .nan

def mul (x y : Float64) : Float64 :=
  match x, y with
  | .nan, _ | _, .nan => .nan
  | .infinite _, .infinite _ => .infinite (x.negative ^^ y.negative)
  | .infinite _, .finite _ units _ _ | .finite _ units _ _, .infinite _ =>
    if units = 0 then .nan else .infinite (x.negative ^^ y.negative)
  | _, _ => round (x.toRat * y.toRat) (x.negative ^^ y.negative)

def div (x y : Float64) : Float64 :=
  match x, y with
  | .nan, _ | _, .nan | .infinite _, .infinite _ => .nan
  | .infinite _, .finite .. => .infinite (x.negative ^^ y.negative)
  | .finite .., .infinite _ => round 0 (x.negative ^^ y.negative)
  | .finite _ m _ _, .finite _ n _ _ =>
    if n = 0 then if m = 0 then .nan else .infinite (x.negative ^^ y.negative)
    else round (x.toRat / y.toRat) (x.negative ^^ y.negative)

def below : Float64 → Float64 → Bool
  | .nan, _ | _, .nan => false
  | .infinite s, .infinite t => s && !t
  | .infinite s, .finite .. => s
  | .finite .., .infinite t => !t
  | x, y => x.toRat < y.toRat

instance : Arithmetic Float64 where
  add := add
  sub x y := add x (neg y)
  mul := mul
  div := div
  lt x y := below x y = true
  ratCast q := round q false
  lowest := (infinite true : Float64)

instance : DecidableLT Float64 := fun x y => inferInstanceAs (Decidable (below x y = true))

theorem cast_eq_round (q : ℚ) : (q : Float64) = round q false := rfl

/-! ## Bounds -/

variable {x y : Float64}

theorem toRat_ofUnits {negative : Bool} {num den : Nat} (positive : 0 < den)
    (fits : roundMagnitude num den < unitLimit) :
    (ofUnits negative num den positive).isFinite = true ∧
      (ofUnits negative num den positive).toRat =
        (if negative then -1 else 1) * roundMagnitude num den / 2 ^ unitBits := by
  rw [ofUnits, dif_pos fits]
  refine ⟨rfl, ?_⟩
  rw [toRat, Rat.mkRat_eq_div, Nat.cast_pow, Nat.cast_ofNat]
  cases negative with
  | false => rw [if_neg Bool.false_ne_true, if_neg Bool.false_ne_true, one_mul, Int.cast_natCast]
  | true => rw [if_pos rfl, if_pos rfl, neg_one_mul, Int.cast_neg, Int.cast_natCast]

theorem toRat_round {q : ℚ} {zero : Bool}
    (fits : roundMagnitude (2 ^ unitBits * q.num.natAbs) q.den < unitLimit) :
    (round q zero).isFinite = true ∧ (round q zero).toRat = (if q < 0 then -1 else 1) *
      roundMagnitude (2 ^ unitBits * q.num.natAbs) q.den / 2 ^ unitBits := by
  obtain ⟨finite, value⟩ := @toRat_ofUnits (q < 0 || (q = 0 && zero)) _ _ q.den_pos fits
  refine ⟨finite, ?_⟩
  rw [round, value]
  by_cases none : q = 0
  · subst none
    have nothing : roundMagnitude 0 1 = 0 := by decide
    simp [nothing]
  · by_cases sign : q < 0 <;> simp [none, sign]

theorem abs_eq_natAbs_div (q : ℚ) : |q| = q.num.natAbs / q.den := by
  have split := congrArg abs (Rat.num_div_den q).symm
  rwa [abs_div, Nat.abs_cast, ← Int.cast_abs, ← Nat.cast_natAbs] at split

/-- Below `2 ^ e` a rounding is off by half a unit in the last place at most. -/
theorem round_near {q : ℚ} {e : Nat} (small : |q| < 2 ^ e) (bounded : e ≤ 1023) (zero : Bool) :
    (round q zero).isFinite = true ∧ |(round q zero).toRat - q| ≤ 2 ^ e / 2 ^ 54 := by
  have real : (0 : ℚ) < q.den := by exact_mod_cast q.den_pos
  have whole : q.num.natAbs < 2 ^ e * q.den := by
    rw [abs_eq_natAbs_div, div_lt_iff₀ real] at small
    exact_mod_cast small
  have near := @roundMagnitude_near (2 ^ unitBits * q.num.natAbs) q.den (e + 1021) q.den_pos (by
    rw [show 53 + (e + 1021) = e + unitBits by rw [show unitBits = 1074 from rfl]; omega,
      Nat.add_comm, Nat.pow_add, Nat.mul_assoc]
    exact Nat.mul_lt_mul_of_pos_left whole (Nat.two_pow_pos _))
  have ratio : ((2 ^ unitBits * q.num.natAbs : Nat) : ℚ) / q.den = |q| * 2 ^ unitBits := by
    rw [abs_eq_natAbs_div]
    push_cast
    ring
  have exponent : (2 : ℚ) ^ (e + 1021) / 2 = 2 ^ e / 2 ^ 54 * 2 ^ unitBits := by
    rw [show unitBits = 1021 + 53 from rfl, pow_add, pow_add]
    generalize (2 : ℚ) ^ 1021 = unit
    ring
  rw [ratio, exponent] at near
  generalize rounded : roundMagnitude (2 ^ unitBits * q.num.natAbs) q.den = magnitude at near
  have units : (0 : ℚ) < 2 ^ unitBits := pow_pos zero_lt_two unitBits
  have top : (0 : ℚ) < 2 ^ e := by positivity
  have fits : magnitude < unitLimit := by
    have most : (magnitude : ℚ) < 2 ^ (e + 1 + unitBits) := by
      rw [pow_add, pow_succ]
      have upper := (abs_le.mp near).2
      nlinarith
    have whole : magnitude < 2 ^ (e + 1 + unitBits) := by exact_mod_cast most
    have below : e + 1 + unitBits ≤ 1024 + unitBits := by omega
    unfold unitLimit
    exact whole.trans_le (Nat.pow_le_pow_right (by decide) below)
  obtain ⟨finite, value⟩ := @toRat_round q zero (rounded ▸ fits)
  refine ⟨finite, ?_⟩
  rw [value, rounded]
  have scaled : |(magnitude : ℚ) / 2 ^ unitBits - abs q| ≤ 2 ^ e / 2 ^ 54 := by
    rw [show (magnitude : ℚ) / 2 ^ unitBits - abs q =
      (magnitude - abs q * 2 ^ unitBits) / 2 ^ unitBits by field_simp, abs_div, abs_of_pos units,
      div_le_iff₀ units]
    exact near
  by_cases sign : q < 0
  · rw [abs_of_neg sign, ← abs_neg] at scaled
    rw [if_pos sign]
    refine le_of_eq_of_le (congrArg abs ?_) scaled
    ring
  · rw [abs_of_nonneg (not_lt.mp sign)] at scaled
    rw [if_neg sign, one_mul]
    exact scaled

/-- A number with at most 53 significant bits is its own rounding. -/
theorem round_exact {n : Int} (small : n.natAbs ≤ 2 ^ 53) {k : Nat} (fine : k ≤ unitBits)
    (zero : Bool) :
    (round (n / 2 ^ k) zero).isFinite = true ∧ (round (n / 2 ^ k) zero).toRat = n / 2 ^ k := by
  have den : (0 : ℚ) < 2 ^ k := pow_pos zero_lt_two k
  have value := abs_eq_natAbs_div (n / 2 ^ k)
  generalize quotient : (n / 2 ^ k : ℚ) = q at *
  have size : abs q = n.natAbs / 2 ^ k := by
    rw [← quotient, abs_div, abs_of_pos den, Nat.cast_natAbs, Int.cast_abs]
  have whole : roundMagnitude (2 ^ unitBits * q.num.natAbs) q.den =
      n.natAbs * 2 ^ (unitBits - k) := by
    rw [roundMagnitude_congr q.den_pos Nat.one_pos, roundMagnitude_exact small]
    have real : (0 : ℚ) < q.den := by exact_mod_cast q.den_pos
    rw [size, div_eq_div_iff den.ne' real.ne'] at value
    have value : n.natAbs * q.den = q.num.natAbs * 2 ^ k := by exact_mod_cast value
    calc 2 ^ unitBits * q.num.natAbs * 1
        = 2 ^ (unitBits - k) * (q.num.natAbs * 2 ^ k) := by
          rw [← Nat.sub_add_cancel fine, Nat.pow_add, Nat.add_sub_cancel]
          ring
      _ = n.natAbs * 2 ^ (unitBits - k) * q.den := by
          rw [← value]
          ring
  have fits : n.natAbs * 2 ^ (unitBits - k) < unitLimit := by
    have below : n.natAbs * 2 ^ (unitBits - k) < 2 ^ 54 * 2 ^ unitBits :=
      Nat.mul_lt_mul_of_lt_of_le (small.trans_lt (by decide))
        (Nat.pow_le_pow_right Nat.two_pos (Nat.sub_le _ _)) (Nat.two_pow_pos _)
    rw [← pow_add 2 54 unitBits] at below
    unfold unitLimit
    exact below.trans_le (Nat.pow_le_pow_right Nat.two_pos (by omega))
  obtain ⟨finite, same⟩ := @toRat_round q zero (by rw [whole]; exact fits)
  refine ⟨finite, ?_⟩
  have magnitude : ((n.natAbs * 2 ^ (unitBits - k) : Nat) : ℚ) / 2 ^ unitBits = abs q := by
    rw [size, div_eq_div_iff (pow_pos zero_lt_two unitBits).ne' den.ne', Nat.cast_mul, mul_assoc]
    push_cast
    rw [← pow_add, Nat.sub_add_cancel fine]
  rw [same, whole, mul_div_assoc, magnitude]
  by_cases sign : q < 0
  · rw [if_pos sign, abs_of_neg sign, neg_one_mul, neg_neg]
  · rw [if_neg sign, abs_of_nonneg (not_lt.mp sign), one_mul]

theorem cast_exact {q : ℚ} {n : Int} {k : Nat} (same : q = n / 2 ^ k) (small : n.natAbs ≤ 2 ^ 53)
    (fine : k ≤ unitBits) : (q : Float64).isFinite = true ∧ (q : Float64).toRat = q := by
  rw [cast_eq_round, same]
  exact round_exact small fine false

theorem add_of_finite (left : x.isFinite = true) (right : y.isFinite = true) :
    x + y = round (x.toRat + y.toRat) (x.negative && y.negative) := by
  change add x y = _
  cases x <;> cases left
  cases y <;> cases right
  simp only [add]

theorem toRat_neg (x : Float64) : (neg x).toRat = -x.toRat := by
  cases x with
  | finite s units =>
    simp only [neg, toRat, Rat.mkRat_eq_div, ← neg_div]
    cases s <;> simp only [Bool.not_true, Bool.not_false, Bool.false_eq_true, if_false, if_true,
      Int.cast_neg, neg_neg]
  | _ => rfl

theorem sub_of_finite (left : x.isFinite = true) (right : y.isFinite = true) :
    x - y = round (x.toRat - y.toRat) (x.negative && !y.negative) := by
  change add x (neg y) = _
  rw [sub_eq_add_neg, ← toRat_neg]
  cases x <;> cases left
  cases y <;> cases right
  simp only [add, neg, negative]

theorem mul_of_finite (left : x.isFinite = true) (right : y.isFinite = true) :
    x * y = round (x.toRat * y.toRat) (x.negative ^^ y.negative) := by
  change mul x y = _
  cases x <;> cases left
  cases y <;> cases right
  simp only [mul]

theorem lt_iff_of_finite (left : x.isFinite = true) (right : y.isFinite = true) :
    x < y ↔ x.toRat < y.toRat := by
  change below x y = true ↔ _
  cases x <;> cases left
  cases y <;> cases right
  simp only [below, decide_eq_true_eq]

theorem lowest_lt_of_finite (finite : x.isFinite = true) :
    Arithmetic.lowest < (x : WithBot Float64) := by
  refine WithBot.coe_lt_coe.mpr ?_
  cases x <;> cases finite
  rfl

theorem negative_cast {q : ℚ} (nonneg : 0 ≤ q) : (q : Float64).negative = false := by
  rw [cast_eq_round, round, decide_eq_false (not_lt.mpr nonneg), Bool.and_false, Bool.or_false,
    ofUnits]
  split_ifs <;> rfl

/-- Numbers on a common grid add up exactly below `2 ^ 53` of its steps. -/
theorem cast_add_cast {n m k : Nat} (small : n + m ≤ 2 ^ 53) (fine : k ≤ unitBits) :
    ((n / 2 ^ k : ℚ) : Float64) + ((m / 2 ^ k : ℚ) : Float64) =
      ((n / 2 ^ k + m / 2 ^ k : ℚ) : Float64) := by
  have nonneg : ∀ n : Nat, (0 : ℚ) ≤ n / 2 ^ k := fun n =>
    div_nonneg (Nat.cast_nonneg n) (pow_pos zero_lt_two k).le
  obtain ⟨left, value⟩ := cast_exact (q := n / 2 ^ k) (n := n) rfl (by omega) fine
  obtain ⟨right, value'⟩ := cast_exact (q := m / 2 ^ k) (n := m) rfl (by omega) fine
  rw [add_of_finite left right, value, value', negative_cast (nonneg n), negative_cast (nonneg m),
    Bool.and_false, cast_eq_round]

/-- Numbers on one grid whose sum is at most `2 ^ 53` of its steps. -/
def ExactSum (numbers : List ℚ) : Prop :=
  ∃ k ≤ unitBits, (∀ q ∈ numbers, ∃ n : Nat, q = n / 2 ^ k) ∧ numbers.sum ≤ 2 ^ 53 / 2 ^ k

theorem ExactSum.perm {numbers others : List ℚ} (exact : ExactSum numbers)
    (perm : others.Perm numbers) : ExactSum others := by
  obtain ⟨k, fine, grid, small⟩ := exact
  exact ⟨k, fine, fun q member => grid q (perm.subset member), perm.sum_eq ▸ small⟩

theorem exists_steps {numbers : List ℚ} {k : Nat} (grid : ∀ q ∈ numbers, ∃ n : Nat, q = n / 2 ^ k) :
    ∃ steps : Nat, numbers.sum = steps / 2 ^ k := by
  induction numbers with
  | nil => exact ⟨0, by simp⟩
  | cons q rest ih =>
    obtain ⟨n, rfl⟩ := grid q List.mem_cons_self
    obtain ⟨steps, sum⟩ := ih fun q member => grid q (List.mem_cons_of_mem _ member)
    exact ⟨n + steps, by rw [List.sum_cons, sum, Nat.cast_add, add_div]⟩

theorem ExactSum.accumulate_eq {numbers : List ℚ} (exact : ExactSum numbers) :
    accumulate ((0 : ℚ) : Float64) numbers = (numbers.sum : Float64) := by
  obtain ⟨k, fine, grid, small⟩ := exact
  have positive : (0 : ℚ) < 2 ^ k := pow_pos zero_lt_two k
  suffices from_any : ∀ start : Nat, start / 2 ^ k + numbers.sum ≤ (2 ^ 53 / 2 ^ k : ℚ) →
      accumulate ((start / 2 ^ k : ℚ) : Float64) numbers =
        ((start / 2 ^ k + numbers.sum : ℚ) : Float64) by
    have whole := from_any 0 (by rwa [Nat.cast_zero, zero_div, zero_add])
    rwa [Nat.cast_zero, zero_div, zero_add] at whole
  clear small
  induction numbers with
  | nil =>
    intro start _
    simp [accumulate]
  | cons q rest ih =>
    intro start small
    obtain ⟨n, rfl⟩ := grid q List.mem_cons_self
    have others := fun q member => grid q (List.mem_cons_of_mem _ member)
    obtain ⟨steps, sum⟩ := exists_steps others
    rw [List.sum_cons] at small ⊢
    have next := ih others (start + n) (by rwa [Nat.cast_add, add_div, add_assoc])
    have fits : start + n ≤ 2 ^ 53 := by
      rw [sum, ← add_div, ← add_div, div_le_div_iff_of_pos_right positive] at small
      have fits : start + (n + steps) ≤ 2 ^ 53 := by exact_mod_cast small
      omega
    rw [Nat.cast_add, add_div, accumulate] at next
    rw [accumulate, List.foldl_cons, cast_add_cast fits fine, next, add_assoc]

/-- A finite number of at most this magnitude. -/
structure Within (x : Float64) (bound : ℚ) : Prop where
  finite : x.isFinite = true
  abs_le : |x.toRat| ≤ bound

variable {a b c d : ℚ}

theorem within_round {q : ℚ} (most : |q| ≤ a) (small : a < 2 ^ 52) (zero : Bool) :
    (round q zero).Within (a + 1 / 4) ∧ |(round q zero).toRat - q| ≤ 1 / 4 := by
  obtain ⟨finite, near⟩ := round_near (most.trans_lt small) (by decide) zero
  have near : |(round q zero).toRat - q| ≤ 1 / 4 := near.trans (by norm_num)
  refine ⟨⟨finite, ?_⟩, near⟩
  rw [abs_le] at *
  constructor <;> linarith

theorem within_cast {q : ℚ} (most : |q| ≤ a) (small : a < 2 ^ 52) :
    (q : Float64).Within (a + 1 / 4) := by
  rw [cast_eq_round]
  exact (within_round most small false).1

namespace Within

theorem mul (left : x.Within a) (right : y.Within b) (small : a * b < 2 ^ 52) :
    (x * y).Within (a * b + 1 / 4) := by
  rw [mul_of_finite left.finite right.finite]
  refine (within_round ?_ small _).1
  rw [abs_mul]
  exact mul_le_mul left.abs_le right.abs_le (abs_nonneg _) ((abs_nonneg _).trans left.abs_le)

theorem near_sub (left : x.Within a) (right : y.Within b) (small : a + b < 2 ^ 52) :
    (x - y).Within (a + b + 1 / 4) ∧ |(x - y).toRat - (x.toRat - y.toRat)| ≤ 1 / 4 := by
  rw [sub_of_finite left.finite right.finite]
  refine within_round ?_ small _
  exact (abs_sub _ _).trans (add_le_add left.abs_le right.abs_le)

end Within

end Float64

end AiStorage.Lib
