import Mathlib.Tactic.Ring

/-!
# Signed machine integers

A signed integer of a given width, as an integer that wraps around.
-/
namespace AiStorage.Lib

/-- Two's-complement wrap-around of an `int` of `bits` bits. -/
def wrapInt (bits : Nat) (n : Int) : Int := (n + 2 ^ (bits - 1)) % 2 ^ bits - 2 ^ (bits - 1)

section Wrap

variable {bits : Nat} (positive : 0 < bits)
include positive

theorem two_pow_eq_double : (2 : Int) ^ bits = 2 * 2 ^ (bits - 1) := by
  rw [← Int.pow_succ', Nat.sub_add_cancel positive]

theorem wrapInt_of_range {n : Int} (least : -(2 ^ (bits - 1)) ≤ n) (most : n < 2 ^ (bits - 1)) :
    wrapInt bits n = n := by
  have double := two_pow_eq_double positive
  rw [wrapInt, Int.emod_eq_of_lt (by omega) (by omega)]
  omega

omit positive in
theorem wrapInt_wrapInt_add (n k : Int) :
    wrapInt bits (wrapInt bits n + k) = wrapInt bits (n + k) := by
  simp only [wrapInt]
  rw [show (n + 2 ^ (bits - 1)) % 2 ^ bits - 2 ^ (bits - 1) + k + 2 ^ (bits - 1) =
    (n + 2 ^ (bits - 1)) % 2 ^ bits + k by ring, Int.emod_add_emod,
    show n + 2 ^ (bits - 1) + k = n + k + 2 ^ (bits - 1) by ring]

theorem wrapInt_succ (n : Int) :
    wrapInt bits (n + 1) = wrapInt bits n + 1 ∨
      wrapInt bits (n + 1) = -(2 ^ (bits - 1)) ∧ wrapInt bits n + 1 = 2 ^ (bits - 1) := by
  have double := two_pow_eq_double positive
  have half : (0 : Int) < 2 ^ (bits - 1) := Int.pow_pos (by decide)
  have least := Int.emod_nonneg (n + 2 ^ (bits - 1)) (show (2 : Int) ^ bits ≠ 0 by omega)
  have most := Int.emod_lt_of_pos (n + 2 ^ (bits - 1)) (show (0 : Int) < 2 ^ bits by omega)
  have next : wrapInt bits (n + 1) = wrapInt bits (wrapInt bits n + 1) :=
    (wrapInt_wrapInt_add n 1).symm
  by_cases last : wrapInt bits n + 1 = 2 ^ (bits - 1)
  · right
    constructor
    · rw [next, last, wrapInt, ← Int.two_mul, ← double, Int.emod_self, Int.zero_sub]
    · exact last
  · left
    rw [next]
    apply wrapInt_of_range positive
    · simp only [wrapInt]
      omega
    · simp only [wrapInt] at last ⊢
      omega

end Wrap

end AiStorage.Lib
