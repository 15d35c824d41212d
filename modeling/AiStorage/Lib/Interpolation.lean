import Mathlib.Algebra.Order.Field.Basic
import Mathlib.Data.List.GetD
import Mathlib.Data.List.Sort
import Mathlib.Tactic.FieldSimp
import Mathlib.Tactic.Linarith
import Mathlib.Tactic.Ring

/-!
# Interpolated order statistics

A sequence is read between two neighbours, at a position counted in equal parts of the step
from one to the next. A sorted list is such a sequence once it is continued by its last item.
-/
namespace AiStorage.Lib

section Between

variable {K : Type*} [Field K] [LinearOrder K] [IsStrictOrderedRing K] {f g : ℕ → K}
  {parts : ℕ}

/-- The value at `k` parts: whole steps lead to an item, the rest blends in the next. -/
def between (f : ℕ → K) (parts k : ℕ) : K :=
  (f (k / parts) * ((parts - k % parts : ℕ) : K) + f (k / parts + 1) * ((k % parts : ℕ) : K)) /
    parts

variable (positive : 0 < parts)
include positive

theorem between_eq (f : ℕ → K) (k : ℕ) :
    between f parts k =
      f (k / parts) + (f (k / parts + 1) - f (k / parts)) * (((k % parts : ℕ) : K) / parts) := by
  have rest : k % parts ≤ parts := (Nat.mod_lt k positive).le
  have nonzero : (parts : K) ≠ 0 := by exact_mod_cast positive.ne'
  rw [between, Nat.cast_sub rest]
  field_simp
  ring

theorem between_mul (f : ℕ → K) (i : ℕ) : between f parts (parts * i) = f i := by
  rw [between_eq positive, Nat.mul_div_cancel_left i positive, Nat.mul_mod_right]
  simp

theorem share_nonneg (k : ℕ) : 0 ≤ (((k % parts : ℕ) : K) / parts) := by positivity

theorem share_le_one (k : ℕ) : (((k % parts : ℕ) : K) / parts) ≤ 1 := by
  rw [div_le_one (by exact_mod_cast positive)]
  exact_mod_cast (Nat.mod_lt k positive).le

theorem le_between (rises : Monotone f) (k : ℕ) : f (k / parts) ≤ between f parts k := by
  rw [between_eq positive]
  have step : f (k / parts) ≤ f (k / parts + 1) := rises (Nat.le_succ _)
  have gain := mul_nonneg (sub_nonneg.mpr step) (share_nonneg positive k)
  linarith

theorem between_le (rises : Monotone f) (k : ℕ) : between f parts k ≤ f (k / parts + 1) := by
  rw [between_eq positive]
  have step : f (k / parts) ≤ f (k / parts + 1) := rises (Nat.le_succ _)
  have gain := mul_le_of_le_one_right (sub_nonneg.mpr step) (share_le_one positive k)
  linarith

theorem between_monotone (rises : Monotone f) : Monotone (between f parts) := by
  intro k l further
  have steps : k / parts ≤ l / parts := Nat.div_le_div_right further
  rcases steps.eq_or_lt with same | earlier
  · -- both lie in one step, so only the share differs
    have rests : k % parts ≤ l % parts := by
      have wholeK := Nat.div_add_mod k parts
      have wholeL := Nat.div_add_mod l parts
      rw [same] at wholeK
      omega
    have shares : (((k % parts : ℕ) : K) / parts) ≤ (((l % parts : ℕ) : K) / parts) := by
      gcongr
    have step : f (l / parts) ≤ f (l / parts + 1) := rises (Nat.le_succ _)
    rw [between_eq positive, between_eq positive, same]
    have gain := mul_le_mul_of_nonneg_left shares (sub_nonneg.mpr step)
    linarith
  · calc between f parts k ≤ f (k / parts + 1) := between_le positive rises k
      _ ≤ f (l / parts) := rises earlier
      _ ≤ between f parts l := le_between positive rises l

theorem between_le_between (below : ∀ i, f i ≤ g i) (k : ℕ) :
    between f parts k ≤ between g parts k := by
  rw [between, between]
  gcongr
  · exact below _
  · exact below _

end Between

/-! ### Sorted lists as sequences -/

section Clamped

variable {K : Type*} [Zero K]

/-- The items of a list in order, and its last item from then on. -/
def clamped (xs : List K) (i : ℕ) : K := xs.getD (min i (xs.length - 1)) 0

theorem clamped_of_lt {xs : List K} {i : ℕ} (inside : i < xs.length) : clamped xs i = xs[i] := by
  rw [clamped, min_eq_left (by omega), List.getD_eq_getElem _ _ inside]

theorem clamped_of_ge {xs : List K} {i : ℕ} (some : xs ≠ []) (beyond : xs.length ≤ i + 1) :
    clamped xs i = xs.getLast some := by
  have positive := List.length_pos_iff.mpr some
  rw [clamped, min_eq_right (by omega), List.getD_eq_getElem _ _ (by omega),
    List.getLast_eq_getElem]

theorem clamped_mem {xs : List K} (some : xs ≠ []) (i : ℕ) : clamped xs i ∈ xs := by
  have positive := List.length_pos_iff.mpr some
  rw [clamped, List.getD_eq_getElem _ _ (by omega)]
  exact List.getElem_mem _

variable [LinearOrder K]

theorem clamped_monotone {xs : List K} (sorted : xs.SortedLE) : Monotone (clamped xs) := by
  intro i j further
  rcases xs.eq_nil_or_concat with rfl | filled
  · rfl
  · have positive : 0 < xs.length := by
      obtain ⟨front, last, rfl⟩ := filled
      simp
    rw [clamped, clamped, List.getD_eq_getElem _ _ (by omega), List.getD_eq_getElem _ _ (by omega)]
    apply sorted.monotone_get
    rw [Fin.mk_le_mk]
    omega

theorem clamped_le_append {xs : List K} (some : xs ≠ []) {v : K} (largest : ∀ x ∈ xs, x ≤ v)
    (i : ℕ) : clamped xs i ≤ clamped (xs ++ [v]) i := by
  rcases Nat.lt_or_ge i xs.length with inside | beyond
  · rw [clamped_of_lt inside, clamped_of_lt (by simp; omega), List.getElem_append_left inside]
  · rw [clamped_of_ge (List.append_ne_nil_of_right_ne_nil _ (List.cons_ne_nil v []))
      (by simp; omega), List.getLast_append_singleton]
    exact largest _ (clamped_mem some i)

end Clamped

end AiStorage.Lib
