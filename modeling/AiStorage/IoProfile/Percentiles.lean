import AiStorage.Lib.Interpolation
import Mathlib.Data.Rat.Floor

/-!
# Latency percentiles of the benchmark

`stats.hpp` of the C++ benchmark and `_percentile` of the Python profile generator, over exact
rationals.
-/
namespace AiStorage.IoProfile
open Lib

/-! ### `stats.hpp` -/

structure SummaryStats where
  p50 : ℚ := 0
  p95 : ℚ := 0
  p99 : ℚ := 0
  mean : ℚ := 0
  min : ℚ := 0
  max : ℚ := 0

def percentile (sorted : List ℚ) (pct : ℚ) : ℚ :=
  if sorted.length = 0 then 0
  else if sorted.length = 1 then sorted.getD 0 0
  else
    let pos := pct / 100 * ((sorted.length - 1 : ℕ) : ℚ)
    let lo := pos.floor.toNat
    let hi := Min.min (lo + 1) (sorted.length - 1)
    let frac := pos - lo
    sorted.getD lo 0 * (1 - frac) + sorted.getD hi 0 * frac

def summarize (values : List ℚ) : SummaryStats :=
  if values.length = 0 then {}
  else
    let values := values.insertionSort (· ≤ ·)
    { p50 := percentile values 50
      p95 := percentile values 95
      p99 := percentile values 99
      min := values.headD 0
      max := values.getLastD 0
      mean := values.sum / values.length }

namespace TierProfile

/-- `statistics.quantiles(values, n=n, method="inclusive")` of two values or more. -/
def quantiles (values : List ℚ) (n : ℕ) : List ℚ :=
  let data := values.insertionSort (· ≤ ·)
  let m := data.length - 1
  (List.range' 1 (n - 1)).map fun i =>
    let j := i * m / n
    let delta := i * m % n
    (data.getD j 0 * ((n - delta : ℕ) : ℚ) + data.getD (j + 1) 0 * (delta : ℚ)) / n

def percentile (values : List ℚ) (pct : ℕ) : ℚ :=
  if values.length = 0 then 0
  else if values.length = 1 then values.getD 0 0
  else (quantiles values 100).getD (pct - 1) 0

end TierProfile

/-! ### Both read one sequence -/

def readAt (values : List ℚ) (pct : ℕ) : ℚ :=
  between (clamped (values.insertionSort (· ≤ ·))) 100 (pct * (values.length - 1))

theorem floor_hundredths (k : ℕ) : ((k : ℚ) / 100).floor.toNat = k / 100 := by
  have floor := Rat.floor_natCast_div_natCast k 100
  change ((k : ℚ) / ((100 : ℕ) : ℚ)).floor.toNat = k / 100
  rw [show ((k : ℚ) / ((100 : ℕ) : ℚ)).floor = (k : ℤ) / (100 : ℕ) from floor]
  omega

theorem share_hundredths (k : ℕ) :
    (k : ℚ) / 100 - ((k / 100 : ℕ) : ℚ) = ((k % 100 : ℕ) : ℚ) / (100 : ℕ) := by
  have whole : (100 * (k / 100 : ℕ) + (k % 100 : ℕ) : ℚ) = k := by
    exact_mod_cast Nat.div_add_mod k 100
  rw [← whole]
  push_cast
  ring

theorem percentile_eq_between {sorted : List ℚ} (some : sorted ≠ []) {pct : ℕ}
    (most : pct ≤ 100) :
    percentile sorted pct = between (clamped sorted) 100 (pct * (sorted.length - 1)) := by
  have positive := List.length_pos_iff.mpr some
  rw [percentile, if_neg positive.ne', between_eq (by decide)]
  split_ifs with single
  · rw [single]
    simp [clamped, single]
  · have inside : pct * (sorted.length - 1) / 100 ≤ sorted.length - 1 := by
      apply Nat.div_le_of_le_mul
      exact Nat.mul_le_mul_right _ most
    have position : (pct : ℚ) / 100 * ((sorted.length - 1 : ℕ) : ℚ) =
        ((pct * (sorted.length - 1) : ℕ) : ℚ) / 100 := by
      push_cast
      ring
    simp only [position, floor_hundredths, share_hundredths, clamped, min_eq_left inside]
    ring

theorem quantiles_getD (values : List ℚ) {n i : ℕ} (positive : 0 < i) (below : i < n) :
    (TierProfile.quantiles values n).getD (i - 1) 0 =
      ((values.insertionSort (· ≤ ·)).getD (i * (values.length - 1) / n) 0 *
          ((n - i * (values.length - 1) % n : ℕ) : ℚ) +
        (values.insertionSort (· ≤ ·)).getD (i * (values.length - 1) / n + 1) 0 *
          ((i * (values.length - 1) % n : ℕ) : ℚ)) / n := by
  have place : 1 + (i - 1) = i := by omega
  have inside : i - 1 < (List.range' 1 (n - 1)).length := by
    rw [List.length_range']
    omega
  rw [TierProfile.quantiles, List.getD_eq_getElem _ _ (by simpa using inside), List.getElem_map,
    List.getElem_range', Nat.one_mul, place, List.length_insertionSort]

theorem TierProfile.percentile_eq_readAt {values : List ℚ} (some : values ≠ []) {pct : ℕ}
    (positive : 0 < pct) (below : pct < 100) :
    TierProfile.percentile values pct = readAt values pct := by
  have filled := List.length_pos_iff.mpr some
  rw [TierProfile.percentile, if_neg filled.ne', readAt]
  split_ifs with single
  · obtain ⟨value, rfl⟩ := List.length_eq_one_iff.mp single
    simp [between, clamped]
  · -- below one hundred percent the position stays in front of the last item
    have inside : pct * (values.length - 1) / 100 < values.length - 1 := by
      rw [Nat.div_lt_iff_lt_mul (by decide), Nat.mul_comm]
      exact Nat.mul_lt_mul_of_pos_left below (by omega)
    have sorted : (values.insertionSort (· ≤ ·)).length = values.length :=
      List.length_insertionSort _ _
    rw [quantiles_getD values positive below, between, clamped, clamped, sorted,
      min_eq_left inside.le, min_eq_left (by omega)]

/-! ### The sorted list -/

section Sorted

variable {values : List ℚ}

theorem sort_ne_nil (some : values ≠ []) : values.insertionSort (· ≤ ·) ≠ [] := by
  intro none
  have length := congrArg List.length none
  rw [List.length_insertionSort] at length
  exact some (List.length_eq_zero_iff.mp length)

theorem sort_eq_of_perm {other : List ℚ} (same : other.Perm values) :
    other.insertionSort (· ≤ ·) = values.insertionSort (· ≤ ·) := by
  apply List.Perm.eq_of_sortedLE List.sortedLE_insertionSort List.sortedLE_insertionSort
  calc (other.insertionSort (· ≤ ·)).Perm other := List.perm_insertionSort _ _
    List.Perm _ values := same
    List.Perm _ (values.insertionSort (· ≤ ·)) := (List.perm_insertionSort _ _).symm

theorem TierProfile.percentile_perm {other : List ℚ} (same : other.Perm values) (pct : ℕ) :
    TierProfile.percentile other pct = TierProfile.percentile values pct := by
  rw [TierProfile.percentile, TierProfile.percentile, same.length_eq]
  split_ifs with none single
  · rfl
  · obtain ⟨v, rfl⟩ := List.length_eq_one_iff.mp single
    rw [List.perm_singleton.mp same]
  · rw [TierProfile.quantiles, TierProfile.quantiles, sort_eq_of_perm same]

theorem sort_append {v : ℚ} (largest : ∀ x ∈ values, x ≤ v) :
    (values ++ [v]).insertionSort (· ≤ ·) = values.insertionSort (· ≤ ·) ++ [v] := by
  have sorted : (values.insertionSort (· ≤ ·) ++ [v]).SortedLE := by
    rw [List.sortedLE_iff_pairwise, List.pairwise_append]
    refine ⟨List.sortedLE_insertionSort.pairwise, List.pairwise_singleton _ _, ?_⟩
    intro x member y last
    rw [List.mem_singleton.mp last]
    exact largest x ((List.mem_insertionSort _).mp member)
  apply List.Perm.eq_of_sortedLE List.sortedLE_insertionSort sorted
  calc ((values ++ [v]).insertionSort (· ≤ ·)).Perm (values ++ [v]) := List.perm_insertionSort _ _
    List.Perm _ (values.insertionSort (· ≤ ·) ++ [v]) :=
      (List.perm_insertionSort _ _).symm.append_right [v]

/-! ### Readings of the sorted list -/

theorem readAt_monotone : Monotone (readAt values) := by
  intro pct more further
  apply between_monotone (by decide) (clamped_monotone List.sortedLE_insertionSort)
  exact Nat.mul_le_mul_right _ further

theorem readAt_zero : readAt values 0 = clamped (values.insertionSort (· ≤ ·)) 0 := by
  rw [readAt, Nat.zero_mul, ← Nat.mul_zero 100, between_mul (by decide)]

theorem readAt_hundred :
    readAt values 100 = clamped (values.insertionSort (· ≤ ·)) (values.length - 1) := by
  rw [readAt, between_mul (by decide)]

theorem readAt_bounds (some : values ≠ []) :
    readAt values 0 ∈ values ∧ readAt values 100 ∈ values ∧
      ∀ v ∈ values, readAt values 0 ≤ v ∧ v ≤ readAt values 100 := by
  have inside : ∀ i, clamped (values.insertionSort (· ≤ ·)) i ∈ values := fun i =>
    (List.mem_insertionSort _).mp (clamped_mem (sort_ne_nil some) i)
  have rises := clamped_monotone (List.sortedLE_insertionSort (l := values))
  rw [readAt_zero, readAt_hundred]
  refine ⟨inside 0, inside _, ?_⟩
  intro v member
  obtain ⟨i, bound, rfl⟩ := List.mem_iff_getElem.mp ((List.mem_insertionSort (· ≤ ·)).mpr member)
  rw [← clamped_of_lt bound]
  rw [List.length_insertionSort] at bound
  constructor
  · exact rises (Nat.zero_le i)
  · exact rises (by omega)

theorem readAt_le_append (some : values ≠ []) {v : ℚ} (largest : ∀ x ∈ values, x ≤ v) (pct : ℕ) :
    readAt values pct ≤ readAt (values ++ [v]) pct := by
  have rises : ∀ i, clamped (values.insertionSort (· ≤ ·)) i ≤
      clamped (values.insertionSort (· ≤ ·) ++ [v]) i :=
    clamped_le_append (sort_ne_nil some) fun x member =>
      largest x ((List.mem_insertionSort _).mp member)
  have further : pct * (values.length - 1) ≤ pct * ((values ++ [v]).length - 1) := by
    apply Nat.mul_le_mul_left
    rw [List.length_append, List.length_singleton]
    omega
  have sorted : (values.insertionSort (· ≤ ·) ++ [v]).SortedLE := by
    rw [← sort_append largest]
    exact List.sortedLE_insertionSort
  rw [readAt, readAt, sort_append largest]
  calc between (clamped (values.insertionSort (· ≤ ·))) 100 (pct * (values.length - 1))
      ≤ between (clamped (values.insertionSort (· ≤ ·) ++ [v])) 100 (pct * (values.length - 1)) :=
        between_le_between (by decide) rises _
    _ ≤ _ := between_monotone (by decide) (clamped_monotone sorted) further

theorem summarize_eq (some : values ≠ []) :
    (summarize values).p50 = readAt values 50 ∧ (summarize values).p95 = readAt values 95 ∧
      (summarize values).p99 = readAt values 99 ∧ (summarize values).min = readAt values 0 ∧
      (summarize values).max = readAt values 100 := by
  have filled := List.length_pos_iff.mpr some
  have sorted := sort_ne_nil some
  have length : (values.insertionSort (· ≤ ·)).length = values.length :=
    List.length_insertionSort _ _
  have read : ∀ pct : ℕ, pct ≤ 100 →
      percentile (values.insertionSort (· ≤ ·)) pct = readAt values pct := by
    intro pct most
    rw [percentile_eq_between sorted most, length, readAt]
  rw [summarize, if_neg filled.ne']
  refine ⟨read 50 (by decide), read 95 (by decide), read 99 (by decide), ?_, ?_⟩
  · rw [readAt_zero]
    cases items : values.insertionSort (· ≤ ·) with
    | nil => exact absurd items sorted
    | cons first rest => rfl
  · change (values.insertionSort (· ≤ ·)).getLastD 0 = _
    rw [readAt_hundred, clamped_of_ge sorted (by omega), List.getLastD_eq_getLast?,
      List.getLast?_eq_some_getLast sorted]
    rfl

end Sorted

/-- Both implementations agree on the three percentiles of a non-empty list of
latencies; these do not depend on its order, lie in order between the least and the
greatest latency, and do not fall when a greatest latency is appended. -/
theorem percentiles_agree (values : List ℚ) (some : values ≠ []) :
    ((summarize values).p50 = TierProfile.percentile values 50 ∧
      (summarize values).p95 = TierProfile.percentile values 95 ∧
      (summarize values).p99 = TierProfile.percentile values 99) ∧
    (∀ other, other.Perm values → summarize other = summarize values) ∧
    ((summarize values).min ∈ values ∧ (summarize values).max ∈ values ∧
      ∀ v ∈ values, (summarize values).min ≤ v ∧ v ≤ (summarize values).max) ∧
    ((summarize values).min ≤ (summarize values).p50 ∧
      (summarize values).p50 ≤ (summarize values).p95 ∧
      (summarize values).p95 ≤ (summarize values).p99 ∧
      (summarize values).p99 ≤ (summarize values).max) ∧
    ∀ v, (summarize values).max ≤ v →
      (summarize values).p50 ≤ (summarize (values ++ [v])).p50 ∧
      (summarize values).p95 ≤ (summarize (values ++ [v])).p95 ∧
      (summarize values).p99 ≤ (summarize (values ++ [v])).p99 := by
  obtain ⟨p50, p95, p99, least, greatest⟩ := summarize_eq some
  obtain ⟨leastMem, greatestMem, bounds⟩ := readAt_bounds some
  have order : ∀ {pct more : ℕ}, pct ≤ more → readAt values pct ≤ readAt values more :=
    fun further => readAt_monotone further
  rw [p50, p95, p99, least, greatest]
  refine ⟨⟨?_, ?_, ?_⟩, ?_, ⟨leastMem, greatestMem, bounds⟩, ⟨?_, ?_, ?_, ?_⟩, ?_⟩
  · exact (TierProfile.percentile_eq_readAt some (by decide) (by decide)).symm
  · exact (TierProfile.percentile_eq_readAt some (by decide) (by decide)).symm
  · exact (TierProfile.percentile_eq_readAt some (by decide) (by decide)).symm
  · intro other same
    rw [summarize, summarize, sort_eq_of_perm same, same.length_eq]
  · exact order (by decide)
  · exact order (by decide)
  · exact order (by decide)
  · exact order (by decide)
  · intro v above
    have largest : ∀ x ∈ values, x ≤ v := fun x member => (bounds x member).2.trans above
    obtain ⟨p50', p95', p99', -, -⟩ := summarize_eq (List.append_ne_nil_of_left_ne_nil some [v])
    rw [p50', p95', p99']
    exact ⟨readAt_le_append some largest 50, readAt_le_append some largest 95,
      readAt_le_append some largest 99⟩

theorem percentiles_agree_three :
    (summarize [3, 1, 2]).p50 = TierProfile.percentile [3, 1, 2] 50 ∧
      (summarize [3, 1, 2]).p95 = TierProfile.percentile [3, 1, 2] 95 ∧
      (summarize [3, 1, 2]).p99 = TierProfile.percentile [3, 1, 2] 99 :=
  (percentiles_agree [3, 1, 2] (List.cons_ne_nil 3 [1, 2])).1

end AiStorage.IoProfile
