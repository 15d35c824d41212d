import Mathlib.Order.Lattice
import Mathlib.Data.List.Basic

/-!
# The first best item of a list

A loop that keeps the current favourite and replaces it only by a strictly better
item ends with the first item of greatest key.
-/
namespace AiStorage.Lib

variable {α κ : Type*} [LinearOrder κ]

/-- `item` has the greatest key of the list and stands before every other such item. -/
def FirstBest (key : α → κ) (items : List α) (item : α) : Prop :=
  ∃ before after, items = before ++ item :: after ∧ (∀ x ∈ before, key x < key item) ∧
    ∀ x ∈ after, key x ≤ key item

namespace FirstBest

variable {key : α → κ} {items : List α} {item : α}

theorem mem (best : FirstBest key items item) : item ∈ items := by
  obtain ⟨before, after, rfl, -, -⟩ := best
  simp

theorem le (best : FirstBest key items item) {x : α} (member : x ∈ items) :
    key x ≤ key item := by
  obtain ⟨before, after, rfl, lower, upper⟩ := best
  rcases List.mem_append.mp member with earlier | later
  · exact le_of_lt (lower x earlier)
  · rcases List.mem_cons.mp later with rfl | later
    · exact le_rfl
    · exact upper x later

theorem singleton (key : α → κ) (item : α) : FirstBest key [item] item :=
  ⟨[], [], rfl, by simp, by simp⟩

theorem replace (best : FirstBest key items item) {x : α} (better : key item < key x) :
    FirstBest key (items ++ [x]) x :=
  ⟨items, [], rfl, fun _ member => lt_of_le_of_lt (best.le member) better, by simp⟩

theorem keep (best : FirstBest key items item) {x : α} (worse : key x ≤ key item) :
    FirstBest key (items ++ [x]) item := by
  obtain ⟨before, after, rfl, lower, upper⟩ := best
  refine ⟨before, after ++ [x], by simp, lower, ?_⟩
  intro y member
  rcases List.mem_append.mp member with earlier | last
  · exact upper y earlier
  · rw [List.mem_singleton.mp last]
    exact worse

theorem unique {other : α} (best : FirstBest key items item) (also : FirstBest key items other) :
    item = other := by
  obtain ⟨before, after, rfl, lower, upper⟩ := best
  obtain ⟨before', after', same, lower', upper'⟩ := also
  rcases List.append_eq_append_iff.mp same with ⟨middle, rfl, tail⟩ | ⟨middle, rfl, tail⟩
  · cases middle with
    | nil => exact (List.cons.inj tail).1
    | cons x rest =>
      obtain ⟨rfl, rfl⟩ := List.cons.inj tail
      exact absurd (lower' item (by simp)) (not_lt.mpr (upper other (by simp)))
  · cases middle with
    | nil => exact (List.cons.inj tail).1.symm
    | cons x rest =>
      obtain ⟨rfl, rfl⟩ := List.cons.inj tail
      exact absurd (lower other (by simp)) (not_lt.mpr (upper' item (by simp)))

theorem foldl (best : FirstBest key items item) (rest : List α) :
    FirstBest key (items ++ rest)
      (rest.foldl (fun best x => if key best < key x then x else best) item) := by
  induction rest generalizing items item with
  | nil => simpa using best
  | cons x rest ih =>
    rw [List.append_cons, List.foldl_cons]
    split_ifs with better
    · exact ih (best.replace better)
    · exact ih (best.keep (not_lt.mp better))

end FirstBest

end AiStorage.Lib
