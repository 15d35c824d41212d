import Mathlib.Data.List.Basic
import Mathlib.Order.Nat

/-!
# Level counts

Items of a list are counted one at a time, always the earliest item of least count.
-/
namespace AiStorage.Lib

variable {α : Type*} [DecidableEq α]

/-- In order of first occurrence the counts never rise and fall by at most one. -/
def Level (items : List α) (count : α → Nat) : Prop :=
  ∀ a ∈ items, ∀ b ∈ items, items.idxOf a ≤ items.idxOf b → count b ≤ count a ∧ count a ≤ count b + 1

/-- The earliest item of least count. -/
structure Next (items : List α) (count : α → Nat) (item : α) : Prop where
  mem : item ∈ items
  least : ∀ a ∈ items, count item ≤ count a
  first : ∀ a ∈ items, items.idxOf a < items.idxOf item → count item < count a

theorem mem_of_idxOf_lt {before after : List α} {a item : α}
    (earlier : (before ++ item :: after).idxOf a < (before ++ item :: after).idxOf item) :
    a ∈ before := by
  by_contra outside
  rw [List.idxOf_append_of_notMem outside] at earlier
  by_cases inside : item ∈ before
  · rw [List.idxOf_append_of_mem inside] at earlier
    have bound := List.idxOf_lt_length_iff.mpr inside
    omega
  · rw [List.idxOf_append_of_notMem inside, List.idxOf_cons_self] at earlier
    omega

namespace Level

variable {items : List α} {count : α → Nat}

theorem zero (items : List α) : Level items fun _ => 0 := by
  intro a _ b _ _
  exact ⟨le_rfl, Nat.zero_le _⟩

theorem halve (level : Level items count) : Level items fun item => count item / 2 := by
  intro a inA b inB order
  have close := level a inA b inB order
  change count b / 2 ≤ count a / 2 ∧ count a / 2 ≤ count b / 2 + 1
  omega

theorem count_next (level : Level items count) {item : α} (next : Next items count item) :
    Level items (Function.update count item (count item + 1)) := by
  intro a inA b inB order
  have close := level a inA b inB order
  by_cases atA : a = item
  · subst atA
    by_cases atB : b = a
    · subst atB
      simp
    · have least := next.least b inB
      rw [Function.update_self, Function.update_of_ne atB]
      omega
  · rw [Function.update_of_ne atA]
    by_cases atB : b = item
    · subst atB
      have earlier : items.idxOf a < items.idxOf b :=
        lt_of_le_of_ne order fun same => atA ((List.idxOf_inj inA).mp same)
      have more := next.first a inA earlier
      rw [Function.update_self]
      omega
    · rw [Function.update_of_ne atB]
      exact close

theorem close (level : Level items count) {a b : α} (inA : a ∈ items) (inB : b ∈ items) :
    count a ≤ count b + 1 := by
  rcases le_total (items.idxOf a) (items.idxOf b) with order | order
  · exact (level a inA b inB order).2
  · have other := (level b inB a inA order).1
    omega

theorem shares_close {start share : α → Nat} (before : Level items start)
    (after : Level items fun item => start item + share item) {a b : α} (inA : a ∈ items)
    (inB : b ∈ items) : share a ≤ share b + 1 := by
  rcases le_total (items.idxOf a) (items.idxOf b) with order | order
  · have low := before a inA b inB order
    have high := after a inA b inB order
    simp only at high
    omega
  · have low := before b inB a inA order
    have high := after b inB a inA order
    simp only at high
    omega

end Level

end AiStorage.Lib
