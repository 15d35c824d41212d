import Mathlib.Algebra.BigOperators.Group.List.Basic
import Mathlib.Algebra.Order.Ring.Int

/-!
# Totals

The sum of a size over the items of a list, and a loop that gives up the first item as long
as something is still needed.
-/
namespace AiStorage.Lib

section Lists

variable {α : Type} (size : α → Int)

def total (items : List α) : Int := (items.map size).sum

@[simp] theorem total_nil : total size [] = 0 := rfl

@[simp] theorem total_cons (x : α) (rest : List α) :
    total size (x :: rest) = size x + total size rest := by
  simp [total]

@[simp] theorem total_append (items rest : List α) :
    total size (items ++ rest) = total size items + total size rest := by
  simp [total]

theorem total_filter_add (p : α → Bool) (items : List α) :
    total size (items.filter p) + total size (items.filter fun x => !p x) = total size items := by
  induction items with
  | nil => rfl
  | cons x rest ih =>
    cases holds : p x <;> simp [holds] <;> omega

end Lists

section Shedding

variable {α : Type} (size : α → Int)

/-- The items that are given up until the need is met. -/
def shed : Int → List α → List α
  | _, [] => []
  | need, x :: rest => if need ≤ 0 then [] else x :: shed (need - size x) rest

variable {size} {need : Int} {items : List α}

theorem shed_of_nonpos (met : need ≤ 0) : shed size need items = [] := by
  cases items with
  | nil => rfl
  | cons x rest => rw [shed, if_pos met]

theorem shed_cons_of_pos {x : α} {rest : List α} (needed : 0 < need) :
    shed size need (x :: rest) = x :: shed size (need - size x) rest := by
  rw [shed, if_neg (not_le.mpr needed)]

end Shedding

end AiStorage.Lib
