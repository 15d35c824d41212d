import Mathlib.Data.List.Rotate

/-!
# Going round a list

Items of a list are taken one after another, starting over at its end.
-/
namespace AiStorage.Lib

variable {α : Type*}

/-- `number` items of the list taken in order from a position, starting over at its end. -/
def around (items : List α) (start number : Nat) : List α :=
  (List.range number).filterMap fun i => items[(start + i) % items.length]?

variable (items : List α)

theorem filterMap_getElem? (number : Nat) :
    ((List.range number).filterMap fun i => items[i]?) = items.take number := by
  induction number with
  | zero => rfl
  | succ number earlier =>
    rw [List.range_succ, List.filterMap_append, earlier, List.take_add_one]
    cases last : items[number]? with
    | none => simp [last]
    | some item => simp [last]

theorem around_of_le (start : Nat) {number : Nat} (short : number ≤ items.length) :
    around items start number = (items.rotate start).take number := by
  rw [← filterMap_getElem?]
  apply List.filterMap_congr
  intro i taken
  have inside : i < items.length := (List.mem_range.mp taken).trans_le short
  rw [List.getElem?_rotate inside, Nat.add_comm]

theorem around_add_round (start number : Nat) :
    around items start (items.length + number) =
      items.rotate start ++ around items start number := by
  have first : around items start items.length = items.rotate start := by
    rw [around_of_le items start le_rfl, List.take_of_length_le]
    rw [List.length_rotate]
  have again : ((List.range number).map (items.length + ·)).filterMap
      (fun i => items[(start + i) % items.length]?) = around items start number := by
    rw [List.filterMap_map]
    apply List.filterMap_congr
    intro i _
    have same : (start + (items.length + i)) % items.length = (start + i) % items.length := by
      rw [Nat.add_left_comm, Nat.add_mod_left]
    simp only [Function.comp_apply, same]
  rw [around, List.range_add, List.filterMap_append, again, ← first]
  rfl

theorem around_mod (start number : Nat) :
    around items (start % items.length) number = around items start number := by
  simp only [around, Nat.mod_add_mod]

theorem around_succ (start number : Nat) :
    around items start (number + 1) =
      items[start % items.length]?.toList ++ around items (start + 1) number := by
  have later : ((List.range number).map Nat.succ).filterMap
      (fun i => items[(start + i) % items.length]?) = around items (start + 1) number := by
    rw [List.filterMap_map]
    apply List.filterMap_congr
    intro i _
    simp only [Function.comp_apply, Nat.succ_eq_add_one, Nat.add_assoc, Nat.add_comm 1]
  rw [around, List.range_succ_eq_map, List.filterMap_cons, later]
  cases items[(start + 0) % items.length]? with
  | none => rfl
  | some item => rfl

theorem length_around (positive : 0 < items.length) (number : Nat) :
    ∀ start, (around items start number).length = number := by
  induction number with
  | zero =>
    intro start
    rfl
  | succ number shorter =>
    intro start
    rw [around_succ, List.getElem?_eq_getElem (Nat.mod_lt start positive), List.length_append,
      shorter (start + 1)]
    exact Nat.add_comm 1 number

section Count

variable [DecidableEq α]

theorem count_around (items : List α) (start number : Nat) (item : α)
    (positive : 0 < items.length) :
    items.count item * (number / items.length) ≤ (around items start number).count item ∧
      (around items start number).count item ≤
        items.count item * ((number + items.length - 1) / items.length) := by
  induction number using Nat.strong_induction_on with
  | _ number shorter =>
    rcases Nat.lt_or_ge number items.length with short | long
    · rw [Nat.div_eq_of_lt short, around_of_le items start short.le]
      constructor
      · exact Nat.zero_le _
      · rcases Nat.eq_zero_or_pos number with rfl | some
        · simp
        · -- a part of one round holds no more of the item than the list does
          have one : (number + items.length - 1) / items.length = 1 := by
            rw [Nat.div_eq_iff positive]
            omega
          rw [one, Nat.mul_one, ← (List.rotate_perm items start).count_eq item]
          exact (List.take_sublist number _).count_le item
    · obtain ⟨rest, rfl⟩ := Nat.exists_eq_add_of_le long
      have part := shorter rest (by omega)
      have up : (items.length + rest + items.length - 1) / items.length =
          (rest + items.length - 1) / items.length + 1 := by
        rw [show items.length + rest + items.length - 1 =
          rest + items.length - 1 + items.length by omega, Nat.add_div_right _ positive]
      rw [around_add_round, List.count_append, (List.rotate_perm items start).count_eq item,
        Nat.add_div_left _ positive, up, Nat.mul_add, Nat.mul_add]
      omega

end Count

end AiStorage.Lib
