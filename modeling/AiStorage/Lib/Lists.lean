import Mathlib.Data.List.Sort

/-!
# Lists that correspond item by item, and sorted lists
-/
namespace AiStorage.Lib

theorem forall₂_mem_right {α β : Type} {R : α → β → Prop} {xs : List α} {ys : List β}
    (each : List.Forall₂ R xs ys) {y : β} (member : y ∈ ys) : ∃ x ∈ xs, R x y := by
  induction each with
  | nil => simp at member
  | @cons x y' xs ys here later ih =>
    rcases List.mem_cons.mp member with rfl | inside
    · exact ⟨x, List.mem_cons_self, here⟩
    · obtain ⟨x', found, related⟩ := ih inside
      exact ⟨x', .tail x found, related⟩

theorem forall₂_mem_left {α β : Type} {R : α → β → Prop} {xs : List α} {ys : List β}
    (each : List.Forall₂ R xs ys) {x : α} (member : x ∈ xs) : ∃ y ∈ ys, R x y :=
  forall₂_mem_right each.flip member

theorem forall₂_imp_mem {α β : Type} {R S : α → β → Prop} {xs : List α} {ys : List β}
    (each : List.Forall₂ R xs ys) (imp : ∀ x y, x ∈ xs → R x y → S x y) : List.Forall₂ S xs ys := by
  induction each with
  | nil => exact .nil
  | @cons x y xs ys here later ih =>
    exact .cons (imp x y List.mem_cons_self here)
      (ih fun x' y' member => imp x' y' (.tail x member))

theorem mapM_forall₂ {ε α β : Type} {R : α → β → Prop} {f : α → Except ε β} {items : List α}
    (each : ∀ x ∈ items, ∃ y, f x = .ok y ∧ R x y) :
    ∃ results, items.mapM f = .ok results ∧ List.Forall₂ R items results := by
  induction items with
  | nil => exact ⟨[], rfl, .nil⟩
  | cons x rest ih =>
    obtain ⟨y, first, related⟩ := each x List.mem_cons_self
    obtain ⟨results, others, all⟩ := ih fun z member => each z (.tail x member)
    refine ⟨y :: results, ?_, .cons related all⟩
    rw [List.mapM_cons, first, others]
    rfl

theorem forall₂_of_mapM {ε α β : Type} {f : α → Except ε β} {items : List α} {results : List β}
    (done : items.mapM f = .ok results) : List.Forall₂ (fun x y => f x = .ok y) items results := by
  induction items generalizing results with
  | nil =>
    cases done
    exact .nil
  | cons x rest ih =>
    rw [List.mapM_cons] at done
    cases first : f x with
    | error e =>
      rw [first] at done
      cases done
    | ok z =>
      cases others : rest.mapM f with
      | error e =>
        rw [first, others] at done
        cases done
      | ok zs =>
        rw [first, others] at done
        cases done
        exact .cons first (ih others)

theorem mapM_ok {ε α β : Type} {f : α → Except ε β} {g : α → β} {items : List α}
    (each : ∀ x ∈ items, f x = .ok (g x)) : items.mapM f = .ok (items.map g) := by
  induction items with
  | nil => rfl
  | cons x rest ih =>
    rw [List.mapM_cons, each x List.mem_cons_self, ih fun y member => each y (.tail x member)]
    rfl

theorem getLast?_insertionSort {α : Type} {r : α → α → Prop} [DecidableRel r] [Std.Total r]
    [IsTrans α r] {items : List α} {x : α} (member : x ∈ items)
    (greatest : ∀ y ∈ items, r x y → y = x) : (items.insertionSort r).getLast? = some x := by
  have inside : x ∈ items.insertionSort r := (List.mem_insertionSort r).mpr member
  have sorted := List.pairwise_insertionSort r items
  rcases List.eq_nil_or_concat (items.insertionSort r) with empty | ⟨front, last, shape⟩
  · rw [empty] at inside
    cases inside
  · have there : last ∈ items := (List.mem_insertionSort r).mp (by simp [shape])
    rw [shape, List.concat_eq_append] at inside sorted
    rw [shape, List.concat_eq_append, List.getLast?_concat]
    rcases List.mem_append.mp inside with earlier | same
    · have below := (List.pairwise_append.mp sorted).2.2 x earlier last List.mem_cons_self
      rw [greatest last there below]
    · rw [List.mem_singleton.mp same]

theorem rel_getLast?_insertionSort {α : Type} {r : α → α → Prop} [DecidableRel r] [Std.Total r]
    [IsTrans α r] {items : List α} {x : α} (last : (items.insertionSort r).getLast? = some x) :
    x ∈ items ∧ ∀ y ∈ items, r y x := by
  obtain ⟨front, shape⟩ := List.getLast?_eq_some_iff.mp last
  have sorted := List.pairwise_insertionSort r items
  have member : ∀ y, y ∈ items ↔ y ∈ front ++ [x] := by
    intro y
    rw [← shape, List.mem_insertionSort]
  rw [shape] at sorted
  refine ⟨(member x).mpr (by simp), ?_⟩
  intro y inside
  rcases List.mem_append.mp ((member y).mp inside) with earlier | same
  · exact (List.pairwise_append.mp sorted).2.2 y earlier x List.mem_cons_self
  · rw [List.mem_singleton.mp same]
    exact (Std.Total.total (r := r) x x).elim id id

section Sorted

variable {α : Type} {r : α → α → Prop} [DecidableRel r] [IsTrans α r] (p : α → Bool)

theorem filter_orderedInsert (x : α) {items : List α} (sorted : items.Pairwise r) :
    (items.orderedInsert r x).filter p =
      if p x then (items.filter p).orderedInsert r x else items.filter p := by
  induction items with
  | nil => cases holds : p x <;> simp [holds]
  | cons y rest ih =>
    have later := List.pairwise_cons.mp sorted
    rw [List.orderedInsert_cons]
    split_ifs with here holds holds
    · -- everything that is left comes after `x`
      have first : ∀ z ∈ (y :: rest).filter p, r x z := by
        intro z member
        rcases List.mem_cons.mp (List.mem_filter.mp member).1 with rfl | inside
        · exact here
        · exact IsTrans.trans _ _ _ here (later.1 z inside)
      rw [List.filter_cons_of_pos holds]
      cases left : (y :: rest).filter p with
      | nil => rfl
      | cons z others =>
        rw [List.orderedInsert_cons_of_le _ _ (first z (by rw [left]; exact List.mem_cons_self))]
    · rw [List.filter_cons_of_neg holds]
    · rw [List.filter_cons, ih later.2, if_pos holds, List.filter_cons]
      split_ifs
      · rw [List.orderedInsert_of_not_le _ _ here]
      · rfl
    · rw [List.filter_cons, ih later.2, if_neg holds, List.filter_cons]

theorem filter_insertionSort [Std.Total r] (items : List α) :
    (items.insertionSort r).filter p = (items.filter p).insertionSort r := by
  induction items with
  | nil => rfl
  | cons x rest ih =>
    rw [List.insertionSort_cons, filter_orderedInsert p x (List.pairwise_insertionSort r rest), ih,
      List.filter_cons]
    split_ifs
    · rw [List.insertionSort_cons]
    · rfl

end Sorted

end AiStorage.Lib
