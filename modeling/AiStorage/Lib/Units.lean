import Mathlib.Data.List.TakeWhile

/-!
# Scanning a list into units

A scanner skips separators, takes a maximal run of word elements as one unit and every other
element as a unit of its own.
-/
namespace AiStorage.Lib

/-- How a scanner sees its elements; nothing is both in a word and a separator. -/
structure Classes (α : Type) where
  space : α → Bool
  word : α → Bool
  apart : ∀ c, word c = true → space c = false

namespace Classes

variable {α : Type} (k : Classes α)

/-- The scanning loop, over at most `fuel` elements. -/
def unitsFrom : Nat → List α → List (List α)
  | 0, _ => []
  | _, [] => []
  | fuel + 1, c :: rest =>
    if k.space c then unitsFrom fuel rest
    else if k.word c then (c :: rest.takeWhile k.word) :: unitsFrom fuel (rest.dropWhile k.word)
    else [c] :: unitsFrom fuel rest

def units (input : List α) : List (List α) := k.unitsFrom input.length input

theorem unitsFrom_units {fuel : Nat} {input : List α} (enough : input.length ≤ fuel) :
    k.unitsFrom fuel input = k.units input := by
  unfold units
  induction hn : input.length using Nat.strong_induction_on generalizing fuel input with
  | _ n ih =>
    subst hn
    cases input with
    | nil => cases fuel <;> rfl
    | cons c rest =>
      obtain ⟨fuel, rfl⟩ : ∃ more, fuel = more + 1 := ⟨fuel - 1, by simp at enough; omega⟩
      have shorter := (List.dropWhile_suffix (l := rest) k.word).length_le
      simp only [List.length_cons, Nat.add_le_add_iff_right] at enough
      have tail : ∀ more, rest.length ≤ more → k.unitsFrom more rest = k.unitsFrom rest.length rest :=
        fun more room => ih rest.length (by simp) room rfl
      have after : ∀ more, rest.length ≤ more → k.unitsFrom more (rest.dropWhile k.word) =
          k.unitsFrom (rest.dropWhile k.word).length (rest.dropWhile k.word) :=
        fun more room => ih _ (by simp; omega) (shorter.trans room) rfl
      simp only [unitsFrom, List.length_cons, tail fuel enough, after fuel enough,
        after rest.length le_rfl]

@[simp] theorem units_nil : k.units [] = [] := rfl

theorem units_cons (c : α) (rest : List α) :
    k.units (c :: rest) =
      if k.space c then k.units rest
      else if k.word c then (c :: rest.takeWhile k.word) :: k.units (rest.dropWhile k.word)
      else [c] :: k.units rest := by
  have after := k.unitsFrom_units (List.dropWhile_suffix (l := rest) k.word).length_le
  rw [← after]
  rfl

/-- Induction along the scan: over a separator, a word, or a single element. -/
theorem units_induction {motive : List α → Prop} (nil : motive [])
    (space : ∀ c rest, k.space c = true → motive rest → motive (c :: rest))
    (word : ∀ c rest, k.space c = false → k.word c = true →
      motive (rest.dropWhile k.word) → motive (c :: rest))
    (single : ∀ c rest, k.space c = false → k.word c = false → motive rest → motive (c :: rest))
    (input : List α) : motive input := by
  induction hn : input.length using Nat.strong_induction_on generalizing input with
  | _ n ih =>
    subst hn
    cases input with
    | nil => exact nil
    | cons c rest =>
      have shorter := (List.dropWhile_suffix (l := rest) k.word).length_le
      cases isSpace : k.space c with
      | true => exact space c rest isSpace (ih _ (by simp) rest rfl)
      | false =>
        cases isWord : k.word c with
        | true => exact word c rest isSpace isWord (ih _ (by simp; omega) _ rfl)
        | false => exact single c rest isSpace isWord (ih _ (by simp) rest rfl)

/-- The units put together are the input without its separators. -/
theorem flatten_units (input : List α) :
    (k.units input).flatten = input.filter fun c => !k.space c := by
  induction input using k.units_induction with
  | nil => rfl
  | space c rest isSpace ih => simp [units_cons, isSpace, ih]
  | single c rest isSpace isWord ih => simp [units_cons, isSpace, isWord, ih]
  | word c rest isSpace isWord ih =>
    have kept : (rest.takeWhile k.word).filter (fun c => !k.space c) = rest.takeWhile k.word := by
      refine List.filter_eq_self.mpr fun d member => ?_
      simp [k.apart d (List.mem_takeWhile_imp member)]
    have split := congrArg (List.filter fun c => !k.space c)
      (List.takeWhile_append_dropWhile (p := k.word) (l := rest))
    rw [List.filter_append, kept] at split
    simp [units_cons, isSpace, isWord, ih, ← split]

theorem length_units_le (input : List α) : (k.units input).length ≤ input.length := by
  induction input using k.units_induction with
  | nil => simp
  | space c rest isSpace ih =>
    simp only [units_cons, isSpace, if_true, List.length_cons]
    omega
  | single c rest isSpace isWord ih => simpa [units_cons, isSpace, isWord] using ih
  | word c rest isSpace isWord ih =>
    have shorter := (List.dropWhile_suffix (l := rest) k.word).length_le
    simp only [units_cons, isSpace, isWord, Bool.false_eq_true, if_false, if_true,
      List.length_cons]
    omega

theorem units_space_append {gap : List α} (spaces : ∀ c ∈ gap, k.space c = true) (rest : List α) :
    k.units (gap ++ rest) = k.units rest := by
  induction gap with
  | nil => rfl
  | cons c gap ih =>
    rw [List.cons_append, units_cons, if_pos (spaces c List.mem_cons_self)]
    exact ih fun d member => spaces d (List.mem_cons_of_mem c member)

theorem units_append_space {c : α} (isSpace : k.space c = true) (front rest : List α) :
    k.units (front ++ c :: rest) = k.units front ++ k.units rest := by
  have stop : k.word c = false := by
    by_contra word
    simp [k.apart c (by simpa using word)] at isSpace
  induction front using k.units_induction with
  | nil => simp [units_cons, isSpace]
  | space d front isSpace' ih => simp [units_cons, isSpace', ih]
  | single d front isSpace' isWord ih => simp [units_cons, isSpace', isWord, ih]
  | word d front isSpace' isWord ih =>
    have run : (front ++ c :: rest).takeWhile k.word = front.takeWhile k.word := by
      rw [List.takeWhile_append]
      split_ifs with whole
      · rw [List.takeWhile_cons_of_neg (by simp [stop]), List.append_nil]
        exact ((List.takeWhile_prefix k.word).eq_of_length whole).symm
      · rfl
    have left : (front ++ c :: rest).dropWhile k.word = front.dropWhile k.word ++ c :: rest := by
      have parts := List.takeWhile_append_dropWhile (p := k.word) (l := front ++ c :: rest)
      rw [run] at parts
      refine List.append_cancel_left (parts.trans ?_)
      rw [← List.append_assoc, List.takeWhile_append_dropWhile]
    simp only [List.cons_append, units_cons, isSpace', isWord, Bool.false_eq_true, if_false,
      if_true, run, left, ih]

theorem units_append_gap {gap : List α} (nonempty : gap ≠ [])
    (spaces : ∀ c ∈ gap, k.space c = true) (front rest : List α) :
    k.units (front ++ gap ++ rest) = k.units front ++ k.units rest := by
  obtain ⟨c, gap, rfl⟩ := List.exists_cons_of_ne_nil nonempty
  rw [List.append_assoc, List.cons_append,
    units_append_space k (spaces c List.mem_cons_self),
    units_space_append k fun d member => spaces d (List.mem_cons_of_mem c member)]

/-! ## Two scanners with the same words -/

section Compare

variable {k} {wide : Classes α} (words : ∀ c, wide.word c = k.word c)
  (more : ∀ c, k.space c = true → wide.space c = true)

include words more

/-- A scanner that skips more elements finds fewer units, one for each extra element. -/
theorem length_units_wide (input : List α) :
    (k.units input).length =
      (wide.units input).length + input.countP fun c => wide.space c && !k.space c := by
  have wordEq : wide.word = k.word := funext words
  induction input using k.units_induction with
  | nil => rfl
  | space c rest isSpace ih => simp [units_cons, isSpace, more c isSpace, ih]
  | single c rest isSpace isWord ih =>
    cases extra : wide.space c with
    | true => simp [units_cons, isSpace, isWord, extra, ih, Nat.add_assoc]
    | false => simp [units_cons, isSpace, isWord, extra, words, ih, Nat.add_right_comm]
  | word c rest isSpace isWord ih =>
    have plain : wide.space c = false := wide.apart c (by rw [words, isWord])
    have none : (rest.takeWhile k.word).countP (fun c => wide.space c && !k.space c) = 0 := by
      refine List.countP_eq_zero.mpr fun d member => ?_
      have inWord : wide.word d = true := by rw [words, List.mem_takeWhile_imp member]
      simp [wide.apart d inWord]
    have split := congrArg (List.countP fun c => wide.space c && !k.space c)
      (List.takeWhile_append_dropWhile (p := k.word) (l := rest))
    rw [List.countP_append, none, Nat.zero_add] at split
    simp only [units_cons, isSpace, plain, isWord, words, wordEq, Bool.false_eq_true, if_false,
      if_true, List.length_cons, ih, List.countP_cons, split, Bool.false_and, Nat.add_zero]
    omega

theorem units_eq_of_agree {input : List α}
    (agree : ∀ c ∈ input, wide.space c = true → k.space c = true) :
    wide.units input = k.units input := by
  have wordEq : wide.word = k.word := funext words
  induction input using k.units_induction with
  | nil => rfl
  | space c rest isSpace ih =>
    simp [units_cons, isSpace, more c isSpace, ih fun d member => agree d (.tail c member)]
  | single c rest isSpace isWord ih =>
    have plain : wide.space c = false := by
      by_contra extra
      simp [agree c List.mem_cons_self (by simpa using extra)] at isSpace
    simp [units_cons, isSpace, isWord, plain, words, ih fun d member => agree d (.tail c member)]
  | word c rest isSpace isWord ih =>
    have plain : wide.space c = false := wide.apart c (by rw [words, isWord])
    have later := ih fun d member =>
      agree d (.tail c ((List.dropWhile_suffix k.word).subset member))
    simp [units_cons, isSpace, isWord, plain, words, wordEq, later]

end Compare

end Classes

end AiStorage.Lib
