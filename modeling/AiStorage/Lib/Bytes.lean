import Mathlib.Data.List.Basic
import Mathlib.Data.List.Induction
import Mathlib.Tactic.Linarith

/-!
# Byte strings

Fixed-width big-endian integers, length-prefixed fields and lowercase hex over
lists of bytes, with the facts a decoder needs: each field can be read back from
the front of any longer string.
-/
namespace AiStorage.Lib

abbrev Bytes := List UInt8

/-- `v` in `width` big-endian bytes; higher digits are cut off. -/
def beBytes : Nat → Nat → Bytes
  | 0, _ => []
  | width + 1, v => beBytes width (v / 256) ++ [UInt8.ofNat v]

def beNat (bytes : Bytes) : Nat := bytes.foldl (fun acc b => acc * 256 + b.toNat) 0

@[simp] theorem length_beBytes (width v : Nat) : (beBytes width v).length = width := by
  induction width generalizing v with
  | zero => rfl
  | succ width ih => simp [beBytes, ih]

theorem beNat_append_singleton (bytes : Bytes) (b : UInt8) :
    beNat (bytes ++ [b]) = beNat bytes * 256 + b.toNat := by
  simp [beNat, List.foldl_append]

variable {width size : Nat} {α : Type}

theorem beNat_beBytes {v : Nat} (fits : v < 256 ^ width) : beNat (beBytes width v) = v := by
  induction width generalizing v with
  | zero => simp at fits; simp [beBytes, beNat, fits]
  | succ width ih =>
    have high : v / 256 < 256 ^ width := by
      rw [Nat.div_lt_iff_lt_mul (by norm_num)]
      simpa [Nat.pow_succ] using fits
    rw [beBytes, beNat_append_singleton, ih high, UInt8.toNat_ofNat']
    omega

theorem beBytes_beNat {bytes : Bytes} (full : bytes.length = width) :
    beBytes width (beNat bytes) = bytes := by
  subst full
  induction bytes using List.reverseRecOn with
  | nil => rfl
  | append_singleton front last ih =>
    have small := last.toNat_lt
    have high : (beNat front * 256 + last.toNat) / 256 = beNat front := by omega
    have low : UInt8.ofNat (beNat front * 256 + last.toNat) = last := by
      apply UInt8.toNat_inj.mp
      rw [UInt8.toNat_ofNat']
      omega
    rw [List.length_append, List.length_singleton, beNat_append_singleton, beBytes, high, low, ih]

theorem beNat_lt (bytes : Bytes) : beNat bytes < 256 ^ bytes.length := by
  induction bytes using List.reverseRecOn with
  | nil => simp [beNat]
  | append_singleton front last ih =>
    have small := last.toNat_lt
    rw [beNat_append_singleton, List.length_append, List.length_singleton, Nat.pow_succ]
    omega

theorem beBytes_inj {v w : Nat} (hv : v < 256 ^ width) (hw : w < 256 ^ width)
    (same : beBytes width v = beBytes width w) : v = w := by
  rw [← beNat_beBytes hv, same, beNat_beBytes hw]

/-! ## Fields -/

/-- A field preceded by its length in `width` bytes. -/
def lengthPrefixed (width : Nat) (field : Bytes) : Bytes := beBytes width field.length ++ field

theorem lengthPrefixed_append_inj {a b restA restB : Bytes}
    (ha : a.length < 256 ^ width) (hb : b.length < 256 ^ width)
    (same : lengthPrefixed width a ++ restA = lengthPrefixed width b ++ restB) :
    a = b ∧ restA = restB := by
  simp only [lengthPrefixed, List.append_assoc] at same
  obtain ⟨lengths, tails⟩ := List.append_inj same (by simp)
  exact List.append_inj tails (beBytes_inj ha hb lengths)

def beWords (width : Nat) (words : List Nat) : Bytes := words.flatMap (beBytes width)

theorem beWords_inj {xs ys : List Nat} (lengths : xs.length = ys.length)
    (hx : ∀ x ∈ xs, x < 256 ^ width) (hy : ∀ y ∈ ys, y < 256 ^ width)
    (same : beWords width xs = beWords width ys) : xs = ys := by
  induction xs generalizing ys with
  | nil =>
    cases ys with
    | nil => rfl
    | cons y ys => simp at lengths
  | cons x xs ih =>
    cases ys with
    | nil => simp at lengths
    | cons y ys =>
      simp only [beWords, List.flatMap_cons] at same
      obtain ⟨first, rest⟩ := List.append_inj same (by simp)
      have heads := beBytes_inj (hx x (by simp)) (hy y (by simp)) first
      have tails := ih (by simpa using lengths) (fun z m => hx z (List.mem_cons_of_mem _ m))
        (fun z m => hy z (List.mem_cons_of_mem _ m)) rest
      rw [heads, tails]

/-! ## Pieces -/

/-- The front of a list in pieces of `size` elements, at most `fuel` of them. -/
def pieces {α : Type} (size : Nat) : Nat → List α → List (List α)
  | 0, _ => []
  | _, [] => []
  | fuel + 1, xs => xs.take size :: pieces size fuel (xs.drop size)

theorem length_le_of_mem_pieces {fuel : Nat} {xs piece : List α}
    (member : piece ∈ pieces size fuel xs) : piece.length ≤ xs.length := by
  induction fuel generalizing xs with
  | zero => simp [pieces] at member
  | succ fuel ih =>
    cases xs with
    | nil => simp [pieces] at member
    | cons x xs =>
      rcases List.mem_cons.mp member with rfl | later
      · exact List.length_take_le' _ _
      · have := ih later
        rw [List.length_drop] at this
        omega

theorem pieces_whole {fuel : Nat} {xs : List α} (some : xs ≠ [])
    (covers : xs.length ≤ size) (enough : 0 < fuel) : pieces size fuel xs = [xs] := by
  obtain ⟨fuel, rfl⟩ := Nat.exists_eq_succ_of_ne_zero enough.ne'
  cases xs with
  | nil => exact absurd rfl some
  | cons x xs =>
    have first : pieces size (fuel + 1) (x :: xs) =
        (x :: xs).take size :: pieces size fuel ((x :: xs).drop size) := rfl
    rw [first, List.take_of_length_le covers, List.drop_eq_nil_iff.mpr covers]
    cases fuel with
    | zero => rfl
    | succ fuel => rfl

theorem length_pieces (positive : 0 < size) (fuel : Nat) :
    ∀ xs : List α, xs.length ≤ fuel →
      (pieces size fuel xs).length = (xs.length + size - 1) / size := by
  induction fuel with
  | zero =>
    intro xs short
    rw [List.length_eq_zero_iff.mp (Nat.le_zero.mp short)]
    exact (Nat.div_eq_of_lt (by simpa using positive)).symm
  | succ fuel shorter =>
    intro xs short
    cases xs with
    | nil => exact (Nat.div_eq_of_lt (by simpa using positive)).symm
    | cons x xs =>
      have rest := shorter ((x :: xs).drop size) (by
        rw [List.length_drop, List.length_cons] at *
        omega)
      have first : pieces size (fuel + 1) (x :: xs) =
          (x :: xs).take size :: pieces size fuel ((x :: xs).drop size) := rfl
      rw [first, List.length_cons, rest, List.length_drop, List.length_cons]
      rcases Nat.lt_or_ge (xs.length + 1) size with less | more
      · rw [Nat.div_eq_of_lt (by omega), eq_comm, Nat.div_eq_iff positive]
        omega
      · rw [← Nat.add_div_right _ positive]
        congr 1
        omega

theorem pieces_map {β : Type} (f : α → β) (size fuel : Nat) (xs : List α) :
    pieces size fuel (xs.map f) = (pieces size fuel xs).map (List.map f) := by
  induction fuel generalizing xs with
  | zero => rfl
  | succ fuel ih =>
    cases xs with
    | nil => rfl
    | cons x xs =>
      simp only [List.map_cons, pieces]
      rw [← List.map_cons, ← List.map_take, ← List.map_drop, ih]

/-! ## Lowercase hex -/

def hexDigit (n : Nat) : UInt8 := UInt8.ofNat (if n < 10 then 48 + n else 87 + n)

def hexEncode (bytes : Bytes) : Bytes :=
  bytes.flatMap fun b => [hexDigit (b.toNat / 16), hexDigit (b.toNat % 16)]

@[simp] theorem length_hexEncode (bytes : Bytes) : (hexEncode bytes).length = 2 * bytes.length := by
  induction bytes with
  | nil => rfl
  | cons b rest ih =>
    simp only [hexEncode, List.flatMap_cons, List.length_append, List.length_cons, List.length_nil]
      at ih ⊢
    omega

theorem hexDigit_lt (n : Nat) (small : n < 16) : (hexDigit n).toNat < 128 := by
  have all : ∀ m < 16, (hexDigit m).toNat < 128 := by decide
  exact all n small

theorem hexDigit_inj : ∀ m < 16, ∀ n < 16, hexDigit m = hexDigit n → m = n := by decide

theorem hexEncode_inj {xs ys : Bytes} (same : hexEncode xs = hexEncode ys) : xs = ys := by
  induction xs generalizing ys with
  | nil =>
    cases ys with
    | nil => rfl
    | cons y ys => simp [hexEncode] at same
  | cons x xs ih =>
    cases ys with
    | nil => simp [hexEncode] at same
    | cons y ys =>
      simp only [hexEncode, List.flatMap_cons, List.cons_append, List.nil_append,
        List.cons.injEq] at same
      obtain ⟨high, low, rest⟩ := same
      have hx := x.toNat_lt
      have hy := y.toNat_lt
      have highs := hexDigit_inj _ (by omega) _ (by omega) high
      have lows := hexDigit_inj _ (by omega) _ (by omega) low
      have heads : x = y := by
        apply UInt8.toNat_inj.mp
        omega
      rw [heads, ih rest]

end AiStorage.Lib
