import AiStorage.Lib.Bytes
import Mathlib.Data.Nat.Digits.Lemmas

/-!
# The checksum of generated files

`checksum.hpp` and `checksum_file` of `file_generator.cpp`. Both loops start from one number,
which is the offset basis of FNV-1a without its last digit. A round loses nothing of the state,
so the two hashes differ for every string.
-/
namespace AiStorage.IoProfile
open Lib

def fnvRound (hash : UInt64) (byte : UInt8) : UInt64 := (hash ^^^ byte.toUInt64) * 1099511628211

/-- A stream with `std::hex`, `setfill('0')` and `setw(16)`. -/
def hexText (hash : UInt64) : Bytes :=
  ((Nat.digits 16 hash.toNat).reverse.leftpad 16 0).map hexDigit

def fnv1a64Hex (data : Bytes) : Bytes := hexText (data.foldl fnvRound 1469598103934665603)

structure FNV1a64 where
  hash : UInt64 := 1469598103934665603

def FNV1a64.update (self : FNV1a64) (data : Bytes) : FNV1a64 := ⟨data.foldl fnvRound self.hash⟩

def FNV1a64.hex (self : FNV1a64) : Bytes := hexText self.hash

def checksumFile (reads : List Bytes) : Bytes :=
  (reads.foldl (fun checksum got => if got.length > 0 then checksum.update got else checksum)
    ({} : FNV1a64)).hex

/-- FNV-1a with 64 bits as it is published. -/
def publishedFnv1a64 (data : Bytes) : UInt64 := data.foldl fnvRound 14695981039346656037

/-! ## Digits -/

theorem length_hexText (hash : UInt64) : (hexText hash).length = 16 := by
  have short : (Nat.digits 16 hash.toNat).length ≤ 16 :=
    (Nat.digits_length_le_iff (by decide) hash.toNat).mpr hash.toNat_lt
  simp only [hexText, List.length_map, List.length_leftpad, List.length_reverse]
  omega

variable {hash other : UInt64}

theorem mem_leftpad_digits {digit : Nat}
    (member : digit ∈ (Nat.digits 16 hash.toNat).reverse.leftpad 16 0) : digit < 16 := by
  rcases List.mem_append.mp member with pad | inside
  · rw [List.eq_of_mem_replicate pad]
    decide
  · exact Nat.digits_lt_base (by decide) (List.mem_reverse.mp inside)

theorem mem_hexText {c : UInt8} (member : c ∈ hexText hash) :
    ∃ digit < 16, c = hexDigit digit := by
  obtain ⟨digit, inside, rfl⟩ := List.mem_map.mp member
  exact ⟨digit, mem_leftpad_digits inside, rfl⟩

theorem ofDigits_leftpad (hash : UInt64) :
    Nat.ofDigits 16 ((Nat.digits 16 hash.toNat).reverse.leftpad 16 0).reverse = hash.toNat := by
  simp [List.leftpad, Nat.ofDigits_append, Nat.ofDigits_digits]

theorem map_hexDigit_inj {xs ys : List Nat} (left : ∀ x ∈ xs, x < 16) (right : ∀ y ∈ ys, y < 16)
    (same : xs.map hexDigit = ys.map hexDigit) : xs = ys := by
  induction xs generalizing ys with
  | nil => exact (List.map_eq_nil_iff.mp same.symm).symm
  | cons x xs ih =>
    cases ys with
    | nil => cases same
    | cons y ys =>
      rw [List.forall_mem_cons] at left right
      obtain ⟨head, tail⟩ := List.cons.inj same
      rw [hexDigit_inj x left.1 y right.1 head, ih left.2 right.2 tail]

theorem hexText_inj (same : hexText hash = hexText other) : hash = other := by
  have digits := map_hexDigit_inj (fun _ => mem_leftpad_digits) (fun _ => mem_leftpad_digits) same
  rw [← UInt64.toNat_inj, ← ofDigits_leftpad hash, ← ofDigits_leftpad other, digits]

/-! ## Rounds -/

theorem fnvRound_inj {byte : UInt8}
    (same : fnvRound hash byte = fnvRound other byte) : hash = other := by
  have inverse : (1099511628211 : UInt64) * 14886173955864302971 = 1 := by decide
  have mixed := congrArg (· * (14886173955864302971 : UInt64)) same
  simp only [fnvRound, UInt64.mul_assoc, inverse, UInt64.mul_one] at mixed
  exact (UInt64.xor_left_inj _).mp mixed

theorem foldl_fnvRound_inj (data : Bytes)
    (same : data.foldl fnvRound hash = data.foldl fnvRound other) : hash = other := by
  induction data generalizing hash other with
  | nil => exact same
  | cons byte rest ih => exact fnvRound_inj (ih same)

theorem foldl_update (self : FNV1a64) (chunks : List Bytes) :
    chunks.foldl FNV1a64.update self = ⟨chunks.flatten.foldl fnvRound self.hash⟩ := by
  induction chunks generalizing self with
  | nil => rfl
  | cons chunk rest ih =>
    rw [List.foldl_cons, ih, List.flatten_cons, List.foldl_append]
    rfl

theorem checksumFile_eq (reads : List Bytes) : checksumFile reads = fnv1a64Hex reads.flatten := by
  have skipped : (fun (checksum : FNV1a64) (got : Bytes) =>
      if got.length > 0 then checksum.update got else checksum) = FNV1a64.update := by
    funext checksum got
    cases got with
    | nil => rfl
    | cons byte rest => rfl
  rw [checksumFile, skipped, foldl_update]
  rfl

/-- Streaming, in any chunks, and one-shot agree and print sixteen lowercase digits. They
never print the published hash. -/
theorem checksum_never_published (chunks : List Bytes) :
    (chunks.foldl FNV1a64.update {}).hex = fnv1a64Hex chunks.flatten ∧
    checksumFile chunks = fnv1a64Hex chunks.flatten ∧
    (fnv1a64Hex chunks.flatten).length = 16 ∧
    (∀ c ∈ fnv1a64Hex chunks.flatten, ∃ digit < 16, c = hexDigit digit) ∧
    (fnv1a64Hex chunks.flatten = hexText (publishedFnv1a64 chunks.flatten) ↔ False) := by
  refine ⟨?_, checksumFile_eq chunks, length_hexText _, fun c => mem_hexText, ?_⟩
  · rw [foldl_update]
    rfl
  · rw [iff_false]
    intro same
    have basis := foldl_fnvRound_inj chunks.flatten (hexText_inj same)
    revert basis
    decide

/-- The empty string: `14650fb0739d0383` in place of `cbf29ce484222325`. -/
theorem checksum_of_nothing : fnv1a64Hex [] ≠ hexText (publishedFnv1a64 []) := by
  decide +kernel

end AiStorage.IoProfile
