import AiStorage.Lib.MachineInt
import AiStorage.Shared.Tokenization

/-!
# Block hashes on 64-bit machines

`ComputeBlocks` as Go runs it: the capacity of the result and the bounds of each slice are
`int` values that wrap. A block size near the largest `int` wraps the sum in the capacity, and
`make` panics on a negative capacity.
-/
namespace AiStorage.Router
open Lib

/-- The run-time panics that the two indexing operations can end in. -/
inductive GoPanic where
  | makeslice
  | sliceBounds
  deriving DecidableEq

def goSlice {α : Type} (items : List α) (low high : Int) : Except GoPanic (List α) :=
  if 0 ≤ low ∧ low ≤ high ∧ high ≤ items.length then
    .ok ((items.take high.toNat).drop low.toNat)
  else .error .sliceBounds

section Machine

variable (sha : Bytes → Digest)

/-- The loop of `ComputeBlocks` from `start` on; `none` when the fuel does not suffice. -/
def blockLoop (size : Int) (tokens : List UInt64) (key : IsolationKey) :
    Nat → Int → Bytes → Option (Except GoPanic (List Bytes))
  | 0, _, _ => none
  | fuel + 1, start, parent =>
    if start < tokens.length then
      let stop := wrapInt 64 (start + size)
      let stop := if stop > tokens.length then (tokens.length : Int) else stop
      match goSlice tokens start stop with
      | .error panic => some (.error panic)
      | .ok block =>
        let hashHex := computeOne sha parent block key
        (blockLoop size tokens key fuel (wrapInt 64 (start + size)) hashHex).map
          (Except.map (hashHex :: ·))
    else some (.ok [])

/-- `(len(tokens)+h.BlockSizeTokens-1)/h.BlockSizeTokens` -/
def goCapacity (size : Int) (length : Nat) : Int :=
  (wrapInt 64 (wrapInt 64 (length + size) - 1)).tdiv size

/-- `ComputeBlocks` of a hasher with a positive block size. -/
def goComputeBlocks (size : Int) (tokens : Tokens) (key : IsolationKey) :
    Option (Except GoPanic (List Bytes)) :=
  if tokens.1.length = 0 then some (.ok [])
  else if goCapacity size tokens.1.length < 0 then some (.error .makeslice)
  else blockLoop sha size tokens.1 key (tokens.1.length + 1) 0 emptyParent

end Machine

/-! ### One round of the loop -/

section Loop

variable {sha : Bytes → Digest} {size : Nat} {tokens : List UInt64} {key : IsolationKey}

theorem wrapInt_of_lt {n : Nat} (small : n < 2 ^ 63) : wrapInt 64 n = n :=
  wrapInt_of_range (by decide) (by omega) (by omega)

theorem blockLoop_end (fuel : Nat) {start : Int} (done : tokens.length ≤ start) (parent : Bytes) :
    blockLoop sha size tokens key (fuel + 1) start parent = some (.ok []) := by
  rw [blockLoop, if_neg (by omega)]

theorem blockLoop_round (fuel : Nat) {start : Nat} (inside : start < tokens.length)
    (fits : start + size < 2 ^ 63) (parent : Bytes) :
    blockLoop sha size tokens key (fuel + 1) start parent =
      let hashHex := computeOne sha parent ((tokens.drop start).take size) key
      (blockLoop sha size tokens key fuel (start + size : Nat) hashHex).map
        (Except.map (hashHex :: ·)) := by
  have next : wrapInt 64 ((start : Int) + size) = (start + size : Nat) := by
    rw [← Int.natCast_add]
    exact wrapInt_of_lt fits
  have block : goSlice tokens start
      (if ((start + size : Nat) : Int) > tokens.length then (tokens.length : Int)
        else (start + size : Nat)) = .ok ((tokens.drop start).take size) := by
    split_ifs with beyond
    · rw [goSlice, if_pos (by omega), Int.toNat_natCast, Int.toNat_natCast, List.take_length,
        List.take_of_length_le]
      rw [List.length_drop]
      omega
    · rw [goSlice, if_pos (by omega), Int.toNat_natCast, Int.toNat_natCast, List.drop_take,
        Nat.add_sub_cancel_left]
  rw [blockLoop, if_pos (by omega), next]
  simp only [block]

theorem blockLoop_pieces (positive : 0 < size) (fits : tokens.length + size ≤ 2 ^ 63)
    (fuel : Nat) : ∀ (start count : Nat) (parent : Bytes), tokens.length - start < fuel →
      tokens.length - start ≤ count →
      blockLoop sha size tokens key fuel start parent =
        some (.ok (computeChain sha key parent (pieces size count (tokens.drop start)))) := by
  induction fuel with
  | zero =>
    intro start count parent enough _
    exact absurd enough (Nat.not_lt_zero _)
  | succ fuel later =>
    intro start count parent enough covers
    rcases Nat.lt_or_ge start tokens.length with inside | done
    · obtain ⟨count, rfl⟩ : ∃ fewer, count = fewer + 1 := ⟨count - 1, by omega⟩
      have more : pieces size (count + 1) (tokens.drop start) =
          (tokens.drop start).take size :: pieces size count (tokens.drop (start + size)) := by
        rw [← List.drop_drop]
        cases left : tokens.drop start with
        | nil =>
          have empty := List.drop_eq_nil_iff.mp left
          omega
        | cons token rest => rfl
      rw [blockLoop_round fuel inside (by omega), more, computeChain]
      simp only
      rw [later (start + size) count _ (by omega) (by omega)]
      rfl
    · rw [blockLoop_end fuel (by omega), List.drop_eq_nil_iff.mpr done]
      cases count with
      | zero => rfl
      | succ count => rfl

theorem blockLoop_whole (covers : tokens.length ≤ size) (small : size < 2 ^ 63)
    (some : 0 < tokens.length) (parent : Bytes) :
    blockLoop sha size tokens key (tokens.length + 1) (0 : Nat) parent =
      Option.some (.ok [computeOne sha parent tokens key]) := by
  obtain ⟨fuel, length⟩ : ∃ fuel, tokens.length = fuel + 1 := ⟨tokens.length - 1, by omega⟩
  rw [blockLoop_round tokens.length some (by omega), List.drop_zero,
    List.take_of_length_le covers, length]
  simp only
  rw [blockLoop_end fuel (by omega)]
  rfl

/-- The second slice of a size above half the range has a negative bound. -/
theorem blockLoop_wraps (large : 2 ^ 62 ≤ size) (small : size < 2 ^ 63)
    (left : size < tokens.length) (parent : Bytes) :
    blockLoop sha size tokens key (tokens.length + 1) (0 : Nat) parent =
      some (.error .sliceBounds) := by
  obtain ⟨fuel, length⟩ : ∃ fuel, tokens.length = fuel + 1 := ⟨tokens.length - 1, by omega⟩
  have wrapped : wrapInt 64 (((0 + size : Nat) : Int) + size) = 2 * size - 2 ^ 64 := by
    rw [wrapInt]
    omega
  have outside : goSlice tokens (0 + size : Nat)
      (if (2 * size - 2 ^ 64 : Int) > tokens.length then (tokens.length : Int)
        else 2 * size - 2 ^ 64) = .error .sliceBounds := by
    rw [goSlice, if_neg]
    omega
  rw [blockLoop_round tokens.length (by omega) (by omega), length]
  simp only
  rw [blockLoop, wrapped, if_pos (by omega)]
  simp only [outside]
  rfl

end Loop

section Capacity

variable {size length : Nat}

theorem goCapacity_nonneg_of_le (fits : length + size ≤ 2 ^ 63) (some : 0 < length) :
    0 ≤ goCapacity size length := by
  have sum : wrapInt 64 (wrapInt 64 ((length : Int) + size) - 1) = (length + size - 1 : Nat) := by
    rw [Int.sub_eq_add_neg, wrapInt_wrapInt_add, wrapInt]
    omega
  rw [goCapacity, sum]
  exact Int.natCast_nonneg _

/-- A wrapped sum is negative; what decides is whether it reaches down to `-size`. -/
theorem goCapacity_neg_iff (large : 2 ^ 63 < length + size) (short : length < 2 ^ 63)
    (small : size < 2 ^ 63) : goCapacity size length < 0 ↔ 2 * size + length < 2 ^ 64 + 2 := by
  have sum : wrapInt 64 (wrapInt 64 ((length : Int) + size) - 1) =
      -((2 ^ 64 + 1 - length - size : Nat) : Int) := by
    rw [Int.sub_eq_add_neg, wrapInt_wrapInt_add, wrapInt]
    omega
  have quotient : goCapacity size length =
      -(((2 ^ 64 + 1 - length - size) / size : Nat) : Int) := by
    rw [goCapacity, sum, Int.neg_tdiv]
    rfl
  have reached : 0 < (2 ^ 64 + 1 - length - size) / size ↔ size ≤ 2 ^ 64 + 1 - length - size := by
    rw [Nat.div_pos_iff]
    omega
  rw [quotient]
  omega

end Capacity

/-! ### The whole function -/

/-- No slice bound wraps, or one block holds all tokens and the capacity wraps to zero. -/
def HashableLength (size length : Nat) : Prop :=
  length = 0 ∨ length + size ≤ 2 ^ 63 ∨ length ≤ size ∧ 2 ^ 64 + 2 ≤ 2 * size + length

instance (size length : Nat) : Decidable (HashableLength size length) :=
  inferInstanceAs (Decidable (_ ∨ _))

section Whole

variable {sha : Bytes → Digest} {key : IsolationKey} (h : Hasher) (tokens : Tokens)

theorem goComputeBlocks_ok (small : h.blockSizeTokens < 2 ^ 63)
    (hashable : HashableLength h.blockSizeTokens tokens.1.length) :
    goComputeBlocks sha h.blockSizeTokens tokens key =
      some (.ok (h.computeBlocks sha tokens key)) := by
  have positive := h.positive
  have short := tokens.2
  rw [goComputeBlocks, Hasher.computeBlocks, Hasher.cut]
  by_cases empty : tokens.1.length = 0
  · rw [if_pos empty, List.length_eq_zero_iff.mp empty]
    rfl
  · rw [if_neg empty]
    by_cases fits : tokens.1.length + h.blockSizeTokens ≤ 2 ^ 63
    · have room := goCapacity_nonneg_of_le fits (Nat.pos_of_ne_zero empty)
      rw [if_neg (by omega)]
      exact blockLoop_pieces positive fits _ 0 _ _ (by omega) (by omega)
    · obtain ⟨whole, zero⟩ : tokens.1.length ≤ h.blockSizeTokens ∧
          2 ^ 64 + 2 ≤ 2 * h.blockSizeTokens + tokens.1.length := by
        rcases hashable with none | wraps | whole
        · exact absurd none empty
        · exact absurd wraps fits
        · exact whole
      have room := goCapacity_neg_iff (by omega) short small
      have filled : tokens.1 ≠ [] := fun none => empty (List.length_eq_zero_iff.mpr none)
      rw [if_neg (by omega), pieces_whole filled whole (Nat.pos_of_ne_zero empty)]
      exact blockLoop_whole whole small (by omega) _

theorem goComputeBlocks_panics (small : h.blockSizeTokens < 2 ^ 63)
    (large : ¬ HashableLength h.blockSizeTokens tokens.1.length) :
    ∃ panic, goComputeBlocks sha h.blockSizeTokens tokens key = some (.error panic) := by
  have short := tokens.2
  obtain ⟨some, wraps, rest⟩ : tokens.1.length ≠ 0 ∧
      2 ^ 63 < tokens.1.length + h.blockSizeTokens ∧
      (tokens.1.length ≤ h.blockSizeTokens →
        2 * h.blockSizeTokens + tokens.1.length < 2 ^ 64 + 2) := by
    rw [HashableLength] at large
    omega
  have room := goCapacity_neg_iff wraps short small
  rw [goComputeBlocks, if_neg some]
  by_cases down : goCapacity h.blockSizeTokens tokens.1.length < 0
  · rw [if_pos down]
    exact ⟨_, rfl⟩
  · rw [if_neg down]
    exact ⟨_, blockLoop_wraps (by omega) small (by omega) _⟩

end Whole

end AiStorage.Router

namespace AiStorage.Shared
open AiStorage.Lib AiStorage.Router

section Agreement

variable {sha : Bytes → Digest} {key : IsolationKey} {K : Router.IsolationKey} (names : key.Names K)
  {size : Nat} (positive : 0 < size) (small : size < 2 ^ 63) (tokens : Tokens)
include names positive small

/-- The same digests, or a panic where Python has some. -/
theorem same_hashes_iff :
    (∃ hashes, goComputeBlocks sha size tokens K = some (.ok hashes) ∧
      computeBlocks sha (toInts tokens.1) key size = .ok (hashes.map asciiText)) ↔
    HashableLength size tokens.1.length := by
  constructor
  · rintro ⟨hashes, go, -⟩
    by_contra large
    obtain ⟨panic, panics⟩ :=
      @goComputeBlocks_panics sha K ⟨size, positive⟩ tokens small large
    rw [go] at panics
    cases panics
  · intro hashable
    exact ⟨_, goComputeBlocks_ok ⟨size, positive⟩ tokens small hashable,
      computeBlocks_eq sha names ⟨size, positive⟩ tokens⟩

end Agreement

/-- Both hashers return the same hex digests, one for each block of tokens. -/
def HashersAgree (sha : Bytes → Digest) (key : IsolationKey) (K : Router.IsolationKey)
    (size : Nat) (tokens : Tokens) : Prop :=
  ∃ hashes, goComputeBlocks sha size tokens K = some (.ok hashes) ∧
    computeBlocks sha (toInts tokens.1) key size = .ok (hashes.map asciiText) ∧
    hashes.length = (tokens.1.length + size - 1) / size

/-- The hashers agree exactly where Go's capacity and slice bounds do not go wrong. -/
theorem hashers_agree_iff (sha : Bytes → Digest) (key : IsolationKey) (K : Router.IsolationKey)
    (names : key.Names K) (size : Nat) (positive : 0 < size) (small : size < 2 ^ 63)
    (tokens : Tokens) :
    HashersAgree sha key K size tokens ↔ HashableLength size tokens.1.length := by
  constructor
  · rintro ⟨hashes, go, python, -⟩
    exact (same_hashes_iff names positive small tokens).mp ⟨hashes, go, python⟩
  · intro hashable
    have go := @goComputeBlocks_ok sha K ⟨size, positive⟩ tokens small hashable
    refine ⟨_, go, computeBlocks_eq sha names ⟨size, positive⟩ tokens, ?_⟩
    rw [Hasher.computeBlocks, length_computeChain, Hasher.cut]
    exact length_pieces positive _ _ le_rfl

theorem hashers_agree_on_two :
    HashersAgree sha256 sampleKeyText (sampleKey 97) 16 ⟨[1, 2], by decide⟩ :=
  (hashers_agree_iff sha256 sampleKeyText (sampleKey 97) rfl 16 (by decide) (by decide)
    ⟨[1, 2], by decide⟩).mpr (by decide)

/-- Two tokens and the largest block size: `make` gets the capacity `-1`, where Python
returns one hash. -/
theorem hashers_differ_on_largest_size :
    goComputeBlocks sha256 (2 ^ 63 - 1) ⟨[1, 2], by decide⟩ (sampleKey 97) =
        some (.error .makeslice) ∧
      (computeBlocks sha256 [1, 2] sampleKeyText (2 ^ 63 - 1)).toOption.map List.length =
        some 1 := by
  decide +kernel

/-! ### From the prompt on -/

/-- The tokenizers agree exactly on prompts without an information separator. Then the block
hashes agree exactly where Go does not panic. -/
theorem tokenizers_agree_iff (sha : Bytes → Digest) (prompt revision : ScalarText) :
    ((iterUnits prompt.1).map encode = (approxTokenUnits prompt.utf8).map .ok ↔
      WithoutSeparators prompt.1) ∧
    (∃ result, approximateTokenize sha prompt.1 revision.1 = .ok result ∧
      result.units = iterUnits prompt.1 ∧
      (result.tokens = (approxTokenizeWithRevision sha prompt.utf8 revision.utf8).map UInt64.toNat ↔
        WithoutSeparators prompt.1)) ∧
    (WithoutSeparators prompt.1 →
      ∀ (fits : prompt.utf8.length < 2 ^ 63) (fits' : revision.utf8.length < 2 ^ 63)
        (key : IsolationKey) (K : Router.IsolationKey), key.Names K →
      ∀ size : Nat, 0 < size → size < 2 ^ 63 →
      ∃ result, approximateTokenize sha prompt.1 revision.1 = .ok result ∧
        ((∃ hashes, goComputeBlocks sha size (promptTokens sha ⟨_, fits⟩ ⟨_, fits'⟩) K =
            some (.ok hashes) ∧
          computeBlocks sha (result.tokens.map (↑)) key size = .ok (hashes.map asciiText)) ↔
        HashableLength size result.tokens.length)) := by
  have tokens := tokens_agree_iff sha prompt revision
  have result := approximateTokenize_eq sha prompt revision
  refine ⟨units_agree_iff prompt, ⟨_, result, rfl, tokens⟩, ?_⟩
  intro without fits fits' key K names size positive small
  refine ⟨_, result, ?_⟩
  have agree := @same_hashes_iff sha key K names size positive small
    (promptTokens sha ⟨_, fits⟩ ⟨_, fits'⟩)
  have same := tokens.mpr without
  simp only at same ⊢
  rw [same, List.length_map, List.map_map]
  exact agree

/-- U+001C between two letters is a unit of its own in Go and a space in Python. -/
theorem separator_tells_tokenizers_apart :
    approxTokenUnits (ScalarText.ofString "a\x1cb").utf8 = [[97], [28], [98]] ∧
      (iterUnits (ScalarText.ofString "a\x1cb").1).map encode = [.ok [97], .ok [98]] := by
  decide +kernel

/-- Two units in blocks of one. -/
theorem sample_tokenizers_agree :
    ∃ result, approximateTokenize sha256 (ScalarText.ofString "a b").1 (ScalarText.ofString "t").1 =
        .ok result ∧
      ∃ hashes, goComputeBlocks sha256 1 (promptTokens sha256
          ⟨(ScalarText.ofString "a b").utf8, by decide +kernel⟩
          ⟨(ScalarText.ofString "t").utf8, by decide +kernel⟩) (sampleKey 97) = some (.ok hashes) ∧
        computeBlocks sha256 (result.tokens.map (↑)) sampleKeyText 1 =
          .ok (hashes.map asciiText) := by
  have without : WithoutSeparators (ScalarText.ofString "a b").1 := by
    have each : ∀ ch ∈ [CodePoint.ofChar 'a', CodePoint.ofChar ' ', CodePoint.ofChar 'b'],
        ¬ (28 ≤ ch.val ∧ ch.val ≤ 31) := by
      simp only [List.forall_mem_cons, List.not_mem_nil, false_imp_iff, implies_true]
      decide
    exact each
  obtain ⟨result, tokenized, agree⟩ := (tokenizers_agree_iff sha256 (ScalarText.ofString "a b")
    (ScalarText.ofString "t")).2.2 without (by decide +kernel) (by decide +kernel) sampleKeyText
    (sampleKey 97) rfl 1 (by decide) (by decide)
  have two : result.tokens.length = 2 := by
    have length : (approximateTokenize sha256 (ScalarText.ofString "a b").1
        (ScalarText.ofString "t").1).toOption.map (fun result => result.tokens.length) = some 2 := by
      decide +kernel
    rw [tokenized] at length
    exact Option.some.inj length
  exact ⟨result, tokenized, agree.mpr (by rw [two]; decide)⟩

end AiStorage.Shared
