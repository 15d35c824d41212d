import AiStorage.Lib.Text
import AiStorage.Lib.Units
import AiStorage.Router.BlockHash

/-!
# Approximate tokenization

`router/internal/blockhash/tokenization.go`. A prompt is read as runes, cut into ASCII words
and single other runes, and every unit is hashed to a token ID. White space only separates.
-/
namespace AiStorage.Router
open Lib

/-- The loop of `[]rune(s)`: a byte that starts no code point is one U+FFFD. -/
def runesFrom : Nat → Bytes → Text
  | 0, _ => []
  | _, [] => []
  | fuel + 1, lead :: rest =>
    match nextUtf8 lead rest with
    | (some rune, after) => rune :: runesFrom fuel after
    | (none, _) => CodePoint.ofNat 65533 :: runesFrom fuel rest

def runes (s : Bytes) : Text := runesFrom s.length s

def ofRunes (s : Text) : Bytes := s.flatMap utf8Char

/-- `unicode.IsSpace`: the White_Space property. -/
def isSpace (ch : CodePoint) : Bool :=
  (9 ≤ ch.val && ch.val ≤ 13) || ch.val = 32 || ch.val = 133 || ch.val = 160 || ch.val = 5760 ||
    (8192 ≤ ch.val && ch.val ≤ 8202) || ch.val = 8232 || ch.val = 8233 || ch.val = 8239 ||
    ch.val = 8287 || ch.val = 12288

def isASCIIWord (ch : CodePoint) : Bool :=
  ch.val = 95 || (48 ≤ ch.val && ch.val ≤ 57) || (65 ≤ ch.val && ch.val ≤ 90) ||
    (97 ≤ ch.val && ch.val ≤ 122)

/-- The two tests of the scanning loops of `ApproxTokenUnits`. -/
def goClasses : Classes CodePoint where
  space := isSpace
  word := isASCIIWord
  apart := by
    intro ch word
    simp only [isASCIIWord, Bool.or_eq_true, Bool.and_eq_true, decide_eq_true_eq] at word
    simp only [isSpace, Bool.or_eq_false_iff, Bool.and_eq_false_iff, decide_eq_false_iff_not]
    omega

def approxTokenUnits (prompt : Bytes) : List Bytes := (goClasses.units (runes prompt)).map ofRunes

section Tokens

variable (sha : Bytes → Digest)

def approxTokenID (unit tokenizerRevision : Bytes) : UInt64 :=
  let payload := tokenizerRevision ++ [0] ++ unit
  UInt64.ofNat (beNat ((sha payload).1.take 8)) % 1000000 + 1

def approxTokenizeWithRevision (prompt tokenizerRevision : Bytes) : List UInt64 :=
  (approxTokenUnits prompt).map fun unit => approxTokenID sha unit tokenizerRevision

end Tokens

/-! ## Reading and writing runes -/

theorem length_runesFrom_le (fuel : Nat) (s : Bytes) : (runesFrom fuel s).length ≤ fuel := by
  induction fuel generalizing s with
  | zero => simp [runesFrom]
  | succ fuel ih =>
    cases s with
    | nil => simp [runesFrom]
    | cons lead rest =>
      simp only [runesFrom]
      split <;> simpa using ih _

theorem runesFrom_flatMap (s : Text) (scalar : ∀ c ∈ s, c.isSurrogate = false) (fuel : Nat)
    (enough : (s.flatMap utf8Char).length ≤ fuel) : runesFrom fuel (s.flatMap utf8Char) = s := by
  induction s generalizing fuel with
  | nil => cases fuel <;> rfl
  | cons c rest ih =>
    obtain ⟨lead, tail, shape, next⟩ :=
      nextUtf8_utf8Char (scalar c List.mem_cons_self) (rest.flatMap utf8Char)
    rw [List.flatMap_cons, shape] at enough ⊢
    cases fuel with
    | zero => simp at enough
    | succ fuel =>
      have room : (rest.flatMap utf8Char).length ≤ fuel := by
        simp only [List.cons_append, List.length_cons, List.length_append] at enough
        omega
      simp only [List.cons_append, runesFrom, next]
      rw [ih (fun x member => scalar x (.tail c member)) fuel room]

@[simp] theorem runes_utf8 (s : ScalarText) : runes s.utf8 = s.1 :=
  runesFrom_flatMap s.1 s.2 _ le_rfl

theorem approxTokenUnits_utf8 (s : ScalarText) :
    approxTokenUnits s.utf8 = (goClasses.units s.1).map ofRunes := by
  rw [approxTokenUnits, runes_utf8]

theorem length_approxTokenUnits_le (prompt : Bytes) :
    (approxTokenUnits prompt).length ≤ prompt.length := by
  rw [approxTokenUnits, List.length_map]
  exact (goClasses.length_units_le _).trans (length_runesFrom_le _ _)

/-- The token slice of a prompt, which is no longer than the prompt. -/
def promptTokens (sha : Bytes → Digest) (prompt tokenizerRevision : GoString) : Tokens :=
  ⟨approxTokenizeWithRevision sha prompt.1 tokenizerRevision.1, by
    rw [approxTokenizeWithRevision, List.length_map]
    exact (length_approxTokenUnits_le prompt.1).trans_lt prompt.2⟩

theorem flatten_approxTokenUnits (s : ScalarText) :
    (approxTokenUnits s.utf8).flatten = (s.filter fun ch => !isSpace ch).utf8 := by
  have joined := goClasses.flatten_units s.1
  rw [approxTokenUnits_utf8]
  change _ = (s.1.filter fun ch => !goClasses.space ch).flatMap utf8Char
  rw [← joined, List.flatMap_def, List.map_flatten, List.flatten_flatten, List.map_map]
  rfl

theorem approxTokenUnits_append {a ws b : ScalarText} (nonempty : ws.1 ≠ [])
    (spaces : ∀ ch ∈ ws.1, isSpace ch = true) :
    approxTokenUnits ((a.append ws).append b).utf8 =
      approxTokenUnits a.utf8 ++ approxTokenUnits b.utf8 := by
  simp only [approxTokenUnits_utf8, ScalarText.append]
  rw [goClasses.units_append_gap nonempty spaces, List.map_append]

/-! ## Full blocks of a token prefix -/

theorem pieces_of_ne_nil {α : Type} {size fuel : Nat} {xs : List α} (nonempty : xs ≠ []) :
    pieces size (fuel + 1) xs = xs.take size :: pieces size fuel (xs.drop size) := by
  cases xs with
  | nil => exact absurd rfl nonempty
  | cons x xs => rfl

theorem pieces_take_append {α : Type} {size count fuel fuel' : Nat} (positive : 0 < size)
    {xs ys : List α} (full : count * size ≤ xs.length) (enough : xs.length ≤ fuel)
    (enough' : xs.length + ys.length ≤ fuel') :
    (pieces size fuel xs).take count = (pieces size fuel' (xs ++ ys)).take count ∧
      count ≤ (pieces size fuel xs).length := by
  induction count generalizing xs fuel fuel' with
  | zero => simp
  | succ count ih =>
    rw [Nat.succ_mul] at full
    have inside : size ≤ xs.length := by omega
    have some : xs ≠ [] := List.ne_nil_of_length_pos (positive.trans_le inside)
    obtain ⟨fuel, rfl⟩ : ∃ more, fuel = more + 1 := ⟨fuel - 1, by omega⟩
    obtain ⟨fuel', rfl⟩ : ∃ more, fuel' = more + 1 := ⟨fuel' - 1, by omega⟩
    have dropped : (xs.drop size).length = xs.length - size := List.length_drop
    obtain ⟨same, long⟩ := @ih fuel fuel' (xs.drop size) (by omega) (by omega) (by omega)
    rw [pieces_of_ne_nil some, pieces_of_ne_nil (List.append_ne_nil_of_left_ne_nil some ys),
      List.take_append_of_le_length inside, List.drop_append_of_le_length inside]
    simp only [List.take_succ_cons, same, List.length_cons, Nat.add_le_add_iff_right, long,
      and_self]

theorem computeChain_take (sha : Bytes → Digest) (key : IsolationKey) (parent : Bytes)
    (blocks : List (List UInt64)) (count : Nat) :
    (computeChain sha key parent blocks).take count =
      computeChain sha key parent (blocks.take count) := by
  induction blocks generalizing parent count with
  | nil => simp [computeChain]
  | cons block rest ih =>
    cases count with
    | zero => rfl
    | succ count => simp [computeChain, ih]

theorem length_computeChain (sha : Bytes → Digest) (key : IsolationKey) (parent : Bytes)
    (blocks : List (List UInt64)) :
    (computeChain sha key parent blocks).length = blocks.length := by
  induction blocks generalizing parent with
  | nil => rfl
  | cons block rest ih => simp [computeChain, ih]

theorem computeBlocks_take_append {sha : Bytes → Digest} {h : Hasher} {key : IsolationKey}
    {front whole : Tokens} {rest : List UInt64} (grows : whole.1 = front.1 ++ rest) :
    (h.computeBlocks sha front key).take (front.1.length / h.blockSizeTokens) =
        (h.computeBlocks sha whole key).take (front.1.length / h.blockSizeTokens) ∧
      front.1.length / h.blockSizeTokens ≤ (h.computeBlocks sha front key).length := by
  have cut := @pieces_take_append _ h.blockSizeTokens _ front.1.length whole.1.length h.positive
    front.1 rest (Nat.div_mul_le_self _ _) le_rfl (by rw [grows, List.length_append])
  unfold Hasher.computeBlocks Hasher.cut
  rw [computeChain_take, computeChain_take, length_computeChain, cut.1, grows]
  exact ⟨rfl, cut.2⟩

theorem length_front_lt {a ws b : ScalarText}
    (fits : ((a.append ws).append b).utf8.length < 2 ^ 63) : a.utf8.length < 2 ^ 63 := by
  simp only [ScalarText.utf8_append, List.length_append] at fits
  omega

/-- Extending a prompt after white space keeps its units and the hashes of its
full blocks, so every index sees the same overlap on them. -/
theorem prompt_extension_keeps_prefix (sha : Bytes → Digest) (h : Hasher) (key : IsolationKey)
    (revision : GoString) (a ws b : ScalarText) (nonempty : ws.1 ≠ [])
    (spaces : ∀ ch ∈ ws.1, isSpace ch = true)
    (fits : ((a.append ws).append b).utf8.length < 2 ^ 63) :
    approxTokenUnits (a.utf8 ++ ws.utf8 ++ b.utf8) =
        approxTokenUnits a.utf8 ++ approxTokenUnits b.utf8 ∧
      (∀ s : ScalarText,
        (approxTokenUnits s.utf8).flatten = (s.filter fun ch => !isSpace ch).utf8) ∧
      ∃ count, count = (approxTokenUnits a.utf8).length / h.blockSizeTokens ∧
        count ≤ (h.computeBlocks sha (promptTokens sha ⟨_, length_front_lt fits⟩ revision) key).length ∧
        (h.computeBlocks sha (promptTokens sha ⟨_, length_front_lt fits⟩ revision) key).take count =
          (h.computeBlocks sha (promptTokens sha ⟨_, fits⟩ revision) key).take count ∧
        ∀ (idx : Index) (now : Time) (w : WorkerID),
          idx.overlapByWorker now
              ((h.blockHashes sha (promptTokens sha ⟨_, length_front_lt fits⟩ revision) key).take count) w =
            idx.overlapByWorker now
              ((h.blockHashes sha (promptTokens sha ⟨_, fits⟩ revision) key).take count) w := by
  have units := @approxTokenUnits_append a ws b nonempty spaces
  have tokens : (promptTokens sha ⟨_, fits⟩ revision).1 =
      (promptTokens sha ⟨_, length_front_lt fits⟩ revision).1 ++
        approxTokenizeWithRevision sha b.utf8 revision.1 := by
    simp only [promptTokens, approxTokenizeWithRevision, units, List.map_append]
  obtain ⟨blocks, enough⟩ := @computeBlocks_take_append sha h key _ _ _ tokens
  have counted : (promptTokens sha ⟨_, length_front_lt fits⟩ revision).1.length =
      (approxTokenUnits a.utf8).length := by
    simp [promptTokens, approxTokenizeWithRevision]
  rw [counted] at blocks enough
  refine ⟨by simpa using units, flatten_approxTokenUnits, _, rfl, enough, blocks, ?_⟩
  intro idx now w
  simp only [Hasher.blockHashes, ← List.map_take, blocks]

/-- The first block of `ab` and of `ab c` have one hash. -/
theorem sample_extension_keeps_block :
    ((Hasher.new 1).computeBlocks sha256 (promptTokens sha256 ⟨(ScalarText.ofString "ab").utf8,
        by decide +kernel⟩ ⟨[118], by decide⟩) (sampleKey 97)).take 1 =
      ((Hasher.new 1).computeBlocks sha256 (promptTokens sha256 ⟨(((ScalarText.ofString "ab").append
        (ScalarText.ofString " ")).append (ScalarText.ofString "c")).utf8,
          by decide +kernel⟩ ⟨[118], by decide⟩) (sampleKey 97)).take 1 := by
  obtain ⟨-, -, count, counted, -, same, -⟩ :=
    prompt_extension_keeps_prefix sha256 (Hasher.new 1) (sampleKey 97) ⟨[118], by decide⟩
      (ScalarText.ofString "ab") (ScalarText.ofString " ") (ScalarText.ofString "c")
      (by decide) (by intro ch member; cases List.mem_singleton.mp member; rfl) (by decide +kernel)
  have one : count = 1 := counted.trans (by decide +kernel)
  rwa [one] at same

end AiStorage.Router
