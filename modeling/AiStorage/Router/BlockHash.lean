import AiStorage.Lib.Sha256
import AiStorage.Router.CacheIndex
import Mathlib.Data.Finset.Card

/-!
# Namespace-isolated chained block identity

`router/internal/blockhash`. Go strings are byte strings and, like slices, have fewer than
`2 ^ 63` elements; a token is a `uint64`. The hash function is a parameter.
-/
namespace AiStorage.Router
open Lib

abbrev GoString := { bytes : Bytes // bytes.length < 2 ^ 63 }

abbrev Tokens := { tokens : List UInt64 // tokens.length < 2 ^ 63 }

structure IsolationKey where
  tenantID : GoString
  tenantSalt : GoString
  modelID : GoString
  modelRevision : GoString
  tokenizerRevision : GoString
  loRAID : GoString
  modalityKey : GoString
  cacheSalt : GoString
  deriving DecidableEq

structure Hasher where
  blockSizeTokens : Nat
  positive : 0 < blockSizeTokens

def Hasher.new (blockSizeTokens : Int) : Hasher :=
  if h : 0 < blockSizeTokens then ⟨blockSizeTokens.toNat, by omega⟩ else ⟨16, by decide⟩

/-- `EmptyParent`: sixty-four `0` characters. -/
def emptyParent : Bytes := List.replicate 64 48

def zeroDigest : Digest := ⟨List.replicate 32 0, by simp⟩

theorem hexEncode_zeroDigest : hexEncode zeroDigest.1 = emptyParent := by decide

def writeUint64 (value : Nat) : Bytes := beBytes 8 value

def writeString (value : Bytes) : Bytes := lengthPrefixed 8 value

def hashInput (parent : Bytes) (blockTokens : List UInt64) (key : IsolationKey) : Bytes :=
  writeString parent ++ (writeString key.tenantID.1 ++ (writeString key.tenantSalt.1 ++
    (writeString key.modelID.1 ++ (writeString key.modelRevision.1 ++
      (writeString key.tokenizerRevision.1 ++ (writeString key.loRAID.1 ++
        (writeString key.modalityKey.1 ++ (writeString key.cacheSalt.1 ++
          (writeUint64 blockTokens.length ++ beWords 8 (blockTokens.map UInt64.toNat))))))))))

section Chain

variable (sha : Bytes → Digest)

def computeOne (parent : Bytes) (blockTokens : List UInt64) (key : IsolationKey) : Bytes :=
  hexEncode (sha (hashInput parent blockTokens key)).1

/-- The loop of `ComputeBlocks`: each hash is the parent of the next block. -/
def computeChain (key : IsolationKey) : Bytes → List (List UInt64) → List Bytes
  | _, [] => []
  | parent, block :: rest =>
    let hashHex := computeOne sha parent block key
    hashHex :: computeChain key hashHex rest

/-- The slices `tokens[start:end]` the loop visits. -/
def Hasher.cut (h : Hasher) (tokens : Tokens) : List (List UInt64) :=
  pieces h.blockSizeTokens tokens.1.length tokens.1

/-- The hashes of a block size for which no `int` of `ComputeBlocks` wraps. -/
def Hasher.computeBlocks (h : Hasher) (tokens : Tokens) (key : IsolationKey) : List Bytes :=
  computeChain sha key emptyParent (h.cut tokens)

/-- `common.BlockHash(block)`: the hex text as the index key. -/
def toBlockHash (hashHex : Bytes) : BlockHash :=
  String.ofList (hashHex.map fun b => Char.ofNat b.toNat)

def Hasher.blockHashes (h : Hasher) (tokens : Tokens) (key : IsolationKey) : List BlockHash :=
  (h.computeBlocks sha tokens key).map toBlockHash

def chainInputs (key : IsolationKey) : Bytes → List (List UInt64) → List Bytes
  | _, [] => []
  | parent, block :: rest =>
    hashInput parent block key :: chainInputs key (computeOne sha parent block key) rest

def Hasher.hashed (h : Hasher) (tokens : Tokens) (key : IsolationKey) : Set Bytes :=
  { input | input ∈ chainInputs sha key emptyParent (h.cut tokens) }

end Chain

theorem writeString_append_inj {a b restA restB : Bytes} (ha : a.length < 2 ^ 63)
    (hb : b.length < 2 ^ 63) (same : writeString a ++ restA = writeString b ++ restB) :
    a = b ∧ restA = restB :=
  lengthPrefixed_append_inj (by omega) (by omega) same

theorem hashInput_inj {p q : Bytes} {s t : List UInt64} {K L : IsolationKey}
    (hp : p.length < 2 ^ 63) (hq : q.length < 2 ^ 63) (hs : s.length < 2 ^ 63)
    (ht : t.length < 2 ^ 63) (same : hashInput p s K = hashInput q t L) :
    p = q ∧ s = t ∧ K = L := by
  unfold hashInput at same
  obtain ⟨parent, same⟩ := writeString_append_inj hp hq same
  obtain ⟨tenant, same⟩ := writeString_append_inj K.tenantID.2 L.tenantID.2 same
  obtain ⟨salt, same⟩ := writeString_append_inj K.tenantSalt.2 L.tenantSalt.2 same
  obtain ⟨model, same⟩ := writeString_append_inj K.modelID.2 L.modelID.2 same
  obtain ⟨revision, same⟩ := writeString_append_inj K.modelRevision.2 L.modelRevision.2 same
  obtain ⟨tokenizer, same⟩ :=
    writeString_append_inj K.tokenizerRevision.2 L.tokenizerRevision.2 same
  obtain ⟨lora, same⟩ := writeString_append_inj K.loRAID.2 L.loRAID.2 same
  obtain ⟨modality, same⟩ := writeString_append_inj K.modalityKey.2 L.modalityKey.2 same
  obtain ⟨cache, same⟩ := writeString_append_inj K.cacheSalt.2 L.cacheSalt.2 same
  obtain ⟨count, words⟩ := List.append_inj same (by simp [writeUint64])
  have lengths : s.length = t.length := beBytes_inj (by omega) (by omega) count
  have tokens : s.map UInt64.toNat = t.map UInt64.toNat := by
    refine beWords_inj (by simpa using lengths) ?_ ?_ words
    · intro x member
      obtain ⟨token, -, rfl⟩ := List.mem_map.mp member
      exact token.toNat_lt
    · intro x member
      obtain ⟨token, -, rfl⟩ := List.mem_map.mp member
      exact token.toNat_lt
  refine ⟨parent, List.map_injective_iff.mpr (fun _ _ h => UInt64.toNat_inj.mp h) tokens, ?_⟩
  cases K
  cases L
  simp only [Subtype.coe_inj] at tenant salt model revision tokenizer lora modality cache
  simp [tenant, salt, model, revision, tokenizer, lora, modality, cache]

/-! ## The chain -/

section ChainFacts

variable {sha : Bytes → Digest} {key : IsolationKey}

theorem computeChain_eq_map (parent : Bytes) (blocks : List (List UInt64)) :
    computeChain sha key parent blocks =
      (chainInputs sha key parent blocks).map fun input => hexEncode (sha input).1 := by
  induction blocks generalizing parent with
  | nil => rfl
  | cons block rest ih => simp [computeChain, chainInputs, computeOne, ih]

def ParentAt (initial : Bytes) (hashes : List Bytes) : Nat → Bytes → Prop
  | 0, p => p = initial
  | i + 1, p => hashes[i]? = some p

theorem chainInputs_get {parent : Bytes} {blocks : List (List UInt64)} {i : Nat} {input : Bytes}
    (found : (chainInputs sha key parent blocks)[i]? = some input) :
    ∃ block p, blocks[i]? = some block ∧ input = hashInput p block key ∧
      ParentAt parent (computeChain sha key parent blocks) i p := by
  induction blocks generalizing parent i with
  | nil => simp [chainInputs] at found
  | cons block rest ih =>
    cases i with
    | zero =>
      simp only [chainInputs, List.getElem?_cons_zero, Option.some.injEq] at found
      exact ⟨block, parent, rfl, found.symm, rfl⟩
    | succ i =>
      simp only [chainInputs, List.getElem?_cons_succ] at found
      obtain ⟨block', p, here, shape, link⟩ := ih found
      refine ⟨block', p, by simpa using here, shape, ?_⟩
      cases i with
      | zero => simpa [ParentAt, computeChain] using link.symm
      | succ i => simpa [ParentAt, computeChain] using link

theorem length_of_mem_computeChain {parent h : Bytes} {blocks : List (List UInt64)}
    (member : h ∈ computeChain sha key parent blocks) : h.length = 64 := by
  rw [computeChain_eq_map] at member
  obtain ⟨input, -, rfl⟩ := List.mem_map.mp member
  simp [(sha input).2]

end ChainFacts

/-! ## Equal hashes come from equal chains -/

section Identity

variable {sha : Bytes → Digest} {h₁ h₂ : Hasher} {t₁ t₂ : Tokens} {K₁ K₂ : IsolationKey}

theorem Hasher.length_cut {h : Hasher} {t : Tokens} {block : List UInt64}
    (member : block ∈ h.cut t) : block.length < 2 ^ 63 :=
  Nat.lt_of_le_of_lt (length_le_of_mem_pieces member) t.2

theorem hashed_of_computeBlocks {h : Hasher} {t : Tokens} {K : IsolationKey} {i : Nat} {d : Bytes}
    (found : (h.computeBlocks sha t K)[i]? = some d) :
    ∃ input ∈ h.hashed sha t K, d = hexEncode (sha input).1 ∧
      ∃ block p, (h.cut t)[i]? = some block ∧ input = hashInput p block K ∧ p.length = 64 ∧
        block.length < 2 ^ 63 ∧ ParentAt emptyParent (h.computeBlocks sha t K) i p := by
  unfold Hasher.computeBlocks at found
  rw [computeChain_eq_map, List.getElem?_map] at found
  obtain ⟨input, place, rfl⟩ := Option.map_eq_some_iff.mp found
  obtain ⟨block, p, here, shape, link⟩ := chainInputs_get place
  refine ⟨input, List.mem_of_getElem? place, rfl, block, p, here, shape, ?_,
    Hasher.length_cut (List.mem_of_getElem? here), link⟩
  cases i with
  | zero => simp [show p = emptyParent from link, emptyParent]
  | succ i => exact length_of_mem_computeChain (List.mem_of_getElem? link)

theorem chain_identity
    (injective : Set.InjOn sha (h₁.hashed sha t₁ K₁ ∪ h₂.hashed sha t₂ K₂))
    (nonzero : ∀ input ∈ h₁.hashed sha t₁ K₁ ∪ h₂.hashed sha t₂ K₂, sha input ≠ zeroDigest)
    {i j : Nat} {d : Bytes} (first : (h₁.computeBlocks sha t₁ K₁)[i]? = some d)
    (second : (h₂.computeBlocks sha t₂ K₂)[j]? = some d) :
    i = j ∧ K₁ = K₂ ∧ (h₁.cut t₁).take (i + 1) = (h₂.cut t₂).take (i + 1) := by
  -- no hash of either chain is the parent of a first block
  have proper : ∀ {h : Hasher} {t : Tokens} {K : IsolationKey} {k : Nat},
      h.hashed sha t K ⊆ h₁.hashed sha t₁ K₁ ∪ h₂.hashed sha t₂ K₂ →
      (h.computeBlocks sha t K)[k]? ≠ some emptyParent := by
    intro h t K k within found
    obtain ⟨input, member, digest, -⟩ := hashed_of_computeBlocks found
    rw [← hexEncode_zeroDigest] at digest
    exact nonzero input (within member) (Subtype.ext (hexEncode_inj digest)).symm
  induction i generalizing j d with
  | zero =>
    obtain ⟨x, xIn, dx, b, p, bAt, rfl, pLen, bLen, rfl⟩ := hashed_of_computeBlocks first
    obtain ⟨y, yIn, dy, c, q, cAt, rfl, qLen, cLen, link⟩ := hashed_of_computeBlocks second
    have inputs := injective (.inl xIn) (.inr yIn) (Subtype.ext (hexEncode_inj (dx.symm.trans dy)))
    obtain ⟨parents, blocks, keys⟩ := hashInput_inj (by omega) (by omega) bLen cLen inputs
    cases j with
    | zero => exact ⟨rfl, keys, by simp [List.take_add_one, bAt, cAt, blocks]⟩
    | succ j =>
      rw [← parents] at link
      exact absurd link (proper Set.subset_union_right)
  | succ i ih =>
    obtain ⟨x, xIn, dx, b, p, bAt, rfl, pLen, bLen, before⟩ := hashed_of_computeBlocks first
    obtain ⟨y, yIn, dy, c, q, cAt, rfl, qLen, cLen, link⟩ := hashed_of_computeBlocks second
    have inputs := injective (.inl xIn) (.inr yIn) (Subtype.ext (hexEncode_inj (dx.symm.trans dy)))
    obtain ⟨parents, blocks, keys⟩ := hashInput_inj (by omega) (by omega) bLen cLen inputs
    cases j with
    | zero =>
      rw [parents, show q = emptyParent from link] at before
      exact absurd before (proper Set.subset_union_left)
    | succ j =>
      rw [← parents] at link
      obtain ⟨same, -, cuts⟩ := ih before link
      subst same
      refine ⟨rfl, keys, ?_⟩
      rw [List.take_add_one, cuts, bAt, blocks, ← cAt, ← List.take_add_one]

end Identity

theorem toBlockHash_injective : Function.Injective toBlockHash := by
  have chars : Function.Injective fun b : UInt8 => Char.ofNat b.toNat := by
    intro a b same
    have valid : ∀ n < 256, (Char.ofNat n).toNat = n := by
      decide +kernel
    apply UInt8.toNat_inj.mp
    rw [← valid _ a.toNat_lt, ← valid _ b.toNat_lt]
    exact congrArg Char.toNat same
  intro a b same
  exact List.map_injective_iff.mpr chars (String.ofList_injective same)

section Requests

variable (sha : Bytes → Digest) (h₁ h₂ : Hasher) (t₁ t₂ : Tokens) (K₁ K₂ : IsolationKey)

theorem blockHashes_nodup (injective : Set.InjOn sha (h₁.hashed sha t₁ K₁))
    (nonzero : ∀ input ∈ h₁.hashed sha t₁ K₁, sha input ≠ zeroDigest) :
    (h₁.blockHashes sha t₁ K₁).Nodup := by
  refine List.Nodup.map toBlockHash_injective ?_
  rw [List.nodup_iff_injective_getElem]
  intro i j same
  have first := List.getElem?_eq_getElem i.2
  have second := List.getElem?_eq_getElem j.2
  dsimp only at same
  rw [same] at first
  exact Fin.ext (chain_identity (by simpa using injective) (by simpa using nonzero) first second).1

/-- The live observation that `OverlapByWorker` counts. -/
def Index.observed (idx : Index) (now : Time) (worker : WorkerID) (block : BlockHash) : Bool :=
  match idx.location block worker with
  | some loc => loc.expiresAt > now
  | none => false

/-- Chained identity is collision-free across namespaces and prefixes: one hash
names one position, one isolation key and one cut of one token prefix. -/
theorem block_identity_collision_free
    (injective : Set.InjOn sha (h₁.hashed sha t₁ K₁ ∪ h₂.hashed sha t₂ K₂))
    (nonzero : ∀ input ∈ h₁.hashed sha t₁ K₁ ∪ h₂.hashed sha t₂ K₂, sha input ≠ zeroDigest) :
    (∀ i j d, (h₁.computeBlocks sha t₁ K₁)[i]? = some d →
      (h₂.computeBlocks sha t₂ K₂)[j]? = some d →
      i = j ∧ K₁ = K₂ ∧ (h₁.cut t₁).take (i + 1) = (h₂.cut t₂).take (i + 1)) ∧
    (h₁.blockHashes sha t₁ K₁).Nodup ∧
    (∀ (idx : Index) (now : Time) (w : WorkerID),
      idx.overlapByWorker now (h₁.blockHashes sha t₁ K₁) w =
        ((h₁.blockHashes sha t₁ K₁).toFinset.filter fun b => idx.observed now w b).card) ∧
    (K₁ ≠ K₂ → ∀ (idx idx' : Index) (now : Time) (w : WorkerID),
      (∀ b, b ∉ h₂.blockHashes sha t₂ K₂ → idx.location b w = idx'.location b w) →
      idx.overlapByWorker now (h₁.blockHashes sha t₁ K₁) w =
        idx'.overlapByWorker now (h₁.blockHashes sha t₁ K₁) w) := by
  have identity := fun i j d => chain_identity (i := i) (j := j) (d := d) injective nonzero
  have distinct : (h₁.blockHashes sha t₁ K₁).Nodup :=
    blockHashes_nodup sha h₁ t₁ K₁ (injective.mono Set.subset_union_left)
      (fun input member => nonzero input (.inl member))
  refine ⟨identity, distinct, ?_, ?_⟩
  · intro idx now w
    rw [← List.toFinset_filter, List.toFinset_card_of_nodup (distinct.filter _),
      ← List.countP_eq_length_filter]
    rfl
  · intro keys idx idx' now w agree
    refine List.countP_congr ?_
    intro b member
    have foreign : b ∉ h₂.blockHashes sha t₂ K₂ := by
      intro other
      obtain ⟨x, xIn, rfl⟩ := List.mem_map.mp member
      obtain ⟨y, yIn, same⟩ := List.mem_map.mp other
      rw [toBlockHash_injective same] at yIn
      obtain ⟨i, first⟩ := List.mem_iff_getElem?.mp xIn
      obtain ⟨j, second⟩ := List.mem_iff_getElem?.mp yIn
      exact keys (identity i j x first second).2.1
    rw [agree b foreign]

end Requests

def sampleKey (tenant : UInt8) : IsolationKey where
  tenantID := ⟨[tenant], by simp⟩
  tenantSalt := ⟨[115], by decide⟩
  modelID := ⟨[109], by decide⟩
  modelRevision := ⟨[114], by decide⟩
  tokenizerRevision := ⟨[116], by decide⟩
  loRAID := ⟨[], by decide⟩
  modalityKey := ⟨[], by decide⟩
  cacheSalt := ⟨[], by decide⟩

def sampleTokens : Tokens := ⟨[1, 2], by decide⟩

def sampleInputs : List Bytes :=
  chainInputs sha256 (sampleKey 97) emptyParent ((Hasher.new 2).cut sampleTokens) ++
    chainInputs sha256 (sampleKey 98) emptyParent ((Hasher.new 1).cut sampleTokens)

/-- With the real SHA-256, the blocks of two tenants never meet. -/
theorem sample_tenants_disjoint :
    List.Disjoint ((Hasher.new 2).computeBlocks sha256 sampleTokens (sampleKey 97))
      ((Hasher.new 1).computeBlocks sha256 sampleTokens (sampleKey 98)) := by
  have distinct : (zeroDigest :: sampleInputs.map sha256).Nodup := by
    decide +kernel
  rw [List.nodup_cons] at distinct
  have members : ∀ input ∈ (Hasher.new 2).hashed sha256 sampleTokens (sampleKey 97) ∪
      (Hasher.new 1).hashed sha256 sampleTokens (sampleKey 98), input ∈ sampleInputs :=
    fun _ member => List.mem_append.mpr member
  intro d here there
  obtain ⟨i, first⟩ := List.mem_iff_getElem?.mp here
  obtain ⟨j, second⟩ := List.mem_iff_getElem?.mp there
  refine absurd ((block_identity_collision_free sha256 (Hasher.new 2) (Hasher.new 1) sampleTokens
    sampleTokens (sampleKey 97) (sampleKey 98) ?_ ?_).1 i j d first second).2.1 (by decide)
  · intro a ha b hb same
    exact List.inj_on_of_nodup_map distinct.2 (members a ha) (members b hb) same
  · intro input member zero
    exact distinct.1 (List.mem_map.mpr ⟨input, members input member, zero⟩)

end AiStorage.Router
