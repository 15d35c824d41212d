import AiStorage.Lib.Lists
import AiStorage.Router.Tokenization

/-!
# The Python side of the token and block contract

`shared/python/tokenization.py` and `shared/python/blockhash.py` against the Router's Go
versions. A `str` may hold surrogates; the comparison is over text that both languages hold.
-/
namespace AiStorage.Shared
open AiStorage.Lib AiStorage.Router

inductive PyError
  | unicodeEncodeError
  | structError
  | valueError (message : String)
  deriving DecidableEq

def encode (s : Text) : Except PyError Bytes :=
  match encodeUtf8 s with
  | some bytes => .ok bytes
  | none => .error .unicodeEncodeError

/-! ## Tokenization -/

/-- Characters with bidirectional class `WS`, `B` or `S`. -/
def bidiSpace (ch : CodePoint) : Bool :=
  let ws := ch.val = 12 || ch.val = 32 || ch.val = 5760 || (8192 ≤ ch.val && ch.val ≤ 8202) ||
    ch.val = 8232 || ch.val = 8287 || ch.val = 12288
  let b := ch.val = 10 || ch.val = 13 || (28 ≤ ch.val && ch.val ≤ 30) || ch.val = 133 ||
    ch.val = 8233
  let s := ch.val = 9 || ch.val = 11 || ch.val = 31
  ws || b || s

/-- Characters of category `Zs`. -/
def spaceSeparator (ch : CodePoint) : Bool :=
  ch.val = 32 || ch.val = 160 || ch.val = 5760 || (8192 ≤ ch.val && ch.val ≤ 8202) ||
    ch.val = 8239 || ch.val = 8287 || ch.val = 12288

/-- `str.isspace` of one character. -/
def isspace (ch : CodePoint) : Bool := bidiSpace ch || spaceSeparator ch

def isascii (ch : CodePoint) : Bool := ch.val < 128

def isAsciiWordChar (ch : CodePoint) : Bool :=
  ch.val = 95 || (48 ≤ ch.val && ch.val ≤ 57) || (65 ≤ ch.val && ch.val ≤ 90) ||
    (97 ≤ ch.val && ch.val ≤ 122)

theorem isspace_iff (ch : CodePoint) :
    isspace ch = true ↔ Router.isSpace ch = true ∨ (28 ≤ ch.val ∧ ch.val ≤ 31) := by
  simp only [isspace, bidiSpace, spaceSeparator, Router.isSpace, Bool.or_eq_true, Bool.and_eq_true,
    decide_eq_true_eq]
  omega

def pyClasses : Classes CodePoint where
  space := isspace
  word := fun ch => isascii ch && isAsciiWordChar ch
  apart := by
    intro ch word
    have plain := goClasses.apart ch (Bool.and_eq_true_iff.mp word).2
    rw [Bool.eq_false_iff, ne_eq, isspace_iff]
    simp only [isascii, isAsciiWordChar, Bool.or_eq_true, Bool.and_eq_true,
      decide_eq_true_eq] at word
    rintro (space | control)
    · exact absurd (space.symm.trans plain) (by decide)
    · omega

def iterUnits (prompt : Text) : List Text := pyClasses.units prompt

structure TokenizationResult where
  tokenizerRevision : Text
  units : List Text
  tokens : List Nat
  deriving DecidableEq

section Hashing

variable (sha : Bytes → Digest)

def vocabModulus : Nat := 1000000

def tokenIDOffset : Nat := 1

def tokenId (unit tokenizerRevision : Text) : Except PyError Nat := do
  let revision ← encode tokenizerRevision
  let unit ← encode unit
  let digest := sha (revision ++ [0] ++ unit)
  return beNat (digest.1.take 8) % vocabModulus + tokenIDOffset

def approximateTokenize (prompt tokenizerRevision : Text) :
    Except PyError TokenizationResult := do
  let units := iterUnits prompt
  let tokens ← units.mapM fun unit => tokenId sha unit tokenizerRevision
  return ⟨tokenizerRevision, units, tokens⟩

/-! ## Block hashes -/

structure IsolationKey where
  tenantId : Text
  tenantSalt : Text
  modelId : Text
  modelRevision : Text
  tokenizerRevision : Text
  loraId : Text
  modalityKey : Text
  cacheSalt : Text
  deriving DecidableEq

/-- The attributes in `FIELD_ORDER`. -/
def IsolationKey.fields (key : IsolationKey) : List Text :=
  [key.tenantId, key.tenantSalt, key.modelId, key.modelRevision, key.tokenizerRevision, key.loraId,
    key.modalityKey, key.cacheSalt]

def packUint64 (value : Nat) : Except PyError Bytes :=
  if value < 2 ^ 64 then .ok (beBytes 8 value) else .error .structError

def writeString (value : Text) : Except PyError Bytes := do
  let encoded ← encode value
  let length ← packUint64 encoded.length
  return length ++ encoded

def writeUint64 (value : Int) : Except PyError Bytes :=
  if value < 0 then .error (.valueError "token ids must be non-negative")
  else packUint64 value.toNat

def hexdigest (digest : Digest) : Text :=
  (hexEncode digest.1).map fun b => CodePoint.ofNat b.toNat

def blockInput (parent : Text) (key : IsolationKey) (block : List Int) : Except PyError Bytes := do
  let parent ← writeString parent
  let fields ← key.fields.mapM writeString
  let count ← writeUint64 block.length
  let tokens ← block.mapM writeUint64
  return parent ++ fields.flatten ++ count ++ tokens.flatten

def blockLoop (key : IsolationKey) : Text → List (List Int) → Except PyError (List Text)
  | _, [] => .ok []
  | parent, block :: rest => do
    let input ← blockInput parent key block
    let parent := hexdigest (sha input)
    let out ← blockLoop key parent rest
    return parent :: out

def emptyParent : Text := List.replicate 64 (CodePoint.ofNat 48)

def computeBlocks (tokens : List Int) (key : IsolationKey) (blockSizeTokens : Int) :
    Except PyError (List Text) :=
  if blockSizeTokens ≤ 0 then .error (.valueError "block_size_tokens must be positive")
  else blockLoop sha key emptyParent (pieces blockSizeTokens.toNat tokens.length tokens)

end Hashing

/-! ## Units and tokens of the two languages -/

theorem pyClasses_word (ch : CodePoint) : pyClasses.word ch = goClasses.word ch := by
  have ascii : isAsciiWordChar ch = true → isascii ch = true := by
    simp only [isAsciiWordChar, isascii, Bool.or_eq_true, Bool.and_eq_true, decide_eq_true_eq]
    omega
  change (isascii ch && isAsciiWordChar ch) = isAsciiWordChar ch
  cases word : isAsciiWordChar ch with
  | true => simp [ascii word]
  | false => simp

theorem pyClasses_space (ch : CodePoint) (space : goClasses.space ch = true) :
    pyClasses.space ch = true :=
  (isspace_iff ch).mpr (.inl space)

/-- No character is one of the four information separators U+001C to U+001F. -/
def WithoutSeparators (prompt : Text) : Prop := ∀ ch ∈ prompt, ¬ (28 ≤ ch.val ∧ ch.val ≤ 31)

theorem withoutSeparators_iff (prompt : Text) :
    WithoutSeparators prompt ↔
      ∀ ch ∈ prompt, pyClasses.space ch = true → goClasses.space ch = true := by
  have go : ∀ ch : CodePoint, 28 ≤ ch.val ∧ ch.val ≤ 31 → ¬ goClasses.space ch = true := by
    intro ch control
    change ¬ Router.isSpace ch = true
    simp only [Router.isSpace, Bool.or_eq_true, Bool.and_eq_true, decide_eq_true_eq]
    omega
  constructor
  · intro without ch member space
    exact ((isspace_iff ch).mp space).resolve_right (without ch member)
  · intro agree ch member control
    exact go ch control (agree ch member ((isspace_iff ch).mpr (.inr control)))

theorem encode_scalar {s : Text} (scalar : ∀ c ∈ s, c.isSurrogate = false) :
    encode s = .ok (s.flatMap utf8Char) := by
  have encoded := ScalarText.encodeUtf8_eq ⟨s, scalar⟩
  rw [encode, encoded]
  rfl

theorem scalar_of_mem_units (k : Classes CodePoint) (prompt : ScalarText) {unit : Text}
    (member : unit ∈ k.units prompt.1) : ∀ c ∈ unit, c.isSurrogate = false := by
  intro c inside
  have flat : c ∈ (k.units prompt.1).flatten := List.mem_flatten.mpr ⟨unit, member, inside⟩
  rw [k.flatten_units] at flat
  exact prompt.2 c (List.mem_of_mem_filter flat)

section Agreement

variable (sha : Bytes → Digest) (prompt revision : ScalarText)

theorem units_eq (without : WithoutSeparators prompt.1) :
    iterUnits prompt.1 = goClasses.units prompt.1 :=
  Classes.units_eq_of_agree pyClasses_word pyClasses_space
    ((withoutSeparators_iff prompt.1).mp without)

/-- A separator is a unit in Go and nothing in Python, so it shows in the number of units. -/
theorem withoutSeparators_of_length
    (same : (iterUnits prompt.1).length = (goClasses.units prompt.1).length) :
    WithoutSeparators prompt.1 := by
  have counted := Classes.length_units_wide pyClasses_word pyClasses_space prompt.1
  rw [← same] at counted
  rw [withoutSeparators_iff]
  intro ch member space
  have none := List.countP_eq_zero.mp (Nat.left_eq_add.mp counted) ch member
  simpa [space] using none

theorem units_agree_iff :
    (iterUnits prompt.1).map encode = (approxTokenUnits prompt.utf8).map .ok ↔
      WithoutSeparators prompt.1 := by
  have encoded : (iterUnits prompt.1).map encode = (iterUnits prompt.1).map fun unit =>
      .ok (ofRunes unit) :=
    List.map_congr_left fun unit member => encode_scalar (scalar_of_mem_units _ prompt member)
  rw [encoded, approxTokenUnits_utf8, List.map_map]
  constructor
  · intro same
    exact withoutSeparators_of_length prompt (by simpa using congrArg List.length same)
  · intro without
    rw [units_eq prompt without]
    rfl

theorem tokenId_eq {unit : Text} (scalar : ∀ c ∈ unit, c.isSurrogate = false) :
    tokenId sha unit revision.1 = .ok (approxTokenID sha (ofRunes unit) revision.utf8).toNat := by
  have bound := beNat_lt ((sha (revision.utf8 ++ [0] ++ ofRunes unit)).1.take 8)
  have eight : ((sha (revision.utf8 ++ [0] ++ ofRunes unit)).1.take 8).length = 8 := by
    rw [List.length_take, (sha _).2]
    rfl
  rw [eight] at bound
  have value : (approxTokenID sha (ofRunes unit) revision.utf8).toNat =
      beNat ((sha (revision.utf8 ++ [0] ++ ofRunes unit)).1.take 8) % vocabModulus +
        tokenIDOffset := by
    have small : beNat ((sha (revision.utf8 ++ [0] ++ ofRunes unit)).1.take 8) % 1000000 <
        1000000 := Nat.mod_lt _ (by decide)
    simp only [approxTokenID, UInt64.toNat_add, UInt64.toNat_mod, UInt64.toNat_ofNat',
      vocabModulus, tokenIDOffset]
    change (_ % 1000000 + 1) % 2 ^ 64 = _
    omega
  rw [tokenId, encode_scalar scalar, encode_scalar revision.2, value]
  rfl

theorem approximateTokenize_eq :
    approximateTokenize sha prompt.1 revision.1 =
      .ok ⟨revision.1, iterUnits prompt.1, (iterUnits prompt.1).map fun unit =>
        (approxTokenID sha (ofRunes unit) revision.utf8).toNat⟩ := by
  have tokens := mapM_ok fun unit member =>
    tokenId_eq sha revision (scalar_of_mem_units pyClasses prompt member)
  simp only [approximateTokenize, iterUnits, tokens]
  rfl

theorem tokens_agree_iff :
    (iterUnits prompt.1).map (fun unit => (approxTokenID sha (ofRunes unit) revision.utf8).toNat) =
        (approxTokenizeWithRevision sha prompt.utf8 revision.utf8).map UInt64.toNat ↔
      WithoutSeparators prompt.1 := by
  rw [approxTokenizeWithRevision, approxTokenUnits_utf8, List.map_map, List.map_map]
  constructor
  · intro same
    exact withoutSeparators_of_length prompt (by simpa using congrArg List.length same)
  · intro without
    rw [units_eq prompt without]
    rfl

end Agreement

/-! ## Block hashes of the two languages -/

def asciiText (bytes : Bytes) : Text := bytes.map fun b => CodePoint.ofNat b.toNat

theorem encode_asciiText {bytes : Bytes} (ascii : ∀ b ∈ bytes, b.toNat < 128) :
    encode (asciiText bytes) = .ok bytes := by
  have value : ∀ b ∈ bytes, (CodePoint.ofNat b.toNat).val = b.toNat := fun b member =>
    Nat.mod_eq_of_lt ((ascii b member).trans (by decide))
  have scalar : ∀ c ∈ asciiText bytes, c.isSurrogate = false := by
    intro c member
    obtain ⟨b, inside, rfl⟩ := List.mem_map.mp member
    have low := ascii b inside
    simp only [CodePoint.isSurrogate, value b inside, Bool.and_eq_false_iff,
      decide_eq_false_iff_not]
    omega
  have each : ∀ b ∈ bytes, utf8Char (CodePoint.ofNat b.toNat) = [b] := by
    intro b inside
    simp [utf8Char, value b inside, ascii b inside]
  rw [encode_scalar scalar, asciiText, List.flatMap_map, List.flatMap_congr each]
  simp

theorem ascii_hexEncode (bytes : Bytes) : ∀ b ∈ hexEncode bytes, b.toNat < 128 := by
  intro b member
  obtain ⟨byte, -, digit⟩ := List.mem_flatMap.mp member
  have small := byte.toNat_lt
  simp only [List.mem_cons, List.not_mem_nil, or_false] at digit
  rcases digit with rfl | rfl
  · exact hexDigit_lt _ (by omega)
  · exact hexDigit_lt _ (by omega)

/-- One isolation key in the two languages: every attribute encodes to the Go field. -/
def IsolationKey.Names (key : IsolationKey) (K : Router.IsolationKey) : Prop :=
  key.fields.map encode = [K.tenantID.1, K.tenantSalt.1, K.modelID.1, K.modelRevision.1,
    K.tokenizerRevision.1, K.loRAID.1, K.modalityKey.1, K.cacheSalt.1].map .ok

theorem packUint64_ok {value : Nat} (small : value < 2 ^ 64) :
    packUint64 value = .ok (Router.writeUint64 value) := if_pos small

theorem writeString_ok {value : Text} {bytes : Bytes} (encoded : encode value = .ok bytes)
    (small : bytes.length < 2 ^ 63) : writeString value = .ok (Router.writeString bytes) := by
  rw [writeString, encoded]
  change (packUint64 bytes.length >>= fun length => .ok (length ++ bytes)) = _
  rw [packUint64_ok (by omega)]
  rfl

theorem writeUint64_ok {value : Nat} (small : value < 2 ^ 64) :
    writeUint64 value = .ok (Router.writeUint64 value) := by
  rw [writeUint64, if_neg (by omega), Int.toNat_natCast, packUint64_ok small]

section Blocks

variable (sha : Bytes → Digest) {key : IsolationKey} {K : Router.IsolationKey}

theorem writeFields_ok (names : key.Names K) :
    key.fields.mapM writeString = .ok ([K.tenantID.1, K.tenantSalt.1, K.modelID.1,
      K.modelRevision.1, K.tokenizerRevision.1, K.loRAID.1, K.modalityKey.1,
      K.cacheSalt.1].map Router.writeString) := by
  simp only [IsolationKey.Names, IsolationKey.fields, List.map_cons, List.map_nil,
    List.cons.injEq, and_true] at names
  obtain ⟨tenant, salt, model, revision, tokenizer, lora, modality, cache⟩ := names
  simp only [IsolationKey.fields, List.mapM_cons, List.mapM_nil,
    writeString_ok tenant K.tenantID.2, writeString_ok salt K.tenantSalt.2,
    writeString_ok model K.modelID.2, writeString_ok revision K.modelRevision.2,
    writeString_ok tokenizer K.tokenizerRevision.2, writeString_ok lora K.loRAID.2,
    writeString_ok modality K.modalityKey.2, writeString_ok cache K.cacheSalt.2]
  rfl

def toInts (tokens : List UInt64) : List Int := tokens.map fun token => (token.toNat : Int)

theorem blockInput_ok (names : key.Names K) {parent : Bytes} (ascii : ∀ b ∈ parent, b.toNat < 128)
    (short : parent.length < 2 ^ 63) {block : List UInt64} (small : block.length < 2 ^ 63) :
    blockInput (asciiText parent) key (toInts block) = .ok (hashInput parent block K) := by
  have head := writeString_ok (encode_asciiText ascii) short
  have count : writeUint64 (toInts block).length = .ok (Router.writeUint64 block.length) := by
    rw [toInts, List.length_map]
    exact writeUint64_ok (by omega)
  have tokens : (toInts block).mapM writeUint64 =
      .ok (block.map fun token => Router.writeUint64 token.toNat) := by
    rw [toInts, List.mapM_map]
    exact mapM_ok fun token _ => writeUint64_ok token.toNat_lt
  rw [blockInput, head, writeFields_ok names, count, tokens]
  change Except.ok _ = _
  simp [hashInput, beWords, List.flatMap_def, Router.writeUint64, Function.comp_def]

theorem blockLoop_ok (names : key.Names K) {parent : Bytes} (ascii : ∀ b ∈ parent, b.toNat < 128)
    (short : parent.length < 2 ^ 63) {blocks : List (List UInt64)}
    (small : ∀ block ∈ blocks, block.length < 2 ^ 63) :
    blockLoop sha key (asciiText parent) (blocks.map toInts) =
      .ok ((computeChain sha K parent blocks).map asciiText) := by
  induction blocks generalizing parent with
  | nil => rfl
  | cons block rest ih =>
    have input := blockInput_ok names ascii short (small block List.mem_cons_self)
    have later := @ih (computeOne sha parent block K) (ascii_hexEncode _)
      (by simp [computeOne, (sha _).2]) fun b member => small b (.tail block member)
    simp only [List.map_cons, blockLoop, input]
    change (blockLoop sha key (asciiText (computeOne sha parent block K)) _ >>= _) = _
    rw [later]
    rfl

theorem computeBlocks_eq (names : key.Names K) (h : Hasher) (tokens : Tokens) :
    computeBlocks sha (toInts tokens.1) key h.blockSizeTokens =
      .ok ((h.computeBlocks sha tokens K).map asciiText) := by
  have positive := h.positive
  have ascii : ∀ b ∈ Router.emptyParent, b.toNat < 128 := by
    intro b member
    rw [List.eq_of_mem_replicate member]
    decide
  have loop := blockLoop_ok sha names ascii (by decide) fun block member =>
    @Hasher.length_cut h tokens block member
  rw [computeBlocks, if_neg (by omega), Int.toNat_natCast, toInts, List.length_map, pieces_map]
  exact loop

end Blocks

def sampleKeyText : IsolationKey where
  tenantId := text "a"
  tenantSalt := text "s"
  modelId := text "m"
  modelRevision := text "r"
  tokenizerRevision := text "t"
  loraId := []
  modalityKey := []
  cacheSalt := []

end AiStorage.Shared
