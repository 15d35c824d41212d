import AiStorage.KV.MetadataLaws
import AiStorage.Lib.Base64
import AiStorage.Lib.Path

/-!
# Where payloads are kept

`layout.py` and the object names of `s3_tier.py`. Each component of a key becomes one
Base64 name, so different keys have different paths and object names, and none of them
leaves the configured root.
-/
namespace AiStorage.KV
open Lib

def component (label : String) (value : Text) : Text :=
  text (label ++ "-v1-") ++ base64Strip (base64Encode ((encodeUtf8 value).getD []))

def namespaceParts (key : BlockKey) : List Text :=
  [component "tenant" key.tenantId.val, component "model" key.modelId.val,
    component "revision" key.modelRevision.val, component "tokenizer" key.tokenizerRevision.val,
    component "lora" key.loraId.val, component "modality" key.modalityKey.val,
    text "hash-v1-" ++ key.blockHash.val.take 2]

def blockName (key : BlockKey) : Text := text "hash-v1-" ++ key.blockHash.val ++ text ".kv"

def storageKeyParts (key : BlockKey) : List Text := namespaceParts key ++ [blockName key]

def requireDescendant (root candidate : Path) : Except PyError Path :=
  let resolved := candidate.foldl Path.enter []
  if root.isPrefixOf resolved then .ok resolved
  else .error (.saying .valueError "generated block path escapes the configured root")

def blockPath (root : Path) (key : BlockKey) : Except PyError Path :=
  requireDescendant root (root ++ storageKeyParts key)

def namespaceDir (root : Path) (key : BlockKey) : Except PyError Path :=
  requireDescendant root (root ++ namespaceParts key)

def objectKey (bucketPrefix : Text) (key : BlockKey) : Text :=
  let path := [slash].intercalate (storageKeyParts key)
  if bucketPrefix.isEmpty then path else bucketPrefix ++ slash :: path

/-! ## Names are plain -/

/-- Letters, digits, `-`, `_` and `.`, from a letter on. -/
def plainName (name : Text) : Bool :=
  (name.head?.any fun c => 97 ≤ c.val && c.val ≤ 122) &&
    name.all fun c => isBase64Digit c || c = dot

theorem nameOk_of_plain {name : Text} (plain : plainName name = true) : nameOk name = true := by
  simp only [plainName, Bool.and_eq_true, List.all_eq_true] at plain
  obtain ⟨letter, all⟩ := plain
  have noSlash : slash ∉ name := fun member => absurd (all _ member) (by decide)
  have noNul : nul ∉ name := fun member => absurd (all _ member) (by decide)
  cases name with
  | nil => exact absurd letter Bool.false_ne_true
  | cons c rest =>
    have first : c ≠ dot := by
      rintro rfl
      have low : (decide (97 ≤ dot.val) && decide (dot.val ≤ 122)) = true := letter
      exact absurd low (by decide)
    have apart : c :: rest ≠ text "." ∧ c :: rest ≠ text ".." :=
      ⟨fun same => first (List.cons.inj same).1, fun same => first (List.cons.inj same).1⟩
    simp only [nameOk, Bool.and_eq_true, Bool.not_eq_true', decide_eq_true_eq, List.contains_eq_mem,
      decide_eq_false_iff_not]
    exact ⟨⟨⟨⟨rfl, apart.1⟩, apart.2⟩, noSlash⟩, noNul⟩

theorem plainName_append {front back : Text} (first : plainName front = true)
    (more : (back.all fun c => isBase64Digit c || c = dot) = true) :
    plainName (front ++ back) = true := by
  simp only [plainName, Bool.and_eq_true] at first ⊢
  refine ⟨?_, by rw [List.all_append, first.2, more]; rfl⟩
  cases front with
  | nil => exact absurd first.1 Bool.false_ne_true
  | cons c rest => exact first.1

variable {label : String} {k l : BlockKey}

theorem plainName_component (value : Text)
    (known : plainName (text (label ++ "-v1-")) = true) : plainName (component label value) = true := by
  rw [component, base64Strip_encode]
  refine plainName_append known (List.all_eq_true.mpr fun c member => ?_)
  simp [base64Digits_all _ c member]

theorem hex_digits {s : Text} (hex : isSha256Hex s = true) :
    (s.all fun c => isBase64Digit c || c = dot) = true := by
  simp only [isSha256Hex, Bool.and_eq_true, List.all_eq_true] at hex
  refine List.all_eq_true.mpr fun c member => ?_
  have digit := hex.2 c member
  simp only [isDigit, Bool.or_eq_true, Bool.and_eq_true, decide_eq_true_eq] at digit
  have wide : isBase64Digit c = true := by
    simp only [isBase64Digit, Bool.or_eq_true, Bool.and_eq_true, decide_eq_true_eq]
    omega
  simp [wide]

variable (key : BlockKey)

theorem plainName_namespaceParts : ∀ name ∈ namespaceParts key, plainName name = true := by
  have shard : plainName (text "hash-v1-" ++ key.blockHash.val.take 2) = true := by
    refine plainName_append (by decide) (List.all_eq_true.mpr fun c member => ?_)
    exact List.all_eq_true.mp (hex_digits key.blockHash.property) c (List.mem_of_mem_take member)
  simp only [namespaceParts, List.forall_mem_cons]
  exact ⟨plainName_component _ (by decide), plainName_component _ (by decide),
    plainName_component _ (by decide), plainName_component _ (by decide),
    plainName_component _ (by decide), plainName_component _ (by decide), shard,
    List.forall_mem_nil _⟩

theorem plainName_blockName : plainName (blockName key) = true :=
  plainName_append (plainName_append (by decide) (hex_digits key.blockHash.property)) (by decide)

theorem plainName_storageKeyParts : ∀ name ∈ storageKeyParts key, plainName name = true := by
  rw [storageKeyParts, List.forall_mem_append, List.forall_mem_singleton]
  exact ⟨plainName_namespaceParts key, plainName_blockName key⟩

theorem resolved_namespaceParts : Path.Resolved (namespaceParts key) :=
  fun name member => nameOk_of_plain (plainName_namespaceParts key name member)

theorem resolved_storageKeyParts : Path.Resolved (storageKeyParts key) :=
  fun name member => nameOk_of_plain (plainName_storageKeyParts key name member)

theorem requireDescendant_append {root parts : Path} (fixed : root.Resolved)
    (plain : Path.Resolved parts) : requireDescendant root (root ++ parts) = .ok (root ++ parts) := by
  have both : Path.Resolved (root ++ parts) := List.forall_mem_append.mpr ⟨fixed, plain⟩
  have prefixed : root.isPrefixOf (root ++ parts) = true := by simp
  rw [requireDescendant, Path.foldl_enter [] _ both, List.nil_append, prefixed, if_pos rfl]

theorem blockPath_eq {root : Path} (fixed : root.Resolved) (key : BlockKey) :
    blockPath root key = .ok (root ++ storageKeyParts key) :=
  requireDescendant_append fixed (resolved_storageKeyParts key)

theorem namespaceDir_eq {root : Path} (fixed : root.Resolved) (key : BlockKey) :
    namespaceDir root key = .ok (root ++ namespaceParts key) :=
  requireDescendant_append fixed (resolved_namespaceParts key)

/-! ## Different keys have different names -/

theorem component_inj {allowEmpty : Bool} {s t : IdentityComponent allowEmpty}
    (same : component label s.val = component label t.val) : s = t := by
  rw [component, component, base64Strip_encode, base64Strip_encode] at same
  have bytes := base64Digits_inj (List.append_cancel_left same)
  obtain ⟨x, left⟩ := Option.isSome_iff_exists.mp s.encodes
  obtain ⟨y, right⟩ := Option.isSome_iff_exists.mp t.encodes
  rw [left, right, Option.getD_some, Option.getD_some] at bytes
  exact Subtype.ext (encodeUtf8_inj left (bytes ▸ right))

theorem blockName_inj (same : blockName k = blockName l) : k.blockHash = l.blockHash :=
  Subtype.ext (List.append_cancel_left (List.append_cancel_right same))

theorem storageKeyParts_inj (same : storageKeyParts k = storageKeyParts l) : k = l := by
  obtain ⟨spaces, names⟩ := List.append_inj' same rfl
  simp only [namespaceParts, List.cons.injEq] at spaces
  obtain ⟨tenant, model, revision, tokenizer, lora, modality, -⟩ := spaces
  have hash := blockName_inj (List.cons.inj names).1
  cases k
  cases l
  simp only [BlockKey.mk.injEq]
  exact ⟨component_inj tenant, component_inj model, component_inj revision, component_inj tokenizer,
    hash, component_inj lora, component_inj modality⟩

theorem objectKey_inj {bucketPrefix : Text}
    (same : objectKey bucketPrefix k = objectKey bucketPrefix l) : k = l := by
  have paths : [slash].intercalate (storageKeyParts k) = [slash].intercalate (storageKeyParts l) := by
    simp only [objectKey] at same
    split at same
    · exact same
    · exact (List.cons.inj (List.append_cancel_left same)).2
  have split : ∀ key, ([slash].intercalate (storageKeyParts key)).splitOn slash =
      storageKeyParts key := by
    intro key
    refine List.splitOn_intercalate slash (fun name member => ?_) (by simp [storageKeyParts])
    exact (Path.not_mem_of_nameOk (resolved_storageKeyParts key name member)).1
  refine storageKeyParts_inj ?_
  rw [← split k, ← split l, paths]

/-! ## Names fit a directory entry -/

theorem length_component {allowEmpty : Bool} (value : IdentityComponent allowEmpty)
    (short : (text (label ++ "-v1-")).length ≤ 80) : (component label value.val).length ≤ 255 := by
  have ok := value.property
  simp only [identityComponentOk, Bool.and_eq_true, decide_eq_true_eq] at ok
  have bytes : ((encodeUtf8 value.val).getD []).length ≤ 128 := ok.1.2
  rw [component, base64Strip_encode, List.length_append, length_base64Digits]
  omega

theorem length_storageKeyParts : ∀ name ∈ storageKeyParts key, name.length ≤ 255 := by
  have hash : key.blockHash.val.length = 64 := by
    have hex := key.blockHash.property
    simp only [isSha256Hex, Bool.and_eq_true, decide_eq_true_eq] at hex
    exact hex.1
  have shard : (text "hash-v1-" ++ key.blockHash.val.take 2).length ≤ 255 := by
    rw [List.length_append, List.length_take, hash]
    decide
  have last : (blockName key).length ≤ 255 := by
    rw [blockName, List.length_append, List.length_append, hash]
    decide
  simp only [storageKeyParts, namespaceParts, List.cons_append, List.nil_append, List.forall_mem_cons]
  exact ⟨length_component _ (by decide), length_component _ (by decide),
    length_component _ (by decide), length_component _ (by decide),
    length_component _ (by decide), length_component _ (by decide), shard, last,
    List.forall_mem_nil _⟩

theorem encodeUtf8_plainName {name : Text} (plain : plainName name = true) :
    ∃ bytes, encodeUtf8 name = some bytes ∧ bytes.length = name.length := by
  simp only [plainName, Bool.and_eq_true, List.all_eq_true] at plain
  have ascii : Ascii name := by
    intro c member
    have allowed := plain.2 c member
    have dotted : dot.val = 46 := rfl
    simp only [isBase64Digit, Bool.or_eq_true, Bool.and_eq_true, decide_eq_true_eq,
      Fin.ext_iff, dotted] at allowed
    omega
  refine ⟨_, encodeUtf8_of_ascii ascii, ?_⟩
  rw [flatMap_utf8Char_of_ascii ascii, List.length_map]

/-- Keys are determined by their namespace and hash, by their path and by their object
name; and the names of a block are proper file names that stay below the root. -/
theorem block_identity_injective_confined :
    (∀ k l : BlockKey, k.namespaceId = l.namespaceId → k.blockHash = l.blockHash → k = l) ∧
    (∀ k l : BlockKey, storageKeyParts k = storageKeyParts l → k = l) ∧
    (∀ (root : Path) (k l : BlockKey), root.Resolved → blockPath root k = blockPath root l → k = l) ∧
    (∀ (bucketPrefix : Text) (k l : BlockKey),
      objectKey bucketPrefix k = objectKey bucketPrefix l → k = l) ∧
    (∀ k : BlockKey, ∀ name ∈ storageKeyParts k,
      name ≠ [] ∧ name ≠ text "." ∧ name ≠ text ".." ∧ slash ∉ name ∧ nul ∉ name ∧
        ∃ bytes, encodeUtf8 name = some bytes ∧ bytes.length ≤ 255) ∧
    (∀ (root : Path) (k : BlockKey), root.Resolved →
      ∃ below, below ≠ [] ∧ Path.Resolved below ∧ blockPath root k = .ok (root ++ below)) := by
  refine ⟨fun k l => BlockKey.namespaceId_inj, fun k l => storageKeyParts_inj, ?_,
    fun _ k l => objectKey_inj, ?_, ?_⟩
  · intro root k l fixed same
    rw [blockPath_eq fixed, blockPath_eq fixed] at same
    exact storageKeyParts_inj (List.append_cancel_left (Except.ok.inj same))
  · intro k name member
    have plain := plainName_storageKeyParts k name member
    have ok := nameOk_of_plain plain
    obtain ⟨bytes, encoded, size⟩ := encodeUtf8_plainName plain
    obtain ⟨noSlash, noNul⟩ := Path.not_mem_of_nameOk ok
    simp only [nameOk, Bool.and_eq_true, Bool.not_eq_true', ne_eq, decide_eq_true_eq,
      List.isEmpty_eq_false_iff] at ok
    exact ⟨ok.1.1.1.1, ok.1.1.1.2, ok.1.1.2, noSlash, noNul, bytes, encoded,
      size ▸ length_storageKeyParts k name member⟩
  · intro root k fixed
    exact ⟨storageKeyParts k, by simp [storageKeyParts], resolved_storageKeyParts k,
      blockPath_eq fixed k⟩

theorem block_identity_injective_confined_sample :
    (∃ below, below ≠ [] ∧ Path.Resolved below ∧
      blockPath [text "kv"] sampleKey = .ok ([text "kv"] ++ below)) ∧
    storageKeyParts { sampleKey with loraId := ⟨text "l", by decide⟩ } ≠ storageKeyParts sampleKey := by
  obtain ⟨-, parts, -, -, -, confined⟩ := block_identity_injective_confined
  refine ⟨confined [text "kv"] sampleKey (by decide), fun same => ?_⟩
  exact absurd (congrArg BlockKey.loraId (parts _ _ same)) (by decide)

end AiStorage.KV
