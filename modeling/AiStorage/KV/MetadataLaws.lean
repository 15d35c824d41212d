import AiStorage.KV.Metadata

/-!
# Metadata survives its JSON form

What `from_dict(json.loads(json.dumps(to_dict())))` gives for valid metadata, and why
comparing descriptors with it is the same before and after.
-/
namespace AiStorage.KV
open Lib

namespace KVMetadata

/-- Metadata that `validate(require_checksum=True)` accepts. -/
structure Valid (m : KVMetadata) : Prop where
  dtype : checkDtype m.dtype = .ok ()
  numLayers : checkPositive "num_layers" m.numLayers = .ok ()
  numKvHeads : checkPositive "num_kv_heads" m.numKvHeads = .ok ()
  headDim : checkPositive "head_dim" m.headDim = .ok ()
  tokens : checkNonNegative "tokens" m.tokens = .ok ()
  bytes : checkNonNegative "bytes" m.bytes = .ok ()
  reuseCount : checkNonNegative "reuse_count" m.reuseCount = .ok ()
  shape : checkShape m.shape = .ok ()
  checksumAlgo : checkChecksumAlgo m.checksumAlgo = .ok ()
  checksum : checkChecksum true m.checksum = .ok ()
  createdAt : checkTimestamp "created_at" m.createdAt = .ok ()
  lastAccess : checkTimestamp "last_access" m.lastAccess = .ok ()
  extra : checkExtra m.extra = .ok ()

theorem validate_eq_ok {m : KVMetadata} : m.validate true = .ok () ↔ m.Valid := by
  simp only [validate, bind_unit_ok]
  constructor
  · rintro ⟨h₁, h₂, h₃, h₄, h₅, h₆, h₇, h₈, h₉, h₁₀, h₁₁, h₁₂, h₁₃⟩
    exact ⟨h₁, h₂, h₃, h₄, h₅, h₆, h₇, h₈, h₉, h₁₀, h₁₁, h₁₂, h₁₃⟩
  · rintro ⟨h₁, h₂, h₃, h₄, h₅, h₆, h₇, h₈, h₉, h₁₀, h₁₁, h₁₂, h₁₃⟩
    exact ⟨h₁, h₂, h₃, h₄, h₅, h₆, h₇, h₈, h₉, h₁₀, h₁₁, h₁₂, h₁₃⟩

end KVMetadata

/-! ## What each check tells -/

variable {v : PyVal} {s : Text} {allowEmpty : Bool} {items : List (PyKey × PyVal)}

theorem checkDtype_ok (ok : checkDtype v = .ok ()) :
    ∃ s, v = .str s ∧ (encodeUtf8 s).isSome := by
  cases v with
  | str s =>
    refine ⟨s, rfl, ?_⟩
    simp only [checkDtype] at ok
    split_ifs at ok with empty encodes
    simpa [Option.isSome_iff_ne_none] using encodes
  | none | bool _ | int _ | float _ | list _ | tuple _ | dict _ | object _ => simp [checkDtype] at ok

theorem checkInteger_ok {least : Int} {message : String}
    (ok : checkInteger least message v = .ok ()) : ∃ n, v = .int n ∧ least ≤ n := by
  cases v with
  | int n =>
    simp only [checkInteger] at ok
    split_ifs at ok with below
    exact ⟨n, rfl, Int.not_lt.mp below⟩
  | none | bool _ | str _ | float _ | list _ | tuple _ | dict _ | object _ =>
    simp [checkInteger] at ok

theorem checkShape_ok (ok : checkShape v = .ok ()) :
    ∃ items, v = .tuple items ∧ ∀ item ∈ items, ∃ n, item = .int n := by
  cases v with
  | tuple items =>
    simp only [checkShape] at ok
    split_ifs at ok with all
    refine ⟨items, rfl, fun item member => ?_⟩
    have whole := List.all_eq_true.mp all item member
    cases item with
    | int n => exact ⟨n, rfl⟩
    | none | bool _ | str _ | float _ | list _ | tuple _ | dict _ | object _ =>
      simp [isNonNegativeInt] at whole
  | none | bool _ | str _ | int _ | float _ | list _ | dict _ | object _ => simp [checkShape] at ok

theorem eq_str_of_pyEq (same : v.pyEq (.str s) = true) : v = .str s := by
  have canon := PyVal.pyEq_iff.mp same
  cases v with
  | str t => rw [strCode_inj (Canon.atom.inj canon)]
  | none | bool _ | int _ | object _ =>
    exact absurd (List.cons.inj (Canon.atom.inj canon)).1 (by decide)
  | float x => cases x with
    | finite | infinite | nan => exact absurd (List.cons.inj (Canon.atom.inj canon)).1 (by decide)
  | list _ | tuple _ | dict _ => exact absurd canon (by simp [PyVal.canon])

theorem checkChecksumAlgo_ok (ok : checkChecksumAlgo v = .ok ()) :
    v = .str (text "sha256") := by
  unfold checkChecksumAlgo at ok
  split_ifs at ok with same
  exact eq_str_of_pyEq same

theorem checkChecksum_ok (ok : checkChecksum true v = .ok ()) :
    ∃ s, v = .str s ∧ isSha256Hex s = true := by
  cases v with
  | str s =>
    simp only [checkChecksum, Bool.true_or, if_true] at ok
    split_ifs at ok with hex
    exact ⟨s, rfl, hex⟩
  | none | bool _ | int _ | float _ | list _ | tuple _ | dict _ | object _ =>
    simp [checkChecksum] at ok

theorem checkTimestamp_ok {name : String} (ok : checkTimestamp name v = .ok ()) :
    (∃ n, v = .int n) ∨ ∃ x, v = .float x ∧ x.isFinite = true := by
  cases v with
  | int n => exact .inl ⟨n, rfl⟩
  | float x =>
    refine .inr ⟨x, rfl, ?_⟩
    simp only [checkTimestamp] at ok
    split_ifs at ok with bad
    simp only [Bool.or_eq_true, Bool.not_eq_true', not_or, Bool.not_eq_false] at bad
    exact bad.1
  | none | bool _ | str _ | list _ | tuple _ | dict _ | object _ => simp [checkTimestamp] at ok

theorem checkExtra_ok (ok : checkExtra v = .ok ()) :
    ∃ items, v = .dict items ∧ (PyVal.dict items).encodable false = true := by
  cases v with
  | dict items =>
    simp only [checkExtra] at ok
    split_ifs at ok with finite
    exact ⟨items, rfl, finite⟩
  | none | bool _ | str _ | int _ | float _ | list _ | tuple _ | object _ => simp [checkExtra] at ok

theorem checkExtra_norm (ok : checkExtra v = .ok ()) : checkExtra v.norm = .ok () := by
  obtain ⟨items, rfl, finite⟩ := checkExtra_ok ok
  have again := PyVal.encodable_norm finite
  rw [PyVal.norm_dict] at again ⊢
  simp only [checkExtra, again, if_true]

/-! ## Strings that read back -/

theorem joinSurrogates_of_encodes (encodes : (encodeUtf8 s).isSome = true) :
    joinSurrogates s = s := by
  obtain ⟨bytes, encoded⟩ := Option.isSome_iff_exists.mp encodes
  exact joinSurrogates_of_joined (joined_of_scalar (scalar_of_encodeUtf8 encoded).1)

theorem IdentityComponent.encodes (s : IdentityComponent allowEmpty) :
    (encodeUtf8 s.val).isSome = true := by
  have ok := s.property
  simp only [identityComponentOk, Bool.and_eq_true] at ok
  exact ok.1.1.2

theorem ascii_of_isSha256Hex (hex : isSha256Hex s = true) : Ascii s := by
  intro c member
  simp only [isSha256Hex, Bool.and_eq_true, List.all_eq_true] at hex
  have digit := hex.2 c member
  simp only [isDigit, Bool.or_eq_true, Bool.and_eq_true, decide_eq_true_eq] at digit
  omega

theorem encodes_of_ascii (ascii : Ascii s) : (encodeUtf8 s).isSome = true := by
  rw [encodeUtf8_of_ascii ascii]
  rfl

theorem joinSurrogates_of_ascii (ascii : Ascii s) : joinSurrogates s = s :=
  joinSurrogates_of_encodes (encodes_of_ascii ascii)

/-! ## Keys read back -/

def plainKeys (items : List (PyKey × PyVal)) : Bool :=
  items.all fun item =>
    match item.1 with
    | .str s => s.all fun c => c.val < 128
    | _ => false

theorem norm_of_plainKeys (plain : plainKeys items = true) :
    (PyVal.dict items).norm = .dict (dictItems (items.map fun item => (item.1, item.2.norm))) := by
  refine PyVal.norm_of_plain_keys fun item member => ?_
  have key := List.all_eq_true.mp plain item member
  cases shape : item.1 with
  | str s =>
    rw [shape] at key
    have ascii : Ascii s := fun c inside => of_decide_eq_true (List.all_eq_true.mp key c inside)
    obtain ⟨bytes, encoded⟩ := Option.isSome_iff_exists.mp (encodes_of_ascii ascii)
    exact ⟨s, rfl, joined_of_scalar (scalar_of_encodeUtf8 encoded).1⟩
  | none | bool _ | int _ | float _ | object _ =>
    rw [shape] at key
    exact absurd key Bool.false_ne_true

theorem getField_norm (name : String) (items : List (PyKey × PyVal)) :
    getField name (dictItems (items.map fun item => (item.1, item.2.norm))) =
      (getField name items).map PyVal.norm := by
  rw [getField, dictGet_dictItems, dictGet_map]
  rfl

theorem canon_norm_of_values (plain : plainKeys items = true)
    (values : ∀ item ∈ items, item.2.norm.canon = item.2.canon) :
    (PyVal.dict items).norm.canon = (PyVal.dict items).canon := by
  rw [norm_of_plainKeys plain, PyVal.canon_dict, PyVal.canon_dict,
    dictItems_of_sorted (sortedKeys_dictItems _), dictItems_map, List.map_map]
  congr 1
  refine List.map_congr_left fun item member => ?_
  obtain ⟨old, inside, value⟩ := mem_dictItems member
  rw [Function.comp_apply, ← value, values old inside]

theorem checkKeywords_norm {required optional : List String}
    (ok : checkKeywords required optional items = .ok ()) :
    checkKeywords required optional (dictItems (items.map fun item => (item.1, item.2.norm))) =
      .ok () := by
  unfold checkKeywords at ok ⊢
  split_ifs at ok with fits
  rw [if_pos]
  simp only [Bool.and_eq_true, List.all_eq_true] at fits ⊢
  refine ⟨fun item member => ?_, fun name listed => ?_⟩
  · obtain ⟨old, inside, key⟩ := key_of_mem_dictItems member
    obtain ⟨source, there, rfl⟩ := List.mem_map.mp inside
    have known := fits.1 source there
    rw [← key]
    exact known
  · rw [getField_norm, Option.isSome_map]
    exact fits.2 name listed

theorem validateIdentityComponent_ok (name : String) (s : IdentityComponent allowEmpty) :
    validateIdentityComponent name allowEmpty (.str s.val) = .ok s := by
  simp [validateIdentityComponent, s.property]

theorem validateBlockHash_ok (s : Sha256Hex) : validateBlockHash (.str s.val) = .ok s := by
  simp [validateBlockHash, s.property]

theorem norm_component (s : IdentityComponent allowEmpty) :
    (PyVal.str s.val).norm = .str s.val := by
  rw [PyVal.norm, joinSurrogates_of_encodes s.encodes]

theorem norm_sha256Hex (hex : isSha256Hex s = true) : (PyVal.str s).norm = .str s := by
  rw [PyVal.norm, joinSurrogates_of_ascii (ascii_of_isSha256Hex hex)]

theorem BlockKey.ofDict_norm (key : BlockKey) :
    BlockKey.ofDict (PyVal.dict key.fields).norm = .ok key := by
  rw [norm_of_plainKeys rfl, ofDict, checkKeywords_norm rfl]
  simp only [getField_norm]
  have tenant : getField "tenant_id" key.fields = some (.str key.tenantId.val) := rfl
  have model : getField "model_id" key.fields = some (.str key.modelId.val) := rfl
  have revision : getField "model_revision" key.fields = some (.str key.modelRevision.val) := rfl
  have tokenizer :
    getField "tokenizer_revision" key.fields = some (.str key.tokenizerRevision.val) := rfl
  have hash : getField "block_hash" key.fields = some (.str key.blockHash.val) := rfl
  have lora : getField "lora_id" key.fields = some (.str key.loraId.val) := rfl
  have modality : getField "modality_key" key.fields = some (.str key.modalityKey.val) := rfl
  simp only [tenant, model, revision, tokenizer, hash, lora, modality, Option.map_some,
    Option.getD_some, norm_component, norm_sha256Hex key.blockHash.property, BlockKey.new,
    validateIdentityComponent_ok, validateBlockHash_ok]
  rfl

/-! ## Metadata read back -/

namespace KVMetadata

/-- The metadata that a row or a record gives back. -/
def persisted (m : KVMetadata) : KVMetadata := { m with extra := m.extra.norm }

theorem persisted_valid {m : KVMetadata} (valid : m.Valid) : m.persisted.Valid :=
  { valid with extra := checkExtra_norm valid.extra }

theorem norm_int_items {items : List PyVal} (ints : ∀ item ∈ items, ∃ n, item = .int n) :
    items.map PyVal.norm = items := by
  refine (List.map_congr_left fun item member => ?_).trans (List.map_id _)
  obtain ⟨n, rfl⟩ := ints item member
  rfl

variable {v : PyVal}

theorem norm_timestamp {name : String} (ok : checkTimestamp name v = .ok ()) :
    v.norm = v := by
  rcases checkTimestamp_ok ok with ⟨n, rfl⟩ | ⟨x, rfl, -⟩ <;> rfl

theorem norm_integer {least : Int} {message : String}
    (ok : checkInteger least message v = .ok ()) : v.norm = v := by
  obtain ⟨n, rfl, -⟩ := checkInteger_ok ok
  rfl

theorem norm_dtype (ok : checkDtype v = .ok ()) : v.norm = v := by
  obtain ⟨s, rfl, encodes⟩ := checkDtype_ok ok
  rw [PyVal.norm, joinSurrogates_of_encodes encodes]

theorem norm_checksum (ok : checkChecksum true v = .ok ()) : v.norm = v := by
  obtain ⟨s, rfl, hex⟩ := checkChecksum_ok ok
  exact norm_sha256Hex hex

theorem norm_checksumAlgo (ok : checkChecksumAlgo v = .ok ()) : v.norm = v := by
  rw [checkChecksumAlgo_ok ok, PyVal.norm, joinSurrogates_of_ascii (by decide)]

theorem norm_shapeList (ok : checkShape v = .ok ()) :
    (shapeList v).norm = shapeList v := by
  obtain ⟨items, rfl, ints⟩ := checkShape_ok ok
  rw [shapeList, PyVal.norm, PyVal.normList_eq_map, norm_int_items ints]

/-- Valid metadata comes back from its JSON form with only its `extra` normalised. -/
theorem fromDict_norm_toDict {m : KVMetadata} (valid : m.Valid) (now : Readings) :
    fromDict now m.toDict.norm = .ok m.persisted := by
  obtain ⟨items, shape, ints⟩ := checkShape_ok valid.shape
  have sizes : getField "shape" m.fields = some (.list items) := by
    change some (shapeList m.shape) = _
    rw [shape]
    rfl
  have tuple : shapeTuple (some (PyVal.list items).norm) = .ok m.shape := by
    rw [PyVal.norm, PyVal.normList_eq_map, norm_int_items ints, shape]
    cases items <;> rfl
  have known : checkKeywords required optional m.fields = .ok () := rfl
  have keyField : getField "key" m.fields = some (.dict m.key.fields) := rfl
  have field : ∀ name {v}, getField name m.fields = some v → v.norm = v → ∀ default,
      ((getField name m.fields).map PyVal.norm).getD default = v := by
    intro name v found same default
    rw [found, Option.map_some, Option.getD_some, same]
  have extraField : ∀ default,
      ((getField "extra" m.fields).map PyVal.norm).getD default = m.extra.norm := fun _ => rfl
  rw [toDict, norm_of_plainKeys rfl, fromDict]
  simp only [getField_norm, sizes, keyField, checkKeywords_norm known, Option.map_some, tuple,
    BlockKey.ofDict_norm, extraField, field "dtype" rfl (norm_dtype valid.dtype),
    field "checksum" rfl (norm_checksum valid.checksum),
    field "checksum_algo" rfl (norm_checksumAlgo valid.checksumAlgo), field "num_layers" rfl (norm_integer valid.numLayers),
    field "num_kv_heads" rfl (norm_integer valid.numKvHeads),
    field "head_dim" rfl (norm_integer valid.headDim),
    field "tokens" rfl (norm_integer valid.tokens), field "bytes" rfl (norm_integer valid.bytes),
    field "reuse_count" rfl (norm_integer valid.reuseCount),
    field "created_at" rfl (norm_timestamp valid.createdAt),
    field "last_access" rfl (norm_timestamp valid.lastAccess)]
  rfl

theorem encodable_of_plainKeys {allowNan : Bool} {items : List (PyKey × PyVal)}
    (plain : plainKeys items = true) (values : ∀ item ∈ items, item.2.encodable allowNan = true) :
    (PyVal.dict items).encodable allowNan = true := by
  have strings : ∀ item ∈ dictItems items, ∃ s, item.1 = .str s := by
    intro item member
    obtain ⟨old, inside, key⟩ := key_of_mem_dictItems member
    have ascii := List.all_eq_true.mp plain old inside
    cases shape : old.1 with
    | str s => exact ⟨s, key ▸ shape⟩
    | none | bool _ | int _ | float _ | object _ =>
      rw [shape] at ascii
      exact absurd ascii Bool.false_ne_true
  rw [PyVal.encodable_dict, Bool.and_eq_true, List.all_eq_true]
  constructor
  · have all : ((dictItems items).map Prod.fst).all PyKey.isStr = true := by
      rw [List.all_map, List.all_eq_true]
      intro item member
      obtain ⟨s, key⟩ := strings item member
      simp [key, PyKey.isStr]
    simp [sortableKeys, all]
  · intro item member
    obtain ⟨s, key⟩ := strings item member
    obtain ⟨old, inside, value⟩ := mem_dictItems member
    rw [key, ← value]
    exact values old inside

theorem encodable_toDict {m : KVMetadata} (valid : m.Valid) : m.toDict.encodable true = true := by
  have integer : ∀ {least message v}, checkInteger least message v = .ok () →
      v.encodable true = true := by
    intro least message v ok
    obtain ⟨n, rfl, -⟩ := checkInteger_ok ok
    rfl
  have timestamp : ∀ {name v}, checkTimestamp name v = .ok () → v.encodable true = true := by
    intro name v ok
    rcases checkTimestamp_ok ok with ⟨n, rfl⟩ | ⟨x, rfl, -⟩ <;> rfl
  have dtype : m.dtype.encodable true = true := by
    obtain ⟨s, shape, -⟩ := checkDtype_ok valid.dtype
    rw [shape]
    rfl
  have checksum : m.checksum.encodable true = true := by
    obtain ⟨s, shape, -⟩ := checkChecksum_ok valid.checksum
    rw [shape]
    rfl
  have algo : m.checksumAlgo.encodable true = true := by
    rw [checkChecksumAlgo_ok valid.checksumAlgo]
    rfl
  have sizes : (shapeList m.shape).encodable true = true := by
    obtain ⟨items, shape, ints⟩ := checkShape_ok valid.shape
    rw [shape, shapeList, PyVal.encodable, PyVal.encodableList_eq_all, List.all_eq_true]
    intro item member
    obtain ⟨n, rfl⟩ := ints item member
    rfl
  have extra : m.extra.encodable true = true := by
    obtain ⟨items, shape, finite⟩ := checkExtra_ok valid.extra
    rw [shape]
    exact PyVal.encodable_mono finite
  have key : (PyVal.dict m.key.fields).encodable true = true :=
    encodable_of_plainKeys rfl (by simp [BlockKey.fields, PyVal.encodable])
  refine encodable_of_plainKeys rfl ?_
  simp [fields, key, dtype, integer valid.numLayers, integer valid.numKvHeads,
    integer valid.headDim, integer valid.tokens, integer valid.bytes, sizes, checksum, algo,
    timestamp valid.createdAt, timestamp valid.lastAccess, integer valid.reuseCount, extra]

end KVMetadata

theorem PayloadDescriptor.pyEq_iff {d e : PayloadDescriptor} :
    d.pyEq e = true ↔ d.canon = e.canon := by
  simp [pyEq]

/-- A comparison with persisted metadata does not see whether the other side went
through JSON as well. -/
theorem KVMetadata.descriptor_persisted {m n : KVMetadata}
    (same : m.persisted.payloadDescriptor.pyEq n.payloadDescriptor = true) :
    m.persisted.payloadDescriptor.pyEq n.persisted.payloadDescriptor = true := by
  rw [PayloadDescriptor.pyEq_iff] at same ⊢
  simp only [PayloadDescriptor.canon, payloadDescriptor, persisted, List.map_cons, List.map_nil,
    Prod.mk.injEq, List.cons.injEq, and_true] at same ⊢
  obtain ⟨key, dtype, layers, heads, dim, tokens, bytes, shape, checksum, algo, extra⟩ := same
  exact ⟨key, dtype, layers, heads, dim, tokens, bytes, shape, checksum, algo,
    PyVal.pyEq_iff.mp (PyVal.pyEq_norm_of_pyEq (PyVal.pyEq_iff.mpr extra))⟩

def KVMetadata.pyEq (m n : KVMetadata) : Bool :=
  m.payloadDescriptor.pyEq n.payloadDescriptor && m.createdAt.pyEq n.createdAt &&
    m.lastAccess.pyEq n.lastAccess && m.reuseCount.pyEq n.reuseCount

section ReadBack

variable {m : KVMetadata}

theorem KVMetadata.persisted_pyEq (plain : m.extra.canon.Plain) : m.persisted.pyEq m = true := by
  have extra := PyVal.canon_norm_of_plain plain
  have same : m.persisted.payloadDescriptor.pyEq m.payloadDescriptor = true := by
    simp only [PayloadDescriptor.pyEq_iff, PayloadDescriptor.canon, payloadDescriptor, persisted,
      List.map_cons, List.map_nil, extra]
  rw [pyEq, same]
  simp [persisted]

theorem BlockKey.canon_norm_fields (key : BlockKey) :
    (PyVal.dict key.fields).norm.canon = (PyVal.dict key.fields).canon := by
  refine canon_norm_of_values rfl ?_
  simp [fields, norm_component, norm_sha256Hex key.blockHash.property]

theorem KVMetadata.canon_norm_toDict (valid : m.Valid) (plain : m.extra.canon.Plain) :
    m.toDict.norm.canon = m.toDict.canon := by
  refine canon_norm_of_values rfl ?_
  simp [fields, m.key.canon_norm_fields, norm_dtype valid.dtype, norm_integer valid.numLayers,
    norm_integer valid.numKvHeads, norm_integer valid.headDim, norm_integer valid.tokens,
    norm_integer valid.bytes, norm_shapeList valid.shape, norm_checksum valid.checksum,
    norm_checksumAlgo valid.checksumAlgo, norm_timestamp valid.createdAt,
    norm_timestamp valid.lastAccess, norm_integer valid.reuseCount,
    PyVal.canon_norm_of_plain plain]

end ReadBack

/-! ## The namespace identifies the key -/

theorem quotedRaw_inj {t r u : Text}
    (same : quoted escapeRaw s ++ r = quoted escapeRaw t ++ u) : s = t ∧ r = u := by
  simp only [quoted, List.cons_append, List.append_assoc, List.nil_append] at same
  have inner := congrArg scanString (List.cons.inj same).2
  rw [scanString_escapeRaw, scanString_escapeRaw] at inner
  exact Prod.mk.inj (Option.some.inj inner)

theorem BlockKey.namespaceId_inj {k l : BlockKey} (ids : k.namespaceId = l.namespaceId)
    (hash : k.blockHash = l.blockHash) : k = l := by
  simp only [namespaceId, List.map_cons, List.map_nil, PyVal.commaSeparated, List.cons_append,
    List.nil_append, List.append_assoc, List.cons.injEq, true_and] at ids
  obtain ⟨-, ids⟩ := quotedRaw_inj ids
  obtain ⟨tenant, ids⟩ := quotedRaw_inj (List.cons.inj ids).2
  obtain ⟨model, ids⟩ := quotedRaw_inj (List.cons.inj ids).2
  obtain ⟨revision, ids⟩ := quotedRaw_inj (List.cons.inj ids).2
  obtain ⟨tokenizer, ids⟩ := quotedRaw_inj (List.cons.inj ids).2
  obtain ⟨lora, ids⟩ := quotedRaw_inj (List.cons.inj ids).2
  obtain ⟨modality, -⟩ := quotedRaw_inj (List.cons.inj ids).2
  cases k
  cases l
  simp only [BlockKey.mk.injEq]
  exact ⟨Subtype.ext tenant, Subtype.ext model, Subtype.ext revision, Subtype.ext tokenizer, hash,
    Subtype.ext lora, Subtype.ext modality⟩

end AiStorage.KV
