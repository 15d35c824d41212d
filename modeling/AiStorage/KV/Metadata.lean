import AiStorage.Lib.PyJsonLaws

/-!
# Block keys and block metadata

`metadata.py` and `errors.py`. A `BlockKey` can only be built through its checks, so
its components carry them. The fields of a `KVMetadata` are whatever the caller or a
JSON document put there; `validate` decides.
-/
namespace AiStorage.KV
open Lib

/-! ## Errors -/

inductive ErrorClass where
  | blockNotFound | checksumMismatch | recordFormatError | corruptionCleanupFailed
  | metadataMismatch | immutableBlockConflict | tierUnavailable | storeFull | loadTimeout
  | keyError | typeError | valueError | unicodeEncodeError | unicodeDecodeError | jsonDecodeError
  | overflowError | runtimeError | osError | fileNotFoundError
  | integrityError | programmingError | operationalError | clientError | noSuchKey | notFound
  deriving DecidableEq, Repr

/-- The text of an error that the interpreter or a library raises is left empty. -/
structure PyError where
  cls : ErrorClass
  message : Text
  deriving DecidableEq

namespace ErrorClass

def isCorruption : ErrorClass → Bool
  | checksumMismatch | recordFormatError | corruptionCleanupFailed | metadataMismatch => true
  | _ => false

def isKVStoreError : ErrorClass → Bool
  | blockNotFound | checksumMismatch | recordFormatError | corruptionCleanupFailed
  | metadataMismatch | immutableBlockConflict | tierUnavailable | storeFull | loadTimeout => true
  | _ => false

def isValueError : ErrorClass → Bool
  | valueError | unicodeEncodeError | unicodeDecodeError | jsonDecodeError => true
  | _ => false

def isOSError : ErrorClass → Bool
  | osError | fileNotFoundError => true
  | _ => false

/-- `except (KeyError, TypeError, ValueError)` -/
def isDataError (cls : ErrorClass) : Bool :=
  cls = keyError || cls = typeError || cls.isValueError

end ErrorClass

def PyError.bare (cls : ErrorClass) : PyError := ⟨cls, []⟩

def PyError.saying (cls : ErrorClass) (message : String) : PyError := ⟨cls, text message⟩

/-! ## Keys -/

def hasControl (s : Text) : Bool := s.any fun c => c.val < 32 || c.val = 127

/-- `[0-9a-f]{64}` -/
def isSha256Hex (s : Text) : Bool :=
  s.length = 64 && s.all fun c => isDigit c || 97 ≤ c.val && c.val ≤ 102

def maxIdentityComponentBytes : Nat := 128

def utf8Length (s : Text) : Nat := ((encodeUtf8 s).getD []).length

def identityComponentOk (allowEmpty : Bool) (s : Text) : Bool :=
  (allowEmpty || !s.isEmpty) && (encodeUtf8 s).isSome &&
    utf8Length s ≤ maxIdentityComponentBytes && !hasControl s

abbrev IdentityComponent (allowEmpty : Bool) :=
  { s : Text // identityComponentOk allowEmpty s = true }

abbrev Sha256Hex := { s : Text // isSha256Hex s = true }

structure BlockKey where
  tenantId : IdentityComponent false
  modelId : IdentityComponent false
  modelRevision : IdentityComponent false
  tokenizerRevision : IdentityComponent false
  blockHash : Sha256Hex
  loraId : IdentityComponent true
  modalityKey : IdentityComponent true
  deriving DecidableEq

def validateIdentityComponent (name : String) (allowEmpty : Bool) :
    PyVal → Except PyError (IdentityComponent allowEmpty)
  | .str s =>
    if ok : identityComponentOk allowEmpty s = true then .ok ⟨s, ok⟩
    else if !allowEmpty && s.isEmpty then .error (.saying .valueError (name ++ " must not be empty"))
    else if (encodeUtf8 s).isNone then .error (.bare .unicodeEncodeError)
    else if maxIdentityComponentBytes < utf8Length s then
      .error (.saying .valueError (name ++ " must be at most 128 UTF-8 bytes"))
    else .error (.saying .valueError (name ++ " must not contain control characters"))
  | _ => .error (.saying .valueError (name ++ " must be a string"))

def validateBlockHash : PyVal → Except PyError Sha256Hex
  | .str s =>
    if ok : isSha256Hex s = true then .ok ⟨s, ok⟩
    else .error (.saying .valueError "block_hash must be 64 lowercase hexadecimal characters")
  | _ => .error (.saying .valueError "block_hash must be 64 lowercase hexadecimal characters")

/-- `BlockKey.__post_init__` -/
def BlockKey.new (tenantId modelId modelRevision tokenizerRevision blockHash loraId modalityKey :
    PyVal) : Except PyError BlockKey := do
  let tenantId ← validateIdentityComponent "tenant_id" false tenantId
  let modelId ← validateIdentityComponent "model_id" false modelId
  let modelRevision ← validateIdentityComponent "model_revision" false modelRevision
  let tokenizerRevision ← validateIdentityComponent "tokenizer_revision" false tokenizerRevision
  let loraId ← validateIdentityComponent "lora_id" true loraId
  let modalityKey ← validateIdentityComponent "modality_key" true modalityKey
  let blockHash ← validateBlockHash blockHash
  return { tenantId, modelId, modelRevision, tokenizerRevision, blockHash, loraId, modalityKey }

namespace BlockKey

/-- `BlockKey.namespace` -/
def namespaceId (key : BlockKey) : Text :=
  ch '[' :: (PyVal.commaSeparated []
    ([text "kv-block-key-v1", key.tenantId.val, key.modelId.val, key.modelRevision.val,
      key.tokenizerRevision.val, key.loraId.val, key.modalityKey.val].map (quoted escapeRaw)) ++
    [ch ']'])

end BlockKey

def sampleKey : BlockKey where
  tenantId := ⟨text "tenant", by decide⟩
  modelId := ⟨text "model", by decide⟩
  modelRevision := ⟨text "r1", by decide⟩
  tokenizerRevision := ⟨text "t1", by decide⟩
  blockHash := ⟨List.replicate 64 (ch '0'), by decide⟩
  loraId := ⟨[], by decide⟩
  modalityKey := ⟨[], by decide⟩

/-! ## Metadata -/

structure KVMetadata where
  key : BlockKey
  dtype : PyVal
  numLayers : PyVal
  numKvHeads : PyVal
  headDim : PyVal
  tokens : PyVal
  bytes : PyVal
  shape : PyVal
  checksum : PyVal
  checksumAlgo : PyVal
  createdAt : PyVal
  lastAccess : PyVal
  reuseCount : PyVal
  extra : PyVal

def sampleMetadata : KVMetadata where
  key := sampleKey
  dtype := .str (text "fp16")
  numLayers := .int 1
  numKvHeads := .int 1
  headDim := .int 1
  tokens := .int 1
  bytes := .int 3
  shape := .tuple [.int 1]
  checksum := .str (List.replicate 64 (ch 'a'))
  checksumAlgo := .str (text "sha256")
  createdAt := .int 0
  lastAccess := .int 0
  reuseCount := .int 0
  extra := .dict []

def checkDtype : PyVal → Except PyError Unit
  | .str s =>
    if s.isEmpty then .error (.saying .valueError "metadata dtype must be a bounded non-empty string")
    else if (encodeUtf8 s).isNone then .error (.bare .unicodeEncodeError)
    else if 64 < utf8Length s || hasControl s then
      .error (.saying .valueError "metadata dtype must be a bounded non-empty string")
    else .ok ()
  | _ => .error (.saying .valueError "metadata dtype must be a bounded non-empty string")

/-- An integer that is no `bool`, from `least` on. -/
def checkInteger (least : Int) (message : String) : PyVal → Except PyError Unit
  | .int n => if n < least then .error (.saying .valueError message) else .ok ()
  | _ => .error (.saying .valueError message)

def checkPositive (name : String) : PyVal → Except PyError Unit :=
  checkInteger 1 ("metadata " ++ name ++ " must be a positive integer")

def checkNonNegative (name : String) : PyVal → Except PyError Unit :=
  checkInteger 0 ("metadata " ++ name ++ " must be a non-negative integer")

def isNonNegativeInt : PyVal → Bool
  | .int n => 0 ≤ n
  | _ => false

def checkShape : PyVal → Except PyError Unit
  | .tuple items =>
    if items.all isNonNegativeInt then .ok ()
    else .error (.saying .valueError "metadata shape must contain non-negative integers")
  | _ => .error (.saying .valueError "metadata shape must contain non-negative integers")

def checkChecksumAlgo (v : PyVal) : Except PyError Unit :=
  if v.pyEq (.str (text "sha256")) then .ok ()
  else .error (.saying .valueError "metadata checksum_algo must be sha256")

def checkChecksum (requireChecksum : Bool) (v : PyVal) : Except PyError Unit :=
  if requireChecksum || v.truthy then
    match v with
    | .str s =>
      if isSha256Hex s then .ok ()
      else .error (.saying .valueError "metadata checksum must be lowercase SHA-256 hex")
    | _ => .error (.saying .valueError "metadata checksum must be lowercase SHA-256 hex")
  else .ok ()

/-- `math.isfinite` converts an integer first, and fails on one beyond the floats. -/
def checkTimestamp (name : String) : PyVal → Except PyError Unit
  | .int n =>
    if (Float64.ofInt n).isNone then .error (.bare .overflowError)
    else if n < 0 then
      .error (.saying .valueError ("metadata " ++ name ++ " must be a finite timestamp"))
    else .ok ()
  | .float x =>
    if !x.isFinite || x.isNegative then
      .error (.saying .valueError ("metadata " ++ name ++ " must be a finite timestamp"))
    else .ok ()
  | _ => .error (.saying .valueError ("metadata " ++ name ++ " must be a finite timestamp"))

def checkExtra : PyVal → Except PyError Unit
  | .dict items =>
    if (PyVal.dict items).encodable false then .ok ()
    else .error (.saying .valueError "metadata extra must be finite JSON data")
  | _ => .error (.saying .valueError "metadata extra must be an object")

namespace KVMetadata

def validate (m : KVMetadata) (requireChecksum : Bool) : Except PyError Unit := do
  checkDtype m.dtype
  checkPositive "num_layers" m.numLayers
  checkPositive "num_kv_heads" m.numKvHeads
  checkPositive "head_dim" m.headDim
  checkNonNegative "tokens" m.tokens
  checkNonNegative "bytes" m.bytes
  checkNonNegative "reuse_count" m.reuseCount
  checkShape m.shape
  checkChecksumAlgo m.checksumAlgo
  checkChecksum requireChecksum m.checksum
  checkTimestamp "created_at" m.createdAt
  checkTimestamp "last_access" m.lastAccess
  checkExtra m.extra

end KVMetadata

/-- The fields that must remain stable for an active key. -/
structure PayloadDescriptor where
  key : BlockKey
  values : List PyVal

def PayloadDescriptor.canon (d : PayloadDescriptor) : BlockKey × List Canon :=
  (d.key, d.values.map PyVal.canon)

def PayloadDescriptor.pyEq (d e : PayloadDescriptor) : Bool := d.canon = e.canon

def KVMetadata.payloadDescriptor (m : KVMetadata) : PayloadDescriptor where
  key := m.key
  values := [m.dtype, m.numLayers, m.numKvHeads, m.headDim, m.tokens, m.bytes, m.shape, m.checksum,
    m.checksumAlgo, m.extra]

/-! ## Dictionaries -/

def strKey (s : String) : PyKey := .str (text s)

def getField (name : String) (items : List (PyKey × PyVal)) : Option PyVal :=
  dictGet (strKey name).code items

def BlockKey.fields (key : BlockKey) : List (PyKey × PyVal) :=
  [(strKey "tenant_id", .str key.tenantId.val), (strKey "model_id", .str key.modelId.val),
    (strKey "model_revision", .str key.modelRevision.val),
    (strKey "tokenizer_revision", .str key.tokenizerRevision.val),
    (strKey "block_hash", .str key.blockHash.val), (strKey "lora_id", .str key.loraId.val),
    (strKey "modality_key", .str key.modalityKey.val)]

def shapeList : PyVal → PyVal
  | .tuple items => .list items
  | v => v

def KVMetadata.fields (m : KVMetadata) : List (PyKey × PyVal) :=
  [(strKey "key", .dict m.key.fields), (strKey "dtype", m.dtype),
    (strKey "num_layers", m.numLayers),
    (strKey "num_kv_heads", m.numKvHeads), (strKey "head_dim", m.headDim),
    (strKey "tokens", m.tokens), (strKey "bytes", m.bytes), (strKey "shape", shapeList m.shape),
    (strKey "checksum", m.checksum), (strKey "checksum_algo", m.checksumAlgo),
    (strKey "created_at", m.createdAt), (strKey "last_access", m.lastAccess),
    (strKey "reuse_count", m.reuseCount), (strKey "extra", m.extra)]

/-- `to_dict`; every caller has validated the metadata. -/
def KVMetadata.toDict (m : KVMetadata) : PyVal := .dict m.fields

/-- A call with `**items`: every name must be a parameter, every required one given. -/
def checkKeywords (required optional : List String) (items : List (PyKey × PyVal)) :
    Except PyError Unit :=
  if (items.all fun item => (required ++ optional).any fun name => item.1 = strKey name) &&
      required.all fun name => (getField name items).isSome
  then .ok ()
  else .error (.bare .typeError)

def BlockKey.required : List String :=
  ["tenant_id", "model_id", "model_revision", "tokenizer_revision", "block_hash"]

def BlockKey.ofDict : PyVal → Except PyError BlockKey
  | .dict items => do
    checkKeywords BlockKey.required ["lora_id", "modality_key"] items
    BlockKey.new ((getField "tenant_id" items).getD .none) ((getField "model_id" items).getD .none)
      ((getField "model_revision" items).getD .none)
      ((getField "tokenizer_revision" items).getD .none)
      ((getField "block_hash" items).getD .none) ((getField "lora_id" items).getD (.str []))
      ((getField "modality_key" items).getD (.str []))
  | _ => .error (.bare .typeError)

/-- `tuple(v)`; a dictionary gives its keys, here in sorted order. -/
def toTuple : PyVal → Except PyError PyVal
  | .list items | .tuple items => .ok (.tuple items)
  | .str s => .ok (.tuple (s.map fun c => .str [c]))
  | .dict items => .ok (.tuple ((dictItems items).map fun item => .str item.1.name))
  | _ => .error (.bare .typeError)

/-- `tuple(data.get("shape") or ())` -/
def shapeTuple : Option PyVal → Except PyError PyVal
  | none => .ok (.tuple [])
  | some v => if v.truthy then toTuple v else .ok (.tuple [])

/-- Two readings of `time.time()`, for `created_at` and `last_access`. -/
structure Readings where
  created : Float64
  accessed : Float64

namespace KVMetadata

def required : List String :=
  ["key", "dtype", "num_layers", "num_kv_heads", "head_dim", "tokens", "bytes"]

def optional : List String :=
  ["shape", "checksum", "checksum_algo", "created_at", "last_access", "reuse_count", "extra"]

/-- `from_dict`; missing timestamps are read from the clock. -/
def fromDict (now : Readings) : PyVal → Except PyError KVMetadata
  | .dict items =>
    match getField "key" items with
    | none => .error (.bare .keyError)
    | some keyData => do
      let key ← BlockKey.ofDict keyData
      let shape ← shapeTuple (getField "shape" items)
      checkKeywords required optional items
      let field (name : String) (default : PyVal) := (getField name items).getD default
      return {
        key, shape
        dtype := field "dtype" .none
        numLayers := field "num_layers" .none
        numKvHeads := field "num_kv_heads" .none
        headDim := field "head_dim" .none
        tokens := field "tokens" .none
        bytes := field "bytes" .none
        checksum := field "checksum" (.str [])
        checksumAlgo := field "checksum_algo" (.str (text "sha256"))
        createdAt := field "created_at" (.float now.created)
        lastAccess := field "last_access" (.float now.accessed)
        reuseCount := field "reuse_count" (.int 0)
        extra := field "extra" (.dict []) }
  | _ => .error (.bare .typeError)

end KVMetadata

end AiStorage.KV
