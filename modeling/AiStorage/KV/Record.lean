import AiStorage.KV.StoreChange

/-!
# Record headers

`record.py`: a record is the magic, the length of its header, the header as JSON, and
the payload. `decode_record_header` reads a header that may have been damaged. Which of
its exceptions are no `RecordFormatError` is stated exactly.
-/
namespace AiStorage.KV
open Lib

def magic : Bytes := [75, 86, 66, 76, 75, 48, 48, 49]

def recordVersion : Int := 1

def maxHeaderBytes : Nat := 65536

abbrev Header := List (PyKey × PyVal)

def headerField (name : String) (header : Header) : PyVal := (getField name header).getD .none

/-- `MAGIC + HEADER_LEN_STRUCT.pack(len(encoded_header)) + encoded_header + data` -/
def encodeRecord (encodedHeader payload : Bytes) : Bytes :=
  magic ++ beBytes 4 encodedHeader.length ++ encodedHeader ++ payload

def encodeRecordHeader (header : Header) : Except PyError Bytes :=
  match (PyVal.dict header).dumps .compact with
  | none => .error (.bare .typeError)
  | some json =>
    match encodeUtf8 json with
    | none => .error (.bare .unicodeEncodeError)
    | some encoded =>
      if encoded.isEmpty || maxHeaderBytes < encoded.length then
        .error (.saying .valueError "record header exceeds the 65536-byte protocol limit")
      else .ok encoded

/-! ## Decoding -/

def formatError (source : Text) (detail : String) : PyError :=
  ⟨.recordFormatError, source ++ text (": " ++ detail)⟩

/-- `json.loads(raw_header.decode("utf-8"))`, which must give an object. -/
def decodeObject (source : Text) (raw : Bytes) : Except PyError Header :=
  match (decodeUtf8 raw).bind loads with
  | some (.dict header) => .ok header
  | some _ => .error (formatError source "record header must be an object")
  | none => .error (formatError source "invalid record header JSON")

/-- `not isinstance(version, bool) and version == RECORD_VERSION` -/
def versionOk : PyVal → Bool
  | .bool _ => false
  | v => v.pyEq (.int recordVersion)

def payloadBytesOk (maxPayloadBytes : Int) : PyVal → Bool
  | .int n => 0 ≤ n && n ≤ maxPayloadBytes
  | _ => false

def checksumOk : PyVal → Bool
  | .str s => isSha256Hex s
  | _ => false

def isLayoutMode (s : Text) : Bool := s = text "content_addressed" || s = text "segment"

/-- The membership test hashes the value first, which a list or a dictionary does not
allow. -/
def checkLayoutMode (source : Text) : PyVal → Except PyError Unit
  | .str s => require (isLayoutMode s) (formatError source "invalid layout_mode")
  | .list _ | .dict _ => .error (.bare .typeError)
  | _ => .error (formatError source "invalid layout_mode")

def checkLayout (requireLayoutMode : Bool) (source : Text) (v : PyVal) : Except PyError Unit :=
  if requireLayoutMode then checkLayoutMode source v else .ok ()

def checkedMetadata (now : Readings) (v : PyVal) : Except PyError KVMetadata := do
  let m ← KVMetadata.fromDict now v
  m.validate true
  return m

def headerMetadata (now : Readings) (source : Text) : PyVal → Except PyError KVMetadata
  | .dict items =>
    match checkedMetadata now (.dict items) with
    | .ok m => .ok m
    | .error e =>
      if e.cls.isDataError then .error (formatError source "invalid metadata") else .error e
  | _ => .error (formatError source "metadata must be an object")

def decodePreamble (raw : Bytes) (source : Text) (maxPayloadBytes : Int) :
    Except PyError Header := do
  require (!raw.isEmpty && raw.length ≤ maxHeaderBytes)
    (formatError source "invalid record header length")
  let header ← decodeObject source raw
  require (versionOk (headerField "version" header))
    (formatError source "unsupported record version")
  require (payloadBytesOk maxPayloadBytes (headerField "payload_bytes" header))
    (formatError source "invalid payload_bytes")
  require (checksumOk (headerField "checksum" header)) (formatError source "invalid checksum")
  return header

def decodeRecordHeader (now : Readings) (raw : Bytes) (source : Text) (maxPayloadBytes : Int)
    (requireLayoutMode : Bool) : Except PyError Header := do
  let header ← decodePreamble raw source maxPayloadBytes
  checkLayout requireLayoutMode source (headerField "layout_mode" header)
  let m ← headerMetadata now source (headerField "metadata" header)
  require (m.bytes.pyEq (headerField "payload_bytes" header) &&
      m.checksum.pyEq (headerField "checksum" header))
    (formatError source "metadata bytes/checksum do not match record header")
  return header

/-! ## Errors of the checks -/

/-- Every error of the computation is of such a class. -/
def Raises (admits : ErrorClass → Prop) {α : Type} (x : Except PyError α) : Prop :=
  ∀ e, x = .error e → admits e.cls

section Raises

variable {admits : ErrorClass → Prop} {α β : Type}

theorem Raises.ok (a : α) : Raises admits (.ok a : Except PyError α) := fun _ wrong => by
  cases wrong

theorem Raises.error {e : PyError} (cls : admits e.cls) :
    Raises admits (.error e : Except PyError α) := by
  intro other same
  cases same
  exact cls

theorem Raises.bind {x : Except PyError α} {f : α → Except PyError β} (first : Raises admits x)
    (next : ∀ a, x = .ok a → Raises admits (f a)) : Raises admits (x >>= f) := by
  cases x with
  | error e => exact .error (first e rfl)
  | ok a => exact next a rfl

theorem Raises.require {condition : Bool} {e : PyError} (cls : admits e.cls) :
    Raises admits (require condition e) := by
  unfold Lib.require
  split
  · exact .ok ()
  · exact .error cls

end Raises

/-- The exceptions that the guarded part turns into a `RecordFormatError`. -/
abbrev DataError (cls : ErrorClass) : Prop := cls.isDataError = true

theorem raises_validateIdentityComponent (name : String) (allowEmpty : Bool) (v : PyVal) :
    Raises DataError (validateIdentityComponent name allowEmpty v) := by
  unfold validateIdentityComponent
  split
  · split_ifs
    · exact .ok _
    all_goals exact .error rfl
  · exact .error rfl

theorem raises_validateBlockHash (v : PyVal) : Raises DataError (validateBlockHash v) := by
  unfold validateBlockHash
  split
  · split_ifs
    · exact .ok _
    · exact .error rfl
  · exact .error rfl

theorem raises_checkKeywords (required optional : List String) (items : Header) :
    Raises DataError (checkKeywords required optional items) := by
  unfold checkKeywords
  split
  · exact .ok _
  · exact .error rfl

theorem raises_ofDict (v : PyVal) : Raises DataError (BlockKey.ofDict v) := by
  unfold BlockKey.ofDict
  split
  · refine .bind (raises_checkKeywords _ _ _) fun _ _ => ?_
    exact .bind (raises_validateIdentityComponent _ _ _) fun _ _ =>
      .bind (raises_validateIdentityComponent _ _ _) fun _ _ =>
      .bind (raises_validateIdentityComponent _ _ _) fun _ _ =>
      .bind (raises_validateIdentityComponent _ _ _) fun _ _ =>
      .bind (raises_validateIdentityComponent _ _ _) fun _ _ =>
      .bind (raises_validateIdentityComponent _ _ _) fun _ _ =>
      .bind (raises_validateBlockHash _) fun _ _ => .ok _
  · exact .error rfl

theorem raises_toTuple (v : PyVal) : Raises DataError (toTuple v) := by
  unfold toTuple
  split
  case h_5 => exact .error rfl
  all_goals exact .ok _

theorem raises_shapeTuple (v : Option PyVal) : Raises DataError (shapeTuple v) := by
  unfold shapeTuple
  split
  · exact .ok _
  · split
    · exact raises_toTuple _
    · exact .ok _

theorem raises_fromDict (now : Readings) (v : PyVal) :
    Raises DataError (KVMetadata.fromDict now v) := by
  unfold KVMetadata.fromDict
  split
  · split
    · exact .error rfl
    · exact .bind (raises_ofDict _) fun _ _ => .bind (raises_shapeTuple _) fun _ _ =>
        .bind (raises_checkKeywords _ _ _) fun _ _ => .ok _
  · exact .error rfl

theorem raises_checkDtype (v : PyVal) : Raises DataError (checkDtype v) := by
  unfold checkDtype
  split
  · split_ifs
    case neg => exact .ok _
    all_goals exact .error rfl
  · exact .error rfl

theorem raises_checkInteger (least : Int) (message : String) (v : PyVal) :
    Raises DataError (checkInteger least message v) := by
  unfold checkInteger
  split
  · split
    · exact .error rfl
    · exact .ok _
  · exact .error rfl

theorem raises_checkShape (v : PyVal) : Raises DataError (checkShape v) := by
  unfold checkShape
  split
  · split
    · exact .ok _
    · exact .error rfl
  · exact .error rfl

theorem raises_checkChecksumAlgo (v : PyVal) : Raises DataError (checkChecksumAlgo v) := by
  unfold checkChecksumAlgo
  split
  · exact .ok _
  · exact .error rfl

theorem raises_checkChecksum (required : Bool) (v : PyVal) :
    Raises DataError (checkChecksum required v) := by
  unfold checkChecksum
  split
  · split
    · split
      · exact .ok _
      · exact .error rfl
    · exact .error rfl
  · exact .ok _

theorem raises_checkExtra (v : PyVal) : Raises DataError (checkExtra v) := by
  unfold checkExtra
  split
  · split
    · exact .ok _
    · exact .error rfl
  · exact .error rfl

def beyondFloats : PyVal → Bool
  | .int n => (Float64.ofInt n).isNone
  | _ => false

theorem checkTimestamp_error {name : String} {v : PyVal} {e : PyError}
    (failed : checkTimestamp name v = .error e) :
    DataError e.cls ∨ (e = .bare .overflowError ∧ beyondFloats v = true) := by
  cases v with
  | int n =>
    simp only [checkTimestamp] at failed
    split_ifs at failed with beyond negative
    · exact .inr ⟨(Except.error.inj failed).symm, beyond⟩
    · exact .inl (by rw [← Except.error.inj failed]; rfl)
  | float x =>
    simp only [checkTimestamp] at failed
    split_ifs at failed
    exact .inl (by rw [← Except.error.inj failed]; rfl)
  | none | bool _ | str _ | list _ | tuple _ | dict _ | object _ =>
    exact .inl (by rw [← Except.error.inj failed]; rfl)

theorem checkTimestamp_beyond {name : String} {v : PyVal} (beyond : beyondFloats v = true) :
    checkTimestamp name v = .error (.bare .overflowError) := by
  cases v with
  | int n =>
    have none : (Float64.ofInt n).isNone = true := beyond
    rw [checkTimestamp, if_pos none]
  | none | bool _ | str _ | float _ | list _ | tuple _ | dict _ | object _ =>
    exact absurd beyond Bool.false_ne_true

namespace KVMetadata

def checkDescription (m : KVMetadata) : Except PyError Unit := do
  checkDtype m.dtype
  checkPositive "num_layers" m.numLayers
  checkPositive "num_kv_heads" m.numKvHeads
  checkPositive "head_dim" m.headDim
  checkNonNegative "tokens" m.tokens
  checkNonNegative "bytes" m.bytes
  checkNonNegative "reuse_count" m.reuseCount
  checkShape m.shape
  checkChecksumAlgo m.checksumAlgo
  checkChecksum true m.checksum

theorem raises_checkDescription (m : KVMetadata) : Raises DataError m.checkDescription :=
  .bind (raises_checkDtype _) fun _ _ => .bind (raises_checkInteger _ _ _) fun _ _ =>
  .bind (raises_checkInteger _ _ _) fun _ _ => .bind (raises_checkInteger _ _ _) fun _ _ =>
  .bind (raises_checkInteger _ _ _) fun _ _ => .bind (raises_checkInteger _ _ _) fun _ _ =>
  .bind (raises_checkInteger _ _ _) fun _ _ => .bind (raises_checkShape _) fun _ _ =>
  .bind (raises_checkChecksumAlgo _) fun _ _ => raises_checkChecksum _ _

theorem validate_eq (m : KVMetadata) :
    m.validate true = (do
      m.checkDescription
      checkTimestamp "created_at" m.createdAt
      checkTimestamp "last_access" m.lastAccess
      checkExtra m.extra) := by
  simp only [validate, checkDescription, bind_assoc]

/-- The first check that fails is the conversion of a timestamp to a float. -/
def Overflows (m : KVMetadata) : Prop :=
  m.checkDescription = .ok () ∧ (beyondFloats m.createdAt = true ∨
    checkTimestamp "created_at" m.createdAt = .ok () ∧ beyondFloats m.lastAccess = true)

theorem validate_overflow {m : KVMetadata} (overflows : m.Overflows) :
    m.validate true = .error (.bare .overflowError) := by
  obtain ⟨described, created | ⟨created, accessed⟩⟩ := overflows
  · rw [validate_eq, described, checkTimestamp_beyond created]
    rfl
  · rw [validate_eq, described, created, checkTimestamp_beyond accessed]
    rfl

theorem validate_error {m : KVMetadata} {e : PyError} (failed : m.validate true = .error e) :
    DataError e.cls ∨ m.Overflows := by
  rw [validate_eq] at failed
  cases described : m.checkDescription with
  | error e' =>
    rw [described] at failed
    rw [← Except.error.inj failed]
    exact .inl (m.raises_checkDescription e' described)
  | ok =>
    rw [described] at failed
    cases created : checkTimestamp "created_at" m.createdAt with
    | error e' =>
      rw [created] at failed
      rw [← Except.error.inj failed]
      exact (checkTimestamp_error created).imp id fun beyond => ⟨described, .inl beyond.2⟩
    | ok =>
      rw [created] at failed
      cases accessed : checkTimestamp "last_access" m.lastAccess with
      | error e' =>
        rw [accessed] at failed
        rw [← Except.error.inj failed]
        exact (checkTimestamp_error accessed).imp id fun beyond =>
          ⟨described, .inr ⟨created, beyond.2⟩⟩
      | ok =>
        rw [accessed] at failed
        exact .inl (raises_checkExtra _ e failed)

end KVMetadata

/-! ## What decoding a header can do -/

structure HeaderAccepted (now : Readings) (maxPayloadBytes : Int) (requireLayoutMode : Bool)
    (header : Header) : Prop where
  version : versionOk (headerField "version" header) = true
  layout : requireLayoutMode = true →
    ∃ s, headerField "layout_mode" header = .str s ∧ isLayoutMode s = true
  metadata : ∃ items m n s, headerField "metadata" header = .dict items ∧
    KVMetadata.fromDict now (.dict items) = .ok m ∧ m.Valid ∧
    headerField "payload_bytes" header = .int n ∧ 0 ≤ n ∧ n ≤ maxPayloadBytes ∧
    m.bytes = .int n ∧
    headerField "checksum" header = .str s ∧ isSha256Hex s = true ∧ m.checksum = .str s

structure Preamble (raw : Bytes) (maxPayloadBytes : Int) (header : Header) : Prop where
  fits : raw ≠ [] ∧ raw.length ≤ maxHeaderBytes
  decoded : (decodeUtf8 raw).bind loads = some (.dict header)
  version : versionOk (headerField "version" header) = true
  payloadBytes : payloadBytesOk maxPayloadBytes (headerField "payload_bytes" header) = true
  checksum : checksumOk (headerField "checksum" header) = true

section Decode

variable {now : Readings} {raw : Bytes} {source : Text} {maxPayloadBytes : Int}
  {requireLayoutMode : Bool}

variable {header : Header} {v : PyVal}

theorem decodeObject_ok :
    decodeObject source raw = .ok header ↔ (decodeUtf8 raw).bind loads = some (.dict header) := by
  unfold decodeObject
  split
  · next found => simp [found]
  · next other found => simp [found]; exact fun same => other header same
  · next found => simp [found]

theorem checkLayout_ok : checkLayout requireLayoutMode source v = .ok () ↔
    (requireLayoutMode = true → ∃ s, v = .str s ∧ isLayoutMode s = true) := by
  unfold checkLayout
  cases requireLayoutMode with
  | false => simp
  | true => cases v <;> simp [checkLayoutMode, require_ok]

theorem checkedMetadata_ok {m : KVMetadata} :
    checkedMetadata now v = .ok m ↔ KVMetadata.fromDict now v = .ok m ∧ m.Valid := by
  simp only [checkedMetadata, bind_eq_ok, exists_unit,
    KVMetadata.validate_eq_ok]
  constructor
  · rintro ⟨built, parsed, valid, same⟩
    obtain rfl := Except.ok.inj same
    exact ⟨parsed, valid⟩
  · rintro ⟨parsed, valid⟩
    exact ⟨m, parsed, valid, rfl⟩

theorem headerMetadata_ok {m : KVMetadata} : headerMetadata now source v = .ok m ↔
    ∃ items, v = .dict items ∧ KVMetadata.fromDict now (.dict items) = .ok m ∧ m.Valid := by
  cases v with
  | dict items =>
    simp only [headerMetadata, PyVal.dict.injEq, exists_eq_left', ← checkedMetadata_ok]
    cases checkedMetadata now (.dict items) with
    | ok m' => simp
    | error e => simp only; split <;> simp
  | none | bool _ | int _ | float _ | str _ | list _ | tuple _ | object _ => simp [headerMetadata]

theorem decodePreamble_ok :
    decodePreamble raw source maxPayloadBytes = .ok header ↔
      Preamble raw maxPayloadBytes header := by
  simp only [decodePreamble, bind_eq_ok, exists_unit,
    require_ok, decodeObject_ok]
  constructor
  · rintro ⟨fits, read, decoded, version, payload, checksum, same⟩
    obtain rfl := Except.ok.inj same
    exact ⟨by simpa using fits, decoded, version, payload, checksum⟩
  · rintro ⟨fits, decoded, version, payload, checksum⟩
    exact ⟨by simpa using fits, header, decoded, version, payload, checksum, rfl⟩

theorem payloadBytesOk_iff :
    payloadBytesOk maxPayloadBytes v = true ↔ ∃ n, v = .int n ∧ 0 ≤ n ∧ n ≤ maxPayloadBytes := by
  cases v <;> simp [payloadBytesOk]

theorem checksumOk_iff : checksumOk v = true ↔ ∃ s, v = .str s ∧ isSha256Hex s = true := by
  cases v <;> simp [checksumOk]

theorem decodeRecordHeader_ok
    (accepted : decodeRecordHeader now raw source maxPayloadBytes requireLayoutMode = .ok header) :
    HeaderAccepted now maxPayloadBytes requireLayoutMode header := by
  simp only [decodeRecordHeader, bind_eq_ok, exists_unit,
    require_ok, decodePreamble_ok, checkLayout_ok, headerMetadata_ok,
    Bool.and_eq_true] at accepted
  obtain ⟨read, reached, layout, m, ⟨items, object, built, valid⟩, ⟨bytes, checksum⟩, same⟩ := accepted
  obtain rfl := Except.ok.inj same
  obtain ⟨n, payload, least, most⟩ := payloadBytesOk_iff.mp reached.payloadBytes
  obtain ⟨s, digest, hex⟩ := checksumOk_iff.mp reached.checksum
  obtain ⟨k, shape, -⟩ := checkInteger_ok valid.bytes
  rw [payload] at bytes
  rw [digest] at checksum
  exact ⟨reached.version, layout, items, m, n, s, object, built, valid, payload, least, most,
    MetadataStore.eq_int_of_pyEq (PyVal.pyEq_symm bytes) shape, digest, hex, eq_str_of_pyEq checksum⟩

end Decode

end AiStorage.KV
