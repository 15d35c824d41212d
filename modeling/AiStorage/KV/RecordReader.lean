import AiStorage.KV.LocationUri

/-!
# Reading records

The readers of `nvme_tier.py` and `s3_tier.py`: the magic, the length of the header, the header
and as many bytes as it announces. The file reader takes what it asks for; a response body may
hand out fewer bytes at a time, or fail.
-/
namespace AiStorage.KV
open Lib

/-- `int(header["payload_bytes"])` of a decoded header. -/
def payloadSize (header : Header) : Nat :=
  match headerField "payload_bytes" header with
  | .int n => n.toNat
  | _ => 0

def checksumError (source : Text) (detail : String) : PyError :=
  ⟨.checksumMismatch, source ++ text (": " ++ detail)⟩

/-! ## Files -/

/-- `_read_record` at the front of the bytes; the last component is what was not read. -/
def readRecord (now : Readings) (source : Text) (maxBytes : Int) (bytes : Bytes) :
    Except PyError (Header × Bytes × Bytes) := do
  require (bytes.take magic.length = magic) ⟨.checksumMismatch, source⟩
  let bytes := bytes.drop magic.length
  let rawLength := bytes.take 4
  require (rawLength.length = 4) (formatError source "truncated header length")
  let headerLength := beNat rawLength
  require (0 < headerLength && headerLength ≤ maxHeaderBytes)
    (formatError source "invalid record header length")
  let bytes := bytes.drop 4
  let rawHeader := bytes.take headerLength
  require (rawHeader.length = headerLength) (formatError source "truncated record header")
  let header ← decodeRecordHeader now rawHeader source maxBytes true
  let bytes := bytes.drop headerLength
  let payload := bytes.take (payloadSize header)
  require (payload.length = payloadSize header) (checksumError source "truncated payload")
  return (header, payload, bytes.drop (payloadSize header))

namespace NVMeTier

variable (tier : NVMeTier)

/-- `_read_file` of a file with these bytes. -/
def readFile (now : Readings) (path : Path) (bytes : Bytes) : Except PyError (Header × Bytes) := do
  let (header, payload, rest) ← readRecord now path.str tier.maxBytes bytes
  require rest.isEmpty (formatError path.str "trailing bytes after payload")
  return (header, payload)

/-- `_read_segment_record` of a file with these bytes. -/
def readSegmentRecord (now : Readings) (ref : SegmentRef) (bytes : Bytes) :
    Except PyError (Header × Bytes) := do
  let bytes := bytes.drop ref.offset.toNat
  let (header, payload, rest) ← readRecord now ref.path.str tier.maxBytes bytes
  require (ref.recordBytes ≤ 0 || (bytes.length : Int) - rest.length = ref.recordBytes)
    ⟨.checksumMismatch, ref.path.str⟩
  return (header, payload)

end NVMeTier

/-! ## Response bodies -/

/-- How a body answers one `read(size)`: with at most so many of the bytes it has left, or
badly. A body may hand out nothing although bytes are left. -/
inductive Reply where
  | chunk (most : Nat)
  | fails
  | notBytes
  | tooMany
  deriving DecidableEq

structure Body where
  data : Bytes
  replies : Nat → Reply
  turn : Nat
  closeFails : Bool

def unavailable (message : String) : PyError := .saying .tierUnavailable message

def readChunk (size : Nat) (body : Body) : Except PyError (Bytes × Body) :=
  match body.replies body.turn with
  | .chunk most =>
    .ok (body.data.take (min size most),
      { body with data := body.data.drop (min size most), turn := body.turn + 1 })
  | .fails => .error (unavailable "s3 response body read failed")
  | .notBytes => .error (unavailable "s3 response body read returned non-bytes data")
  | .tooMany => .error (unavailable "s3 response body ignored bounded read size")

/-- The loop of `_read_exact`, at most `fuel` rounds; every round reads a byte or ends. -/
def readRounds (truncated : PyError) : Nat → Nat → Body → Except PyError (Bytes × Body)
  | _, 0, body => .ok ([], body)
  | 0, _ + 1, _ => .error truncated
  | fuel + 1, remaining + 1, body => do
    let (chunk, body) ← readChunk (remaining + 1) body
    require (!chunk.isEmpty) truncated
    let (chunks, body) ← readRounds truncated fuel (remaining + 1 - chunk.length) body
    return (chunk ++ chunks, body)

def readExact (size : Nat) (truncated : PyError) (body : Body) : Except PyError (Bytes × Body) :=
  readRounds truncated size size body

def readBodyRecord (now : Readings) (source : Text) (maxPayloadBytes : Int) (body : Body) :
    Except PyError (Header × Bytes) := do
  let (front, body) ←
    readExact (magic.length + 4) (checksumError source "truncated record prefix") body
  require (front.take magic.length = magic) ⟨.checksumMismatch, source⟩
  let headerLength := beNat (front.drop magic.length)
  require (0 < headerLength && headerLength ≤ maxHeaderBytes)
    (formatError source "invalid record header length")
  let (rawHeader, body) ← readExact headerLength (formatError source "truncated record header") body
  let header ← decodeRecordHeader now rawHeader source maxPayloadBytes false
  let (payload, body) ←
    readExact (payloadSize header) (checksumError source "payload length mismatch") body
  let (extra, _) ← readChunk 1 body
  require extra.isEmpty (checksumError source "trailing record data")
  return (header, payload)

/-- `_read_body`; the body is closed whatever was read. -/
def readBody (now : Readings) (source : Text) (maxPayloadBytes : Int) (body : Body) :
    Except PyError (Header × Bytes) :=
  match readBodyRecord now source maxPayloadBytes body with
  | .error e => .error e
  | .ok result =>
    if body.closeFails then .error (unavailable "s3 response body close failed") else .ok result

/-! ## What the readers accept -/

def IsRecord (decode : Bytes → Except PyError Header) (bytes : Bytes) (header : Header)
    (payload rest : Bytes) : Prop :=
  ∃ rawHeader, bytes = encodeRecord rawHeader payload ++ rest ∧ 0 < rawHeader.length ∧
    rawHeader.length ≤ maxHeaderBytes ∧ decode rawHeader = .ok header ∧
    payload.length = payloadSize header

variable {now : Readings} {source : Text} {maxPayloadBytes : Int} {bytes rest : Bytes}
  {header : Header} {size : Nat} {body left : Body} {truncated : PyError}

theorem IsRecord.accepted {requireLayoutMode : Bool} {payload : Bytes}
    (record : IsRecord (decodeRecordHeader now · source maxPayloadBytes requireLayoutMode) bytes
      header payload rest) : HeaderAccepted now maxPayloadBytes requireLayoutMode header := by
  obtain ⟨raw, -, -, -, decoded, -⟩ := record
  exact decodeRecordHeader_ok decoded

theorem encodeRecord_append (raw payload rest : Bytes) :
    encodeRecord raw payload ++ rest =
      magic ++ (beBytes 4 raw.length ++ (raw ++ (payload ++ rest))) := by
  simp only [encodeRecord, List.append_assoc]

theorem beNat_headerLength {raw : Bytes} (fits : raw.length ≤ maxHeaderBytes) :
    beNat (beBytes 4 raw.length) = raw.length := by
  have small : maxHeaderBytes < 256 ^ 4 := by decide
  exact beNat_beBytes (Nat.lt_of_le_of_lt fits small)

theorem isRecord_of_pieces {decode : Bytes → Except PyError Header} {header : Header}
    {lengthBytes raw payload rest : Bytes} (width : lengthBytes.length = 4)
    (bounds : 0 < beNat lengthBytes ∧ beNat lengthBytes ≤ maxHeaderBytes)
    (complete : raw.length = beNat lengthBytes) (decoded : decode raw = .ok header)
    (size : payload.length = payloadSize header) :
    IsRecord decode (magic ++ (lengthBytes ++ (raw ++ (payload ++ rest)))) header payload rest := by
  refine ⟨raw, ?_, ?_, ?_, decoded, size⟩
  · rw [encodeRecord_append, complete, beBytes_beNat width]
  · rw [complete]
    exact bounds.1
  · rw [complete]
    exact bounds.2

theorem readRecord_ok_iff {maxBytes : Int} {payload : Bytes} :
    readRecord now source maxBytes bytes = .ok (header, payload, rest) ↔
      IsRecord (decodeRecordHeader now · source maxBytes true) bytes header payload rest := by
  simp only [readRecord, bind_eq_ok, exists_unit, require_ok,
    decide_eq_true_eq, Bool.and_eq_true]
  constructor
  · rintro ⟨front, width, bounds, complete, read, decoded, size, same⟩
    obtain ⟨rfl, rfl, rfl⟩ : read = header ∧ _ = payload ∧ _ = rest := by
      simpa only [pure, Except.pure, Except.ok.injEq, Prod.mk.injEq] using same
    have whole := List.take_append_drop magic.length bytes
    rw [front] at whole
    generalize bytes.drop magic.length = tail at *
    generalize found : (tail.drop 4).drop (beNat (tail.take 4)) = content at *
    have pieces := @isRecord_of_pieces (decodeRecordHeader now · source maxBytes true) read _ _ _
      (content.drop (payloadSize read)) width bounds complete decoded size
    rwa [List.take_append_drop, ← found, List.take_append_drop, List.take_append_drop, whole,
      found] at pieces
  · rintro ⟨raw, rfl, least, most, decoded, size⟩
    have width : (beBytes 4 raw.length).length = 4 := length_beBytes 4 _
    rw [encodeRecord_append, List.take_left, List.drop_left, List.take_left' width,
      List.drop_left' width, beNat_headerLength most, List.take_left, List.drop_left]
    exact ⟨rfl, width, ⟨least, most⟩, rfl, header, decoded, by
      rw [← size, List.take_left], by rw [← size, List.take_left, List.drop_left]; rfl⟩

theorem NVMeTier.readFile_ok_iff {tier : NVMeTier} {path : Path} {payload : Bytes} :
    tier.readFile now path bytes = .ok (header, payload) ↔
      IsRecord (decodeRecordHeader now · path.str tier.maxBytes true) bytes header payload [] := by
  simp only [readFile, bind_eq_ok, exists_unit, require_ok,
    Prod.exists, readRecord_ok_iff, List.isEmpty_iff]
  constructor
  · rintro ⟨read, found, rest, record, rfl, same⟩
    cases same
    exact record
  · intro record
    exact ⟨header, payload, [], record, rfl, rfl⟩

theorem NVMeTier.readSegmentRecord_ok_iff {tier : NVMeTier} {ref : SegmentRef} {payload : Bytes} :
    tier.readSegmentRecord now ref bytes = .ok (header, payload) ↔
      ∃ rest, IsRecord (decodeRecordHeader now · ref.path.str tier.maxBytes true)
          (bytes.drop ref.offset.toNat) header payload rest ∧
        (ref.recordBytes ≤ 0 ∨
          ((bytes.drop ref.offset.toNat).length : Int) - rest.length = ref.recordBytes) := by
  simp only [readSegmentRecord, bind_eq_ok, exists_unit,
    require_ok, Prod.exists, readRecord_ok_iff, Bool.or_eq_true, decide_eq_true_eq]
  constructor
  · rintro ⟨read, found, rest, record, consumed, same⟩
    cases same
    exact ⟨rest, record, consumed⟩
  · rintro ⟨rest, record, consumed⟩
    exact ⟨header, payload, rest, record, consumed, rfl⟩

/-! ## What a body hands out -/

namespace Body

/-- What is left of a body after these bytes were read from it. -/
structure Leaves (body : Body) (front : Bytes) (left : Body) : Prop where
  data : body.data = front ++ left.data
  replies : left.replies = body.replies
  closeFails : left.closeFails = body.closeFails

theorem Leaves.trans {body middle left : Body} {front next : Bytes} (first : body.Leaves front middle)
    (second : middle.Leaves next left) : body.Leaves (front ++ next) left where
  data := by rw [first.data, second.data, List.append_assoc]
  replies := second.replies.trans first.replies
  closeFails := second.closeFails.trans first.closeFails

def Streams (body : Body) : Prop := ∀ turn, ∃ most, body.replies turn = .chunk (most + 1)

theorem Streams.leaves {body left : Body} {front : Bytes} (streams : body.Streams)
    (rest : body.Leaves front left) : left.Streams := by
  intro turn
  rw [rest.replies]
  exact streams turn

end Body

theorem readChunk_ok {chunk : Bytes} (read : readChunk size body = .ok (chunk, left)) :
    body.Leaves chunk left ∧ chunk.length ≤ size := by
  unfold readChunk at read
  split at read
  · cases read
    refine ⟨⟨(List.take_append_drop _ _).symm, rfl, rfl⟩, ?_⟩
    rw [List.length_take]
    omega
  all_goals cases read

theorem readChunk_streams (size : Nat) (streams : body.Streams) :
    ∃ chunk left, readChunk size body = .ok (chunk, left) ∧
      (chunk = [] → size = 0 ∨ body.data = []) := by
  obtain ⟨most, answers⟩ := streams body.turn
  simp only [readChunk, answers]
  refine ⟨_, _, rfl, fun none => ?_⟩
  rw [List.take_eq_nil_iff] at none
  exact none.imp (fun empty => by omega) id

theorem readRounds_ok {fuel remaining : Nat}
    (read : readRounds truncated fuel remaining body = .ok (bytes, left)) :
    body.Leaves bytes left ∧ bytes.length = remaining := by
  induction fuel generalizing remaining body bytes with
  | zero =>
    cases remaining with
    | zero =>
      cases read
      exact ⟨⟨rfl, rfl, rfl⟩, rfl⟩
    | succ remaining => cases read
  | succ fuel ih =>
    cases remaining with
    | zero =>
      cases read
      exact ⟨⟨rfl, rfl, rfl⟩, rfl⟩
    | succ remaining =>
      simp only [readRounds, bind_eq_ok, exists_unit,
        require_ok, Prod.exists] at read
      obtain ⟨chunk, middle, first, -, chunks, last, others, same⟩ := read
      cases same
      obtain ⟨taken, bound⟩ := readChunk_ok first
      obtain ⟨rest, length⟩ := ih others
      refine ⟨taken.trans rest, ?_⟩
      rw [List.length_append, length]
      omega

/-- A body that streams hands out all that is asked of it and present: every round takes
at least one byte, so there are rounds enough. -/
theorem readRounds_streams (truncated : PyError) {fuel remaining : Nat}
    (streams : body.Streams) (enough : remaining ≤ fuel) (present : remaining ≤ body.data.length) :
    ∃ bytes left, readRounds truncated fuel remaining body = .ok (bytes, left) := by
  induction fuel generalizing remaining body with
  | zero =>
    obtain rfl : remaining = 0 := by omega
    exact ⟨[], body, rfl⟩
  | succ fuel ih =>
    cases remaining with
    | zero => exact ⟨[], body, rfl⟩
    | succ remaining =>
      obtain ⟨chunk, middle, first, empty⟩ := readChunk_streams (remaining + 1) streams
      obtain ⟨taken, bound⟩ := readChunk_ok first
      have some : chunk ≠ [] := by
        intro none
        rcases empty none with zero | gone
        · omega
        · rw [gone] at present
          exact absurd present (by simp)
      have positive := List.length_pos_iff.mpr some
      have whole := congrArg List.length taken.data
      rw [List.length_append] at whole
      have fewer : remaining + 1 - chunk.length ≤ fuel := by omega
      obtain ⟨chunks, left, others⟩ := ih (streams.leaves taken) fewer (by omega)
      refine ⟨chunk ++ chunks, left, ?_⟩
      simp only [readRounds, bind_eq_ok, exists_unit,
        require_ok, Prod.exists]
      exact ⟨chunk, middle, first, by simpa using some, chunks, left, others, rfl⟩

theorem readExact_ok (read : readExact size truncated body = .ok (bytes, left)) :
    body.Leaves bytes left ∧ bytes.length = size := readRounds_ok read

theorem readExact_streams {front : Bytes}
    (streams : body.Streams) (data : body.data = front ++ rest) (length : front.length = size) :
    ∃ left, readExact size truncated body = .ok (front, left) ∧ left.data = rest ∧ left.Streams := by
  have present : size ≤ body.data.length := by
    rw [data, List.length_append]
    omega
  obtain ⟨bytes, left, read⟩ :=
    readRounds_streams truncated streams (Nat.le_refl size) present
  obtain ⟨taken, full⟩ := readRounds_ok read
  obtain ⟨rfl, same⟩ := List.append_inj (data.symm.trans taken.data) (length.trans full.symm)
  exact ⟨left, read, same.symm, streams.leaves taken⟩

/-- A record that was read from a body stood at its front, and the body handed out no
byte after it. -/
theorem readBodyRecord_ok {payload : Bytes}
    (read : readBodyRecord now source maxPayloadBytes body = .ok (header, payload)) :
    ∃ rest, IsRecord (decodeRecordHeader now · source maxPayloadBytes false) body.data header
      payload rest ∧ (body.Streams → rest = []) := by
  simp only [readBodyRecord, bind_eq_ok, exists_unit,
    require_ok, Prod.exists, decide_eq_true_eq, Bool.and_eq_true,
    List.isEmpty_iff] at read
  obtain ⟨front, second, readFront, isMagic, bounds, raw, third, readRaw, found, decoded, content,
    fourth, readPayload, extra, last, readExtra, none, same⟩ := read
  cases same
  obtain ⟨takenFront, frontLength⟩ := readExact_ok readFront
  obtain ⟨takenRaw, complete⟩ := readExact_ok readRaw
  obtain ⟨takenPayload, size⟩ := readExact_ok readPayload
  have split := List.take_append_drop magic.length front
  rw [isMagic] at split
  have width : (front.drop magic.length).length = 4 := by
    rw [List.length_drop, frontLength]
    rfl
  have record := @isRecord_of_pieces (decodeRecordHeader now · source maxPayloadBytes false) header
    _ _ _ fourth.data width bounds complete decoded size
  refine ⟨fourth.data, ?_, fun streams => ?_⟩
  · rwa [← List.append_assoc, split, ← takenPayload.data, ← takenRaw.data, ← takenFront.data]
      at record
  · have left := streams.leaves (takenFront.trans (takenRaw.trans takenPayload))
    obtain ⟨chunk, next, again, empty⟩ := readChunk_streams 1 left
    rw [readExtra] at again
    cases again
    exact (empty none).resolve_left Nat.one_ne_zero

theorem readBodyRecord_streams {payload : Bytes} (streams : body.Streams)
    (record : IsRecord (decodeRecordHeader now · source maxPayloadBytes false) body.data header
      payload []) : readBodyRecord now source maxPayloadBytes body = .ok (header, payload) := by
  obtain ⟨raw, data, least, most, decoded, size⟩ := record
  rw [encodeRecord_append, ← List.append_assoc] at data
  have width : (magic ++ beBytes 4 raw.length).length = magic.length + 4 := by
    rw [List.length_append, length_beBytes]
  simp only [readBodyRecord, bind_eq_ok, exists_unit,
    require_ok, Prod.exists, decide_eq_true_eq, Bool.and_eq_true, List.isEmpty_iff]
  obtain ⟨second, readFront, data, streams⟩ := readExact_streams streams data width
  refine ⟨_, second, readFront, List.take_left, ?_⟩
  rw [List.drop_left, beNat_headerLength most]
  obtain ⟨third, readRaw, data, streams⟩ := readExact_streams streams data rfl
  obtain ⟨fourth, readPayload, data, streams⟩ := readExact_streams streams data size
  obtain ⟨chunk, last, readExtra, -⟩ := readChunk_streams 1 streams
  have nothing := (readChunk_ok readExtra).1.data
  rw [data] at nothing
  exact ⟨⟨least, most⟩, raw, third, readRaw, header, decoded, payload, fourth, readPayload, chunk,
    last, readExtra, (List.append_eq_nil_iff.mp nothing.symm).1, rfl⟩

theorem readBody_ok_iff {result : Header × Bytes} :
    readBody now source maxPayloadBytes body = .ok result ↔
      readBodyRecord now source maxPayloadBytes body = .ok result ∧ body.closeFails = false := by
  unfold readBody
  cases readBodyRecord now source maxPayloadBytes body with
  | error e => simp
  | ok found => cases closes : body.closeFails <;> simp

/-! ## Headers read back -/

/-- The header that a store writes; only the file-backed tier names its layout. -/
def recordHeader (layout : Option LayoutMode) (checksum : Text) (payloadBytes : Nat)
    (m : KVMetadata) : Header :=
  (strKey "version", .int recordVersion) ::
    (layout.map fun mode => (strKey "layout_mode", PyVal.str mode.name)).toList ++
    [(strKey "checksum", .str checksum), (strKey "payload_bytes", .int payloadBytes),
      (strKey "metadata", m.toDict)]

def readBack (header : Header) : Header :=
  dictItems (header.map fun item => (item.1, item.2.norm))

theorem headerField_readBack {name : String} (v : PyVal)
    (found : getField name header = some v) : headerField name (readBack header) = v.norm := by
  rw [headerField, readBack, getField_norm, found]
  rfl

theorem encodeRecordHeader_ok {raw : Bytes} (plain : plainKeys header = true)
    (encoded : encodeRecordHeader header = .ok raw) :
    (raw ≠ [] ∧ raw.length ≤ maxHeaderBytes) ∧
      (decodeUtf8 raw).bind loads = some (.dict (readBack header)) := by
  unfold encodeRecordHeader at encoded
  split at encoded
  · cases encoded
  · next json written =>
    split at encoded
    · cases encoded
    · next bytes utf8 =>
      split_ifs at encoded with outside
      cases encoded
      simp only [PyVal.dumps, Option.ite_none_right_eq_some, Option.some.injEq] at written
      obtain ⟨encodable, rfl⟩ := written
      refine ⟨by simpa using outside, ?_⟩
      rw [decodeUtf8_encodeUtf8 utf8, Option.bind_some, loads_print .compact encodable,
        norm_of_plainKeys plain]
      rfl

theorem LayoutMode.norm_name (mode : LayoutMode) : (PyVal.str mode.name).norm = .str mode.name := by
  cases mode <;> rw [PyVal.norm, joinSurrogates_of_ascii (by decide)]

theorem plainKeys_recordHeader (layout : Option LayoutMode) (checksum : Text) (payloadBytes : Nat)
    (m : KVMetadata) : plainKeys (recordHeader layout checksum payloadBytes m) = true := by
  cases layout <;> rfl

/-- What a store writes of a payload, and the tier admits. -/
structure Written (layout : Option LayoutMode) (m : KVMetadata) (payload raw : Bytes) : Prop where
  valid : m.Valid
  bytes : m.bytes = .int payload.length
  encoded : ∃ checksum, m.checksum = .str checksum ∧
    encodeRecordHeader (recordHeader layout checksum payload.length m) = .ok raw

namespace Written

variable {layout : Option LayoutMode} {m : KVMetadata} {payload raw : Bytes}

theorem decodes (written : Written layout m payload raw) {maxPayloadBytes : Int}
    {requireLayoutMode : Bool} (fits : payload.length ≤ maxPayloadBytes)
    (named : requireLayoutMode = true → layout.isSome = true) (now : Readings) (source : Text) :
    ∃ checksum, m.checksum = .str checksum ∧
      decodeRecordHeader now raw source maxPayloadBytes requireLayoutMode =
        .ok (readBack (recordHeader layout checksum payload.length m)) := by
  obtain ⟨checksum, sum, encoded⟩ := written.encoded
  obtain ⟨inside, decoded⟩ := encodeRecordHeader_ok (plainKeys_recordHeader _ _ _ _) encoded
  obtain ⟨digits, shape, hex⟩ := checkChecksum_ok written.valid.checksum
  obtain rfl : checksum = digits := PyVal.str.inj (sum.symm.trans shape)
  refine ⟨checksum, sum, ?_⟩
  generalize header : recordHeader layout checksum payload.length m = h at *
  have version : headerField "version" (readBack h) = .int recordVersion :=
    headerField_readBack (.int recordVersion) (by rw [← header]; cases layout <;> rfl)
  have size : headerField "payload_bytes" (readBack h) = .int payload.length :=
    headerField_readBack (.int payload.length) (by rw [← header]; cases layout <;> rfl)
  have digest : headerField "checksum" (readBack h) = .str checksum := by
    rw [headerField_readBack (.str checksum) (by rw [← header]; cases layout <;> rfl),
      norm_sha256Hex hex]
  have object : headerField "metadata" (readBack h) = m.toDict.norm :=
    headerField_readBack m.toDict (by rw [← header]; cases layout <;> rfl)
  have mode : requireLayoutMode = true → ∃ s, headerField "layout_mode" (readBack h) = .str s ∧
      isLayoutMode s = true := by
    intro required
    obtain ⟨mode, rfl⟩ := Option.isSome_iff_exists.mp (named required)
    refine ⟨mode.name, ?_, by cases mode <;> decide⟩
    rw [headerField_readBack (.str mode.name) (by rw [← header]; rfl), mode.norm_name]
  simp only [decodeRecordHeader, bind_eq_ok, exists_unit,
    require_ok, decodePreamble_ok, checkLayout_ok, headerMetadata_ok,
    Bool.and_eq_true]
  refine ⟨_, ⟨inside, decoded, ?_, ?_, ?_⟩, mode, m.persisted, ?_, ?_, rfl⟩
  · rw [version]
    exact PyVal.pyEq_refl _
  · exact payloadBytesOk_iff.mpr ⟨_, size, by omega, fits⟩
  · exact checksumOk_iff.mpr ⟨checksum, digest, hex⟩
  · refine ⟨readBack m.fields, ?_, ?_, KVMetadata.persisted_valid written.valid⟩
    · rw [object]
      exact norm_of_plainKeys rfl
    · rw [← KVMetadata.fromDict_norm_toDict written.valid now, KVMetadata.toDict,
        norm_of_plainKeys rfl]
      rfl
  · rw [size, digest]
    exact ⟨by rw [← written.bytes]; simp [KVMetadata.persisted],
      by rw [← sum]; simp [KVMetadata.persisted]⟩

theorem raw_bounds (written : Written layout m payload raw) :
    0 < raw.length ∧ raw.length ≤ maxHeaderBytes := by
  obtain ⟨checksum, -, encoded⟩ := written.encoded
  obtain ⟨some, most⟩ := (encodeRecordHeader_ok (plainKeys_recordHeader _ _ _ _) encoded).1
  exact ⟨List.length_pos_iff.mpr some, most⟩

end Written

/-- A header that was read equals the written one, and so does the metadata in it. -/
structure Recovers (now : Readings) (layout : Option LayoutMode) (m : KVMetadata) (payload : Bytes)
    (header : Header) : Prop where
  equal : ∃ checksum, m.checksum = .str checksum ∧
    (PyVal.dict header).pyEq (.dict (recordHeader layout checksum payload.length m)) = true
  metadata : ∃ found, KVMetadata.fromDict now (headerField "metadata" header) = .ok found ∧
    found.pyEq m = true

theorem recovers_readBack {layout : Option LayoutMode} {m : KVMetadata}
    {payload : Bytes} {checksum : Text} (valid : m.Valid) (plain : m.extra.canon.Plain)
    (sum : m.checksum = .str checksum) :
    Recovers now layout m payload
      (readBack (recordHeader layout checksum payload.length m)) where
  equal := by
    refine ⟨checksum, sum, PyVal.pyEq_iff.mpr ?_⟩
    have plainHeader := plainKeys_recordHeader layout checksum payload.length m
    rw [readBack, ← norm_of_plainKeys plainHeader]
    refine canon_norm_of_values plainHeader ?_
    have digest : (PyVal.str checksum).norm = .str checksum := by
      rw [← sum, KVMetadata.norm_checksum valid.checksum]
    have object := KVMetadata.canon_norm_toDict valid plain
    have number : ∀ n, (PyVal.int n).norm = .int n := fun _ => rfl
    cases layout with
    | none => simp [recordHeader, number, digest, object]
    | some mode => simp [recordHeader, number, digest, object, mode.norm_name]
  metadata := by
    refine ⟨m.persisted, ?_, KVMetadata.persisted_pyEq plain⟩
    rw [headerField_readBack m.toDict (by cases layout <;> rfl)]
    exact KVMetadata.fromDict_norm_toDict valid now

theorem Written.isRecord {layout : Option LayoutMode} {m : KVMetadata} {payload raw : Bytes}
    (written : Written layout m payload raw) (plain : m.extra.canon.Plain)
    {requireLayoutMode : Bool} (fits : payload.length ≤ maxPayloadBytes)
    (named : requireLayoutMode = true → layout.isSome = true) (now : Readings) (source : Text) :
    ∃ header, Recovers now layout m payload header ∧ ∀ rest,
      IsRecord (decodeRecordHeader now · source maxPayloadBytes requireLayoutMode)
        (encodeRecord raw payload ++ rest) header payload rest := by
  obtain ⟨checksum, sum, decoded⟩ := written.decodes fits named now source
  have size : payload.length =
      payloadSize (readBack (recordHeader layout checksum payload.length m)) := by
    rw [payloadSize, headerField_readBack (.int payload.length) (by cases layout <;> rfl)]
    rfl
  exact ⟨_, recovers_readBack written.valid plain sum, fun rest =>
    ⟨raw, rfl, written.raw_bounds.1, written.raw_bounds.2, decoded, size⟩⟩

/-- A body over bytes at hand, as `_BytesBody`. -/
def Body.ofBytes (data : Bytes) : Body where
  data := data
  replies _ := .chunk (data.length + 1)
  turn := 0
  closeFails := false

theorem Body.streams_ofBytes (data : Bytes) : (ofBytes data).Streams := fun _ => ⟨_, rfl⟩

/-- Every reader gives back what was written and consumes exactly the record; what a reader
accepts is a record and nothing more. -/
theorem records_read_back_exactly (nvme : NVMeTier) (s3 : S3Tier) (now : Readings) :
    (∀ mode m payload raw, Written (some mode) m payload raw → m.extra.canon.Plain →
      payload.length ≤ nvme.maxBytes → ∀ path,
        (∃ header, nvme.readFile now path (encodeRecord raw payload) = .ok (header, payload) ∧
          Recovers now (some mode) m payload header) ∧
        (∀ before after, ∃ header,
          nvme.readSegmentRecord now ⟨path, (before.length : Int), (encodeRecord raw payload).length⟩
            (before ++ encodeRecord raw payload ++ after) = .ok (header, payload) ∧
          Recovers now (some mode) m payload header) ∧
        (∀ rest, ∃ header,
          readRecord now path.str nvme.maxBytes (encodeRecord raw payload ++ rest) =
            .ok (header, payload, rest))) ∧
    (∀ layout m payload raw, Written layout m payload raw → m.extra.canon.Plain →
      payload.length ≤ s3.maxPayloadBytes → ∀ source body, body.data = encodeRecord raw payload →
        body.Streams → body.closeFails = false →
        ∃ header, readBody now source s3.maxPayloadBytes body = .ok (header, payload) ∧
          Recovers now layout m payload header) ∧
    (∀ path bytes header payload, nvme.readFile now path bytes = .ok (header, payload) →
      IsRecord (decodeRecordHeader now · path.str nvme.maxBytes true) bytes header payload [] ∧
        HeaderAccepted now nvme.maxBytes true header) ∧
    (∀ source body header payload,
      readBody now source s3.maxPayloadBytes body = .ok (header, payload) →
        ∃ rest, IsRecord (decodeRecordHeader now · source s3.maxPayloadBytes false) body.data
            header payload rest ∧ (body.Streams → rest = []) ∧
          HeaderAccepted now s3.maxPayloadBytes false header) := by
  refine ⟨fun mode m payload raw written plain fits path => ?_,
    fun layout m payload raw written plain fits source body data streams closes => ?_,
    fun path bytes header payload read => ?_, fun source body header payload read => ?_⟩
  · obtain ⟨header, recovers, record⟩ := written.isRecord plain fits (fun _ => rfl) now path.str
    refine ⟨⟨header, ?_, recovers⟩, fun before after => ⟨header, ?_, recovers⟩, fun rest =>
      ⟨header, readRecord_ok_iff.mpr (record rest)⟩⟩
    · have whole := record []
      rw [List.append_nil] at whole
      exact NVMeTier.readFile_ok_iff.mpr whole
    · refine NVMeTier.readSegmentRecord_ok_iff.mpr ⟨after, ?_, .inr ?_⟩
      · rw [Int.toNat_natCast, List.append_assoc, List.drop_left]
        exact record after
      · rw [Int.toNat_natCast, List.append_assoc, List.drop_left, List.length_append]
        dsimp only
        omega
  · obtain ⟨header, recovers, record⟩ :=
      written.isRecord plain fits (absurd · Bool.false_ne_true) now source
    have whole := record []
    rw [List.append_nil, ← data] at whole
    exact ⟨header, readBody_ok_iff.mpr ⟨readBodyRecord_streams streams whole, closes⟩, recovers⟩
  · have record := NVMeTier.readFile_ok_iff.mp read
    exact ⟨record, record.accepted⟩
  · obtain ⟨rest, record, ends⟩ := readBodyRecord_ok (readBody_ok_iff.mp read).1
    exact ⟨rest, record, ends, record.accepted⟩

def sampleNVMe : NVMeTier where
  rootDir := [text "kv"]
  resolved := by decide
  maxBytes := 4096
  capacity := by decide
  layoutMode := .contentAddressed
  segmentBytes := 4096
  segmentCapacity := by decide
  workingDir := []

def sampleS3 : S3Tier where
  bucket := text "blocks"
  bucketAccepted := by decide
  givenPrefix := text "kv"
  prefixAccepted := by decide
  maxPayloadBytes := 4096
  payloadAccepted := by decide

theorem sampleMetadata_written :
    ∃ raw, Written (some .contentAddressed) sampleMetadata [1, 2, 3] raw := by
  have accepted : (encodeRecordHeader (recordHeader (some .contentAddressed)
      (List.replicate 64 (ch 'a')) 3 sampleMetadata)).isOk = true := by decide +kernel
  cases encoded : encodeRecordHeader (recordHeader (some .contentAddressed)
      (List.replicate 64 (ch 'a')) 3 sampleMetadata) with
  | error e =>
    rw [encoded] at accepted
    cases accepted
  | ok raw =>
    exact ⟨raw, KVMetadata.validate_eq_ok.mp (by decide +kernel), rfl, _, rfl, encoded⟩

theorem sampleRecord_reads_back : ∃ raw,
    Written (some .contentAddressed) sampleMetadata [1, 2, 3] raw ∧
      (∃ header, sampleNVMe.readFile ⟨.nan, .nan⟩ [text "kv", text "b"]
        (encodeRecord raw [1, 2, 3]) = .ok (header, [1, 2, 3])) ∧
      ∃ header, readBody ⟨.nan, .nan⟩ (text "b") sampleS3.maxPayloadBytes
        (.ofBytes (encodeRecord raw [1, 2, 3])) = .ok (header, [1, 2, 3]) := by
  obtain ⟨raw, written⟩ := sampleMetadata_written
  have plain : sampleMetadata.extra.canon.Plain :=
    .dict (List.forall_mem_nil _) (List.forall_mem_nil _)
  have round := records_read_back_exactly sampleNVMe sampleS3 ⟨.nan, .nan⟩
  obtain ⟨⟨header, file, -⟩, -⟩ :=
    round.1 _ _ _ _ written plain (by decide) [text "kv", text "b"]
  obtain ⟨other, body, -⟩ := round.2.1 _ _ _ _ written plain (by decide) (text "b")
    (.ofBytes (encodeRecord raw [1, 2, 3])) rfl (Body.streams_ofBytes _) rfl
  exact ⟨raw, written, ⟨header, file⟩, other, body⟩

end AiStorage.KV
