import AiStorage.KV.World

/-!
# Tiers

`lookup`, `load`, `evict` and `store` of `nvme_tier.py` and `s3_tier.py`. Where the two classes
differ (how a payload is found, read, removed and placed), the parts are the fields of a
`Backend` and of a `Writer`.
-/
namespace AiStorage.KV
open Lib Prog

structure LoadResult where
  key : BlockKey
  tier : TierName
  data : Bytes
  metadata : KVMetadata

structure StoreResult where
  key : BlockKey
  tier : TierName
  bytes : Int
  checksum : Text

/-- How a tier reaches the payloads that its rows name. -/
structure Backend where
  tier : TierName
  present : BlockLocation → Py Bool
  read : BlockLocation → Py (Header × Bytes)
  checkLayout : BlockKey → BlockLocation → Header → Except PyError Unit
  remove : BlockLocation → Py Unit
  /-- What `lookup` does when there is no active row. -/
  afterMiss : BlockKey → Py Unit
  /-- The message when a corrupt location could not be removed. -/
  remains : String

def blockError (cls : ErrorClass) (key : BlockKey) (detail : String) : PyError :=
  ⟨cls, key.blockHash.val ++ text detail⟩

def notFound (key : BlockKey) : PyError := blockError .blockNotFound key ""

def cleanupFailed (key : BlockKey) (operation : String) : PyError :=
  blockError .corruptionCleanupFailed key
    (": corruption detected; " ++ operation ++ " cleanup failed")

def immutableConflict (key : BlockKey) (detail : String) : PyError :=
  blockError .immutableBlockConflict key (": immutable BlockKey " ++ detail)

def headerChecksum (header : Header) : Text :=
  match headerField "checksum" header with
  | .str s => s
  | _ => []

/-! ## After the guarded part of a load -/

def invalidate (tier : TierName) (evict : Py Bool) (remains : String) (key : BlockKey) : Py Unit := do
  if ← evict then return ()
  else
    match ← perform (Act.lookup key tier) with
    | some _ => raise (.saying .runtimeError remains)
    | none => return ()

/-- `except CorruptionDetected` and `finally`, which are alike in the three tiers: a corrupt
location is evicted after its release. -/
def finishGuarded (tier : TierName) (evict : Py Bool) (remains : String) (key : BlockKey)
    (result : Except PyError LoadResult) : Py LoadResult :=
  match result with
  | .ok _ => do
    perform (Act.release key tier)
    .ret result
  | .error e =>
    if e.cls.isCorruption then do
      (perform (Act.release key tier)).handle fun _ => raise (cleanupFailed key "release")
      (invalidate tier evict remains key).handle fun _ => raise (cleanupFailed key "evict")
      raise e
    else do
      perform (Act.release key tier)
      raise e

namespace Backend

variable (B : Backend) (key : BlockKey)

def recheck : Py (Option BlockLocation) := do
  match ← perform (Act.lookup key B.tier) with
  | some location =>
    if ← B.present location then return some location
    else
      let _ ← perform (Act.delete key B.tier)
      return none
  | none =>
    let _ ← perform (Act.delete key B.tier)
    return none

def lookup : Py (Option BlockLocation) := do
  match ← perform (Act.lookup key B.tier) with
  | some location => if ← B.present location then return some location else withMutation (B.recheck key)
  | none =>
    B.afterMiss key
    return none

def contains : Py Bool := do
  let location ← B.lookup key
  return location.isSome

def evictLocked : Py Bool := do
  match ← perform (Act.beginDelete key B.tier) with
  | none => return false
  | some location =>
    B.remove location
    let finished ← perform (Act.finishDelete key B.tier)
    lift (require finished
      (.saying .runtimeError "delete tombstone disappeared before metadata commit"))
    return true

def evict : Py Bool := withMutation (B.evictLocked key)

/-! ## Loading -/

/-- What a record must agree with before its payload is believed. -/
def checkRecord (location : BlockLocation) (header : Header) (payload : Bytes) (m : KVMetadata) :
    Except PyError Unit := do
  B.checkLayout key location header
  require (m.key = key) (blockError .metadataMismatch key "")
  require (location.bytes = payload.length && location.bytes = payloadSize header)
    (blockError .metadataMismatch key ": location byte count mismatch")
  require (location.checksum = headerChecksum header)
    (blockError .metadataMismatch key ": location checksum mismatch")
  require (verifySha256 payload (headerChecksum header)) (blockError .checksumMismatch key "")

def checkPersisted (m : KVMetadata) : Option KVMetadata → Except PyError KVMetadata
  | none => .error (blockError .metadataMismatch key "")
  | some persisted => do
    require (persisted.key = key) (blockError .metadataMismatch key "")
    require (persisted.payloadDescriptor.pyEq m.payloadDescriptor)
      (blockError .metadataMismatch key ": persisted metadata does not match payload header")
    return { m with lastAccess := persisted.lastAccess, reuseCount := persisted.reuseCount }

def readAcquired (location : BlockLocation) : Py LoadResult := do
  let (header, payload) ← B.read location
  let now ← perform Act.readings
  let m ← lift (KVMetadata.fromDict now (headerField "metadata" header))
  lift (B.checkRecord key location header payload m)
  let m := { m with checksum := .str (headerChecksum header), bytes := .int payload.length }
  perform (Act.touch key B.tier)
  let persisted ← perform (Act.getMetadata key B.tier)
  let metadata ← lift (checkPersisted key m persisted)
  return { key, tier := B.tier, data := payload, metadata }

def finishLoad (result : Except PyError LoadResult) : Py LoadResult :=
  finishGuarded B.tier (B.evict key) B.remains key result

def load : Py LoadResult := do
  match ← B.lookup key with
  | none => raise (notFound key)
  | some _ =>
    match ← perform (Act.lookupAndAcquire key B.tier) with
    | none => raise (notFound key)
    | some location => (B.readAcquired key location).thenDo (B.finishLoad key)

end Backend

/-! ## Storing -/

/-- How a tier admits and places a payload. -/
structure Writer where
  /-- The size check before `mutation()` is entered, and the one inside. -/
  admitFirst : Nat → Except PyError Unit
  admitLocked : Nat → Except PyError Unit
  layout : Option LayoutMode
  makeRoom : Nat → BlockKey → Py Unit
  /-- Write the record and say where it is. -/
  place : BlockKey → Bytes → Bytes → KVMetadata → Py BlockLocation

def asNumber : PyVal → Number
  | .int n => .int n
  | .float x => .float x
  | _ => .float .nan

/-- The metadata object as `store` leaves it. -/
def stamped (m : KVMetadata) (data : Bytes) (now : Float64) : KVMetadata :=
  { m with
    checksum := .str (sha256Hex data)
    bytes := .int data.length
    lastAccess := .float now }

namespace Backend

variable (B : Backend) (W : Writer) (key : BlockKey) (data : Bytes) (m : KVMetadata)

def replay (existing : BlockLocation) : Py Unit := do
  let loaded ← B.load key
  lift (require (loaded.data = data)
    (immutableConflict key "already has different payload"))
  lift (require (loaded.metadata.payloadDescriptor.pyEq m.payloadDescriptor)
    (immutableConflict key "metadata descriptor changed"))
  perform (Act.upsert { existing with
    bytes := data.length
    checksum := sha256Hex data
    lastAccess := asNumber m.lastAccess } m)

def publish : Py Unit := do
  W.makeRoom data.length key
  let raw ← lift (encodeRecordHeader (recordHeader W.layout (sha256Hex data) data.length m))
  let location ← W.place key raw data m
  perform (Act.upsert location m)

def storeLocked : Py Unit := do
  let deleting ← perform (Act.isDeleting key B.tier)
  lift (require (!deleting)
    (.saying .runtimeError "cannot store a block while its delete tombstone is pending"))
  lift (W.admitLocked data.length)
  let now ← perform Act.time
  let m := stamped m data now
  lift (m.validate true)
  perform (Act.validatePayloadDescriptor m)
  match ← B.lookup key with
  | some existing => B.replay key data m existing
  | none => publish W key data m

def store : Py StoreResult := do
  lift (require (m.key = key) (mismatch "store key does not match metadata key"))
  lift (W.admitFirst data.length)
  withMutation (B.storeLocked W key data m)
  return { key, tier := B.tier, bytes := data.length, checksum := sha256Hex data }

end Backend

/-! ## The file-backed tier -/

namespace NVMeTier

variable (tier : NVMeTier)

def locationExists (location : BlockLocation) : Py Bool := do
  match ← lift (tier.validatedLocationTarget location) with
  | .segment ref =>
    if ← perform (Act.fileExists ref.path) then
      let size ← perform (Act.fileSize ref.path)
      return ref.offset + ref.recordBytes ≤ size
    else return false
  | .file path => perform (Act.fileExists path)

def readLocation (location : BlockLocation) : Py (Header × Bytes) := do
  match ← lift (tier.validatedLocationTarget location) with
  | .segment ref =>
    let bytes ← perform (Act.readContent ref.path)
    let now ← perform Act.readings
    lift (tier.readSegmentRecord now ref bytes)
  | .file path =>
    let bytes ← perform (Act.readContent path)
    let now ← perform Act.readings
    lift (tier.readFile now path bytes)

def checkRecordLayout (key : BlockKey) (location : BlockLocation) (header : Header) :
    Except PyError Unit := do
  let expected : LayoutMode :=
    match ← tier.validatedLocationTarget location with
    | .segment _ => .segment
    | .file _ => .contentAddressed
  require ((headerField "layout_mode" header).pyEq (.str expected.name))
    (blockError .recordFormatError key ": record layout mismatch")

/-- A segment record is append-only and becomes unreachable with its row; a file is
unlinked, and may be gone already. -/
def removeTarget (location : BlockLocation) : Py Unit := do
  match ← lift (tier.validatedLocationTarget location) with
  | .segment _ => return ()
  | .file path =>
    (perform (Act.unlink path)).handle fun e =>
      if e.cls = .fileNotFoundError then return () else raise e

def backend : Backend where
  tier := .nvme
  present := tier.locationExists
  read := tier.readLocation
  checkLayout := tier.checkRecordLayout
  remove := tier.removeTarget
  afterMiss key := do
    let _ ← perform (Act.isDeleting key .nvme)
    return ()
  remains := "corrupt file location remains active"

def lookup (key : BlockKey) : Py (Option BlockLocation) := tier.backend.lookup key

def load (key : BlockKey) : Py LoadResult := tier.backend.load key

def evict (key : BlockKey) : Py Bool := tier.backend.evict key

def evictOne (exclude : BlockKey) : List BlockLocation → Py (Option Int)
  | [] => return none
  | location :: rest =>
    if location.key = exclude then evictOne exclude rest
    else do
      if ← tier.evict location.key then return some location.bytes
      else evictOne exclude rest

/-- The loop of `_ensure_capacity`. Every round removes a row, so that the rounds never
run out. -/
def evictUntil (incoming : Int) (exclude : BlockKey) : Nat → Int → Py Unit
  | 0, _ => do
    let none ← perform Act.stuck
    nomatch none
  | rounds + 1, current =>
    if tier.maxBytes < current + incoming then do
      let candidates ← perform (Act.lruCandidates .nvme 16)
      match ← tier.evictOne exclude candidates with
      | some freed => evictUntil incoming exclude rounds (current - freed)
      | none => raise (.saying .storeFull "no evictable nvme blocks")
    else return ()

def ensureCapacity (incoming : Nat) (exclude : BlockKey) : Py Unit := do
  let used ← perform (Act.bytesUsed .nvme)
  let existing ← tier.lookup exclude
  let rows ← perform Act.rowCount
  tier.evictUntil incoming exclude (rows + 1) (used - (existing.map BlockLocation.bytes).getD 0)

/-- `_segment_id`: the number after the last dash of the stem, or zero. -/
def segmentId (path : Path) : Int :=
  (pyInt (((nameStem (path.getLast?.getD [])).splitOn (ch '-')).getLast?.getD [])).getD 0

def isSegmentName (name : Text) : Bool :=
  (text "segment-").isPrefixOf name && (text ".kvseg").isSuffixOf name &&
    decide ((text "segment-.kvseg").length ≤ name.length)

/-- `f"segment-{id:06d}.kvseg"`; a number without a dash is not negative. -/
def segmentName (id : Int) : Text := text "segment-" ++ sixDigits id.toNat ++ text ".kvseg"

/-- The last file of a series while the record fits into it, else the next one. -/
def pathForAppend (series : Text → Bool) (name : Int → Text) (key : BlockKey) (recordBytes : Nat) :
    Py Path := do
  let dir ← lift (namespaceDir tier.segmentRoot key)
  let existing ← perform (Act.filesIn dir series)
  match existing.getLast? with
  | none => return dir ++ [name 0]
  | some last =>
    let size ← perform (Act.fileSize last)
    if size = 0 ∨ size + recordBytes ≤ tier.segmentBytes then return last
    else return dir ++ [name (segmentId last + 1)]

def segmentPathForAppend (key : BlockKey) (recordBytes : Nat) : Py Path :=
  tier.pathForAppend isSegmentName segmentName key recordBytes

/-- `path.stat().st_size if path.exists() else 0` -/
def sizeOrZero (path : Path) : Py Int := do
  if ← perform (Act.fileExists path) then perform (Act.fileSize path) else return 0

/-- Append a record to the file that is named for its length. -/
def appendRecord (pathFor : Nat → Py Path) (raw data : Bytes) : Py SegmentRef := do
  let record := encodeRecord raw data
  let path ← pathFor record.length
  let offset ← sizeOrZero path
  perform (Act.append path record)
  return { path, offset, recordBytes := record.length }

def appendSegmentRecord (key : BlockKey) (raw data : Bytes) : Py SegmentRef :=
  appendRecord (tier.segmentPathForAppend key) raw data

/-- The physical part of `store`, which differs with the layout. -/
def place (key : BlockKey) (raw data : Bytes) (m : KVMetadata) : Py BlockLocation :=
  match tier.layoutMode with
  | .segment => do
    let ref ← tier.appendSegmentRecord key raw data
    lift (segmentLocationFor key ref data.length (sha256Hex data) (asNumber m.createdAt)
      (asNumber m.lastAccess))
  | .contentAddressed => do
    let path ← lift (blockPath tier.rootDir key)
    perform Act.writeTmp
    perform (Act.replaceFile path (encodeRecord raw data))
    return locationFor key path data.length (sha256Hex data) (asNumber m.createdAt)
      (asNumber m.lastAccess)

def writer : Writer where
  admitFirst _ := .ok ()
  admitLocked size :=
    require ((size : Int) ≤ tier.maxBytes) (.saying .storeFull "block exceeds nvme tier capacity")
  layout := some tier.layoutMode
  makeRoom := tier.ensureCapacity
  place := tier.place

def store (key : BlockKey) (data : Bytes) (m : KVMetadata) : Py StoreResult :=
  tier.backend.store tier.writer key data m

end NVMeTier

/-! ## The object tier -/

namespace S3Tier

variable (tier : S3Tier)

def isNotFound (allowAmbiguous : Bool) (e : PyError) : Bool :=
  e.cls = .noSuchKey || (allowAmbiguous && e.cls = .notFound)

/-- `TierUnavailable(f"s3 {operation} failed: {exc}")` -/
def requestFailed (operation : String) (e : PyError) : PyError :=
  ⟨.tierUnavailable, text ("s3 " ++ operation ++ " failed: ") ++ e.message⟩

def headExists (objectKey : Text) (allowAmbiguous : Bool) : Py Bool :=
  (do perform (Act.headObject objectKey); return true).handle fun e =>
    if isNotFound allowAmbiguous e then return false else raise (requestFailed "head_object" e)

def readObject (objectKey : Text) : Py (Header × Bytes) := do
  let response ← (perform (Act.getObject objectKey)).handle fun e =>
    raise (if isNotFound false e then ⟨.blockNotFound, objectKey⟩ else requestFailed "get_object" e)
  match response with
  | .noBody => raise (unavailable "s3 get_object response has no readable body")
  | .unreadable true => raise (unavailable "s3 body is unreadable and close failed")
  | .unreadable false => raise (unavailable "s3 body does not support read")
  | .body body =>
    let now ← perform Act.readings
    lift (readBody now objectKey tier.maxPayloadBytes body)

/-- The payload is gone when the object store says so, not when it accepted the request. -/
def removeObject (location : BlockLocation) : Py Unit := do
  let (_, objectKey) ← lift (tier.locationTarget location)
  (perform (Act.deleteObject objectKey)).handle fun e =>
    if isNotFound false e then return () else raise (requestFailed "delete_object" e)
  if ← headExists objectKey true then
    raise (unavailable "s3 delete_object returned successfully but the object remains visible")
  else return ()

def backend : Backend where
  tier := .s3
  present location := do
    let (_, objectKey) ← lift (tier.locationTarget location)
    headExists objectKey false
  read location := do
    let (_, objectKey) ← lift (tier.locationTarget location)
    tier.readObject objectKey
  checkLayout _ _ _ := .ok ()
  remove := tier.removeObject
  afterMiss _ := return ()
  remains := "corrupt S3 location remains active"

def lookup (key : BlockKey) : Py (Option BlockLocation) := tier.backend.lookup key

def load (key : BlockKey) : Py LoadResult := tier.backend.load key

def evict (key : BlockKey) : Py Bool := tier.backend.evict key

def place (key : BlockKey) (raw data : Bytes) (m : KVMetadata) : Py BlockLocation := do
  let objectKey := tier.objectKey key
  (perform (Act.putObject objectKey (encodeRecord raw data))).handle fun e =>
    raise (requestFailed "put_object" e)
  lift (tier.locationFor key objectKey data.length (sha256Hex data) (asNumber m.createdAt)
    (asNumber m.lastAccess))

def writer : Writer where
  admitFirst size := require ((size : Int) ≤ tier.maxPayloadBytes)
    (.saying .storeFull "block exceeds S3 record protocol limit")
  admitLocked _ := .ok ()
  layout := none
  makeRoom _ _ := return ()
  place := tier.place

def store (key : BlockKey) (data : Bytes) (m : KVMetadata) : Py StoreResult :=
  tier.backend.store tier.writer key data m

end S3Tier

end AiStorage.KV
