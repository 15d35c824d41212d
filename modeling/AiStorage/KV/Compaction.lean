import AiStorage.KV.Tier

/-!
# Compaction of segment files

`compact_segments` of `nvme_tier.py`. A pass copies the records of the rows that nobody reads
into new files, moves the rows there one by one, and unlinks the files that no row names.
-/
namespace AiStorage.KV
open Lib Prog

/-- The dictionary that `compact_segments` returns, without the constant texts. -/
structure CompactionReport where
  dryRun : Bool
  /-- The layout has no segments, so that nothing was done. -/
  skipped : Bool
  logicalBytes : Int
  physicalBytesBefore : Int
  physicalBytesAfter : Int
  activeSegmentRecords : Nat
  inflightSegmentRecords : Nat
  movedRecords : Nat
  skippedRecords : Nat
  removedSegmentFiles : Nat
  removedSegmentBytes : Int
  bytesReclaimed : Int

namespace Act

def tierEntries (tier : TierName) (includeInFlight : Bool) :
    Act (List (BlockLocation × KVMetadata × Int)) :=
  database fun c s => (s.tierEntries c.readings tier includeInFlight, s)

def filesBelow (root : Path) (fits : Text → Bool) (w : World) : List Path :=
  let below := (w.files.rows.map Prod.fst).filter fun file =>
    root.isPrefixOf file && decide (root.length < file.length) && fits (file.getLast?.getD [])
  below.insertionSort fun a b => a.map strCode ≤ b.map strCode

/-- `sorted(root.rglob("*.kvseg"))` -/
def segmentFiles (root : Path) : Act (List Path) :=
  onFiles fun _ w => .ok (filesBelow root (text ".kvseg").isSuffixOf w)

def physicalBytes (root : Path) : Act Int := onFiles fun _ w =>
  let counted := filesBelow root (fun name => nameSuffix name = text ".kv" ||
    nameSuffix name = text ".kvseg") w
  .ok (counted.map fun file => (((w.files.get file).map List.length).getD 0 : Int)).sum

end Act

def Number.value : Number → PyVal
  | .int n => .int n
  | .float x => .float x

/-- `header["metadata"] = v` of a header that has the field. -/
def setMetadata (v : PyVal) (header : Header) : Header :=
  header.map fun item => if item.1 = strKey "metadata" then (item.1, v) else item

def isSegmentUri (uri : Text) : Bool := (text "segment://").isPrefixOf uri

namespace NVMeTier

variable (tier : NVMeTier)

def presentRecords : List (BlockLocation × KVMetadata × Int) → Py (List (BlockLocation × KVMetadata))
  | [] => return []
  | (location, m, _) :: rest =>
    if isSegmentUri location.uri then do
      if ← tier.locationExists location then
        let others ← presentRecords rest
        return (location, m) :: others
      else presentRecords rest
    else presentRecords rest

/-- `f"compact-{compaction_id}-*.kvseg"` -/
def isCompactName (compactionId : Nat) (name : Text) : Bool :=
  let front := text "compact-" ++ decimal compactionId ++ text "-"
  front.isPrefixOf name && (text ".kvseg").isSuffixOf name &&
    decide (front.length + (text ".kvseg").length ≤ name.length)

def compactName (compactionId : Nat) (id : Int) : Text :=
  text "compact-" ++ decimal compactionId ++ text "-" ++ sixDigits id.toNat ++ text ".kvseg"

def compactSegmentPathForAppend (compactionId : Nat) (key : BlockKey) (recordBytes : Nat) : Py Path :=
  tier.pathForAppend (isCompactName compactionId) (compactName compactionId) key recordBytes

def appendCompactedSegmentRecord (compactionId : Nat) (key : BlockKey) (raw data : Bytes) :
    Py SegmentRef :=
  appendRecord (tier.compactSegmentPathForAppend compactionId key) raw data

def checkMoved (now : Readings) (location : BlockLocation) (m : KVMetadata) (header : Header)
    (payload : Bytes) : Except PyError Unit := do
  let described ← KVMetadata.fromDict now (headerField "metadata" header)
  match m.validate true with
  | .ok () => .ok ()
  | .error e =>
    if e.cls.isValueError then .error (blockError .metadataMismatch location.key "") else .error e
  require (described.key = location.key &&
      described.payloadDescriptor.pyEq m.payloadDescriptor)
    (blockError .metadataMismatch location.key "")
  require (payload.length = payloadSize header && verifySha256 payload (headerChecksum header))
    (blockError .checksumMismatch location.key "")

def movedMetadata (location : BlockLocation) (m : KVMetadata) (header : Header) (payload : Bytes) :
    KVMetadata :=
  { m with
    checksum := .str (headerChecksum header)
    bytes := .int payload.length
    lastAccess := location.lastAccess.value }

def moveRecord (compactionId : Nat) (location : BlockLocation) (m : KVMetadata) (header : Header)
    (payload : Bytes) : Py Unit := do
  let m := movedMetadata location m header payload
  let raw ← lift (encodeRecordHeader (setMetadata m.toDict header))
  let ref ← tier.appendCompactedSegmentRecord compactionId location.key raw payload
  let moved ← lift (segmentLocationFor location.key ref payload.length (headerChecksum header)
    location.createdAt location.lastAccess)
  perform (Act.upsert moved m)

/-- The guarded part of one round: whether the record was moved. A row that meanwhile names
another place is skipped. -/
def compactAcquired (compactionId : Nat) (location : BlockLocation) (m : KVMetadata) : Py Bool := do
  let current ← perform (Act.lookup location.key .nvme)
  if current.any fun now => now.uri = location.uri then
    let (header, payload) ← tier.readLocation location
    let now ← perform Act.readings
    lift (checkMoved now location m header payload)
    tier.moveRecord compactionId location m header payload
    return true
  else return false

/-- One round: the row is pinned while its record is copied. -/
def compactOne (compactionId : Nat) (location : BlockLocation) (m : KVMetadata) : Py Bool := do
  let _ ← perform (Act.acquire location.key .nvme)
  (tier.compactAcquired compactionId location m).andFinally
    (perform (Act.release location.key .nvme))

def compactEach (compactionId : Nat) : List (BlockLocation × KVMetadata) → Nat × Nat → Py (Nat × Nat)
  | [], counts => return counts
  | (location, m) :: rest, counts => do
    if ← tier.compactOne compactionId location m then
      compactEach compactionId rest (counts.1 + 1, counts.2)
    else compactEach compactionId rest (counts.1, counts.2 + 1)

def referencedPaths : List (BlockLocation × KVMetadata × Int) → Except PyError (List Path)
  | [] => .ok []
  | (location, _, _) :: rest =>
    if isSegmentUri location.uri then
      match tier.segmentRefFromUri location.uri location.key with
      | .ok ref => do
        let others ← referencedPaths rest
        return ref.path :: others
      | .error e =>
        if e.cls.isValueError then
          .error (mismatch "invalid persisted segment location during compaction")
        else .error e
    else referencedPaths rest

def unlinkSized (path : Path) : Py (Option Int) := do
  let size ← perform (Act.fileSize path)
  perform (Act.unlink path)
  return some size

def removeFile (path : Path) : Py (Option Int) :=
  (unlinkSized path).handle fun e =>
    if e.cls = .fileNotFoundError then return none else raise e

/-- The loop of `_remove_unreferenced_segment_files`: how many files, and their bytes. -/
def removeEach (referenced : List Path) : List Path → Nat × Int → Py (Nat × Int)
  | [], counts => return counts
  | path :: rest, counts =>
    if path ∈ referenced then removeEach referenced rest counts
    else do
      match ← removeFile path with
      | some size => removeEach referenced rest (counts.1 + 1, counts.2 + size)
      | none => removeEach referenced rest counts

def removeUnreferencedSegmentFiles : Py (Nat × Int) := do
  let entries ← perform (Act.tierEntries .nvme true)
  let referenced ← lift (tier.referencedPaths entries)
  let files ← perform (Act.segmentFiles tier.segmentRoot)
  removeEach referenced files (0, 0)

def compactLocked (compactionId : Nat) (dryRun : Bool) : Py CompactionReport := do
  let before ← perform (Act.physicalBytes tier.rootDir)
  let idle ← perform (Act.tierEntries .nvme false)
  let entries ← tier.presentRecords idle
  let all ← perform (Act.tierEntries .nvme true)
  let inflight := all.countP fun entry => decide (0 < entry.2.2) && isSegmentUri entry.1.uri
  if dryRun then
    let logical ← perform (Act.bytesUsed .nvme)
    return {
      dryRun, skipped := false, logicalBytes := logical
      physicalBytesBefore := before, physicalBytesAfter := before
      activeSegmentRecords := entries.length, inflightSegmentRecords := inflight
      movedRecords := 0, skippedRecords := 0, removedSegmentFiles := 0, removedSegmentBytes := 0
      bytesReclaimed := 0 }
  else
    let (moved, skipped) ← tier.compactEach compactionId entries (0, 0)
    let (removed, removedBytes) ← tier.removeUnreferencedSegmentFiles
    let after ← perform (Act.physicalBytes tier.rootDir)
    let logical ← perform (Act.bytesUsed .nvme)
    return {
      dryRun, skipped := false, logicalBytes := logical
      physicalBytesBefore := before, physicalBytesAfter := after
      activeSegmentRecords := entries.length, inflightSegmentRecords := inflight
      movedRecords := moved, skippedRecords := skipped, removedSegmentFiles := removed
      removedSegmentBytes := removedBytes, bytesReclaimed := max (before - after) 0 }

/-- `compact_segments(dry_run)`, which takes its id from the clock. -/
def compactSegments (compactionId : Nat) (dryRun : Bool) : Py CompactionReport :=
  match tier.layoutMode with
  | .segment => withMutation (tier.compactLocked compactionId dryRun)
  | .contentAddressed => do
    let logical ← perform (Act.bytesUsed .nvme)
    let before ← perform (Act.physicalBytes tier.rootDir)
    let after ← perform (Act.physicalBytes tier.rootDir)
    return {
      dryRun, skipped := true, logicalBytes := logical
      physicalBytesBefore := before, physicalBytesAfter := after
      activeSegmentRecords := 0, inflightSegmentRecords := 0
      movedRecords := 0, skippedRecords := 0, removedSegmentFiles := 0, removedSegmentBytes := 0
      bytesReclaimed := 0 }

end NVMeTier

end AiStorage.KV
