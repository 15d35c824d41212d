import AiStorage.KV.Tier

/-!
# The memory tier

`memory_tier.py`. Payloads stand in a map of the process, in the order of their last use, and
every method runs under the lock of the tier.
-/
namespace AiStorage.KV
open Lib Prog

/-- What the methods of a `MemoryTier` read; the map itself is part of the world. -/
structure MemoryTier where
  maxBytes : Int
  capacity : 0 < maxBytes

namespace MemoryTier

def uri (key : BlockKey) : Text := text "memory://block/" ++ key.blockHash.val

def locationFor (key : BlockKey) (m : KVMetadata) (checksum : Text) (bytes : Nat) :
    BlockLocation where
  key := key
  tier := .memory
  uri := uri key
  bytes := bytes
  checksum := checksum
  createdAt := asNumber m.createdAt
  lastAccess := asNumber m.lastAccess
  attributes := LocationField.default

def validateLocation (key : BlockKey) (location : BlockLocation) : Except PyError Unit :=
  require (location.key = key && location.tier = .memory && location.uri = uri key)
    (mismatch "invalid persisted memory location")

/-- A row without a payload is stale, and a payload without a row was never published. -/
def lookupLocked (key : BlockKey) : Py (Option BlockLocation) := do
  let location ← perform (Act.lookup key .memory)
  let data ← perform (Act.memoryGet key)
  match location, data with
  | some _, none =>
    let _ ← perform (Act.delete key .memory)
    return none
  | none, some _ =>
    perform (Act.memoryPop key)
    return none
  | some location, some _ =>
    lift (validateLocation key location)
    return some location
  | none, none => return none

def lookup (key : BlockKey) : Py (Option BlockLocation) := withMemoryLock (lookupLocked key)

def contains (key : BlockKey) : Py Bool := do
  let location ← lookup key
  return location.isSome

def evictLocked (key : BlockKey) : Py Bool := do
  match ← perform (Act.memoryGet key) with
  | none => return false
  | some _ =>
    if ← perform (Act.delete key .memory) then
      perform (Act.memoryPop key)
      return true
    else return false

def evict (key : BlockKey) : Py Bool := withMemoryLock (evictLocked key)

/-! ## Loading -/

def checkLoaded (key : BlockKey) (location : BlockLocation) (data : Bytes) (m : KVMetadata) :
    Except PyError Unit := do
  require (m.key = key) (blockError .metadataMismatch key "")
  require (location.bytes = data.length && (PyVal.int data.length).pyEq m.bytes)
    (blockError .metadataMismatch key ": memory byte count mismatch")
  require ((PyVal.str location.checksum).pyEq m.checksum)
    (blockError .metadataMismatch key ": memory checksum mismatch")
  require ((PyVal.str (sha256Hex data)).pyEq m.checksum) (blockError .checksumMismatch key "")

def reused : PyVal → PyVal
  | .int n => .int (n + 1)
  | other => other

def readAcquired (key : BlockKey) (location : BlockLocation) : Py LoadResult := do
  match ← perform (Act.memoryGet key) with
  | none => raise (.bare .keyError)
  | some data =>
    match ← perform (Act.getMetadata key .memory) with
    | none => raise (notFound key)
    | some m =>
      lift (checkLoaded key location data m)
      perform (Act.memoryMoveToEnd key)
      perform (Act.touch key .memory)
      let now ← perform Act.time
      let metadata := { m with lastAccess := .float now, reuseCount := reused m.reuseCount }
      return { key, tier := .memory, data, metadata }

def finishLoad (key : BlockKey) (result : Except PyError LoadResult) : Py LoadResult :=
  finishGuarded .memory (evict key) "corrupt memory location remains active" key result

def loadLocked (key : BlockKey) : Py LoadResult := do
  match ← lookup key with
  | none => raise (notFound key)
  | some location =>
    match ← perform (Act.memoryGet key) with
    | none => raise (notFound key)
    | some _ =>
      if ← perform (Act.acquire key .memory) then
        (readAcquired key location).thenDo (finishLoad key)
      else raise (notFound key)

def load (key : BlockKey) : Py LoadResult := withMemoryLock (loadLocked key)

/-! ## Storing -/

def replay (key : BlockKey) (data : Bytes) (m : KVMetadata) (existing : BlockLocation) :
    Py Unit := do
  match ← perform (Act.memoryGet key) with
  | none => raise (.bare .keyError)
  | some held =>
    lift (require (held = data) (immutableConflict key "already has different payload"))
    let persisted ← perform (Act.getMetadata key .memory)
    lift (require (persisted.any fun found => found.payloadDescriptor.pyEq m.payloadDescriptor)
      (immutableConflict key "metadata descriptor changed"))
    perform (Act.upsert { existing with lastAccess := asNumber m.lastAccess } m)
    perform (Act.memoryMoveToEnd key)

/-- One pass over the map, oldest first: whether a block was evicted. -/
def evictOne (exclude : BlockKey) : List BlockKey → Py Bool
  | [] => return false
  | key :: rest =>
    if key = exclude then evictOne exclude rest
    else do if ← evict key then return true else evictOne exclude rest

variable (tier : MemoryTier)

/-- The loop of `_ensure_capacity`. Every round removes a payload, so that the rounds never
run out. -/
def evictUntil (incoming : Int) (exclude : BlockKey) : Nat → Py Unit
  | 0 => do
    let none ← perform Act.stuck
    nomatch none
  | rounds + 1 => do
    let used ← perform Act.memoryUsed
    if tier.maxBytes < used + incoming then
      let keys ← perform Act.memoryKeys
      if ← evictOne exclude keys then evictUntil incoming exclude rounds
      else raise (.saying .storeFull "no evictable memory blocks")
    else return ()

def ensureCapacity (incoming : Int) (exclude : BlockKey) : Py Unit :=
  if incoming ≤ 0 then return ()
  else do
    let keys ← perform Act.memoryKeys
    tier.evictUntil incoming exclude (keys.length + 1)

def restore (key : BlockKey) (previous : Option Bytes) : Py Unit := do
  perform (Act.memoryPop key)
  match previous with
  | some old => perform (Act.memoryPut key old)
  | none => return ()

/-- The payload is in the map before its row is committed; without the commit it leaves. -/
def placement (key : BlockKey) (data : Bytes) (m : KVMetadata) (previous : Option Bytes) :
    Py Unit := do
  perform (Act.memoryPut key data)
  (perform (Act.upsert (locationFor key m (sha256Hex data) data.length) m)).handle fun e => do
    restore key previous
    raise e

/-- The part of `publish` after `_ensure_capacity`. -/
def insertion (key : BlockKey) (data : Bytes) (m : KVMetadata) : Py Unit := do
  let previous ← perform (Act.memoryGet key)
  if previous.isSome then perform (Act.memoryPop key)
  placement key data m previous

def publish (key : BlockKey) (data : Bytes) (m : KVMetadata) : Py Unit := do
  let there ← perform (Act.memoryGet key)
  tier.ensureCapacity (data.length - ((there.map List.length).getD 0 : Nat)) key
  insertion key data m

def storeLocked (key : BlockKey) (data : Bytes) (m : KVMetadata) : Py Unit := do
  let now ← perform Act.time
  let m := stamped m data now
  lift (m.validate true)
  perform (Act.validatePayloadDescriptor m)
  match ← lookup key with
  | some existing => replay key data m existing
  | none => tier.publish key data m

def store (key : BlockKey) (data : Bytes) (m : KVMetadata) : Py StoreResult := do
  lift (require (m.key = key) (mismatch "store key does not match metadata key"))
  lift (require ((data.length : Int) ≤ tier.maxBytes)
    (.saying .storeFull "block exceeds memory tier capacity"))
  withMemoryLock (tier.storeLocked key data m)
  return { key, tier := .memory, bytes := data.length, checksum := sha256Hex data }

end MemoryTier

end AiStorage.KV
