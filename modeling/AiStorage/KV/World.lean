import AiStorage.KV.Immutability
import AiStorage.KV.RecordReader
import AiStorage.Lib.Sha256
import AiStorage.Lib.Threads

/-!
# What the tiers act on

The metadata database, the file system, the object store, the memory map and the two locks,
with the atomic actions on them. Everything a caller does not control is a choice made at each
action: whether a step fails, what it left behind, what the clock shows.
-/
namespace AiStorage.KV
open Lib

structure World where
  store : MetadataStore
  files : Dict Path Bytes
  objects : Dict Text Bytes
  /-- `MemoryTier._data`, oldest first. -/
  memory : List (BlockKey × Bytes)
  usedBytes : Int
  mutation : RLock
  memoryLock : RLock

inductive BodyKind where
  | absent | unreadable | readable
  deriving DecidableEq

/-- `PrefetchSubmitResult.reason` -/
inductive Submission where
  | duplicate | queueFull | submitted
  deriving DecidableEq

def Submission.reason : Submission → Text
  | duplicate => text "duplicate"
  | queueFull => text "queue_full"
  | submitted => text "submitted"

inductive Operation where
  | file | head | get | put | delete
  deriving DecidableEq

structure Choice where
  readings : Readings
  clock : Float64
  /-- The database refuses the statement. -/
  dbFails : Bool
  /-- A physical step of the kind fails. -/
  fails : Operation → Bool
  /-- A failing request to the object store was carried out nevertheless. -/
  carriedOut : Bool
  /-- The object store reports a missing object without saying that it is the object. -/
  ambiguous : Bool
  /-- The object store refuses to delete a missing object. -/
  strict : Bool
  /-- The text of an exception of the object store's client. -/
  reason : Text
  /-- What a failed append added to the file. -/
  leftover : Bytes
  bodyKind : BodyKind
  replies : Nat → Reply
  closeFails : Bool
  submission : Submission

/-- What an action does for a thread; without a result it has to wait. -/
abbrev Act (β : Type) := Nat → Choice → World → Option (Except PyError β × World)

def device : Device Act PyError World Choice := ⟨fun t action c w => action t c w⟩

abbrev Py (α : Type) := Prog Act PyError α

def raise {α : Type} (e : PyError) : Py α := Prog.raise e

/-- A computation without actions. -/
def lift {α : Type} (x : Except PyError α) : Py α := .ret x

def sha256Hex (data : Bytes) : Text :=
  (hexEncode (sha256 data).val).map fun b => CodePoint.ofNat b.toNat

def verifySha256 (data : Bytes) (expected : Text) : Bool := sha256Hex data = expected

namespace Act

variable {β : Type}

def observe (f : Choice → World → Except PyError β) : Act β := fun _ c w => some (f c w, w)

def stuck : Act Empty := fun _ _ _ => none

def time : Act Float64 := observe fun c _ => .ok c.clock

def readings : Act Readings := observe fun c _ => .ok c.readings

/-! ## The database -/

def database (f : Choice → MetadataStore → Outcome β) : Act β := fun _ c w =>
  if c.dbFails then some (.error (.bare .operationalError), w)
  else some ((f c w.store).1, { w with store := (f c w.store).2 })

/-- A method that takes the mutation lock for its statement. -/
def exclusive (f : Choice → MetadataStore → Outcome β) : Act β := fun t c w =>
  if w.mutation.admits t then database f t c w else none

section Database

variable (key : BlockKey) (tier : TierName)

def lookup : Act (Option BlockLocation) := database fun _ s => (s.lookup key tier, s)

def getMetadata : Act (Option KVMetadata) :=
  database fun c s => (s.getMetadata c.readings key tier, s)

def isDeleting : Act Bool := database fun _ s => (s.isDeleting key tier, s)

def bytesUsed : Act Int := database fun _ s => (s.bytesUsed tier, s)

def lruCandidates (limit : Nat) : Act (List BlockLocation) :=
  database fun c s => (s.lruCandidates c.readings tier limit, s)

def touch : Act Unit := database fun c s => s.touch c.clock key tier

def release : Act Unit := database fun _ s => s.release key tier

def validatePayloadDescriptor (m : KVMetadata) : Act Unit :=
  exclusive fun c s => (s.validatePayloadDescriptor c.readings m, s)

def upsert (location : BlockLocation) (m : KVMetadata) : Act Unit :=
  exclusive fun c s => s.upsert c.readings location m

def acquire : Act Bool := exclusive fun _ s => s.acquire key tier

def lookupAndAcquire : Act (Option BlockLocation) :=
  exclusive fun _ s => s.lookupAndAcquire key tier

def delete : Act Bool := exclusive fun _ s => s.delete key tier

def beginDelete : Act (Option BlockLocation) := exclusive fun _ s => s.beginDelete key tier

def finishDelete : Act Bool := exclusive fun _ s => s.finishDelete key tier

/-- How many rows there are, which bounds the rounds of a loop that removes one each time. -/
def rowCount : Act Nat := observe fun _ w => .ok w.store.blocks.rows.length

end Database

def lockMutation : Act Unit := fun t _ w =>
  if w.mutation.admits t then
    if w.store.closed then some (.error MetadataStore.mutationClosed, w)
    else some (.ok (), { w with mutation := w.mutation.enter t })
  else none

def unlockMutation : Act Unit := fun _ _ w => some (.ok (), { w with mutation := w.mutation.leave })

/-! ## Files -/

section Files

variable (path : Path)

def onFiles (f : Choice → World → Except PyError β) : Act β :=
  observe fun c w => if c.fails .file then .error (.bare .osError) else f c w

def fileExists : Act Bool := onFiles fun _ w => .ok (w.files.get path).isSome

def contentOf (w : World) : Except PyError Bytes :=
  match w.files.get path with
  | some bytes => .ok bytes
  | none => .error (.bare .fileNotFoundError)

def fileSize : Act Int := onFiles fun _ w => (contentOf path w).map fun bytes => bytes.length

/-- Open a file and read it; its content does not depend on how much is asked for. -/
def readContent : Act Bytes := onFiles fun _ w => contentOf path w

/-- `_write_tmp`: the temporary file is read by nobody before it replaces the block. -/
def writeTmp : Act Unit := onFiles fun _ _ => .ok ()

/-- `os.replace` of the temporary file that holds these bytes. -/
def replaceFile (bytes : Bytes) : Act Unit := fun _ c w =>
  if c.fails .file then some (.error (.bare .osError), w)
  else some (.ok (), { w with files := w.files.put path bytes })

def unlink : Act Unit := fun _ c w =>
  if c.fails .file then some (.error (.bare .osError), w)
  else if (w.files.get path).isNone then some (.error (.bare .fileNotFoundError), w)
  else some (.ok (), { w with files := w.files.erase path })

/-- Append to a file, which is created if it is missing. -/
def append (bytes : Bytes) : Act Unit := fun _ c w =>
  let old := (w.files.get path).getD []
  if c.fails .file then
    some (.error (.bare .osError), { w with files := w.files.put path (old ++ c.leftover) })
  else some (.ok (), { w with files := w.files.put path (old ++ bytes) })

/-- `sorted(dir.glob(…))`: the files of a directory whose names fit. -/
def filesIn (fits : Text → Bool) : Act (List Path) := onFiles fun _ w =>
  let here := (w.files.rows.map Prod.fst).filter fun file =>
    file.dropLast = path && fits (file.getLast?.getD [])
  .ok (here.insertionSort fun a b => strCode (a.getLast?.getD []) ≤ strCode (b.getLast?.getD []))

end Files

/-! ## Objects -/

section Objects

variable (objectKey : Text)

def missingObject (c : Choice) : PyError := ⟨if c.ambiguous then .notFound else .noSuchKey, c.reason⟩

def headObject : Act Unit := observe fun c w =>
  if c.fails .head then .error ⟨.clientError, c.reason⟩
  else if (w.objects.get objectKey).isSome then .ok () else .error (missingObject c)

/-- `get_object`; what stands under `"Body"`. -/
inductive Response where
  | noBody
  | unreadable (closeFails : Bool)
  | body (body : Body)

def getObject : Act Response := observe fun c w =>
  if c.fails .get then .error ⟨.clientError, c.reason⟩
  else
    match w.objects.get objectKey with
    | none => .error (missingObject c)
    | some data =>
      match c.bodyKind with
      | .absent => .ok .noBody
      | .unreadable => .ok (.unreadable c.closeFails)
      | .readable => .ok (.body { data, replies := c.replies, turn := 0, closeFails := c.closeFails })

def putObject (bytes : Bytes) : Act Unit := fun _ c w =>
  let written := { w with objects := w.objects.put objectKey bytes }
  if c.fails .put then some (.error ⟨.clientError, c.reason⟩, if c.carriedOut then written else w)
  else some (.ok (), written)

def deleteObject : Act Unit := fun _ c w =>
  let removed := { w with objects := w.objects.erase objectKey }
  if c.fails .delete then some (.error ⟨.clientError, c.reason⟩, if c.carriedOut then removed else w)
  else if (w.objects.get objectKey).isNone && c.strict then some (.error (missingObject c), w)
  else some (.ok (), removed)

end Objects

/-! ## The memory map -/

section Memory

variable (key : BlockKey)

def lockMemory : Act Unit := fun t _ w =>
  if w.memoryLock.admits t then
    some (.ok (), { w with memoryLock := w.memoryLock.enter t })
  else none

def unlockMemory : Act Unit := fun _ _ w =>
  some (.ok (), { w with memoryLock := w.memoryLock.leave })

def held (memory : List (BlockKey × Bytes)) : Option Bytes :=
  (memory.find? fun entry => entry.1 = key).map Prod.snd

def without (memory : List (BlockKey × Bytes)) : List (BlockKey × Bytes) :=
  memory.filter fun entry => entry.1 ≠ key

def memoryGet : Act (Option Bytes) := observe fun _ w => .ok (held key w.memory)

/-- `_used_bytes -= len(_data.pop(key))` -/
def memoryPop : Act Unit := fun _ _ w =>
  match held key w.memory with
  | some data =>
    some (.ok (), { w with memory := without key w.memory, usedBytes := w.usedBytes - data.length })
  | none => some (.error (.bare .keyError), w)

/-- `_data[key] = data` and `_used_bytes += len(data)`, for a key that is not there. -/
def memoryPut (data : Bytes) : Act Unit := fun _ _ w =>
  some (.ok (), { w with
    memory := without key w.memory ++ [(key, data)]
    usedBytes := w.usedBytes + data.length })

def memoryMoveToEnd : Act Unit := fun _ _ w =>
  match held key w.memory with
  | some data => some (.ok (), { w with memory := without key w.memory ++ [(key, data)] })
  | none => some (.error (.bare .keyError), w)

def memoryKeys : Act (List BlockKey) := observe fun _ w => .ok (w.memory.map Prod.fst)

def memoryUsed : Act Int := observe fun _ w => .ok w.usedBytes

end Memory

/-- `Prefetcher.submit`: the work itself is a call of another thread. -/
def submit : Act Submission := observe fun c _ => .ok c.submission

end Act

open Prog

/-- `with self.metadata_store.mutation(): …` -/
def withMutation {α : Type} (body : Py α) : Py α := do
  perform Act.lockMutation
  body.andFinally (perform Act.unlockMutation)

/-- `with self._lock: …` of the memory tier. -/
def withMemoryLock {α : Type} (body : Py α) : Py α := do
  perform Act.lockMemory
  body.andFinally (perform Act.unlockMemory)

end AiStorage.KV
