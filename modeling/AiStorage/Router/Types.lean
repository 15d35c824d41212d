import Mathlib.Data.List.AList
import Mathlib.Data.Rat.Defs

/-!
# Router data types

The records of `router/internal/common`. Go strings that carry identity stay
strings, the `float64` telemetry fields are exact rationals, and `time.Time` is
a count of nanoseconds whose zero value is Go's zero time.
-/
namespace AiStorage.Router

abbrev WorkerID := String
abbrev BlockHash := String
abbrev Tier := String
abbrev WorkerHealthState := String
abbrev WorkerReadinessState := String
abbrev LocalityKind := String
abbrev TransportKind := String
abbrev Time := Int

/-- A Go map: unordered lookups, at most one entry for a key. -/
abbrev GoMap (α β : Type) := AList (fun _ : α => β)

def tierGPU : Tier := "gpu"

def workerReady : WorkerHealthState := "ready"
def workerDraining : WorkerHealthState := "draining"
def workerUnhealthy : WorkerHealthState := "unhealthy"

def readinessReady : WorkerReadinessState := "ready"
def readinessNotReady : WorkerReadinessState := "not_ready"
def readinessDraining : WorkerReadinessState := "draining"
def readinessUnhealthy : WorkerReadinessState := "unhealthy"

def localityLocal : LocalityKind := "local"
def localityUnknown : LocalityKind := "unknown"

def transportLocalMemory : TransportKind := "local_memory"
def transportUnknown : TransportKind := "unknown"

def maxInt64 : Int := 9223372036854775807

structure Topology where
  cloud : String := ""
  region : String := ""
  zone : String := ""
  clusterID : String := ""
  rack : String := ""
  nodeID : String := ""
  deriving DecidableEq

def Topology.unknown (t : Topology) : Bool :=
  t.cloud = "" || t.region = "" || t.zone = "" || t.clusterID = "" || t.nodeID = ""

structure WorkerState where
  id : WorkerID
  url : String
  health : WorkerHealthState := ""
  readinessState : WorkerReadinessState := ""
  draining : Bool := false
  queueDepth : Int := 0
  activeDecodeBlocks : Int := 0
  inflightRequests : Int := 0
  routerInflightRequests : Int := 0
  memoryPressure : ℚ := 0
  gpuMemoryPressure : ℚ := 0
  kvCachePressure : ℚ := 0
  recentErrorRate : ℚ := 0
  cacheStateStalenessMS : ℚ := 0
  weight : ℚ := 0
  topology : Topology := {}
  lastHeartbeat : Time := 0
  lastUpdated : Time := 0
  deriving DecidableEq

def WorkerState.routable (w : WorkerState) : Bool :=
  if w.draining || w.health = workerDraining || w.health = workerUnhealthy then false
  else if w.readinessState = "" || w.readinessState = readinessReady then
    w.health = "" || w.health = workerReady
  else false

def WorkerState.resourcePressure (w : WorkerState) : ℚ :=
  let pressure := w.memoryPressure
  let pressure := if w.gpuMemoryPressure > pressure then w.gpuMemoryPressure else pressure
  if w.kvCachePressure > pressure then w.kvCachePressure else pressure

def WorkerState.effectiveInflightRequests (w : WorkerState) : Int :=
  w.inflightRequests + w.routerInflightRequests

def WorkerState.safeToRemove (w : WorkerState) : Bool :=
  w.draining && w.activeDecodeBlocks = 0 && w.effectiveInflightRequests = 0 && w.queueDepth = 0

structure BlockLocation where
  blockHash : BlockHash := ""
  workerID : WorkerID := ""
  tier : Tier := ""
  topology : Topology := {}
  locality : LocalityKind := ""
  transport : TransportKind := ""
  estimatedLoadP95Ms : ℚ := 0
  estimatedTransferP95Ms : ℚ := 0
  egressCostClass : String := ""
  bytes : Int := 0
  tokens : Int := 0
  seqNo : Int := 0
  confidence : ℚ := 0
  updatedAt : Time := 0
  expiresAt : Time := 0
  deriving DecidableEq

end AiStorage.Router
