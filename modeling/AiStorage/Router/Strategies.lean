import AiStorage.Lib.Arithmetic
import AiStorage.Lib.Bytes
import AiStorage.Lib.MachineInt
import AiStorage.Lib.Selection
import AiStorage.Router.CacheIndex
import Mathlib.Data.List.Sort
import Mathlib.Data.Rat.Floor

/-!
# Routing strategies

`router/internal/routing`. The scoring strategies compute over an `Arithmetic`: over the
rationals, where every score is exact, unless another one is named, and over `Float64` as the
code runs. A strategy runs its state change under one mutex, so a pick is one transition; what
it reads from outside (the index, the clocks, the order of a `range` loop) are arguments.
-/
namespace AiStorage.Router
open Lib

def tierCPU : Tier := "cpu"
def tierNVMe : Tier := "nvme"

def localitySameNode : LocalityKind := "same_node"

def transportLocalNVMe : TransportKind := "local_nvme"

structure RequestContext where
  requestIDHash : Bytes := []
  tenantHash : String := ""
  blockHashes : List BlockHash := []
  blockSizeTokens : Int := 0
  entryTopology : Topology := {}

structure CandidateScore (F : Type := ℚ) [Arithmetic F] where
  workerID : WorkerID := ""
  score : F := (0 : ℚ)
  predictedOverlap : Nat := 0
  localOverlapBlocks : Nat := 0
  sharedOverlapBlocks : Nat := 0
  queueDepth : Int := 0
  activeDecodeBlocks : Int := 0
  memoryPressure : ℚ := 0
  topologyPenalty : ℚ := 0
  estimatedKVTransferMS : F := (0 : ℚ)
  egressCostClass : String := ""
  selectedTransport : TransportKind := ""
  topologyUnknown : Bool := false
  deriving DecidableEq

structure RouteDecision (F : Type := ℚ) [Arithmetic F] where
  requestIDHash : Bytes := []
  strategy : String := ""
  workerID : WorkerID := ""
  chosenTopology : Topology := {}
  overlappedBlocks : Nat := 0
  localOverlapBlocks : Nat := 0
  sharedOverlapBlocks : Nat := 0
  estimatedScore : WithBot F := ((0 : ℚ) : F)
  topologyPenalty : ℚ := 0
  estimatedKVTransferMS : F := (0 : ℚ)
  egressCostClass : String := ""
  selectedTransport : TransportKind := ""
  topologyUnknown : Bool := false
  fallback : Bool := false
  fallbackReason : String := ""
  candidateCount : Nat := 0
  reason : String := ""
  topCandidates : List (CandidateScore F) := []
  deriving DecidableEq

/-- How a pick can end without a decision: `ErrNoHealthyWorker`, or the run-time
panic of an index outside its slice. -/
inductive PickError where
  | noHealthyWorker
  | indexOutOfRange
  deriving DecidableEq

/-- The index as one query finds it: its contents and the clock it reads. -/
structure IndexView where
  idx : Index
  now : Time

def IndexView.overlap (view : IndexView) (req : RequestContext) (worker : WorkerID) : Nat :=
  view.idx.overlapByWorker view.now req.blockHashes worker

/-- `LocationsByWorker(blocks)[worker]`: the live locations, in the order of the blocks. -/
def IndexView.locations (view : IndexView) (req : RequestContext) (worker : WorkerID) :
    List BlockLocation :=
  req.blockHashes.filterMap fun block =>
    (view.idx.location block worker).filter fun loc => loc.expiresAt > view.now

def healthy (workers : List WorkerState) : List WorkerState :=
  workers.filter WorkerState.routable

def loadScore (w : WorkerState) : ℚ :=
  w.queueDepth + w.activeDecodeBlocks * (1 / 4) + w.resourcePressure * 4

/-- The sum of the queues is an `int`. -/
def averageQueue (workers : List WorkerState) (F : Type := ℚ) [Arithmetic F] : F :=
  if workers.length = 0 then (0 : ℚ)
  else ((wrapInt 64 (workers.map WorkerState.queueDepth).sum : ℚ) : F) / ((workers.length : ℚ) : F)

def findWorker (workers : List WorkerState) (id : WorkerID) : WorkerState :=
  (workers.find? fun worker => worker.id = id).getD { id := "", url := "" }

/-- `items[i]` for a Go `int` index. -/
def goIndex {α : Type} (items : List α) (i : Int) : Except PickError α :=
  if i < 0 then .error .indexOutOfRange
  else
    match items[i.toNat]? with
    | some item => .ok item
    | none => .error .indexOutOfRange

/-! ### Round robin -/

structure RoundRobin where
  next : Int := 0

/-- `RoundRobin.Pick` with an `int` of `bits` bits. -/
def RoundRobin.pickOn (bits : Nat) (r : RoundRobin) (req : RequestContext)
    (workers : List WorkerState) : Except PickError RouteDecision × RoundRobin :=
  let candidates := healthy workers
  if candidates.length = 0 then (.error .noHealthyWorker, r)
  else
    match goIndex candidates (r.next.tmod candidates.length) with
    | .error error => (.error error, r)
    | .ok worker =>
      (.ok { requestIDHash := req.requestIDHash, strategy := "round_robin", workerID := worker.id,
             candidateCount := candidates.length, reason := "round_robin" },
        { next := wrapInt bits (r.next + 1) })

def RoundRobin.pick (r : RoundRobin) (req : RequestContext) (workers : List WorkerState) :
    Except PickError RouteDecision × RoundRobin := r.pickOn 64 req workers

/-! ### Power of two choices -/

/-- `hash/fnv.New64a`: FNV-1a with 64 bits. -/
def fnv64a (bytes : Bytes) : Nat :=
  bytes.foldl (fun h b => (h ^^^ b.toNat) * 1099511628211 % 2 ^ 64) 14695981039346656037

def deterministicPair (key : Bytes) (n : Nat) : Nat × Nat :=
  let h := fnv64a key
  let x := h % n
  let y := (h / n + 1) % 2 ^ 64 % n
  if x = y then (x, (y + 1) % n) else (x, y)

def P2C.pick (req : RequestContext) (workers : List WorkerState) :
    Except PickError RouteDecision :=
  let candidates := healthy workers
  if candidates.length = 0 then .error .noHealthyWorker
  else if candidates.length = 1 then do
    let only ← goIndex candidates 0
    return { requestIDHash := req.requestIDHash, strategy := "p2c", workerID := only.id,
             candidateCount := 1, reason := "only_healthy_worker" }
  else do
    let pair := deterministicPair req.requestIDHash candidates.length
    let a ← goIndex candidates pair.1
    let b ← goIndex candidates pair.2
    let chosen := if loadScore b < loadScore a then b else a
    return { requestIDHash := req.requestIDHash, strategy := "p2c", workerID := chosen.id,
             candidateCount := candidates.length, reason := "lower_queue_power_of_two" }

/-! ### Longest cached prefix -/

/-- The test of the `PrefixHash` loop: more overlap, or equal overlap and less load. -/
def prefersWorker (overlap : WorkerID → Nat) (best worker : WorkerState) : Bool :=
  overlap worker.id > overlap best.id ||
    (overlap worker.id = overlap best.id && loadScore worker < loadScore best)

def PrefixHash.pick (req : RequestContext) (workers : List WorkerState) (view : IndexView) :
    Except PickError RouteDecision :=
  let candidates := healthy workers
  match candidates with
  | [] => .error .noHealthyWorker
  | first :: rest =>
    let overlap := view.overlap req
    let best := rest.foldl
      (fun best worker => if prefersWorker overlap best worker then worker else best) first
    .ok { requestIDHash := req.requestIDHash, strategy := "prefix_hash", workerID := best.id,
          overlappedBlocks := overlap best.id, candidateCount := candidates.length,
          reason := "highest_overlap" }

structure PrefixHashBoundedLoad where
  maxQueueRatio : ℚ := 0
  maxQueueSlack : Int := 0

namespace PrefixHashBoundedLoad

def ratio (p : PrefixHashBoundedLoad) : ℚ :=
  if p.maxQueueRatio ≤ 0 then 3 / 2 else p.maxQueueRatio

def slack (p : PrefixHashBoundedLoad) : Int := if p.maxQueueSlack = 0 then 4 else p.maxQueueSlack

/-- `int(x)` of a whole number; out of range it is what amd64 makes of it. -/
def goInt (n : Int) : Int := if -2 ^ 63 ≤ n ∧ n < 2 ^ 63 then n else -2 ^ 63

def threshold (p : PrefixHashBoundedLoad) (workers : List WorkerState) : Int :=
  wrapInt 64 (goInt ⌈averageQueue (healthy workers) * p.ratio⌉ + p.slack)

/-- The prefix choice, or the two-choice fallback when its queue is over the
threshold. The index is queried again for the fallback, hence a `later` view. -/
def pick (p : PrefixHashBoundedLoad) (req : RequestContext) (workers : List WorkerState)
    (view later : IndexView) : Except PickError RouteDecision := do
  let prefixDecision ← PrefixHash.pick req workers view
  let chosen := findWorker workers prefixDecision.workerID
  if chosen.queueDepth > p.threshold workers then
    let fallback ← P2C.pick req workers
    return { fallback with
      strategy := "prefix_hash_bounded_load"
      fallback := true
      fallbackReason := "bounded_load_spillover"
      overlappedBlocks := later.overlap req fallback.workerID
      reason := "bounded_load_spillover" }
  else
    return { prefixDecision with strategy := "prefix_hash_bounded_load" }

end PrefixHashBoundedLoad

/-! ### The scoring loop

The three scoring strategies run one loop: score a candidate, append it to the
report, and keep it when its score is strictly above the best so far. -/

section Loop

variable {F : Type} [Arithmetic F] [DecidableLT F]

structure Standing (F : Type := ℚ) [Arithmetic F] where
  best : WorkerState
  bestScore : WithBot F
  bestCandidate : CandidateScore F
  top : List (CandidateScore F)

def Standing.consider (score : WorkerState → CandidateScore F) (standing : Standing F)
    (worker : WorkerState) : Standing F :=
  let candidate := score worker
  let top := standing.top ++ [candidate]
  if standing.bestScore < candidate.score then
    { best := worker, bestScore := candidate.score, bestCandidate := candidate, top := top }
  else { standing with top := top }

/-- The loop over `candidates`, started at `first` with score `math.Inf(-1)`. -/
def rank (score : WorkerState → CandidateScore F) (first : WorkerState)
    (candidates : List WorkerState) : Standing F :=
  candidates.foldl (Standing.consider score) ⟨first, Arithmetic.lowest, {}, []⟩

/-- `sort.SliceStable` by descending score. -/
def sortByScore (top : List (CandidateScore F)) : List (CandidateScore F) :=
  top.insertionSort fun a b => ¬ a.score < b.score

end Loop

/-! ### Tenant-aware bounded load -/

/-- The order in which one `range` loop visits the entries of a map: any order. -/
structure RangeOrder where
  visit : List (Sigma fun _ : String => Time) → List (Sigma fun _ : String => Time)
  perm : ∀ entries, (visit entries).Perm entries

/-- What one pick is given and what it reads from outside the strategy: the index,
once more in `later` where a strategy queries it twice, the clock and the order of
a `range` loop. -/
structure PickCall where
  req : RequestContext
  workers : List WorkerState
  view : IndexView
  later : IndexView
  now : Time
  order : RangeOrder

/-- `now.Sub(seen)`, which saturates. -/
def timeSub (now seen : Time) : Int := max (-maxInt64 - 1) (min maxInt64 (now - seen))

abbrev TenantLoad := GoMap WorkerID Nat

/-- `tenantLoad[worker]`, zero when absent. -/
def TenantLoad.count (load : TenantLoad) (worker : WorkerID) : Nat := (load.lookup worker).getD 0

def TenantLoad.halve (load : TenantLoad) : TenantLoad × Nat :=
  load.entries.foldl
    (fun acc entry => (acc.1.insert entry.1 (entry.2 / 2), acc.2 + entry.2 / 2)) (load, 0)

def TenantLoad.total (load : TenantLoad) (candidates : List WorkerState) : Nat :=
  (candidates.map fun worker => load.count worker.id).sum

structure TenantAwareBoundedLoad where
  assignments : GoMap String TenantLoad := ∅
  lastSeen : GoMap String Time := ∅
  maxTenantQueueSlack : Int := 0
  maxGlobalQueueSlack : Int := 0
  maxTenantStates : Int := 0
  tenantStateTTL : Int := 0

namespace TenantAwareBoundedLoad

def globalSlack (t : TenantAwareBoundedLoad) : Int :=
  if t.maxGlobalQueueSlack = 0 then 4 else t.maxGlobalQueueSlack

def tenantSlack (t : TenantAwareBoundedLoad) : Int :=
  if t.maxTenantQueueSlack = 0 then 2 else t.maxTenantQueueSlack

def forget (t : TenantAwareBoundedLoad) (tenant : String) : TenantAwareBoundedLoad :=
  { t with lastSeen := t.lastSeen.erase tenant, assignments := t.assignments.erase tenant }

def pruneTenantState (t : TenantAwareBoundedLoad) (now : Time) : TenantAwareBoundedLoad :=
  let ttl := if t.tenantStateTTL ≤ 0 then 15 * 60 * 1000000000 else t.tenantStateTTL
  t.lastSeen.entries.foldl
    (fun t entry => if timeSub now entry.2 > ttl then t.forget entry.1 else t) t

def evictOldestTenant (t : TenantAwareBoundedLoad) (order : RangeOrder) :
    TenantAwareBoundedLoad :=
  let oldest := (order.visit t.lastSeen.entries).foldl
    (fun oldest entry => if oldest.1 = "" ∨ entry.2 < oldest.2 then entry else oldest) ⟨"", 0⟩
  if oldest.1 ≠ "" then t.forget oldest.1 else t

/-- The tenant's map after pruning, made when it is missing; the tenant is marked
as seen. -/
def openTenant (t : TenantAwareBoundedLoad) (tenant : String) (now : Time) (order : RangeOrder) :
    TenantAwareBoundedLoad × TenantLoad :=
  let t := t.pruneTenantState now
  match t.assignments.lookup tenant with
  | some load => ({ t with lastSeen := t.lastSeen.insert tenant now }, load)
  | none =>
    let maxStates := if t.maxTenantStates ≤ 0 then 4096 else t.maxTenantStates
    let t :=
      if (t.assignments.entries.length : Int) ≥ maxStates then t.evictOldestTenant order else t
    ({ t with assignments := t.assignments.insert tenant ∅
              lastSeen := t.lastSeen.insert tenant now }, ∅)

/-- The counts and the total that a pick goes on with: above a million everything
is halved, and the total is then taken over the whole map. -/
def settle (load : TenantLoad) (candidates : List WorkerState) : TenantLoad × Nat :=
  let tenantTotal := load.total candidates
  if tenantTotal > 1000000 then load.halve else (load, tenantTotal)

def tenantLimit (tenantTotal : Nat) (candidates : List WorkerState) (tenantSlack : Int) : Int :=
  (tenantTotal / candidates.length : Nat) + tenantSlack

def score {F : Type} [Arithmetic F] [DecidableLT F] (t : TenantAwareBoundedLoad)
    (load : TenantLoad) (limit : Int) (avgQueue : F) (overlap : WorkerID → Nat)
    (worker : WorkerState) : CandidateScore F :=
  let float : ℚ → F := (↑)
  let ov := overlap worker.id
  let tenantOverLimit := (load.count worker.id : Int) > limit
  let globalOverLimit := avgQueue + float t.globalSlack < float worker.queueDepth
  let score := float ov * float 8 - float worker.queueDepth * float (3 / 2)
    - float (load.count worker.id) * float 3 - float worker.resourcePressure * float 2
  let score := if tenantOverLimit then score - float 25 else score
  let score := if globalOverLimit then score - float 15 else score
  { workerID := worker.id, score := score, predictedOverlap := ov,
    queueDepth := worker.queueDepth, activeDecodeBlocks := worker.activeDecodeBlocks,
    memoryPressure := worker.resourcePressure }

def tenantKey (req : RequestContext) : String :=
  if req.tenantHash = "" then "unknown" else req.tenantHash

def opened (t : TenantAwareBoundedLoad) (call : PickCall) : TenantAwareBoundedLoad × TenantLoad :=
  t.openTenant (tenantKey call.req) call.now call.order

/-- The tenant's counts after any halving of this call, and `tenantTotal`. -/
def settled (t : TenantAwareBoundedLoad) (call : PickCall) : TenantLoad × Nat :=
  settle (t.opened call).2 (healthy call.workers)

def limit (t : TenantAwareBoundedLoad) (call : PickCall) : Int :=
  tenantLimit (t.settled call).2 (healthy call.workers) t.tenantSlack

def scoring (t : TenantAwareBoundedLoad) (call : PickCall) (F : Type := ℚ) [Arithmetic F]
    [DecidableLT F] : WorkerState → CandidateScore F :=
  t.score (t.settled call).1 (t.limit call) (averageQueue (healthy call.workers) F)
    (call.view.overlap call.req)

def pick (t : TenantAwareBoundedLoad) (call : PickCall) (F : Type := ℚ) [Arithmetic F]
    [DecidableLT F] : Except PickError (RouteDecision F) × TenantAwareBoundedLoad :=
  let candidates := healthy call.workers
  match candidates with
  | [] => (.error .noHealthyWorker, t)
  | first :: _ =>
    let opened := (t.opened call).1
    let tenantLoad := (t.settled call).1
    let standing := rank (t.scoring call F) first candidates
    let best := standing.best
    let bestOverlap := call.view.overlap call.req best.id
    let tenantLoad := tenantLoad.insert best.id (tenantLoad.count best.id + 1)
    (.ok { requestIDHash := call.req.requestIDHash, strategy := "tenant_aware_bounded_load",
           workerID := best.id, chosenTopology := best.topology, overlappedBlocks := bestOverlap,
           estimatedScore := standing.bestScore, candidateCount := candidates.length,
           reason := if bestOverlap = 0 then "tenant_no_reuse_degrade_to_load_aware"
             else "tenant_aware_bounded_load",
           topCandidates := sortByScore standing.top },
      { opened with assignments := opened.assignments.insert (tenantKey call.req) tenantLoad })

end TenantAwareBoundedLoad

/-! ### Cost-aware scoring -/

structure CostAwareWeights where
  hit : ℚ := 0
  shared : ℚ := 0
  prefill : ℚ := 0
  decode : ℚ := 0
  queue : ℚ := 0
  memory : ℚ := 0
  stale : ℚ := 0
  slo : ℚ := 0
  topology : ℚ := 0
  transfer : ℚ := 0
  egress : ℚ := 0

def orDefault (value fallback : ℚ) : ℚ := if value = 0 then fallback else value

structure CostAware where
  strategyName : String := ""
  weights : CostAwareWeights := {}
  usePrefillCost : Bool := false
  useQueueCost : Bool := false
  useDecodeCost : Bool := false
  useMemoryCost : Bool := false
  useStalePenalty : Bool := false
  useSLORisk : Bool := false

def newCostAwareVariant (name : String) : CostAware :=
  if name = "costaware_0_overlap_only" then { strategyName := name }
  else if name = "costaware_1_plus_queue" then { strategyName := name, useQueueCost := true }
  else if name = "costaware_2_plus_decode" then
    { strategyName := name, useQueueCost := true, useDecodeCost := true }
  else if name = "costaware_3_plus_memory" then
    { strategyName := name, useQueueCost := true, useDecodeCost := true, useMemoryCost := true }
  else if name = "costaware_4_plus_staleness" then
    { strategyName := name, useQueueCost := true, useDecodeCost := true, useMemoryCost := true,
      useStalePenalty := true }
  else
    { strategyName := name, usePrefillCost := true, useQueueCost := true, useDecodeCost := true,
      useMemoryCost := true, useStalePenalty := true, useSLORisk := true }

def requestBlockSize (req : RequestContext) : Int :=
  if req.blockSizeTokens > 0 then req.blockSizeTokens else 16

def predictedSLORisk {F : Type} [Arithmetic F] [DecidableLT F] (missingTokens : F)
    (worker : WorkerState) : F :=
  let float : ℚ → F := (↑)
  let predictedTTFT := missingTokens * float (8 / 100) + float worker.queueDepth * float (3 / 2)
    + float worker.activeDecodeBlocks * float (2 / 10)
  if float 100 < predictedTTFT then (predictedTTFT - float 100) / float 100 else float 0

namespace CostAware

def name (c : CostAware) : String :=
  if c.strategyName ≠ "" then c.strategyName else "cost_aware"

def normalized (c : CostAware) : CostAware :=
  if c.strategyName = "" && !c.usePrefillCost && !c.useQueueCost && !c.useDecodeCost &&
      !c.useMemoryCost && !c.useStalePenalty && !c.useSLORisk then
    newCostAwareVariant "cost_aware"
  else c

def effectiveWeights (c : CostAware) : CostAwareWeights :=
  { c.weights with
    hit := orDefault c.weights.hit 4
    prefill := orDefault c.weights.prefill (2 / 100)
    decode := orDefault c.weights.decode (5 / 10)
    queue := orDefault c.weights.queue 1
    memory := orDefault c.weights.memory 3
    stale := orDefault c.weights.stale (5 / 10)
    slo := orDefault c.weights.slo 2 }

def score (c : CostAware) (req : RequestContext) (overlap : WorkerID → Nat)
    (worker : WorkerState) (F : Type := ℚ) [Arithmetic F] [DecidableLT F] : CandidateScore F :=
  let float : ℚ → F := (↑)
  let w := c.effectiveWeights
  let ov := overlap worker.id
  let missingBlocks : Int := req.blockHashes.length - ov
  let missingTokens := missingBlocks * requestBlockSize req
  let score := float w.hit * float ov
  let score := if c.usePrefillCost then score - float w.prefill * float missingTokens else score
  let score :=
    if c.useDecodeCost then score - float w.decode * float worker.activeDecodeBlocks else score
  let score := if c.useQueueCost then score - float w.queue * float worker.queueDepth else score
  let score :=
    if c.useMemoryCost then score - float w.memory * float worker.resourcePressure else score
  let score := if c.useStalePenalty then
    score - float w.stale * (float worker.cacheStateStalenessMS / float 1000) else score
  let score := if c.useSLORisk then
    score - float w.slo * predictedSLORisk (float missingTokens) worker else score
  { workerID := worker.id, score := score, predictedOverlap := ov,
    queueDepth := worker.queueDepth, activeDecodeBlocks := worker.activeDecodeBlocks,
    memoryPressure := worker.resourcePressure }

def pick (c : CostAware) (req : RequestContext) (workers : List WorkerState) (view : IndexView)
    (F : Type := ℚ) [Arithmetic F] [DecidableLT F] : Except PickError (RouteDecision F) :=
  let c := c.normalized
  let candidates := healthy workers
  match candidates with
  | [] => .error .noHealthyWorker
  | first :: _ =>
    let overlap := view.overlap req
    let standing := rank (c.score req overlap · F) first candidates
    let best := standing.best
    .ok { requestIDHash := req.requestIDHash, strategy := c.name, workerID := best.id,
          chosenTopology := best.topology, overlappedBlocks := overlap best.id,
          estimatedScore := standing.bestScore, candidateCount := candidates.length,
          reason := if overlap best.id = 0 then "no_reuse_degrade_to_load_aware"
            else "highest_score",
          topCandidates := standing.top }

end CostAware

/-! ### Topology-aware scoring -/

def isLocalLocation (loc : BlockLocation) : Bool :=
  if loc.locality = localityLocal ∨ loc.locality = localitySameNode then true
  else if loc.transport = transportLocalMemory ∨ loc.transport = transportLocalNVMe then true
  else if loc.tier = tierGPU ∨ loc.tier = tierCPU ∨ loc.tier = tierNVMe then
    loc.locality = "" || loc.locality = localityUnknown
  else false

def estimatedTransferMS (loc : BlockLocation) : ℚ :=
  if loc.estimatedTransferP95Ms > 0 then loc.estimatedTransferP95Ms
  else if loc.estimatedLoadP95Ms > 0 then loc.estimatedLoadP95Ms
  else 0

def topologyPenalty (req worker : Topology) : ℚ × Bool :=
  if req.unknown || worker.unknown then (0, true)
  else if req.cloud ≠ worker.cloud then (10, false)
  else if req.region ≠ worker.region then (4, false)
  else if req.zone ≠ worker.zone then (3 / 2, false)
  else if req.clusterID ≠ worker.clusterID then (1 / 2, false)
  else if req.nodeID = worker.nodeID then (0, false)
  else (1 / 10, false)

def egressPenalty (class_ : String) : ℚ :=
  if class_ = "" ∨ class_ = "none" then 0
  else if class_ = "intra_zone" then 1 / 10
  else if class_ = "cross_zone" then 3 / 2
  else if class_ = "cross_region" then 4
  else if class_ = "cross_cloud" then 12
  else 1 / 2

def egressRank (class_ : String) : Nat :=
  if class_ = "" ∨ class_ = "none" then 0
  else if class_ = "intra_zone" then 1
  else if class_ = "cross_zone" then 2
  else if class_ = "cross_region" then 3
  else if class_ = "cross_cloud" then 4
  else 1

def worseEgressClass (a b : String) : String := if egressRank b > egressRank a then b else a

/-- What the location loop of `scoreWorker` adds up. -/
structure Reuse (F : Type := ℚ) [Arithmetic F] where
  localOverlap : Nat := 0
  sharedOverlap : Nat := 0
  transferMS : F := (0 : ℚ)
  selectedTransport : TransportKind := transportUnknown
  egressClass : String := "none"

def Reuse.add {F : Type} [Arithmetic F] (reuse : Reuse F) (loc : BlockLocation) : Reuse F :=
  if isLocalLocation loc then
    { reuse with
      localOverlap := reuse.localOverlap + 1
      selectedTransport := if reuse.selectedTransport = transportUnknown then loc.transport
        else reuse.selectedTransport }
  else
    { reuse with
      sharedOverlap := reuse.sharedOverlap + 1
      transferMS := reuse.transferMS + (estimatedTransferMS loc : F)
      selectedTransport := loc.transport
      egressClass := worseEgressClass reuse.egressClass loc.egressCostClass }

def topologyDecisionReason {F : Type} [Arithmetic F] [DecidableLT F]
    (top : List (CandidateScore F)) (best : CandidateScore F) : String :=
  if best.topologyUnknown then "topology_unknown_score"
  else if best.sharedOverlapBlocks > 0 ∧ best.localOverlapBlocks = 0 ∧
      best.egressCostClass = "cross_cloud" then "cross_cloud_hit_penalized"
  else
    (top.findSome? fun candidate =>
      if candidate.workerID = best.workerID then none
      else if candidate.localOverlapBlocks > best.localOverlapBlocks ∧
          candidate.queueDepth > best.queueDepth + 8 ∧ best.sharedOverlapBlocks > 0 then
        some "same_zone_remote_load_lower_than_hot_local_queue"
      else if candidate.egressCostClass = "cross_cloud" ∧
          candidate.sharedOverlapBlocks > best.sharedOverlapBlocks ∧
          best.estimatedKVTransferMS < candidate.estimatedKVTransferMS then
        some "cross_cloud_hit_skipped_by_transfer_cost"
      else none).getD "topology_aware_highest_score"

structure TopologyAwareCostAware where
  weights : CostAwareWeights := {}

namespace TopologyAwareCostAware

def normalizedWeights (t : TopologyAwareCostAware) : CostAwareWeights where
  hit := orDefault t.weights.hit 4
  shared := orDefault t.weights.shared (32 / 10)
  prefill := orDefault t.weights.prefill (2 / 100)
  decode := orDefault t.weights.decode (5 / 10)
  queue := orDefault t.weights.queue 1
  memory := orDefault t.weights.memory 3
  stale := orDefault t.weights.stale (5 / 10)
  slo := orDefault t.weights.slo 2
  topology := orDefault t.weights.topology 1
  transfer := orDefault t.weights.transfer (12 / 100)
  egress := orDefault t.weights.egress 1

def scoreWorker (t : TopologyAwareCostAware) (req : RequestContext)
    (locations : WorkerID → List BlockLocation) (worker : WorkerState) (F : Type := ℚ)
    [Arithmetic F] [DecidableLT F] : CandidateScore F :=
  let float : ℚ → F := (↑)
  let w := t.normalizedWeights
  let reuse := (locations worker.id).foldl Reuse.add ({} : Reuse F)
  let missingBlocks : Int :=
    max 0 (req.blockHashes.length - reuse.localOverlap - reuse.sharedOverlap)
  let missingTokens := missingBlocks * requestBlockSize req
  let penalty := topologyPenalty req.entryTopology worker.topology
  let score := float w.hit * float reuse.localOverlap + float w.shared * float reuse.sharedOverlap
    - float w.prefill * float missingTokens - float w.decode * float worker.activeDecodeBlocks
    - float w.queue * float worker.queueDepth - float w.memory * float worker.resourcePressure
    - float w.stale * (float worker.cacheStateStalenessMS / float 1000)
    - float w.slo * predictedSLORisk (float missingTokens) worker
    - float w.topology * float penalty.1 - float w.transfer * reuse.transferMS
    - float w.egress * float (egressPenalty reuse.egressClass)
  { workerID := worker.id, score := score,
    predictedOverlap := reuse.localOverlap + reuse.sharedOverlap,
    localOverlapBlocks := reuse.localOverlap, sharedOverlapBlocks := reuse.sharedOverlap,
    queueDepth := worker.queueDepth, activeDecodeBlocks := worker.activeDecodeBlocks,
    memoryPressure := worker.resourcePressure, topologyPenalty := penalty.1,
    estimatedKVTransferMS := reuse.transferMS, egressCostClass := reuse.egressClass,
    selectedTransport := reuse.selectedTransport, topologyUnknown := penalty.2 }

def pick (t : TopologyAwareCostAware) (req : RequestContext) (workers : List WorkerState)
    (view : IndexView) (F : Type := ℚ) [Arithmetic F] [DecidableLT F] :
    Except PickError (RouteDecision F) :=
  let candidates := healthy workers
  match candidates with
  | [] => .error .noHealthyWorker
  | first :: _ =>
    let standing := rank (t.scoreWorker req (view.locations req) · F) first candidates
    let best := standing.best
    let bestCandidate := standing.bestCandidate
    let top := sortByScore standing.top
    .ok { requestIDHash := req.requestIDHash, strategy := "topology_aware_cost_aware",
          workerID := best.id, chosenTopology := best.topology,
          overlappedBlocks := bestCandidate.localOverlapBlocks + bestCandidate.sharedOverlapBlocks,
          localOverlapBlocks := bestCandidate.localOverlapBlocks,
          sharedOverlapBlocks := bestCandidate.sharedOverlapBlocks,
          estimatedScore := standing.bestScore, topologyPenalty := bestCandidate.topologyPenalty,
          estimatedKVTransferMS := bestCandidate.estimatedKVTransferMS,
          egressCostClass := bestCandidate.egressCostClass,
          selectedTransport := bestCandidate.selectedTransport,
          topologyUnknown := bestCandidate.topologyUnknown,
          candidateCount := candidates.length,
          reason := topologyDecisionReason top bestCandidate, topCandidates := top }

end TopologyAwareCostAware

/-! ### The strategies together -/

/-- A `Strategy` value with its configuration and internal state. -/
inductive Strategy where
  | roundRobin (r : RoundRobin)
  | p2c
  | prefixHash
  | prefixHashBoundedLoad (p : PrefixHashBoundedLoad)
  | tenantAwareBoundedLoad (t : TenantAwareBoundedLoad)
  | costAware (c : CostAware)
  | topologyAwareCostAware (t : TopologyAwareCostAware)

def Strategy.pick (strategy : Strategy) (call : PickCall) :
    Except PickError RouteDecision × Strategy :=
  match strategy with
  | .roundRobin r => (r.pick call.req call.workers).map id .roundRobin
  | .p2c => (P2C.pick call.req call.workers, strategy)
  | .prefixHash => (PrefixHash.pick call.req call.workers call.view, strategy)
  | .prefixHashBoundedLoad p => (p.pick call.req call.workers call.view call.later, strategy)
  | .tenantAwareBoundedLoad t => (t.pick call).map id .tenantAwareBoundedLoad
  | .costAware c => (c.pick call.req call.workers call.view, strategy)
  | .topologyAwareCostAware t => (t.pick call.req call.workers call.view, strategy)

end AiStorage.Router
