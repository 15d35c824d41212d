import AiStorage.Router.CacheIndex

/-!
# Worker registry of the proxy handler

`router/internal/proxy`: configuration of the workers, admin replacement and draining, and the
reservations of requests. `url.Parse`, `net.SplitHostPort`, `net.ParseIP` and `strconv.Quote`
are the fields of `GoLib`, of which nothing is assumed.
-/
namespace AiStorage.Router

structure URL where
  scheme : String
  host : String
  hostname : String
  hasUser : Bool := false
  rawQuery : String := ""
  fragment : String := ""

structure GoLib where
  parseURL : String → Except String URL
  splitHostPort : String → Except String String
  /-- `net.ParseIP` followed by `IsLoopback`; `none` when the text is no address. -/
  parseIP : String → Option Bool
  quote : String → String

/-- Simple case folding of a character compared with an ASCII one. -/
def foldASCII (c : Char) : Char :=
  if c = 'ſ' then 's' else if c = 'K' then 'k' else c.toLower

/-- `strings.EqualFold` against a lower-case ASCII literal. -/
def equalFold (text literal : String) : Bool := text.toList.map foldASCII = literal.toList

/-- `strings.Trim(text, cutset)`. -/
def trim (cutset : List Char) (text : String) : String :=
  let front := text.toList.dropWhile (· ∈ cutset)
  String.ofList (front.reverse.dropWhile (· ∈ cutset)).reverse

def validateWorkerURL (lib : GoLib) (raw : String) : Except String Unit := do
  let parsed ← lib.parseURL raw
  if !equalFold parsed.scheme "http" && !equalFold parsed.scheme "https" then
    throw "worker url scheme must be http or https"
  if parsed.host = "" || parsed.hostname = "" then
    throw "worker url must be absolute"
  if parsed.hasUser then
    throw "worker url must not contain userinfo"
  if parsed.rawQuery ≠ "" || parsed.fragment ≠ "" then
    throw "worker url must not contain a query or fragment"

def isLoopbackHost (lib : GoLib) (host : String) : Bool :=
  let host := trim ['[', ']'] host
  equalFold host "localhost" || lib.parseIP host = some true

/-- The readiness that `normalizeWorkerDefaults` derives from a health state. -/
def defaultReadiness (health : WorkerHealthState) : WorkerReadinessState :=
  if health = workerReady then readinessReady
  else if health = workerDraining then readinessDraining
  else if health = workerUnhealthy then readinessUnhealthy
  else readinessNotReady

/-- The first two blocks of `normalizeWorkerDefaults`: health, then readiness. -/
def fillReadiness (worker : WorkerState) : WorkerState :=
  let health := if worker.health = "" then workerReady else worker.health
  { worker with
    health := health
    readinessState :=
      if worker.readinessState = "" then defaultReadiness health else worker.readinessState
    draining := worker.draining || (worker.readinessState = "" && health = workerDraining) }

def fillDraining (worker : WorkerState) : WorkerState :=
  if worker.draining || worker.health = workerDraining ||
      worker.readinessState = readinessDraining then
    { worker with
      draining := true
      health := workerDraining
      readinessState := readinessDraining }
  else worker

def normalizeWorkerDefaults (worker : WorkerState) (fallbackTopology : Topology) : WorkerState :=
  let worker := fillDraining (fillReadiness worker)
  { worker with
    memoryPressure :=
      if worker.memoryPressure = 0 && (worker.gpuMemoryPressure > 0 || worker.kvCachePressure > 0)
      then worker.resourcePressure else worker.memoryPressure
    topology := if worker.topology.unknown then fallbackTopology else worker.topology }

/-! ## Configuration -/

structure Config where
  listenAddr : String := ""
  adminAddr : String := ""
  cacheTTLMS : Int := 0
  entryTopology : Topology := {}
  workers : List WorkerState

def defaultEntryTopology : Topology :=
  { cloud := "local", region := "local", zone := "zone-a", clusterID := "cluster-a",
    nodeID := "router-local" }

/-- `ApplyDefaults`; `now i` is the clock read for the `i`-th worker. -/
def Config.applyDefaults (cfg : Config) (now : Nat → Time) : Config :=
  let entry := if cfg.entryTopology.unknown then defaultEntryTopology else cfg.entryTopology
  { listenAddr := if cfg.listenAddr = "" then "127.0.0.1:8080" else cfg.listenAddr
    adminAddr := if cfg.adminAddr = "" then "127.0.0.1:9090" else cfg.adminAddr
    cacheTTLMS := if cfg.cacheTTLMS ≤ 0 then 30000 else cfg.cacheTTLMS
    entryTopology := entry
    workers := cfg.workers.mapIdx fun i worker =>
      let worker := normalizeWorkerDefaults worker entry
      { worker with lastUpdated := if worker.lastUpdated = 0 then now i else worker.lastUpdated } }

def validateWorkers (lib : GoLib) (seen : List WorkerID) : List WorkerState → Except String Unit
  | [] => pure ()
  | worker :: rest => do
    if worker.id = "" then throw "worker id must not be empty"
    if worker.url = "" then throw "worker url must not be empty"
    match validateWorkerURL lib worker.url with
    | .error message =>
      throw ("worker " ++ lib.quote worker.id ++ " has invalid url: " ++ message)
    | .ok () => pure ()
    if worker.id ∈ seen then throw ("duplicate worker id " ++ lib.quote worker.id)
    if worker.routerInflightRequests ≠ 0 then
      throw ("worker " ++ lib.quote worker.id ++
        " router_inflight_requests is router-managed and must not be configured")
    if worker.queueDepth < 0 || worker.activeDecodeBlocks < 0 || worker.inflightRequests < 0 then
      throw ("worker " ++ lib.quote worker.id ++
        " queue, decode, and inflight counts must be non-negative")
    validateWorkers lib (worker.id :: seen) rest

def Config.validate (lib : GoLib) (cfg : Config) : Except String Unit := do
  if cfg.listenAddr = cfg.adminAddr then
    throw "router public and admin listeners must be different"
  match lib.splitHostPort cfg.adminAddr with
  | .error message => throw ("invalid router admin_addr: " ++ message)
  | .ok adminHost =>
    if !isLoopbackHost lib adminHost then throw "router admin_addr must bind to loopback"
  if cfg.workers.isEmpty then throw "router config must contain at least one worker"
  validateWorkers lib [] cfg.workers

/-! ## The handler -/

/-- The fields of `Handler` that the registry and its index use. -/
structure Handler where
  index : Index
  entryTopology : Topology
  workers : List WorkerState
  routerInflight : GoMap WorkerID Int

def newHandler (lib : GoLib) (cfg : Config) (now : Nat → Time) : Except String Handler := do
  let cfg := cfg.applyDefaults now
  cfg.validate lib
  pure
    { index := Index.new (cfg.cacheTTLMS * 1000000)
      entryTopology := cfg.entryTopology
      workers := cfg.workers
      routerInflight := ∅ }

namespace Handler

def inflight (h : Handler) (id : WorkerID) : Int := (h.routerInflight.lookup id).getD 0

def workerSnapshotLocked (h : Handler) (worker : WorkerState) : WorkerState :=
  { worker with routerInflightRequests := h.inflight worker.id }

def snapshotWorkers (h : Handler) : List WorkerState := h.workers.map h.workerSnapshotLocked

def ready (h : Handler) : Bool := h.snapshotWorkers.any (·.routable)

def reserveRoutableWorker (lib : GoLib) (h : Handler) (id : WorkerID) :
    Except String WorkerState × Handler :=
  match h.workers.find? (·.id = id) with
  | none => (.error ("selected worker " ++ lib.quote id ++ " is no longer registered"), h)
  | some worker =>
    if !worker.routable then
      (.error ("selected worker " ++ lib.quote id ++ " is no longer routable"), h)
    else
      let h := { h with routerInflight := h.routerInflight.insert id (h.inflight id + 1) }
      (.ok (h.workerSnapshotLocked worker), h)

def releaseWorker (h : Handler) (id : WorkerID) : Handler :=
  if h.inflight id ≤ 1 then { h with routerInflight := h.routerInflight.erase id }
  else { h with routerInflight := h.routerInflight.insert id (h.inflight id - 1) }

end Handler

/-! ## Draining -/

def setDraining (drain : Bool) (now : Time) (worker : WorkerState) : WorkerState :=
  if drain then
    { worker with
      health := workerDraining
      readinessState := readinessDraining
      draining := true
      lastUpdated := now }
  else
    { worker with
      health := workerReady
      readinessState := readinessReady
      draining := false
      lastUpdated := now }

def drainFirst (id : WorkerID) (drain : Bool) (now : Time) :
    List WorkerState → Option (WorkerState × List WorkerState)
  | [] => none
  | worker :: rest =>
    if worker.id ≠ id then
      (drainFirst id drain now rest).map fun (found, rest) => (found, worker :: rest)
    else some (setDraining drain now worker, setDraining drain now worker :: rest)

/-- What the admin endpoints answer. -/
inductive Blocked where
  | identityChange (id : WorkerID)
  | notSafeToRemove (id : WorkerID) (queueDepth activeDecodeBlocks inflightRequests
      routerInflightRequests effectiveInflightRequests : Int)
  deriving DecidableEq

inductive Reply where
  | text (status : Nat) (body : String)
  | worker (worker : WorkerState)
  | updatedWorkers (count : Nat)
  | blockedWorkers (blocked : List Blocked)
  deriving DecidableEq

/-- `handleWorkerDrain` once the path has named a worker. -/
def Handler.handleWorkerDrain (h : Handler) (id : WorkerID) (drain : Bool) (now : Time) :
    Reply × Handler :=
  match drainFirst id drain now h.workers with
  | none => (.text 404 "worker not found\n", h)
  | some (found, workers) =>
    let h := { h with workers := workers }
    (.worker (h.workerSnapshotLocked found), h)

/-! ## Replacement -/

/-- The validation loop of `handleReplaceWorkers`, which also fills the defaults
and stamps each worker. -/
def prepareWorkers (lib : GoLib) (entryTopology : Topology) (now : Nat → Time)
    (seen : List WorkerID) : List WorkerState → Except String (List WorkerState)
  | [] => pure []
  | worker :: rest => do
    if worker.id = "" || worker.url = "" then throw "worker id and url are required\n"
    match validateWorkerURL lib worker.url with
    | .error _ => throw "invalid worker url\n"
    | .ok () => pure ()
    if worker.id ∈ seen then throw "duplicate worker id\n"
    if worker.routerInflightRequests ≠ 0 then throw "router_inflight_requests is read-only\n"
    if worker.queueDepth < 0 || worker.activeDecodeBlocks < 0 || worker.inflightRequests < 0 then
      throw "worker queue, decode, and inflight counts must be non-negative\n"
    let prepared :=
      { normalizeWorkerDefaults worker entryTopology with lastUpdated := now seen.length }
    let rest ← prepareWorkers lib entryTopology now (worker.id :: seen) rest
    pure (prepared :: rest)

def nextWorkers (workers : List WorkerState) : GoMap WorkerID WorkerState :=
  workers.foldl (fun next worker => next.insert worker.id worker) ∅

/-- One iteration of `workerReplacementConflicts`. -/
def replacementConflict (next : GoMap WorkerID WorkerState) (routerInflight : WorkerID → Int)
    (worker : WorkerState) : Option Blocked :=
  match next.lookup worker.id with
  | some replacement =>
    if worker.url ≠ replacement.url || worker.topology ≠ replacement.topology then
      some (.identityChange worker.id)
    else none
  | none =>
    let worker := { worker with routerInflightRequests := routerInflight worker.id }
    if worker.safeToRemove then none
    else
      some (.notSafeToRemove worker.id worker.queueDepth worker.activeDecodeBlocks
        worker.inflightRequests worker.routerInflightRequests worker.effectiveInflightRequests)

def workerReplacementConflicts (oldWorkers newWorkers : List WorkerState)
    (routerInflight : WorkerID → Int) : List Blocked :=
  oldWorkers.filterMap (replacementConflict (nextWorkers newWorkers) routerInflight)

def removedWorkerIDs (oldWorkers newWorkers : List WorkerState) : List WorkerID :=
  (oldWorkers.filter fun worker => ((nextWorkers newWorkers).lookup worker.id).isNone).map (·.id)

def pruneInflight (routerInflight : GoMap WorkerID Int) (workers : List WorkerState) :
    GoMap WorkerID Int :=
  routerInflight.keys.foldl
    (fun kept id =>
      if kept.lookup id = some 0 ∧ id ∉ workers.map (·.id) then kept.erase id else kept)
    routerInflight

/-- `handleReplaceWorkers` up to the loop of `EvictWorker` calls: the reply, the
new handler and the retired IDs that the loop visits before the lock is dropped. -/
def Handler.handleReplaceWorkers (lib : GoLib) (h : Handler) (workers : List WorkerState)
    (now : Nat → Time) : Reply × Handler × List WorkerID :=
  if workers.isEmpty then (.text 400 "workers must not be empty\n", h, [])
  else
    match prepareWorkers lib h.entryTopology now [] workers with
    | .error message => (.text 400 message, h, [])
    | .ok workers =>
      let blocked := workerReplacementConflicts h.workers workers h.inflight
      if !blocked.isEmpty then (.blockedWorkers blocked, h, [])
      else
        (.updatedWorkers workers.length,
          { h with
            workers := workers
            routerInflight := pruneInflight h.routerInflight workers },
          removedWorkerIDs h.workers workers)

end AiStorage.Router
