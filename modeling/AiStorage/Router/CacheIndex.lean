import AiStorage.Router.Types

/-!
# The Router's cache index

`router/internal/cacheindex`. Every exported method runs under the index mutex, so it is one
state transformer here. Clock readings are arguments; a method that can fail returns its error
beside the state it leaves, because in Go an error does not undo what was already written.
-/
namespace AiStorage.Router

structure Index where
  byBlock : GoMap BlockHash (GoMap WorkerID BlockLocation)
  ttl : Int
  nextSeqNo : Int
  appliedEventIDs : GoMap String Unit
  lastSeqByWorker : GoMap WorkerID Int

structure Event where
  schemaVersion : Int := 0
  eventID : String := ""
  eventType : String
  blockHash : BlockHash := ""
  workerID : WorkerID := ""
  tier : Tier := ""
  tokens : Int := 0
  seqNo : Int := 0
  location : Option BlockLocation := none
  timestampMS : Int := 0
  deriving DecidableEq

/-- The clock readings of one call, in the order the source takes them. -/
structure Clock where
  updatedAt : Time
  expiresBase : Time
  now : Time
  deriving DecidableEq

namespace Index

def new (ttl : Int) : Index where
  byBlock := ∅
  ttl := if ttl ≤ 0 then 30000000000 else ttl
  nextSeqNo := 0
  appliedEventIDs := ∅
  lastSeqByWorker := ∅

/-- `idx.byBlock[block][worker]`, absent when either level is. -/
def location (idx : Index) (block : BlockHash) (worker : WorkerID) : Option BlockLocation :=
  (idx.byBlock.lookup block).bind fun locations => locations.lookup worker

/-- `idx.lastSeqByWorker[worker]`, zero when absent. -/
def lastSeq (idx : Index) (worker : WorkerID) : Int :=
  (idx.lastSeqByWorker.lookup worker).getD 0

def markWorkerSeqLocked (idx : Index) (worker : WorkerID) (seqNo : Int) : Index :=
  if worker = "" ∨ seqNo ≤ 0 then idx
  else if seqNo > idx.lastSeq worker then
    { idx with lastSeqByWorker := idx.lastSeqByWorker.insert worker seqNo }
  else idx

def seqFreshLocked (idx : Index) (worker : WorkerID) (seqNo : Int) : Bool :=
  if worker = "" ∨ seqNo ≤ 0 then true else seqNo ≥ idx.lastSeq worker

end Index

/-- Zero-value defaults of a location; `storeLocationLocked` and snapshot restore
apply the same list. -/
def normalizeLocation (loc : BlockLocation) (now : Time) (ttl : Int) : BlockLocation :=
  { loc with
    updatedAt := if loc.updatedAt = 0 then now else loc.updatedAt
    expiresAt := if loc.expiresAt = 0 then now + ttl else loc.expiresAt
    confidence := if loc.confidence = 0 then 1 else loc.confidence
    locality := if loc.locality = "" then localityUnknown else loc.locality
    transport := if loc.transport = "" then transportUnknown else loc.transport
    egressCostClass := if loc.egressCostClass = "" then "unknown" else loc.egressCostClass }

namespace Index

def storeLocationLocked (idx : Index) (now : Time) (loc : BlockLocation)
    (rejectStale producerOrdered : Bool) : Bool × Index :=
  let revision := if idx.nextSeqNo < maxInt64 then idx.nextSeqNo + 1 else idx.nextSeqNo
  let idx := { idx with
    nextSeqNo := if loc.seqNo ≠ 0 ∧ loc.seqNo > revision then loc.seqNo else revision }
  let loc := { loc with seqNo := if loc.seqNo = 0 then revision else loc.seqNo }
  let loc := normalizeLocation loc now idx.ttl
  if rejectStale && producerOrdered && !idx.seqFreshLocked loc.workerID loc.seqNo then (false, idx)
  else
    let locations := (idx.byBlock.lookup loc.blockHash).getD ∅
    let idx := { idx with
      byBlock := idx.byBlock.insert loc.blockHash (locations.insert loc.workerID loc) }
    (true, if producerOrdered then idx.markWorkerSeqLocked loc.workerID loc.seqNo else idx)

def store (idx : Index) (now : Time) (later : Time) (block : BlockHash) (worker : WorkerID)
    (tier : Tier) (tokens : Int) : Index :=
  (idx.storeLocationLocked later
    { blockHash := block, workerID := worker, tier := tier, locality := localityLocal,
      transport := transportLocalMemory, egressCostClass := "none", tokens := tokens,
      confidence := 1, updatedAt := now, expiresAt := now + idx.ttl } false false).2

def storeLocation (idx : Index) (now : Time) (loc : BlockLocation) : Index :=
  (idx.storeLocationLocked now loc true (loc.seqNo > 0)).2

/-- `delete(locations, worker)` and, when that empties the inner map, the outer entry. -/
def dropLocation (byBlock : GoMap BlockHash (GoMap WorkerID BlockLocation)) (block : BlockHash)
    (locations : GoMap WorkerID BlockLocation) (worker : WorkerID) :
    GoMap BlockHash (GoMap WorkerID BlockLocation) :=
  let locations := locations.erase worker
  if locations.entries.isEmpty then byBlock.erase block else byBlock.insert block locations

def evictLocked (idx : Index) (block : BlockHash) (worker : WorkerID) (seqNo : Int)
    (rejectStale : Bool) : Bool × Index :=
  if rejectStale && !idx.seqFreshLocked worker seqNo then (false, idx)
  else
    match idx.byBlock.lookup block with
    | none => (true, idx.markWorkerSeqLocked worker seqNo)
    | some locations =>
      match locations.lookup worker with
      | none => (false, idx.markWorkerSeqLocked worker seqNo)
      | some loc =>
        if seqNo < loc.seqNo then (false, idx.markWorkerSeqLocked worker seqNo)
        else
          let idx := { idx with byBlock := dropLocation idx.byBlock block locations worker }
          (true, idx.markWorkerSeqLocked worker seqNo)

def evict (idx : Index) (block : BlockHash) (worker : WorkerID) (seqNo : Int) : Index :=
  (idx.evictLocked block worker seqNo true).2

def evictWorkerBlock (worker : WorkerID)
    (acc : GoMap BlockHash (GoMap WorkerID BlockLocation) × Nat) (block : BlockHash) :
    GoMap BlockHash (GoMap WorkerID BlockLocation) × Nat :=
  match acc.1.lookup block with
  | none => acc
  | some locations =>
    match locations.lookup worker with
    | none => acc
    | some _ => (dropLocation acc.1 block locations worker, acc.2 + 1)

def evictWorker (idx : Index) (worker : WorkerID) : Nat × Index :=
  let swept := idx.byBlock.keys.foldl (evictWorkerBlock worker) (idx.byBlock, 0)
  (swept.2, { idx with byBlock := swept.1, lastSeqByWorker := idx.lastSeqByWorker.erase worker })

def overlapByWorker (idx : Index) (now : Time) (blocks : List BlockHash) (worker : WorkerID) : Nat :=
  blocks.countP fun block =>
    match idx.location block worker with
    | some loc => loc.expiresAt > now
    | none => false

end Index

/-- An event and its embedded location lend each other the identity and sequence
the other one lacks. -/
def fillFromLocation (event : Event) (loc : BlockLocation) : Event :=
  let event := { event with
    blockHash := if event.blockHash = "" then loc.blockHash else event.blockHash
    workerID := if event.workerID = "" then loc.workerID else event.workerID
    seqNo := if event.seqNo = 0 then loc.seqNo else event.seqNo }
  { event with location := some { loc with
    blockHash := if loc.blockHash = "" then event.blockHash else loc.blockHash
    workerID := if loc.workerID = "" then event.workerID else loc.workerID
    seqNo := if loc.seqNo = 0 then event.seqNo else loc.seqNo } }

def mergeLocation (event : Event) (loc : BlockLocation) : Except String Event :=
  if loc.seqNo < 0 ∨ loc.seqNo = maxInt64 then
    .error "cache location seq_no must be non-negative and below MaxInt64"
  else if event.blockHash ≠ "" ∧ loc.blockHash ≠ "" ∧ event.blockHash ≠ loc.blockHash then
    .error "cache event and location block_hash differ"
  else if event.workerID ≠ "" ∧ loc.workerID ≠ "" ∧ event.workerID ≠ loc.workerID then
    .error "cache event and location worker_id differ"
  else if event.seqNo > 0 ∧ loc.seqNo > 0 ∧ event.seqNo ≠ loc.seqNo then
    .error "cache event and location seq_no differ"
  else .ok (fillFromLocation event loc)

def requireIdentity (event : Event) : Except String Event :=
  if event.blockHash = "" ∨ event.workerID = "" then
    .error "cache event block_hash and worker_id are required"
  else .ok event

def validateEvent (event : Event) : Except String Event :=
  if event.seqNo < 0 ∨ event.seqNo = maxInt64 then
    .error "cache event seq_no must be non-negative and below MaxInt64"
  else if event.eventType = "block_stored" then
    if event.tokens < 0 then .error "cache event tokens must be non-negative"
    else
      match event.location with
      | none => requireIdentity event
      | some loc => mergeLocation event loc >>= requireIdentity
  else if event.eventType = "block_evicted" then
    if event.location.isSome then .error "cache eviction event must not contain a location"
    else requireIdentity event
  else .error ("unknown cache event type " ++ event.eventType.quote)

namespace Index

/-- Consumes the event ID, then compares the sequence with the watermark. -/
def acceptEventLocked (idx : Index) (event : Event) : Bool × Index :=
  if event.eventID ≠ "" ∧ event.eventID ∈ idx.appliedEventIDs then (false, idx)
  else
    let idx := if event.eventID ≠ "" then
        { idx with appliedEventIDs := idx.appliedEventIDs.insert event.eventID () }
      else idx
    if event.workerID ≠ "" ∧ event.seqNo > 0 ∧ event.seqNo ≤ idx.lastSeq event.workerID then
      (false, idx)
    else (idx.seqFreshLocked event.workerID event.seqNo, idx)

end Index

/-- The location a `block_stored` event asks to store. -/
def eventLocation (event : Event) (clock : Clock) (ttl : Int) : BlockLocation :=
  match event.location with
  | some loc =>
    { loc with
      seqNo := if loc.seqNo = 0 then event.seqNo else loc.seqNo
      workerID := if loc.workerID = "" then event.workerID else loc.workerID
      blockHash := if loc.blockHash = "" then event.blockHash else loc.blockHash }
  | none =>
    { blockHash := event.blockHash, workerID := event.workerID,
      tier := if event.tier = "" then tierGPU else event.tier,
      tokens := if event.tokens ≤ 0 then 16 else event.tokens,
      seqNo := event.seqNo, locality := localityLocal, transport := transportLocalMemory,
      egressCostClass := "none", confidence := 1, updatedAt := clock.updatedAt,
      expiresAt := clock.expiresBase + ttl }

namespace Index

/-- `ApplyEvent`: the returned error, if any, and the index afterwards. -/
def applyEvent (idx : Index) (clock : Clock) (event : Event) : Option String × Index :=
  match validateEvent event with
  | .error message => (some message, idx)
  | .ok event =>
    match idx.acceptEventLocked event with
    | (false, idx) => (none, idx)
    | (true, idx) =>
      if event.eventType = "block_stored" then
        (none, (idx.storeLocationLocked clock.now (eventLocation event clock idx.ttl)
          true (event.seqNo > 0)).2)
      else if event.eventType = "block_evicted" then
        (none, (idx.evictLocked event.blockHash event.workerID event.seqNo true).2)
      else (some ("unknown cache event type " ++ event.eventType.quote), idx)

/-! ## What each operation does to one location and one watermark -/

section Frames

variable (idx : Index) (block b : BlockHash) (worker w : WorkerID) (seqNo : Int)

@[simp] theorem location_mark :
    (idx.markWorkerSeqLocked worker seqNo).location b w = idx.location b w := by
  unfold markWorkerSeqLocked
  split_ifs <;> rfl

@[simp] theorem ttl_mark : (idx.markWorkerSeqLocked worker seqNo).ttl = idx.ttl := by
  unfold markWorkerSeqLocked
  split_ifs <;> rfl

@[simp] theorem appliedEventIDs_mark :
    (idx.markWorkerSeqLocked worker seqNo).appliedEventIDs = idx.appliedEventIDs := by
  unfold markWorkerSeqLocked
  split_ifs <;> rfl

theorem lastSeq_mark (named : worker ≠ "") (positive : 0 < seqNo) :
    (idx.markWorkerSeqLocked worker seqNo).lastSeq w =
      if w = worker then max (idx.lastSeq worker) seqNo else idx.lastSeq w := by
  unfold markWorkerSeqLocked
  rw [if_neg (by simp [named, positive])]
  by_cases newer : seqNo > idx.lastSeq worker
  · rw [if_pos newer]
    by_cases same : w = worker
    · subst same
      have grown : max (idx.lastSeq w) seqNo = seqNo := by omega
      rw [if_pos rfl, grown]
      simp [lastSeq]
    · simp [lastSeq, same, AList.lookup_insert_ne same]
  · rw [if_neg newer]
    by_cases same : w = worker
    · subst same
      have kept : max (idx.lastSeq w) seqNo = idx.lastSeq w := by omega
      simp [kept]
    · simp [same]

theorem location_dropLocation {locations : GoMap WorkerID BlockLocation}
    (found : idx.byBlock.lookup block = some locations) :
    ({ idx with byBlock := dropLocation idx.byBlock block locations worker } : Index).location b w =
      if b = block ∧ w = worker then none else idx.location b w := by
  unfold location dropLocation
  by_cases sameBlock : b = block
  · subst sameBlock
    have erased : (locations.erase worker).lookup w =
        if w = worker then none else locations.lookup w := by
      by_cases same : w = worker
      · subst same
        simp
      · simp [same, AList.lookup_erase_ne same]
    by_cases empty : (locations.erase worker).entries.isEmpty
    · have nothing : (locations.erase worker).lookup w = none := by
        rw [List.isEmpty_iff] at empty
        rw [AList.lookup_eq_none, AList.mem_keys, AList.keys, empty]
        simp
      simpa [empty, found, nothing] using erased
    · simp [empty, found, erased]
  · by_cases empty : (locations.erase worker).entries.isEmpty
    · simp [empty, sameBlock, AList.lookup_erase_ne sameBlock]
    · simp [empty, sameBlock, AList.lookup_insert_ne sameBlock]

theorem location_insert (next : Int) (loc : BlockLocation) :
    ({ idx with
      nextSeqNo := next
      byBlock := idx.byBlock.insert loc.blockHash
        (((idx.byBlock.lookup loc.blockHash).getD ∅).insert loc.workerID loc) } : Index).location b w =
      if b = loc.blockHash ∧ w = loc.workerID then some loc else idx.location b w := by
  unfold location
  by_cases sameBlock : b = loc.blockHash
  · subst sameBlock
    by_cases same : w = loc.workerID
    · subst same
      simp
    · cases idx.byBlock.lookup loc.blockHash with
      | none =>
        simp only [AList.lookup_insert, Option.getD_none, Option.bind_some, same, and_false,
          if_false, AList.lookup_insert_ne same]
        rfl
      | some locations => simp [same, AList.lookup_insert_ne same]
  · simp [sameBlock, AList.lookup_insert_ne sameBlock]

theorem storeLocationLocked_spec (now : Time) (loc : BlockLocation)
    (named : loc.workerID ≠ "") (positive : 0 < loc.seqNo)
    (fresh : idx.lastSeq loc.workerID ≤ loc.seqNo) :
    let idx' := (idx.storeLocationLocked now loc true true).2
    idx'.location b w =
        (if b = loc.blockHash ∧ w = loc.workerID then some (normalizeLocation loc now idx.ttl)
        else idx.location b w) ∧
      idx'.lastSeq w = (if w = loc.workerID then loc.seqNo else idx.lastSeq w) ∧
      idx'.ttl = idx.ttl ∧ idx'.appliedEventIDs = idx.appliedEventIDs := by
  have nonzero : loc.seqNo ≠ 0 := by omega
  -- the revision counter is the only thing written before the freshness check
  obtain ⟨next, entry⟩ : ∃ next : Int, (idx.storeLocationLocked now loc true true).2 =
      ({ idx with
        nextSeqNo := next
        byBlock := idx.byBlock.insert loc.blockHash (((idx.byBlock.lookup loc.blockHash).getD ∅).insert
          loc.workerID (normalizeLocation loc now idx.ttl)) } : Index).markWorkerSeqLocked
            loc.workerID loc.seqNo := by
    have notStale : ∀ n : Int, ({ idx with nextSeqNo := n } : Index).seqFreshLocked loc.workerID
        loc.seqNo = true := by
      intro n
      simp only [seqFreshLocked, named, false_or]
      split_ifs
      · rfl
      · exact decide_eq_true fresh
    let revision := if idx.nextSeqNo < maxInt64 then idx.nextSeqNo + 1 else idx.nextSeqNo
    refine ⟨if loc.seqNo ≠ 0 ∧ loc.seqNo > revision then loc.seqNo else revision, ?_⟩
    simp only [storeLocationLocked, nonzero, normalizeLocation, if_false, notStale, Bool.not_true,
      Bool.and_false, Bool.false_eq_true, if_true, revision]
  dsimp only
  rw [entry]
  refine ⟨?_, ?_, by simp, by simp⟩
  · rw [location_mark]
    exact location_insert idx b w next (normalizeLocation loc now idx.ttl)
  · rw [lastSeq_mark _ _ _ _ named positive]
    by_cases same : w = loc.workerID
    · simp only [same, if_true]
      change max (idx.lastSeq loc.workerID) loc.seqNo = loc.seqNo
      omega
    · simp only [same, if_false]
      rfl

theorem evictLocked_spec (named : worker ≠ "") (positive : 0 < seqNo)
    (fresh : idx.lastSeq worker ≤ seqNo)
    (newer : ∀ loc, idx.location block worker = some loc → loc.seqNo ≤ seqNo) :
    let idx' := (idx.evictLocked block worker seqNo true).2
    idx'.location b w = (if b = block ∧ w = worker then none else idx.location b w) ∧
      idx'.lastSeq w = (if w = worker then seqNo else idx.lastSeq w) ∧
      idx'.ttl = idx.ttl ∧ idx'.appliedEventIDs = idx.appliedEventIDs := by
  have watermark : ∀ other : Index, other.lastSeqByWorker = idx.lastSeqByWorker →
      (other.markWorkerSeqLocked worker seqNo).lastSeq w =
        if w = worker then seqNo else idx.lastSeq w := by
    intro other same
    have agree : ∀ v, other.lastSeq v = idx.lastSeq v := by
      intro v
      rw [lastSeq, same, lastSeq]
    have raised : max (idx.lastSeq worker) seqNo = seqNo := by omega
    rw [lastSeq_mark _ _ _ _ named positive, agree, agree, raised]
  have notStale : idx.seqFreshLocked worker seqNo = true := by
    unfold seqFreshLocked
    split_ifs
    · rfl
    · exact decide_eq_true fresh
  dsimp only
  unfold evictLocked
  simp only [notStale, Bool.not_true, Bool.and_false, Bool.false_eq_true, if_false]
  cases outer : idx.byBlock.lookup block with
  | none =>
    refine ⟨?_, watermark idx rfl, by simp, by simp⟩
    have absent : b = block → idx.location b w = none := by
      rintro rfl
      simp [location, outer]
    simp only [location_mark]
    split_ifs with hit
    · exact absent hit.1
    · rfl
  | some locations =>
    simp only
    cases inner : locations.lookup worker with
    | none =>
      refine ⟨?_, watermark idx rfl, by simp, by simp⟩
      have absent : b = block ∧ w = worker → idx.location b w = none := by
        rintro ⟨rfl, rfl⟩
        simp [location, outer, inner]
      simp only [location_mark]
      split_ifs with hit
      · exact absent hit
      · rfl
    | some loc =>
      have notOlder : ¬ seqNo < loc.seqNo := by
        have := newer loc (by simp [location, outer, inner])
        omega
      simp only [notOlder, if_false]
      refine ⟨?_, watermark _ rfl, by simp, by simp⟩
      rw [location_mark, location_dropLocation idx block b worker w outer]

end Frames

theorem sweep_lookup (worker w : WorkerID) (blocks : List BlockHash) (b : BlockHash) (removed : Nat)
    (idx : Index) :
    let swept := blocks.foldl (evictWorkerBlock worker) (idx.byBlock, removed)
    ({ idx with byBlock := swept.1 } : Index).location b w =
      if b ∈ blocks ∧ w = worker then none else idx.location b w := by
  induction blocks generalizing idx removed with
  | nil => simp [location]
  | cons block rest ih =>
    dsimp only [List.foldl_cons]
    have one : ∃ count, evictWorkerBlock worker (idx.byBlock, removed) block =
        ((evictWorkerBlock worker (idx.byBlock, removed) block).1, count) := ⟨_, rfl⟩
    obtain ⟨count, split⟩ := one
    have head : ({ idx with byBlock := (evictWorkerBlock worker (idx.byBlock, removed) block).1 }
        : Index).location b w = if b = block ∧ w = worker then none else idx.location b w := by
      unfold evictWorkerBlock
      dsimp only
      cases outer : idx.byBlock.lookup block with
      | none =>
        dsimp only
        split_ifs with hit
        · obtain ⟨rfl, -⟩ := hit
          simp [location, outer]
        · rfl
      | some locations =>
        dsimp only
        cases inner : locations.lookup worker with
        | none =>
          dsimp only
          split_ifs with hit
          · obtain ⟨rfl, rfl⟩ := hit
            simp [location, outer, inner]
          · rfl
        | some loc => exact location_dropLocation idx block b worker w outer
    have tail := ih count { idx with byBlock := (evictWorkerBlock worker (idx.byBlock, removed) block).1 }
    dsimp only at tail
    rw [split, tail, head]
    by_cases same : w = worker <;> by_cases here : b = block <;> by_cases there : b ∈ rest <;>
      simp [same, here, there]

theorem evictWorker_spec (idx : Index) (worker w : WorkerID) (b : BlockHash) :
    let idx' := (idx.evictWorker worker).2
    idx'.location b w = (if w = worker then none else idx.location b w) ∧
      idx'.lastSeq w = (if w = worker then 0 else idx.lastSeq w) ∧
      idx'.ttl = idx.ttl ∧ idx'.appliedEventIDs = idx.appliedEventIDs := by
  refine ⟨?_, ?_, rfl, rfl⟩
  · have swept := sweep_lookup worker w idx.byBlock.keys b 0 idx
    dsimp only at swept
    change ({ idx with byBlock := (idx.byBlock.keys.foldl (evictWorkerBlock worker)
      (idx.byBlock, 0)).1 } : Index).location b w = _
    rw [swept]
    by_cases known : b ∈ idx.byBlock.keys
    · simp [known]
    · have absent : idx.location b w = none := by
        have none_at : idx.byBlock.lookup b = none :=
          AList.lookup_eq_none.mpr (fun member => known (AList.mem_keys.mp member))
        simp [location, none_at]
      simp [known, absent]
  · change ((idx.lastSeqByWorker.erase worker).lookup w).getD 0 = _
    by_cases same : w = worker
    · subst same
      simp
    · simp [same, lastSeq, AList.lookup_erase_ne same]

end Index

end AiStorage.Router
