import AiStorage.Router.CacheEvents
import Mathlib.Data.List.Induction
import Mathlib.Data.List.Sort
import Mathlib.Data.String.Basic

/-!
# Snapshot and restore of the cache index

`router/internal/cacheindex/snapshot.go`. A snapshot drops the consumed event IDs and the
expired locations. A simulation relates the restored index to the original: both have the same
watermarks and live locations, and every ID that only one of them knows belongs to events at or
below the watermark.
-/
namespace AiStorage.Router

structure Snapshot where
  schemaVersion : Int
  createdAt : Time
  ttlMS : Int
  nextSeqNo : Int
  lastSeqByWorker : GoMap WorkerID Int
  locations : List BlockLocation

/-- The order of `sort.Slice`: by block, then by worker. -/
def locationLE (a b : BlockLocation) : Bool :=
  if a.blockHash = b.blockHash then a.workerID ≤ b.workerID else a.blockHash ≤ b.blockHash

namespace Index

def snapshot (idx : Index) (now : Time) : Snapshot where
  schemaVersion := 2
  createdAt := now
  ttlMS := idx.ttl.tdiv 1000000
  nextSeqNo := idx.nextSeqNo
  lastSeqByWorker := idx.lastSeqByWorker
  locations :=
    let locations := idx.byBlock.entries.flatMap fun byWorker =>
      byWorker.2.entries.filterMap fun entry =>
        if entry.2.expiresAt = 0 ∨ entry.2.expiresAt > now then some entry.2 else none
    locations.mergeSort locationLE

def restoreLocation (schemaVersion : Int) (idx : Index) (now : Time) (loc : BlockLocation) : Index :=
  let loc := normalizeLocation loc now idx.ttl
  let idx := { idx with nextSeqNo := if loc.seqNo > idx.nextSeqNo then loc.seqNo else idx.nextSeqNo }
  let idx := if schemaVersion < 2 then idx.markWorkerSeqLocked loc.workerID loc.seqNo else idx
  let locations := (idx.byBlock.lookup loc.blockHash).getD ∅
  { idx with byBlock := idx.byBlock.insert loc.blockHash (locations.insert loc.workerID loc) }

def restoreLocations (schemaVersion : Int) (readings : Nat → Time) :
    Index → List BlockLocation → Index
  | idx, [] => idx
  | idx, loc :: rest =>
    restoreLocations schemaVersion readings
      (idx.restoreLocation schemaVersion (readings rest.length) loc) rest

def restoreWatermarks (lastSeqByWorker : GoMap WorkerID Int) : GoMap WorkerID Int :=
  lastSeqByWorker.entries.foldl
    (fun marks entry => if entry.2 > 0 then marks.insert entry.1 entry.2 else marks) ∅

def restoreSnapshot (idx : Index) (readings : Nat → Time) (snapshot : Snapshot) : Index :=
  let idx := { idx with
    byBlock := ∅
    appliedEventIDs := ∅
    lastSeqByWorker := restoreWatermarks snapshot.lastSeqByWorker
    nextSeqNo := snapshot.nextSeqNo }
  idx.restoreLocations snapshot.schemaVersion readings snapshot.locations

def locationsByWorker (idx : Index) (now : Time) (blocks : List BlockHash) (worker : WorkerID) :
    List BlockLocation :=
  blocks.filterMap fun block =>
    match idx.location block worker with
    | some loc => if loc.expiresAt > now then some loc else none
    | none => none

def applyEvents (idx : Index) (events : List (Event × Clock)) : Index :=
  events.foldl (fun idx call => (idx.applyEvent call.2 call.1).2) idx

end Index

/-! ## Normalized locations -/

/-- No field has the zero value that `normalizeLocation` replaces. -/
structure Normalized (loc : BlockLocation) : Prop where
  updatedAt : loc.updatedAt ≠ 0
  expiresAt : loc.expiresAt ≠ 0
  confidence : loc.confidence ≠ 0
  locality : loc.locality ≠ ""
  transport : loc.transport ≠ ""
  egressCostClass : loc.egressCostClass ≠ ""

variable {ttl : Int} {clock : Clock} {events : List (Event × Clock)}

theorem normalizeLocation_normalized (loc : BlockLocation) {now : Time} (started : 0 < now)
    (positive : 0 < ttl) : Normalized (normalizeLocation loc now ttl) := by
  have expiry : 0 < now + ttl := Int.add_pos started positive
  constructor
  · dsimp only [normalizeLocation]
    split_ifs with zero
    · exact Int.ne_of_gt started
    · exact zero
  · dsimp only [normalizeLocation]
    split_ifs with zero
    · exact Int.ne_of_gt expiry
    · exact zero
  · dsimp only [normalizeLocation]
    split_ifs with zero
    · decide
    · exact zero
  · dsimp only [normalizeLocation]
    split_ifs with empty
    · decide
    · exact empty
  · dsimp only [normalizeLocation]
    split_ifs with empty
    · decide
    · exact empty
  · dsimp only [normalizeLocation]
    split_ifs with empty
    · decide
    · exact empty

theorem Normalized.normalizeLocation {loc : BlockLocation} (h : Normalized loc) (now : Time)
    (ttl : Int) : normalizeLocation loc now ttl = loc := by
  simp [Router.normalizeLocation, h.updatedAt, h.expiresAt, h.confidence, h.locality, h.transport,
    h.egressCostClass]

/-! ## What a snapshot holds and what restoring it gives -/

namespace Index

theorem mem_snapshot_locations {idx : Index} {now : Time} {loc : BlockLocation} :
    loc ∈ (idx.snapshot now).locations ↔
      (∃ b w, idx.location b w = some loc) ∧ (loc.expiresAt = 0 ∨ loc.expiresAt > now) := by
  simp only [snapshot, List.mem_mergeSort, List.mem_flatMap, List.mem_filterMap,
    Option.ite_none_right_eq_some, Option.some.injEq]
  constructor
  · rintro ⟨⟨b, byWorker⟩, outer, ⟨w, found⟩, inner, live, rfl⟩
    refine ⟨⟨b, w, ?_⟩, live⟩
    rw [location, AList.mem_lookup_iff.mpr outer]
    exact AList.mem_lookup_iff.mpr inner
  · rintro ⟨⟨b, w, found⟩, live⟩
    obtain ⟨byWorker, outer, inner⟩ := Option.bind_eq_some_iff.mp found
    exact ⟨⟨b, byWorker⟩, AList.mem_lookup_iff.mp outer, ⟨w, loc⟩, AList.mem_lookup_iff.mp inner,
      live, rfl⟩

theorem lookup_restoreWatermarks (marks : GoMap WorkerID Int) (w : WorkerID) :
    (restoreWatermarks marks).lookup w = (marks.lookup w).filter fun seqNo => 0 < seqNo := by
  have fold : ∀ (entries : List (Sigma fun _ : WorkerID => Int)) (acc : GoMap WorkerID Int),
      entries.NodupKeys → (entries.foldl (fun marks entry =>
          if entry.2 > 0 then marks.insert entry.1 entry.2 else marks) acc).lookup w =
        (((entries.dlookup w).filter fun seqNo => 0 < seqNo).or (acc.lookup w)) := by
    intro entries
    induction entries with
    | nil =>
      intro acc _
      rfl
    | cons entry rest ih =>
      intro acc distinct
      obtain ⟨other, seqNo⟩ := entry
      rw [List.foldl_cons, ih _ (List.nodupKeys_cons.mp distinct).2]
      by_cases same : w = other
      · subst same
        have gone : rest.dlookup w = none :=
          List.dlookup_eq_none.mpr (List.nodupKeys_cons.mp distinct).1
        by_cases positive : 0 < seqNo
        · simp [gone, positive, Option.filter]
        · simp [gone, positive, Option.filter]
      · have kept : (if seqNo > 0 then acc.insert other seqNo else acc).lookup w =
            acc.lookup w := by
          split_ifs
          · exact AList.lookup_insert_ne same
          · rfl
        rw [List.dlookup_cons_ne _ _ same, kept]
  rw [restoreWatermarks, fold _ _ marks.nodupKeys]
  simp [AList.lookup]

section Restore

variable (readings : Nat → Time)

theorem restoreLocation_two (idx : Index) (now : Time) {loc : BlockLocation} (h : Normalized loc) :
    ∃ next : Int, idx.restoreLocation 2 now loc = { idx with
      nextSeqNo := next
      byBlock := idx.byBlock.insert loc.blockHash
        (((idx.byBlock.lookup loc.blockHash).getD ∅).insert loc.workerID loc) } := by
  refine ⟨if loc.seqNo > idx.nextSeqNo then loc.seqNo else idx.nextSeqNo, ?_⟩
  simp only [restoreLocation]
  rw [h.normalizeLocation]
  simp only [Int.lt_irrefl, if_false]

theorem restoreLocations_frame (idx : Index) {locs : List BlockLocation}
    (normal : ∀ loc ∈ locs, Normalized loc) :
    let idx' := idx.restoreLocations 2 readings locs
    idx'.lastSeqByWorker = idx.lastSeqByWorker ∧ idx'.appliedEventIDs = idx.appliedEventIDs ∧
      idx'.ttl = idx.ttl := by
  induction locs generalizing idx with
  | nil => exact ⟨rfl, rfl, rfl⟩
  | cons loc rest ih =>
    obtain ⟨next, here⟩ := restoreLocation_two idx (readings rest.length)
      (normal loc List.mem_cons_self)
    have later := ih (idx.restoreLocation 2 (readings rest.length) loc)
      fun other member => normal other (.tail loc member)
    rw [here] at later
    simpa only [restoreLocations, here] using later

theorem location_restoreLocations (idx : Index) {locs : List BlockLocation}
    (normal : ∀ loc ∈ locs, Normalized loc) (b : BlockHash) (w : WorkerID)
    (single : ∀ x ∈ locs, ∀ y ∈ locs, x.blockHash = b → x.workerID = w → y.blockHash = b →
      y.workerID = w → x = y) (loc : BlockLocation) :
    (idx.restoreLocations 2 readings locs).location b w = some loc ↔
      (loc ∈ locs ∧ loc.blockHash = b ∧ loc.workerID = w) ∨
      (idx.location b w = some loc ∧ ∀ x ∈ locs, ¬ (x.blockHash = b ∧ x.workerID = w)) := by
  induction locs generalizing idx with
  | nil => simp [restoreLocations]
  | cons first rest ih =>
    obtain ⟨next, here⟩ := restoreLocation_two idx (readings rest.length)
      (normal first List.mem_cons_self)
    have later := ih (idx.restoreLocation 2 (readings rest.length) first)
      (fun other member => normal other (.tail first member))
      (fun x hx y hy => single x (.tail first hx) y (.tail first hy))
    rw [here, location_insert] at later
    rw [restoreLocations, here, later]
    by_cases own : b = first.blockHash ∧ w = first.workerID
    · rw [if_pos own]
      obtain ⟨rfl, rfl⟩ := own
      constructor
      · rintro (⟨member, block, worker⟩ | ⟨same, -⟩)
        · exact .inl ⟨.tail first member, block, worker⟩
        · cases Option.some.inj same
          exact .inl ⟨List.mem_cons_self, rfl, rfl⟩
      · rintro (⟨member, block, worker⟩ | ⟨-, none⟩)
        · have same := single loc member first List.mem_cons_self block worker rfl rfl
          subst same
          by_cases again : ∃ x ∈ rest, x.blockHash = loc.blockHash ∧ x.workerID = loc.workerID
          · obtain ⟨x, inRest, block, worker⟩ := again
            have copy := single x (.tail loc inRest) loc List.mem_cons_self block worker rfl rfl
            exact .inl ⟨copy ▸ inRest, rfl, rfl⟩
          · exact .inr ⟨rfl, fun x inRest key => again ⟨x, inRest, key⟩⟩
        · exact absurd ⟨rfl, rfl⟩ (none first List.mem_cons_self)
    · rw [if_neg own]
      have other : ¬ (first.blockHash = b ∧ first.workerID = w) :=
        fun key => own ⟨key.1.symm, key.2.symm⟩
      simp only [List.mem_cons, forall_eq_or_imp, other, not_false_eq_true, true_and]
      constructor
      · rintro (⟨member, key⟩ | kept)
        · exact .inl ⟨.inr member, key⟩
        · exact .inr kept
      · rintro (⟨rfl | member, key⟩ | kept)
        · exact absurd key other
        · exact .inl ⟨member, key⟩
        · exact .inr kept

/-- Locations stand under their own block and worker, with no field left at zero. -/
def Kept (idx : Index) : Prop :=
  ∀ b w loc, idx.location b w = some loc → loc.blockHash = b ∧ loc.workerID = w ∧ Normalized loc

variable {idx : Index} (kept : idx.Kept) (target : Index) (taken : Time)

include kept

theorem Kept.placed {loc : BlockLocation} (member : loc ∈ (idx.snapshot taken).locations) :
    idx.location loc.blockHash loc.workerID = some loc ∧ Normalized loc := by
  obtain ⟨⟨b, w, found⟩, -⟩ := mem_snapshot_locations.mp member
  obtain ⟨rfl, rfl, normal⟩ := kept b w loc found
  exact ⟨found, normal⟩

theorem Kept.single (b : BlockHash) (w : WorkerID) :
    ∀ x ∈ (idx.snapshot taken).locations, ∀ y ∈ (idx.snapshot taken).locations,
      x.blockHash = b → x.workerID = w → y.blockHash = b → y.workerID = w → x = y := by
  intro x hx y hy xb xw yb yw
  have first := (kept.placed taken hx).1
  have second := (kept.placed taken hy).1
  rw [xb, xw] at first
  rw [yb, yw] at second
  exact Option.some.inj (first.symm.trans second)

theorem Kept.location_restoreSnapshot (b : BlockHash) (w : WorkerID) (loc : BlockLocation) :
    (target.restoreSnapshot readings (idx.snapshot taken)).location b w = some loc ↔
      idx.location b w = some loc ∧ taken < loc.expiresAt := by
  rw [restoreSnapshot]
  change (restoreLocations 2 readings _ (idx.snapshot taken).locations).location b w = some loc ↔ _
  rw [location_restoreLocations readings _ (fun x member => (kept.placed taken member).2) b w
    (kept.single taken b w)]
  constructor
  · rintro (⟨member, rfl, rfl⟩ | ⟨absent, -⟩)
    · obtain ⟨found, normal⟩ := kept.placed taken member
      exact ⟨found, (mem_snapshot_locations.mp member).2.resolve_left normal.expiresAt⟩
    · cases absent
  · rintro ⟨found, live⟩
    obtain ⟨block, worker, -⟩ := kept b w loc found
    exact .inl ⟨mem_snapshot_locations.mpr ⟨⟨b, w, found⟩, .inr live⟩, block, worker⟩

theorem Kept.restoreSnapshot_frame :
    let restored := target.restoreSnapshot readings (idx.snapshot taken)
    restored.lastSeqByWorker = restoreWatermarks idx.lastSeqByWorker ∧
      restored.appliedEventIDs = ∅ ∧ restored.ttl = target.ttl := by
  have normal := fun x member => (@Kept.placed idx kept taken x member).2
  exact restoreLocations_frame readings _ normal

omit kept in
theorem lastSeq_restoreWatermarks (nonneg : ∀ w, 0 ≤ idx.lastSeq w) (w : WorkerID) :
    ((restoreWatermarks idx.lastSeqByWorker).lookup w).getD 0 = idx.lastSeq w := by
  have mark := nonneg w
  rw [lookup_restoreWatermarks]
  unfold lastSeq at mark ⊢
  cases shape : idx.lastSeqByWorker.lookup w with
  | none => rfl
  | some seqNo =>
    rw [shape, Option.getD_some] at mark
    by_cases positive : 0 < seqNo
    · simp [Option.filter, positive]
    · have zero : seqNo = 0 := by omega
      simp [Option.filter, zero]

end Restore

end Index

/-! ## The simulation -/

def Index.live (idx : Index) (now : Time) (b : BlockHash) (w : WorkerID) : Option BlockLocation :=
  (idx.location b w).filter fun loc => now < loc.expiresAt

/-- Every location is at or below its worker's watermark. -/
def Index.Bounded (idx : Index) : Prop :=
  ∀ b w loc, idx.location b w = some loc → loc.seqNo ≤ idx.lastSeq w

/-- The restored index behaves as the original for events that satisfy `later` and
queries after `since`. -/
structure Simulates (later : Event → Prop) (since : Time) (original restored : Index) : Prop where
  ttl : restored.ttl = original.ttl
  marks : ∀ w, restored.lastSeq w = original.lastSeq w
  places : ∀ b w, restored.live since b w = original.live since b w
  bounded : original.Bounded ∧ restored.Bounded
  known : ∀ id, id ∈ restored.appliedEventIDs → id ∈ original.appliedEventIDs
  /-- An ID that the restored index lacks is of no use any more. -/
  subsumed : ∀ event valid, later event → validateEvent event = .ok valid → valid.eventID ≠ "" →
    valid.eventID ∈ original.appliedEventIDs →
      valid.eventID ∈ restored.appliedEventIDs ∨ valid.seqNo ≤ original.lastSeq valid.workerID

theorem Effect.lastSeq_le {idx idx' : Index} {valid : Event}
    (effect : Effect idx idx' valid clock) (w : WorkerID) : idx.lastSeq w ≤ idx'.lastSeq w := by
  by_cases own : w = valid.workerID
  · subst own
    rw [effect.mark]
    exact effect.newer.le
  · rw [effect.marks w own]

theorem Effect.bounded {idx idx' : Index} {valid : Event} (shape : Validated valid)
    (effect : Effect idx idx' valid clock) (bounded : idx.Bounded) : idx'.Bounded := by
  intro b w loc found
  by_cases here : b = valid.blockHash ∧ w = valid.workerID
  · obtain ⟨rfl, rfl⟩ := here
    rw [effect.place] at found
    rw [(recorded_seqNo shape found).2, effect.mark]
  · rw [effect.places b w here] at found
    exact (bounded b w loc found).trans (effect.lastSeq_le w)

section Step

variable {later : Event → Prop} {since : Time} {original restored : Index} {event : Event}

theorem Simulates.accepted_iff (sim : Simulates later since original restored) {valid : Event}
    (fed : later event) (check : validateEvent event = .ok valid) :
    ((valid.eventID = "" ∨ valid.eventID ∉ restored.appliedEventIDs) ∧
        restored.lastSeq valid.workerID < valid.seqNo) ↔
      (valid.eventID = "" ∨ valid.eventID ∉ original.appliedEventIDs) ∧
        original.lastSeq valid.workerID < valid.seqNo := by
  rw [sim.marks]
  constructor
  · rintro ⟨fresh, newer⟩
    refine ⟨or_iff_not_imp_left.mpr fun named seen => ?_, newer⟩
    rcases sim.subsumed event valid fed check named seen with known | old
    · exact fresh.resolve_left named known
    · omega
  · rintro ⟨fresh, newer⟩
    exact ⟨fresh.imp_right fun absent seen => absent (sim.known _ seen), newer⟩

theorem Simulates.applyEvent (sim : Simulates later since original restored) (fed : later event)
    (positive : ∀ valid, validateEvent event = .ok valid → 0 < valid.seqNo) (clock : Clock) :
    Simulates later since (original.applyEvent clock event).2 (restored.applyEvent clock event).2 := by
  cases check : validateEvent event with
  | error message =>
    have same : ∀ idx : Index, (idx.applyEvent clock event).2 = idx := by
      intro idx
      unfold Index.applyEvent
      rw [check]
    rwa [same, same]
  | ok valid =>
    have shape := validateEvent_ok check
    obtain ⟨taken, ignored, ttl, ids⟩ :=
      applyEvent_valid original clock check (positive valid check) sim.bounded.1
    obtain ⟨taken', ignored', ttl', ids'⟩ :=
      applyEvent_valid restored clock check (positive valid check) sim.bounded.2
    rw [sim.accepted_iff fed check] at taken' ignored'
    have known : ∀ id, id ∈ (restored.applyEvent clock event).2.appliedEventIDs →
        id ∈ (original.applyEvent clock event).2.appliedEventIDs := by
      intro id seen
      rw [ids]
      exact ((ids' id).mp seen).imp_left (sim.known id)
    have subsumed : (∀ w, original.lastSeq w ≤ (original.applyEvent clock event).2.lastSeq w) →
        ∀ other valid', later other → validateEvent other = .ok valid' → valid'.eventID ≠ "" →
          valid'.eventID ∈ (original.applyEvent clock event).2.appliedEventIDs →
          valid'.eventID ∈ (restored.applyEvent clock event).2.appliedEventIDs ∨
            valid'.seqNo ≤ (original.applyEvent clock event).2.lastSeq valid'.workerID := by
      intro grows other valid' fed' check' named seen
      rw [ids']
      rcases (ids _).mp seen with old | own
      · rcases sim.subsumed other valid' fed' check' named old with here | below
        · exact .inl (.inl here)
        · exact .inr (below.trans (grows _))
      · exact .inl (.inr own)
    by_cases accepted : (valid.eventID = "" ∨ valid.eventID ∉ original.appliedEventIDs) ∧
        original.lastSeq valid.workerID < valid.seqNo
    · have effect := taken accepted
      have effect' := taken' accepted
      refine ⟨by rw [ttl, ttl', sim.ttl], ?_, ?_,
        ⟨effect.bounded shape sim.bounded.1, effect'.bounded shape sim.bounded.2⟩, known,
        subsumed effect.lastSeq_le⟩
      · intro w
        by_cases own : w = valid.workerID
        · rw [own, effect.mark, effect'.mark]
        · rw [effect.marks w own, effect'.marks w own, sim.marks]
      · intro b w
        by_cases here : b = valid.blockHash ∧ w = valid.workerID
        · rw [Index.live, Index.live, here.1, here.2, effect.place, effect'.place, sim.ttl]
        · rw [Index.live, Index.live, effect.places b w here, effect'.places b w here]
          exact sim.places b w
    · have same : ∀ b w, (original.applyEvent clock event).2.location b w = original.location b w ∧
          (original.applyEvent clock event).2.lastSeq w = original.lastSeq w := by
        intro b w
        rw [ignored accepted]
        exact ⟨rfl, rfl⟩
      have sameRestored : ∀ b w, (restored.applyEvent clock event).2.location b w = restored.location b w ∧
          (restored.applyEvent clock event).2.lastSeq w = restored.lastSeq w := by
        intro b w
        rw [ignored' accepted]
        exact ⟨rfl, rfl⟩
      refine ⟨by rw [ttl, ttl', sim.ttl], fun w => ?_, fun b w => ?_, ⟨?_, ?_⟩, known,
        subsumed fun w => (same "" w).2.ge⟩
      · rw [(same "" w).2, (sameRestored "" w).2, sim.marks]
      · rw [Index.live, Index.live, (same b w).1, (sameRestored b w).1]
        exact sim.places b w
      · intro b w loc found
        rw [(same b w).2]
        exact sim.bounded.1 b w loc ((same b w).1 ▸ found)
      · intro b w loc found
        rw [(sameRestored b w).2]
        exact sim.bounded.2 b w loc ((sameRestored b w).1 ▸ found)

theorem Simulates.applyEvents {events : List (Event × Clock)}
    (sim : Simulates later since original restored) (fed : ∀ call ∈ events, later call.1)
    (positive : ∀ call ∈ events, ∀ valid, validateEvent call.1 = .ok valid → 0 < valid.seqNo) :
    Simulates later since (original.applyEvents events) (restored.applyEvents events) := by
  induction events generalizing original restored with
  | nil => exact sim
  | cons call rest ih =>
    have next := sim.applyEvent (fed call List.mem_cons_self) (positive call List.mem_cons_self) call.2
    exact ih next (fun c member => fed c (.tail call member))
      fun c member => positive c (.tail call member)

end Step

/-! ## What queries see -/

theorem Simulates.live_eq {later : Event → Prop} {since now : Time} {original restored : Index}
    (sim : Simulates later since original restored) (after : since ≤ now) (b : BlockHash)
    (w : WorkerID) : restored.live now b w = original.live now b w := by
  have narrow : ∀ idx : Index, idx.live now b w =
      (idx.live since b w).filter fun loc => now < loc.expiresAt := by
    intro idx
    rw [Index.live, Index.live, Option.filter_filter]
    congr 1
    funext loc
    by_cases live : now < loc.expiresAt
    · simp [live, after.trans_lt live]
    · simp [live]
  rw [narrow, narrow, sim.places]

theorem overlapByWorker_live (idx : Index) (now : Time) (blocks : List BlockHash) (w : WorkerID) :
    idx.overlapByWorker now blocks w = blocks.countP fun b => (idx.live now b w).isSome := by
  refine List.countP_congr fun b _ => ?_
  rw [Index.live]
  cases idx.location b w with
  | none => simp
  | some loc => by_cases live : now < loc.expiresAt <;> simp [live]

theorem locationsByWorker_live (idx : Index) (now : Time) (blocks : List BlockHash) (w : WorkerID) :
    idx.locationsByWorker now blocks w = blocks.filterMap fun b => idx.live now b w := by
  refine List.filterMap_congr fun b _ => ?_
  rw [Index.live]
  cases idx.location b w with
  | none => rfl
  | some loc => by_cases live : now < loc.expiresAt <;> simp [live, Option.filter]

/-! ## From a history of events to the simulation -/

def eventHistory (events : List (Event × Clock)) : History :=
  (events.map fun call => .apply call.1 call.2).reverse

theorem mem_eventHistory {call : Call} :
    call ∈ eventHistory events ↔ ∃ entry ∈ events, call = .apply entry.1 entry.2 := by
  simp only [eventHistory, List.mem_reverse, List.mem_map, eq_comm]

theorem applyEvents_append (idx : Index) (front rest : List (Event × Clock)) :
    idx.applyEvents (front ++ rest) = (idx.applyEvents front).applyEvents rest :=
  List.foldl_append

theorem replay_eventHistory (ttl : Int) (events : List (Event × Clock)) :
    replay ttl (eventHistory events) = (Index.new ttl).applyEvents events := by
  induction events using List.reverseRecOn with
  | nil => rfl
  | append_singleton front last ih =>
    have shape : eventHistory (front ++ [last]) = .apply last.1 last.2 :: eventHistory front := by
      simp [eventHistory]
    rw [applyEvents_append, ← ih, shape]
    rfl

theorem watermark_le_cons (event : Event) (clock : Clock) (earlier : History) (w : WorkerID) :
    watermark earlier w ≤ watermark (.apply event clock :: earlier) w := by
  simp only [watermark, effective]
  split
  · exact Int.le_refl _
  · split_ifs
    · exact Int.le_max_right _ _
    · exact Int.le_refl _

/-- Every delivered event is at or below its worker's watermark, also one that was
refused by its ID: that ID was consumed by the same event. -/
theorem delivered_le_watermark {events : List (Event × Clock)}
    (unique : UniqueIDs (eventHistory events)) {event valid : Event} {clock : Clock}
    (member : (event, clock) ∈ events) (check : validateEvent event = .ok valid) :
    valid.seqNo ≤ watermark (eventHistory events) valid.workerID := by
  induction events using List.reverseRecOn generalizing clock with
  | nil => simp at member
  | append_singleton front last ih =>
    have shape : eventHistory (front ++ [last]) = .apply last.1 last.2 :: eventHistory front := by
      simp [eventHistory]
    rw [shape] at unique ⊢
    have earlier := @ih fun e₁ c₁ e₂ c₂ m₁ m₂ =>
      unique e₁ c₁ e₂ c₂ (.tail _ m₁) (.tail _ m₂)
    have grows := watermark_le_cons last.1 last.2 (eventHistory front) valid.workerID
    rcases List.mem_append.mp member with old | new
    · exact (earlier old).trans grows
    · obtain rfl := List.mem_singleton.mp new
      by_cases refused : valid.eventID ≠ "" ∧ consumed (eventHistory front) valid.eventID = true
      · obtain ⟨other, c, v, inside, check', same⟩ := consumed_iff.mp refused.2
        have copy := unique other c event clock (.tail _ inside) List.mem_cons_self v valid check'
          check (by rw [same]; exact refused.1) same
        subst copy
        obtain ⟨entry, inFront, shape'⟩ := mem_eventHistory.mp inside
        cases shape'
        exact (earlier inFront).trans grows
      · have fresh : valid.eventID = "" ∨ consumed (eventHistory front) valid.eventID = false := by
          by_cases anonymous : valid.eventID = ""
          · exact .inl anonymous
          · exact .inr (by simpa [anonymous] using refused)
        simp only [watermark, effective, check, fresh, true_and]
        split_ifs
        · exact Int.le_max_left _ _
        · omega

theorem maxSeq_nonneg (entries : List (Event × Clock)) : 0 ≤ maxSeq entries := by
  induction entries with
  | nil => exact Int.le_refl _
  | cons entry rest ih => exact ih.trans (Int.le_max_right _ _)

theorem Describes.kept (d : Describes (eventHistory events) (replay ttl (eventHistory events)))
    (positive : PositiveSequences (eventHistory events))
    (started : ∀ call ∈ events, 0 < call.2.now) : (replay ttl (eventHistory events)).Kept := by
  intro b w loc found
  rw [d.places, Option.bind_eq_some_iff] at found
  obtain ⟨entry, last, kept⟩ := found
  obtain ⟨worker, event, delivered, check⟩ := effective_origin (lastEffective_mem last)
  have block : entry.1.blockHash = b := by simpa using List.find?_some last
  obtain ⟨call, inside, same⟩ := mem_eventHistory.mp delivered
  obtain ⟨-, clock⟩ := Call.apply.inj same
  have positiveTTL : 0 < (replay ttl (eventHistory events)).ttl := by
    rw [replay_ttl ttl positive]
    change 0 < if ttl ≤ 0 then (30000000000 : Int) else ttl
    split_ifs <;> omega
  unfold recorded at kept
  split_ifs at kept
  cases Option.some.inj kept
  obtain ⟨hash, name, -⟩ := eventLocation_identity (validateEvent_ok check) entry.2
    (replay ttl (eventHistory events)).ttl
  exact ⟨hash.trans block, name.trans worker,
    normalizeLocation_normalized _ (clock ▸ started call inside) positiveTTL⟩

theorem simulates_restoreSnapshot {later : Event → Prop}
    (positive : PositiveSequences (eventHistory events)) (started : ∀ call ∈ events, 0 < call.2.now)
    (subsumed : ∀ event valid, later event → validateEvent event = .ok valid → valid.eventID ≠ "" →
      consumed (eventHistory events) valid.eventID = true →
        valid.seqNo ≤ watermark (eventHistory events) valid.workerID)
    {target : Index} (sameTTL : target.ttl = (Index.new ttl).ttl) (readings : Nat → Time)
    (taken : Time) :
    Simulates later taken (replay ttl (eventHistory events))
      (target.restoreSnapshot readings ((replay ttl (eventHistory events)).snapshot taken)) := by
  have d := describes_replay ttl positive
  have kept := d.kept positive started
  obtain ⟨marks, ids, keptTTL⟩ := kept.restoreSnapshot_frame readings target taken
  have restored := kept.location_restoreSnapshot readings target taken
  have lastSeq : ∀ w, (target.restoreSnapshot readings
      ((replay ttl (eventHistory events)).snapshot taken)).lastSeq w =
        (replay ttl (eventHistory events)).lastSeq w := by
    intro w
    rw [Index.lastSeq, marks]
    refine Index.lastSeq_restoreWatermarks (fun v => ?_) w
    rw [d.marks]
    exact maxSeq_nonneg _
  refine ⟨by rw [keptTTL, replay_ttl ttl positive, sameTTL], lastSeq, ?_, ⟨d.bounded, ?_⟩, ?_, ?_⟩
  · intro b w
    refine Option.ext fun loc => ?_
    simp only [Index.live, Option.filter_eq_some_iff, decide_eq_true_eq, restored b w loc]
    exact and_congr_left fun live => and_iff_left live
  · intro b w loc found
    rw [lastSeq]
    exact d.bounded b w loc ((restored b w loc).mp found).1
  · intro id seen
    rw [ids] at seen
    exact absurd seen (AList.notMem_empty id)
  · intro event valid fed check named seen
    rw [d.marks]
    exact .inr (subsumed event valid fed check named ((d.ids _ named).mp seen))

/-- Snapshot and restore are invisible to later events and queries. Of the clock it
is used only that it reads later than Go's zero time and that the query is not
before the snapshot. -/
theorem snapshot_restore_invisible (ttl : Int) (first later : List (Event × Clock))
    (positive : PositiveSequences (eventHistory (first ++ later)))
    (unique : UniqueIDs (eventHistory (first ++ later)))
    (started : ∀ call ∈ first, 0 < call.2.now) (target : Index)
    (sameTTL : target.ttl = (Index.new ttl).ttl) (readings : Nat → Time) (taken now : Time)
    (after : taken ≤ now) (blocks : List BlockHash) (w : WorkerID) :
    let single := (Index.new ttl).applyEvents (first ++ later)
    let restored := (target.restoreSnapshot readings
      (((Index.new ttl).applyEvents first).snapshot taken)).applyEvents later
    restored.overlapByWorker now blocks w = single.overlapByWorker now blocks w ∧
      restored.locationsByWorker now blocks w = single.locationsByWorker now blocks w ∧
      restored.lastSeq w = single.lastSeq w := by
  have within : ∀ call, call ∈ eventHistory first → call ∈ eventHistory (first ++ later) := by
    intro call member
    obtain ⟨entry, inside, same⟩ := mem_eventHistory.mp member
    exact mem_eventHistory.mpr ⟨entry, List.mem_append_left _ inside, same⟩
  have fed : ∀ call ∈ later, Call.apply call.1 call.2 ∈ eventHistory (first ++ later) :=
    fun call member => mem_eventHistory.mpr ⟨call, List.mem_append_right _ member, rfl⟩
  have positiveFirst : PositiveSequences (eventHistory first) :=
    fun event clock member => positive event clock (within _ member)
  have uniqueFirst : UniqueIDs (eventHistory first) :=
    fun e₁ c₁ e₂ c₂ m₁ m₂ => unique e₁ c₁ e₂ c₂ (within _ m₁) (within _ m₂)
  -- an ID consumed before the snapshot is a delivery of the same event
  have subsumed : ∀ event valid, (∃ call ∈ later, call.1 = event) →
      validateEvent event = .ok valid → valid.eventID ≠ "" →
      consumed (eventHistory first) valid.eventID = true →
        valid.seqNo ≤ watermark (eventHistory first) valid.workerID := by
    rintro event valid ⟨call, member, rfl⟩ check named seen
    obtain ⟨other, clock, valid', inside, check', same⟩ := consumed_iff.mp seen
    have copy := unique other clock call.1 call.2 (within _ inside) (fed call member) valid' valid
      check' check (by rw [same]; exact named) same
    obtain ⟨entry, delivered, shape⟩ := mem_eventHistory.mp inside
    cases shape
    exact delivered_le_watermark uniqueFirst delivered (by rw [copy]; exact check)
  have start := simulates_restoreSnapshot positiveFirst started subsumed sameTTL readings taken
  have sim := start.applyEvents (fun call member => ⟨call, member, rfl⟩)
    fun call member => positive call.1 call.2 (fed call member)
  rw [replay_eventHistory, ← applyEvents_append] at sim
  have live := fun b => sim.live_eq after b w
  refine ⟨?_, ?_, sim.marks w⟩
  · simp only [overlapByWorker_live, live]
  · simp only [locationsByWorker_live, live]

def sampleStore : Event × Clock :=
  ({ eventType := "block_stored", eventID := "e", blockHash := "b", workerID := "w", seqNo := 3 },
    { updatedAt := 5, expiresBase := 5, now := 5 })

theorem sample_snapshot_invisible :
    (((Index.new 10).restoreSnapshot (fun _ => 7)
      (((Index.new 10).applyEvents [sampleStore]).snapshot 7)).applyEvents
        [sampleStore]).overlapByWorker 8 ["b"] "w" =
      ((Index.new 10).applyEvents ([sampleStore] ++ [sampleStore])).overlapByWorker 8 ["b"] "w" := by
  refine (snapshot_restore_invisible 10 [sampleStore] [sampleStore] ?_ ?_ ?_ (Index.new 10) rfl
    (fun _ => 7) 7 8 (by decide) ["b"] "w").1
  · intro event clock member valid check
    obtain ⟨entry, inside, same⟩ := mem_eventHistory.mp member
    obtain rfl : entry = sampleStore := by simpa using inside
    obtain ⟨rfl, -⟩ := Call.apply.inj same
    have known : validateEvent sampleStore.1 = .ok sampleStore.1 := by decide
    cases Except.ok.inj (check.symm.trans known)
    decide
  · intro e₁ c₁ e₂ c₂ m₁ m₂ v₁ v₂ _ _ _ _
    obtain ⟨first, inside₁, same₁⟩ := mem_eventHistory.mp m₁
    obtain ⟨second, inside₂, same₂⟩ := mem_eventHistory.mp m₂
    obtain rfl : first = sampleStore := by simpa using inside₁
    obtain rfl : second = sampleStore := by simpa using inside₂
    exact (Call.apply.inj same₁).1.trans (Call.apply.inj same₂).1.symm
  · intro call member
    obtain rfl : call = sampleStore := by simpa using member
    decide

end AiStorage.Router
