import AiStorage.Router.EventLog
import AiStorage.Router.LocalRevisions

/-!
# The counter of local revisions

`nextSeqNo` counts every write, jumps to the sequences that producers bring, stops at the
largest `int64` and is part of a snapshot. It stays at or above every number of a location.
-/
namespace AiStorage.Router

/-- The numbers are `int64` values; a caller of `StoreLocation` passes no negative one. -/
def IndexCall.InRange : IndexCall → Prop
  | .storeLocation _ loc => 0 ≤ loc.seqNo ∧ loc.seqNo ≤ maxInt64
  | .apply event _ => event.seqNo ≤ maxInt64 ∧
      ∀ loc, event.location = some loc → loc.seqNo ≤ maxInt64
  | _ => True

/-- Indices after any calls and restores; a snapshot may come from any such index. -/
inductive Reached : Index → Prop where
  | new (ttl : Int) : Reached (.new ttl)
  | call {idx : Index} {next : IndexCall} (reached : Reached idx) (inRange : next.InRange) :
      Reached (idx.call next)
  | restore {idx other : Index} (reached : Reached idx) (from_ : Reached other) (now : Time)
      (readings : Nat → Time) : Reached (idx.restoreSnapshot readings (other.snapshot now))

theorem validateEvent_inRange {event valid : Event} {clock : Clock}
    (check : validateEvent event = .ok valid) (inRange : (IndexCall.apply event clock).InRange) :
    0 ≤ valid.seqNo ∧ valid.seqNo ≤ maxInt64 := by
  unfold validateEvent at check
  split_ifs at check with outside
  · cases shape : event.location with
    | none =>
      rw [shape] at check
      obtain ⟨rfl, -⟩ := requireIdentity_ok check
      exact ⟨by omega, inRange.1⟩
    | some loc =>
      have most := inRange.2 loc shape
      rw [shape] at check
      dsimp only at check
      cases merged : mergeLocation event loc with
      | error message =>
        rw [merged] at check
        cases check
      | ok filled =>
        rw [merged] at check
        obtain ⟨rfl, -⟩ := requireIdentity_ok check
        unfold mergeLocation at merged
        split_ifs at merged
        cases merged
        have least := inRange.1
        simp only [fillFromLocation]
        split_ifs <;> omega
  · obtain ⟨rfl, -⟩ := requireIdentity_ok check
    exact ⟨by omega, inRange.1⟩

theorem maxInt64_nonneg : 0 ≤ maxInt64 := by decide

namespace Index

/-- The counter is an `int64`, not negative, and no location is above it. -/
structure Dominant (idx : Index) : Prop where
  nonneg : 0 ≤ idx.nextSeqNo
  fits : idx.nextSeqNo ≤ maxInt64
  above : ∀ b w loc, idx.location b w = some loc → loc.seqNo ≤ idx.nextSeqNo

namespace Dominant

variable {idx idx' : Index} (dominant : idx.Dominant)
include dominant

theorem shrink (same : idx'.nextSeqNo = idx.nextSeqNo)
    (places : ∀ b w, idx'.location b w = idx.location b w ∨ idx'.location b w = none) :
    idx'.Dominant where
  nonneg := by rw [same]; exact dominant.nonneg
  fits := by rw [same]; exact dominant.fits
  above b w loc found := by
    rw [same]
    rcases places b w with kept | gone
    · exact dominant.above b w loc (by rw [← kept]; exact found)
    · rw [gone] at found
      cases found

theorem enter (loc : BlockLocation) {next : Int} (raised : idx.nextSeqNo ≤ next)
    (fits : next ≤ maxInt64) (covered : loc.seqNo ≤ next) :
    ({ idx with
      nextSeqNo := next
      byBlock := idx.byBlock.insert loc.blockHash
        (((idx.byBlock.lookup loc.blockHash).getD ∅).insert loc.workerID loc) } : Index).Dominant where
  nonneg := dominant.nonneg.trans raised
  fits := fits
  above b w other found := by
    rw [location_insert] at found
    split_ifs at found
    · cases found
      exact covered
    · exact (dominant.above b w other found).trans raised

theorem mark (worker : WorkerID) (seqNo : Int) : (idx.markWorkerSeqLocked worker seqNo).Dominant :=
  dominant.shrink (nextSeqNo_mark ..) fun _ _ => .inl (location_mark ..)

theorem storeLocationLocked (now : Time) {loc : BlockLocation} (least : 0 ≤ loc.seqNo)
    (most : loc.seqNo ≤ maxInt64) (rejectStale ordered : Bool) :
    let idx' := (idx.storeLocationLocked now loc rejectStale ordered).2
    idx'.Dominant ∧ idx.nextSeqNo ≤ idx'.nextSeqNo := by
  have fits := dominant.fits
  have revised : idx.nextSeqNo ≤ idx.revision ∧ idx.revision ≤ maxInt64 := by
    unfold revision
    split_ifs <;> omega
  dsimp only
  rw [storeLocationLocked_snd]
  generalize bound : (if loc.seqNo ≠ 0 ∧ loc.seqNo > idx.revision then loc.seqNo
    else idx.revision) = next
  have raised : idx.nextSeqNo ≤ next ∧ next ≤ maxInt64 ∧
      (if loc.seqNo = 0 then idx.revision else loc.seqNo) ≤ next := by
    rw [← bound]
    split_ifs <;> omega
  have entered := dominant.enter (normalizeLocation
    { loc with seqNo := if loc.seqNo = 0 then idx.revision else loc.seqNo } now idx.ttl)
    raised.1 raised.2.1 raised.2.2
  cases rejectStale && ordered && !idx.seqFreshLocked _ _ with
  | true =>
    exact ⟨⟨dominant.nonneg.trans raised.1, raised.2.1, fun b w loc found =>
      (dominant.above b w loc found).trans raised.1⟩, raised.1⟩
  | false =>
    cases ordered with
    | false => exact ⟨entered, raised.1⟩
    | true => exact ⟨entered.mark _ _, by rw [cond_false, cond_true, nextSeqNo_mark]; exact raised.1⟩

theorem evictLocked (block : BlockHash) (worker : WorkerID) (seqNo : Int) :
    let idx' := (idx.evictLocked block worker seqNo true).2
    idx'.Dominant ∧ idx.nextSeqNo ≤ idx'.nextSeqNo := by
  have cases := fun b w => idx.evictLocked_cases block b worker w seqNo true
  exact ⟨dominant.shrink (cases "" "").1 fun b w => (cases b w).2.2, (cases "" "").1.ge⟩

theorem call {next : IndexCall} (inRange : next.InRange) :
    (idx.call next).Dominant ∧ idx.nextSeqNo ≤ (idx.call next).nextSeqNo := by
  cases next with
  | store now later block worker tier tokens =>
    exact dominant.storeLocationLocked later (Int.le_refl 0) maxInt64_nonneg false false
  | storeLocation now loc =>
    exact dominant.storeLocationLocked now inRange.1 inRange.2 true _
  | evict block worker seqNo =>
    exact dominant.evictLocked block worker seqNo
  | evictWorker worker =>
    refine ⟨dominant.shrink rfl fun b w => ?_, Int.le_refl _⟩
    rw [Index.call, (idx.evictWorker_spec worker w b).1]
    split_ifs
    · exact .inr rfl
    · exact .inl rfl
  | apply event clock =>
    obtain ⟨ids, kept | ⟨valid, check, ⟨-, same⟩ | same⟩⟩ := idx.applyEvent_cases clock event
    all_goals have base : ({ idx with appliedEventIDs := ids } : Index).Dominant :=
      ⟨dominant.nonneg, dominant.fits, dominant.above⟩
    all_goals rw [Index.call]
    · rw [kept]
      exact ⟨base, Int.le_refl _⟩
    · have sequence := (eventLocation_identity (validateEvent_ok check) clock idx.ttl).2.2
      have bounds := validateEvent_inRange check inRange
      rw [same]
      exact base.storeLocationLocked clock.now (by rw [sequence]; exact bounds.1)
        (by rw [sequence]; exact bounds.2) true _
    · rw [same]
      exact base.evictLocked valid.blockHash valid.workerID valid.seqNo

theorem restoreLocations (readings : Nat → Time) {locs : List BlockLocation}
    (fit : ∀ loc ∈ locs, loc.seqNo ≤ maxInt64) : (idx.restoreLocations 2 readings locs).Dominant := by
  induction locs generalizing idx with
  | nil => exact dominant
  | cons loc rest ih =>
    rw [List.forall_mem_cons] at fit
    refine ih ?_ fit.2
    have fits := dominant.fits
    have raised : idx.nextSeqNo ≤ (if loc.seqNo > idx.nextSeqNo then loc.seqNo else idx.nextSeqNo) ∧
        (if loc.seqNo > idx.nextSeqNo then loc.seqNo else idx.nextSeqNo) ≤ maxInt64 ∧
        loc.seqNo ≤ (if loc.seqNo > idx.nextSeqNo then loc.seqNo else idx.nextSeqNo) := by
      split_ifs <;> omega
    exact dominant.enter (normalizeLocation loc (readings rest.length) idx.ttl) raised.1
      raised.2.1 raised.2.2

end Dominant

end Index

theorem Reached.dominant {idx : Index} (reached : Reached idx) : idx.Dominant := by
  induction reached with
  | new ttl =>
    exact ⟨Int.le_refl 0, maxInt64_nonneg, fun b w loc found => by simp [Index.new, Index.location] at found⟩
  | call _ inRange ih => exact (ih.call inRange).1
  | @restore idx other _ _ now readings _ taken =>
    have base : ({ idx with
        byBlock := ∅
        appliedEventIDs := ∅
        lastSeqByWorker := Index.restoreWatermarks other.lastSeqByWorker
        nextSeqNo := other.nextSeqNo } : Index).Dominant :=
      ⟨taken.nonneg, taken.fits, fun b w loc found => by simp [Index.location] at found⟩
    refine base.restoreLocations readings fun loc member => ?_
    obtain ⟨⟨b, w, found⟩, -⟩ := Index.mem_snapshot_locations.mp member
    exact (taken.above b w loc found).trans taken.fits

/-- In every state that calls and restores lead to, the counter is a non-negative `int64` at or
above every number held, no call lowers it, and below the limit a local write gets a number
above all that were held. -/
theorem local_revisions_ascend {idx : Index} (reached : Reached idx) :
    0 ≤ idx.nextSeqNo ∧ idx.nextSeqNo ≤ maxInt64 ∧
    (∀ b w loc, idx.location b w = some loc → loc.seqNo ≤ idx.nextSeqNo) ∧
    (∀ next : IndexCall, next.InRange → idx.nextSeqNo ≤ (idx.call next).nextSeqNo) ∧
    (idx.nextSeqNo < maxInt64 → ∀ now later block worker tier tokens, ∃ stored,
      (idx.store now later block worker tier tokens).location block worker = some stored ∧
        ∀ b w loc, idx.location b w = some loc → loc.seqNo < stored.seqNo) := by
  have dominant := reached.dominant
  refine ⟨dominant.nonneg, dominant.fits, dominant.above, fun next inRange =>
    (dominant.call inRange).2, fun room now later block worker tier tokens => ?_⟩
  have revision : idx.revision = idx.nextSeqNo + 1 := if_pos room
  unfold Index.store
  rw [Index.storeLocationLocked_snd]
  refine ⟨_, (Index.location_insert ..).trans (if_pos ⟨rfl, rfl⟩), fun b w loc found => ?_⟩
  have below := dominant.above b w loc found
  change loc.seqNo < if (0 : Int) = 0 then idx.revision else 0
  rw [if_pos rfl, revision]
  omega

def oneStore : Index := (Index.new 0).call (.store 1 1 "b" "w" tierGPU 16)

/-- A new index after a restore of its snapshot, and after an event of a producer that numbers
its events up to the limit. -/
def nearLimit : Index :=
  ((Index.new 0).restoreSnapshot (fun _ => 3) (oneStore.snapshot 2)).call (.apply
    { eventType := "block_stored", blockHash := "c", workerID := "v", seqNo := maxInt64 - 1 } ⟨4, 4, 4⟩)

theorem nearLimit_reached : Reached nearLimit := by
  have stored : Reached oneStore := .call (.new 0) trivial
  refine .call (.restore (.new 0) stored 2 fun _ => 3) ⟨by decide, ?_⟩
  intro loc wrong
  cases wrong

/-- It holds the numbers `1` and `MaxInt64 - 1`, and the next local store gets the last one. -/
theorem local_revisions_ascend_restored :
    (nearLimit.location "b" "w").map (·.seqNo) = some 1 ∧
    (nearLimit.location "c" "v").map (·.seqNo) = some (maxInt64 - 1) ∧
    ((nearLimit.store 5 5 "b" "v" tierGPU 16).location "b" "v").map (·.seqNo) = some maxInt64 ∧
    ∃ stored, (nearLimit.store 5 5 "b" "v" tierGPU 16).location "b" "v" = some stored ∧
      ∀ b w loc, nearLimit.location b w = some loc → loc.seqNo < stored.seqNo := by
  have taken : (oneStore.snapshot 2).locations = (oneStore.location "b" "w").toList :=
    List.mergeSort_singleton _
  have room : nearLimit.nextSeqNo < maxInt64 := by
    rw [nearLimit, Index.restoreSnapshot, taken]
    decide +kernel
  refine ⟨?_, ?_, ?_, (local_revisions_ascend nearLimit_reached).2.2.2.2 room 5 5 "b" "v" tierGPU 16⟩
  all_goals
    rw [nearLimit, Index.restoreSnapshot, taken]
    decide +kernel

end AiStorage.Router
