import AiStorage.Router.CacheEvents

/-!
# Local revisions against producer sequences

A location keeps one `SeqNo`. A producer event writes its own sequence there; a local write,
which has none, draws the next value of a counter that every worker's sequences push up. An
eviction is compared with the watermark of its worker and with the number at the location.
-/
namespace AiStorage.Router

/-- The calls that change an index. -/
inductive IndexCall where
  | store (now later : Time) (block : BlockHash) (worker : WorkerID) (tier : Tier) (tokens : Int)
  | storeLocation (now : Time) (loc : BlockLocation)
  | evict (block : BlockHash) (worker : WorkerID) (seqNo : Int)
  | evictWorker (worker : WorkerID)
  | apply (event : Event) (clock : Clock)
  deriving DecidableEq

def Index.call (idx : Index) : IndexCall → Index
  | .store now later block worker tier tokens => idx.store now later block worker tier tokens
  | .storeLocation now loc => idx.storeLocation now loc
  | .evict block worker seqNo => idx.evict block worker seqNo
  | .evictWorker worker => (idx.evictWorker worker).2
  | .apply event clock => (idx.applyEvent clock event).2

def Index.after (ttl : Int) : List IndexCall → Index
  | [] => Index.new ttl
  | call :: earlier => (Index.after ttl earlier).call call

/-- The call asks for a location of the block and worker without a producer sequence. -/
def IndexCall.WritesLocally (b : BlockHash) (w : WorkerID) : IndexCall → Prop
  | .store _ _ block worker _ _ => block = b ∧ worker = w
  | .storeLocation _ loc => loc.blockHash = b ∧ loc.workerID = w ∧ loc.seqNo = 0
  | .evict _ _ _ => False
  | .evictWorker _ => False
  | .apply event _ => ∃ valid, validateEvent event = .ok valid ∧
      valid.eventType = "block_stored" ∧ valid.blockHash = b ∧ valid.workerID = w ∧ valid.seqNo = 0

/-! ## What a call does to one entry and one watermark -/

namespace Index

theorem lastSeq_le_mark (idx : Index) (worker w : WorkerID) (seqNo : Int) :
    idx.lastSeq w ≤ (idx.markWorkerSeqLocked worker seqNo).lastSeq w := by
  by_cases ordered : worker ≠ "" ∧ 0 < seqNo
  · rw [lastSeq_mark idx worker w seqNo ordered.1 ordered.2]
    split_ifs with same
    · subst same
      omega
    · omega
  · have ignored : worker = "" ∨ seqNo ≤ 0 := by
      by_cases named : worker = ""
      · exact .inl named
      · exact .inr (Int.not_lt.mp fun positive => ordered ⟨named, positive⟩)
    have same : idx.markWorkerSeqLocked worker seqNo = idx := if_pos ignored
    exact Int.le_of_eq (by rw [same])

theorem storeLocationLocked_cases (idx : Index) (now : Time) (loc : BlockLocation)
    (rejectStale ordered : Bool) :
    ∃ next written, written.blockHash = loc.blockHash ∧ written.workerID = loc.workerID ∧
      (loc.seqNo ≠ 0 → written.seqNo = loc.seqNo) ∧
      let entered : Index := { idx with
        nextSeqNo := next
        byBlock := idx.byBlock.insert written.blockHash
          (((idx.byBlock.lookup written.blockHash).getD ∅).insert written.workerID written) }
      ((idx.storeLocationLocked now loc rejectStale ordered).2 = { idx with nextSeqNo := next } ∨
        (idx.storeLocationLocked now loc rejectStale ordered).2 =
          if ordered then entered.markWorkerSeqLocked written.workerID written.seqNo else entered) := by
  let revision := if idx.nextSeqNo < maxInt64 then idx.nextSeqNo + 1 else idx.nextSeqNo
  let numbered := { loc with seqNo := if loc.seqNo = 0 then revision else loc.seqNo }
  refine ⟨if loc.seqNo ≠ 0 ∧ loc.seqNo > revision then loc.seqNo else revision,
    normalizeLocation numbered now idx.ttl, rfl, rfl, ?_, ?_⟩
  · intro sequenced
    exact if_neg sequenced
  · dsimp only [storeLocationLocked]
    by_cases stale : (rejectStale && ordered && !({ idx with
        nextSeqNo := if loc.seqNo ≠ 0 ∧ loc.seqNo > revision then loc.seqNo else revision } :
          Index).seqFreshLocked loc.workerID numbered.seqNo) = true
    · exact .inl (congrArg Prod.snd (if_pos stale))
    · exact .inr (congrArg Prod.snd (if_neg stale))

@[simp] theorem nextSeqNo_mark (idx : Index) (worker : WorkerID) (seqNo : Int) :
    (idx.markWorkerSeqLocked worker seqNo).nextSeqNo = idx.nextSeqNo := by
  unfold markWorkerSeqLocked
  split_ifs <;> rfl

theorem evictLocked_cases (idx : Index) (block b : BlockHash) (worker w : WorkerID) (seqNo : Int)
    (rejectStale : Bool) :
    let idx' := (idx.evictLocked block worker seqNo rejectStale).2
    idx'.nextSeqNo = idx.nextSeqNo ∧ idx.lastSeq w ≤ idx'.lastSeq w ∧
      (idx'.location b w = idx.location b w ∨ idx'.location b w = none) := by
  dsimp only
  unfold evictLocked
  split_ifs
  · exact ⟨rfl, Int.le_refl _, .inl rfl⟩
  · cases outer : idx.byBlock.lookup block with
    | none => exact ⟨nextSeqNo_mark .., lastSeq_le_mark idx worker w seqNo, .inl (location_mark ..)⟩
    | some locations =>
      dsimp only
      cases inner : locations.lookup worker with
      | none => exact ⟨nextSeqNo_mark .., lastSeq_le_mark idx worker w seqNo, .inl (location_mark ..)⟩
      | some loc =>
        dsimp only
        split_ifs
        · exact ⟨nextSeqNo_mark .., lastSeq_le_mark idx worker w seqNo, .inl (location_mark ..)⟩
        · refine ⟨nextSeqNo_mark .., lastSeq_le_mark _ worker w seqNo, ?_⟩
          dsimp only
          rw [location_mark, location_dropLocation idx block b worker w outer]
          split_ifs
          · exact .inr rfl
          · exact .inl rfl

theorem applyEvent_cases (idx : Index) (clock : Clock) (event : Event) :
    ∃ ids, let base : Index := { idx with appliedEventIDs := ids }
      (idx.applyEvent clock event).2 = base ∨
      ∃ valid, validateEvent event = .ok valid ∧
        ((valid.eventType = "block_stored" ∧ (idx.applyEvent clock event).2 =
          (base.storeLocationLocked clock.now (eventLocation valid clock idx.ttl) true
            (valid.seqNo > 0)).2) ∨
        (idx.applyEvent clock event).2 =
          (base.evictLocked valid.blockHash valid.workerID valid.seqNo true).2) := by
  unfold applyEvent
  cases check : validateEvent event with
  | error message => exact ⟨idx.appliedEventIDs, .inl rfl⟩
  | ok valid =>
    obtain ⟨ids, same⟩ : ∃ ids, (idx.acceptEventLocked valid).2 = { idx with appliedEventIDs := ids } := by
      unfold acceptEventLocked
      dsimp only
      split_ifs
      all_goals exact ⟨_, rfl⟩
    refine ⟨ids, ?_⟩
    dsimp only
    cases accept : idx.acceptEventLocked valid with
    | mk accepted later =>
      rw [accept] at same
      dsimp only at same
      subst same
      cases accepted with
      | false => exact .inl rfl
      | true =>
        rcases (validateEvent_ok check).kind with stored | evicted
        · refine .inr ⟨valid, rfl, .inl ⟨stored, ?_⟩⟩
          simp only [stored, if_true]
        · refine .inr ⟨valid, rfl, .inr ?_⟩
          simp only [evicted, String.reduceEq, if_true, if_false]

/-- What a store call leaves at an entry: the old location, or a new one whose
number the watermark covers unless the call had no sequence of its own. -/
theorem storeLocationLocked_entry (idx : Index) (now : Time) (loc : BlockLocation)
    (rejectStale : Bool) (b : BlockHash) (w : WorkerID) (marked : 0 ≤ idx.lastSeq w) :
    let idx' := (idx.storeLocationLocked now loc rejectStale (loc.seqNo > 0)).2
    idx.lastSeq w ≤ idx'.lastSeq w ∧
      (idx'.location b w = idx.location b w ∨
        b = loc.blockHash ∧ w = loc.workerID ∧ (loc.seqNo = 0 ∨ w = "" ∨
          ∀ written, idx'.location b w = some written → written.seqNo ≤ idx'.lastSeq w)) := by
  obtain ⟨next, written, block, worker, number, kept | entered⟩ :=
    storeLocationLocked_cases idx now loc rejectStale (loc.seqNo > 0)
  · dsimp only
    rw [kept]
    exact ⟨Int.le_refl _, .inl rfl⟩
  · have place := location_insert idx b w next written
    dsimp only
    rw [entered]
    by_cases positive : loc.seqNo > 0
    · simp only [positive, decide_true, if_true, location_mark]
      refine ⟨lastSeq_le_mark _ _ _ _, ?_⟩
      rw [place]
      by_cases here : b = written.blockHash ∧ w = written.workerID
      · refine .inr ⟨here.1.trans block, here.2.trans worker, .inr ?_⟩
        by_cases named : w = ""
        · exact .inl named
        · refine .inr fun found same => ?_
          rw [if_pos here] at same
          cases same
          rw [lastSeq_mark _ _ _ _ (by rw [← here.2]; exact named)
            (by rw [number (by omega)]; exact positive), if_pos here.2]
          omega
      · exact .inl (if_neg here)
    · simp only [positive, decide_false, Bool.false_eq_true, if_false]
      refine ⟨Int.le_refl _, ?_⟩
      rw [place]
      by_cases here : b = written.blockHash ∧ w = written.workerID
      · refine .inr ⟨here.1.trans block, here.2.trans worker, ?_⟩
        by_cases unsequenced : loc.seqNo = 0
        · exact .inl unsequenced
        · refine .inr (.inr fun found same => ?_)
          rw [if_pos here] at same
          cases same
          have negative := number unsequenced
          change written.seqNo ≤ idx.lastSeq w
          omega
      · exact .inl (if_neg here)

end Index

/-! ## Whole histories -/

/-- A location above its worker's watermark was asked for by a local write. -/
structure Explained (calls : List IndexCall) (idx : Index) : Prop where
  marks : ∀ w, 0 ≤ idx.lastSeq w
  entries : ∀ b w loc, w ≠ "" → idx.location b w = some loc →
    loc.seqNo ≤ idx.lastSeq w ∨ ∃ call ∈ calls, call.WritesLocally b w

namespace Explained

variable {calls : List IndexCall} {idx : Index}

theorem later (explained : Explained calls idx) (call : IndexCall) : Explained (call :: calls) idx where
  marks := explained.marks
  entries b w loc named found := by
    rcases explained.entries b w loc named found with covered | ⟨writer, member, writes⟩
    · exact .inl covered
    · exact .inr ⟨writer, List.mem_cons_of_mem _ member, writes⟩

theorem shrink (explained : Explained calls idx) {idx' : Index}
    (step : ∀ b w, idx.lastSeq w ≤ idx'.lastSeq w ∧
      (idx'.location b w = idx.location b w ∨ idx'.location b w = none)) :
    Explained calls idx' where
  marks w := Int.le_trans (explained.marks w) (step "" w).1
  entries b w loc named found := by
    obtain ⟨raised, same | gone⟩ := step b w
    · rw [same] at found
      rcases explained.entries b w loc named found with covered | writer
      · exact .inl (Int.le_trans covered raised)
      · exact .inr writer
    · rw [gone] at found
      cases found

theorem store (explained : Explained calls idx) (now : Time) (loc : BlockLocation)
    (rejectStale : Bool)
    (writer : loc.seqNo = 0 → ∃ call ∈ calls, call.WritesLocally loc.blockHash loc.workerID) :
    Explained calls (idx.storeLocationLocked now loc rejectStale (loc.seqNo > 0)).2 where
  marks w := Int.le_trans (explained.marks w)
    (idx.storeLocationLocked_entry now loc rejectStale "" w (explained.marks w)).1
  entries b w found named place := by
    obtain ⟨raised, same | ⟨rfl, rfl, unsequenced | unnamed | covered⟩⟩ :=
      idx.storeLocationLocked_entry now loc rejectStale b w (explained.marks w)
    · rw [same] at place
      rcases explained.entries b w found named place with covered | local'
      · exact .inl (Int.le_trans covered raised)
      · exact .inr local'
    · exact .inr (writer unsequenced)
    · exact absurd unnamed named
    · exact .inl (covered found place)

theorem evictWorker (explained : Explained calls idx) (worker : WorkerID) :
    Explained calls (idx.evictWorker worker).2 where
  marks w := by
    rw [(Index.evictWorker_spec idx worker w "").2.1]
    split_ifs
    · exact Int.le_refl 0
    · exact explained.marks w
  entries b w loc named found := by
    obtain ⟨place, mark, -⟩ := Index.evictWorker_spec idx worker w b
    rw [place] at found
    rw [mark]
    split_ifs at found ⊢
    exact explained.entries b w loc named found

theorem call (explained : Explained calls idx) (next : IndexCall) :
    Explained (next :: calls) (idx.call next) := by
  have before := explained.later next
  cases next with
  | store now later block worker tier tokens =>
    exact before.store later _ false fun _ => ⟨_, List.mem_cons_self, rfl, rfl⟩
  | storeLocation now loc =>
    exact before.store now loc true fun unsequenced => ⟨_, List.mem_cons_self, rfl, rfl, unsequenced⟩
  | evict block worker seqNo =>
    exact before.shrink fun b w => (idx.evictLocked_cases block b worker w seqNo true).2
  | evictWorker worker => exact before.evictWorker worker
  | apply event clock =>
    obtain ⟨ids, kept | ⟨valid, check, ⟨stored, same⟩ | same⟩⟩ := idx.applyEvent_cases clock event
    · rw [Index.call, kept]
      exact ⟨before.marks, before.entries⟩
    · obtain ⟨block, worker, sequence⟩ :=
        eventLocation_identity (validateEvent_ok check) clock idx.ttl
      have base : Explained (.apply event clock :: calls) { idx with appliedEventIDs := ids } :=
        ⟨before.marks, before.entries⟩
      have result := base.store clock.now (eventLocation valid clock idx.ttl) true fun unsequenced =>
        ⟨_, List.mem_cons_self, valid, check, stored, block.symm, worker.symm,
          sequence.symm.trans unsequenced⟩
      rw [sequence] at result
      rw [Index.call, same]
      exact result
    · have base : Explained (.apply event clock :: calls) { idx with appliedEventIDs := ids } :=
        ⟨before.marks, before.entries⟩
      rw [Index.call, same]
      exact base.shrink fun b w => (Index.evictLocked_cases _ valid.blockHash b valid.workerID w
        valid.seqNo true).2

end Explained

theorem explained_after (ttl : Int) (calls : List IndexCall) :
    Explained calls (Index.after ttl calls) := by
  induction calls with
  | nil => exact ⟨fun w => by simp [Index.after, Index.new, Index.lastSeq],
      fun b w loc _ found => by simp [Index.after, Index.new, Index.location] at found⟩
  | cons call earlier ih => exact ih.call call

/-! ## A fresh producer eviction -/

namespace Index

/-- An eviction that passes the watermark is still held up by a greater number at
the location. -/
theorem location_evictLocked (idx : Index) (block : BlockHash) (worker : WorkerID) (seqNo : Int)
    (fresh : idx.seqFreshLocked worker seqNo = true) :
    (idx.evictLocked block worker seqNo true).2.location block worker =
      (idx.location block worker).filter fun loc => seqNo < loc.seqNo := by
  unfold evictLocked
  simp only [fresh, Bool.not_true, Bool.and_false, Bool.false_eq_true, if_false]
  cases outer : idx.byBlock.lookup block with
  | none =>
    have absent : idx.location block worker = none := by simp [location, outer]
    rw [location_mark, absent, Option.filter_none]
  | some locations =>
    dsimp only
    cases inner : locations.lookup worker with
    | none =>
      have absent : idx.location block worker = none := by simp [location, outer, inner]
      rw [location_mark, absent, Option.filter_none]
    | some loc =>
      have found : idx.location block worker = some loc := by simp [location, outer, inner]
      dsimp only
      by_cases newer : seqNo < loc.seqNo
      · rw [if_pos newer, location_mark, found, Option.filter_some, if_pos (decide_eq_true newer)]
      · rw [if_neg newer, location_mark, location_dropLocation idx block block worker worker outer,
          if_pos ⟨rfl, rfl⟩, found, Option.filter_some, if_neg (by simpa using newer)]

theorem location_applyEvent_evicted (idx : Index) (clock : Clock) {event valid : Event}
    (check : validateEvent event = .ok valid) (evicted : valid.eventType = "block_evicted")
    (positive : 0 < valid.seqNo) (newer : idx.lastSeq valid.workerID < valid.seqNo)
    (unseen : valid.eventID = "" ∨ valid.eventID ∉ idx.appliedEventIDs) :
    (idx.applyEvent clock event).2.location valid.blockHash valid.workerID =
      (idx.location valid.blockHash valid.workerID).filter fun loc => valid.seqNo < loc.seqNo := by
  have shape := validateEvent_ok check
  have fresh : (idx.consumeID valid.eventID).seqFreshLocked valid.workerID valid.seqNo = true := by
    unfold seqFreshLocked
    rw [consumeID_lastSeq]
    split_ifs
    · rfl
    · exact decide_eq_true (by omega)
  have accepted : idx.acceptEventLocked valid = (true, idx.consumeID valid.eventID) := by
    rw [acceptEventLocked_spec idx shape positive, decide_eq_true ⟨unseen, newer⟩]
  unfold applyEvent
  simp only [check, accepted, evicted, String.reduceEq, if_true, if_false]
  rw [location_evictLocked _ _ _ _ fresh, consumeID_location]

end Index

/-- A fresh eviction event is effective exactly when no local write has left a
revision above its sequence at the location it names. -/
theorem fresh_eviction_effective_iff (ttl : Int) (calls : List IndexCall) (clock : Clock)
    (event valid : Event) (check : validateEvent event = .ok valid)
    (evicted : valid.eventType = "block_evicted") (positive : 0 < valid.seqNo)
    (newer : (Index.after ttl calls).lastSeq valid.workerID < valid.seqNo)
    (unseen : valid.eventID = "" ∨ valid.eventID ∉ (Index.after ttl calls).appliedEventIDs) :
    let idx' := Index.after ttl (.apply event clock :: calls)
    (idx'.location valid.blockHash valid.workerID = none ∧
        ∀ now, idx'.overlapByWorker now [valid.blockHash] valid.workerID = 0) ↔
      ¬ ∃ loc, (Index.after ttl calls).location valid.blockHash valid.workerID = some loc ∧
        valid.seqNo < loc.seqNo ∧
        ∃ call ∈ calls, call.WritesLocally valid.blockHash valid.workerID := by
  have place := (Index.after ttl calls).location_applyEvent_evicted clock check evicted positive
    newer unseen
  change (Index.after ttl (.apply event clock :: calls)).location valid.blockHash valid.workerID = _
    at place
  constructor
  · rintro ⟨gone, -⟩ ⟨loc, found, above, -⟩
    rw [place, found, Option.filter_some, if_pos (decide_eq_true above)] at gone
    cases gone
  · intro unhindered
    have gone : (Index.after ttl (.apply event clock :: calls)).location valid.blockHash
        valid.workerID = none := by
      rw [place, Option.filter_eq_none_iff]
      intro loc found above
      have above : valid.seqNo < loc.seqNo := of_decide_eq_true above
      -- above the watermark too, so a local write must have left it
      rcases (explained_after ttl calls).entries _ _ loc (validateEvent_ok check).named found with
        covered | writer
      · omega
      · exact unhindered ⟨loc, found, above, writer⟩
    exact ⟨gone, fun now => by simp [Index.overlapByWorker, gone]⟩

/-- Another worker's sequence 100 pushes the counter, so a local write for `w` draws 101. -/
def pushedCounter : List IndexCall :=
  [.store 2 2 "b" "w" tierGPU 16,
    .apply { eventType := "block_stored", blockHash := "c", workerID := "v", seqNo := 100 } ⟨1, 1, 1⟩]

def lateEviction : Event :=
  { eventType := "block_evicted", blockHash := "b", workerID := "w", seqNo := 7 }

/-- The first producer event of `w` is a valid eviction and removes nothing. -/
theorem late_eviction_ineffective :
    validateEvent lateEviction = .ok lateEviction ∧
      (Index.after 30 pushedCounter).lastSeq "w" = 0 ∧
      ((Index.after 30 (.apply lateEviction ⟨3, 3, 3⟩ :: pushedCounter)).location "b" "w").isSome ∧
      (Index.after 30 (.apply lateEviction ⟨3, 3, 3⟩ :: pushedCounter)).overlapByWorker 3 ["b"] "w" = 1 := by
  decide

/-- After an ordered write the same eviction is effective. -/
theorem eviction_after_ordered_write :
    let calls : List IndexCall :=
      [.apply { eventType := "block_stored", blockHash := "b", workerID := "w", seqNo := 6 } ⟨1, 1, 1⟩]
    (Index.after 30 (.apply lateEviction ⟨3, 3, 3⟩ :: calls)).location "b" "w" = none := by
  refine ((fresh_eviction_effective_iff 30 _ ⟨3, 3, 3⟩ lateEviction lateEviction rfl rfl (by decide)
    (by decide) (.inl rfl)).mpr ?_).1
  rintro ⟨loc, found, above, -⟩
  cases found
  revert above
  decide

end AiStorage.Router
