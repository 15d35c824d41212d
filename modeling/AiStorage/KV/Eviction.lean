import AiStorage.KV.Presence

/-!
# Eviction over several tiers

Within one tier a deletion is visible before its physical cleanup: the row becomes a tombstone
first. The loop over the tiers stops at the first one that raises.
-/
namespace AiStorage.KV
open Lib Prog MetadataStore

/-! ## Deletion of a row -/

def Pinned (key : BlockKey) (tier : TierName) (w : World) : Prop :=
  ∃ row, w.store.blocks.find (key.row tier) = some row ∧ w.store.idle row = false

def Buried (key : BlockKey) (tier : TierName) (w : World) : Prop :=
  ∃ row, w.store.blocks.find (key.row tier) = some row ∧ row.state = .deleting

section Rows

variable {s : MetadataStore} {key : BlockKey} {tier : TierName}

inductive BeginsDelete (s : MetadataStore) (key : BlockKey) (tier : TierName) :
    Outcome (Option BlockLocation) → Prop where
  | refused (e : PyError) : BeginsDelete s key tier (.error e, s)
  | nothing (pinned : ∀ row, s.activeRow key tier = some row → s.idle row = false) :
      BeginsDelete s key tier (.ok none, s)
  | begun {location : BlockLocation} {s' : MetadataStore} (row : Row) (opened : s'.closed = false)
      (found : s'.blocks.find (key.row tier) = some row) (deleting : row.state = .deleting) :
      BeginsDelete s key tier (.ok (some location), s')

theorem beginDelete_begins (s : MetadataStore) (key : BlockKey) (tier : TierName) :
    BeginsDelete s key tier (s.beginDelete key tier) := by
  unfold beginDelete
  split_ifs with closed
  · exact .refused _
  have opened : s.closed = false := by simpa using closed
  cases found : s.blocks.find (key.row tier) with
  | none =>
    refine .nothing fun row active => ?_
    rw [(activeRow_eq_some.mp active).1] at found
    cases found
  | some row =>
    dsimp only
    cases state : row.state with
    | deleting =>
      dsimp only
      cases locationFromRow key row with
      | error e => exact .refused e
      | ok location => exact .begun row opened found state
    | active =>
      dsimp only
      split_ifs with busy
      · refine .nothing fun other active => ?_
        obtain rfl : row = other := by simpa [found] using (activeRow_eq_some.mp active).1
        have many : row.inFlight ≠ 0 := by omega
        simp [idle, busy.1, many]
      · cases locationFromRow key row with
        | error e => exact .refused e
        | ok location =>
          refine .begun (tombstone row) opened ?_ rfl
          rw [← Table.idOf_of_find found]
          exact Table.find_set_self s.blocks (tombstone row)

theorem finishDelete_of_buried (opened : s.closed = false) {row : Row}
    (found : s.blocks.find (key.row tier) = some row) (state : row.state = .deleting) :
    s.finishDelete key tier = (.ok true, { s with blocks := s.blocks.erase (key.row tier) }) := by
  unfold finishDelete deleteRow select
  rw [if_neg (by rw [opened]; decide), found]
  simp [Option.filter, state]

end Rows

/-! ## One tier -/

/-- How the eviction of a block in a tier ends, given how the removal of a payload ends. -/
inductive Evicts (removal : BlockLocation → Except PyError Unit → Prop) (tier : TierName)
    (key : BlockKey) (w : World) : Except PyError Bool → World → Prop where
  | refused {e e' : PyError} (stays : (w.store.beginDelete key tier).1 = .error e') :
      Evicts removal tier key w (.error e) w
  | untouched (nothing : (w.store.beginDelete key tier).1 = .ok none)
      (pinned : ∀ row, w.store.activeRow key tier = some row → w.store.idle row = false) :
      Evicts removal tier key w (.ok false) w
  | failed {e : PyError} {location : BlockLocation} {w' : World}
      (begun : (w.store.beginDelete key tier).1 = .ok (some location))
      (raised : removal location (.error e))
      (buried : Buried key tier w') (confined : Confined tier w w')
      (mutation : w'.mutation = w.mutation) (memoryLock : w'.memoryLock = w.memoryLock) :
      Evicts removal tier key w (.error e) w'
  | removed {location : BlockLocation} {w' : World}
      (begun : (w.store.beginDelete key tier).1 = .ok (some location))
      (succeeded : removal location (.ok ()))
      (gone : w'.store.blocks.find (key.row tier) = none)
      (confined : Confined tier w w') (mutation : w'.mutation = w.mutation)
      (memoryLock : w'.memoryLock = w.memoryLock) : Evicts removal tier key w (.ok true) w'

theorem confined_op (op : StoreOp) {tier : TierName} {id : RowId} (here : op.row = some id)
    (inside : id.tier = tier) (w : World) :
    Confined tier w { w with store := op.apply w.store } := by
  obtain ⟨e, effect, -⟩ := Act.effect_op op here inside w
  exact effect.confined

theorem Backend.evict_total {B : Backend} {key : BlockKey} {t : Nat} {w : World}
    {allowed : Choice → Prop} {removal : BlockLocation → Except PyError Unit → Prop}
    (reliable : ∀ c, allowed c → Reliable c)
    (removing : ∀ location w, (B.remove location).Total (single t allowed fun _ _ => True)
      (fun r w' => removal location r ∧ OnlyPayloads w w' ∧ Confined B.tier w w') w)
    (free : w.Free t) :
    (B.evict key).Total (single t allowed fun _ _ => True) (Evicts removal B.tier key w) w := by
  have closedRefuses : w.store.closed = true →
      (w.store.beginDelete key B.tier).1 = .error closedError := by
    intro closed
    rw [beginDelete, if_pos closed]
  refine total_withMutation free.mutation trivial
    (fun closed => ⟨trivial, .refused (closedRefuses closed)⟩) fun _ => ?_
  have begins := beginDelete_begins w.store key B.tier
  have confined := confined_op (.beginDelete key B.tier) rfl rfl w
  refine step_exclusive (RLock.admits_enter free.mutation) (fun _ _ => trivial) (never_broken reliable) (fun c choice found s done => ?_)
    fun c choice e s done => ?_
  · change w.store.beginDelete key B.tier = _ at done
    rw [done] at begins
    rw [show StoreOp.apply w.store (.beginDelete key B.tier) = s from congrArg Prod.snd done] at confined
    cases begins with
    | nothing pinned => exact ⟨rfl, trivial, .untouched (congrArg Prod.fst done) pinned⟩
    | @begun location s row opened found deleting =>
      have begun := congrArg Prod.fst done
      refine .bind (removing location _) (fun _ w₁ post => ?_)
        fun e w₁ post => ?_
      · obtain ⟨succeeded, only, inside⟩ := post
        have finish := finishDelete_of_buried opened found deleting
        have closing := confined_op (.finishDelete key B.tier) rfl rfl w₁
        refine step_exclusive (by rw [only.mutation]; exact RLock.admits_enter free.mutation)
          (fun _ _ => trivial) (never_broken reliable)
          (fun c choice finished s' done => ?_) fun c choice e s' done => ?_
        · change w₁.store.finishDelete key B.tier = _ at done
          rw [show StoreOp.apply w₁.store (.finishDelete key B.tier) = s' from
            congrArg Prod.snd done] at closing
          rw [only.store, finish] at done
          obtain ⟨⟨⟩, rfl⟩ := Prod.mk.inj done
          refine ⟨only.mutation, trivial, .removed begun succeeded
            (Table.find_erase_self _ _) ?_ rfl only.memoryLock⟩
          exact confined.trans (inside.trans closing).relock
        · change w₁.store.finishDelete key B.tier = _ at done
          rw [only.store, finish] at done
          cases done
      · obtain ⟨raised, only, inside⟩ := post
        refine ⟨only.mutation, trivial, .failed begun raised ⟨row, ?_, deleting⟩ ?_ rfl only.memoryLock⟩
        · change w₁.store.blocks.find _ = _
          rw [only.store]
          exact found
        · exact confined.trans inside.relock
  · change w.store.beginDelete key B.tier = _ at done
    rw [done] at begins
    cases begins
    exact ⟨rfl, trivial, .refused (congrArg Prod.fst done)⟩

/-! ## Removal of payloads -/

def Broken (operation : Operation) (allowed : Choice → Prop) : Prop :=
  ∀ c, allowed c → c.fails operation = true

namespace NVMeTier

variable (tier : NVMeTier)

def IsSegment (location : BlockLocation) : Prop :=
  ∃ ref, tier.validatedLocationTarget location = .ok (.segment ref)

def Removal (allowed : Choice → Prop) (location : BlockLocation) (r : Except PyError Unit) : Prop :=
  (tier.IsSegment location → r = .ok ()) ∧
    (Broken .file allowed → ¬tier.IsSegment location → ∃ e, r = .error e)

theorem physical_remove (location : BlockLocation) :
    (tier.removeTarget location).Uses device Act.Physical := by
  refine .bind trivial fun target => ?_
  cases target with
  | segment ref => trivial
  | file path =>
    refine .handle (.perform (Act.physical_unlink path)) fun e => ?_
    split_ifs <;> trivial

theorem remove_total (t : Nat) (allowed : Choice → Prop) (location : BlockLocation) (w : World) :
    (tier.backend.remove location).Total (single t allowed fun _ _ => True)
      (fun r w' => tier.Removal allowed location r ∧ OnlyPayloads w w' ∧ Confined .nvme w w') w := by
  have frame := @total_physical Unit _ .nvme _ t allowed w (tier.physical_remove location)
    (tier.quiet_backend.remove location)
  refine (Total.and ?_ frame).mono fun r w' post => ⟨post.1, post.2.2⟩
  unfold Removal IsSegment
  refine Total.value (fun target found => ?_) fun e found => ?_
  · rw [found]
    cases target with
    | segment ref => exact ⟨fun _ => rfl, fun _ other => absurd ⟨ref, rfl⟩ other⟩
    | file path =>
      have unlinks : (perform (Act.unlink path)).Total (single t allowed fun _ _ => True)
          (fun r _ => Broken .file allowed → r = .error (.bare .osError)) w := by
        refine .perform fun c choice => ?_
        obtain ⟨x, w', done, -⟩ := Act.physical_unlink path t c w
        refine ⟨x, w', done, trivial, fun broken => ?_⟩
        rw [Act.unlink, if_pos (broken c choice)] at done
        cases done
        rfl
      have file : ¬∃ ref, (.ok (.file path) : Except PyError Target) = .ok (.segment ref) :=
        fun ⟨_, wrong⟩ => by cases wrong
      refine .handle unlinks (fun _ _ post => ⟨fun segment => absurd segment file, fun broken _ => ?_⟩)
        fun e w' post => ?_
      · cases post broken
      · split_ifs with missing
        · refine ⟨fun segment => absurd segment file, fun broken _ => ?_⟩
          cases post broken
          cases missing
        · exact ⟨fun segment => absurd segment file, fun _ _ => ⟨e, rfl⟩⟩
  · rw [found]
    refine ⟨?_, fun _ _ => ⟨e, rfl⟩⟩
    rintro ⟨ref, wrong⟩
    cases wrong

end NVMeTier

namespace S3Tier

variable (tier : S3Tier)

def Removal (allowed : Choice → Prop) (r : Except PyError Unit) : Prop :=
  Broken .delete allowed → ∃ e, r = .error e

theorem physical_headExists (objectKey : Text) (allowAmbiguous : Bool) :
    (headExists objectKey allowAmbiguous).Uses device Act.Physical := by
  refine .handle (.bind (.perform (Act.physical_observe _)) fun _ => trivial) fun e => ?_
  split_ifs <;> trivial

theorem physical_remove (location : BlockLocation) :
    (tier.removeObject location).Uses device Act.Physical := by
  refine .bind trivial fun target => .bind ?_ fun _ =>
    .bind (physical_headExists target.2 true) fun there => ?_
  · refine .handle (.perform (Act.physical_deleteObject target.2)) fun e => ?_
    split_ifs <;> trivial
  · cases there <;> trivial

theorem remove_total (t : Nat) (allowed : Choice → Prop) (location : BlockLocation) (w : World) :
    (tier.backend.remove location).Total (single t allowed fun _ _ => True)
      (fun r w' => Removal allowed r ∧ OnlyPayloads w w' ∧ Confined .s3 w w') w := by
  have frame := @total_physical Unit _ .s3 _ t allowed w (tier.physical_remove location)
    (tier.quiet_backend.remove location)
  refine (Total.and ?_ frame).mono fun r w' post => ⟨post.1, post.2.2⟩
  by_cases broken : Broken .delete allowed
  · refine Total.value (fun target found => ?_) fun e _ _ => ⟨e, rfl⟩
    have deletes : (perform (Act.deleteObject target.2)).Total (single t allowed fun _ _ => True)
        (fun r _ => ∃ reason, r = .error ⟨.clientError, reason⟩) w := by
      refine .perform fun c choice => ?_
      obtain ⟨x, w', done, -⟩ := Act.physical_deleteObject target.2 t c w
      refine ⟨x, w', done, trivial, c.reason, ?_⟩
      simp only [Act.deleteObject, if_pos (broken c choice)] at done
      cases done
      rfl
    have refused : ((perform (Act.deleteObject target.2)).handle fun e =>
        if isNotFound false e then return () else raise (requestFailed "delete_object" e)).Total
          (single t allowed fun _ _ => True) (fun r _ => ∃ e, r = .error e) w := by
      refine .handle deletes (fun _ _ post => ?_) fun e w' post => ?_
      · obtain ⟨reason, wrong⟩ := post
        cases wrong
      · obtain ⟨reason, same⟩ := post
        cases same
        rw [isNotFound_clientError, if_neg Bool.false_ne_true]
        exact ⟨_, rfl⟩
    refine .bind refused (fun _ _ wrong => ?_) fun e _ _ _ => ⟨e, rfl⟩
    obtain ⟨e, wrong⟩ := wrong
    cases wrong
  · exact frame.mono fun _ _ _ always => absurd always broken

end S3Tier

namespace MemoryTier

variable {key : BlockKey} {t : Nat} {w : World}

inductive MemoryEvicts (key : BlockKey) (w : World) : Except PyError Bool → World → Prop where
  | refused {e : PyError} (closed : w.store.closed = true) : MemoryEvicts key w (.error e) w
  | absent (none : Act.held key w.memory = none) : MemoryEvicts key w (.ok false) w
  | untouched (pinned : ∀ row, w.store.activeRow key .memory = some row → w.store.idle row = false) :
      MemoryEvicts key w (.ok false) w
  | removed {w' : World} (gone : w'.store.blocks.find (key.row .memory) = none)
      (confined : Confined .memory w w') (mutation : w'.mutation = w.mutation)
      (memoryLock : w'.memoryLock = w.memoryLock) : MemoryEvicts key w (.ok true) w'

theorem evict_total (free : w.Free t) : (evict key).Total (alone t) (MemoryEvicts key w) w := by
  refine total_withMemoryLock free.memoryLock trivial ?_
  refine step_observe trivial (fun c choice data held => ?_) fun c choice e wrong => by cases wrong
  obtain rfl := Except.ok.inj held
  cases there : Act.held key w.memory with
  | none => exact ⟨rfl, trivial, .absent there⟩
  | some data =>
    have confined := confined_op (.delete key .memory) rfl rfl w
    refine step_exclusive free.mutation (fun _ _ => trivial)
      (fun c choice broken => absurd broken (by rw [choice]; decide)) (fun c choice removed s done => ?_)
      fun c choice e s done => ?_
    · change w.store.delete key .memory = _ at done
      rw [show StoreOp.apply w.store (.delete key .memory) = s from congrArg Prod.snd done] at confined
      rcases w.store.delete_cases key .memory with
        ⟨same, kept, free⟩ | ⟨row, member, here, active, idle, deleted⟩
      · rw [done] at same kept
        obtain rfl : s = w.store := same
        cases removed with
        | true => exact absurd rfl kept
        | false =>
          refine ⟨rfl, trivial, .untouched fun row active => ?_⟩
          obtain ⟨found, state⟩ := activeRow_eq_some.mp active
          obtain ⟨member, here⟩ := Table.find_eq_some_iff.mp found
          rcases free with closed | busy
          · rw [MetadataStore.delete, if_pos closed] at done
            cases done
          · exact busy row member here state
      · rw [deleted] at done
        obtain ⟨⟨⟩, rfl⟩ := Prod.mk.inj done
        refine step_memoryPop there trivial ⟨rfl, trivial, .removed ?_ ?_ rfl rfl⟩
        · change (w.store.blocks.erase row.id).find (key.row .memory) = none
          rw [here]
          exact Table.find_erase_self _ _
        · have popped : Confined .memory { w with store := { w.store with
              blocks := w.store.blocks.erase row.id } } { w with
                store := { w.store with blocks := w.store.blocks.erase row.id }
                memory := Act.without key w.memory
                usedBytes := w.usedBytes - data.length } := (Effect.memory _ _ rfl).confined
          exact confined.trans popped
    · change w.store.delete key .memory = _ at done
      by_cases closed : w.store.closed = true
      · rw [MetadataStore.delete, if_pos closed] at done
        obtain ⟨-, rfl⟩ := Prod.mk.inj done
        exact ⟨rfl, trivial, .refused closed⟩
      · rw [MetadataStore.delete, if_neg closed] at done
        cases done

end MemoryTier

/-! ## Any tier -/

/-- What the tier has of a block does not depend on the other tiers. -/
structure SameFor (tier : TierName) (w w' : World) : Prop where
  rows : ∀ key : BlockKey, w'.store.blocks.find (key.row tier) = w.store.blocks.find (key.row tier)
  closed : w'.store.closed = w.store.closed
  epoch : w'.store.ownerEpoch = w.store.ownerEpoch
  files : tier = .nvme → w'.files = w.files
  objects : tier = .s3 → w'.objects = w.objects
  memory : tier = .memory → w'.memory = w.memory

theorem Confined.sameFor {tier other : TierName} {w w' : World} (confined : Confined tier w w')
    (apart : other ≠ tier) : SameFor other w w' where
  rows key := confined.rows (key.row other) apart
  closed := confined.closed
  epoch := confined.epoch
  files here := confined.files (here ▸ apart.symm)
  objects here := confined.objects (here ▸ apart.symm)
  memory here := confined.memory (here ▸ apart.symm)

namespace SameFor

variable {key : BlockKey} {w w' : World}

theorem refl (tier : TierName) (w : World) : SameFor tier w w :=
  ⟨fun _ => rfl, rfl, rfl, fun _ => rfl, fun _ => rfl, fun _ => rfl⟩

theorem trans {tier : TierName} {w'' : World} (first : SameFor tier w w')
    (second : SameFor tier w' w'') : SameFor tier w w'' where
  rows key := (second.rows key).trans (first.rows key)
  closed := second.closed.trans first.closed
  epoch := second.epoch.trans first.epoch
  files here := (second.files here).trans (first.files here)
  objects here := (second.objects here).trans (first.objects here)
  memory here := (second.memory here).trans (first.memory here)

theorem symm {tier : TierName} (same : SameFor tier w w') : SameFor tier w' w where
  rows key := (same.rows key).symm
  closed := same.closed.symm
  epoch := same.epoch.symm
  files here := (same.files here).symm
  objects here := (same.objects here).symm
  memory here := (same.memory here).symm

theorem lookup {tier : TierName} (same : SameFor tier w w') :
    w'.store.lookup key tier = w.store.lookup key tier := by
  unfold MetadataStore.lookup activeRow
  rw [same.closed, same.rows key]

theorem beginDelete {tier : TierName} (same : SameFor tier w w') :
    (w'.store.beginDelete key tier).1 = (w.store.beginDelete key tier).1 := by
  unfold MetadataStore.beginDelete
  rw [same.closed, same.rows key, same.epoch]
  split_ifs with closed
  · rfl
  · cases w.store.blocks.find (key.row tier) with
    | none => rfl
    | some row =>
      dsimp only
      cases row.state with
      | deleting => rfl
      | active =>
        dsimp only
        split_ifs
        · rfl
        · cases locationFromRow key row <;> rfl

theorem pinned {tier : TierName} (same : SameFor tier w w') (pinned : Pinned key tier w) :
    Pinned key tier w' := by
  obtain ⟨row, found, busy⟩ := pinned
  refine ⟨row, (same.rows key).trans found, ?_⟩
  rw [← busy, idle, idle, same.epoch]

theorem visible {tier : Tier} (same : SameFor tier.name w w') (visible : tier.Visible key w) :
    tier.Visible key w' := by
  obtain ⟨location, found, there⟩ := visible
  refine ⟨location, same.lookup.trans found, ?_⟩
  cases tier with
  | memory tier =>
    change MemoryTier.Present key location w'
    rw [MemoryTier.Present, same.memory rfl]
    exact there
  | nvme tier =>
    change tier.Present location w'
    rw [NVMeTier.Present, same.files rfl]
    exact there
  | s3 tier =>
    change tier.Present location w'
    rw [S3Tier.Present, same.objects rfl]
    exact there

end SameFor

def Faulty (c : Choice) : Prop := Reliable c ∧ ∀ operation, c.fails operation = true

namespace Tier

/-- The eviction of the block can raise: there is a row to delete, and its payload is a file or
an object. -/
def CanFail : Tier → BlockKey → World → Prop
  | memory _, _, _ => False
  | nvme tier, key, w => (w.store.beginDelete key .nvme).1 ≠ .ok none ∧
      ∀ location, (w.store.beginDelete key .nvme).1 = .ok (some location) → ¬tier.IsSegment location
  | s3 _, key, w => (w.store.beginDelete key .s3).1 ≠ .ok none

structure EvictEnds (tier : Tier) (key : BlockKey) (w : World) (r : Except PyError Bool) (w' : World) :
    Prop where
  confined : Confined tier.name w w'
  mutation : w'.mutation = w.mutation
  memoryLock : w'.memoryLock = w.memoryLock
  hidden : tier.Visible key w' → Pinned key tier.name w
  raised : ∀ e, r = .error e → w.store.closed = true ∨ tier.CanFail key w
  buried : ∀ e, r = .error e → Buried key tier.name w' ∨
    ∃ e', (w.store.beginDelete key tier.name).1 = .error e'

variable {tier : Tier} {key : BlockKey} {t : Nat} {w w' : World} {r : Except PyError Bool}

theorem Visible.active (visible : tier.Visible key w) :
    ∃ row, w.store.activeRow key tier.name = some row := by
  obtain ⟨location, found, -⟩ := visible
  obtain ⟨row, active, -⟩ := lookup_ok found
  exact ⟨row, active⟩

theorem Visible.not_gone (visible : tier.Visible key w) :
    w.store.blocks.find (key.row tier.name) ≠ none := by
  obtain ⟨row, active⟩ := visible.active
  rw [(activeRow_eq_some.mp active).1]
  exact nofun

theorem Visible.not_buried (visible : tier.Visible key w) : ¬Buried key tier.name w := by
  rintro ⟨row, found, deleting⟩
  obtain ⟨other, active⟩ := visible.active
  obtain ⟨same, state⟩ := activeRow_eq_some.mp active
  rw [found] at same
  cases same
  rw [deleting] at state
  cases state

theorem Visible.pinned (visible : tier.Visible key w)
    (busy : ∀ row, w.store.activeRow key tier.name = some row → w.store.idle row = false) :
    Pinned key tier.name w := by
  obtain ⟨row, active⟩ := visible.active
  exact ⟨row, (activeRow_eq_some.mp active).1, busy row active⟩

theorem Visible.deletable (visible : tier.Visible key w) (e : PyError) :
    (w.store.beginDelete key tier.name).1 ≠ .error e := by
  obtain ⟨location, found, -⟩ := visible
  obtain ⟨row, active, built⟩ := lookup_ok found
  obtain ⟨here, state⟩ := activeRow_eq_some.mp active
  have opened : ¬w.store.closed = true := by
    intro closed
    rw [MetadataStore.lookup, if_pos closed] at found
    cases found
  rw [MetadataStore.beginDelete, if_neg opened, here]
  dsimp only
  rw [state]
  dsimp only
  split_ifs
  · exact nofun
  · rw [built]
    exact nofun

theorem EvictEnds.of_evicts {removal : BlockLocation → Except PyError Unit → Prop}
    (evicts : Evicts removal tier.name key w r w')
    (refused : ∀ e, (w.store.beginDelete key tier.name).1 = .error e → tier.CanFail key w)
    (failed : ∀ location e, (w.store.beginDelete key tier.name).1 = .ok (some location) →
      removal location (.error e) → tier.CanFail key w) : tier.EvictEnds key w r w' := by
  cases evicts with
  | refused stays =>
    exact ⟨.refl _ _, rfl, rfl, fun visible => absurd stays (visible.deletable _),
      fun _ _ => .inr (refused _ stays), fun _ _ => .inr ⟨_, stays⟩⟩
  | untouched nothing pinned =>
    exact ⟨.refl _ _, rfl, rfl, fun visible => visible.pinned pinned, nofun, nofun⟩
  | failed begun raised buried confined mutation memoryLock =>
    exact ⟨confined, mutation, memoryLock, fun visible => absurd buried visible.not_buried,
      fun _ _ => .inr (failed _ _ begun raised), fun _ _ => .inl buried⟩
  | removed begun succeeded gone confined mutation memoryLock =>
    exact ⟨confined, mutation, memoryLock, fun visible => absurd gone visible.not_gone, nofun, nofun⟩

theorem evict_total (free : w.Free t) : (tier.evict key).Total (alone t) (tier.EvictEnds key w) w := by
  cases tier with
  | memory tier =>
    refine (MemoryTier.evict_total free).mono fun r w' evicts => ?_
    cases evicts with
    | refused closed =>
      have refuses : (w.store.beginDelete key .memory).1 = .error closedError := by
        rw [MetadataStore.beginDelete, if_pos closed]
      exact ⟨.refl _ _, rfl, rfl, fun visible => absurd refuses (visible.deletable _),
        fun _ _ => .inl closed, fun _ _ => .inr ⟨_, refuses⟩⟩
    | absent none =>
      refine ⟨.refl _ _, rfl, rfl, fun visible => ?_, nofun, nofun⟩
      obtain ⟨location, -, there, -⟩ := visible
      rw [none] at there
      cases there
    | untouched busy => exact ⟨.refl _ _, rfl, rfl, fun visible => visible.pinned busy, nofun, nofun⟩
    | removed gone confined mutation memoryLock =>
      exact ⟨confined, mutation, memoryLock, fun visible => absurd gone visible.not_gone, nofun,
        nofun⟩
  | nvme tier =>
    refine (Backend.evict_total (fun _ answers => answers) (tier.remove_total t Reliable) free).mono
      fun r w' evicts => .of_evicts evicts (fun e stays => ⟨?_, ?_⟩) fun location e begun raised => ⟨?_, ?_⟩
    · rw [show (w.store.beginDelete key .nvme).1 = .error e from stays]
      exact nofun
    · intro location begun
      rw [show (w.store.beginDelete key .nvme).1 = .error e from stays] at begun
      cases begun
    · rw [show (w.store.beginDelete key .nvme).1 = .ok (some location) from begun]
      exact nofun
    · intro other same segment
      rw [show (w.store.beginDelete key .nvme).1 = .ok (some location) from begun] at same
      cases same
      cases raised.1 segment
  | s3 tier =>
    refine (Backend.evict_total (fun _ answers => answers) (tier.remove_total t Reliable) free).mono
      fun r w' evicts => .of_evicts evicts (fun e stays nothing => ?_) fun location e begun _ nothing => ?_
    · rw [show (w.store.beginDelete key .s3).1 = .error e from stays] at nothing
      cases nothing
    · rw [show (w.store.beginDelete key .s3).1 = .ok (some location) from begun] at nothing
      cases nothing

theorem evicts_error {removal : BlockLocation → Except PyError Unit → Prop} {name : TierName}
    (evicts : Evicts removal name key w r w') (some_row : (w.store.beginDelete key name).1 ≠ .ok none)
    (fails : ∀ location, (w.store.beginDelete key name).1 = .ok (some location) →
      ¬removal location (.ok ())) : ∃ e, r = .error e := by
  cases evicts with
  | refused => exact ⟨_, rfl⟩
  | untouched nothing => exact absurd nothing some_row
  | failed => exact ⟨_, rfl⟩
  | removed begun succeeded => exact absurd succeeded (fails _ begun)

theorem CanFail.exists_run (canFail : tier.CanFail key w) (free : w.Free t) :
    ∃ e w', (tier.evict key).Ends device t Reliable w (.error e) w' := by
  have some_choice : ∃ c, Faulty c := ⟨brokenChoice, rfl, fun _ => rfl⟩
  have total : (tier.evict key).Total (single t Faulty fun _ _ => True)
      (fun r _ => ∃ e, r = .error e) w := by
    cases tier with
    | memory tier => exact canFail.elim
    | nvme tier =>
      refine (Backend.evict_total (fun _ choice => choice.1) (tier.remove_total t Faulty) free).mono
        fun r w' evicts => evicts_error evicts canFail.1 fun location begun succeeded => ?_
      obtain ⟨e, wrong⟩ := succeeded.2 (fun c choice => choice.2 .file) (canFail.2 location begun)
      cases wrong
    | s3 tier =>
      refine (Backend.evict_total (fun _ choice => choice.1) (tier.remove_total t Faulty) free).mono
        fun r w' evicts => evicts_error evicts canFail fun location begun succeeded => ?_
      obtain ⟨e, wrong⟩ := succeeded fun c choice => choice.2 .delete
      cases wrong
  obtain ⟨r, w', run, e, rfl⟩ := total.exists_run some_choice
  exact ⟨e, w', run.mono fun c choice => choice.1⟩

theorem CanFail.frame (canFail : tier.CanFail key w) (same : SameFor tier.name w w') :
    tier.CanFail key w' := by
  cases tier with
  | memory tier => exact canFail
  | nvme tier =>
    have begins : (w'.store.beginDelete key .nvme).1 = (w.store.beginDelete key .nvme).1 :=
      same.beginDelete
    exact ⟨fun nothing => canFail.1 (begins.symm.trans nothing),
      fun location begun => canFail.2 location (begins.symm.trans begun)⟩
  | s3 tier =>
    have begins : (w'.store.beginDelete key .s3).1 = (w.store.beginDelete key .s3).1 :=
      same.beginDelete
    exact fun nothing => canFail (begins.symm.trans nothing)

end Tier

/-! ## The loop over the tiers -/

namespace MultiTier

variable {key : BlockKey} {t : Nat}

/-- If the first tier raised, the second would stay as it is. -/
def Shields (key : BlockKey) (w : World) (first second : Tier) : Prop :=
  first.CanFail key w ∧ second.Visible key w ∧ ¬Pinned key second.name w

theorem shields_frame {w w' : World} {first second : Tier} (here : SameFor first.name w w')
    (there : SameFor second.name w w') (shields : Shields key w' first second) :
    Shields key w first second :=
  ⟨shields.1.frame here.symm, there.symm.visible shields.2.1, fun pinned =>
    shields.2.2 (there.pinned pinned)⟩

theorem evictFrom_total {tiers : List Tier} (unique : (tiers.map Tier.name).Nodup) {w : World}
    (free : w.Free t) (ordered : tiers.Pairwise fun first second => ¬Shields key w first second)
    (removed : Bool) : (evictFrom key removed tiers).Total (alone t) (fun _ w' =>
      (∀ tier ∈ tiers, tier.Visible key w' → Pinned key tier.name w) ∧
      ∀ name, name ∉ tiers.map Tier.name → SameFor name w w') w := by
  induction tiers generalizing w removed with
  | nil => exact ⟨List.forall_mem_nil _, fun name _ => .refl name w⟩
  | cons head rest ih =>
    obtain ⟨fresh, unique⟩ := List.nodup_cons.mp unique
    obtain ⟨first, ordered⟩ := List.pairwise_cons.mp ordered
    have apart : ∀ tier ∈ rest, tier.name ≠ head.name := fun tier member same =>
      fresh (same ▸ List.mem_map_of_mem member)
    refine .bind (Tier.evict_total free) (fun here w₁ post => ?_) fun e w₁ post => ?_
    · have others : ∀ tier ∈ rest, SameFor tier.name w w₁ := fun tier member =>
        post.confined.sameFor (apart tier member)
      have ordered₁ : rest.Pairwise fun first second => ¬Shields key w₁ first second :=
        ordered.imp_of_mem fun here there unshielded shields =>
          unshielded (shields_frame (others _ here) (others _ there) shields)
      refine (ih unique ⟨post.mutation ▸ free.mutation, post.memoryLock ▸ free.memoryLock⟩ ordered₁
        _).mono fun r w' later => ⟨fun tier member visible => ?_, fun name outside => ?_⟩
      · rcases List.mem_cons.mp member with rfl | inside
        · exact post.hidden ((later.2 tier.name fresh).symm.visible visible)
        · exact (others tier inside).symm.pinned (later.1 tier inside visible)
      · rw [List.map_cons, List.mem_cons, not_or] at outside
        exact (post.confined.sameFor outside.1).trans (later.2 name outside.2)
    · refine ⟨fun tier member visible => ?_, fun name outside => ?_⟩
      · rcases List.mem_cons.mp member with rfl | inside
        · exact post.hidden visible
        · have before := (post.confined.sameFor (apart tier inside)).symm.visible visible
          rcases post.raised e rfl with closed | canFail
          · obtain ⟨location, found, -⟩ := before
            rw [MetadataStore.lookup, if_pos closed] at found
            cases found
          · exact not_not.mp fun free => first tier inside ⟨canFail, before, free⟩
      · rw [List.map_cons, List.mem_cons, not_or] at outside
        exact post.confined.sameFor outside.1

theorem exists_visible_run {tiers : List Tier} (unique : (tiers.map Tier.name).Nodup) {w : World}
    (free : w.Free t) (shielded : ¬tiers.Pairwise fun first second => ¬Shields key w first second)
    (removed : Bool) : ∃ r w', (evictFrom key removed tiers).Ends device t Reliable w r w' ∧
      w'.Free t ∧ ∃ tier ∈ tiers, tier.Visible key w' ∧ ¬Pinned key tier.name w := by
  induction tiers generalizing w removed with
  | nil => exact absurd .nil shielded
  | cons head rest ih =>
    obtain ⟨fresh, unique⟩ := List.nodup_cons.mp unique
    have apart : ∀ tier ∈ rest, tier.name ≠ head.name := fun tier member same =>
      fresh (same ▸ List.mem_map_of_mem member)
    -- a run in which the first eviction raises leaves the others as they are
    have raises : ∀ second ∈ rest, second.Visible key w → ¬Pinned key second.name w →
        ∀ e w₁, (head.evict key).Ends device t Reliable w (.error e) w₁ →
        ∃ r w', (evictFrom key removed (head :: rest)).Ends device t Reliable w r w' ∧
          w'.Free t ∧ ∃ tier ∈ head :: rest, tier.Visible key w' ∧ ¬Pinned key tier.name w := by
      intro second member visible idle e w₁ run
      have post : head.EvictEnds key w (.error e) w₁ := (Tier.evict_total free).ends run
      exact ⟨.error e, w₁, run.thenDo .ret,
        ⟨post.mutation ▸ free.mutation, post.memoryLock ▸ free.memoryLock⟩, second,
        List.mem_cons_of_mem _ member,
        (post.confined.sameFor (apart second member)).visible visible, idle⟩
    by_cases front : ∃ second ∈ rest, Shields key w head second
    · obtain ⟨second, member, canFail, visible, idle⟩ := front
      obtain ⟨e, w₁, run⟩ := canFail.exists_run free
      exact raises second member visible idle e w₁ run
    · have back : ¬rest.Pairwise fun first second => ¬Shields key w first second := fun ordered =>
        shielded (List.pairwise_cons.mpr ⟨fun second member shields =>
          front ⟨second, member, shields⟩, ordered⟩)
      obtain ⟨r, w₁, run, post⟩ := (Tier.evict_total free).exists_run ⟨calmChoice, rfl⟩
      cases r with
      | error e =>
        obtain ⟨second, member, visible, idle⟩ : ∃ second ∈ rest,
            second.Visible key w ∧ ¬Pinned key second.name w := by
          by_contra none
          refine back (List.pairwise_of_forall_mem_list fun first _ second member shields => ?_)
          exact none ⟨second, member, shields.2⟩
        exact raises second member visible idle e w₁ run
      | ok here =>
        have others : ∀ tier ∈ rest, SameFor tier.name w w₁ := fun tier member =>
          post.confined.sameFor (apart tier member)
        have back₁ : ¬rest.Pairwise fun first second => ¬Shields key w₁ first second := fun ordered =>
          back (ordered.imp_of_mem fun here there unshielded shields => unshielded
            (shields_frame (others _ here).symm (others _ there).symm shields))
        obtain ⟨r, w', later, free', tier, member, visible, idle⟩ := ih unique
          ⟨post.mutation ▸ free.mutation, post.memoryLock ▸ free.memoryLock⟩ back₁ (here || removed)
        exact ⟨r, w', run.thenDo later, free', tier, List.mem_cons_of_mem _ member, visible,
          fun pinned => idle ((others tier member).pinned pinned)⟩

theorem evictFrom_free (tiers : List Tier) {w : World} (free : w.Free t) (removed : Bool) :
    (evictFrom key removed tiers).Total (alone t) (fun _ w' => w'.Free t) w := by
  induction tiers generalizing w removed with
  | nil => exact free
  | cons head rest ih =>
    have still : ∀ {r w₁}, head.EvictEnds key w r w₁ → w₁.Free t := fun post =>
      ⟨post.mutation ▸ free.mutation, post.memoryLock ▸ free.memoryLock⟩
    exact .bind (Tier.evict_total free) (fun _ _ post => ih (still post) _) fun _ _ post => still post

end MultiTier

/-- The eviction over all tiers always ends. It is logically complete, whatever the physical
deletes do, exactly when no tier whose deletion can raise stands before one that shows the block
unpinned; a tier that raised keeps a tombstone, unless its row could not be decoded. -/
theorem multi_tier_eviction_complete_iff (store : MultiTier) (key : BlockKey) (t : Nat) (w : World)
    (free : w.Free t) :
    (store.evict key none).Total (alone t) (fun _ w' => w'.Free t) w ∧
    ((∀ r w', (store.evict key none).Ends device t Reliable w r w' →
        ∀ tier ∈ store.tiers, tier.Shows t key w' → Pinned key tier.name w) ↔
      store.tiers.Pairwise fun first second =>
        ¬(first.CanFail key w ∧ second.Shows t key w ∧ ¬Pinned key second.name w)) ∧
    ∀ tier ∈ store.tiers, ∀ w₁, w₁.Free t → ∀ e w', (tier.evict key).Ends device t Reliable w₁ (.error e) w' →
      Buried key tier.name w' ∨ ∃ e', (w₁.store.beginDelete key tier.name).1 = .error e' := by
  have ends : (store.evict key none).Total (alone t) (fun _ w' => w'.Free t) w :=
    MultiTier.evictFrom_free store.tiers free false
  refine ⟨ends, ?_, fun tier _ w₁ free₁ e w' run => ((Tier.evict_total free₁).ends run).buried e rfl⟩
  simp only [Tier.shows_iff_visible free]
  constructor
  · intro complete
    by_contra shielded
    obtain ⟨r, w', run, free', tier, member, visible, idle⟩ :=
      MultiTier.exists_visible_run store.unique free shielded false
    exact idle (complete r w' run tier member ((Tier.shows_iff_visible free').mpr visible))
  · intro ordered r w' run tier member shown
    have free' := ends.ends run
    exact ((MultiTier.evictFrom_total store.unique free ordered false).ends run).1 tier member
      ((Tier.shows_iff_visible free').mp shown)

def sampleTiers : MultiTier where
  tiers := [.nvme sampleNVMe, .s3 sampleS3]
  nonempty := by decide
  unique := by decide
  costModel := { profiles := fun _ => none }

def storedTwice : World :=
  (emptyWorld.after (sampleNVMe.store sampleKey [1, 2, 3] sampleMetadata)).after
    (sampleS3.store sampleKey [1, 2, 3] sampleMetadata)

/-- The file cannot be unlinked, and the object is never asked for. -/
theorem failed_unlink_leaves_object_visible : ∃ e w',
    (sampleTiers.evict sampleKey none).Ends device 0 Reliable storedTwice (.error e) w' ∧
      (Tier.s3 sampleS3).Shows 0 sampleKey w' ∧ ¬Pinned sampleKey .s3 storedTwice := by
  have outcome : ((sampleTiers.evict sampleKey none).execute device 0 brokenChoice storedTwice).map
      (fun ended => (ended.1.isOk, (((Tier.s3 sampleS3).lookup sampleKey).execute device 0 calmChoice
        ended.2).bind fun seen => seen.1.toOption.join.map BlockLocation.tier)) =
          some (false, some .s3) := by decide +kernel
  have idle : ((storedTwice.store.blocks.find (sampleKey.row .s3)).all storedTwice.store.idle) =
      true := by decide +kernel
  obtain ⟨⟨r, w'⟩, ran, seen⟩ := Option.map_eq_some_iff.mp outcome
  obtain ⟨raised, seen⟩ := Prod.mk.inj seen
  obtain ⟨⟨found, w''⟩, looked, named⟩ := Option.bind_eq_some_iff.mp seen
  have broken : Reliable brokenChoice := rfl
  have calm : Reliable calmChoice := rfl
  cases r with
  | ok removed => cases raised
  | error e =>
    refine ⟨e, w', ends_of_execute broken ran, ?_, ?_⟩
    · rcases found with e' | location
      · cases named
      · cases location with
        | none => cases named
        | some location => exact ⟨location, w'', ends_of_execute calm looked⟩
    · rintro ⟨row, found, busy⟩
      rw [found] at idle
      exact Bool.false_ne_true (busy.symm.trans idle)

theorem storedTwice_eviction_ends : storedTwice.Free 0 ∧
    (sampleTiers.evict sampleKey none).Total (alone 0) (fun _ w' => w'.Free 0) storedTwice := by
  have locks : storedTwice.mutation.admits 0 = true ∧ storedTwice.memoryLock.admits 0 = true := by
    decide +kernel
  have free : storedTwice.Free 0 := ⟨locks.1, locks.2⟩
  exact ⟨free, (multi_tier_eviction_complete_iff sampleTiers sampleKey 0 storedTwice free).1⟩

end AiStorage.KV
