import AiStorage.KV.Immutability

/-!
# Pins are counted exactly

A ledger of the acquires that were not released yet runs beside the store. The counter
of a row, read under the owner's epoch, is the ledger's count of it.
-/
namespace AiStorage.KV
open Lib

namespace MetadataStore

/-! ## Counts and changes -/

def countAfter (count : RowId → Nat) : StoreEvent → RowId → Nat
  | .pin id => Function.update count id (count id + 1)
  | .unpin id => Function.update count id (count id - 1)
  | .reopen => fun _ => 0
  | _ => count

structure Exact (s : MetadataStore) (count : RowId → Nat) : Prop where
  counted : ∀ row ∈ s.blocks.rows, s.effective row = count row.id
  present : ∀ id, 0 < count id → ∃ row ∈ s.blocks.rows, row.id = id
  nonneg : ∀ row ∈ s.blocks.rows, 0 ≤ row.inFlight
  buried : ∀ row ∈ s.blocks.rows, row.state = .deleting → row.inFlight = 0
  owned : ∀ row ∈ s.blocks.rows, row.inFlightEpoch = [] ∨ row.inFlightEpoch = s.ownerEpoch

theorem exact_create (epoch : Text) : (create epoch).Exact fun _ => 0 :=
  ⟨List.forall_mem_nil _, nofun, List.forall_mem_nil _, List.forall_mem_nil _, List.forall_mem_nil _⟩

variable {s : MetadataStore} {count : RowId → Nat}

theorem Exact.set {changed : Row} {count' : RowId → Nat} (exact : s.Exact count)
    (others : ∀ id, id ≠ changed.id → count' id = count id)
    (counted : s.effective changed = count' changed.id) (nonneg : 0 ≤ changed.inFlight)
    (buried : changed.state = .deleting → changed.inFlight = 0)
    (owned : changed.inFlightEpoch = [] ∨ changed.inFlightEpoch = s.ownerEpoch) :
    Exact { s with blocks := s.blocks.set changed } count' := by
  refine ⟨fun row member => ?_, fun id positive => ?_, fun row member => ?_, fun row member => ?_,
    fun row member => ?_⟩
  · rcases Table.mem_set.mp member with rfl | ⟨there, apart⟩
    · exact counted
    · rw [others row.id apart]
      exact exact.counted row there
  · by_cases here : id = changed.id
    · exact ⟨changed, Table.mem_set.mpr (.inl rfl), here.symm⟩
    · rw [others id here] at positive
      obtain ⟨row, there, same⟩ := exact.present id positive
      exact ⟨row, Table.mem_set.mpr (.inr ⟨there, same ▸ here⟩), same⟩
  · rcases Table.mem_set.mp member with rfl | ⟨there, -⟩
    · exact nonneg
    · exact exact.nonneg row there
  · rcases Table.mem_set.mp member with rfl | ⟨there, -⟩
    · exact buried
    · exact exact.buried row there
  · rcases Table.mem_set.mp member with rfl | ⟨there, -⟩
    · exact owned
    · exact exact.owned row there

theorem Exact.erase {row : Row} (exact : s.Exact count) (free : count row.id = 0) :
    Exact { s with blocks := s.blocks.erase row.id } count := by
  refine ⟨fun other member => exact.counted other (Table.mem_erase.mp member).1, fun id positive => ?_,
    fun other member => exact.nonneg other (Table.mem_erase.mp member).1,
    fun other member => exact.buried other (Table.mem_erase.mp member).1,
    fun other member => exact.owned other (Table.mem_erase.mp member).1⟩
  obtain ⟨other, there, same⟩ := exact.present id positive
  refine ⟨other, Table.mem_erase.mpr ⟨there, fun clash => ?_⟩, same⟩
  rw [← same, clash, free] at positive
  exact absurd positive (Nat.lt_irrefl 0)

theorem effective_of_idle {row : Row} (free : s.idle row = true) : s.effective row = 0 := by
  simp only [idle, Bool.or_eq_true, decide_eq_true_eq] at free
  unfold effective
  split_ifs with own
  · exact free.resolve_right (fun apart => apart own)
  · rfl

theorem Exact.deleting {row : Row} (exact : s.Exact count) (member : row ∈ s.blocks.rows)
    (deleting : row.state = .deleting) : count row.id = 0 := by
  have counted := exact.counted row member
  unfold effective at counted
  rw [exact.buried row member deleting] at counted
  split_ifs at counted <;> omega

theorem Change.exact {s' : MetadataStore} {event : StoreEvent} (change : Change s event s')
    (exact : s.Exact count) : s'.Exact (countAfter count event) := by
  cases change with
  | nothing => exact exact
  | close => exact ⟨exact.counted, exact.present, exact.nonneg, exact.buried, exact.owned⟩
  | publish published =>
    have accepted := acceptUpsert_ok published
    rename_i row
    have kept : row.inFlight = count row.id := by
      rw [accepted.inFlight]
      cases found : s.blocks.find row.id with
      | none =>
        -- a row that is not there has no pins
        have zero : count row.id = 0 := by
          by_contra some
          obtain ⟨other, there, same⟩ := exact.present row.id (Nat.pos_of_ne_zero some)
          have missing := Table.mem_rows.mp there
          rw [same, found] at missing
          exact absurd missing nofun
        simp [zero]
      | some old =>
        obtain ⟨there, same⟩ := Table.find_eq_some_iff.mp found
        have counted := exact.counted old there
        rw [same] at counted
        simpa using counted
    refine exact.set (fun _ _ => rfl) ?_ ?_ ?_ (.inr accepted.epoch)
    · rw [effective, if_pos accepted.epoch]
      exact kept
    · rw [kept]
      exact Int.natCast_nonneg _
    · rw [accepted.state]
      nofun
  | touch now member active =>
    rename_i row
    have counted : s.effective (touched now row) = (count row.id : Int) := exact.counted row member
    exact exact.set (fun _ _ => rfl) counted (exact.nonneg row member :) (exact.buried row member :)
      (exact.owned row member :)
  | pin member active =>
    rename_i row
    have counted := exact.counted row member
    have positive := exact.nonneg row member
    refine exact.set (fun id apart => Function.update_of_ne apart _ _) ?_ ?_ ?_ (.inr rfl)
    · change s.effective (s.pinned row) = ((countAfter count (.pin row.id)) row.id : Nat)
      simp only [countAfter, Function.update_self, effective, pinned, if_true] at counted ⊢
      split_ifs at counted ⊢ <;> omega
    · simp only [pinned]
      split_ifs <;> omega
    · exact fun deleting => absurd (active.symm.trans deleting) nofun
  | unpin member own =>
    rename_i row
    have counted := exact.counted row member
    refine exact.set (fun id apart => Function.update_of_ne apart _ _) ?_ (Int.le_max_right _ _) ?_
      (.inr own)
    · change s.effective (unpinned row) = ((countAfter count (.unpin row.id)) row.id : Nat)
      simp only [countAfter, Function.update_self, effective, unpinned, own, if_true] at counted ⊢
      omega
    · intro deleting
      have none := exact.buried row member deleting
      simp [unpinned, none]
  | remove member active free =>
    have counted := exact.counted _ member
    rw [effective_of_idle free] at counted
    exact exact.erase (by omega)
  | bury member active free =>
    rename_i row
    have counted := exact.counted row member
    have nonneg := exact.nonneg row member
    have none : s.effective row = 0 := by
      unfold effective
      split_ifs with own
      · have low : ¬0 < row.inFlight := fun busy => free ⟨own, busy⟩
        omega
      · rfl
    refine exact.set (fun _ _ => rfl) ?_ (Int.le_refl 0) (fun _ => rfl) (.inl rfl)
    change s.effective (tombstone row) = (count row.id : Int)
    rw [← counted, none]
    change (if ([] : Text) = s.ownerEpoch then (0 : Int) else 0) = 0
    split <;> rfl
  | finish member deleting => exact exact.erase (exact.deleting member deleting)
  | reopen epoch =>
    have reset : ∀ row ∈ (s.reopen epoch).blocks.rows, row.inFlight = 0 ∧ row.inFlightEpoch = [] := by
      intro row member
      obtain ⟨before, -, rfl⟩ := List.mem_map.mp member
      exact ⟨rfl, rfl⟩
    refine ⟨fun row member => ?_, nofun, fun row member => ?_, fun row member _ => (reset row member).1,
      fun row member => .inl (reset row member).2⟩
    · rw [effective, (reset row member).1]
      split_ifs <;> rfl
    · rw [(reset row member).1]

end MetadataStore

/-! ## The ledger -/

/-- A store and the successful acquires of this owner that were not released. -/
structure Audited where
  store : MetadataStore
  held : List (BlockKey × TierName)

namespace Audited

def create (epoch : Text) : Audited := ⟨.create epoch, []⟩

def outstanding (a : Audited) (id : RowId) : Nat := a.held.countP fun pin => pin.1.row pin.2 = id

def heldAfter (a : Audited) : StoreOp → List (BlockKey × TierName)
  | .acquire key tier =>
    match (a.store.acquire key tier).1 with
    | .ok true => (key, tier) :: a.held
    | _ => a.held
  | .lookupAndAcquire key tier =>
    match (a.store.lookupAndAcquire key tier).1 with
    | .ok (some _) => (key, tier) :: a.held
    | _ => a.held
  | .release key tier =>
    match (a.store.release key tier).1 with
    | .ok () => a.held.erase (key, tier)
    | .error _ => a.held
  | .reopen _ => []
  | _ => a.held

def step (a : Audited) (op : StoreOp) : Audited := ⟨op.apply a.store, a.heldAfter op⟩

/-- A release follows a successful acquire of the same key and tier. -/
def Matched (a : Audited) : StoreOp → Prop
  | .release key tier => (key, tier) ∈ a.held
  | _ => True

structure Consistent (a : Audited) : Prop where
  sound : a.store.Sound
  exact : a.store.Exact a.outstanding

theorem outstanding_cons (a : Audited) (key : BlockKey) (tier : TierName) :
    (⟨a.store, (key, tier) :: a.held⟩ : Audited).outstanding =
      MetadataStore.countAfter a.outstanding (.pin (key.row tier)) := by
  funext id
  simp only [outstanding, List.countP_cons, MetadataStore.countAfter, Function.update_apply,
    decide_eq_true_eq]
  by_cases here : key.row tier = id
  · simp [here]
  · simp [here, Ne.symm here]

theorem outstanding_erase (a : Audited) {key : BlockKey} {tier : TierName}
    (member : (key, tier) ∈ a.held) :
    (⟨a.store, a.held.erase (key, tier)⟩ : Audited).outstanding =
      MetadataStore.countAfter a.outstanding (.unpin (key.row tier)) := by
  funext id
  have split := (List.perm_cons_erase member).countP_eq fun pin => decide (pin.1.row pin.2 = id)
  simp only [List.countP_cons, decide_eq_true_eq] at split
  simp only [outstanding, MetadataStore.countAfter, Function.update_apply]
  by_cases here : key.row tier = id
  · subst here
    simp only [if_true] at split ⊢
    omega
  · rw [if_neg here] at split
    rw [if_neg (Ne.symm here)]
    omega

theorem outstanding_pos {a : Audited} {key : BlockKey} {tier : TierName}
    (member : (key, tier) ∈ a.held) : 0 < a.outstanding (key.row tier) :=
  List.countP_pos_iff.mpr ⟨(key, tier), member, by simp⟩

theorem Consistent.after {a : Audited} (consistent : a.Consistent) {op : StoreOp}
    (matched : a.Matched op) : (a.step op).Consistent := by
  obtain ⟨sound, exact⟩ := consistent
  -- an event that neither pins nor unpins leaves the ledger alone
  have plain : ∀ {event s'}, MetadataStore.Change a.store event s' →
      MetadataStore.countAfter a.outstanding event = a.outstanding →
      (⟨s', a.held⟩ : Audited).Consistent := by
    intro event s' change same
    have after := change.exact exact
    rw [same] at after
    exact ⟨change.sound sound, after⟩
  have unchanged : (⟨a.store, a.held⟩ : Audited).Consistent := plain (.nothing a.store) rfl
  have pin : ∀ {key tier row}, row ∈ a.store.blocks.rows → row.id = key.row tier →
      row.state = .active →
      (⟨{ a.store with blocks := a.store.blocks.set (a.store.pinned row) }, (key, tier) :: a.held⟩ :
        Audited).Consistent := by
    intro key tier row member here active
    have change := MetadataStore.Change.pin member active
    have after := change.exact exact
    rw [here, ← outstanding_cons] at after
    exact ⟨change.sound sound, after⟩
  cases op with
  | upsert now location m =>
    rcases a.store.upsert_change now location m with ⟨e, failed⟩ | ⟨row, accepted, done⟩
    · simpa only [step, StoreOp.apply, heldAfter, failed] using unchanged
    · simp only [step, StoreOp.apply, heldAfter, done]
      exact plain (.publish accepted) rfl
  | touch now key tier =>
    rcases a.store.touch_cases key tier now with same | ⟨row, member, -, active, done⟩
    · simpa only [step, StoreOp.apply, heldAfter, same] using unchanged
    · simp only [step, StoreOp.apply, heldAfter, done]
      exact plain (.touch now member active) rfl
  | acquire key tier =>
    rcases a.store.acquire_cases key tier with ⟨same, refused⟩ | ⟨row, member, here, active, done⟩
    · simpa only [step, StoreOp.apply, heldAfter, same, refused] using unchanged
    · simp only [step, StoreOp.apply, heldAfter, done]
      exact pin member here active
  | lookupAndAcquire key tier =>
    rcases a.store.lookupAndAcquire_cases key tier with
      ⟨same, refused⟩ | ⟨row, member, here, active, done⟩
    · simpa only [step, StoreOp.apply, heldAfter, same, refused] using unchanged
    · -- the row was written, so its location can be built
      obtain ⟨m, holds⟩ := sound.written row member
      have pinned : (a.store.pinned row).Holds m := holds.congr rfl
      obtain ⟨location, built⟩ := pinned.location key
      simp only [step, StoreOp.apply, heldAfter, done, built]
      exact pin member here active
  | release key tier =>
    have positive := outstanding_pos matched
    rcases a.store.release_cases key tier with ⟨same, reason⟩ | ⟨row, member, here, own, done⟩
    · rcases reason with closed | foreign
      · have failed : a.store.release key tier = (.error MetadataStore.closedError, a.store) := by
          simp [MetadataStore.release, closed]
        simpa only [step, StoreOp.apply, heldAfter, failed] using unchanged
      · -- a row with live pins belongs to this owner
        obtain ⟨row, member, id⟩ := exact.present _ positive
        have counted := exact.counted row member
        rw [MetadataStore.effective, if_neg (foreign row member id), id] at counted
        omega
    · have change := MetadataStore.Change.unpin member own
      have after := change.exact exact
      rw [here, ← outstanding_erase a matched] at after
      simp only [step, StoreOp.apply, heldAfter, done]
      exact ⟨change.sound sound, after⟩
  | delete key tier =>
    rcases a.store.delete_cases key tier with ⟨same, -⟩ | ⟨row, member, -, active, free, done⟩
    · simpa only [step, StoreOp.apply, heldAfter, same] using unchanged
    · simp only [step, StoreOp.apply, heldAfter, done]
      exact plain (.remove member active free) rfl
  | beginDelete key tier =>
    rcases a.store.beginDelete_cases key tier with
      ⟨same, -⟩ | ⟨row, member, -, active, free, _, -, done⟩
    · simpa only [step, StoreOp.apply, heldAfter, same] using unchanged
    · simp only [step, StoreOp.apply, heldAfter, done]
      exact plain (.bury member active free) rfl
  | finishDelete key tier =>
    rcases a.store.finishDelete_cases key tier with ⟨same, -⟩ | ⟨row, member, -, deleting, done⟩
    · simpa only [step, StoreOp.apply, heldAfter, same] using unchanged
    · simp only [step, StoreOp.apply, heldAfter, done]
      exact plain (.finish member deleting) rfl
  | close => exact plain (.close a.store) rfl
  | reopen epoch =>
    have change := MetadataStore.Change.reopen a.store epoch
    exact ⟨change.sound sound, change.exact exact⟩

end Audited

/-! ## Exact pins over whole runs -/

open MetadataStore in
/-- A pinned row is neither removed nor tombstoned. -/
theorem MetadataStore.Exact.refuses {s : MetadataStore} {count : RowId → Nat}
    (exact : s.Exact count) {key : BlockKey} {tier : TierName}
    (positive : 0 < count (key.row tier)) :
    (s.delete key tier).2 = s ∧ (s.beginDelete key tier).2 = s ∧
      ∃ row ∈ s.blocks.rows, row.id = key.row tier ∧ row.state = .active := by
  obtain ⟨row, member, id⟩ := exact.present _ positive
  have counted : s.effective row = count (key.row tier) := id ▸ exact.counted row member
  have only : ∀ other ∈ s.blocks.rows, other.id = key.row tier → other = row :=
    fun other inside same => Table.eq_of_id inside member (same.trans id.symm)
  refine ⟨?_, ?_, row, member, id, ?_⟩
  · rcases s.delete_cases key tier with ⟨same, -⟩ | ⟨other, inside, here, -, free, -⟩
    · exact same
    · rw [only other inside here] at free
      rw [effective_of_idle free] at counted
      omega
  · rcases s.beginDelete_cases key tier with ⟨same, -⟩ | ⟨other, inside, here, -, free, -⟩
    · exact same
    · rw [only other inside here] at free
      unfold effective at counted
      split_ifs at counted with own
      · exact absurd ⟨own, by omega⟩ free
      · omega
  · cases state : row.state with
    | active => rfl
    | deleting =>
      have none := exact.deleting member state
      rw [id] at none
      omega

open MetadataStore in
theorem MetadataStore.Exact.removable {s : MetadataStore} {count : RowId → Nat} (sound : s.Sound)
    (exact : s.Exact count) (opened : s.closed = false) {key : BlockKey} {tier : TierName} {row : Row}
    (member : row ∈ s.blocks.rows) (id : row.id = key.row tier) (active : row.state = .active)
    (free : count row.id = 0) :
    s.delete key tier = (.ok true, { s with blocks := s.blocks.erase row.id }) ∧
      ∃ location, s.beginDelete key tier =
        (.ok (some location), { s with blocks := s.blocks.set (tombstone row) }) := by
  have counted : s.effective row = 0 := by
    rw [exact.counted row member, free]
    rfl
  have only : ∀ other ∈ s.blocks.rows, other.id = key.row tier → other = row :=
    fun other inside same => Table.eq_of_id inside member (same.trans id.symm)
  constructor
  · rcases s.delete_cases key tier with ⟨-, -, reason⟩ | ⟨other, inside, here, -, -, done⟩
    · rcases reason with closed | busy
      · exact absurd closed (by simp [opened])
      · have refused := busy row member id active
        simp only [idle, Bool.or_eq_false_iff, decide_eq_false_iff_not, ne_eq, not_not] at refused
        rw [effective, if_pos refused.2] at counted
        exact absurd counted refused.1
    · rw [only other inside here] at done
      exact done
  · rcases s.beginDelete_cases key tier with ⟨-, reason⟩ | ⟨other, inside, here, -, -, location, -, done⟩
    · rcases reason with closed | busy
      · exact absurd closed (by simp [opened])
      · rcases busy row member id active with pinned | ⟨e, failed⟩
        · rw [effective, if_pos pinned.1] at counted
          omega
        · obtain ⟨m, holds⟩ := sound.written row member
          obtain ⟨location, built⟩ := holds.location key
          exact absurd (failed.symm.trans built) nofun
    · rw [only other inside here] at done
      exact ⟨location, done⟩

open MetadataStore in
/-- In every run in which each release matches an acquire, the counter of each row is
the number of its acquires that were not released. Publishing a row again keeps it; a
pinned row stays active; an active row without pins can be removed and tombstoned;
a new owner starts with no pins and no foreign epoch. -/
theorem in_flight_pins_exact (epoch : Text) (ops : List StoreOp)
    (matched : Along Audited.step Audited.Matched (.create epoch) ops) :
    let a := run Audited.step (.create epoch) ops
    (∀ row ∈ a.store.blocks.rows, a.store.effective row = a.outstanding row.id) ∧
    (∀ now location m, (a.store.upsert now location m).1 = .ok () →
      ∃ row ∈ (a.store.upsert now location m).2.blocks.rows,
        row.id = location.key.row location.tier ∧
        (a.store.upsert now location m).2.effective row = a.outstanding row.id) ∧
    (∀ key tier, 0 < a.outstanding (key.row tier) →
      (a.store.delete key tier).2 = a.store ∧ (a.store.beginDelete key tier).2 = a.store ∧
      ∃ row ∈ a.store.blocks.rows, row.id = key.row tier ∧ row.state = .active) ∧
    (∀ key tier, ∀ row ∈ a.store.blocks.rows, row.id = key.row tier → row.state = .active →
      a.outstanding row.id = 0 → a.store.closed = false →
      (a.store.delete key tier).1 = .ok true ∧
      (∀ other ∈ (a.store.delete key tier).2.blocks.rows, other.id ≠ row.id) ∧
      (∃ location, (a.store.beginDelete key tier).1 = .ok (some location)) ∧
      ∀ other ∈ (a.store.beginDelete key tier).2.blocks.rows, other.id = row.id →
        other.state = .deleting) ∧
    ∀ epoch', ∀ row ∈ (a.store.reopen epoch').blocks.rows,
      row.inFlight = 0 ∧ row.inFlightEpoch = [] := by
  intro a
  have consistent : a.Consistent :=
    matched.invariant Audited.Consistent (fun _ _ consistent fits => consistent.after fits)
      ⟨sound_create epoch, exact_create epoch⟩
  obtain ⟨sound, exact⟩ := consistent
  refine ⟨exact.counted, fun now location m done => ?_, fun key tier positive => exact.refuses positive,
    fun key tier row member id active free opened => ?_, fun epoch' row member => ?_⟩
  · rcases a.store.upsert_change now location m with ⟨e, failed⟩ | ⟨row, published, result⟩
    · rw [failed] at done
      exact absurd done nofun
    · have accepted := acceptUpsert_ok published
      have after := (Change.publish published).exact exact
      have inside : row ∈ (a.store.blocks.set row).rows := Table.mem_set.mpr (.inl rfl)
      rw [result]
      exact ⟨row, inside, by rw [accepted.id, accepted.key], after.counted row inside⟩
  · obtain ⟨deleted, location, buried⟩ := exact.removable sound opened member id active free
    rw [deleted, buried]
    refine ⟨rfl, fun other inside => (Table.mem_erase.mp inside).2, ⟨location, rfl⟩, ?_⟩
    intro other inside same
    rcases Table.mem_set.mp inside with rfl | ⟨-, apart⟩
    · rfl
    · exact absurd same apart
  · obtain ⟨before, -, rfl⟩ := List.mem_map.mp member
    exact ⟨rfl, rfl⟩

def samplePins : List StoreOp :=
  [.upsert ⟨.nan, .nan⟩ sampleLocation sampleMetadata, .acquire sampleKey .nvme,
    .lookupAndAcquire sampleKey .nvme, .release sampleKey .nvme]

theorem samplePins_exact :
    let a := run Audited.step (.create (text "e")) samplePins
    a.outstanding (sampleKey.row .nvme) = 1 ∧ (a.store.delete sampleKey .nvme).2 = a.store := by
  have held : (run Audited.step (.create (text "e")) (samplePins.take 3)).held =
      [(sampleKey, .nvme), (sampleKey, .nvme)] := by decide +kernel
  have matched : Along Audited.step Audited.Matched (.create (text "e")) samplePins := by
    refine ⟨trivial, trivial, trivial, ?_, trivial⟩
    change (sampleKey, TierName.nvme) ∈
      (run Audited.step (.create (text "e")) (samplePins.take 3)).held
    rw [held]
    exact List.mem_cons_self
  have one : (run Audited.step (.create (text "e")) samplePins).outstanding
      (sampleKey.row .nvme) = 1 := by decide +kernel
  have exact := in_flight_pins_exact (text "e") samplePins matched
  exact ⟨one, (exact.2.2.1 sampleKey .nvme (by rw [one]; exact Nat.one_pos)).1⟩

end AiStorage.KV
