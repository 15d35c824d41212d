import AiStorage.KV.Calls
import AiStorage.KV.Pins
import Mathlib.Algebra.Order.BigOperators.Group.Finset

/-!
# Who holds the pins

A ledger runs beside the world. It says for every thread how many pins its running call has put
on each row and not taken back.
-/
namespace AiStorage.KV
open Lib Prog MetadataStore

/-! ## The pins of a store -/

namespace MetadataStore

variable {s s' : MetadataStore} {count : RowId → Nat}

/-- The live pins of a row. -/
def pins (s : MetadataStore) (id : RowId) : Nat :=
  (((s.blocks.find id).map s.effective).getD 0).toNat

theorem Exact.pins_eq (exact : s.Exact count) : s.pins = count := by
  funext id
  unfold pins
  cases found : s.blocks.find id with
  | none =>
    by_contra apart
    have some : 0 < count id := Nat.pos_of_ne_zero fun zero => apart (by rw [zero]; rfl)
    obtain ⟨row, member, here⟩ := exact.present id some
    rw [← here, Table.mem_rows.mp member] at found
    cases found
  | some row =>
    obtain ⟨member, here⟩ := Table.find_eq_some_iff.mp found
    have counted := exact.counted row member
    rw [here] at counted
    simp [counted]

structure Trusted (s : MetadataStore) : Prop where
  sound : s.Sound
  exact : s.Exact s.pins

variable {event : StoreEvent} {row : Row}

theorem Change.trusted (change : Change s event s') (trusted : s.Trusted) :
    s'.Trusted ∧ s'.pins = countAfter s.pins event := by
  have exact := change.exact trusted.exact
  have same := exact.pins_eq
  exact ⟨⟨change.sound trusted.sound, by rw [same]; exact exact⟩, same⟩

theorem countAfter_of_still (still : event.pins = false) :
    countAfter count event = count := by
  cases event with
  | pin | unpin | reopen => cases still
  | nothing | publish | touch | remove | bury | finish | close => rfl

/-! ## The places of a store -/

def place (s : MetadataStore) (id : RowId) : Option (RowState × Text) :=
  (s.blocks.find id).map fun row => (row.state, row.uri)

theorem place_set_of_ne {id : RowId} (apart : row.id ≠ id) :
    place { s with blocks := s.blocks.set row } id = s.place id := by
  unfold place
  dsimp only
  rw [Table.find_set_of_ne apart]

theorem place_set_self (s : MetadataStore) (row : Row) :
    place { s with blocks := s.blocks.set row } row.id = some (row.state, row.uri) := by
  unfold place
  dsimp only
  rw [Table.find_set_self]
  rfl

theorem place_of_mem (member : row ∈ s.blocks.rows) :
    s.place row.id = some (row.state, row.uri) := by
  rw [place, Table.mem_rows.mp member]
  rfl

theorem place_active {key : BlockKey} {tier : TierName} {uri : Text} :
    s.place (key.row tier) = some (.active, uri) ↔
      ∃ row, s.activeRow key tier = some row ∧ row.uri = uri := by
  rw [place, Option.map_eq_some_iff]
  refine exists_congr fun row => ?_
  rw [activeRow, Option.filter_eq_some_iff, Prod.mk.injEq, decide_eq_true_eq, and_assoc]

theorem place_rewrite {changed : Row} (member : row ∈ s.blocks.rows) (same : changed.id = row.id)
    (state : changed.state = row.state) (uri : changed.uri = row.uri) :
    place { s with blocks := s.blocks.set changed } = s.place := by
  funext id
  by_cases here : changed.id = id
  · rw [← here, place_set_self, same, place_of_mem member, state, uri]
  · exact place_set_of_ne here

theorem place_reopen (s : MetadataStore) (epoch : Text) : (s.reopen epoch).place = s.place := by
  funext id
  have found := Table.find_map s.blocks resetPins (fun _ => rfl) id
  exact (congrArg (Option.map _) found).trans (Option.map_map _ _ _)

theorem pins_eq_zero (member : row ∈ s.blocks.rows) (free : s.effective row = 0) :
    s.pins row.id = 0 := by
  rw [pins, Table.mem_rows.mp member]
  simp [free]

theorem Change.place (change : Change s event s')
    (trusted : s.Trusted) (silent : event.publishes = false) (same : event ≠ .reopen) (id : RowId) :
    s'.place id = s.place id ∨ s.pins id = 0 ∧ ∀ uri, s'.place id ≠ some (.active, uri) := by
  cases change with
  | nothing | close => exact .inl rfl
  | reopen => exact absurd rfl same
  | publish => cases silent
  | touch now member active | pin member active | unpin member own =>
    exact .inl (congrFun (place_rewrite member (by rfl) (by rfl) (by rfl)) id)
  | remove member active free =>
    rename_i row
    by_cases here : row.id = id
    · subst here
      refine .inr ⟨pins_eq_zero member (effective_of_idle free), fun uri => ?_⟩
      simp [MetadataStore.place]
    · exact .inl (congrArg _ (Table.find_erase_of_ne here))
  | bury member active free =>
    rename_i row
    by_cases here : row.id = id
    · subst here
      refine .inr ⟨?_, fun uri => ?_⟩
      · rw [pins, Table.mem_rows.mp member, Option.map_some, Option.getD_some, effective]
        split_ifs with own
        · have low : ¬0 < row.inFlight := fun some => free ⟨own, some⟩
          omega
        · rfl
      · rw [show row.id = (tombstone row).id from rfl, place_set_self]
        simp [tombstone]
    · exact .inl (place_set_of_ne here)
  | finish member deleting =>
    rename_i row
    by_cases here : row.id = id
    · subst here
      exact .inr ⟨trusted.exact.deleting member deleting, fun uri => by simp [MetadataStore.place]⟩
    · exact .inl (congrArg _ (Table.find_erase_of_ne here))

end MetadataStore

/-! ## The ledger -/

structure Ledger where
  world : World
  /-- By how much the running call of a thread has raised the counter of a row. -/
  taken : Nat → RowId → Int

namespace Ledger

def record (l : Ledger) (t : Nat) (w : World) : Ledger where
  world := w
  taken := Function.update l.taken t fun id =>
    l.taken t id + ((w.store.pins id : Int) - l.world.store.pins id)

theorem taken_record (l : Ledger) (t : Nat) (w : World) (id : RowId) :
    (l.record t w).taken t id =
      l.taken t id + ((w.store.pins id : Int) - l.world.store.pins id) := by
  rw [record]
  dsimp only
  rw [Function.update_self]

def enter (t : Nat) (l : Ledger) : Ledger :=
  { l with taken := Function.update l.taken t fun _ => 0 }

/-- No call took back more than it put, and the counters cover what the calls hold. -/
structure Balanced (l : Ledger) : Prop where
  trusted : l.world.store.Trusted
  nonneg : ∀ t id, 0 ≤ l.taken t id
  covered : ∀ id (threads : Finset Nat), ∑ t ∈ threads, l.taken t id ≤ l.world.store.pins id

variable {l : Ledger} {t : Nat}

theorem Balanced.held_le (balanced : l.Balanced) (t : Nat) (id : RowId) :
    l.taken t id ≤ l.world.store.pins id := by
  simpa using balanced.covered id {t}

theorem Balanced.update (balanced : l.Balanced) {w : World} {share : RowId → Int}
    (trusted : w.store.Trusted) (nonneg : ∀ id, 0 ≤ share id)
    (change : ∀ id, share id ≤ l.taken t id + ((w.store.pins id : Int) - l.world.store.pins id)) :
    Balanced ⟨w, Function.update l.taken t share⟩ where
  trusted := trusted
  nonneg u id := by
    dsimp only
    by_cases here : u = t
    · rw [here, Function.update_self]
      exact nonneg id
    · rw [Function.update_of_ne here]
      exact balanced.nonneg u id
  covered id threads := by
    dsimp only
    have least := change id
    have own := nonneg id
    -- the others of the set, beside the thread
    have rest := balanced.covered id (insert t (threads.erase t))
    rw [Finset.sum_insert (Finset.notMem_erase t threads)] at rest
    have same : ∑ u ∈ threads.erase t, Function.update l.taken t share u id =
        ∑ u ∈ threads.erase t, l.taken u id :=
      Finset.sum_congr rfl fun u member => by
        rw [Function.update_of_ne (Finset.ne_of_mem_erase member)]
    by_cases inside : t ∈ threads
    · rw [← Finset.add_sum_erase threads _ inside, Function.update_self, same]
      omega
    · rw [Finset.erase_eq_of_notMem inside] at rest same
      rw [same]
      omega

theorem Balanced.record (balanced : l.Balanced) {w : World} (trusted : w.store.Trusted)
    (matched : ∀ id, 0 ≤ l.taken t id + ((w.store.pins id : Int) - l.world.store.pins id)) :
    (l.record t w).Balanced :=
  balanced.update trusted matched fun _ => le_refl _

theorem Balanced.enter (balanced : l.Balanced) (t : Nat) : (l.enter t).Balanced :=
  balanced.update balanced.trusted (fun _ => le_refl 0) fun id => by
    have own := balanced.nonneg t id
    omega

theorem Balanced.enter_le (balanced : l.Balanced) (t : Nat) : (l.enter t).taken ≤ l.taken := by
  intro u id
  by_cases here : u = t
  · subst here
    simpa [Ledger.enter] using balanced.nonneg u id
  · exact le_of_eq (congrFun (Function.update_of_ne here _ _) id)

end Ledger

def auditing : Device Act PyError Ledger Choice :=
  ⟨fun t action c l => (action t c l.world).map fun done => (done.1, l.record t done.2)⟩

theorem auditing_some {β : Type} {action : Act β} {t : Nat} {c : Choice} {l l' : Ledger}
    {x : Except PyError β} (done : auditing.exec t action c l = some (x, l')) :
    ∃ w, action t c l.world = some (x, w) ∧ l' = l.record t w := by
  obtain ⟨⟨y, w⟩, ran, same⟩ := Option.map_eq_some_iff.mp done
  obtain ⟨rfl, rfl⟩ := Prod.mk.inj same
  exact ⟨w, ran, rfl⟩

theorem answers_auditing {β : Type} (action : Act β) (x : Except PyError β)
    (answer : auditing.Answers action x) : device.Answers action x := by
  obtain ⟨t, c, l, l', done⟩ := answer
  obtain ⟨w, ran, -⟩ := auditing_some done
  exact ⟨t, c, l.world, w, ran⟩

end AiStorage.KV
