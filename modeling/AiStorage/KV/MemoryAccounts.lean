import AiStorage.KV.MemoryRoom

/-!
# The accounts of the memory tier

`_used_bytes` is the sum of the payloads in the map, and every payload there has an active row
with its size and checksum. Lookups, loads and evictions keep it so.
-/
namespace AiStorage.KV
open Lib Prog MetadataStore

namespace MetadataStore

variable {s : MetadataStore} {key : BlockKey}

def account (s : MetadataStore) (key : BlockKey) : Option (Int × Text) :=
  (s.activeRow key .memory).map fun row => (row.bytes, row.checksum)

theorem account_erase {other : BlockKey} (apart : key ≠ other) :
    ({ s with blocks := s.blocks.erase (key.row .memory) } : MetadataStore).account other =
      s.account other := by
  unfold account
  rw [activeRow_erase apart]

theorem account_set_of_ne {row : Row} (apart : row.id ≠ key.row .memory) :
    ({ s with blocks := s.blocks.set row } : MetadataStore).account key = s.account key := by
  unfold account activeRow
  rw [Table.find_set_of_ne apart]

theorem account_set_self {row : Row} (here : row.id = key.row .memory)
    (active : row.state = .active) :
    ({ s with blocks := s.blocks.set row } : MetadataStore).account key =
      some (row.bytes, row.checksum) := by
  unfold account activeRow
  rw [← here, Table.find_set_self, Option.filter_some, if_pos (by simpa using active)]
  rfl

theorem account_updateRow {id : RowId} {condition : Row → Bool} {change : Row → Row}
    (keeps : ∀ row, (change row).id = row.id ∧ (change row).state = row.state ∧
      (change row).bytes = row.bytes ∧ (change row).checksum = row.checksum) (key : BlockKey) :
    (s.updateRow id condition change).2.account key = s.account key := by
  unfold updateRow
  cases selected : s.select id condition with
  | none => rfl
  | some row =>
    obtain ⟨here, state, bytes, checksum⟩ := keeps row
    have found : s.blocks.find id = some row := (Option.filter_eq_some_iff.mp selected).1
    have own : row.id = id := Table.idOf_of_find found
    by_cases same : id = key.row .memory
    · unfold account activeRow
      rw [← same, found, ← own, ← here, Table.find_set_self]
      simp only [Option.filter_some, state]
      split_ifs
      · simp only [Option.map_some, bytes, checksum]
      · rfl
    · exact account_set_of_ne (by rw [here, own]; exact same)

theorem account_touch (now : Float64) (other : BlockKey) (tier : TierName) :
    (s.touch now other tier).2.account key = s.account key := by
  unfold touch
  split_ifs
  · rfl
  · refine account_updateRow ?_ key
    exact fun _ => ⟨rfl, rfl, rfl, rfl⟩

theorem account_acquire (other : BlockKey) (tier : TierName) :
    (s.acquire other tier).2.account key = s.account key := by
  unfold acquire
  split_ifs
  · rfl
  · refine account_updateRow ?_ key
    exact fun _ => ⟨rfl, rfl, rfl, rfl⟩

theorem account_release (other : BlockKey) (tier : TierName) :
    (s.release other tier).2.account key = s.account key := by
  unfold release
  split_ifs
  · rfl
  · refine account_updateRow ?_ key
    exact fun _ => ⟨rfl, rfl, rfl, rfl⟩

theorem account_upsert {now : Readings} {location : BlockLocation} {m : KVMetadata}
    {s' : MetadataStore} (memory : location.tier = .memory)
    (done : s.upsert now location m = (.ok (), s')) :
    s'.account location.key = some (location.bytes, location.checksum) ∧
      ∀ other, location.key ≠ other → s'.account other = s.account other := by
  rcases s.upsert_change now location m with ⟨e, failed⟩ | ⟨row, accepted, committed⟩
  · rw [failed] at done
    cases done
  · rw [committed] at done
    cases done
    have made := acceptUpsert_ok accepted
    have here : row.id = location.key.row .memory := by rw [made.id, made.key, memory]
    refine ⟨?_, fun other apart => account_set_of_ne ?_⟩
    · rw [account_set_self here made.state, made.locationBytes, made.locationChecksum]
    · rw [here]
      exact row_ne apart .memory

theorem upsert_error {now : Readings} {location : BlockLocation} {m : KVMetadata}
    {s' : MetadataStore} {e : PyError} (failed : s.upsert now location m = (.error e, s')) :
    s' = s ∧ NotFull e.cls := by
  have other := notFull_upsert s now location m
  rcases s.upsert_change now location m with ⟨e', same⟩ | ⟨row, -, committed⟩
  · rw [same] at failed other
    cases failed
    exact ⟨rfl, other e rfl⟩
  · rw [committed] at failed
    cases failed

end MetadataStore

namespace MemoryTier

variable {t : Nat} {allowed : Choice → Prop} {s s' : Stock} {tier : MemoryTier}

/-! ## The balance -/

structure Balanced (tier : MemoryTier) (s : Stock) : Prop where
  unique : (s.memory.map Prod.fst).Nodup
  used : s.usedBytes = total size s.memory
  within : s.usedBytes ≤ tier.maxBytes
  rows : ∀ entry ∈ s.memory,
    s.store.account entry.1 = some ((entry.2.length : Int), sha256Hex entry.2)

theorem without_eq_self {memory : List Entry} {key : BlockKey}
    (absent : Act.held key memory = none) : Act.without key memory = memory := by
  refine List.filter_eq_self.mpr fun entry member => ?_
  have missing := List.find?_eq_none.mp (Option.map_eq_none_iff.mp absent) entry member
  simpa using missing

theorem without_append_self (key : BlockKey) (memory : List Entry) (data : Bytes) :
    Act.without key (Act.without key memory ++ [(key, data)]) = Act.without key memory := by
  simp [Act.without, List.filter_filter]

theorem held_append_self (key : BlockKey) (memory : List Entry) (data : Bytes) :
    Act.held key (Act.without key memory ++ [(key, data)]) = some data := by
  have absent : (Act.without key memory).find? (fun entry => entry.1 = key) = none := by
    refine List.find?_eq_none.mpr fun entry member => ?_
    have apart := (List.mem_filter.mp member).2
    simpa using apart
  rw [Act.held, List.find?_append, absent]
  simp

theorem unique_put {memory : List Entry} (unique : (memory.map Prod.fst).Nodup) (key : BlockKey)
    (data : Bytes) : ((Act.without key memory ++ [(key, data)]).map Prod.fst).Nodup := by
  rw [List.map_append, List.nodup_append]
  refine ⟨(List.filter_sublist.map Prod.fst).nodup unique, List.nodup_singleton key, ?_⟩
  intro other there own last
  obtain ⟨entry, member, rfl⟩ := List.mem_map.mp there
  rw [List.mem_singleton.mp last]
  simpa using (List.mem_filter.mp member).2

theorem total_without {memory : List Entry} (unique : (memory.map Prod.fst).Nodup) {entry : Entry}
    (member : entry ∈ memory) :
    total size (Act.without entry.1 memory) = total size memory - size entry := by
  induction memory with
  | nil => cases member
  | cons head rest ih =>
    rw [List.map_cons, List.nodup_cons] at unique
    unfold Act.without
    rcases List.mem_cons.mp member with rfl | later
    · rw [List.filter_cons_of_neg (by simp), List.filter_eq_self.mpr, total_cons]
      · omega
      · intro other there
        have apart : other.1 ≠ entry.1 := fun same => unique.1 (same ▸ List.mem_map_of_mem there)
        simpa using apart
    · have apart : head.1 ≠ entry.1 := fun same => unique.1 (same ▸ List.mem_map_of_mem later)
      rw [List.filter_cons_of_pos (by simpa using apart), total_cons, total_cons]
      have rest := ih unique.2 later
      unfold Act.without at rest
      omega

namespace Balanced

theorem balanced_without (balanced : Balanced tier s) {entry : Entry} (member : entry ∈ s.memory) :
    Balanced tier (without s entry) where
  unique := unique_without balanced.unique entry
  used := by
    change s.usedBytes - size entry = total size (Act.without entry.1 s.memory)
    rw [total_without balanced.unique member, balanced.used]
  within := by
    have := balanced.within
    change s.usedBytes - size entry ≤ _
    have : 0 ≤ size entry := Int.natCast_nonneg _
    omega
  rows other there := by
    obtain ⟨there, apart⟩ := List.mem_filter.mp there
    have apart : other.1 ≠ entry.1 := by simpa using apart
    exact (account_erase apart.symm).trans (balanced.rows other there)

theorem change (balanced : Balanced tier s) {m : MetadataStore}
    (same : ∀ entry ∈ s.memory, m.account entry.1 = s.store.account entry.1) :
    Balanced tier { s with store := m } :=
  ⟨balanced.unique, balanced.used, balanced.within, fun entry member =>
    (same entry member).trans (balanced.rows entry member)⟩

theorem moveToEnd (balanced : Balanced tier s) {key : BlockKey} {data : Bytes}
    (there : Act.held key s.memory = some data) :
    Balanced tier { s with memory := Act.without key s.memory ++ [(key, data)] } := by
  have member := mem_of_held there
  refine ⟨?_, ?_, balanced.within, fun entry there => ?_⟩
  · exact unique_put balanced.unique key data
  · rw [total_append, total_without balanced.unique member, balanced.used]
    simp
  · rcases List.mem_append.mp there with before | last
    · exact balanced.rows entry (List.mem_filter.mp before).1
    · cases List.mem_singleton.mp last
      exact balanced.rows _ member

theorem put (balanced : Balanced tier s) {key : BlockKey} {data : Bytes} {m : MetadataStore}
    (absent : Act.held key s.memory = none) (fits : s.usedBytes + data.length ≤ tier.maxBytes)
    (own : m.account key = some ((data.length : Int), sha256Hex data))
    (others : ∀ other, key ≠ other → m.account other = s.store.account other) :
    Balanced tier { s with
      store := m
      memory := Act.without key s.memory ++ [(key, data)]
      usedBytes := s.usedBytes + data.length } := by
  refine ⟨unique_put balanced.unique key data, ?_, fits, fun entry there => ?_⟩
  · rw [without_eq_self absent, total_append, ← balanced.used]
    simp [size]
  · rcases List.mem_append.mp there with before | last
    · obtain ⟨before, apart⟩ := List.mem_filter.mp before
      have apart : entry.1 ≠ key := by simpa using apart
      exact (others entry.1 apart.symm).trans (balanced.rows entry before)
    · cases List.mem_singleton.mp last
      exact own

theorem foldl_without (balanced : Balanced tier s) {gone : List Entry}
    (inside : ∀ entry ∈ gone, entry ∈ s.memory) (apart : (gone.map Prod.fst).Nodup) :
    Balanced tier (gone.foldl MemoryTier.without s) := by
  induction gone generalizing s with
  | nil => exact balanced
  | cons entry rest ih =>
    rw [List.map_cons, List.nodup_cons] at apart
    refine ih (balanced.balanced_without (inside entry List.mem_cons_self)) ?_ apart.2
    intro other member
    refine List.mem_filter.mpr ⟨inside other (.tail entry member), ?_⟩
    have differs : other.1 ≠ entry.1 := fun same => apart.1 (same ▸ List.mem_map_of_mem member)
    simpa using differs

end Balanced

/-! ## Steps that keep the balance -/

abbrev Steady (t : Nat) (allowed : Choice → Prop) (tier : MemoryTier) {α : Type} (p : Py α) : Prop :=
  Keeps t allowed (Balanced tier) p

namespace Steady

theorem database {α : Type} {f : Choice → MetadataStore → Outcome α}
    (same : ∀ c m key, (f c m).2.account key = m.account key) :
    Steady t allowed tier (perform (Act.database f)) :=
  Keeps.database fun c s balanced => balanced.change fun entry _ => same c s.store entry.1

theorem exclusive {α : Type} {f : Choice → MetadataStore → Outcome α}
    (same : ∀ c m key, (f c m).2.account key = m.account key) :
    Steady t allowed tier (perform (Act.exclusive f)) :=
  Keeps.exclusive fun c s balanced => balanced.change fun entry _ => same c s.store entry.1

theorem lookupRow (key : BlockKey) (name : TierName) :
    Steady t allowed tier (perform (Act.lookup key name)) := database fun _ _ _ => rfl

theorem getMetadata (key : BlockKey) : Steady t allowed tier (perform (Act.getMetadata key .memory)) :=
  database fun _ _ _ => rfl

theorem touch (key : BlockKey) : Steady t allowed tier (perform (Act.touch key .memory)) :=
  database fun c _ _ => account_touch c.clock key .memory

theorem release (key : BlockKey) : Steady t allowed tier (perform (Act.release key .memory)) :=
  database fun _ _ _ => account_release key .memory

theorem acquire (key : BlockKey) : Steady t allowed tier (perform (Act.acquire key .memory)) :=
  exclusive fun _ _ _ => account_acquire key .memory

theorem runs_memoryMoveToEnd (balanced : Balanced tier s) (key : BlockKey) :
    Runs t allowed (perform (Act.memoryMoveToEnd key)) s fun _ => Balanced tier := by
  cases there : Act.held key s.memory with
  | some data =>
    refine (KV.runs_memoryMoveToEnd there).mono fun _ s' moved => ?_
    rw [moved.2]
    exact balanced.moveToEnd there
  | none =>
    refine runs_perform fun c w _ same free => ⟨.error (.bare .keyError), w, ?_, ?_, free⟩
    · rw [← same] at there
      rw [Act.memoryMoveToEnd, show Act.held key w.memory = none from there]
    · rw [same]
      exact balanced

theorem memoryMoveToEnd (key : BlockKey) :
    Steady t allowed tier (perform (Act.memoryMoveToEnd key)) :=
  .of_runs fun _ balanced => runs_memoryMoveToEnd balanced key

theorem evict (key : BlockKey) : Steady t allowed tier (MemoryTier.evict key) :=
  .of_runs fun _ balanced => (runs_evict key).mono fun _ _ ended => by
    cases ended with
    | removed there may => exact balanced.balanced_without (mem_of_held there)
    | kept why => exact balanced
    | failed other => exact balanced

end Steady

/-! ## Looking up -/

def dropRow (s : Stock) (key : BlockKey) : Stock :=
  { s with store := { s.store with blocks := s.store.blocks.erase (key.row .memory) } }

/-- How a lookup ends: it may have deleted the row of a payload that is gone. -/
inductive LookedUp (s : Stock) (key : BlockKey) :
    Except PyError (Option BlockLocation) → Stock → Prop where
  | failed (e : PyError) : LookedUp s key (.error e) s
  | found {location : BlockLocation} (own : location.key = key) (memory : location.tier = .memory)
      (booked : s.store.account key = some (location.bytes, location.checksum)) :
      LookedUp s key (.ok (some location)) s
  | missing (absent : Act.held key s.memory = none) : LookedUp s key (.ok none) s
  | dropped (absent : Act.held key s.memory = none) (may : s.store.deletable key .memory = true) :
      LookedUp s key (.ok none) (dropRow s key)

theorem account_of_lookup {m : MetadataStore} {key : BlockKey} {location : BlockLocation}
    (found : m.lookup key .memory = .ok (some location)) : location.key = key ∧
      location.tier = .memory ∧ m.account key = some (location.bytes, location.checksum) := by
  obtain ⟨row, active, built⟩ := lookup_ok found
  have same := locationFromRow_ok built
  refine ⟨same.key, ?_, ?_⟩
  · rw [same.tier, Table.idOf_of_find (activeRow_eq_some.mp active).1]
    rfl
  · rw [account, active, Option.map_some, same.bytes, same.checksum]

theorem Balanced.lookup_ne (balanced : Balanced tier s) {key : BlockKey} {data : Bytes}
    (there : Act.held key s.memory = some data) : s.store.lookup key .memory ≠ .ok none := by
  intro missing
  have listed := balanced.rows _ (mem_of_held there)
  obtain ⟨row, active, -⟩ := Option.map_eq_some_iff.mp listed
  rw [MetadataStore.lookup, active] at missing
  split_ifs at missing
  dsimp only at missing
  cases built : locationFromRow key row <;> rw [built] at missing <;> cases missing

theorem runs_lookup (balanced : Balanced tier s) (key : BlockKey) :
    Runs t allowed (lookup key) s (LookedUp s key) := by
  refine runs_withMemoryLock (.query (fun _ _ _ => .failed _) (fun c location _ answered => ?_)
    fun _ e _ _ => .failed e)
  refine .memoryGet ?_
  cases there : Act.held key s.memory with
  | none =>
    cases location with
    | none => exact .ret (.missing there)
    | some location =>
      refine .bind (runs_delete key .memory) (fun deleted s' ended => ?_) fun e s' ended => ?_
      · cases ended with
        | done may => exact .ret (.dropped there may)
        | refused busy => exact .ret (.missing there)
      · cases ended with
        | failed other => exact .failed e
  | some data =>
    cases location with
    | none => exact absurd answered (balanced.lookup_ne there)
    | some location =>
      obtain ⟨own, memory, booked⟩ := account_of_lookup answered
      exact .value (fun _ _ => .ret (.found own memory booked)) fun e _ => .failed e

theorem Balanced.lookedUp (balanced : Balanced tier s) {key : BlockKey}
    {r : Except PyError (Option BlockLocation)} (looked : LookedUp s key r s') :
    Balanced tier s' := by
  cases looked with
  | failed e => exact balanced
  | found own memory booked => exact balanced
  | missing absent => exact balanced
  | dropped absent may =>
    refine balanced.change fun entry member => account_erase fun same => ?_
    rw [same, held_of_mem balanced.unique member] at absent
    cases absent

/-! ## Loading -/

theorem steady_lookup (key : BlockKey) : Steady t allowed tier (lookup key) :=
  .of_runs fun _ balanced => (runs_lookup balanced key).mono fun _ _ => balanced.lookedUp

theorem steady_readAcquired (key : BlockKey) (location : BlockLocation) :
    Steady t allowed tier (readAcquired key location) := by
  refine .bind (.observe _) fun held => ?_
  cases held with
  | none => exact .ret _
  | some data =>
    refine .bind (Steady.getMetadata key) fun found => ?_
    cases found with
    | none => exact .ret _
    | some m =>
      exact .bind (.ret _) fun _ => .bind (Steady.memoryMoveToEnd key) fun _ =>
        .bind (Steady.touch key) fun _ => .bind (.observe _) fun _ => .ret _

theorem steady_finishLoad (key : BlockKey) (result : Except PyError LoadResult) :
    Steady t allowed tier (finishLoad key result) := by
  unfold finishLoad finishGuarded
  cases result with
  | ok loaded => exact .bind (Steady.release key) fun _ => .ret _
  | error e =>
    dsimp only
    split_ifs
    · refine .bind (.handle (Steady.release key) fun _ => .ret _) fun _ =>
        .bind (.handle (.bind (Steady.evict key) fun removed => ?_) fun _ => .ret _) fun _ => .ret _
      cases removed with
      | true => exact .ret _
      | false =>
        refine .bind (Steady.lookupRow key .memory) fun found => ?_
        cases found <;> exact .ret _
    · exact .bind (Steady.release key) fun _ => .ret _

theorem steady_load (key : BlockKey) : Steady t allowed tier (load key) := by
  refine .withMemoryLock (.bind (steady_lookup key) fun found => ?_)
  cases found with
  | none => exact .ret _
  | some location =>
    refine .bind (.observe _) fun held => ?_
    cases held with
    | none => exact .ret _
    | some data =>
      refine .bind (Steady.acquire key) fun acquired => ?_
      cases acquired with
      | true => exact .thenDo (steady_readAcquired key location) (steady_finishLoad key)
      | false => exact .ret _

end MemoryTier

end AiStorage.KV
