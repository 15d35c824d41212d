import AiStorage.KV.MemoryAccounts

/-!
# Storing in the memory tier

A store whose row cannot be committed takes its payload out again, and `StoreFull` means that
the pinned payloads leave no room.
-/
namespace AiStorage.KV
open Lib Prog MetadataStore

namespace MemoryTier

variable {t : Nat} {allowed : Choice → Prop} {s s' : Stock} {tier : MemoryTier}

/-! ## Storing -/

inductive Committed (location : BlockLocation) (s : Stock) : Except PyError Unit → Stock → Prop where
  | done {m : MetadataStore}
      (own : m.account location.key = some (location.bytes, location.checksum))
      (others : ∀ other, location.key ≠ other → m.account other = s.store.account other) :
      Committed location s (.ok ()) { s with store := m }
  | failed {e : PyError} (other : NotFull e.cls) : Committed location s (.error e) s

theorem runs_upsert {location : BlockLocation} (memory : location.tier = .memory) (m : KVMetadata) :
    Runs t allowed (perform (Act.upsert location m)) s (Committed location s) := by
  refine (runs_exclusive _).mono fun r s' stated => ?_
  rcases stated with ⟨c, -, -, rfl, rfl⟩ | ⟨c, m', -, answered, rfl⟩
  · exact .failed (by decide)
  · change s.store.upsert c.readings location m = (r, m') at answered
    cases r with
    | ok u =>
      obtain ⟨own, others⟩ := account_upsert memory answered
      exact .done own others
    | error e =>
      obtain ⟨rfl, other⟩ := upsert_error answered
      exact .failed other

def lengthOf (payload : Option Bytes) : Int := ((payload.map List.length).getD 0 : Nat)

inductive Placed (key : BlockKey) (data : Bytes) (previous : Option Bytes) (s : Stock) :
    Except PyError Unit → Stock → Prop where
  | done {m : MetadataStore} (own : m.account key = some ((data.length : Int), sha256Hex data))
      (others : ∀ other, key ≠ other → m.account other = s.store.account other) :
      Placed key data previous s (.ok ()) { s with
        store := m
        memory := Act.without key s.memory ++ [(key, data)]
        usedBytes := s.usedBytes + data.length }
  | undone {e : PyError} (other : NotFull e.cls) :
      Placed key data previous s (.error e) { s with
        memory := Act.without key s.memory ++ (previous.map fun old => (key, old)).toList
        usedBytes := s.usedBytes + lengthOf previous }

theorem runs_placement (key : BlockKey) (data : Bytes) (m : KVMetadata) (previous : Option Bytes) :
    Runs t allowed (placement key data m previous) s (Placed key data previous s) := by
  refine .bind (runs_memoryPut key data) (fun _ s' put => ?_) fun e s' wrong => ?_
  · rw [put.2]
    refine .handle (runs_upsert rfl m) (fun _ s' committed => ?_) fun e s' committed => ?_
    · cases committed with
      | done own others => exact .done own others
    · cases committed with
      | failed other =>
        refine .bind (R := fun r s' => r = .ok () ∧ s' = { s with
            memory := Act.without key s.memory ++ (previous.map fun old => (key, old)).toList
            usedBytes := s.usedBytes + lengthOf previous }) ?_ (fun _ s' back => ?_)
          fun e s' wrong => ?_
        · refine .bind (runs_memoryPop (held_append_self key s.memory data))
            (fun _ s' popped => ?_) fun e s' wrong => ?_
          · rw [popped.2, without_append_self]
            cases previous with
            | none =>
              refine .ret ⟨rfl, ?_⟩
              simp [lengthOf]
            | some old =>
              refine (runs_memoryPut key old).mono fun r s' put => ⟨put.1, ?_⟩
              rw [put.2]
              simp [lengthOf, Act.without]
          · cases wrong.1
        · rw [back.2]
          exact .ret (.undone other)
        · cases wrong.1
  · cases wrong.1

def putBack (key : BlockKey) (memory : List Entry) : List Entry :=
  Act.without key memory ++ ((Act.held key memory).map fun old => (key, old)).toList

inductive Inserted (key : BlockKey) (data : Bytes) (s : Stock) :
    Except PyError Unit → Stock → Prop where
  | done {m : MetadataStore} (own : m.account key = some ((data.length : Int), sha256Hex data))
      (others : ∀ other, key ≠ other → m.account other = s.store.account other) :
      Inserted key data s (.ok ()) { s with
        store := m
        memory := Act.without key s.memory ++ [(key, data)]
        usedBytes := s.usedBytes - lengthOf (Act.held key s.memory) + data.length }
  | undone {e : PyError} (other : NotFull e.cls) :
      Inserted key data s (.error e) { s with memory := putBack key s.memory }

theorem runs_insertion (key : BlockKey) (data : Bytes) (m : KVMetadata) :
    Runs t allowed (insertion key data m) s (Inserted key data s) := by
  have settle : ∀ {s' : Stock} {r : Except PyError Unit}, Placed key data (Act.held key s.memory)
      { s with
        memory := Act.without key s.memory
        usedBytes := s.usedBytes - lengthOf (Act.held key s.memory) } r s' →
      Inserted key data s r s' := by
    intro s' r placed
    have twice : Act.without key (Act.without key s.memory) = Act.without key s.memory := by
      simp [Act.without]
    cases placed with
    | done own others =>
      rw [twice]
      exact .done own others
    | undone other =>
      rw [twice, sub_add_cancel]
      exact .undone other
  refine .memoryGet ?_
  cases there : Act.held key s.memory with
  | none =>
    refine (runs_placement key data m none).mono fun r s' placed => settle ?_
    rw [there, without_eq_self there]
    simpa [lengthOf] using placed
  | some old =>
    refine .bind (runs_memoryPop there) (fun _ s' popped => ?_) fun e s' wrong => ?_
    · rw [popped.2]
      refine (runs_placement key data m (some old)).mono fun r s' placed => settle ?_
      rw [there]
      exact placed
    · cases wrong.1

variable {key : BlockKey} {r : Except PyError Unit} {data : Bytes}

theorem putBack_eq_self {memory : List Entry}
    (absent : Act.held key memory = none) : putBack key memory = memory := by
  rw [putBack, absent, without_eq_self absent]
  exact List.append_nil memory

theorem foldl_without_memory (gone : List Entry) (s : Stock) :
    (gone.foldl without s).memory = s.memory.filter fun entry => entry.1 ∉ gone.map Prod.fst := by
  induction gone generalizing s with
  | nil => simp
  | cons entry rest ih =>
    rw [List.foldl_cons, ih]
    change (s.memory.filter _).filter _ = _
    rw [List.filter_filter]
    refine List.filter_congr fun other _ => ?_
    simp only [List.map_cons, List.mem_cons, not_or, Bool.decide_and]
    exact Bool.and_comm ..

theorem foldl_without_usedBytes (gone : List Entry) (s : Stock) :
    (gone.foldl without s).usedBytes = s.usedBytes - total size gone := by
  induction gone generalizing s with
  | nil => simp
  | cons entry rest ih =>
    rw [List.foldl_cons, ih, total_cons]
    change s.usedBytes - size entry - _ = _
    omega

theorem held_eq_none_iff {memory : List Entry} :
    Act.held key memory = none ↔ ∀ entry ∈ memory, entry.1 ≠ key := by
  simp [Act.held]

theorem MadeRoom.balanced {incoming : Int} {exclude : BlockKey}
    (room : MadeRoom tier incoming exclude s r s') (balanced : Balanced tier s) :
    Balanced tier s' := by
  obtain ⟨gone, front, rfl, -⟩ := room.gone
  refine balanced.foldl_without (fun entry member => ?_) ?_
  · exact (List.mem_filter.mp (front.subset member)).1
  · exact ((front.sublist.trans List.filter_sublist).map Prod.fst).nodup balanced.unique

theorem MadeRoom.absent {incoming : Int} {exclude : BlockKey}
    (room : MadeRoom tier incoming exclude s r s') (absent : Act.held key s.memory = none) :
    Act.held key s'.memory = none := by
  obtain ⟨gone, -, rfl, -⟩ := room.gone
  rw [foldl_without_memory]
  exact held_eq_none_iff.mpr fun entry member =>
    held_eq_none_iff.mp absent entry (List.mem_filter.mp member).1

inductive Published (tier : MemoryTier) (key : BlockKey) (data : Bytes) (s : Stock) :
    Except PyError Unit → Stock → Prop where
  | crowded {e : PyError} {s' : Stock} (room : MadeRoom tier data.length key s (.error e) s') :
      Published tier key data s (.error e) s'
  | undone {e : PyError} {s' : Stock} (room : MadeRoom tier data.length key s (.ok ()) s')
      (other : NotFull e.cls) : Published tier key data s (.error e) s'
  | done {s' : Stock} {m : MetadataStore} (room : MadeRoom tier data.length key s (.ok ()) s')
      (own : m.account key = some ((data.length : Int), sha256Hex data))
      (others : ∀ other, key ≠ other → m.account other = s'.store.account other) :
      Published tier key data s (.ok ()) { s' with
        store := m
        memory := Act.without key s'.memory ++ [(key, data)]
        usedBytes := s'.usedBytes + data.length }

theorem runs_publish (balanced : Balanced tier s)
    (absent : Act.held key s.memory = none) (data : Bytes) (m : KVMetadata) :
    Runs t allowed (tier.publish key data m) s (Published tier key data s) := by
  refine .memoryGet ?_
  rw [absent]
  have whole : (data.length : Int) - (((none : Option Bytes).map List.length).getD 0 : Nat) =
      data.length := sub_zero _
  rw [whole]
  refine .bind (runs_ensureCapacity tier key balanced.unique balanced.within)
    (fun _ s' room => ?_) fun e s' room => .crowded room
  refine (runs_insertion key data m).mono fun r s'' ended => ?_
  have there := room.absent absent
  cases ended with
  | done own others =>
    rw [there]
    simpa [lengthOf] using Published.done room own others
  | undone other =>
    rw [putBack_eq_self there]
    exact .undone room other

theorem Published.balanced (published : Published tier key data s r s') (balanced : Balanced tier s)
    (absent : Act.held key s.memory = none) : Balanced tier s' := by
  cases published with
  | crowded room | undone room other => exact room.balanced balanced
  | done room own others =>
    exact (room.balanced balanced).put (room.absent absent) (room.fits rfl) own others

theorem runs_replay (balanced : Balanced tier s) {existing : BlockLocation}
    (own : existing.key = key) (memory : existing.tier = .memory)
    (booked : s.store.account key = some (existing.bytes, existing.checksum)) (data : Bytes)
    (m : KVMetadata) :
    Runs t allowed (replay key data m existing) s fun r s' =>
      Balanced tier s' ∧ Raises NotFull r := by
  refine Runs.neverFull ?_ (neverFull_replay key data m existing)
  refine .memoryGet ?_
  cases Act.held key s.memory with
  | none => exact .ret balanced
  | some held =>
    refine .value (fun _ _ => .query (fun _ _ _ => balanced) (fun _ persisted _ _ => ?_)
      fun _ _ _ _ => balanced) fun _ _ => balanced
    have fresh : ({ existing with lastAccess := asNumber m.lastAccess } : BlockLocation).tier =
      .memory := memory
    refine .value (fun _ _ => .bind (runs_upsert fresh m) (fun _ s' committed => ?_)
      fun e s' committed => ?_) fun _ _ => balanced
    · refine Steady.runs_memoryMoveToEnd ?_ key
      cases committed with
      | done same others =>
        refine balanced.change fun entry _ => ?_
        by_cases here : key = entry.1
        · rw [← here, booked, ← own]
          exact same
        · exact others entry.1 (by rw [own]; exact here)
    · cases committed with
      | failed other => exact balanced

/-- How a store raises `StoreFull`: the block is too large, or every payload that nobody has
pinned was evicted and there is still no room. -/
inductive Full (tier : MemoryTier) (key : BlockKey) (data : Bytes) (s : Stock) : Stock → Prop where
  | large (exceeds : tier.maxBytes < data.length) : Full tier key data s s
  | crowded {before : Stock} (fits : data.length ≤ tier.maxBytes)
      (absent : Act.held key s.memory = none)
      (start : before = s ∨ before = dropRow s key ∧ s.store.deletable key .memory = true)
      (exceeds : tier.maxBytes <
        ((evictables before key).foldl without before).usedBytes + data.length) :
      Full tier key data s ((evictables before key).foldl without before)

structure Stored (tier : MemoryTier) (key : BlockKey) (data : Bytes) (s : Stock) {α : Type}
    (r : Except PyError α) (s' : Stock) : Prop where
  balanced : Balanced tier s'
  full : ∀ e, r = .error e → e.cls = .storeFull → Full tier key data s s'

theorem Stored.calm {α : Type} {r : Except PyError α}
    (balanced : Balanced tier s') (never : Raises NotFull r) : Stored tier key data s r s' :=
  ⟨balanced, fun e same full => absurd full (never e same)⟩

theorem Published.stored {before : Stock} (published : Published tier key data before r s')
    (fits : data.length ≤ tier.maxBytes) (balanced : Balanced tier before) (absent : Act.held key s.memory = none)
    (start : before = s ∨ before = dropRow s key ∧ s.store.deletable key .memory = true) :
    Stored tier key data s r s' := by
  have gone : Act.held key before.memory = none := by
    rcases start with rfl | ⟨rfl, -⟩ <;> exact absent
  refine ⟨published.balanced balanced gone, fun e same full => ?_⟩
  cases published with
  | crowded room =>
    cases same
    obtain ⟨rfl, exceeds⟩ := room.full e rfl full
    exact .crowded fits absent start exceeds
  | undone room other =>
    cases same
    exact absurd full other
  | done room own others => cases same

theorem runs_storeLocked (balanced : Balanced tier s) (key : BlockKey) (data : Bytes)
    (fits : data.length ≤ tier.maxBytes) (m : KVMetadata) :
    Runs t allowed (tier.storeLocked key data m) s (Stored tier key data s) := by
  refine .bind (R := fun r s' => s' = s ∧ Raises NotFull r) ?_ (fun now s' read => ?_)
    fun e s' read => ?_
  · exact (runs_observe fun _ _ _ _ => rfl).neverFull neverFull_time
  · rw [read.1]
    refine .value (fun _ _ => ?_) fun e failed => .calm balanced fun e' same => ?_
    · refine .bind (R := fun r s' => s' = s ∧ Raises NotFull r) ?_ (fun _ s' checked => ?_)
        fun e s' checked => ?_
      · exact ((runs_exclusive _).mono fun _ _ => Stated.query).neverFull
          (neverFull_validatePayloadDescriptor _)
      · rw [checked.1]
        refine .bind ((runs_lookup balanced key).neverFull (neverFull_lookupTier key))
          (fun found s' looked => ?_) fun e s' looked => ?_
        · have still := balanced.lookedUp looked.1
          cases found with
          | some existing =>
            cases looked.1 with
            | found own memory booked =>
              exact (runs_replay balanced own memory booked data _).mono fun _ _ ended =>
                .calm ended.1 ended.2
          | none =>
            cases looked.1 with
            | missing absent =>
              exact (runs_publish balanced absent data _).mono fun _ _ published =>
                published.stored fits balanced absent (.inl rfl)
            | dropped absent may =>
              exact (runs_publish still absent data _).mono fun _ _ published =>
                published.stored fits still absent (.inr ⟨rfl, may⟩)
        · exact .calm (balanced.lookedUp looked.1) (.error (looked.2 e rfl))
      · rw [checked.1]
        exact .calm balanced checked.2
    · cases same
      exact notFull_validate _ e failed
  · rw [read.1]
    exact .calm balanced (.error (read.2 e rfl))

theorem runs_store (balanced : Balanced tier s) (key : BlockKey) (data : Bytes) (m : KVMetadata) :
    Runs t allowed (tier.store key data m) s (Stored tier key data s) := by
  refine .value (fun _ _ => .value (fun _ admitted => ?_) fun e failed => ?_) fun e failed => ?_
  · have fits : data.length ≤ tier.maxBytes := by simpa using require_ok.mp admitted
    refine .bind (runs_withMemoryLock (runs_storeLocked balanced key data fits m))
      (fun _ s' stored => .ret ⟨stored.balanced, fun _ wrong => by cases wrong⟩)
      fun e s' stored => ⟨stored.balanced, fun e' same => stored.full e' ?_⟩
    cases same
    rfl
  · refine ⟨balanced, fun e' same _ => .large ?_⟩
    by_contra fits
    rw [require_ok.mpr (by simpa using fits)] at failed
    cases failed
  · refine .calm balanced fun e' same => ?_
    cases same
    unfold require at failed
    split_ifs at failed
    cases failed
    decide

/-! ## Pinned payloads -/

def pinned (s : Stock) (entry : Entry) : Bool :=
  (s.store.activeRow entry.1 .memory).any fun row => !s.store.idle row

def pinnedBytes (s : Stock) : Int := total size (s.memory.filter (pinned s))

theorem Balanced.evictable_eq (balanced : Balanced tier s) {entry : Entry}
    (member : entry ∈ s.memory) (apart : entry.1 ≠ key) :
    evictable s key entry = !pinned s entry := by
  obtain ⟨row, active, -⟩ := Option.map_eq_some_iff.mp (balanced.rows entry member)
  simp [evictable, pinned, deletable, apart, active]

theorem evictables_dropRow (s : Stock) (key : BlockKey) :
    evictables (dropRow s key) key = evictables s key := by
  refine List.filter_congr fun entry _ => ?_
  unfold evictable
  by_cases own : entry.1 = key
  · simp [own]
  · rw [show (dropRow s key).store.deletable entry.1 .memory = s.store.deletable entry.1 .memory from
      deletable_erase (Ne.symm own)]

theorem Balanced.usedBytes_evicted (balanced : Balanced tier s)
    (absent : Act.held key s.memory = none) :
    s.usedBytes - total size (evictables s key) = pinnedBytes s := by
  have rest : s.memory.filter (fun entry => !evictable s key entry) = s.memory.filter (pinned s) := by
    refine List.filter_congr fun entry member => ?_
    rw [balanced.evictable_eq member (held_eq_none_iff.mp absent entry member), Bool.not_not]
  have whole := total_filter_add size (evictable s key) s.memory
  rw [rest] at whole
  rw [balanced.used, ← whole]
  unfold evictables pinnedBytes
  omega

theorem Full.pinned (full : Full tier key data s s') (balanced : Balanced tier s) :
    tier.maxBytes < data.length ∨ tier.maxBytes < pinnedBytes s + data.length := by
  cases full with
  | large exceeds => exact .inl exceeds
  | crowded fits absent start exceeds =>
    right
    rw [foldl_without_usedBytes] at exceeds
    rw [← balanced.usedBytes_evicted absent]
    rcases start with rfl | ⟨rfl, -⟩
    · exact exceeds
    · rw [evictables_dropRow] at exceeds
      exact exceeds

/-! ## Runs -/

/-- One call of the tier, or something else that happens to the rows: pins come and go, and
other tiers keep their own rows. -/
inductive Step (tier : MemoryTier) (t : Nat) (w w' : World) : Prop where
  | store (key : BlockKey) (data : Bytes) (m : KVMetadata) {r : Except PyError StoreResult}
      (ran : (tier.store key data m).Ends device t (fun _ => True) w r w')
  | load (key : BlockKey) {r : Except PyError LoadResult}
      (ran : (load key).Ends device t (fun _ => True) w r w')
  | lookup (key : BlockKey) {r : Except PyError (Option BlockLocation)}
      (ran : (lookup key).Ends device t (fun _ => True) w r w')
  | evict (key : BlockKey) {r : Except PyError Bool}
      (ran : (evict key).Ends device t (fun _ => True) w r w')
  | others {m : MetadataStore} (same : ∀ key, m.account key = w.store.account key)
      (after : w' = { w with store := m })

structure AtRest (tier : MemoryTier) (t : Nat) (w : World) : Prop where
  balanced : Balanced tier w.stock
  free : w.Free t

theorem AtRest.start {w : World} (fresh : w.memory = []) (unused : w.usedBytes = 0)
    (free : w.Free t) : AtRest tier t w := by
  refine ⟨⟨?_, ?_, ?_, fun entry member => ?_⟩, free⟩
  · rw [show w.stock.memory = [] from fresh]
    exact List.nodup_nil
  · rw [show w.stock.memory = [] from fresh, show w.stock.usedBytes = 0 from unused]
    rfl
  · rw [show w.stock.usedBytes = 0 from unused]
    exact tier.capacity.le
  · rw [show w.stock.memory = [] from fresh] at member
    cases member

theorem AtRest.step {w w' : World} (rest : AtRest tier t w) (step : tier.Step t w w') :
    AtRest tier t w' := by
  cases step with
  | store key data m ran =>
    obtain ⟨stored, free⟩ := (runs_store rest.balanced key data m).ends rfl rest.free ran
    exact ⟨stored.balanced, free⟩
  | load key ran =>
    obtain ⟨balanced, free⟩ := ((steady_load key).leads _ rest.balanced).ends _ _ _ rfl rest.free ran
    exact ⟨balanced, free⟩
  | lookup key ran =>
    obtain ⟨balanced, free⟩ := ((steady_lookup key).leads _ rest.balanced).ends _ _ _ rfl rest.free ran
    exact ⟨balanced, free⟩
  | evict key ran =>
    obtain ⟨balanced, free⟩ := ((Steady.evict key).leads _ rest.balanced).ends _ _ _ rfl rest.free ran
    exact ⟨balanced, free⟩
  | others same after =>
    subst after
    exact ⟨rest.balanced.change fun entry _ => same entry.1, rest.free.mutation,
      rest.free.memoryLock⟩

theorem AtRest.run {w w' : World} (rest : AtRest tier t w)
    (run : Relation.ReflTransGen (tier.Step t) w w') : AtRest tier t w' := by
  induction run with
  | refl => exact rest
  | tail _ step ih => exact ih.step step

theorem held_filter {memory : List Entry} {key : BlockKey} {keep : Entry → Bool}
    (stays : ∀ entry, entry.1 = key → keep entry = true) :
    Act.held key (memory.filter keep) = Act.held key memory := by
  unfold Act.held
  rw [List.find?_filter]
  congr 2
  funext entry
  by_cases here : entry.1 = key <;> simp [here, stays]

theorem held_putBack (key other : BlockKey) (memory : List Entry) :
    Act.held other (putBack key memory) = Act.held other memory := by
  cases there : Act.held key memory with
  | none => rw [putBack_eq_self there]
  | some old =>
    rw [putBack, there]
    by_cases same : other = key
    · rw [same, there]
      exact held_append_self key memory old
    · have front : Act.held other (Act.without key memory) = Act.held other memory :=
        held_filter fun entry here => by simp [here, same]
      rw [Act.held, Option.map_some, Option.toList_some, List.find?_append,
        List.find?_singleton, decide_eq_false (Ne.symm same)]
      simpa [Act.held] using front

/-- In every run of calls over an empty map, with any old rows, pins and failures of the
database, `_used_bytes` is what the payloads take and within the limit, and each payload has a
row that agrees with it; an insertion whose commit fails leaves map, counter and row as they
were; and `StoreFull` means that the block is too large or that the pinned payloads leave no
room for it. -/
theorem memory_accounts_kept (tier : MemoryTier) {t : Nat} {w w' : World} (fresh : w.memory = [])
    (unused : w.usedBytes = 0) (free : w.Free t)
    (run : Relation.ReflTransGen (tier.Step t) w w') :
    ((w'.memory.map Prod.fst).Nodup ∧
      w'.usedBytes = (w'.memory.map fun entry => (entry.2.length : Int)).sum ∧
      w'.usedBytes ≤ tier.maxBytes) ∧
    (∀ entry ∈ w'.memory, ∃ row, w'.store.activeRow entry.1 .memory = some row ∧
      row.bytes = entry.2.length ∧ row.checksum = sha256Hex entry.2) ∧
    (∀ key data m e v v', v.Free t →
      (insertion key data m).Ends device t (fun _ => True) v (.error e) v' →
      (∀ other, Act.held other v'.memory = Act.held other v.memory) ∧
        v'.usedBytes = v.usedBytes ∧
        v'.store.blocks.find (key.row .memory) = v.store.blocks.find (key.row .memory)) ∧
    ∀ key data m e w'',
      (tier.store key data m).Ends device t (fun _ => True) w' (.error e) w'' →
      e.cls = .storeFull →
      tier.maxBytes < data.length ∨ tier.maxBytes < pinnedBytes w'.stock + data.length := by
  have rest := (AtRest.start fresh unused free).run run
  refine ⟨⟨rest.balanced.unique, rest.balanced.used, rest.balanced.within⟩,
    fun entry member => ?_, fun key data m e v v' unlocked ran => ?_,
    fun key data m e w'' ran full => ?_⟩
  · obtain ⟨row, active, same⟩ := Option.map_eq_some_iff.mp (rest.balanced.rows entry member)
    obtain ⟨bytes, checksum⟩ := Prod.mk.inj same
    exact ⟨row, active, bytes, checksum⟩
  · obtain ⟨ended, -⟩ := (runs_insertion key data m).ends rfl unlocked ran
    generalize after : v'.stock = s' at ended
    cases ended with
    | undone other =>
      have store : v'.store = v.store := congrArg Stock.store after
      refine ⟨fun other => ?_, congrArg Stock.usedBytes after, by rw [store]⟩
      rw [show v'.memory = putBack key v.memory from congrArg Stock.memory after]
      exact held_putBack key other v.memory
  · obtain ⟨stored, -⟩ := (runs_store rest.balanced key data m).ends rfl rest.free ran
    exact (stored.full e rfl full).pinned rest.balanced

/-! ## A crowded tier -/

def tightMemory : MemoryTier := ⟨4, by decide⟩

def secondKey : BlockKey := { sampleKey with blockHash := ⟨List.replicate 64 (ch '1'), by decide⟩ }

def thirdKey : BlockKey := { sampleKey with blockHash := ⟨List.replicate 64 (ch '2'), by decide⟩ }

def twoBlocks : World :=
  (emptyWorld.after (tightMemory.store sampleKey [1, 2] sampleMetadata)).after
    (tightMemory.store secondKey [3] { sampleMetadata with key := secondKey })

def crowded : World := { twoBlocks with store := (twoBlocks.store.acquire sampleKey .memory).2 }

theorem crowded_reached : Relation.ReflTransGen (tightMemory.Step 0) emptyWorld crowded := by
  obtain ⟨_, first⟩ := ends_after emptyWorld (tightMemory.store sampleKey [1, 2] sampleMetadata)
    (by decide +kernel)
  obtain ⟨_, second⟩ := ends_after (emptyWorld.after (tightMemory.store sampleKey [1, 2]
    sampleMetadata)) (tightMemory.store secondKey [3] { sampleMetadata with key := secondKey })
      (by decide +kernel)
  exact .tail (.tail (.single (.store _ _ _ first)) (.store _ _ _ second))
    (.others (fun _ => account_acquire _ _) rfl)

/-- Three more bytes do not fit beside the block that is read, and the other one is evicted for
nothing; an insertion that the database refuses changes nothing. -/
theorem memory_accounts_kept_crowded : ∃ w',
    Relation.ReflTransGen (tightMemory.Step 0) emptyWorld w' ∧
    w'.memory.map Prod.fst = [sampleKey] ∧
    w'.usedBytes = (w'.memory.map fun entry => (entry.2.length : Int)).sum ∧
    4 < pinnedBytes crowded.stock + 3 ∧
    ∃ e v, (insertion sampleKey [7, 8, 9] sampleMetadata).Ends device 0 (fun _ => True) w'
      (.error e) v ∧ v.usedBytes = w'.usedBytes := by
  have outcome : ((tightMemory.store thirdKey [4, 5, 6] { sampleMetadata with key := thirdKey }).execute
      device 0 calmChoice crowded).bind (fun ended =>
        ((insertion sampleKey [7, 8, 9] sampleMetadata).execute device 0 { calmChoice with dbFails := true }
          ended.2).map fun last => (raised ended.1, ended.2.memory.map Prod.fst, raised last.1)) =
      some (some .storeFull, [sampleKey], some .operationalError) := by decide +kernel
  obtain ⟨⟨r, w'⟩, stored, rest⟩ := Option.bind_eq_some_iff.mp outcome
  obtain ⟨⟨r', v⟩, inserted, shown⟩ := Option.map_eq_some_iff.mp rest
  obtain ⟨full, keys, refused⟩ : raised r = some .storeFull ∧ w'.memory.map Prod.fst = [sampleKey] ∧
      raised r' = some .operationalError := by simpa using shown
  obtain ⟨e, rfl, cls⟩ := raised_eq_some.mp full
  obtain ⟨e', rfl, -⟩ := raised_eq_some.mp refused
  have ran : (tightMemory.store thirdKey [4, 5, 6] { sampleMetadata with key := thirdKey }).Ends
      device 0 (fun _ => True) crowded (.error e) w' := ends_of_execute trivial stored
  have run := crowded_reached.tail (.store _ _ _ ran)
  have failed : (insertion sampleKey [7, 8, 9] sampleMetadata).Ends device 0 (fun _ => True) w'
      (.error e') v := ends_of_execute trivial inserted
  have free : w'.Free 0 := (AtRest.start rfl rfl ⟨rfl, rfl⟩).run run |>.free
  have before := memory_accounts_kept tightMemory rfl rfl ⟨rfl, rfl⟩ crowded_reached
  have books := memory_accounts_kept tightMemory rfl rfl ⟨rfl, rfl⟩ run
  refine ⟨w', run, keys, books.1.2.1, ?_, e', v, failed, (books.2.2.1 _ _ _ _ _ _ free failed).2.1⟩
  exact (before.2.2.2 _ _ _ _ _ ran cls).resolve_left (by decide)

end MemoryTier

end AiStorage.KV
