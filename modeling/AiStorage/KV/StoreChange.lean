import AiStorage.KV.MetadataStore

/-!
# What a store operation can do

Each operation makes one of a few changes, named by an event. Every invariant of the
store is proved over the changes, not over the operations.
-/
namespace AiStorage.KV
open Lib

inductive StoreEvent where
  | nothing
  | publish (id : RowId)
  | touch (id : RowId)
  | pin (id : RowId)
  | unpin (id : RowId)
  | remove (id : RowId)
  | bury (id : RowId)
  | finish (id : RowId)
  | close
  | reopen

def StoreEvent.removes : StoreEvent → Bool
  | remove _ | finish _ => true
  | _ => false

def StoreEvent.row : StoreEvent → Option RowId
  | publish id | touch id | pin id | unpin id | remove id | bury id | finish id => some id
  | nothing | close | reopen => none

def StoreEvent.publishes : StoreEvent → Bool
  | publish _ => true
  | _ => false

def StoreEvent.pins : StoreEvent → Bool
  | pin _ | unpin _ | reopen => true
  | _ => false

namespace MetadataStore

/-- The count of live pins: one of another owner does not count. -/
def effective (s : MetadataStore) (row : Row) : Int :=
  if row.inFlightEpoch = s.ownerEpoch then row.inFlight else 0

inductive Change : MetadataStore → StoreEvent → MetadataStore → Prop where
  | nothing (s : MetadataStore) : Change s .nothing s
  | publish {s : MetadataStore} {now : Readings} {location : BlockLocation} {m : KVMetadata}
      {row : Row} (accepted : s.acceptUpsert now location m = .ok row) :
      Change s (.publish row.id) { s with blocks := s.blocks.set row }
  | touch {s : MetadataStore} {row : Row} (now : Float64) (member : row ∈ s.blocks.rows)
      (active : row.state = .active) :
      Change s (.touch row.id) { s with blocks := s.blocks.set (touched now row) }
  | pin {s : MetadataStore} {row : Row} (member : row ∈ s.blocks.rows)
      (active : row.state = .active) :
      Change s (.pin row.id) { s with blocks := s.blocks.set (s.pinned row) }
  | unpin {s : MetadataStore} {row : Row} (member : row ∈ s.blocks.rows)
      (own : row.inFlightEpoch = s.ownerEpoch) :
      Change s (.unpin row.id) { s with blocks := s.blocks.set (unpinned row) }
  | remove {s : MetadataStore} {row : Row} (member : row ∈ s.blocks.rows)
      (active : row.state = .active) (free : s.idle row = true) :
      Change s (.remove row.id) { s with blocks := s.blocks.erase row.id }
  | bury {s : MetadataStore} {row : Row} (member : row ∈ s.blocks.rows)
      (active : row.state = .active)
      (free : ¬(row.inFlightEpoch = s.ownerEpoch ∧ 0 < row.inFlight)) :
      Change s (.bury row.id) { s with blocks := s.blocks.set (tombstone row) }
  | finish {s : MetadataStore} {row : Row} (member : row ∈ s.blocks.rows)
      (deleting : row.state = .deleting) :
      Change s (.finish row.id) { s with blocks := s.blocks.erase row.id }
  | close (s : MetadataStore) : Change s .close s.close
  | reopen (s : MetadataStore) (epoch : Text) : Change s .reopen (s.reopen epoch)

theorem Change.frame {s s' : MetadataStore} {e : StoreEvent} (change : s.Change e s')
    {id : RowId} (here : e.row = some id) :
    (∀ other, id ≠ other → s'.blocks.find other = s.blocks.find other) ∧ s'.closed = s.closed ∧
      s'.ownerEpoch = s.ownerEpoch := by
  cases change with
  | nothing | close | reopen => cases here
  | publish | touch | pin | unpin | bury =>
    cases here
    exact ⟨fun _ apart => Table.find_set_of_ne apart, rfl, rfl⟩
  | remove | finish =>
    cases here
    exact ⟨fun _ apart => Table.find_erase_of_ne apart, rfl, rfl⟩

/-! ## Operations make changes -/

section Operations

variable (s : MetadataStore) (key : BlockKey) (tier : TierName)

theorem upsert_change (now : Readings) (location : BlockLocation) (m : KVMetadata) :
    (∃ e, s.upsert now location m = (.error e, s)) ∨
      ∃ row, s.acceptUpsert now location m = .ok row ∧
        s.upsert now location m = (.ok (), { s with blocks := s.blocks.set row }) := by
  unfold upsert
  cases accepted : s.acceptUpsert now location m with
  | error e => exact .inl ⟨e, rfl⟩
  | ok row => exact .inr ⟨row, rfl, rfl⟩

variable {s} in
theorem select_eq_some {id : RowId} {condition : Row → Bool} {row : Row} :
    s.select id condition = some row ↔
      row ∈ s.blocks.rows ∧ row.id = id ∧ condition row = true := by
  rw [select, Option.filter_eq_some_iff, Table.find_eq_some_iff, and_assoc]

variable {s} in
theorem select_eq_none {id : RowId} {condition : Row → Bool}
    (none : s.select id condition = none) {row : Row} (member : row ∈ s.blocks.rows)
    (here : row.id = id) : condition row = false := by
  cases fits : condition row with
  | false => rfl
  | true => exact absurd (select_eq_some.mpr ⟨member, here, fits⟩) (by rw [none]; nofun)

theorem touch_cases (now : Float64) :
    (s.touch now key tier).2 = s ∨
      ∃ row ∈ s.blocks.rows, row.id = key.row tier ∧ row.state = .active ∧
        s.touch now key tier = (.ok (), { s with blocks := s.blocks.set (touched now row) }) := by
  unfold touch
  split_ifs with closed
  · exact .inl rfl
  · unfold updateRow
    cases selected : s.select (key.row tier) fun row => row.state = .active with
    | none => exact .inl rfl
    | some row =>
      obtain ⟨member, here, active⟩ := select_eq_some.mp selected
      exact .inr ⟨row, member, here, of_decide_eq_true active, rfl⟩

theorem acquire_cases :
    ((s.acquire key tier).2 = s ∧ (s.acquire key tier).1 ≠ .ok true) ∨
      ∃ row ∈ s.blocks.rows, row.id = key.row tier ∧ row.state = .active ∧
        s.acquire key tier = (.ok true, { s with blocks := s.blocks.set (s.pinned row) }) := by
  unfold acquire
  split_ifs with closed
  · exact .inl ⟨rfl, nofun⟩
  · unfold updateRow
    cases selected : s.select (key.row tier) fun row => row.state = .active with
    | none => exact .inl ⟨rfl, by simp⟩
    | some row =>
      obtain ⟨member, here, active⟩ := select_eq_some.mp selected
      exact .inr ⟨row, member, here, of_decide_eq_true active, rfl⟩

theorem lookupAndAcquire_cases :
    ((s.lookupAndAcquire key tier).2 = s ∧
        ∀ location, (s.lookupAndAcquire key tier).1 ≠ .ok (some location)) ∨
      ∃ row ∈ s.blocks.rows, row.id = key.row tier ∧ row.state = .active ∧
        s.lookupAndAcquire key tier = ((locationFromRow key (s.pinned row)).map some,
          { s with blocks := s.blocks.set (s.pinned row) }) := by
  unfold lookupAndAcquire
  split_ifs with closed
  · exact .inl ⟨rfl, nofun⟩
  · cases found : s.blocks.find (key.row tier) with
    | none => exact .inl ⟨rfl, by simp⟩
    | some row =>
      obtain ⟨member, here⟩ := Table.find_eq_some_iff.mp found
      by_cases active : row.state = .active
      · exact .inr ⟨row, member, here, active, by simp [active]⟩
      · exact .inl (by simp [active])

theorem release_cases :
    ((s.release key tier).2 = s ∧ (s.closed = true ∨
        ∀ row ∈ s.blocks.rows, row.id = key.row tier → row.inFlightEpoch ≠ s.ownerEpoch)) ∨
      ∃ row ∈ s.blocks.rows, row.id = key.row tier ∧ row.inFlightEpoch = s.ownerEpoch ∧
        s.release key tier = (.ok (), { s with blocks := s.blocks.set (unpinned row) }) := by
  unfold release
  split_ifs with closed
  · exact .inl ⟨rfl, .inl closed⟩
  · unfold updateRow
    cases selected : s.select (key.row tier) fun row => row.inFlightEpoch = s.ownerEpoch with
    | none =>
      exact .inl ⟨rfl, .inr fun row member here =>
        of_decide_eq_false (select_eq_none selected member here)⟩
    | some row =>
      obtain ⟨member, here, own⟩ := select_eq_some.mp selected
      exact .inr ⟨row, member, here, of_decide_eq_true own, rfl⟩

theorem delete_cases :
    ((s.delete key tier).2 = s ∧ (s.delete key tier).1 ≠ .ok true ∧ (s.closed = true ∨
        ∀ row ∈ s.blocks.rows, row.id = key.row tier → row.state = .active →
          s.idle row = false)) ∨
      ∃ row ∈ s.blocks.rows, row.id = key.row tier ∧ row.state = .active ∧ s.idle row = true ∧
        s.delete key tier = (.ok true, { s with blocks := s.blocks.erase row.id }) := by
  unfold delete
  split_ifs with closed
  · exact .inl ⟨rfl, nofun, .inl closed⟩
  · unfold deleteRow
    cases selected : s.select (key.row tier) fun row => row.state = .active && s.idle row with
    | none =>
      refine .inl ⟨rfl, by simp, .inr fun row member here active => ?_⟩
      have refused := select_eq_none selected member here
      simpa [active] using refused
    | some row =>
      obtain ⟨member, here, fits⟩ := select_eq_some.mp selected
      simp only [Bool.and_eq_true, decide_eq_true_eq] at fits
      exact .inr ⟨row, member, here, fits.1, fits.2, by rw [here]; rfl⟩

theorem beginDelete_cases :
    ((s.beginDelete key tier).2 = s ∧ (s.closed = true ∨
        ∀ row ∈ s.blocks.rows, row.id = key.row tier → row.state = .active →
          (row.inFlightEpoch = s.ownerEpoch ∧ 0 < row.inFlight) ∨
            ∃ e, locationFromRow key row = .error e)) ∨
      ∃ row ∈ s.blocks.rows, row.id = key.row tier ∧ row.state = .active ∧
        ¬(row.inFlightEpoch = s.ownerEpoch ∧ 0 < row.inFlight) ∧
        ∃ location, locationFromRow key row = .ok location ∧
          s.beginDelete key tier =
            (.ok (some location), { s with blocks := s.blocks.set (tombstone row) }) := by
  unfold beginDelete
  split_ifs with closed
  · exact .inl ⟨rfl, .inl closed⟩
  · cases found : s.blocks.find (key.row tier) with
    | none =>
      refine .inl ⟨rfl, .inr fun row member here => ?_⟩
      have there := Table.mem_rows.mp member
      rw [here, found] at there
      exact absurd there nofun
    | some row =>
      obtain ⟨member, here⟩ := Table.find_eq_some_iff.mp found
      have only : ∀ other ∈ s.blocks.rows, other.id = key.row tier → other = row :=
        fun other inside same => Table.eq_of_id inside member (same.trans here.symm)
      cases state : row.state with
      | active =>
        by_cases busy : row.inFlightEpoch = s.ownerEpoch ∧ 0 < row.inFlight
        · refine .inl ⟨by simp [busy, state], .inr fun other inside same _ => ?_⟩
          rw [only other inside same]
          exact .inl busy
        · cases built : locationFromRow key row with
          | error e =>
            refine .inl ⟨by simp [busy, state, built], .inr fun other inside same _ => ?_⟩
            rw [only other inside same]
            exact .inr ⟨e, built⟩
          | ok location =>
            exact .inr ⟨row, member, here, state, busy, location, built, by simp [busy, state, built]⟩
      | deleting =>
        refine .inl ⟨by simp [state], .inr fun other inside same active => ?_⟩
        rw [only other inside same, state] at active
        exact absurd active nofun

theorem finishDelete_cases :
    ((s.finishDelete key tier).2 = s ∧ (s.finishDelete key tier).1 ≠ .ok true) ∨
      ∃ row ∈ s.blocks.rows, row.id = key.row tier ∧ row.state = .deleting ∧
        s.finishDelete key tier = (.ok true, { s with blocks := s.blocks.erase row.id }) := by
  unfold finishDelete
  split_ifs with closed
  · exact .inl ⟨rfl, nofun⟩
  · unfold deleteRow
    cases selected : s.select (key.row tier) fun row => row.state = .deleting with
    | none => exact .inl ⟨rfl, by simp⟩
    | some row =>
      obtain ⟨member, here, deleting⟩ := select_eq_some.mp selected
      exact .inr ⟨row, member, here, of_decide_eq_true deleting, by rw [here]; rfl⟩

end Operations

/-! ## Accepted publications -/

theorem checkMetadata_ok {m : KVMetadata} (ok : checkMetadata m = .ok ()) : m.Valid := by
  unfold checkMetadata at ok
  cases checked : m.validate true with
  | ok => exact KVMetadata.validate_eq_ok.mp checked
  | error e =>
    rw [checked] at ok
    dsimp only at ok
    split_ifs at ok

/-- What `upsert` has checked, and the row it writes. -/
structure Accepted (s : MetadataStore) (now : Readings) (location : BlockLocation) (m : KVMetadata)
    (row : Row) : Prop where
  valid : m.Valid
  opened : s.closed = false
  key : location.key = m.key
  id : row.id = m.key.row location.tier
  uri : row.uri = location.uri
  uriFilled : location.uri ≠ []
  uriEncodes : (encodeUtf8 location.uri).isSome = true
  bytes : m.bytes = .int row.bytes
  locationBytes : location.bytes = row.bytes
  bytesFit : 0 ≤ row.bytes
  checksum : m.checksum = .str row.checksum
  locationChecksum : location.checksum = row.checksum
  metadataJson : row.metadataJson = m.toDict.print .default
  attributes : (locationAttributes location).encodable true = true
  locationJson : row.locationJson = (locationAttributes location).print .default
  descriptors : ∀ old ∈ s.blocks.rows, belongsTo m.key old = true → checkDescriptor now m old = .ok ()
  replaces : ∀ old, s.blocks.find row.id = some old → old.state = .active
  state : row.state = .active
  epoch : row.inFlightEpoch = s.ownerEpoch
  inFlight : row.inFlight = ((s.blocks.find row.id).map s.effective).getD 0

theorem dumpsText_ok {v : PyVal} {json : Text} (ok : dumpsText v = .ok json) :
    v.encodable true = true ∧ json = v.print .default := by
  unfold dumpsText PyVal.dumps at ok
  split_ifs at ok with written
  exact ⟨written, (Except.ok.inj ok).symm⟩

theorem forM_ok {items : List Row} {check : Row → Except PyError Unit}
    (ok : items.forM check = .ok ()) : ∀ row ∈ items, check row = .ok () := by
  induction items with
  | nil => exact List.forall_mem_nil _
  | cons head tail ih =>
    have both : (check head >>= fun _ => tail.forM check) = .ok () := ok
    rw [bind_unit_ok] at both
    obtain ⟨first, rest⟩ := both
    exact List.forall_mem_cons.mpr ⟨first, ih rest⟩

theorem eq_int_of_pyEq {n : Int} {v : PyVal} (same : (PyVal.int n).pyEq v = true) {k : Int}
    (shape : v = .int k) : v = .int n := by
  subst shape
  have codes := List.cons.inj (List.cons.inj (List.cons.inj
    (Canon.atom.inj (PyVal.pyEq_iff.mp same))).2).2
  have positive : (2 ^ unitBits : Int) ≠ 0 := pow_ne_zero _ (by decide)
  rw [Int.eq_of_mul_eq_mul_right positive codes.1]

theorem acceptUpsert_ok {s : MetadataStore} {now : Readings} {location : BlockLocation}
    {m : KVMetadata} {row : Row} (accepted : s.acceptUpsert now location m = .ok row) :
    s.Accepted now location m row := by
  simp only [acceptUpsert, validateUpsert, validatePayloadDescriptorLocked, upsertedRow,
    require_ok, bind_eq_ok, exists_unit] at accepted
  obtain ⟨⟨checked, key, filled, bytes, checksum⟩, opened, descriptors, pending, metadataJson,
    metadataWritten, locationJson, locationWritten, uri, bound, size, sizeBound, created, -, last, -,
    reuse, -, -, built⟩ := accepted
  have valid := checkMetadata_ok checked
  have sameKey : location.key = m.key := of_decide_eq_true key
  obtain ⟨n, shape, least⟩ := checkInteger_ok valid.bytes
  obtain ⟨nonneg, sameBytes⟩ := Bool.and_eq_true_iff.mp bytes
  have boundUri : uri = location.uri ∧ (encodeUtf8 location.uri).isSome = true := by
    unfold bindText at bound
    split_ifs at bound with encodes
    exact ⟨(Except.ok.inj bound).symm, encodes⟩
  have boundSize : size = location.bytes := by
    unfold bindInteger at sizeBound
    split_ifs at sizeBound with fits
    exact (Except.ok.inj sizeBound).symm
  obtain rfl := Except.ok.inj built
  exact {
    valid
    opened := by simpa using opened
    key := sameKey
    id := by simp only [sameKey]
    uri := boundUri.1
    uriFilled := by simpa using filled
    uriEncodes := boundUri.2
    bytes := boundSize ▸ eq_int_of_pyEq sameBytes shape
    locationBytes := boundSize.symm
    bytesFit := by simpa [boundSize] using nonneg
    checksum := eq_str_of_pyEq (PyVal.pyEq_symm checksum)
    locationChecksum := rfl
    metadataJson := (dumpsText_ok metadataWritten).2
    attributes := (dumpsText_ok locationWritten).1
    locationJson := (dumpsText_ok locationWritten).2
    descriptors := fun old member belongs =>
      forM_ok descriptors old (List.mem_filter.mpr ⟨member, belongs⟩)
    replaces := by
      intro old found
      dsimp only at found
      rw [found] at pending
      cases state : old.state with
      | active => rfl
      | deleting => simp [state] at pending
    state := rfl
    epoch := rfl
    inFlight := rfl }

end MetadataStore

/-! ## Runs of operations -/

inductive StoreOp where
  | upsert (now : Readings) (location : BlockLocation) (m : KVMetadata)
  | touch (now : Float64) (key : BlockKey) (tier : TierName)
  | acquire (key : BlockKey) (tier : TierName)
  | lookupAndAcquire (key : BlockKey) (tier : TierName)
  | release (key : BlockKey) (tier : TierName)
  | delete (key : BlockKey) (tier : TierName)
  | beginDelete (key : BlockKey) (tier : TierName)
  | finishDelete (key : BlockKey) (tier : TierName)
  | close
  | reopen (epoch : Text)

namespace StoreOp

def apply (s : MetadataStore) : StoreOp → MetadataStore
  | upsert now location m => (s.upsert now location m).2
  | touch now key tier => (s.touch now key tier).2
  | acquire key tier => (s.acquire key tier).2
  | lookupAndAcquire key tier => (s.lookupAndAcquire key tier).2
  | release key tier => (s.release key tier).2
  | delete key tier => (s.delete key tier).2
  | beginDelete key tier => (s.beginDelete key tier).2
  | finishDelete key tier => (s.finishDelete key tier).2
  | close => s.close
  | reopen epoch => s.reopen epoch

def removes : StoreOp → Bool
  | delete .. | finishDelete .. => true
  | _ => false

def row : StoreOp → Option RowId
  | upsert _ location _ => some (location.key.row location.tier)
  | touch _ key tier | acquire key tier | lookupAndAcquire key tier | release key tier
  | delete key tier | beginDelete key tier | finishDelete key tier => some (key.row tier)
  | close | reopen _ => none

def publishes : StoreOp → Bool
  | upsert .. => true
  | _ => false

def pins : StoreOp → Bool
  | acquire .. | lookupAndAcquire .. | release .. | reopen _ => true
  | _ => false

def At (time : Float64) : StoreOp → Prop
  | touch now _ _ => now = time
  | _ => True

/-- The change that an operation made: it is one of the operation's kind and row. -/
structure Causes (s : MetadataStore) (op : StoreOp) (event : StoreEvent) : Prop where
  change : s.Change event (op.apply s)
  removes : event.removes = true → op.removes = true
  publishes : event.publishes = true → op.publishes = true
  pins : event.pins = true → op.pins = true
  row : event = .nothing ∨ event.row = op.row

theorem Causes.nothing {s : MetadataStore} {op : StoreOp} (same : op.apply s = s) :
    op.Causes s .nothing :=
  ⟨by rw [same]; exact .nothing s, nofun, nofun, nofun, .inl rfl⟩

end StoreOp

open MetadataStore StoreOp in
theorem StoreOp.change (s : MetadataStore) (op : StoreOp) : ∃ event, op.Causes s event := by
  cases op with
  | upsert now location m =>
    rcases s.upsert_change now location m with ⟨e, failed⟩ | ⟨row, accepted, done⟩
    · exact ⟨.nothing, .nothing (by rw [apply, failed])⟩
    · have kept := acceptUpsert_ok accepted
      exact ⟨.publish row.id, by rw [apply, done]; exact .publish accepted, nofun, fun _ => rfl, nofun,
        .inr (congrArg some (by rw [kept.id, kept.key]))⟩
  | touch now key tier =>
    rcases s.touch_cases key tier now with same | ⟨row, member, here, active, done⟩
    · exact ⟨.nothing, .nothing same⟩
    · exact ⟨.touch row.id, by rw [apply, done]; exact .touch now member active, nofun, nofun, nofun,
        .inr (congrArg some here)⟩
  | acquire key tier =>
    rcases s.acquire_cases key tier with ⟨same, -⟩ | ⟨row, member, here, active, done⟩
    · exact ⟨.nothing, .nothing same⟩
    · exact ⟨.pin row.id, by rw [apply, done]; exact .pin member active, nofun, nofun, fun _ => rfl,
        .inr (congrArg some here)⟩
  | lookupAndAcquire key tier =>
    rcases s.lookupAndAcquire_cases key tier with ⟨same, -⟩ | ⟨row, member, here, active, done⟩
    · exact ⟨.nothing, .nothing same⟩
    · exact ⟨.pin row.id, by rw [apply, done]; exact .pin member active, nofun, nofun, fun _ => rfl,
        .inr (congrArg some here)⟩
  | release key tier =>
    rcases s.release_cases key tier with ⟨same, -⟩ | ⟨row, member, here, own, done⟩
    · exact ⟨.nothing, .nothing same⟩
    · exact ⟨.unpin row.id, by rw [apply, done]; exact .unpin member own, nofun, nofun, fun _ => rfl,
        .inr (congrArg some here)⟩
  | delete key tier =>
    rcases s.delete_cases key tier with ⟨same, -⟩ | ⟨row, member, here, active, free, done⟩
    · exact ⟨.nothing, .nothing same⟩
    · exact ⟨.remove row.id, by rw [apply, done]; exact .remove member active free, fun _ => rfl,
        nofun, nofun, .inr (congrArg some here)⟩
  | beginDelete key tier =>
    rcases s.beginDelete_cases key tier with
      ⟨same, -⟩ | ⟨row, member, here, active, free, _, -, done⟩
    · exact ⟨.nothing, .nothing same⟩
    · exact ⟨.bury row.id, by rw [apply, done]; exact .bury member active free, nofun, nofun, nofun,
        .inr (congrArg some here)⟩
  | finishDelete key tier =>
    rcases s.finishDelete_cases key tier with ⟨same, -⟩ | ⟨row, member, here, deleting, done⟩
    · exact ⟨.nothing, .nothing same⟩
    · exact ⟨.finish row.id, by rw [apply, done]; exact .finish member deleting, fun _ => rfl,
        nofun, nofun, .inr (congrArg some here)⟩
  | close => exact ⟨.close, .close s, nofun, nofun, nofun, .inr rfl⟩
  | reopen epoch => exact ⟨.reopen, .reopen s epoch, nofun, nofun, fun _ => rfl, .inr rfl⟩

end AiStorage.KV
