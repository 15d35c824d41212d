import AiStorage.KV.StoreChange
import AiStorage.Lib.Runs

/-!
# Descriptors are immutable across tiers

Runs of store operations from an empty database. Every row was written by an accepted
publication, which was compared with all rows of its key.
-/
namespace AiStorage.KV
open Lib

/-! ## Rows as they were written -/

/-- The row holds the metadata of an accepted publication. -/
structure Row.Holds (row : Row) (m : KVMetadata) : Prop where
  valid : m.Valid
  id : row.id = m.key.row row.id.tier
  metadataJson : row.metadataJson = m.toDict.print .default
  bytes : m.bytes = .int row.bytes
  bytesFit : 0 ≤ row.bytes
  checksum : m.checksum = .str row.checksum
  uri : row.uri ≠ []
  locationJson : ∃ location, (locationAttributes location).encodable true = true ∧
    row.locationJson = (locationAttributes location).print .default

def Row.content (row : Row) : RowId × Text × Int × Text × Text × Text :=
  (row.id, row.uri, row.bytes, row.checksum, row.metadataJson, row.locationJson)

variable {m : KVMetadata}

theorem Row.Holds.congr {row other : Row} (holds : row.Holds m)
    (same : row.content = other.content) : other.Holds m := by
  simp only [Row.content, Prod.mk.injEq] at same
  obtain ⟨id, uri, bytes, checksum, metadataJson, locationJson⟩ := same
  exact {
    valid := holds.valid
    id := id ▸ holds.id
    metadataJson := metadataJson ▸ holds.metadataJson
    bytes := bytes ▸ holds.bytes
    bytesFit := bytes ▸ holds.bytesFit
    checksum := checksum ▸ holds.checksum
    uri := uri ▸ holds.uri
    locationJson := locationJson ▸ holds.locationJson }

theorem decodeMetadata_print (valid : m.Valid) (now : Readings) :
    decodeMetadata now (m.toDict.print .default) = .ok m.persisted := by
  rw [decodeMetadata, loads_print .default (KVMetadata.encodable_toDict valid)]
  exact KVMetadata.fromDict_norm_toDict valid now

theorem Row.Holds.decode {row : Row} (holds : row.Holds m) (now : Readings) :
    decodeMetadata now row.metadataJson = .ok m.persisted := by
  rw [holds.metadataJson]
  exact decodeMetadata_print holds.valid now

theorem Row.Holds.location {row : Row} (holds : row.Holds m) (key : BlockKey) :
    ∃ location, locationFromRow key row = .ok location := by
  obtain ⟨source, encodable, json⟩ := holds.locationJson
  have filled : row.locationJson.isEmpty = false := by
    rw [json, locationAttributes, PyVal.print_dict]
    rfl
  have core : (row.uri.isEmpty || decide (row.bytes < 0)) = false := by
    have nonneg := holds.bytesFit
    have uri := holds.uri
    simp [uri, nonneg]
  have parsed : loads row.locationJson = some (locationAttributes source).norm := by
    rw [json]
    exact loads_print .default encodable
  unfold locationFromRow
  rw [filled, if_neg Bool.false_ne_true, parsed, locationAttributes, PyVal.norm_dict]
  dsimp only
  rw [core, if_neg Bool.false_ne_true]
  exact ⟨_, rfl⟩

namespace MetadataStore

variable {now : Readings} {location : BlockLocation} {m n : KVMetadata} {row : Row} {key : BlockKey}
  {checksum : Text}

theorem Accepted.holds {s : MetadataStore}
    (accepted : s.Accepted now location m row) : row.Holds m where
  valid := accepted.valid
  id := by rw [accepted.id]; rfl
  metadataJson := accepted.metadataJson
  bytes := accepted.bytes
  bytesFit := accepted.bytesFit
  checksum := accepted.checksum
  uri := accepted.uri ▸ accepted.uriFilled
  locationJson := ⟨location, accepted.attributes, accepted.locationJson⟩

theorem checkDescriptor_ok (holds : row.Holds n) (ok : checkDescriptor now m row = .ok ()) :
    n.persisted.payloadDescriptor.pyEq m.payloadDescriptor = true := by
  have checked : n.persisted.validate true = .ok () :=
    KVMetadata.validate_eq_ok.mpr (KVMetadata.persisted_valid holds.valid)
  have decoded : (decodeMetadata now row.metadataJson >>= fun persisted =>
      persisted.validate true >>= fun _ => .ok persisted) = .ok n.persisted := by
    rw [holds.decode now]
    change (n.persisted.validate true >>= fun _ => Except.ok n.persisted) = _
    rw [checked]
    rfl
  unfold checkDescriptor at ok
  rw [decoded] at ok
  dsimp only at ok
  split_ifs at ok with same
  exact same

/-! ## Changes keep what was written -/

theorem mem_set_content {s : MetadataStore} {old changed : Row} (member : old ∈ s.blocks.rows)
    (inside : row ∈ (s.blocks.set changed).rows) (same : changed.content = old.content) :
    ∃ before ∈ s.blocks.rows, before.content = row.content := by
  rcases Table.mem_set.mp inside with rfl | ⟨there, -⟩
  · exact ⟨old, member, same.symm⟩
  · exact ⟨row, there, rfl⟩

variable {s s' : MetadataStore} {event : StoreEvent}

/-- A row after a change is a row from before, or the one that was published. -/
theorem Change.content (change : Change s event s') (member : row ∈ s'.blocks.rows) :
    (∃ before ∈ s.blocks.rows, before.content = row.content) ∨
      ∃ now location m, s.Accepted now location m row ∧ event = .publish row.id := by
  cases change with
  | nothing | close => exact .inl ⟨row, member, rfl⟩
  | publish accepted =>
    rcases Table.mem_set.mp member with rfl | ⟨there, -⟩
    · exact .inr ⟨_, _, _, acceptUpsert_ok accepted, rfl⟩
    · exact .inl ⟨row, there, rfl⟩
  | touch now old _ | pin old _ | unpin old _ | bury old _ _ =>
    exact .inl (mem_set_content old member rfl)
  | remove _ _ _ | finish _ _ => exact .inl ⟨row, (Table.mem_erase.mp member).1, rfl⟩
  | reopen epoch =>
    obtain ⟨before, there, rfl⟩ := List.mem_map.mp member
    exact .inl ⟨before, there, rfl⟩

/-- Every row was written, and the rows of one key carry one descriptor. -/
structure Sound (s : MetadataStore) : Prop where
  written : ∀ row ∈ s.blocks.rows, ∃ m, row.Holds m
  agree : ∀ row ∈ s.blocks.rows, ∀ other ∈ s.blocks.rows, ∀ m n, row.Holds m → other.Holds n →
    m.key = n.key → m.persisted.payloadDescriptor.pyEq n.persisted.payloadDescriptor = true

theorem sound_create (epoch : Text) : (create epoch).Sound :=
  ⟨List.forall_mem_nil _, List.forall_mem_nil _⟩

theorem holds_persisted (left : row.Holds m) (right : row.Holds n) :
    m.persisted = n.persisted :=
  Except.ok.inj ((left.decode ⟨.nan, .nan⟩).symm.trans (right.decode ⟨.nan, .nan⟩))

theorem persisted_key (same : m.persisted = n.persisted) : m.key = n.key := by
  change m.persisted.key = n.persisted.key
  rw [same]

theorem belongsTo_of_holds (holds : row.Holds m) :
    belongsTo m.key row = true := by
  simp only [belongsTo, Bool.and_eq_true, decide_eq_true_eq]
  rw [holds.id]
  exact ⟨rfl, rfl⟩

theorem Accepted.agrees {s : MetadataStore}
    {k : KVMetadata} {other : Row} (accepted : s.Accepted now location m row)
    (member : other ∈ s.blocks.rows) (left : row.Holds k) (right : other.Holds n)
    (key : k.key = n.key) :
    n.persisted.payloadDescriptor.pyEq k.persisted.payloadDescriptor = true := by
  have same := holds_persisted left accepted.holds
  have belongs : belongsTo m.key other = true := by
    rw [← persisted_key same, key]
    exact belongsTo_of_holds right
  have checked := checkDescriptor_ok right (accepted.descriptors other member belongs)
  rw [same]
  exact KVMetadata.descriptor_persisted checked

theorem Change.sound (change : Change s event s') (sound : s.Sound) : s'.Sound := by
  refine ⟨fun row member => ?_, fun row member other inside m n left right key => ?_⟩
  · rcases change.content member with ⟨before, there, same⟩ | ⟨now, location, m, accepted, -⟩
    · obtain ⟨m, holds⟩ := sound.written before there
      exact ⟨m, holds.congr same⟩
    · exact ⟨m, accepted.holds⟩
  · -- at most one of the two rows is new
    rcases change.content member with ⟨before, there, same⟩ | ⟨now, location, p, accepted, published⟩
    · rcases change.content inside with ⟨before', there', same'⟩ | ⟨now, location, q, accepted', -⟩
      · exact sound.agree before there before' there' m n (left.congr same.symm)
          (right.congr same'.symm) key
      · exact accepted'.agrees there right (left.congr same.symm) key.symm
    · rcases change.content inside with ⟨before', there', same'⟩ | ⟨_, _, q, accepted', published'⟩
      · have agrees := accepted.agrees there' left (right.congr same'.symm) key
        rw [PayloadDescriptor.pyEq_iff] at agrees ⊢
        exact agrees.symm
      · have ids := StoreEvent.publish.inj (published.symm.trans published')
        obtain rfl := Table.eq_of_id member inside ids
        rw [holds_persisted left right, PayloadDescriptor.pyEq_iff]

/-- A row stays, with its content, until it is published anew or removed. -/
theorem Change.keeps (change : Change s event s')
    (stays : event.removes = false) (member : row ∈ s.blocks.rows) :
    ∃ after ∈ s'.blocks.rows, after.id = row.id := by
  have replaced : ∀ changed : Row, ∃ after ∈ (s.blocks.set changed).rows, after.id = row.id := by
    intro changed
    by_cases here : row.id = changed.id
    · exact ⟨changed, Table.mem_set.mpr (.inl rfl), here.symm⟩
    · exact ⟨row, Table.mem_set.mpr (.inr ⟨member, here⟩), rfl⟩
  cases change with
  | nothing | close => exact ⟨row, member, rfl⟩
  | publish _ => exact replaced _
  | touch _ _ _ => exact replaced _
  | pin _ _ => exact replaced _
  | unpin _ _ => exact replaced _
  | bury _ _ _ => exact replaced _
  | remove _ _ _ | finish _ _ => exact absurd stays nofun
  | reopen _ => exact ⟨resetPins row, List.mem_map_of_mem member, rfl⟩

theorem sound_run (epoch : Text) (ops : List StoreOp) :
    (run StoreOp.apply (create epoch) ops).Sound := by
  refine run_invariant Sound (fun s op sound => ?_) (sound_create epoch) ops
  obtain ⟨event, change, -⟩ := op.change s
  exact change.sound sound

def Carries (key : BlockKey) (checksum : Text) (s : MetadataStore) : Prop :=
  ∃ row ∈ s.blocks.rows, ∃ m, row.Holds m ∧ m.key = key ∧ row.checksum = checksum

theorem holds_checksum {other : Row} (left : row.Holds m) (right : other.Holds n)
    (same : m.persisted.payloadDescriptor.pyEq n.persisted.payloadDescriptor = true) :
    row.checksum = other.checksum := by
  rw [PayloadDescriptor.pyEq_iff] at same
  simp only [PayloadDescriptor.canon, KVMetadata.payloadDescriptor, KVMetadata.persisted,
    List.map_cons, Prod.mk.injEq, List.cons.injEq] at same
  have checksum := same.2.2.2.2.2.2.2.2.1
  rw [left.checksum, right.checksum] at checksum
  exact strCode_inj (Canon.atom.inj checksum)

theorem Change.carries (change : Change s event s') (stays : event.removes = false)
    (carries : Carries key checksum s) : Carries key checksum s' := by
  obtain ⟨row, member, m, holds, sameKey, same⟩ := carries
  obtain ⟨after, inside, id⟩ := change.keeps stays member
  rcases change.content inside with ⟨before, there, content⟩ | ⟨now, location, n, accepted, -⟩
  · -- the row of this id before the change is the one that carries the checksum
    have ids : before.id = row.id := (Prod.mk.inj content).1.trans id
    obtain rfl := Table.eq_of_id there member ids
    refine ⟨after, inside, m, holds.congr content, sameKey, ?_⟩
    simp only [Row.content, Prod.mk.injEq] at content
    exact content.2.2.2.1 ▸ same
  · have keys : n.key = m.key := by
      have left := accepted.holds.id
      rw [id, holds.id] at left
      have hash := congrArg RowId.blockHash left
      have space := congrArg RowId.namespaceId left
      exact BlockKey.namespaceId_inj space.symm (Subtype.ext hash.symm)
    have agrees := accepted.agrees member accepted.holds holds keys
    exact ⟨after, inside, n, accepted.holds, keys.trans sameKey,
      (holds_checksum holds accepted.holds agrees).symm.trans same⟩

theorem carries_run {s : MetadataStore} (carries : Carries key checksum s) {ops : List StoreOp}
    (stay : ∀ op ∈ ops, op.removes = false) : Carries key checksum (run StoreOp.apply s ops) := by
  induction ops generalizing s with
  | nil => exact carries
  | cons op rest ih =>
    obtain ⟨event, change, gone, -⟩ := op.change s
    have stays : event.removes = false := by
      cases removed : event.removes with
      | false => rfl
      | true => exact absurd (gone removed) (by simp [stay op List.mem_cons_self])
    exact ih (change.carries stays carries)
      fun other member => stay other (List.mem_cons_of_mem _ member)

theorem upsert_conflict {s : MetadataStore} (carries : Carries m.key checksum s)
    (other : location.checksum ≠ checksum) :
    ∃ e, s.upsert now location m = (.error e, s) := by
  rcases s.upsert_change now location m with failed | ⟨row, published, -⟩
  · exact failed
  · exfalso
    have accepted := acceptUpsert_ok published
    obtain ⟨old, member, n, holds, key, same⟩ := carries
    have agrees := accepted.agrees member accepted.holds holds key.symm
    have checksums := holds_checksum holds accepted.holds agrees
    exact other (accepted.locationChecksum.trans (checksums.symm.trans same))

theorem key_of_belongsTo (holds : row.Holds m)
    (belongs : belongsTo key row = true) : m.key = key := by
  simp only [belongsTo, Bool.and_eq_true, decide_eq_true_eq] at belongs
  rw [holds.id] at belongs
  exact BlockKey.namespaceId_inj belongs.2 (Subtype.ext belongs.1)

end MetadataStore

open MetadataStore in
/-- In every state of every run, the rows of one key decode to equal descriptors and
each row's columns equal its metadata; and of two publications of different payloads
under one key, with no removal in between, the later one fails and changes nothing. -/
theorem payload_descriptors_immutable (epoch : Text) (ops : List StoreOp) :
    let s := run StoreOp.apply (create epoch) ops
    (∀ row ∈ s.blocks.rows, ∀ now, ∃ m, decodeMetadata now row.metadataJson = .ok m ∧
      m.bytes = .int row.bytes ∧ m.checksum = .str row.checksum) ∧
    (∀ key, ∀ row ∈ s.blocks.rows, ∀ other ∈ s.blocks.rows, belongsTo key row = true →
      belongsTo key other = true → ∀ now, ∃ m n,
        decodeMetadata now row.metadataJson = .ok m ∧
        decodeMetadata now other.metadataJson = .ok n ∧
        m.payloadDescriptor.pyEq n.payloadDescriptor = true) ∧
    ∀ now location m now' location' m' between,
      (s.upsert now location m).1 = .ok () → (∀ op ∈ between, op.removes = false) →
      m'.key = m.key → location'.checksum ≠ location.checksum →
      let s' := run StoreOp.apply (s.upsert now location m).2 between
      ∃ e, s'.upsert now' location' m' = (.error e, s') := by
  intro s
  have sound : s.Sound := sound_run epoch ops
  refine ⟨fun row member now => ?_, fun key row member other inside left right now => ?_, ?_⟩
  · obtain ⟨m, holds⟩ := sound.written row member
    exact ⟨m.persisted, holds.decode now, holds.bytes, holds.checksum⟩
  · obtain ⟨m, holds⟩ := sound.written row member
    obtain ⟨n, holds'⟩ := sound.written other inside
    refine ⟨m.persisted, n.persisted, holds.decode now, holds'.decode now, ?_⟩
    exact sound.agree row member other inside m n holds holds'
      ((key_of_belongsTo holds left).trans (key_of_belongsTo holds' right).symm)
  · intro now location m now' location' m' between done stay key other s'
    rcases s.upsert_change now location m with ⟨e, failed⟩ | ⟨row, published, result⟩
    · rw [failed] at done
      exact absurd done nofun
    · have accepted := acceptUpsert_ok published
      have carries : Carries m.key location.checksum (s.upsert now location m).2 := by
        rw [result]
        exact ⟨row, Table.mem_set.mpr (.inl rfl), m, accepted.holds, rfl,
          accepted.locationChecksum.symm⟩
      exact upsert_conflict (key ▸ carries_run carries stay) other

def sampleLocation : BlockLocation where
  key := sampleKey
  tier := .nvme
  uri := text "file:///b"
  bytes := 3
  checksum := List.replicate 64 (ch 'a')
  createdAt := .int 0
  lastAccess := .int 0
  attributes := fun _ => .none

def publishedSample : Outcome Unit :=
  (MetadataStore.create []).upsert ⟨.nan, .nan⟩ sampleLocation sampleMetadata

/-- After a publication in one tier another payload is refused in another one. -/
theorem payload_descriptors_immutable_across_tiers : ∃ e,
    publishedSample.2.blocks.rows.length = 1 ∧
    publishedSample.2.upsert ⟨.nan, .nan⟩
      { sampleLocation with tier := .s3, checksum := List.replicate 64 (ch 'b') }
      { sampleMetadata with checksum := .str (List.replicate 64 (ch 'b')) } =
        (.error e, publishedSample.2) := by
  have outcome : publishedSample.1.isOk = true ∧ publishedSample.2.blocks.rows.length = 1 := by
    decide +kernel
  have done : publishedSample.1 = .ok () := by
    generalize publishedSample.1 = r at outcome
    cases r with
    | ok u => rfl
    | error e => cases outcome.1
  obtain ⟨-, -, refused⟩ := payload_descriptors_immutable [] []
  obtain ⟨e, failed⟩ := refused ⟨.nan, .nan⟩ sampleLocation sampleMetadata ⟨.nan, .nan⟩
    { sampleLocation with tier := .s3, checksum := List.replicate 64 (ch 'b') }
    { sampleMetadata with checksum := .str (List.replicate 64 (ch 'b')) } [] done
    (List.forall_mem_nil _) rfl (by decide)
  exact ⟨e, outcome.2, failed⟩

end AiStorage.KV
