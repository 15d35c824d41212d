import AiStorage.KV.MetadataLaws
import AiStorage.Lib.Table
import Mathlib.Data.List.Sort

/-!
# The metadata store

`metadata_store.py`. Each public method is one atomic step on the table `blocks`: the
method's result and the store after it. An exception inside the transaction leaves the
table as it was.
-/
namespace AiStorage.KV
open Lib

inductive TierName where
  | memory | nvme | s3
  deriving DecidableEq, Repr

/-! ## Locations -/

inductive LocationField where
  | locality | transport | cloud | region | zone | clusterId | nodeId | estimatedLoadP95Ms
  | estimatedTransferP95Ms | egressCostClass | ttlSeconds | confidence
  deriving DecidableEq

namespace LocationField

def name : LocationField → String
  | locality => "locality"
  | transport => "transport"
  | cloud => "cloud"
  | region => "region"
  | zone => "zone"
  | clusterId => "cluster_id"
  | nodeId => "node_id"
  | estimatedLoadP95Ms => "estimated_load_p95_ms"
  | estimatedTransferP95Ms => "estimated_transfer_p95_ms"
  | egressCostClass => "egress_cost_class"
  | ttlSeconds => "ttl_seconds"
  | confidence => "confidence"

def all : List LocationField :=
  [locality, transport, cloud, region, zone, clusterId, nodeId, estimatedLoadP95Ms,
    estimatedTransferP95Ms, egressCostClass, ttlSeconds, confidence]

def default : LocationField → PyVal
  | locality | transport => .str (text "unknown")
  | cloud | region | zone | clusterId => .str (text "local")
  | nodeId => .str []
  | estimatedLoadP95Ms | estimatedTransferP95Ms | ttlSeconds => .none
  | egressCostClass => .str (text "none")
  | confidence => .float (.ofDecimal false 1 0)

end LocationField

/-- A Python `float` argument, which may also be an `int`. -/
inductive Number where
  | int (n : Int)
  | float (x : Float64)

structure BlockLocation where
  key : BlockKey
  tier : TierName
  uri : Text
  bytes : Int
  checksum : Text
  createdAt : Number
  lastAccess : Number
  attributes : LocationField → PyVal

def locationAttributes (location : BlockLocation) : PyVal :=
  .dict (LocationField.all.map fun field => (strKey field.name, location.attributes field))

/-! ## Rows -/

inductive RowState where
  | active | deleting
  deriving DecidableEq, Repr

structure RowId where
  blockHash : Text
  namespaceId : Text
  tier : TierName
  deriving DecidableEq

structure Row where
  id : RowId
  uri : Text
  bytes : Int
  checksum : Text
  metadataJson : Text
  locationJson : Text
  createdAt : Float64
  lastAccess : Float64
  reuseCount : Int
  inFlight : Int
  inFlightEpoch : Text
  state : RowState

def BlockKey.row (key : BlockKey) (tier : TierName) : RowId :=
  ⟨key.blockHash.val, key.namespaceId, tier⟩

structure MetadataStore where
  blocks : Table Row.id
  ownerEpoch : Text
  closed : Bool

abbrev Outcome (α : Type) := Except PyError α × MetadataStore

def locationFromRow (key : BlockKey) (row : Row) : Except PyError BlockLocation :=
  match loads (if row.locationJson.isEmpty then [ch '{', ch '}'] else row.locationJson) with
  | some (.dict items) =>
    if row.uri.isEmpty || row.bytes < 0 then
      .error (.saying .metadataMismatch "persisted location has invalid core fields")
    else
      .ok {
        key
        tier := row.id.tier
        uri := row.uri
        bytes := row.bytes
        checksum := row.checksum
        createdAt := .float row.createdAt
        lastAccess := .float row.lastAccess
        attributes := fun field => (getField field.name items).getD field.default }
  | _ => .error (.saying .metadataMismatch "persisted location is structurally invalid")

/-- `KVMetadata.from_dict(json.loads(text))` -/
def decodeMetadata (now : Readings) (json : Text) : Except PyError KVMetadata :=
  match loads json with
  | some data => KVMetadata.fromDict now data
  | none => .error (.bare .jsonDecodeError)

/-! ## Values of SQLite -/

/-- An integer parameter; SQLite integers have 64 bits. -/
def bindInteger (n : Int) : Except PyError Int :=
  if -9223372036854775808 ≤ n ∧ n < 9223372036854775808 then .ok n
  else .error (.bare .overflowError)

/-- A parameter for a column of type `REAL`. -/
def bindReal : Number → Except PyError Float64
  | .int n => do
    let n ← bindInteger n
    return (Float64.ofInt n).getD .nan
  | .float x => .ok x

/-- A text parameter is encoded as UTF-8. -/
def bindText (s : Text) : Except PyError Text :=
  if (encodeUtf8 s).isSome then .ok s else .error (.bare .unicodeEncodeError)

def bindCount : PyVal → Except PyError Int
  | .int n => bindInteger n
  | _ => .error (.bare .typeError)

/-- `json.dumps(v, sort_keys=True)` -/
def dumpsText (v : PyVal) : Except PyError Text :=
  match v.dumps .default with
  | some json => .ok json
  | none => .error (.bare .typeError)

def minReal (x y : Float64) : Float64 := if floatCode y < floatCode x then y else x

def maxReal (x y : Float64) : Float64 := if floatCode x < floatCode y then y else x

/-- `n + 1` of a counter column: past the integers it is the real number `2 ^ 63`. -/
def incrementColumn (n : Int) : Int := min (n + 1) 9223372036854775808

namespace MetadataStore

/-! ## Publication -/

/-- The part of `_validate_upsert` that both publication checks share. -/
def checkMetadata (m : KVMetadata) : Except PyError Unit :=
  match m.validate true with
  | .ok () => .ok ()
  | .error e =>
    if e.cls.isValueError then .error (.saying .metadataMismatch "invalid metadata") else .error e

def validateUpsert (location : BlockLocation) (m : KVMetadata) : Except PyError Unit := do
  checkMetadata m
  require (location.key = m.key)
    (.saying .metadataMismatch "location key does not match metadata key")
  require (!location.uri.isEmpty) (.saying .metadataMismatch "location URI must not be empty")
  require (0 ≤ location.bytes && (PyVal.int location.bytes).pyEq m.bytes)
    (.saying .metadataMismatch "location bytes do not match metadata bytes")
  require ((PyVal.str location.checksum).pyEq m.checksum)
    (.saying .metadataMismatch "location checksum does not match metadata checksum")

/-- One row of the loop in `_validate_payload_descriptor_locked`. -/
def checkDescriptor (now : Readings) (m : KVMetadata) (row : Row) : Except PyError Unit :=
  match decodeMetadata now row.metadataJson >>= fun persisted =>
      persisted.validate true >>= fun _ => .ok persisted with
  | .error e =>
    if e.cls.isDataError then
      .error (.saying .metadataMismatch "persisted metadata is structurally invalid")
    else .error e
  | .ok persisted =>
    if persisted.payloadDescriptor.pyEq m.payloadDescriptor then .ok ()
    else .error (.saying .immutableBlockConflict
      "active BlockKey payload descriptor cannot change across tiers")

def belongsTo (key : BlockKey) (row : Row) : Bool :=
  row.id.blockHash = key.blockHash.val && row.id.namespaceId = key.namespaceId

/-- `_validate_payload_descriptor_locked`: every row of the key, in every tier and state. -/
def validatePayloadDescriptorLocked (s : MetadataStore) (now : Readings) (m : KVMetadata) :
    Except PyError Unit :=
  (s.blocks.rows.filter (belongsTo m.key)).forM (checkDescriptor now m)

def closedError : PyError := .bare .programmingError

def validatePayloadDescriptor (s : MetadataStore) (now : Readings) (m : KVMetadata) :
    Except PyError Unit := do
  checkMetadata m
  require (!s.closed) closedError
  s.validatePayloadDescriptorLocked now m

/-- The row that `INSERT … ON CONFLICT DO UPDATE` leaves. -/
def upsertedRow (s : MetadataStore) (location : BlockLocation) (m : KVMetadata) :
    Except PyError Row := do
  let id := location.key.row location.tier
  let old := s.blocks.find id
  require (old.map Row.state ≠ some .deleting)
    (.saying .runtimeError "cannot upsert a block while its delete tombstone is pending")
  let metadataJson ← dumpsText m.toDict
  let locationJson ← dumpsText (locationAttributes location)
  let uri ← bindText location.uri
  let bytes ← bindInteger location.bytes
  let createdAt ← bindReal location.createdAt
  let lastAccess ← bindReal location.lastAccess
  let reuseCount ← bindCount m.reuseCount
  -- SQLite stores a NaN as NULL, which the columns do not admit
  require (createdAt ≠ .nan && lastAccess ≠ .nan) (.bare .integrityError)
  return {
    id, uri, bytes, metadataJson, locationJson
    checksum := location.checksum
    createdAt := (old.map fun row => minReal row.createdAt createdAt).getD createdAt
    lastAccess := (old.map fun row => maxReal row.lastAccess lastAccess).getD lastAccess
    reuseCount := (old.map fun row => max row.reuseCount reuseCount).getD reuseCount
    inFlight := (old.map fun row => if row.inFlightEpoch = s.ownerEpoch then row.inFlight else 0).getD 0
    inFlightEpoch := s.ownerEpoch
    state := .active }

/-- The transaction of `upsert` up to its statement. -/
def acceptUpsert (s : MetadataStore) (now : Readings) (location : BlockLocation) (m : KVMetadata) :
    Except PyError Row := do
  validateUpsert location m
  require (!s.closed) closedError
  s.validatePayloadDescriptorLocked now m
  s.upsertedRow location m

def upsert (s : MetadataStore) (now : Readings) (location : BlockLocation) (m : KVMetadata) :
    Outcome Unit :=
  match s.acceptUpsert now location m with
  | .error e => (.error e, s)
  | .ok row => (.ok (), { s with blocks := s.blocks.set row })

/-! ## Reading -/

def activeRow (s : MetadataStore) (key : BlockKey) (tier : TierName) : Option Row :=
  (s.blocks.find (key.row tier)).filter fun row => row.state = .active

def lookup (s : MetadataStore) (key : BlockKey) (tier : TierName) :
    Except PyError (Option BlockLocation) :=
  if s.closed then .error closedError
  else
    match s.activeRow key tier with
    | some row => (locationFromRow key row).map some
    | none => .ok none

def rowMetadata (now : Readings) (row : Row) : Except PyError KVMetadata := do
  let m ← decodeMetadata now row.metadataJson
  return { m with lastAccess := .float row.lastAccess, reuseCount := .int row.reuseCount }

def getMetadata (s : MetadataStore) (now : Readings) (key : BlockKey) (tier : TierName) :
    Except PyError (Option KVMetadata) :=
  if s.closed then .error closedError
  else
    match s.activeRow key tier with
    | none => .ok none
    | some row =>
      match rowMetadata now row >>= fun m => m.validate true >>= fun _ => .ok m with
      | .ok m => .ok (some m)
      | .error e =>
        if e.cls.isDataError then
          .error (.saying .metadataMismatch "persisted metadata is structurally invalid")
        else .error e

def isDeleting (s : MetadataStore) (key : BlockKey) (tier : TierName) : Except PyError Bool := do
  require (!s.closed) closedError
  return (s.blocks.find (key.row tier)).map Row.state = some .deleting

/-- `in_flight=0 OR in_flight_epoch<>?` -/
def idle (s : MetadataStore) (row : Row) : Bool :=
  row.inFlight = 0 || row.inFlightEpoch ≠ s.ownerEpoch

/-- `lru_candidates`; rows of equal `last_access` come in insertion order. -/
def lruCandidates (s : MetadataStore) (now : Readings) (tier : TierName) (limit : Nat) :
    Except PyError (List BlockLocation) := do
  require (!s.closed) closedError
  let rows := s.blocks.rows.filter fun row =>
    row.id.tier = tier && row.state = .active && s.idle row
  let oldest := rows.insertionSort fun a b => floatCode a.lastAccess ≤ floatCode b.lastAccess
  (oldest.take limit).mapM fun row => do
    let m ← decodeMetadata now row.metadataJson
    locationFromRow m.key row

/-- `tier_entries`: the location, the metadata and the raw pin count of each active row. -/
def tierEntries (s : MetadataStore) (now : Readings) (tier : TierName) (includeInFlight : Bool) :
    Except PyError (List (BlockLocation × KVMetadata × Int)) := do
  require (!s.closed) closedError
  let rows := s.blocks.rows.filter fun row =>
    row.id.tier = tier && row.state = .active && (includeInFlight || s.idle row)
  let sorted := rows.insertionSort fun a b =>
    strCode a.id.namespaceId < strCode b.id.namespaceId ∨
      strCode a.id.namespaceId = strCode b.id.namespaceId ∧
        strCode a.id.blockHash ≤ strCode b.id.blockHash
  sorted.mapM fun row => do
    let m ← rowMetadata now row
    let location ← locationFromRow m.key row
    return (location, m, row.inFlight)

def bytesUsed (s : MetadataStore) (tier : TierName) : Except PyError Int := do
  require (!s.closed) closedError
  return ((s.blocks.rows.filter fun row => row.id.tier = tier && row.state = .active).map
    Row.bytes).sum

/-! ## Access and pins -/

def select (s : MetadataStore) (id : RowId) (condition : Row → Bool) : Option Row :=
  (s.blocks.find id).filter condition

def updateRow (s : MetadataStore) (id : RowId) (condition : Row → Bool) (change : Row → Row) :
    Nat × MetadataStore :=
  match s.select id condition with
  | some row => (1, { s with blocks := s.blocks.set (change row) })
  | none => (0, s)

def deleteRow (s : MetadataStore) (id : RowId) (condition : Row → Bool) : Nat × MetadataStore :=
  match s.select id condition with
  | some _ => (1, { s with blocks := s.blocks.erase id })
  | none => (0, s)

def touched (now : Float64) (row : Row) : Row :=
  { row with lastAccess := now, reuseCount := incrementColumn row.reuseCount }

def touch (s : MetadataStore) (now : Float64) (key : BlockKey) (tier : TierName) : Outcome Unit :=
  if s.closed then (.error closedError, s)
  else
    (.ok (), (s.updateRow (key.row tier) (fun row => row.state = .active) (touched now)).2)

def pinned (s : MetadataStore) (row : Row) : Row :=
  { row with
    inFlight := if row.inFlightEpoch = s.ownerEpoch then row.inFlight + 1 else 1
    inFlightEpoch := s.ownerEpoch }

def mutationClosed : PyError := .saying .runtimeError "metadata store is closed"

def acquire (s : MetadataStore) (key : BlockKey) (tier : TierName) : Outcome Bool :=
  if s.closed then (.error mutationClosed, s)
  else
    let (count, s) := s.updateRow (key.row tier) (fun row => row.state = .active) s.pinned
    (.ok (0 < count), s)

/-- `lookup_and_acquire`; the location is built after the commit. -/
def lookupAndAcquire (s : MetadataStore) (key : BlockKey) (tier : TierName) :
    Outcome (Option BlockLocation) :=
  if s.closed then (.error mutationClosed, s)
  else
    match s.blocks.find (key.row tier) with
    | some row =>
      if row.state = .active then
        ((locationFromRow key (s.pinned row)).map some, { s with blocks := s.blocks.set (s.pinned row) })
      else (.ok none, s)
    | none => (.ok none, s)

def unpinned (row : Row) : Row := { row with inFlight := max (row.inFlight - 1) 0 }

def release (s : MetadataStore) (key : BlockKey) (tier : TierName) : Outcome Unit :=
  if s.closed then (.error closedError, s)
  else
    (.ok (), (s.updateRow (key.row tier) (fun row => row.inFlightEpoch = s.ownerEpoch) unpinned).2)

/-! ## Deletion -/

def delete (s : MetadataStore) (key : BlockKey) (tier : TierName) : Outcome Bool :=
  if s.closed then (.error closedError, s)
  else
    let (count, s) := s.deleteRow (key.row tier) fun row => row.state = .active && s.idle row
    (.ok (0 < count), s)

def tombstone (row : Row) : Row :=
  { row with state := .deleting, inFlight := 0, inFlightEpoch := [] }

/-- `begin_delete`; building the location is part of the transaction. -/
def beginDelete (s : MetadataStore) (key : BlockKey) (tier : TierName) :
    Outcome (Option BlockLocation) :=
  if s.closed then (.error closedError, s)
  else
    match s.blocks.find (key.row tier) with
    | none => (.ok none, s)
    | some row =>
      match row.state with
      | .active =>
        if row.inFlightEpoch = s.ownerEpoch ∧ 0 < row.inFlight then (.ok none, s)
        else
          match locationFromRow key row with
          | .error e => (.error e, s)
          | .ok location => (.ok (some location), { s with blocks := s.blocks.set (tombstone row) })
      | .deleting => ((locationFromRow key row).map some, s)

def finishDelete (s : MetadataStore) (key : BlockKey) (tier : TierName) : Outcome Bool :=
  if s.closed then (.error closedError, s)
  else
    let (count, s) := s.deleteRow (key.row tier) fun row => row.state = .deleting
    (.ok (0 < count), s)

/-! ## Ownership -/

def close (s : MetadataStore) : MetadataStore := { s with closed := true }

/-- `_begin_owner_epoch`: counters left by an earlier owner are reset. -/
def resetPins (row : Row) : Row := { row with inFlight := 0, inFlightEpoch := [] }

def reopen (s : MetadataStore) (epoch : Text) : MetadataStore :=
  { blocks := s.blocks.map resetPins fun _ => rfl, ownerEpoch := epoch, closed := false }

def create (epoch : Text) : MetadataStore := { blocks := .empty, ownerEpoch := epoch, closed := false }

end MetadataStore

end AiStorage.KV
