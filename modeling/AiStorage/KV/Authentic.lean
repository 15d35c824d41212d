import AiStorage.KV.Alone

/-!
# A successful load is authentic

Files, segments and objects may hold anything, and may change at any moment of a load. As long
as the row of the block keeps the content that a store gave it, what the load returns is the
stored payload, or a second preimage of its digest.
-/
namespace AiStorage.KV
open Lib Prog MetadataStore

inductive RecordTier where
  | nvme (tier : NVMeTier)
  | s3 (tier : S3Tier)

namespace RecordTier

def backend : RecordTier → Backend
  | nvme tier => tier.backend
  | s3 tier => tier.backend

def writer : RecordTier → Writer
  | nvme tier => tier.writer
  | s3 tier => tier.writer

def name : RecordTier → TierName
  | nvme _ => .nvme
  | s3 _ => .s3

def load : RecordTier → BlockKey → Py LoadResult
  | nvme tier => tier.load
  | s3 tier => tier.load

def store : RecordTier → BlockKey → Bytes → KVMetadata → Py StoreResult
  | nvme tier => tier.store
  | s3 tier => tier.store

variable (tier : RecordTier)

theorem backend_tier : tier.backend.tier = tier.name := by cases tier <;> rfl

theorem load_eq : tier.load = tier.backend.load := by cases tier <;> rfl

theorem store_eq : tier.store = tier.backend.store tier.writer := by cases tier <;> rfl

theorem quiet_backend : tier.backend.Quiet := by
  cases tier with
  | nvme tier | s3 tier => exact tier.quiet_backend

theorem quiet_writer : tier.writer.Quiet tier.backend.tier := by
  cases tier with
  | nvme tier | s3 tier => exact tier.quiet_writer

end RecordTier

def Collision (a b : Bytes) : Prop := a ≠ b ∧ sha256 a = sha256 b

theorem sha256Hex_inj {a b : Bytes} (same : sha256Hex a = sha256Hex b) : sha256 a = sha256 b := by
  have codes : Function.Injective fun b : UInt8 => CodePoint.ofNat b.toNat := by
    intro x y equal
    have values : x.toNat % 1114112 = y.toNat % 1114112 := congrArg Fin.val equal
    have small := x.toNat_lt
    have little := y.toNat_lt
    exact UInt8.toNat_inj.mp (by omega)
  exact Subtype.ext (hexEncode_inj (List.map_injective_iff.mpr codes same))

/-! ## Rows of a store -/

def WrittenBy (tier : TierName) (key : BlockKey) (data : Bytes) (m : KVMetadata) (row : Row) : Prop :=
  m.key = key ∧ row.id = key.row tier ∧ ∃ (s : MetadataStore) (readings : Readings)
    (location : BlockLocation) (clock : Float64),
      s.acceptUpsert readings location (stamped m data clock) = .ok row

/-- New content of a row is that of a row the store commits. -/
def Publishes (tier : TierName) (key : BlockKey) (data : Bytes) (m : KVMetadata) (w w' : World) :
    Prop :=
  ∀ row ∈ w'.store.blocks.rows, (∃ before ∈ w.store.blocks.rows, before.content = row.content) ∨
    WrittenBy tier key data m row

theorem publishes_upsert {key : BlockKey} {data : Bytes} {m : KVMetadata} (same : m.key = key)
    (location : BlockLocation) (clock : Float64) :
    (Act.upsert location (stamped m data clock)).Keeps (Publishes location.tier key data m) := by
  intro t c w x w' done row member
  rcases Act.database_some (Act.exclusive_some done).2 with ⟨-, -, rfl⟩ | ⟨-, ran, rest⟩
  · exact .inl ⟨row, member, rfl⟩
  · rcases w.store.upsert_change c.readings location (stamped m data clock) with
      ⟨e, failed⟩ | ⟨new, accepted, stored⟩
    · rw [failed] at ran
      rw [← (Prod.mk.inj ran).2] at member
      exact .inl ⟨row, member, rfl⟩
    · rw [stored] at ran
      rw [← (Prod.mk.inj ran).2] at member
      rcases Table.mem_set.mp member with rfl | ⟨there, -⟩
      · refine .inr ⟨same, ?_, _, _, _, _, accepted⟩
        rw [(acceptUpsert_ok accepted).id, ← same]
        rfl
      · exact .inl ⟨row, there, rfl⟩

theorem RecordTier.store_publishes (tier : RecordTier) (key : BlockKey) (data : Bytes)
    (m : KVMetadata) : (tier.store key data m).Uses device fun action =>
      action.Keeps (Publishes tier.name key data m) := by
  rw [tier.store_eq]
  have silent : ∀ {β : Type} (action : Act β), (action.Keeps fun w w' =>
      ∃ e, Effect tier.backend.tier e w w' ∧ e.publishes = false) →
        action.Keeps (Publishes tier.name key data m) := by
    intro β action kept t c w x w' done row member
    obtain ⟨e, effect, silent⟩ := kept t c w x w' done
    exact .inl (effect.content silent member)
  refine tier.quiet_backend.store tier.quiet_writer key data m (fun action kind =>
    silent action kind.effect) (fun action kind => silent action kind.effect) ?_
  · intro same location clock here
    rw [← tier.backend_tier, ← here]
    exact publishes_upsert same location clock

/-! ## The adversary -/

def Guards (row : Row) (w : World) : Prop :=
  ∀ other ∈ w.store.blocks.rows, other.id = row.id → other.content = row.content

/-- Between two steps of the thread anything may change but the content of one row. -/
def adversary (row : Row) (t : Nat) : Setting Act PyError World Choice where
  device := device
  thread := t
  allowed _ := True
  rely w w' := Guards row w → Guards row w'
  guarantee _ _ := True
  rely_refl _ := id
  rely_trans first second := second ∘ first

theorem guards_stable (row : Row) (t : Nat) : (adversary row t).Stable (Guards row) :=
  fun _ _ others guards => others guards

theorem guards_effect {row : Row} {tier : TierName} {e : StoreEvent} {w w' : World}
    (guards : Guards row w) (effect : Effect tier e w w') (silent : e.publishes = false) :
    Guards row w' := by
  intro other member here
  obtain ⟨before, there, same⟩ := effect.content silent member
  have id : before.id = other.id := (Prod.mk.inj same).1
  rw [← same]
  exact guards before there (id.trans here)

section Adversary

variable {α : Type} {row : Row} {t : Nat} {w : World} {tier : TierName}

theorem safe_quiet {p : Py α} {post : Except PyError α → Prop}
    (makes : p.Makes device (fun action => action.Quiet tier) post) (guards : Guards row w) :
    p.Safe (adversary row t) (fun r w => post r ∧ Guards row w) w := by
  refine Safe.of_makes (Guards row) makes guards (guards_stable row t) ?_
  intro β action w c x w' quiet guards _ done
  obtain ⟨e, effect, silent⟩ := quiet.effect t c w x w' done
  exact ⟨trivial, guards_effect guards effect silent⟩

end Adversary

/-! ## Loads -/

/-- The result is the payload that was stored, described as it was stored. -/
structure Authentic (key : BlockKey) (data : Bytes) (m : KVMetadata) (result : LoadResult) : Prop where
  named : result.key = key
  payload : result.data = data ∨ Collision result.data data
  metadataKey : result.metadata.key = key
  descriptor : ∀ clock, result.metadata.payloadDescriptor.pyEq
    (stamped m data clock).persisted.payloadDescriptor = true

theorem checkRecord_ok {B : Backend} {key : BlockKey} {location : BlockLocation} {header : Header}
    {payload : Bytes} {m : KVMetadata} (ok : B.checkRecord key location header payload m = .ok ()) :
    m.key = key ∧ sha256Hex payload = location.checksum := by
  simp only [Backend.checkRecord, bind_unit_ok, require_ok, decide_eq_true_eq,
    verifySha256] at ok
  obtain ⟨-, key, -, checksum, digest⟩ := ok
  exact ⟨key, digest.trans checksum.symm⟩

def accessed (m : KVMetadata) (row : Row) : KVMetadata :=
  { m.persisted with lastAccess := .float row.lastAccess, reuseCount := .int row.reuseCount }

theorem getMetadata_ok {s : MetadataStore} {now : Readings} {key : BlockKey} {tier : TierName}
    {m found : KVMetadata} {row : Row} (active : s.activeRow key tier = some row)
    (holds : row.Holds m) (read : s.getMetadata now key tier = .ok (some found)) :
    found = accessed m row := by
  have decoded : rowMetadata now row = .ok (accessed m row) := by
    rw [rowMetadata, holds.decode now]
    rfl
  unfold getMetadata at read
  split_ifs at read
  rw [active] at read
  dsimp only at read
  rw [decoded] at read
  split at read
  · next other checked =>
    cases read
    obtain ⟨built, same, rest⟩ := bind_eq_ok.mp checked
    obtain ⟨-, -, result⟩ := bind_eq_ok.mp rest
    rw [← Except.ok.inj result, ← Except.ok.inj same]
  · split_ifs at read

theorem checkPersisted_ok {key : BlockKey} {m result : KVMetadata} {persisted : Option KVMetadata}
    (ok : Backend.checkPersisted key m persisted = .ok result) :
    ∃ found, persisted = some found ∧
      found.payloadDescriptor.pyEq m.payloadDescriptor = true ∧
      result = { m with lastAccess := found.lastAccess, reuseCount := found.reuseCount } := by
  cases persisted with
  | none => cases ok
  | some found =>
    simp only [Backend.checkPersisted, bind_unit_ok, require_ok] at ok
    obtain ⟨-, same, result⟩ := ok
    cases result
    exact ⟨found, rfl, same, rfl⟩

section Load

variable {B : Backend} {key : BlockKey} {data : Bytes} {m : KVMetadata} {row : Row} {t : Nat}
  {w : World}

theorem WrittenBy.holds {tier : TierName} (written : WrittenBy tier key data m row) :
    row.checksum = sha256Hex data ∧ ∃ clock, row.Holds (stamped m data clock) := by
  obtain ⟨-, -, s, readings, location, clock, accepted⟩ := written
  have holds := (acceptUpsert_ok accepted).holds
  exact ⟨(PyVal.str.inj holds.checksum).symm, clock, holds⟩

theorem Guards.found (guards : Guards row w) {other : Row}
    (found : w.store.blocks.find row.id = some other) : other.content = row.content := by
  obtain ⟨member, here⟩ := Table.find_eq_some_iff.mp found
  exact guards other member here

theorem Guards.metadata {tier : TierName} (guards : Guards row w)
    (written : WrittenBy tier key data m row) {now : Readings} {found : KVMetadata}
    (read : w.store.getMetadata now key tier = .ok (some found)) (clock : Float64) :
    found.payloadDescriptor = (stamped m data clock).persisted.payloadDescriptor := by
  obtain ⟨-, other, holds⟩ := written.holds
  cases active : w.store.activeRow key tier with
  | none =>
    unfold getMetadata at read
    rw [active] at read
    split_ifs at read
    cases read
  | some here =>
    have same := (activeRow_eq_some.mp active).1
    rw [← written.2.1] at same
    rw [getMetadata_ok active (holds.congr (guards.found same).symm) read]
    rfl

theorem readAcquired_authentic (quiet : B.Quiet) (written : WrittenBy B.tier key data m row)
    (guards : Guards row w) {location : BlockLocation} (named : location.checksum = row.checksum) :
    (B.readAcquired key location).Safe (adversary row t)
      (fun r w => (∀ result, r = .ok result → Authentic key data m result) ∧ Guards row w) w := by
  have raised : ∀ (e : PyError) (w : World), Guards row w →
      (Prog.ret (.error e) : Py LoadResult).Safe (adversary row t)
        (fun r w => (∀ result, r = .ok result → Authentic key data m result) ∧ Guards row w) w := by
    intro e w guards w' others
    exact ⟨fun _ wrong => (by cases wrong), others guards⟩
  refine Safe.bind (safe_quiet (quiet.read location) guards) (fun record w step => ?_)
    fun e w step => raised e w step.2
  obtain ⟨header, payload⟩ := record
  have observed : QuietIn B.tier (perform Act.readings) := Uses.perform (Act.quiet_observe _)
  refine Safe.bind (safe_quiet observed step.2) (fun now w step => ?_) fun e w step =>
    raised e w step.2
  replace guards := step.2
  refine Safe.value (fun described _ => ?_) fun e _ => raised e w guards
  refine Safe.value (fun _ checked => ?_) fun e _ => raised e w guards
  obtain ⟨sameKey, digest⟩ := checkRecord_ok checked
  have payloadOk : payload = data ∨ Collision payload data := by
    by_cases same : payload = data
    · exact .inl same
    · exact .inr ⟨same, sha256Hex_inj (digest.trans (named.trans written.holds.1))⟩
  have touched : QuietIn B.tier (perform (Act.touch key B.tier)) :=
    Uses.perform (Act.quiet_touch key B.tier)
  refine Safe.bind (safe_quiet touched guards) (fun _ w step => ?_) fun e w step =>
    raised e w step.2
  have kept : ∀ w c (x : Except PyError (Option KVMetadata)) w', Guards row w →
      Act.getMetadata key B.tier t c w = some (x, w') → Guards row w' := by
    intro w c x w' guards done
    have still : (Act.getMetadata key B.tier).Quiet B.tier := Act.quiet_getMetadata key B.tier
    obtain ⟨e, effect, silent⟩ := still.effect t c w x w' done
    exact guards_effect guards effect silent
  refine Safe.perform (Guards row) step.2 (guards_stable row t) (fun _ _ _ _ _ _ _ => trivial)
    (fun w c found w' guards _ done => ?_) fun w c e w' guards _ done =>
      raised e w' (kept w c _ w' guards done)
  have guarded := kept w c _ w' guards done
  refine Safe.value (fun result compared => ?_) fun e _ => raised e w' guarded
  obtain ⟨persisted, rfl, same, rfl⟩ := checkPersisted_ok compared
  have descriptor : ∀ clock,
      persisted.payloadDescriptor = (stamped m data clock).persisted.payloadDescriptor := by
    change Act.getMetadata key B.tier t c w = _ at done
    rcases Act.database_some done with ⟨-, wrong, -⟩ | ⟨-, ran, -⟩
    · cases wrong
    · exact guards.metadata written (Prod.mk.inj ran).1
  intro w'' others
  refine ⟨fun result same' => ?_, others guarded⟩
  cases same'
  exact {
    named := rfl
    payload := payloadOk
    metadataKey := sameKey
    descriptor := fun clock => by
      rw [← descriptor clock]
      rw [PayloadDescriptor.pyEq_iff] at same ⊢
      exact same.symm }

/-- Whatever the payloads are, a load that returns gives what was stored. -/
theorem load_authentic (quiet : B.Quiet) (written : WrittenBy B.tier key data m row)
    (guards : Guards row w) : (B.load key).Safe (adversary row t)
      (fun r _ => ∀ result, r = .ok result → Authentic key data m result) w := by
  have raised : ∀ (e : PyError) (w : World), (Prog.ret (.error e) : Py LoadResult).Safe
      (adversary row t) (fun r _ => ∀ result, r = .ok result → Authentic key data m result) w :=
    fun _ _ _ _ _ wrong => by cases wrong
  refine Safe.bind (safe_quiet (quiet.lookup key) guards) (fun seen w step => ?_) fun e w _ =>
    raised e w
  cases seen with
  | none => exact raised _ w
  | some seen =>
    refine Safe.perform (Guards row) step.2 (guards_stable row t) (fun _ _ _ _ _ _ _ => trivial)
      (fun w c found w' guards _ done => ?_) fun w c e w' _ _ _ => raised e w'
    cases found with
    | none => exact raised _ w'
    | some location =>
      obtain ⟨e, effect, silent⟩ :=
        (Act.quiet_lookupAndAcquire key B.tier).effect t c w _ w' done
      have guarded := guards_effect guards effect silent
      have named : location.checksum = row.checksum := by
        change Act.lookupAndAcquire key B.tier t c w = _ at done
        rcases Act.database_some (Act.exclusive_some done).2 with ⟨-, wrong, -⟩ | ⟨-, ran, -⟩
        · cases wrong
        · obtain ⟨here, active, same, -⟩ := lookupAndAcquire_ok ran
          have there := (activeRow_eq_some.mp active).1
          rw [← written.2.1] at there
          rw [same.checksum]
          exact congrArg (fun content => content.2.2.2.1) (guards.found there)
      refine Safe.thenDo (readAcquired_authentic quiet written guarded named) fun r w step => ?_
      refine (safe_quiet (quiet.finishLoad_returns key r) step.2).weaken fun r' w returned => ?_
      exact fun result same => step.1 result (returned.1 result same)

end Load

/-- What a store of `data` commits is a row of that data, and while the content of this row
stays, a load that returns gives `data`, whatever the files and objects hold at each step. -/
theorem loads_are_authentic (tier : RecordTier) (key : BlockKey) (data : Bytes) (m : KVMetadata) :
    ((tier.store key data m).Uses device fun action =>
      action.Keeps (Publishes tier.name key data m)) ∧
    ∀ row, WrittenBy tier.name key data m row → ∀ t w, Guards row w →
      (tier.load key).Safe (adversary row t)
        (fun r _ => ∀ result, r = .ok result → Authentic key data m result) w := by
  refine ⟨tier.store_publishes key data m, fun row written t w guards => ?_⟩
  rw [tier.load_eq]
  rw [← tier.backend_tier] at written
  exact load_authentic tier.quiet_backend written guards

def keptFile : World := emptyWorld.after (sampleNVMe.store sampleKey [1, 2, 3] sampleMetadata)

theorem loads_are_authentic_file : ∃ result w',
    (sampleNVMe.load sampleKey).Ends device 0 (fun _ => True) keptFile (.ok result) w' ∧
      Authentic sampleKey [1, 2, 3] sampleMetadata result := by
  let accepted := emptyWorld.store.acceptUpsert calmChoice.readings (NVMeTier.locationFor sampleKey
    ([text "kv"] ++ storageKeyParts sampleKey) 3 (sha256Hex [1, 2, 3]) (.int 0) (.float calmChoice.clock))
    (stamped sampleMetadata [1, 2, 3] calmChoice.clock)
  have outcome : accepted.toOption.map (fun row => keptFile.store.blocks.rows.all fun other =>
      other.content = row.content) = some true := by decide +kernel
  have loaded : ((sampleNVMe.load sampleKey).execute device 0 calmChoice keptFile).map
      (fun ended => ended.1.isOk) = some true := by decide +kernel
  obtain ⟨row, committed, same⟩ := Option.map_eq_some_iff.mp outcome
  have accepted_ok : accepted = .ok row := toOption_eq_some.mp committed
  obtain ⟨⟨r, w'⟩, ran, returned⟩ := Option.map_eq_some_iff.mp loaded
  cases r with
  | error e => cases returned
  | ok result =>
    have ends : (sampleNVMe.load sampleKey).Ends device 0 (fun _ => True) keptFile (.ok result) w' :=
      ends_of_execute trivial ran
    have written : WrittenBy .nvme sampleKey [1, 2, 3] sampleMetadata row := by
      refine ⟨rfl, ?_, _, _, _, _, accepted_ok⟩
      rw [(acceptUpsert_ok accepted_ok).id]
      rfl
    have guards : Guards row keptFile := fun other member _ => of_decide_eq_true
      (List.all_eq_true.mp same other member)
    have safe := (loads_are_authentic (.nvme sampleNVMe) sampleKey [1, 2, 3] sampleMetadata).2 row written
      0 keptFile guards
    exact ⟨result, w', ends, (safe.ends ends).1 result rfl⟩

end AiStorage.KV
