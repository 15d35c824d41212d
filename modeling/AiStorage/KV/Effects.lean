import AiStorage.KV.Tier

/-!
# What an action can do

Every action of a tier changes the rows of its own tier, its own kind of payload or a lock; only
`upsert` puts new content into a row. From the actions this follows for whole programs.
-/
namespace AiStorage.KV
open Lib Prog MetadataStore

namespace Act

variable {β : Type}

theorem database_some {f : Choice → MetadataStore → Outcome β} {t : Nat} {c : Choice} {w w' : World}
    {x : Except PyError β} (done : database f t c w = some (x, w')) :
    (c.dbFails = true ∧ x = .error (.bare .operationalError) ∧ w' = w) ∨
      (c.dbFails = false ∧ f c w.store = (x, w'.store) ∧ w' = { w with store := w'.store }) := by
  unfold database at done
  split_ifs at done with refused
  · cases done
    exact .inl ⟨refused, rfl, rfl⟩
  · cases done
    exact .inr ⟨by simpa using refused, rfl, rfl⟩

theorem exclusive_some {f : Choice → MetadataStore → Outcome β} {t : Nat} {c : Choice} {w w' : World}
    {x : Except PyError β} (done : exclusive f t c w = some (x, w')) :
    w.mutation.admits t = true ∧ database f t c w = some (x, w') := by
  unfold exclusive at done
  split_ifs at done with free
  exact ⟨free, done⟩

end Act

/-! ## Locations of rows -/

structure BlockLocation.Of (location : BlockLocation) (key : BlockKey) (row : Row) : Prop where
  key : location.key = key
  tier : location.tier = row.id.tier
  uri : location.uri = row.uri
  bytes : location.bytes = row.bytes
  checksum : location.checksum = row.checksum

variable {row : Row} {location : BlockLocation} {w w' : World}

theorem locationFromRow_ok {key : BlockKey}
    (built : locationFromRow key row = .ok location) : location.Of key row := by
  unfold locationFromRow at built
  split at built
  · split_ifs at built
    cases built
    exact ⟨rfl, rfl, rfl, rfl, rfl⟩
  · cases built

theorem activeRow_eq_some {s : MetadataStore} {key : BlockKey} {tier : TierName} :
    s.activeRow key tier = some row ↔
      s.blocks.find (key.row tier) = some row ∧ row.state = .active := by
  rw [activeRow, Option.filter_eq_some_iff, decide_eq_true_eq]

theorem lookup_ok {s : MetadataStore} {key : BlockKey} {tier : TierName}
    (found : s.lookup key tier = .ok (some location)) :
    ∃ row, s.activeRow key tier = some row ∧ locationFromRow key row = .ok location := by
  unfold MetadataStore.lookup at found
  split_ifs at found
  split at found
  · next row active =>
    cases built : locationFromRow key row with
    | error e =>
      rw [built] at found
      cases found
    | ok other =>
      rw [built] at found
      cases found
      exact ⟨row, active, built⟩
  · cases found

theorem lookupAndAcquire_ok {s s' : MetadataStore} {key : BlockKey} {tier : TierName}
    (found : s.lookupAndAcquire key tier = (.ok (some location), s')) :
    ∃ row, s.activeRow key tier = some row ∧ location.Of key row ∧
      s' = { s with blocks := s.blocks.set (s.pinned row) } := by
  rcases s.lookupAndAcquire_cases key tier with ⟨-, missed⟩ | ⟨row, member, here, active, done⟩
  · exact absurd (congrArg Prod.fst found) (missed location)
  · rw [done] at found
    obtain ⟨built, rfl⟩ := Prod.mk.inj found
    cases made : locationFromRow key (s.pinned row) with
    | error e =>
      rw [made] at built
      cases built
    | ok other =>
      rw [made] at built
      cases built
      have same := locationFromRow_ok made
      refine ⟨row, activeRow_eq_some.mpr ⟨?_, active⟩, ⟨same.1, same.2, same.3, same.4, same.5⟩,
        rfl⟩
      exact Table.find_eq_some_iff.mpr ⟨member, here⟩

def Finds (key : BlockKey) (tier : TierName) (r : Except PyError (Option BlockLocation)) : Prop :=
  ∀ location, r = .ok (some location) → location.key = key ∧ location.tier = tier

theorem finds_none (key : BlockKey) (tier : TierName) : Finds key tier (.ok none) := nofun

theorem finds_error (key : BlockKey) (tier : TierName) (e : PyError) : Finds key tier (.error e) :=
  nofun

theorem finds_answer {key : BlockKey} {tier : TierName} {x : Except PyError (Option BlockLocation)}
    (answer : device.Answers (Act.lookup key tier) x) : Finds key tier x := by
  rintro location rfl
  obtain ⟨t, c, w, w', done⟩ := answer
  change Act.lookup key tier t c w = _ at done
  rcases Act.database_some done with ⟨-, wrong, -⟩ | ⟨-, ran, -⟩
  · cases wrong
  · obtain ⟨row, active, built⟩ := lookup_ok (Prod.mk.inj ran).1
    have same := locationFromRow_ok built
    have here := Table.idOf_of_find (activeRow_eq_some.mp active).1
    exact ⟨same.key, by rw [same.tier, here]; rfl⟩

/-! ## Effects -/

/-- The change is one of a row of the tier. -/
def StoreEvent.Concerns (tier : TierName) (event : StoreEvent) : Prop :=
  event = .nothing ∨ ∃ id, event.row = some id ∧ id.tier = tier

inductive Effect (tier : TierName) : StoreEvent → World → World → Prop where
  | rows {w : World} {e : StoreEvent} {s : MetadataStore} (change : Change w.store e s)
      (inside : e.Concerns tier) : Effect tier e w { w with store := s }
  | files {w : World} (files : Dict Path Bytes) (kind : tier = .nvme) :
      Effect tier .nothing w { w with files }
  | objects {w : World} (objects : Dict Text Bytes) (kind : tier = .s3) :
      Effect tier .nothing w { w with objects }
  | memory {w : World} (memory : List (BlockKey × Bytes)) (usedBytes : Int)
      (kind : tier = .memory) : Effect tier .nothing w { w with memory, usedBytes }
  | locks {w : World} (mutation memoryLock : RLock) :
      Effect tier .nothing w { w with mutation, memoryLock }

theorem Effect.refl (tier : TierName) (w : World) : Effect tier .nothing w w :=
  .rows (.nothing w.store) (.inl rfl)

structure Confined (tier : TierName) (w w' : World) : Prop where
  rows : ∀ id, id.tier ≠ tier → w'.store.blocks.find id = w.store.blocks.find id
  closed : w'.store.closed = w.store.closed
  epoch : w'.store.ownerEpoch = w.store.ownerEpoch
  files : tier ≠ .nvme → w'.files = w.files
  objects : tier ≠ .s3 → w'.objects = w.objects
  memory : tier ≠ .memory → w'.memory = w.memory

theorem Confined.refl (tier : TierName) (w : World) : Confined tier w w :=
  ⟨fun _ _ => rfl, rfl, rfl, fun _ => rfl, fun _ => rfl, fun _ => rfl⟩

theorem Confined.trans {tier : TierName} {w'' : World} (first : Confined tier w w')
    (second : Confined tier w' w'') : Confined tier w w'' where
  rows id other := (second.rows id other).trans (first.rows id other)
  closed := second.closed.trans first.closed
  epoch := second.epoch.trans first.epoch
  files other := (second.files other).trans (first.files other)
  objects other := (second.objects other).trans (first.objects other)
  memory other := (second.memory other).trans (first.memory other)

theorem Effect.confined {tier : TierName} {e : StoreEvent}
    (effect : Effect tier e w w') : Confined tier w w' := by
  cases effect with
  | rows change inside =>
    rcases inside with rfl | ⟨id, here, inside⟩
    · cases change
      exact .refl tier w
    · obtain ⟨others, closed, epoch⟩ := change.frame here
      refine ⟨fun other apart => others other ?_, closed, epoch, fun _ => rfl, fun _ => rfl,
        fun _ => rfl⟩
      rintro rfl
      exact apart inside
  | files files kind =>
    exact ⟨fun _ _ => rfl, rfl, rfl, fun other => absurd kind other, fun _ => rfl, fun _ => rfl⟩
  | objects objects kind =>
    exact ⟨fun _ _ => rfl, rfl, rfl, fun _ => rfl, fun other => absurd kind other, fun _ => rfl⟩
  | memory memory usedBytes kind =>
    exact ⟨fun _ _ => rfl, rfl, rfl, fun _ => rfl, fun _ => rfl, fun other => absurd kind other⟩
  | locks => exact ⟨fun _ _ => rfl, rfl, rfl, fun _ => rfl, fun _ => rfl, fun _ => rfl⟩

theorem Confined.relock {tier : TierName} {mutation mutation' memoryLock memoryLock' : RLock}
    (confined : Confined tier { w with mutation := mutation, memoryLock := memoryLock }
      { w' with mutation := mutation', memoryLock := memoryLock' }) : Confined tier w w' :=
  ⟨confined.rows, confined.closed, confined.epoch, confined.files, confined.objects, confined.memory⟩

theorem Effect.content {tier : TierName} {e : StoreEvent}
    (effect : Effect tier e w w') (silent : e.publishes = false)
    (member : row ∈ w'.store.blocks.rows) :
    ∃ before ∈ w.store.blocks.rows, before.content = row.content := by
  cases effect with
  | rows change inside =>
    refine (change.content member).resolve_right ?_
    rintro ⟨now, location, m, -, rfl⟩
    cases silent
  | files | objects | memory | locks => exact ⟨row, member, rfl⟩

namespace Act

variable {β : Type} {tier : TierName}

def Keeps (P : World → World → Prop) (action : Act β) : Prop :=
  ∀ t c w x w', action t c w = some (x, w') → P w w'

def Local (tier : TierName) (action : Act β) : Prop :=
  action.Keeps fun w w' => ∃ e, Effect tier e w w'

/-- The statement leaves the rows alone or is an operation on one row of the tier, which takes
the time from the clock and changes a pin count only if that is said. -/
def Statement (pins : Bool) (tier : TierName) (publishes : Bool)
    (f : Choice → MetadataStore → Outcome β) : Prop :=
  ∀ c s, (f c s).2 = s ∨ ∃ op : StoreOp, (f c s).2 = op.apply s ∧ op.publishes = publishes ∧
    (op.pins = true → pins = true) ∧ op.At c.clock ∧ ∃ id, op.row = some id ∧ id.tier = tier

/-- What a step of a tier can be that publishes nothing and writes no payload; whether it may
change a pin count is said by `pins`. -/
inductive Step (pins : Bool) (tier : TierName) : {β : Type} → Act β → Prop where
  | observe {β : Type} (f : Choice → World → Except PyError β) : Step pins tier (Act.observe f)
  | database {β : Type} {f : Choice → MetadataStore → Outcome β}
      (statement : Statement pins tier false f) : Step pins tier (Act.database f)
  | exclusive {β : Type} {f : Choice → MetadataStore → Outcome β}
      (statement : Statement pins tier false f) : Step pins tier (Act.exclusive f)
  | stuck : Step pins tier Act.stuck
  | lockMutation : Step pins tier Act.lockMutation
  | unlockMutation : Step pins tier Act.unlockMutation
  | lockMemory : Step pins tier Act.lockMemory
  | unlockMemory : Step pins tier Act.unlockMemory
  | unlink (kind : tier = .nvme) (path : Path) : Step pins tier (Act.unlink path)
  | deleteObject (kind : tier = .s3) (objectKey : Text) :
      Step pins tier (Act.deleteObject objectKey)
  | memoryPop (kind : tier = .memory) (key : BlockKey) : Step pins tier (Act.memoryPop key)
  | memoryMoveToEnd (kind : tier = .memory) (key : BlockKey) :
      Step pins tier (Act.memoryMoveToEnd key)

abbrev Quiet (tier : TierName) {β : Type} (action : Act β) : Prop := action.Step true tier

inductive Writes (tier : TierName) : {β : Type} → Act β → Prop where
  | replaceFile (kind : tier = .nvme) (path : Path) (bytes : Bytes) :
      Writes tier (Act.replaceFile path bytes)
  | append (kind : tier = .nvme) (path : Path) (bytes : Bytes) : Writes tier (Act.append path bytes)
  | putObject (kind : tier = .s3) (objectKey : Text) (bytes : Bytes) :
      Writes tier (Act.putObject objectKey bytes)
  | memoryPut (kind : tier = .memory) (key : BlockKey) (data : Bytes) :
      Writes tier (Act.memoryPut key data)

theorem effect_op (op : StoreOp) {id : RowId} (here : op.row = some id) (inside : id.tier = tier)
    (w : World) : ∃ e, Effect tier e w { w with store := op.apply w.store } ∧
      (e.publishes = true → op.publishes = true) := by
  obtain ⟨event, change, -, published, -, row⟩ := op.change w.store
  exact ⟨event, .rows change (row.imp_right fun same => ⟨id, same.trans here, inside⟩), published⟩

theorem effect_database {f : Choice → MetadataStore → Outcome β} {pins publishes : Bool}
    (statement : Statement pins tier publishes f) : (database f).Keeps fun w w' =>
      ∃ e, Effect tier e w w' ∧ (e.publishes = true → publishes = true) := by
  intro t c w x w' done
  rcases database_some done with ⟨-, -, rfl⟩ | ⟨-, ran, rest⟩
  · exact ⟨.nothing, .refl tier w', nofun⟩
  · rw [rest]
    rcases statement c w.store with same | ⟨op, same, kind, -, -, id, here, inside⟩
    · rw [ran] at same
      rw [show w'.store = w.store from same]
      exact ⟨.nothing, .refl tier w, nofun⟩
    · rw [ran] at same
      rw [show w'.store = op.apply w.store from same, ← kind]
      exact effect_op op here inside w

theorem silent_database {f : Choice → MetadataStore → Outcome β} {pins : Bool}
    (statement : Statement pins tier false f) : (database f).Keeps fun w w' =>
      ∃ e, Effect tier e w w' ∧ e.publishes = false := by
  intro t c w x w' done
  obtain ⟨e, effect, silent⟩ := effect_database statement t c w x w' done
  exact ⟨e, effect, Bool.not_eq_true _ ▸ fun publishing => Bool.false_ne_true (silent publishing)⟩

theorem silent {w w' : World} (effect : Effect tier .nothing w w') :
    ∃ e, Effect tier e w w' ∧ e.publishes = false :=
  ⟨.nothing, effect, rfl⟩

theorem Step.effect {pins : Bool} {action : Act β} (quiet : action.Step pins tier) : action.Keeps fun w w' =>
    ∃ e, Effect tier e w w' ∧ e.publishes = false := by
  intro t c w x w' done
  cases quiet with
  | database statement => exact silent_database statement t c w x w' done
  | exclusive statement => exact silent_database statement t c w x w' (exclusive_some done).2
  | stuck => cases done
  | observe f =>
    cases done
    exact silent (.refl tier w)
  | lockMutation =>
    unfold Act.lockMutation at done
    split_ifs at done <;> cases done
    · exact silent (.refl tier w)
    · exact silent (.locks _ w.memoryLock)
  | lockMemory =>
    unfold Act.lockMemory at done
    split_ifs at done
    cases done
    exact silent (.locks w.mutation _)
  | unlockMutation =>
    cases done
    exact silent (.locks _ w.memoryLock)
  | unlockMemory =>
    cases done
    exact silent (.locks w.mutation _)
  | unlink kind path =>
    unfold Act.unlink at done
    split_ifs at done <;> cases done
    · exact silent (.refl tier w)
    · exact silent (.refl tier w)
    · exact silent (.files _ kind)
  | deleteObject kind objectKey =>
    simp only [Act.deleteObject] at done
    split_ifs at done <;> cases done
    · exact silent (.objects _ kind)
    · exact silent (.refl tier w)
    · exact silent (.refl tier w)
    · exact silent (.objects _ kind)
  | memoryPop kind key =>
    unfold Act.memoryPop at done
    split at done <;> cases done
    · exact silent (.memory _ _ kind)
    · exact silent (.refl tier w)
  | memoryMoveToEnd kind key =>
    unfold Act.memoryMoveToEnd at done
    split at done <;> cases done
    · exact silent (.memory _ w.usedBytes kind)
    · exact silent (.refl tier w)

theorem Writes.effect {action : Act β} (writes : action.Writes tier) : action.Keeps fun w w' =>
    ∃ e, Effect tier e w w' ∧ e.publishes = false := by
  intro t c w x w' done
  cases writes with
  | replaceFile kind path bytes =>
    unfold Act.replaceFile at done
    split_ifs at done <;> cases done
    · exact silent (.refl tier w)
    · exact silent (.files _ kind)
  | append kind path bytes =>
    simp only [Act.append] at done
    split_ifs at done <;> cases done <;> exact silent (.files _ kind)
  | putObject kind objectKey bytes =>
    simp only [Act.putObject] at done
    split_ifs at done <;> cases done
    · exact silent (.objects _ kind)
    · exact silent (.refl tier w)
    · exact silent (.objects _ kind)
  | memoryPut kind key data =>
    cases done
    exact silent (.memory _ _ kind)

theorem Keeps.isLocal {action : Act β} (kept : action.Keeps fun w w' =>
    ∃ e, Effect tier e w w' ∧ e.publishes = false) : action.Local tier := by
  intro t c w x w' done
  obtain ⟨e, effect, -⟩ := kept t c w x w' done
  exact ⟨e, effect⟩

theorem Step.isLocal {pins : Bool} {action : Act β} (quiet : action.Step pins tier) : action.Local tier :=
  quiet.effect.isLocal

variable {pins : Bool}

theorem quiet_observe (f : Choice → World → Except PyError β) : (observe f).Step pins tier := .observe f

section Statements

variable (key : BlockKey) (tier : TierName)

theorem quiet_lookup : (lookup key tier).Step pins tier := .database fun _ _ => .inl rfl

theorem quiet_getMetadata : (getMetadata key tier).Step pins tier := .database fun _ _ => .inl rfl

theorem quiet_isDeleting : (isDeleting key tier).Step pins tier := .database fun _ _ => .inl rfl

theorem quiet_bytesUsed : (bytesUsed tier).Step pins tier := .database fun _ _ => .inl rfl

theorem quiet_lruCandidates (limit : Nat) : (lruCandidates tier limit).Step pins tier :=
  .database fun _ _ => .inl rfl

theorem quiet_validatePayloadDescriptor (m : KVMetadata) :
    (validatePayloadDescriptor m).Step pins tier :=
  .exclusive fun _ _ => .inl rfl

theorem quiet_touch : (touch key tier).Step pins tier :=
  .database fun c _ => .inr ⟨.touch c.clock key tier, rfl, rfl, nofun, rfl, _, rfl, rfl⟩

theorem quiet_release : (release key tier).Quiet tier :=
  .database fun _ _ => .inr ⟨.release key tier, rfl, rfl, fun _ => rfl, trivial, _, rfl, rfl⟩

theorem quiet_lookupAndAcquire : (lookupAndAcquire key tier).Quiet tier :=
  .exclusive fun _ _ => .inr ⟨.lookupAndAcquire key tier, rfl, rfl, fun _ => rfl, trivial, _, rfl, rfl⟩

theorem quiet_delete : (delete key tier).Step pins tier :=
  .exclusive fun _ _ => .inr ⟨.delete key tier, rfl, rfl, nofun, trivial, _, rfl, rfl⟩

theorem quiet_beginDelete : (beginDelete key tier).Step pins tier :=
  .exclusive fun _ _ => .inr ⟨.beginDelete key tier, rfl, rfl, nofun, trivial, _, rfl, rfl⟩

theorem quiet_finishDelete : (finishDelete key tier).Step pins tier :=
  .exclusive fun _ _ => .inr ⟨.finishDelete key tier, rfl, rfl, nofun, trivial, _, rfl, rfl⟩

theorem local_upsert (location : BlockLocation) (m : KVMetadata) :
    (upsert location m).Local location.tier := by
  intro t c w x w' done
  have statement : Statement false location.tier true fun c s => s.upsert c.readings location m :=
    fun c _ => .inr ⟨.upsert c.readings location m, rfl, rfl, nofun, trivial, _, rfl, rfl⟩
  obtain ⟨e, effect, -⟩ := effect_database statement t c w x w' (exclusive_some done).2
  exact ⟨e, effect⟩

theorem quiet_lockMutation : lockMutation.Step pins tier := .lockMutation

theorem quiet_unlockMutation : unlockMutation.Step pins tier := .unlockMutation

theorem quiet_lockMemory : lockMemory.Step pins tier := .lockMemory

theorem quiet_unlockMemory : unlockMemory.Step pins tier := .unlockMemory

end Statements

theorem quiet_unlink (path : Path) : (unlink path).Step pins .nvme := .unlink rfl path

theorem quiet_deleteObject (objectKey : Text) : (deleteObject objectKey).Step pins .s3 :=
  .deleteObject rfl objectKey

theorem quiet_memoryPop (key : BlockKey) : (memoryPop key).Step pins .memory := .memoryPop rfl key

theorem quiet_memoryMoveToEnd (key : BlockKey) : (memoryMoveToEnd key).Step pins .memory :=
  .memoryMoveToEnd rfl key

end Act

/-! ## Programs -/

section Programs

variable {α β : Type} {pins : Bool} {tier : TierName}

/-- The program publishes nothing and acts for one tier only. -/
def StepsIn (pins : Bool) (tier : TierName) (p : Py α) : Prop :=
  p.Uses device fun action => action.Step pins tier

abbrev QuietIn (tier : TierName) (p : Py α) : Prop := StepsIn true tier p

def LocalTo (tier : TierName) (p : Py α) : Prop := p.Uses device fun action => action.Local tier

theorem makes_lift {admits : ∀ {β : Type}, Act β → Prop} (x : Except PyError α) :
    (lift x).Makes device admits fun r => r = x := rfl

theorem stepsIn_withMutation {p : Py α} (quiet : StepsIn pins tier p) :
    StepsIn pins tier (withMutation p) :=
  .bind (.perform (Act.quiet_lockMutation tier)) fun _ =>
    .andFinally quiet (.perform (Act.quiet_unlockMutation tier))

section Guarded

variable {evict : Py Bool} (remains : String) (key : BlockKey)

theorem stepsIn_invalidate (quiet : StepsIn pins tier evict) :
    StepsIn pins tier (invalidate tier evict remains key) := by
  refine .bind quiet fun removed => ?_
  cases removed with
  | true => trivial
  | false =>
    refine .bind (.perform (Act.quiet_lookup key tier)) fun found => ?_
    cases found with
    | none => trivial
    | some location => trivial

theorem finishGuarded_returns (quiet : QuietIn tier evict) (result : Except PyError LoadResult) :
    (finishGuarded tier evict remains key result).Makes device (fun action => action.Quiet tier)
      fun r => ∀ loaded, r = .ok loaded → result = .ok loaded := by
  have release : QuietIn tier (perform (Act.release key tier)) :=
    .perform (Act.quiet_release key tier)
  have fails : ∀ (e : PyError) loaded, (.error e : Except PyError LoadResult) = .ok loaded →
      result = .ok loaded := fun _ _ wrong => by cases wrong
  unfold finishGuarded
  cases result with
  | ok loaded => exact .bind release (fun _ _ _ same => same) fun e _ => fails e
  | error e =>
    dsimp only
    by_cases corrupt : e.cls.isCorruption = true
    · rw [if_pos corrupt]
      refine .bind (Uses.handle release fun _ => trivial) (fun _ _ => ?_) fun e _ => fails e
      exact .bind (Uses.handle (stepsIn_invalidate remains key quiet) fun _ => trivial)
        (fun _ _ => fails e) fun e _ => fails e
    · rw [if_neg corrupt]
      exact .bind release (fun _ _ => fails e) fun e _ => fails e

end Guarded

structure Backend.Quiet (B : Backend) : Prop where
  present : ∀ {pins : Bool} (location), StepsIn pins B.tier (B.present location)
  read : ∀ {pins : Bool} (location), StepsIn pins B.tier (B.read location)
  remove : ∀ {pins : Bool} (location), StepsIn pins B.tier (B.remove location)
  afterMiss : ∀ {pins : Bool} (key), StepsIn pins B.tier (B.afterMiss key)

namespace Backend.Quiet

variable {B : Backend} (quiet : B.Quiet) (key : BlockKey)
include quiet

theorem recheck_finds :
    (B.recheck key).Makes device (fun action => action.Step pins B.tier) (Finds key B.tier) := by
  refine .bind (.perform (Act.quiet_lookup key B.tier)) (fun found answer => ?_) fun e _ =>
    finds_error key B.tier e
  have delete : (perform (Act.delete key B.tier) >>= fun _ => pure none : Py (Option BlockLocation)).Makes
      device (fun action => action.Step pins B.tier) (Finds key B.tier) :=
    .bind (.perform (Act.quiet_delete key B.tier)) (fun _ _ => finds_none key B.tier) fun e _ =>
      finds_error key B.tier e
  cases found with
  | none => exact delete
  | some location =>
    refine .bind (quiet.present location) (fun there _ => ?_) fun e _ => finds_error key B.tier e
    cases there with
    | true => exact finds_answer answer
    | false => exact delete

theorem lookup_finds :
    (B.lookup key).Makes device (fun action => action.Step pins B.tier) (Finds key B.tier) := by
  refine .bind (.perform (Act.quiet_lookup key B.tier)) (fun found answer => ?_) fun e _ =>
    finds_error key B.tier e
  cases found with
  | none =>
    exact .bind (quiet.afterMiss key) (fun _ _ => finds_none key B.tier) fun e _ =>
      finds_error key B.tier e
  | some location =>
    refine .bind (quiet.present location) (fun there _ => ?_) fun e _ => finds_error key B.tier e
    cases there with
    | true => exact finds_answer answer
    | false =>
      refine .bind (.perform (Act.quiet_lockMutation B.tier)) (fun _ _ => ?_) fun e _ =>
        finds_error key B.tier e
      exact .andFinally (quiet.recheck_finds key) (.perform (Act.quiet_unlockMutation B.tier))
        fun e _ => finds_error key B.tier e

theorem lookup : StepsIn pins B.tier (B.lookup key) :=
  (quiet.lookup_finds key).mono (fun _ kind => kind) fun _ _ => trivial

theorem evictLocked : StepsIn pins B.tier (B.evictLocked key) := by
  refine .bind (.perform (Act.quiet_beginDelete key B.tier)) fun found => ?_
  cases found with
  | none => trivial
  | some location =>
    exact .bind (quiet.remove location) fun _ =>
      .bind (.perform (Act.quiet_finishDelete key B.tier)) fun _ => .bind trivial fun _ => trivial

theorem evict : StepsIn pins B.tier (B.evict key) := stepsIn_withMutation (quiet.evictLocked key)

theorem readAcquired (location : BlockLocation) : StepsIn pins B.tier (B.readAcquired key location) := by
  refine .bind (quiet.read location) fun record => ?_
  exact .bind (.perform (Act.quiet_observe _)) fun now => .bind trivial fun m => .bind trivial fun _ =>
    .bind (.perform (Act.quiet_touch key B.tier)) fun _ =>
    .bind (.perform (Act.quiet_getMetadata key B.tier)) fun _ => .bind trivial fun _ => trivial

theorem finishLoad_returns (result : Except PyError LoadResult) :
    (B.finishLoad key result).Makes device (fun action => action.Quiet B.tier)
      fun r => ∀ loaded, r = .ok loaded → result = .ok loaded :=
  finishGuarded_returns B.remains key (quiet.evict key) result

theorem finishLoad (result : Except PyError LoadResult) :
    QuietIn B.tier (B.finishLoad key result) :=
  (quiet.finishLoad_returns key result).mono (fun _ kind => kind) fun _ _ => trivial

theorem load : QuietIn B.tier (B.load key) := by
  refine .bind (quiet.lookup key) fun found => ?_
  cases found with
  | none => trivial
  | some location =>
    refine .bind (.perform (Act.quiet_lookupAndAcquire key B.tier)) fun acquired => ?_
    cases acquired with
    | none => trivial
    | some location => exact .thenDo (quiet.readAcquired key location) fun _ => quiet.finishLoad key _

end Backend.Quiet

def Places (tier : TierName) (r : Except PyError BlockLocation) : Prop :=
  ∀ location, r = .ok location → location.tier = tier

theorem places_error (tier : TierName) (e : PyError) : Places tier (.error e) := by
  intro location wrong
  cases wrong

structure Writer.Quiet (W : Writer) (tier : TierName) : Prop where
  makeRoom : ∀ {pins : Bool} (size key), StepsIn pins tier (W.makeRoom size key)
  place : ∀ {pins : Bool} (key raw data m), (W.place key raw data m).Makes device
    (fun action => action.Step pins tier ∨ action.Writes tier) (Places tier)

namespace Backend.Quiet

variable {B : Backend} (quiet : B.Quiet) {W : Writer} (writer : W.Quiet B.tier) (key : BlockKey)
  (data : Bytes) (m : KVMetadata)

section Store

variable {admits : ∀ {β : Type}, Act β → Prop}
  (quietly : ∀ {β : Type} (action : Act β), action.Quiet B.tier → admits action)
include quiet quietly

theorem replay {existing : BlockLocation}
    (upserts : ∀ location : BlockLocation, location.tier = existing.tier →
      admits (Act.upsert location m)) : (B.replay key data m existing).Uses device admits := by
  refine .bind ((quiet.load key).mono quietly fun _ _ => trivial) fun loaded => ?_
  exact .bind trivial fun _ => .bind trivial fun _ => .perform (upserts _ rfl)

variable (writing : ∀ {β : Type} (action : Act β), action.Writes B.tier → admits action)
include writer writing

theorem storeLocked (upserts : ∀ (location : BlockLocation) (clock : Float64),
      location.tier = B.tier → admits (Act.upsert location (stamped m data clock))) :
    (B.storeLocked W key data m).Uses device admits := by
  have silent : ∀ {γ : Type} (x : Except PyError γ), (lift x).Uses device admits := fun _ => trivial
  refine .bind (.perform (quietly _ (Act.quiet_isDeleting key B.tier))) fun _ =>
    .bind (silent _) fun _ => .bind (silent _) fun _ =>
    .bind (.perform (quietly _ (Act.quiet_observe _))) fun now => .bind (silent _) fun _ =>
    .bind (.perform (quietly _ (Act.quiet_validatePayloadDescriptor B.tier _))) fun _ => ?_
  refine Makes.bind ((quiet.lookup_finds key).mono quietly fun _ finds => finds)
    (fun found finds => ?_) fun _ _ => trivial
  cases found with
  | some existing =>
    exact quiet.replay key data _ quietly fun location here =>
      upserts location now (here.trans (finds existing rfl).2)
  | none =>
    refine Uses.bind ((writer.makeRoom _ key).mono quietly fun _ _ => trivial) fun _ =>
      Uses.bind (silent _) fun raw => ?_
    refine Makes.bind ((writer.place key raw data _).mono (fun action kind => kind.elim (quietly action) (writing action))
      fun _ placed => placed)
      (fun location placed => ?_) fun _ _ => trivial
    exact Uses.perform (upserts location now (placed location rfl))

theorem store (upserts : m.key = key → ∀ (location : BlockLocation) (clock : Float64),
      location.tier = B.tier → admits (Act.upsert location (stamped m data clock))) :
    (B.store W key data m).Uses device admits := by
  refine Makes.bind (makes_lift _) (fun _ checked => ?_) fun _ _ => trivial
  have same : m.key = key := of_decide_eq_true (require_ok.mp checked.symm)
  refine Makes.bind (makes_lift _) (fun _ _ => ?_) fun _ _ => trivial
  refine Uses.bind (Uses.bind (.perform (quietly _ (Act.quiet_lockMutation B.tier))) fun _ => ?_)
    fun _ => trivial
  exact .andFinally (quiet.storeLocked writer key data m quietly writing (upserts same))
    (.perform (quietly _ (Act.quiet_unlockMutation B.tier)))

end Store

end Backend.Quiet

/-! ## The two tiers -/

namespace NVMeTier

variable (tier : NVMeTier)

theorem quiet_backend : tier.backend.Quiet where
  present location := by
    refine .bind trivial fun target => ?_
    cases target with
    | file path => exact .perform (Act.quiet_observe _)
    | segment ref =>
      refine .bind (.perform (Act.quiet_observe _)) fun there => ?_
      cases there with
      | true => exact .bind (.perform (Act.quiet_observe _)) fun _ => trivial
      | false => trivial
  read location := by
    refine .bind trivial fun target => ?_
    cases target <;> exact .bind (.perform (Act.quiet_observe _)) fun _ =>
      .bind (.perform (Act.quiet_observe _)) fun _ => trivial
  remove location := by
    refine .bind trivial fun target => ?_
    cases target with
    | segment ref => trivial
    | file path =>
      refine .handle (.perform (Act.quiet_unlink path)) fun e => ?_
      split_ifs <;> trivial
  afterMiss key := .bind (.perform (Act.quiet_isDeleting key .nvme)) fun _ => trivial

theorem quiet_evictOne (exclude : BlockKey) (candidates : List BlockLocation) :
    StepsIn pins .nvme (tier.evictOne exclude candidates) := by
  induction candidates with
  | nil => trivial
  | cons location rest ih =>
    unfold evictOne
    split_ifs
    · exact ih
    · refine .bind (tier.quiet_backend.evict location.key) fun removed => ?_
      cases removed with
      | true => trivial
      | false => exact ih

theorem quiet_evictUntil (incoming : Int) (exclude : BlockKey) (rounds : Nat) (current : Int) :
    StepsIn pins .nvme (tier.evictUntil incoming exclude rounds current) := by
  induction rounds generalizing current with
  | zero => exact .bind (.perform .stuck) fun none => nomatch none
  | succ rounds ih =>
    unfold evictUntil
    split_ifs
    · refine .bind (.perform (Act.quiet_lruCandidates .nvme 16)) fun candidates => ?_
      refine .bind (tier.quiet_evictOne exclude candidates) fun freed => ?_
      cases freed with
      | none => trivial
      | some bytes => exact ih _
    · trivial

theorem quiet_ensureCapacity (incoming : Nat) (exclude : BlockKey) :
    StepsIn pins .nvme (tier.ensureCapacity incoming exclude) :=
  .bind (.perform (Act.quiet_bytesUsed .nvme)) fun _ =>
    .bind (tier.quiet_backend.lookup exclude) fun _ =>
    .bind (.perform (Act.quiet_observe _)) fun _ => tier.quiet_evictUntil _ _ _ _

theorem appendSegmentRecord_writes (key : BlockKey) (raw data : Bytes) :
    (tier.appendSegmentRecord key raw data).Uses device
      fun action => action.Step pins .nvme ∨ action.Writes .nvme := by
  have observe : ∀ {β : Type} (f : Choice → World → Except PyError β),
      (Act.observe f).Step pins .nvme ∨ (Act.observe f).Writes .nvme := fun f => .inl (.observe f)
  have path : ∀ size, (tier.segmentPathForAppend key size).Uses device
      fun action => action.Step pins .nvme ∨ action.Writes .nvme := by
    intro size
    refine .bind trivial fun dir => .bind (.perform (observe _)) fun existing => ?_
    cases existing.getLast? with
    | none => trivial
    | some last =>
      refine .bind (.perform (observe _)) fun length => ?_
      split_ifs <;> trivial
  refine .bind (path _) fun file => .bind ?_ fun offset =>
    .bind (.perform (.inr (.append rfl file _))) fun _ => trivial
  refine .bind (.perform (observe _)) fun there => ?_
  cases there with
  | true => exact .perform (observe _)
  | false => trivial

theorem quiet_writer : tier.writer.Quiet .nvme where
  makeRoom := tier.quiet_ensureCapacity
  place key raw data m := by
    unfold writer place
    cases tier.layoutMode with
    | segment =>
      refine Makes.bind (tier.appendSegmentRecord_writes key raw data) (fun ref _ => ?_) fun e _ =>
        places_error .nvme e
      rintro location built
      simp only [segmentLocationFor, bind_eq_ok] at built
      obtain ⟨uri, -, same⟩ := built
      cases same
      rfl
    | contentAddressed =>
      refine Makes.bind (makes_lift _) (fun path _ => ?_) fun e _ =>
        places_error .nvme e
      refine Makes.bind (Uses.perform (.inl (Act.quiet_observe _))) (fun _ _ => ?_) fun e _ =>
        places_error .nvme e
      refine Makes.bind (Uses.perform (.inr (.replaceFile rfl path _))) (fun _ _ => ?_) fun e _ =>
        places_error .nvme e
      rintro location same
      cases same
      rfl

end NVMeTier

namespace S3Tier

variable (tier : S3Tier)

theorem quiet_headExists (objectKey : Text) (allowAmbiguous : Bool) :
    StepsIn pins .s3 (headExists objectKey allowAmbiguous) := by
  refine .handle (.bind (.perform (Act.quiet_observe _)) fun _ => trivial) fun e => ?_
  split_ifs <;> trivial

theorem quiet_backend : tier.backend.Quiet where
  present location := .bind trivial fun target => quiet_headExists target.2 false
  read location := by
    refine .bind trivial fun target => ?_
    refine .bind (.handle (.perform (Act.quiet_observe _)) fun _ => trivial) fun response => ?_
    cases response with
    | noBody => trivial
    | unreadable closeFails => cases closeFails <;> trivial
    | body body => exact .bind (.perform (Act.quiet_observe _)) fun _ => trivial
  remove location := by
    refine .bind trivial fun target => .bind ?_ fun _ =>
      .bind (quiet_headExists target.2 true) fun there => ?_
    · refine .handle (.perform (Act.quiet_deleteObject target.2)) fun e => ?_
      split_ifs <;> trivial
    · cases there <;> trivial
  afterMiss _ := trivial

theorem quiet_writer : tier.writer.Quiet .s3 where
  makeRoom _ _ := trivial
  place key raw data m := by
    refine Makes.bind (Uses.handle (Uses.perform (.inr (.putObject rfl _ _)))
      fun _ => trivial) (fun _ _ => ?_) fun e _ => places_error .s3 e
    rintro location built
    simp only [locationFor, bind_eq_ok] at built
    obtain ⟨uri, -, same⟩ := built
    cases same
    rfl

end S3Tier

end Programs

end AiStorage.KV
