import AiStorage.KV.Stock

/-!
# Who raises `StoreFull`

The exception comes from the capacity checks alone. Everything else that a store does raises
exceptions of other classes, whatever the database, the files and the records answer.
-/
namespace AiStorage.KV
open Lib Prog MetadataStore

abbrev NotFull (cls : ErrorClass) : Prop := cls ≠ .storeFull

theorem Raises.mono {admits admits' : ErrorClass → Prop} {α : Type} {x : Except PyError α}
    (raises : Raises admits x) (weaker : ∀ cls, admits cls → admits' cls) : Raises admits' x :=
  fun e failed => weaker e.cls (raises e failed)

theorem notFull_of_dataError (cls : ErrorClass) (data : DataError cls) : NotFull cls := by
  rintro rfl
  cases data

section Pure

variable {α β : Type}

variable {admits : ErrorClass → Prop}

theorem Raises.map {x : Except PyError α} (raises : Raises admits x)
    (f : α → β) : Raises admits (x.map f) := by
  cases x with
  | ok a => exact .ok _
  | error e => exact .error (raises e rfl)

theorem Raises.ite_error {condition : Bool} {e e' : PyError}
    (first : admits e.cls) (second : admits e'.cls) :
    Raises admits (if condition then .error e else .error e' : Except PyError α) := by
  split_ifs
  · exact .error first
  · exact .error second

theorem notFull_validate (m : KVMetadata) : Raises NotFull (m.validate true) := by
  intro e failed
  rcases KVMetadata.validate_error failed with data | overflows
  · exact notFull_of_dataError _ data
  · rw [KVMetadata.validate_overflow overflows] at failed
    cases failed
    decide

theorem notFull_checkMetadata (m : KVMetadata) : Raises NotFull (checkMetadata m) := by
  unfold checkMetadata
  cases checked : m.validate true with
  | ok u => exact .ok _
  | error e => exact .ite_error (by decide) (notFull_validate m e checked)

theorem notFull_locationFromRow (key : BlockKey) (row : Row) :
    Raises NotFull (locationFromRow key row) := by
  unfold locationFromRow
  split
  · split_ifs
    · exact .error (by decide)
    · exact .ok _
  · exact .error (by decide)

theorem notFull_decodeMetadata (now : Readings) (json : Text) :
    Raises NotFull (decodeMetadata now json) := by
  unfold decodeMetadata
  split
  · exact (raises_fromDict now _).mono notFull_of_dataError
  · exact .error (by decide)

theorem notFull_checkDescriptor (now : Readings) (m : KVMetadata) (row : Row) :
    Raises NotFull (checkDescriptor now m row) := by
  have decoded : Raises NotFull (decodeMetadata now row.metadataJson >>= fun persisted =>
      persisted.validate true >>= fun _ => .ok persisted) :=
    .bind (notFull_decodeMetadata now _) fun persisted _ =>
      .bind (notFull_validate persisted) fun _ _ => .ok _
  unfold checkDescriptor
  split
  · next e failed => exact .ite_error (by decide) (decoded e failed)
  · split_ifs
    · exact .ok _
    · exact .error (by decide)

theorem Raises.forM {check : α → Except PyError Unit}
    (each : ∀ x, Raises admits (check x)) (items : List α) : Raises admits (items.forM check) := by
  induction items with
  | nil => exact .ok _
  | cons x rest ih => exact .bind (each x) fun _ _ => ih

theorem Raises.mapM {f : α → Except PyError β} (each : ∀ x, Raises admits (f x)) (items : List α) :
    Raises admits (items.mapM f) := by
  induction items with
  | nil => exact .ok _
  | cons x rest ih =>
    rw [List.mapM_cons]
    exact .bind (each x) fun _ _ => .bind ih fun _ _ => .ok _

theorem notFull_validatePayloadDescriptor (s : MetadataStore) (now : Readings) (m : KVMetadata) :
    Raises NotFull (s.validatePayloadDescriptor now m) :=
  .bind (notFull_checkMetadata m) fun _ _ => .bind (.require (by decide)) fun _ _ =>
    .forM (notFull_checkDescriptor now m) _

theorem notFull_bindInteger (n : Int) : Raises NotFull (bindInteger n) := by
  unfold bindInteger
  split_ifs
  · exact .ok _
  · exact .error (by decide)

theorem notFull_bindReal (x : Number) : Raises NotFull (bindReal x) := by
  cases x with
  | int n => exact .bind (notFull_bindInteger n) fun _ _ => .ok _
  | float x => exact .ok _

theorem notFull_bindText (s : Text) : Raises NotFull (bindText s) := by
  unfold bindText
  split_ifs
  · exact .ok _
  · exact .error (by decide)

theorem notFull_bindCount (v : PyVal) : Raises NotFull (bindCount v) := by
  cases v with
  | int n => exact notFull_bindInteger n
  | _ => exact .error (by decide)

theorem notFull_dumpsText (v : PyVal) : Raises NotFull (dumpsText v) := by
  unfold dumpsText
  split
  · exact .ok _
  · exact .error (by decide)

theorem notFull_upsertedRow (s : MetadataStore) (location : BlockLocation) (m : KVMetadata) :
    Raises NotFull (s.upsertedRow location m) :=
  .bind (.require (by decide)) fun _ _ => .bind (notFull_dumpsText _) fun _ _ =>
    .bind (notFull_dumpsText _) fun _ _ => .bind (notFull_bindText _) fun _ _ =>
    .bind (notFull_bindInteger _) fun _ _ => .bind (notFull_bindReal _) fun _ _ =>
    .bind (notFull_bindReal _) fun _ _ => .bind (notFull_bindCount _) fun _ _ =>
    .bind (.require (by decide)) fun _ _ => .ok _

theorem notFull_acceptUpsert (s : MetadataStore) (now : Readings) (location : BlockLocation)
    (m : KVMetadata) : Raises NotFull (s.acceptUpsert now location m) := by
  have fields : Raises NotFull (validateUpsert location m) :=
    .bind (notFull_checkMetadata m) fun _ _ => .bind (.require (by decide)) fun _ _ =>
      .bind (.require (by decide)) fun _ _ => .bind (.require (by decide)) fun _ _ =>
      .require (by decide)
  exact .bind fields fun _ _ => .bind (.require (by decide)) fun _ _ =>
    .bind (.forM (notFull_checkDescriptor now m) _) fun _ _ => notFull_upsertedRow s location m

theorem notFull_upsert (s : MetadataStore) (now : Readings) (location : BlockLocation)
    (m : KVMetadata) : Raises NotFull (s.upsert now location m).1 := by
  unfold upsert
  cases accepted : s.acceptUpsert now location m with
  | error e => exact .error (notFull_acceptUpsert s now location m e accepted)
  | ok row => exact .ok _

variable (s : MetadataStore) (key : BlockKey) (tier : TierName)

theorem notFull_lookup : Raises NotFull (s.lookup key tier) := by
  unfold MetadataStore.lookup
  split_ifs
  · exact .error (by decide)
  · split
    · exact (notFull_locationFromRow _ _).map _
    · exact .ok _

theorem notFull_getMetadata (now : Readings) : Raises NotFull (s.getMetadata now key tier) := by
  have read : ∀ row : Row, Raises NotFull (rowMetadata now row >>= fun m =>
      m.validate true >>= fun _ => .ok m) := fun row =>
    .bind (.bind (notFull_decodeMetadata now _) fun _ _ => .ok _) fun m _ =>
      .bind (notFull_validate m) fun _ _ => .ok _
  unfold MetadataStore.getMetadata
  split_ifs
  · exact .error (by decide)
  · split
    · exact .ok _
    · next row _ =>
      split
      · exact .ok _
      · next e failed => exact .ite_error (by decide) (read row e failed)

theorem notFull_delete : Raises NotFull (s.delete key tier).1 := by
  unfold MetadataStore.delete
  split_ifs
  · exact .error (by decide)
  · exact .ok _

theorem notFull_touch (now : Float64) : Raises NotFull (s.touch now key tier).1 := by
  unfold MetadataStore.touch
  split_ifs
  · exact .error (by decide)
  · exact .ok _

theorem notFull_release : Raises NotFull (s.release key tier).1 := by
  unfold MetadataStore.release
  split_ifs
  · exact .error (by decide)
  · exact .ok _

theorem notFull_finishDelete : Raises NotFull (s.finishDelete key tier).1 := by
  unfold MetadataStore.finishDelete
  split_ifs
  · exact .error (by decide)
  · exact .ok _

theorem notFull_beginDelete : Raises NotFull (s.beginDelete key tier).1 := by
  unfold MetadataStore.beginDelete
  split_ifs
  · exact .error (by decide)
  · split
    · exact .ok _
    · next row _ =>
      split
      · split_ifs
        · exact .ok _
        · cases built : locationFromRow key row with
          | error e => exact .error (notFull_locationFromRow key row e built)
          | ok location => exact .ok _
      · exact (notFull_locationFromRow key row).map _

theorem notFull_lookupAndAcquire : Raises NotFull (s.lookupAndAcquire key tier).1 := by
  unfold MetadataStore.lookupAndAcquire
  split_ifs
  · exact .error (by decide)
  · split
    · split_ifs
      · exact (notFull_locationFromRow key _).map _
      · exact .ok _
    · exact .ok _

end Pure

/-! ## Programs -/

def NeverFull {α : Type} (p : Py α) : Prop :=
  p.Makes device (fun _ => True) (Raises NotFull)

namespace NeverFull

variable {α β : Type} {p : Py α}

theorem ret {r : Except PyError α} (raises : Raises NotFull r) : NeverFull (.ret r) := raises

theorem pure (a : α) : NeverFull (pure a : Py α) := Raises.ok a

theorem lift {x : Except PyError α} (raises : Raises NotFull x) : NeverFull (KV.lift x) := raises

theorem raise {e : PyError} (other : NotFull e.cls) : NeverFull (KV.raise e : Py α) :=
  Raises.error other

theorem thenDo {next : Except PyError α → Py β} (first : NeverFull p)
    (rest : ∀ r, Raises NotFull r → NeverFull (next r)) : NeverFull (p.thenDo next) :=
  Makes.thenDo first rest

theorem bind {next : α → Py β} (first : NeverFull p) (rest : ∀ a, NeverFull (next a)) :
    NeverFull (p >>= next) :=
  Makes.bind first (fun a _ => rest a) fun e raises => .error (raises e rfl)

theorem handle {handler : PyError → Py α} (first : NeverFull p)
    (rest : ∀ e, NotFull e.cls → NeverFull (handler e)) : NeverFull (p.handle handler) :=
  Makes.handle first (fun a _ => .ok a) fun e raises => rest e (raises e rfl)

theorem andFinally {last : Py Unit} (first : NeverFull p) (finally_ : NeverFull last) :
    NeverFull (p.andFinally last) :=
  first.thenDo fun _ raises => finally_.bind fun _ => ret raises

theorem database {f : Choice → MetadataStore → Outcome α}
    (raises : ∀ c s, Raises NotFull (f c s).1) : NeverFull (perform (Act.database f)) := by
  refine ⟨trivial, fun x answer => ?_⟩
  obtain ⟨t, c, w, w', done⟩ := answer
  rcases Act.database_some (t := t) done with ⟨-, rfl, -⟩ | ⟨-, same, -⟩
  · exact ret (.error (by decide))
  · have given := raises c w.store
    rw [same] at given
    exact ret given

theorem exclusive {f : Choice → MetadataStore → Outcome α}
    (raises : ∀ c s, Raises NotFull (f c s).1) : NeverFull (perform (Act.exclusive f)) := by
  refine ⟨trivial, fun x answer => ?_⟩
  obtain ⟨t, c, w, w', done⟩ := answer
  exact (database raises).2 x ⟨t, c, w, w', (Act.exclusive_some done).2⟩

theorem observe {f : Choice → World → Except PyError α}
    (raises : ∀ c w, Raises NotFull (f c w)) : NeverFull (perform (Act.observe f)) := by
  refine ⟨trivial, fun x answer => ?_⟩
  obtain ⟨t, c, w, w', done⟩ := answer
  cases done
  exact ret (raises c w)

theorem onFiles {f : Choice → World → Except PyError α}
    (raises : ∀ c w, Raises NotFull (f c w)) : NeverFull (perform (Act.onFiles f)) := by
  refine observe fun c w => ?_
  split_ifs
  · exact .error (by decide)
  · exact raises c w

theorem perform {action : Act α}
    (raises : ∀ t c w x w', action t c w = some (x, w') → Raises NotFull x) :
    NeverFull (Prog.perform action) := by
  refine ⟨trivial, fun x answer => ?_⟩
  obtain ⟨t, c, w, w', done⟩ := answer
  exact ret (raises t c w x w' done)

theorem withMemoryLock (body : NeverFull p) : NeverFull (withMemoryLock p) := by
  refine .bind (.perform fun t c w x w' done => ?_) fun _ => body.andFinally (.perform
    fun t c w x w' done => ?_)
  · unfold Act.lockMemory at done
    split_ifs at done
    cases done
    exact .ok _
  · cases done
    exact .ok _

theorem withMutation (body : NeverFull p) : NeverFull (withMutation p) := by
  refine .bind (.perform fun t c w x w' done => ?_) fun _ => body.andFinally (.perform
    fun t c w x w' done => ?_)
  · unfold Act.lockMutation at done
    split_ifs at done <;> cases done
    · exact .error (by decide)
    · exact .ok _
  · cases done
    exact .ok _

end NeverFull

theorem Runs.neverFull {t : Nat} {allowed : Choice → Prop} {α : Type} {p : Py α} {s : Stock}
    {Q : Except PyError α → Stock → Prop} (runs : Runs t allowed p s Q) (never : NeverFull p) :
    Runs t allowed p s fun r s' => Q r s' ∧ Raises NotFull r :=
  ⟨fun w same free => ((runs.total w same free).and_makes never).mono fun _ _ holds =>
    ⟨⟨holds.1.1, holds.2⟩, holds.1.2⟩⟩

section Tiers

variable (key : BlockKey) (tier : TierName)

theorem neverFull_lookup : NeverFull (perform (Act.lookup key tier)) :=
  .database fun _ s => notFull_lookup s key tier

theorem neverFull_getMetadata : NeverFull (perform (Act.getMetadata key tier)) :=
  .database fun c s => notFull_getMetadata s key tier c.readings

theorem neverFull_delete : NeverFull (perform (Act.delete key tier)) :=
  .exclusive fun _ s => notFull_delete s key tier

theorem neverFull_upsert (location : BlockLocation) (m : KVMetadata) :
    NeverFull (perform (Act.upsert location m)) :=
  .exclusive fun c s => notFull_upsert s c.readings location m

theorem neverFull_validatePayloadDescriptor (m : KVMetadata) :
    NeverFull (perform (Act.validatePayloadDescriptor m)) :=
  .exclusive fun c s => notFull_validatePayloadDescriptor s c.readings m

theorem neverFull_time : NeverFull (perform Act.time) := .observe fun _ _ => .ok _

end Tiers

/-! ## The memory tier -/

namespace MemoryTier

variable (key : BlockKey)

theorem neverFull_memoryGet : NeverFull (perform (Act.memoryGet key)) := .observe fun _ _ => .ok _

theorem neverFull_memoryPop : NeverFull (perform (Act.memoryPop key)) := by
  refine .perform fun t c w x w' done => ?_
  unfold Act.memoryPop at done
  split at done <;> cases done
  · exact .ok _
  · exact .error (by decide)

theorem neverFull_memoryMoveToEnd : NeverFull (perform (Act.memoryMoveToEnd key)) := by
  refine .perform fun t c w x w' done => ?_
  unfold Act.memoryMoveToEnd at done
  split at done <;> cases done
  · exact .ok _
  · exact .error (by decide)

theorem neverFull_lookupTier : NeverFull (lookup key) := by
  refine .withMemoryLock (.bind (neverFull_lookup key .memory) fun location =>
    .bind (neverFull_memoryGet key) fun data => ?_)
  cases location <;> cases data
  · exact .pure _
  · exact .bind (neverFull_memoryPop key) fun _ => .pure _
  · exact .bind (neverFull_delete key .memory) fun _ => .pure _
  · exact .bind (.lift (.require (by decide))) fun _ => .pure _

theorem notFull_conflict (detail : String) : NotFull (immutableConflict key detail).cls := by
  change ErrorClass.immutableBlockConflict ≠ .storeFull
  decide

theorem neverFull_replay (data : Bytes) (m : KVMetadata) (existing : BlockLocation) :
    NeverFull (replay key data m existing) := by
  refine .bind (neverFull_memoryGet key) fun held => ?_
  cases held with
  | none => exact .raise (by decide)
  | some held =>
    exact .bind (.lift (.require (notFull_conflict key _))) fun _ =>
      .bind (neverFull_getMetadata key .memory) fun _ =>
      .bind (.lift (.require (notFull_conflict key _))) fun _ =>
      .bind (neverFull_upsert _ _) fun _ => neverFull_memoryMoveToEnd key

end MemoryTier

end AiStorage.KV
