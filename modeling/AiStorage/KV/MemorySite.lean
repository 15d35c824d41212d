import AiStorage.KV.Sites

/-!
# The memory tier in custody

The lock of the tier protects its rows and the map together, so that a payload leaves the map
only if no call has a pin on its row.
-/
namespace AiStorage.KV
open Lib Prog MetadataStore Vault

theorem delete_true {s s' : MetadataStore} {key : BlockKey} {tier : TierName}
    (deleted : s.delete key tier = (.ok true, s')) (uri : Text) :
    s'.place (key.row tier) ≠ some (.active, uri) := by
  rcases s.delete_cases key tier with ⟨-, refused, -⟩ | ⟨row, -, here, -, -, done⟩
  · rw [deleted] at refused
    exact absurd rfl refused
  · rw [deleted] at done
    rw [(Prod.mk.inj done).2, MetadataStore.place, ← here]
    dsimp only
    rw [Table.find_erase_self]
    intro wrong
    cases wrong

namespace MemoryTier

variable {site : Site} {t n k : Nat} {G : Ledger → Prop} (key : BlockKey)

theorem vault_content {location : BlockLocation} (kind : location.tier = .memory) (w : World) :
    site.vault.content location w = some (Act.held location.key w.memory) := by
  change site.content location w = _
  unfold Site.content
  rw [kind]

/-! ## The map -/

variable {l l' : Ledger} {c : Choice} {x : Except PyError Unit}

theorem step_memory {w : World} (sane : site.vault.Sane t n k l) (inside : k ≠ 0)
    (shape : ∃ memory usedBytes, w = { l.world with memory, usedBytes })
    (others : ∀ other, Act.held other w.memory = Act.held other l.world.memory ∨
      Free (other.row .memory) l) :
    (site.vault.among t).guarantee l (l.record t w) ∧ site.vault.Sane t n k (l.record t w) ∧
      (l.record t w).taken = l.taken := by
  obtain ⟨memory, usedBytes, rfl⟩ := shape
  have elsewhere : ∀ location : BlockLocation, location.tier ≠ .memory →
      site.vault.content location { l.world with memory, usedBytes } =
        site.vault.content location l.world := fun location outside => site.vault.outside outside rfl rfl
  refine step_payload sane rfl sane.custody.proper (.inr ⟨rfl, rfl⟩) (.inl inside)
    fun location _ => ?_
  by_cases kind : location.tier = .memory
  · rw [vault_content kind, vault_content kind]
    rcases others location.key with same | free
    · exact .inl (congrArg some same)
    · exact .inr (.inr ⟨.inr kind, by rw [BlockLocation.id, kind]; exact free⟩)
  · exact .inl (elsewhere location kind)

theorem held_without {other : BlockKey} (apart : other ≠ key) (memory : List (BlockKey × Bytes)) :
    Act.held other (Act.without key memory) = Act.held other memory := by
  unfold Act.held Act.without
  rw [List.find?_filter]
  congr 2
  funext entry
  by_cases same : entry.1 = other
  · simp [same, apart]
  · simp [same]

theorem held_put {other : BlockKey} (data : Bytes) (memory : List (BlockKey × Bytes)) :
    Act.held other (Act.without key memory ++ [(key, data)]) =
      if other = key then some data else Act.held other memory := by
  have absent : Act.held key (Act.without key memory) = none := by
    simp [Act.held, Act.without, List.find?_filter]
  split_ifs with same
  · rw [same]
    unfold Act.held at absent ⊢
    rw [List.find?_append, Option.map_eq_none_iff.mp absent]
    simp
  · rw [← held_without key same memory]
    unfold Act.held
    rw [List.find?_append]
    simp [Ne.symm same]

theorem step_pop (sane : site.vault.Sane t n k l) (inside : k ≠ 0) (free : Free (key.row .memory) l)
    (done : auditing.exec t (Act.memoryPop key) c l = some (x, l')) :
    (site.vault.among t).guarantee l l' ∧ site.vault.Sane t n k l' ∧ l'.taken = l.taken := by
  obtain ⟨w, ran, rfl⟩ := auditing_some done
  refine step_memory sane inside ?_ fun other => ?_
  · unfold Act.memoryPop at ran
    split at ran <;> cases ran <;> exact ⟨_, _, rfl⟩
  · by_cases same : other = key
    · exact .inr (by rw [same]; exact free)
    · refine .inl ?_
      unfold Act.memoryPop at ran
      split at ran <;> cases ran
      · exact held_without key same _
      · rfl

theorem step_put (data : Bytes) (sane : site.vault.Sane t n k l) (inside : k ≠ 0)
    (free : Free (key.row .memory) l)
    (done : auditing.exec t (Act.memoryPut key data) c l = some (x, l')) :
    (site.vault.among t).guarantee l l' ∧ site.vault.Sane t n k l' ∧ l'.taken = l.taken ∧
      Act.held key l'.world.memory = some data := by
  obtain ⟨w, ran, rfl⟩ := auditing_some done
  cases ran
  have moved := @step_memory site t n k l { l.world with
      memory := Act.without key l.world.memory ++ [(key, data)]
      usedBytes := l.world.usedBytes + data.length } sane inside ⟨_, _, rfl⟩ fun other => ?_
  · refine ⟨moved.1, moved.2.1, moved.2.2, ?_⟩
    change Act.held key (Act.without key l.world.memory ++ [(key, data)]) = some data
    rw [held_put, if_pos rfl]
  · by_cases same : other = key
    · exact .inr (by rw [same]; exact free)
    · exact .inl (by rw [held_put, if_neg same])

theorem step_moveToEnd (sane : site.vault.Sane t n k l) (inside : k ≠ 0)
    (done : auditing.exec t (Act.memoryMoveToEnd key) c l = some (x, l')) :
    (site.vault.among t).guarantee l l' ∧ site.vault.Sane t n k l' ∧ l'.taken = l.taken := by
  obtain ⟨w, ran, rfl⟩ := auditing_some done
  refine step_memory sane inside ?_ fun other => .inl ?_
  · unfold Act.memoryMoveToEnd at ran
    split at ran <;> cases ran <;> exact ⟨_, l.world.usedBytes, rfl⟩
  · unfold Act.memoryMoveToEnd at ran
    split at ran <;> cases ran
    · rename_i data held
      rw [held_put]
      split_ifs with same
      · rw [same, held]
      · rfl
    · rfl

/-! ## Conditions under the lock of the tier -/

theorem settled_free (inside : k ≠ 0) : site.vault.Settled t n k (Free (key.row .memory)) :=
  .guarded (fun _ _ same free u => (same.taken u _ rfl).trans (free u)) inside

theorem settled_vacant (inside : k ≠ 0) : site.vault.Settled t n k (Vacant (key.row .memory)) :=
  .guarded (fun _ _ same vacant uri => by rw [same.place _ rfl]; exact vacant uri) inside

theorem settled_held (inside : k ≠ 0) (data : Option Bytes) :
    site.vault.Settled t n k fun l => Act.held key l.world.memory = data :=
  .guarded (fun _ _ same before => by rw [same.memory]; exact before) inside

structure Shows (shown : Option BlockLocation) (l : Ledger) : Prop where
  some : ∀ location, shown = some location →
    location.key = key ∧ location.tier = .memory ∧ location.Current l.world
  none : shown = none → Vacant (key.row .memory) l

structure Found (found : Option BlockLocation) (l : Ledger) : Prop where
  some : ∀ location, found = some location →
    Shows key found l ∧ (Act.held key l.world.memory).isSome = true
  none : found = none → Free (key.row .memory) l

variable {key}

theorem Shows.same {shown : Option BlockLocation} (holds : Shows key shown l)
    (same : SameMemory l l') : Shows key shown l' := by
  refine ⟨fun location here => ?_, fun missed uri => ?_⟩
  · obtain ⟨key', tier', current⟩ := holds.some location here
    refine ⟨key', tier', ?_⟩
    unfold BlockLocation.Current
    rw [same.place _ tier']
    exact current
  · rw [same.place _ rfl]
    exact holds.none missed uri

theorem Found.same {found : Option BlockLocation} (holds : Found key found l)
    (same : SameMemory l l') : Found key found l' := by
  refine ⟨fun location here => ?_, fun missed u => (same.taken u _ rfl).trans (holds.none missed u)⟩
  obtain ⟨shows, there⟩ := holds.some location here
  exact ⟨shows.same same, by rw [same.memory]; exact there⟩

theorem settled_shows (inside : k ≠ 0) (shown : Option BlockLocation) :
    site.vault.Settled t n k (Shows key shown) :=
  .guarded (fun _ _ same holds => holds.same same) inside

theorem settled_found (inside : k ≠ 0) (found : Option BlockLocation) :
    site.vault.Settled t n k (Found key found) :=
  .guarded (fun _ _ same holds => holds.same same) inside

theorem live_of_held (there : (Act.held key l.world.memory).isSome = true) :
    site.vault.Live (key.row .memory) l := by
  intro location same lost
  obtain ⟨hash, space, kind⟩ := RowId.mk.inj same
  have missing := lost.2
  rw [vault_content kind, BlockKey.namespaceId_inj space (Subtype.ext hash)] at missing
  rw [Option.some.inj missing] at there
  cases there

variable (key)

/-! ## Looking and evicting -/

theorem triple_memoryGet {I : Ledger → Prop} (inside : k ≠ 0) (settled : site.vault.Settled t n k I)
    (kept : ∀ l l', Mildly l l' → I l → I l') :
    site.vault.Triple t n k I (perform (Act.memoryGet key)) (OnResult fun data l => I l ∧
      Act.held key l.world.memory = data) := by
  refine .learn (Act.mild_observe _) settled (Settled.onResult fun data =>
    settled.and (settled_held key inside data)) fun l c x l' sane holds mildly done => ?_
  rintro data rfl
  obtain ⟨w, ran, rfl⟩ := auditing_some done
  refine ⟨kept l _ mildly holds, ?_⟩
  cases ran
  rfl

theorem triple_pop {I : Ledger → Prop} (inside : k ≠ 0) (before : site.vault.Settled t n k I)
    (settled : site.vault.Settled t n k G) (left : ∀ l l', l'.taken = l.taken → I l → G l')
    (free : ∀ l, site.vault.Custody l → I l → Free (key.row .memory) l) :
    site.vault.Triple t n k I (perform (Act.memoryPop key)) fun _ => G := by
  refine .perform before (fun _ => settled) fun l c x l' sane holds done => ?_
  obtain ⟨seen, saner, taken⟩ := step_pop key sane inside (free l sane.custody holds) done
  exact ⟨seen, saner, left l l' taken holds⟩

theorem triple_lookupLocked (inside : k ≠ 0) :
    site.vault.Triple t n k (fun _ => True) (lookupLocked key) (OnResult (Found key)) := by
  have found := fun found => (settled_found inside found : site.vault.Settled t n k (Found key found))
  have free := @settled_free site t n k key inside
  refine .bind (R := Shows key) ?_ fun shown => ?_
  · refine .learn (Act.mild_read _) (.const True) (Settled.onResult (settled_shows inside))
      fun l c x l' sane _ mildly done => ?_
    rintro shown rfl
    refine Shows.same ⟨?_, ?_⟩ mildly.sameMemory
    · rintro location rfl
      exact lookup_some (read_ok done).1
    · rintro rfl uri
      exact lookup_none (read_ok done).1 uri
  · have shows := @settled_shows site t n k key inside shown
    refine .bind (triple_memoryGet key inside shows fun l l' mildly holds =>
      holds.same mildly.sameMemory) fun data => ?_
    -- nobody reads a row that is missing or that has lost its payload
    have missing : site.vault.Triple t n k (Free (key.row .memory))
        (pure none : Py (Option BlockLocation)) (OnResult (Found key)) :=
      .value (fun l holds => ⟨(fun _ wrong => by cases wrong), fun _ => holds⟩) (found none)
    cases shown with
    | none =>
      have unread : ∀ l, site.vault.Custody l → Shows key none l ∧ Act.held key l.world.memory = data →
          Free (key.row .memory) l := fun l custody holds => custody.free_of_vacant (holds.1.none rfl)
      cases data with
      | none => exact fun l sane holds => missing l sane (unread l sane.custody holds)
      | some data =>
        have popped := (triple_pop (I := Free (key.row .memory)) key inside free free
          (fun l l' same holds u => by rw [same]; exact holds u) fun _ _ holds => holds).anyway.results
        exact fun l sane holds => (popped.bind fun _ => missing) l sane (unread l sane.custody holds)
    | some location =>
      cases data with
      | none =>
        have deleted : site.vault.Triple t n k (Free (key.row .memory))
            (perform (Act.delete key .memory)) (OnResult fun _ => Free (key.row .memory)) := by
          refine .removes (Act.removes_delete key .memory) (fun _ => inside) free
            (Settled.onResult fun _ => free) fun l c x l' _ _ holds gently _ a _ u => ?_
          rw [gently.taken]
          exact holds u
        refine fun l sane holds => (deleted.bind fun _ => missing) l sane ?_
        obtain ⟨key', tier', current⟩ := holds.1.some location rfl
        have lost : site.vault.Lost location l.world :=
          ⟨current, by rw [vault_content tier', key', holds.2]⟩
        have unread := sane.custody.free_of_lost lost
        rw [BlockLocation.id, key', tier'] at unread
        exact unread
      | some data =>
        refine .computed fun _ _ => .value (fun l holds => ⟨fun _ _ => ⟨holds.1, ?_⟩,
          fun wrong => by cases wrong⟩) (found _)
        rw [holds.2]
        rfl

theorem triple_lookup :
    site.vault.Triple t n k (fun _ => True) (lookup key)
      (OnResult fun found l => k ≠ 0 → Found key found l) := by
  refine Triple.withMemoryLock ((triple_lookupLocked key (Nat.succ_ne_zero k)).weaken
    (fun _ holds => holds) fun _ _ post a same _ => post a same) (.const True) (fun _ _ _ holds => holds)
    (fun found => ?_) (fun found => ?_) fun found l l' mildly post inside => ?_
  · exact .imp fun inside => settled_found inside found
  · exact .imp fun _ => settled_found (Nat.succ_ne_zero k) found
  · exact (post inside).same mildly.sameMemory

theorem triple_evict (settled : site.vault.Settled t n k G) (deeper : site.vault.Settled t n (k + 1) G)
    (left : ∀ l l', l'.taken = l.taken → G l → G l') :
    site.vault.Triple t n k G (evict key) (OnResult fun _ => G) := by
  have inside := Nat.succ_ne_zero k
  refine Triple.withMemoryLock ?_ settled (fun l l' mildly => left l l' mildly.taken)
    (fun _ => settled) (fun _ => deeper) fun _ l l' mildly => left l l' mildly.taken
  refine .bind (triple_memoryGet key inside deeper fun l l' mildly => left l l' mildly.taken)
    fun data => ?_
  cases data with
  | none => exact .value (fun _ holds => holds.1) deeper
  | some data =>
    refine .bind (R := fun deleted l => G l ∧ (deleted = true → Vacant (key.row .memory) l)) ?_
      fun deleted => ?_
    · refine (Triple.removes (Act.removes_delete key .memory) (fun _ => inside) deeper
        (Settled.onResult fun deleted => deeper.and (.imp fun _ => settled_vacant key inside)) ?_).pre
        fun _ holds => holds.1
      rintro l c x l' - - holds gently done deleted rfl
      refine ⟨left l l' gently.taken holds, ?_⟩
      rintro rfl uri
      obtain ⟨w, ran, rfl⟩ := auditing_some done
      rcases Act.database_some (Act.exclusive_some ran).2 with ⟨-, wrong, -⟩ | ⟨-, ran, -⟩
      · cases wrong
      · exact delete_true ran uri
    · cases deleted with
      | false => exact .value (fun _ holds => holds.1) deeper
      | true =>
        refine .bind (R := fun _ => G) ?_ fun _ => .value (fun _ holds => holds) deeper
        exact (triple_pop (I := fun l => G l ∧ Vacant (key.row .memory) l) key inside
          (deeper.and (settled_vacant key inside)) deeper (fun l l' same holds => left l l' same holds.1)
          fun l custody holds => custody.free_of_vacant holds.2).anyway.results.pre
          fun l holds => ⟨holds.1, holds.2 rfl⟩

/-! ## Loading -/

theorem triple_readAcquired (inside : k ≠ 0) (location : BlockLocation) :
    site.vault.Triple t n k (Holding t (key.row .memory)) (readAcquired key location)
      fun _ => Holding t (key.row .memory) := by
  have holding := (@lasting_holding site.vault t n k (key.row .memory)).settled
  have mild : ∀ {α : Type} {action : Act α}, action.Mild →
      site.vault.Triple t n k (Holding t (key.row .memory)) (perform action)
        (Always (Holding t (key.row .memory)) fun _ => Holding t (key.row .memory)) := fun kind =>
    .looks kind holding fun l l' mildly => mildly.holding
  have raised : ∀ {α : Type} (e : PyError), site.vault.Triple t n k (Holding t (key.row .memory))
      (.ret (.error e) : Py α) (Always (Holding t (key.row .memory)) fun _ => Holding t (key.row .memory)) :=
    fun e => .errorAlways (fun _ holds => holds) holding
  refine Triple.weaken (Q := Always (Holding t (key.row .memory)) fun _ => Holding t (key.row .memory)) ?_
    (fun _ holds => holds) fun _ _ post => post.1
  refine .bindAlways holding (mild (Act.mild_observe _)) fun data => ?_
  cases data with
  | none => exact raised _
  | some data =>
    refine .bindAlways holding (mild (Act.mild_read _)) fun m => ?_
    cases m with
    | none => exact raised _
    | some m =>
      refine .computedAlways (fun _ holds => holds) holding fun _ _ => ?_
      refine .bindAlways (R := fun _ => Holding t (key.row .memory)) holding ?_ fun _ =>
        .bindAlways holding (mild (Act.mild_touch key .memory)) fun _ =>
        .bindAlways holding (mild (Act.mild_observe _)) fun _ =>
        .valueAlways (fun _ holds => ⟨holds, holds⟩) holding holding
      refine .perform holding (fun r => holding.and (.onResult (fun _ => holding) r))
        fun l c x l' sane holds done => ?_
      obtain ⟨seen, saner, taken⟩ := step_moveToEnd key sane inside done
      have still : Holding t (key.row .memory) l' := by
        rw [Holding, taken]
        exact holds
      exact ⟨seen, saner, still, fun _ _ => still⟩

theorem triple_loadLocked (inside : k ≠ 0) :
    site.vault.Triple t n k (fun _ => True) (loadLocked key) (OnResult fun _ _ => True) := by
  refine .bind (triple_lookup key) fun found => ?_
  cases found with
  | none => exact .error _
  | some location =>
    have found := @settled_found site t n k key inside (some location)
    refine .bind ((triple_memoryGet key inside found fun l l' mildly holds =>
      holds.same mildly.sameMemory).pre fun l holds => holds inside) fun data => ?_
    cases data with
    | none => exact .error _
    | some data =>
      have holding := (@lasting_holding site.vault t n k (key.row .memory)).settled
      have there := found.and (settled_held key inside (some data))
      refine .bind (R := fun acquired l => acquired = true → Holding t (key.row .memory) l) ?_
        fun acquired => ?_
      · refine .perform there (Settled.onResult fun _ => .imp fun _ => holding)
          fun l c x l' sane holds done => ?_
        have live : site.vault.Live (key.row .memory) l := live_of_held (by rw [holds.2]; rfl)
        obtain ⟨seen, -, saner, pinned⟩ := step_pins (Act.pins_acquire key .memory) sane live
          (fun _ => inside) done
        exact ⟨seen, saner, fun a same yes => pinned (by rw [same, yes])⟩
      · cases acquired with
        | false => exact .error _
        | true =>
          refine Triple.thenDo ((triple_readAcquired key inside location).pre fun l holds => holds rfl)
            fun r => ?_
          exact (Triple.finishGuarded key "corrupt memory location remains active"
            (triple_evict key (.const True) (.const True) fun _ _ _ holds => holds) (.const True)
            (fun _ _ _ holds => holds) r).pre fun _ holds => ⟨trivial, holds⟩

theorem triple_load :
    site.vault.Triple t n k (fun _ => True) (load key) (OnResult fun _ _ => True) :=
  Triple.withMemoryLock (triple_loadLocked key (Nat.succ_ne_zero k)) (.const True)
    (fun _ _ _ holds => holds) (fun _ => .const _) (fun _ => .const _) fun _ _ _ _ holds => holds

/-! ## Storing -/

theorem triple_replay (inside : k ≠ 0) (data : Bytes) (m : KVMetadata) (existing : BlockLocation) :
    site.vault.Triple t n k (Found key (some existing)) (replay key data m existing)
      (OnResult fun _ _ => True) := by
  have found := @settled_found site t n k key inside (some existing)
  have kept : ∀ l l', Mildly l l' → Found key (some existing) l → Found key (some existing) l' :=
    fun l l' mildly holds => holds.same mildly.sameMemory
  refine .bind (triple_memoryGet key inside found kept) fun there => ?_
  cases there with
  | none => exact .error _
  | some held =>
    refine .computed fun _ _ => .bind ((Triple.looks (Act.mild_read _) found kept).results.pre
      fun _ holds => holds.1) fun persisted => .computed fun _ _ => .bind (R := fun _ _ => True) ?_ fun _ => ?_
    · refine .perform found (Settled.onResult fun _ => .const _) fun l c x l' sane holds done => ?_
      obtain ⟨shows, there⟩ := holds.some existing rfl
      obtain ⟨key', tier', current⟩ := shows.some existing rfl
      have moved := step_upsert sane (fun _ => inside) ?_ ?_ ?_ done
      · exact ⟨moved.1, moved.2.2, fun _ _ => trivial⟩
      · exact fun other same now => .inl (suspect_of_uri same now current)
      · have content := @vault_content site { existing with lastAccess := asNumber m.lastAccess }
          tier' l.world
        rw [content]
        intro missing
        rw [show existing.key = key from key'] at missing
        rw [Option.some.inj missing] at there
        cases there
      · exact @Vault.spelled site.vault existing _ rfl rfl rfl (sane.custody.standard existing current)
    · refine .perform (.const True) (Settled.onResult fun _ => .const _) fun l c x l' sane _ done => ?_
      obtain ⟨seen, saner, -⟩ := step_moveToEnd key sane inside done
      exact ⟨seen, saner, fun _ _ => trivial⟩

section Capacity

variable (exclude : BlockKey) (settled : site.vault.Settled t n k G)
  (deeper : site.vault.Settled t n (k + 1) G) (left : ∀ l l', l'.taken = l.taken → G l → G l')
include settled deeper left

theorem triple_evictOne (keys : List BlockKey) :
    site.vault.Triple t n k G (evictOne exclude keys) (OnResult fun _ => G) := by
  induction keys with
  | nil => exact .value (fun _ holds => holds) settled
  | cons key rest ih =>
    unfold evictOne
    split_ifs
    · exact ih
    · refine .bind (triple_evict key settled deeper left) fun removed => ?_
      cases removed with
      | true => exact .value (fun _ holds => holds) settled
      | false => exact ih

theorem triple_ensureCapacity (tier : MemoryTier) (incoming : Int) :
    site.vault.Triple t n k G (tier.ensureCapacity incoming exclude) (OnResult fun _ => G) := by
  have mild : ∀ {α : Type} {action : Act α}, action.Mild →
      site.vault.Triple t n k G (perform action) (OnResult fun _ => G) := fun kind =>
    (Triple.looks kind settled fun l l' mildly => left l l' mildly.taken).results
  have rounds : ∀ rounds, site.vault.Triple t n k G (tier.evictUntil incoming exclude rounds)
      (OnResult fun _ => G) := by
    intro rounds
    induction rounds with
    | zero => exact .bind (mild Act.mild_stuck) fun none => nomatch none
    | succ rounds ih =>
      refine .bind (mild (Act.mild_observe _)) fun used => ?_
      split_ifs
      · refine .bind (mild (Act.mild_observe _)) fun keys =>
          .bind (triple_evictOne exclude settled deeper left keys) fun evicted => ?_
        cases evicted with
        | true => exact ih
        | false => exact .error _
      · exact .value (fun _ holds => holds) settled
  unfold ensureCapacity
  split_ifs
  · exact .value (fun _ holds => holds) settled
  · exact .bind (mild (Act.mild_observe _)) fun keys => rounds _

end Capacity

theorem triple_publish (tier : MemoryTier) (inside : k ≠ 0) (data : Bytes) (m : KVMetadata) :
    site.vault.Triple t n k (Free (key.row .memory)) (tier.publish key data m)
      (OnResult fun _ _ => True) := by
  have free := @settled_free site t n k key inside
  have left : ∀ l l' : Ledger, l'.taken = l.taken → Free (key.row .memory) l →
      Free (key.row .memory) l' := fun l l' same holds u => by rw [same]; exact holds u
  have look : site.vault.Triple t n k (Free (key.row .memory)) (perform (Act.memoryGet key))
      (OnResult fun _ => Free (key.row .memory)) :=
    (Triple.looks (Act.mild_observe _) free fun l l' mildly => mildly.free).results
  have popped := (triple_pop key inside free free left fun _ _ holds => holds).anyway.results
  have put : ∀ data, site.vault.Triple t n k (Free (key.row .memory)) (perform (Act.memoryPut key data))
      (OnResult fun _ l => Free (key.row .memory) l ∧ Act.held key l.world.memory = some data) := by
    intro data
    refine .perform free (Settled.onResult fun _ => free.and (settled_held key inside _))
      fun l c x l' sane holds done => ?_
    obtain ⟨seen, saner, taken, there⟩ := step_put key data sane inside holds done
    exact ⟨seen, saner, fun _ _ => ⟨left l l' taken holds, there⟩⟩
  have restored : ∀ previous, site.vault.Triple t n k (Free (key.row .memory)) (restore key previous)
      (OnResult fun _ _ => True) := by
    intro previous
    refine .bind popped fun _ => ?_
    cases previous with
    | none => exact .value (fun _ _ => trivial) (.const _)
    | some old => exact (put old).weaken (fun _ holds => holds) fun _ _ _ _ _ => trivial
  have committed : site.vault.Triple t n k
      (fun l => Free (key.row .memory) l ∧ Act.held key l.world.memory = some data)
      (perform (Act.upsert (locationFor key m (sha256Hex data) data.length) m))
      fun _ => Free (key.row .memory) := by
    refine .perform (free.and (settled_held key inside _)) (fun _ => free)
      fun l c x l' sane holds done => ?_
    have moved := step_upsert sane (fun _ => inside) ?_ ?_ (fun wrong => by cases wrong) done
    · exact ⟨moved.1, moved.2.2, left l l' moved.2.1.taken holds.1⟩
    · exact fun other _ _ => .inr fun u _ => holds.1 u
    · rw [vault_content rfl]
      intro missing
      have there : Act.held key l.world.memory = none := Option.some.inj missing
      rw [holds.2] at there
      cases there
  refine .bind look fun there => .bind (triple_ensureCapacity key free
    (settled_free key (Nat.succ_ne_zero k)) left tier _) fun _ => .bind look fun previous => ?_
  have written : site.vault.Triple t n k (Free (key.row .memory)) (placement key data m previous)
      (OnResult fun _ _ => True) := by
    refine .bind (put data) fun _ => committed.thenDo fun r => ?_
    cases r with
    | ok _ => exact .value (fun _ _ => trivial) (.const _)
    | error e => exact .bind (restored previous) fun _ => .error e
  dsimp only
  split_ifs
  · exact .bind popped fun _ => written
  · exact written

theorem triple_storeLocked (tier : MemoryTier) (inside : k ≠ 0) (data : Bytes) (m : KVMetadata) :
    site.vault.Triple t n k (fun _ => True) (tier.storeLocked key data m) (OnResult fun _ _ => True) := by
  refine .bind (.glances (Act.mild_observe _)) fun now => .computed fun _ _ =>
    .bind (.glances (Act.mild_validatePayloadDescriptor _)) fun _ =>
    .bind (triple_lookup key) fun found => ?_
  cases found with
  | some existing =>
    exact (triple_replay key inside data _ existing).pre fun _ holds => holds inside
  | none =>
    exact (triple_publish key tier inside data _).pre fun _ holds => (holds inside).none rfl

theorem triple_store (tier : MemoryTier) (data : Bytes) (m : KVMetadata) :
    site.vault.Triple t n k (fun _ => True) (tier.store key data m) (OnResult fun _ _ => True) :=
  .computed fun _ _ => .computed fun _ _ => .bind (Triple.withMemoryLock
    (triple_storeLocked key tier (Nat.succ_ne_zero k) data m) (.const True)
    (fun _ _ _ holds => holds) (fun _ => .const _) (fun _ => .const _) fun _ _ _ _ holds => holds)
    fun _ => .value (fun _ _ => trivial) (.const _)

end MemoryTier

end AiStorage.KV
