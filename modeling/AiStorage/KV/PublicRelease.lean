import AiStorage.KV.Orderly

/-!
# The public release

Calls of the multi-tier store by any number of threads. `release` gives back pins of every tier
without having taken one.
-/
namespace AiStorage.KV
open Lib Prog MetadataStore Vault

/-! ## Threads -/

/-- The public operations of the multi-tier store, and compaction. -/
inductive StoreCall where
  | lookup (key : BlockKey)
  | locations (key : BlockKey)
  | store (key : BlockKey) (data : Bytes) (m : KVMetadata) (preferred : Option TierName)
  | load (key : BlockKey) (target : TierName) (sloBudgetMs : Option ℚ)
  | prefetch (keys : List BlockKey) (target : TierName)
  | evict (key : BlockKey) (tier : Option TierName)
  | promote (key : BlockKey) (target : TierName)
  | demote (key : BlockKey) (source target : TierName)
  | compact (compactionId : Nat) (dryRun : Bool)
  | release (key : BlockKey)

def discard {α : Type} (p : Py α) : Py Unit := do
  let _ ← p
  return ()

namespace StoreCall

def program (store : MultiTier) : StoreCall → Py Unit
  | lookup key => discard (store.lookup key)
  | locations key => discard (store.locations key)
  | .store key data m preferred => discard (store.put key data m preferred)
  | load key target sloBudgetMs => discard (store.load key target sloBudgetMs)
  | prefetch keys target => store.prefetch keys target
  | evict key tier => discard (store.evict key tier)
  | promote key target => discard (store.promote key target)
  | demote key source target => discard (store.demote key source target)
  | compact compactionId dryRun => store.compact compactionId dryRun
  | release key => store.release key

def isRelease : StoreCall → Bool
  | release _ => true
  | _ => false

theorem orderly (store : MultiTier) {call : StoreCall} (other : call.isRelease = false) :
    store.site.vault.Orderly (call.program store) := by
  have plain : ∀ {α : Type} {p : Py α}, store.site.vault.Orderly p →
      store.site.vault.Orderly (discard p) := fun first => first.bind fun _ => .ret _
  cases call with
  | lookup key => exact plain (store.orderly_lookup key)
  | locations key => exact plain (store.orderly_locations key)
  | store key data m preferred => exact plain (store.orderly_put key data m preferred)
  | load key target sloBudgetMs => exact plain (store.orderly_load key target sloBudgetMs)
  | prefetch keys target => exact store.orderly_prefetch keys target
  | evict key tier => exact plain (store.orderly_evict key tier)
  | promote key target => exact plain (store.orderly_promote key target)
  | demote key source target => exact plain (store.orderly_demote key source target)
  | compact compactionId dryRun => exact store.orderly_compact compactionId dryRun
  | release key => cases other

end StoreCall

/-- The process ends, and another one opens the same database, files and objects. -/
def Ledger.restart (epoch : Text) (l : Ledger) : Ledger where
  world := { l.world with
    store := l.world.store.reopen epoch
    memory := []
    usedBytes := 0
    mutation := none
    memoryLock := none }
  taken _ _ := 0

def shared (store : MultiTier) : System StoreCall Act PyError Unit Ledger Choice Text where
  device := auditing
  program := StoreCall.program store
  enter t l := l.enter t
  restart := Ledger.restart

namespace Vault

variable {V : Vault} {t : Nat} {l : Ledger}

theorem Custody.enter (custody : V.Custody l) (t : Nat) : V.Custody (l.enter t) where
  balanced := custody.balanced.enter t
  standard := custody.standard
  proper := custody.proper
  housed u location held := by
    by_cases here : u = t
    · subst here
      have none : (l.enter u).taken u location.id = 0 := by simp [Ledger.enter]
      rw [none] at held
      exact absurd held (lt_irrefl 0)
    · refine custody.housed u location ?_
      have same : (l.enter t).taken u = l.taken u := Function.update_of_ne here _ _
      rw [← same]
      exact held

theorem Custody.restart (custody : V.Custody l) (epoch : Text) : V.Custody (l.restart epoch) where
  balanced := {
    trusted := ((Change.reopen l.world.store epoch).trusted custody.balanced.trusted).1
    nonneg := fun _ _ => le_refl 0
    covered := fun id threads => by simp [Ledger.restart] }
  standard location current := by
    refine custody.standard location ?_
    unfold BlockLocation.Current at current ⊢
    rw [← place_reopen l.world.store epoch]
    exact current
  proper := custody.proper
  housed _ _ held := absurd held (lt_irrefl 0)

theorem Respects.enter (custody : V.Custody l) {u : Nat} (apart : u ≠ t) :
    V.Respects u l (l.enter t) where
  custody _ := custody.enter t
  own := Function.update_of_ne apart _ _
  lost _ _ lost := lost
  shown _ _ _ shown := shown
  mutation := .unchanged ⟨rfl, rfl, rfl, custody.balanced.enter_le t⟩
  memory := .unchanged ⟨rfl, fun _ _ => rfl, fun v id _ => custody.balanced.enter_le t v id⟩

end Vault

/-- What the threads rely on; any step may fail in any way. -/
def sharing (store : MultiTier) : Discipline (shared store) where
  allowed _ := True
  rely := store.site.vault.Respects
  invariant := store.site.vault.Custody
  idle t l := RLock.Depth t 0 l.world.mutation ∧ RLock.Depth t 0 l.world.memoryLock
  lawless call := call.isRelease = true
  post t _ _ l := RLock.Depth t 0 l.world.mutation ∧ RLock.Depth t 0 l.world.memoryLock
  rely_refl t l := .refl _ t l
  rely_trans _ _ _ _ first second := first.trans second
  idle_stable _ _ _ respects idle := ⟨(respects.mutation 0 idle.1).1, (respects.memory 0 idle.2).1⟩
  enter_keeps t _ custody idle := ⟨custody.enter t, idle, fun _ apart => .enter custody apart⟩
  restart_keeps epoch _ custody :=
    ⟨custody.restart epoch, fun t => ⟨RLock.depth_none t, RLock.depth_none t⟩⟩
  post_idle _ _ _ _ idle := idle

theorem sharing_respected (store : MultiTier) : (sharing store).Respected := by
  intro t call l bound custody idle
  have orderly := StoreCall.orderly store (by simpa [sharing] using bound : call.isRelease = false)
  exact (orderly t 0 0 (l.enter t) ⟨custody.enter t, idle.1, idle.2⟩ trivial).weaken
    fun _ _ after => ⟨after.1.mutation, after.1.memory⟩

/-! ## Releases that lower no counter -/

/-- A step of a public release finds the row that it releases without pins, or it fails. -/
def Spares (m : Machine StoreCall Act PyError Unit Ledger) : Event StoreCall Choice Text → Prop
  | .step t c => ∀ key item rest,
      m.running t = some (.release key, MultiTier.releaseFrom key (item :: rest)) →
      m.state.world.store.pins (key.row item.name) = 0 ∨ c.dbFails = true ∨
        m.state.world.store.closed = true
  | _ => True

section Release

variable {key : BlockKey} {tier : TierName} {t : Nat} {c : Choice} {w w' : World}
  {x : Except PyError Unit}

theorem pins_of_spared (done : Act.release key tier t c w = some (x, w')) (trusted : w.store.Trusted)
    (spared : w.store.pins (key.row tier) = 0 ∨ c.dbFails = true ∨ w.store.closed = true) :
    w'.store.pins = w.store.pins := by
  rcases spared with none | fails | closed
  · obtain ⟨-, -, -, same | less⟩ := (Act.unpins_release key tier).keeps t c w x w' done trusted
    · exact same
    · rw [less, countAfter, none]
      exact (congrArg _ none.symm).trans (Function.update_eq_self ..)
  · rcases Act.database_some done with ⟨-, -, rfl⟩ | ⟨answers, -⟩
    · rfl
    · rw [fails] at answers
      cases answers
  · rcases Act.database_some done with ⟨-, -, rfl⟩ | ⟨-, ran, -⟩
    · rfl
    · change w.store.release key tier = _ at ran
      rw [release, if_pos closed] at ran
      rw [(Prod.mk.inj ran).2]

/-- Otherwise the release lowers the counter. -/
theorem pins_lt_of_not_spared (done : Act.release key tier t c w = some (x, w'))
    (trusted : w.store.Trusted)
    (unspared : ¬(w.store.pins (key.row tier) = 0 ∨ c.dbFails = true ∨ w.store.closed = true)) :
    w'.store.pins (key.row tier) < w.store.pins (key.row tier) := by
  obtain ⟨pinned, answers, opened⟩ : w.store.pins (key.row tier) ≠ 0 ∧ ¬c.dbFails = true ∧
      ¬w.store.closed = true := by simpa using unspared
  rcases Act.database_some done with ⟨fails, -⟩ | ⟨-, ran, -⟩
  · exact absurd fails answers
  · change w.store.release key tier = _ at ran
    rcases w.store.release_cases key tier with ⟨-, closed | foreign⟩ | ⟨row, member, here, own, freed⟩
    · exact absurd closed opened
    · refine absurd ?_ pinned
      unfold pins
      cases found : w.store.blocks.find (key.row tier) with
      | none => rfl
      | some row =>
        obtain ⟨member, here⟩ := Table.find_eq_some_iff.mp found
        simp [effective, foreign row member here]
    · obtain ⟨-, count⟩ := (Change.unpin member own).trusted trusted
      rw [freed] at ran
      rw [← (Prod.mk.inj ran).2, count, here, countAfter, Function.update_self]
      omega

end Release

/-- What is left of a public release: tiers to go, or its result. -/
def Releasing (m : Machine StoreCall Act PyError Unit Ledger) : Prop :=
  ∀ t call p, m.running t = some (call, p) → ∀ key, call = .release key →
    (∃ tiers, p = MultiTier.releaseFrom key tiers) ∨ ∃ r, p = .ret r

variable {store : MultiTier} {m : Machine StoreCall Act PyError Unit Ledger}

theorem Releasing.step (releasing : Releasing m) (event : Event StoreCall Choice Text) :
    Releasing ((shared store).step m event) := by
  refine @System.step_running _ _ _ _ _ _ _ (shared store) (fun call p => ∀ key, call = .release key →
    (∃ tiers, p = MultiTier.releaseFrom key tiers) ∨ ∃ r, p = .ret r) event
    (fun _ call _ key same => ?_) (fun call β a next x before _ key same => ?_) m releasing
  · subst same
    exact .inl ⟨store.lookupOrder, rfl⟩
  · rcases before key same with ⟨tiers, left⟩ | ⟨r, ended⟩
    · cases tiers with
      | nil => cases left
      | cons item rest =>
        cases left
        cases x with
        | ok u => exact .inl ⟨rest, rfl⟩
        | error e => exact .inr ⟨_, rfl⟩
    · cases ended

/-- A step of a public release that lowers no counter is one that the others rely on. -/
theorem Spares.quietly (releasing : Releasing m) (good : (sharing store).Good m) {t : Nat} {c : Choice}
    (spares : Spares m (.step t c)) {call : StoreCall} {p : Py Unit}
    (busy : m.running t = some (call, p)) (free : call.isRelease = true) :
    (sharing store).Seen t m.state ((shared store).step m (.step t c)).state ∧
      (sharing store).idle t ((shared store).step m (.step t c)).state ∧
      ((shared store).step m (.step t c)).state.taken = m.state.taken := by
  have idle := good.lawless t call p busy free
  have same : (sharing store).Seen t m.state m.state :=
    ⟨good.invariant, fun u _ => Respects.refl _ u _⟩
  cases call with
  | release key =>
    rcases releasing t _ p busy key rfl with ⟨- | ⟨item, rest⟩, rfl⟩ | ⟨r, rfl⟩
    · change m.running t = some (_, .ret _) at busy
      simp only [System.step, busy]
      exact ⟨same, idle, trivial⟩
    · have spared := spares key item rest busy
      change m.running t = some (_, .act (Act.release key item.name) _) at busy
      simp only [System.step, busy]
      cases done : (shared store).device.exec t (Act.release key item.name) c m.state with
      | none => exact ⟨same, idle, rfl⟩
      | some result =>
        obtain ⟨x, l'⟩ := result
        obtain ⟨w, ran, rfl⟩ := auditing_some done
        have custody : store.site.vault.Custody m.state := good.invariant
        obtain ⟨shape, trusted, place, -⟩ := (Act.unpins_release key item.name).keeps t c
          m.state.world x w ran custody.balanced.trusted
        obtain ⟨seen, mildly, saner⟩ := @seen_unmoved store.site.vault _ _ t 0 0
          ⟨custody, idle.1, idle.2⟩ shape trusted
          (pins_of_spared ran custody.balanced.trusted spared) place
        exact ⟨seen, ⟨saner.mutation, saner.memory⟩, mildly.taken⟩
    · simp only [System.step, busy]
      exact ⟨same, idle, trivial⟩
  | _ => cases free

variable {event : Event StoreCall Choice Text}

theorem Spares.admits (releasing : Releasing m) (good : (sharing store).Good m)
    (spares : Spares m event) :
    (sharing store).Admits m event := by
  cases event with
  | start t call => trivial
  | restart epoch => trivial
  | step t c =>
    refine ⟨trivial, fun call p busy free => ?_⟩
    obtain ⟨seen, idle, -⟩ := Spares.quietly releasing good spares busy free
    exact ⟨seen, idle⟩

def Unheld (m : Machine StoreCall Act PyError Unit Ledger) : Prop :=
  ∀ t call p, m.running t = some (call, p) → call.isRelease = true → ∀ id, m.state.taken t id = 0

theorem Unheld.step (unheld : Unheld m) (releasing : Releasing m) (good : (sharing store).Good m)
    (spares : Spares m event) :
    Unheld ((shared store).step m event) := by
  intro t call p there free id
  by_cases acts : event.thread = some t
  · cases event with
    | restart epoch => cases acts
    | start u started =>
      cases acts
      simp only [System.step] at there ⊢
      cases busy : m.running t with
      | some other => exact unheld t call p (by simpa [busy] using there) free id
      | none =>
        change (m.state.enter t).taken t id = 0
        simp [Ledger.enter]
    | step u c =>
      cases acts
      obtain ⟨before, busy⟩ := System.running_own there
      rw [(Spares.quietly releasing good spares busy free).2.2]
      exact unheld t call before busy free id
  · have before := System.running_other acts there
    have own : ((shared store).step m event).state.taken t = m.state.taken t := by
      cases other : event.thread with
      | none =>
        cases event with
        | restart epoch => cases there
        | start | step => cases other
      | some u =>
        have apart : t ≠ u := fun same => acts (by rw [other, same])
        exact ((good.seen (Spares.admits releasing good spares) other).2 t apart).own
    rw [own]
    exact unheld t call p before free id

def startsRelease : Event StoreCall Choice Text → Bool
  | .start _ call => call.isRelease
  | _ => false

theorem along_spares {schedule : List (Event StoreCall Choice Text)}
    (quiet : ∀ event ∈ schedule, startsRelease event = false)
    (before : ∀ t call p, m.running t = some (call, p) → call.isRelease = false) :
    Along (shared store).step Spares m schedule := by
  induction schedule generalizing m with
  | nil => trivial
  | cons event rest ih =>
    obtain ⟨first, later⟩ := List.forall_mem_cons.mp quiet
    refine ⟨?_, ih later (System.step_running (P := fun (call : StoreCall) _ => call.isRelease = false)
      (fun t call same => by rw [same] at first; exact first) (fun _ _ _ _ _ same _ => same) before)⟩
    cases event with
    | start t call => trivial
    | restart epoch => trivial
    | step t c =>
      intro key item tiers busy
      cases before t _ _ busy

/-- A process starts on an empty database; files and objects may be there already. -/
structure World.Fresh (w : World) : Prop where
  store : ∃ epoch, w.store = .create epoch
  names : ∀ path, (w.files.get path).isSome = true → path.Resolved
  mutation : w.mutation = none
  memoryLock : w.memoryLock = none

def Ledger.initial (w : World) : Ledger := ⟨w, fun _ _ => 0⟩

theorem World.Fresh.custody {w : World} (fresh : w.Fresh) (V : Vault) : V.Custody (.initial w) := by
  obtain ⟨epoch, store⟩ := fresh.store
  have nowhere : ∀ id, w.store.place id = none := fun id => by rw [store]; rfl
  refine ⟨⟨?_, fun _ _ => le_refl 0, fun id threads => by simp [Ledger.initial]⟩, fun location current => ?_,
    fresh.names, fun _ _ held => absurd held (lt_irrefl 0)⟩
  · have exact := exact_create epoch
    change w.store.Trusted
    rw [store]
    exact ⟨sound_create epoch, by rw [exact.pins_eq]; exact exact⟩
  · have place : w.store.place location.id = _ := current
    rw [nowhere] at place
    cases place

theorem good_of_spares {w : World} (fresh : w.Fresh) {schedule : List (Event StoreCall Choice Text)}
    (spares : Along (shared store).step Spares (System.boot (.initial w)) schedule) :
    Releasing (run (shared store).step (System.boot (.initial w)) schedule) ∧
      (sharing store).Good (run (shared store).step (System.boot (.initial w)) schedule) ∧
      Unheld (run (shared store).step (System.boot (.initial w)) schedule) := by
  refine spares.invariant (fun m => Releasing m ∧ (sharing store).Good m ∧ Unheld m)
    (fun m event holds fits => ⟨holds.1.step event, holds.2.1.step (sharing_respected store)
      (Spares.admits holds.1 holds.2.1 fits), holds.2.2.step holds.1 holds.2.1 fits⟩)
    ⟨fun t call p there => (by cases there), Discipline.good_boot (fresh.custody _) fun t => ?_,
      fun t call p there => (by cases there)⟩
  exact ⟨(congrArg (RLock.Depth t 0) fresh.mutation).mpr (RLock.depth_none t),
    (congrArg (RLock.Depth t 0) fresh.memoryLock).mpr (RLock.depth_none t)⟩

/-- A release that lowers a counter takes back what it never took. -/
theorem overdrawn_of_not_spares (good : (sharing store).Good m) (unheld : Unheld m)
    (lowers : ¬Spares m event) : ∃ t id, ((shared store).step m event).state.taken t id < 0 := by
  cases event with
  | start t call => exact absurd trivial lowers
  | restart epoch => exact absurd trivial lowers
  | step t c =>
    simp only [Spares, not_forall] at lowers
    obtain ⟨key, item, rest, busy, unspared⟩ := lowers
    refine ⟨t, key.row item.name, ?_⟩
    have none := unheld t _ _ busy rfl (key.row item.name)
    have custody : store.site.vault.Custody m.state := good.invariant
    obtain ⟨x, w, ran⟩ : ∃ x w, Act.release key item.name t c m.state.world = some (x, w) := by
      unfold Act.release Act.database
      split <;> exact ⟨_, _, rfl⟩
    change m.running t = some (_, .act (Act.release key item.name) _) at busy
    have done : (shared store).device.exec t (Act.release key item.name) c m.state =
        some (x, m.state.record t w) := congrArg (Option.map _) ran
    have lower := pins_lt_of_not_spared ran custody.balanced.trusted unspared
    simp only [System.step, busy, done, Ledger.taken_record]
    omega

/-- In every run in which public releases find no pins or fail, every call gives back only pins
that it took; any other step of a public release gives back one that it did not take. While a
call has a pin on a row, the counter is positive, the row is active and its payload is there, it
is neither deleted nor tombstoned nor a candidate for eviction or compaction, and no step of
another thread moves the row or changes the payload. -/
theorem public_release_spares_readers (store : MultiTier) {w : World} (fresh : w.Fresh)
    {schedule : List (Event StoreCall Choice Text)}
    (spares : Along (shared store).step Spares (System.boot (.initial w)) schedule) :
    let m := run (shared store).step (System.boot (.initial w)) schedule
    let s := m.state.world.store
    (∀ t id, 0 ≤ m.state.taken t id) ∧
    (∀ event, ¬Spares m event → ∃ t id, ((shared store).step m event).state.taken t id < 0) ∧
    ∀ t key tier, 0 < m.state.taken t (key.row tier) →
      0 < s.pins (key.row tier) ∧ (∃ uri, s.place (key.row tier) = some (.active, uri)) ∧
      (s.delete key tier).2 = s ∧ (s.beginDelete key tier).2 = s ∧
      (∀ now limit locations, s.lruCandidates now tier limit = .ok locations →
        ∀ location ∈ locations, location.key ≠ key) ∧
      (∀ now entries, s.tierEntries now tier false = .ok entries →
        ∀ entry ∈ entries, entry.1.key ≠ key) ∧
      ∀ location : BlockLocation, location.key = key → location.tier = tier →
        ¬store.site.vault.Lost location m.state.world ∧
        ∀ bytes, store.site.vault.Shown location bytes m.state.world →
          ∀ event u, event.thread = some u → u ≠ t → Spares m event →
            store.site.vault.Shown location bytes ((shared store).step m event).state.world := by
  intro m s
  obtain ⟨releasing, good, unheld⟩ := good_of_spares fresh spares
  have custody : store.site.vault.Custody m.state := good.invariant
  refine ⟨custody.balanced.nonneg, fun _ lowers => overdrawn_of_not_spares good unheld lowers,
    fun t key tier held => ?_⟩
  have covered := custody.balanced.held_le t (key.row tier)
  have positive : 0 < s.pins (key.row tier) := by
    change 0 < m.state.world.store.pins (key.row tier)
    omega
  have trusted : s.Trusted := custody.balanced.trusted
  obtain ⟨undeleted, unburied, row, member, here, active⟩ := trusted.exact.refuses positive
  -- a listed row has no pins
  have unlisted : ∀ {other : Row} {location : BlockLocation}, other ∈ s.evictable tier →
      Names other location → location.key ≠ key := by
    intro other location listed names same
    have none := pins_of_evictable listed
    rw [names.id, (mem_evictable.mp listed).2.1, same] at none
    omega
  refine ⟨positive, ⟨row.uri, ?_⟩, undeleted, unburied, ?_, ?_, ?_⟩
  · rw [← here, place_of_mem member, active]
  · intro now limit locations listed location inside
    obtain ⟨other, evictable, names⟩ := lruCandidates_names trusted.sound listed inside
    exact unlisted evictable names
  · intro now entries listed entry inside
    obtain ⟨other, evictable, names⟩ := tierEntries_names trusted.sound listed inside
    exact unlisted evictable names
  · rintro location rfl rfl
    refine ⟨custody.housed t location held, fun bytes shown event u acts apart fits => ?_⟩
    have seen := good.seen (Spares.admits releasing good fits) acts
    have respects : store.site.vault.Respects t m.state ((shared store).step m event).state :=
      seen.2 t (Ne.symm apart)
    exact respects.shown location bytes held shown

def fileTiers : MultiTier where
  tiers := [.nvme sampleNVMe]
  nonempty := by decide
  unique := by decide
  costModel := { profiles := fun _ => none }

def calmSteps (t count : Nat) : List (Event StoreCall Choice Text) :=
  List.replicate count (.step t calmChoice)

/-- A block is stored and loaded, up to the point where the load has its pin. -/
def reading : List (Event StoreCall Choice Text) :=
  .start 0 (.store sampleKey [1, 2, 3] sampleMetadata none) :: calmSteps 0 40 ++
    .start 0 (.load sampleKey .nvme none) :: calmSteps 0 5

def evicting (t : Nat) : List (Event StoreCall Choice Text) :=
  .start t (.evict sampleKey none) :: calmSteps t 5

/-- A release that finds no pins comes first. -/
def releasedBefore : List (Event StoreCall Choice Text) :=
  .start 2 (.release sampleKey) :: calmSteps 2 2 ++ (reading ++ evicting 1)

theorem reading_survives_eviction :
    let m := run (shared fileTiers).step (System.boot (.initial emptyWorld)) releasedBefore
    m.state.taken 0 (sampleKey.row .nvme) = 1 ∧
      ∃ uri, m.state.world.store.place (sampleKey.row .nvme) = some (.active, uri) := by
  have fresh : emptyWorld.Fresh := ⟨⟨_, rfl⟩, nofun, rfl, rfl⟩
  have spares : Along (shared fileTiers).step Spares (System.boot (.initial emptyWorld))
      releasedBefore := by
    refine ⟨trivial, fun _ _ _ _ => .inl rfl, fun _ _ _ _ => .inl rfl,
      along_spares (by decide) fun t call p there => ?_⟩
    by_cases own : t = 2
    · subst own
      cases there
    · have apart : some 2 ≠ some t := fun same => own (Option.some.inj same).symm
      have second := System.running_other (by exact apart) there
      have first := System.running_other (by exact apart) second
      cases System.running_other (by exact apart) first
  have held : (run (shared fileTiers).step (System.boot (.initial emptyWorld))
      releasedBefore).state.taken 0 (sampleKey.row .nvme) = 1 := by decide +kernel
  exact ⟨held, ((public_release_spares_readers fileTiers fresh spares).2.2 0 sampleKey .nvme
    (by rw [held]; decide)).2.1⟩

/-- Another caller's release takes the reader's pin away: the row and the file are removed under
the load, which then fails. -/
theorem public_release_unpins_reader :
    let released := run (shared fileTiers).step (System.boot (.initial emptyWorld))
      (reading ++ .start 1 (.release sampleKey) :: calmSteps 1 1 ++ evicting 2)
    let ended := run (shared fileTiers).step released (calmSteps 0 20)
    (released.state.taken 0 (sampleKey.row .nvme) = 1 ∧
      released.state.taken 1 (sampleKey.row .nvme) = -1 ∧
      released.state.world.store.pins (sampleKey.row .nvme) = 0 ∧
      released.state.world.store.place (sampleKey.row .nvme) = none ∧
      released.state.world.files.rows = []) ∧
    ended.finished.head?.map (fun call => (call.thread, call.result.isOk)) = some (0, false) := by
  decide +kernel

end AiStorage.KV
