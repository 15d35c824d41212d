import AiStorage.KV.PublicRelease

/-!
# The LRU controller

`evict_bytes` lists idle rows and evicts them later, while other threads load and store. A block
that somebody reads by then stays where it is.
-/
namespace AiStorage.KV
open Lib Prog MetadataStore Vault

structure EvictionResult where
  tier : TierName
  requestedBytes : Int
  evictedBlocks : Nat
  evictedBytes : Int
  stillOverBytes : Int

def evictBatch (item : Tier) (bytesToFree : Int) : List BlockLocation → Nat × Int → Py (Nat × Int)
  | [], evicted => return evicted
  | loc :: rest, (blocks, bytes) => do
    if ← item.evict loc.key then
      if bytes + loc.bytes ≥ bytesToFree then return (blocks + 1, bytes + loc.bytes)
      else evictBatch item bytesToFree rest (blocks + 1, bytes + loc.bytes)
    else evictBatch item bytesToFree rest (blocks, bytes)

/-- The `while` loop, for at most `fuel` batches: beside other threads it need not end. -/
def evictRounds (item : Tier) (bytesToFree : Int) (batchSize : Nat) :
    Nat → Nat × Int → Py (Nat × Int)
  | 0, evicted => return evicted
  | fuel + 1, evicted => do
    if evicted.2 ≥ bytesToFree then return evicted
    let candidates ← perform (Act.lruCandidates item.name batchSize)
    let after ← evictBatch item bytesToFree candidates evicted
    -- no candidates, or not `progressed`
    if after.1 = evicted.1 then return after
    evictRounds item bytesToFree batchSize fuel after

def evictBytes (store : MultiTier) (tier : TierName) (bytesToFree : Int) (batchSize fuel : Nat) :
    Py EvictionResult :=
  if bytesToFree ≤ 0 then return ⟨tier, bytesToFree, 0, 0, 0⟩
  else
    match store.tier? tier with
    | none => return ⟨tier, bytesToFree, 0, 0, bytesToFree⟩
    | some item => do
      let evicted ← evictRounds item bytesToFree batchSize fuel (0, 0)
      return ⟨tier, bytesToFree, evicted.1, evicted.2, max (bytesToFree - evicted.2) 0⟩

section Orderly

variable {site : Site} {item : Tier} (here : item.At site) (bytesToFree : Int)
include here

theorem orderly_evictBatch (candidates : List BlockLocation) (evicted : Nat × Int) :
    site.vault.Orderly (evictBatch item bytesToFree candidates evicted) := by
  induction candidates generalizing evicted with
  | nil => exact .ret _
  | cons loc rest ih =>
    refine (Tier.orderly_evict here loc.key).bind fun removed => ?_
    cases removed with
    | false => exact ih _
    | true =>
      rw [if_pos rfl]
      split_ifs
      · exact .ret _
      · exact ih _

theorem orderly_evictRounds (batchSize fuel : Nat) (evicted : Nat × Int) :
    site.vault.Orderly (evictRounds item bytesToFree batchSize fuel evicted) := by
  induction fuel generalizing evicted with
  | zero => exact .ret _
  | succ fuel ih =>
    unfold evictRounds
    split_ifs
    · exact .ret _
    · refine (Orderly.mild (Act.mild_read _)).bind fun candidates => ?_
      refine (orderly_evictBatch here bytesToFree candidates evicted).bind fun after => ?_
      split_ifs
      · exact .ret _
      · exact ih _

end Orderly

/-- A call of the controller, or one of the store other than `release`. -/
inductive ControlledCall where
  | evictBytes (tier : TierName) (bytesToFree : Int) (batchSize fuel : Nat)
  | store (call : StoreCall) (other : call.isRelease = false)

def ControlledCall.program (store : MultiTier) : ControlledCall → Py Unit
  | evictBytes tier bytesToFree batchSize fuel =>
    discard (KV.evictBytes store tier bytesToFree batchSize fuel)
  | .store call _ => call.program store

theorem ControlledCall.orderly (store : MultiTier) (call : ControlledCall) :
    store.site.vault.Orderly (call.program store) := by
  cases call with
  | store call other => exact StoreCall.orderly store other
  | evictBytes tier bytesToFree batchSize fuel =>
    refine Orderly.bind ?_ fun _ => .ret _
    unfold KV.evictBytes
    split_ifs
    · exact .ret _
    · cases found : store.tier? tier with
      | none => exact .ret _
      | some item =>
        exact (orderly_evictRounds (MultiTier.at_site found) _ _ _ _).bind fun _ => .ret _

def controlled (store : MultiTier) : System ControlledCall Act PyError Unit Ledger Choice Text :=
  { shared store with program := ControlledCall.program store }

def controlling (store : MultiTier) : Discipline (controlled store) :=
  { sharing store with
    lawless := fun _ => False
    post := fun t _ _ => (sharing store).idle t
    post_idle := fun _ _ _ _ idle => idle }

theorem controlling_respected (store : MultiTier) : (controlling store).Respected := by
  intro t call l _ custody idle
  exact (call.orderly store t 0 0 (l.enter t) ⟨custody.enter t, idle.1, idle.2⟩ trivial).weaken
    fun _ _ after => ⟨after.1.mutation, after.1.memory⟩

theorem controlling_admits {store : MultiTier} (m : Machine ControlledCall Act PyError Unit Ledger)
    (event : Event ControlledCall Choice Text) : (controlling store).Admits m event := by
  cases event with
  | start | restart => trivial
  | step t c => exact ⟨trivial, fun _ _ _ free => free.elim⟩

/-- Whatever the controller evicts and whenever, a row that a call has pinned stays active, its
payload stays, and no step of another thread changes it. -/
theorem controller_spares_readers (store : MultiTier) {w : World} (fresh : w.Fresh)
    (schedule : List (Event ControlledCall Choice Text)) :
    let m := run (controlled store).step (System.boot (.initial w)) schedule
    ∀ t (location : BlockLocation), 0 < m.state.taken t location.id →
      (∃ uri, m.state.world.store.place location.id = some (.active, uri)) ∧
      ¬store.site.vault.Lost location m.state.world ∧
      ∀ bytes, store.site.vault.Shown location bytes m.state.world →
        ∀ event u, event.thread = some u → u ≠ t →
          store.site.vault.Shown location bytes ((controlled store).step m event).state.world := by
  intro m t location held
  have good : (controlling store).Good m := by
    refine run_invariant (controlling store).Good (fun m event good =>
      good.step (controlling_respected store) (controlling_admits m event)) ?_ schedule
    exact Discipline.good_boot (fresh.custody _) fun t =>
      ⟨(congrArg (RLock.Depth t 0) fresh.mutation).mpr (RLock.depth_none t),
        (congrArg (RLock.Depth t 0) fresh.memoryLock).mpr (RLock.depth_none t)⟩
  have custody : store.site.vault.Custody m.state := good.invariant
  have covered := custody.balanced.held_le t location.id
  have positive : 0 < m.state.world.store.pins location.id := by omega
  obtain ⟨-, -, row, member, here, active⟩ := custody.balanced.trusted.exact.refuses positive
  refine ⟨⟨row.uri, ?_⟩, custody.housed t location held, ?_⟩
  · rw [BlockLocation.id, ← here, place_of_mem member, active]
  · intro bytes shown event u acts apart
    have respects : store.site.vault.Respects t m.state ((controlled store).step m event).state :=
      (good.seen (controlling_admits m event) acts).2 t (Ne.symm apart)
    exact respects.shown location bytes held shown

def listedThenLoaded : List (Event ControlledCall Choice Text) :=
  .start 0 (.store (.store sampleKey [1, 2, 3] sampleMetadata none) rfl) ::
    List.replicate 40 (.step 0 calmChoice) ++
  .start 1 (.evictBytes .nvme 1 1 1) :: .step 1 calmChoice ::
  .start 0 (.store (.load sampleKey .nvme none) rfl) :: List.replicate 5 (.step 0 calmChoice) ++
    List.replicate 9 (.step 1 calmChoice)

theorem listedThenLoaded_spared :
    ∃ uri, (run (controlled fileTiers).step (System.boot (.initial emptyWorld))
      listedThenLoaded).state.world.store.place sampleLocation.id = some (.active, uri) :=
  (controller_spares_readers (w := emptyWorld) fileTiers ⟨⟨_, rfl⟩, nofun, rfl, rfl⟩
    listedThenLoaded 0 sampleLocation (by decide +kernel)).1

end AiStorage.KV
