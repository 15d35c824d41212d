import AiStorage.KV.CompactionSite
import AiStorage.KV.MemorySite

/-!
# Calls of the multi-tier store in custody

Every call of the multi-tier store but `release` gives back only pins of its own and respects
what the calls of other threads read.
-/
namespace AiStorage.KV
open Lib Prog MetadataStore Vault

/-! ## Calls that respect what is in custody -/

/-- Whatever the others do, the call respects what they read. -/
def Vault.Orderly (V : Vault) {α : Type} (p : Py α) : Prop :=
  ∀ t n k, V.Triple t n k (fun _ => True) p fun _ _ => True

namespace Vault.Orderly

variable {V : Vault} {α β : Type} {p : Py α}

theorem ret (r : Except PyError α) : V.Orderly (.ret r : Py α) :=
  fun _ _ _ => .ret (fun _ _ => trivial) (.const True)

theorem thenDo {next : Except PyError α → Py β} (first : V.Orderly p)
    (rest : ∀ r, V.Orderly (next r)) : V.Orderly (p.thenDo next) :=
  fun t n k => (first t n k).thenDo fun r => rest r t n k

theorem bind {next : α → Py β} (first : V.Orderly p) (rest : ∀ a, V.Orderly (next a)) :
    V.Orderly (p >>= next) :=
  first.thenDo fun r => by
    cases r with
    | ok a => exact rest a
    | error e => exact ret _

theorem handle {handler : PyError → Py α} (first : V.Orderly p) (rest : ∀ e, V.Orderly (handler e)) :
    V.Orderly (p.handle handler) :=
  first.thenDo fun r => by
    cases r with
    | ok a => exact ret _
    | error e => exact rest e

theorem attempt (first : V.Orderly p) : V.Orderly p.attempt := first.thenDo fun _ => ret _

theorem mild {action : Act α} (kind : action.Mild) : V.Orderly (perform action) := fun _ _ _ =>
  .mild (.perform kind) (.const True) fun _ _ _ holds => holds

theorem of_triple {Q : Nat → Nat → Except PyError α → Ledger → Prop}
    (triple : ∀ t n k, V.Triple t n k (fun _ => True) p (Q n k)) : V.Orderly p :=
  fun t n k => (triple t n k).weaken (fun _ holds => holds) fun _ _ _ => trivial

end Vault.Orderly

namespace Tier

def At (site : Site) : Tier → Prop
  | memory _ => True
  | nvme tier => site.nvme = some tier
  | s3 tier => site.s3 = some tier

variable {site : Site} {tier : Tier} (here : tier.At site) (key : BlockKey)
include here

theorem orderly_lookup : site.vault.Orderly (tier.lookup key) := by
  cases tier with
  | memory tier => exact .of_triple fun _ _ _ => MemoryTier.triple_lookup key
  | nvme tier | s3 tier =>
    exact .of_triple fun _ _ _ => (tier.respectful here).triple_lookup (G := fun _ => True) key
      (.const True) (.const True) (fun _ _ _ holds => holds) (fun _ _ _ holds => holds)
      fun _ _ => trivial

theorem orderly_contains : site.vault.Orderly (tier.contains key) :=
  (orderly_lookup here key).bind fun _ => .ret _

theorem orderly_load : site.vault.Orderly (tier.load key) := by
  cases tier with
  | memory tier => exact .of_triple fun _ _ _ => MemoryTier.triple_load key
  | nvme tier | s3 tier =>
    exact .of_triple fun _ _ _ => (tier.respectful here).triple_load key (.const True)
      fun _ _ _ holds => holds

theorem orderly_evict : site.vault.Orderly (tier.evict key) := by
  cases tier with
  | memory tier =>
    exact .of_triple fun _ _ _ => MemoryTier.triple_evict key (.const True) (.const True)
      fun _ _ _ holds => holds
  | nvme tier | s3 tier =>
    exact .of_triple fun _ _ _ => (tier.respectful here).triple_evict key (.const True)
      fun _ _ _ holds => holds

theorem orderly_store (data : Bytes) (m : KVMetadata) : site.vault.Orderly (tier.store key data m) := by
  cases tier with
  | memory tier => exact .of_triple fun _ _ _ => MemoryTier.triple_store key tier data m
  | nvme tier | s3 tier =>
    exact .of_triple fun _ _ _ => (tier.respectful here).triple_store key data m
      (tier.respectful_writer here)

end Tier

/-! ## Calls of the multi-tier store -/

namespace MultiTier

variable (store : MultiTier) (key : BlockKey)

/-- The tiers of the store that keep payloads outside of the process. -/
def site : Site where
  nvme := (store.tier? .nvme).bind fun | .nvme tier => some tier | _ => none
  s3 := (store.tier? .s3).bind fun | .s3 tier => some tier | _ => none

variable {store} in
theorem at_site {name : TierName} {item : Tier} (found : store.tier? name = some item) :
    item.At store.site := by
  have same : item.name = name := by simpa using List.find?_some found
  subst same
  cases item with
  | memory tier => trivial
  | nvme tier =>
    change (store.tier? .nvme).bind _ = some tier
    rw [show store.tier? .nvme = some (.nvme tier) from found]
    rfl
  | s3 tier =>
    change (store.tier? .s3).bind _ = some tier
    rw [show store.tier? .s3 = some (.s3 tier) from found]
    rfl

theorem at_site_of_mem : ∀ item ∈ store.tiers, item.At store.site := by
  intro item member
  cases found : store.tier? item.name with
  | none => exact absurd (decide_eq_true rfl) (List.find?_eq_none.mp found item member)
  | some other =>
    have same : other.name = item.name := by simpa using List.find?_some found
    rw [← List.inj_on_of_nodup_map store.unique (List.mem_of_find?_eq_some found) member same]
    exact at_site (same ▸ found)

theorem at_site_of_lookupOrder : ∀ item ∈ store.lookupOrder, item.At store.site := by
  intro item member
  obtain ⟨name, -, found⟩ := List.mem_filterMap.mp member
  exact at_site found

variable {site : Site} {key}

theorem orderly_scanFrom (stopAfterFirst : Bool) {tiers : List Tier}
    (here : ∀ item ∈ tiers, item.At site) :
    site.vault.Orderly (scanFrom key stopAfterFirst tiers) := by
  induction tiers with
  | nil => exact .ret _
  | cons item rest ih =>
    obtain ⟨first, later⟩ := List.forall_mem_cons.mp here
    refine (Tier.orderly_lookup first key).attempt.bind fun found => ?_
    rcases found with e | location
    · dsimp only
      split_ifs
      · exact (ih later).bind fun _ => .ret _
      · exact .ret _
    · cases location with
      | none => exact ih later
      | some location =>
        dsimp only
        split_ifs
        · exact .ret _
        · exact (ih later).bind fun _ => .ret _

theorem orderly_fromTarget {target : Tier} (here : target.At site) :
    site.vault.Orderly (fromTarget key target) := by
  have asks : site.vault.Orderly (askTarget key target) := by
    refine (Tier.orderly_contains here key).bind fun there => ?_
    cases there with
    | false => exact .ret _
    | true => exact (Tier.orderly_load here key).bind fun _ => .ret _
  refine asks.attempt.bind fun found => ?_
  cases found with
  | ok result => exact .ret _
  | error e =>
    dsimp only
    split_ifs <;> exact .ret _

theorem orderly_requestContext {V : Vault} (locations : List BlockLocation) :
    V.Orderly (requestContext key locations) := by
  have counts : ∀ tokens, V.Orderly (missingTokens key locations tokens) := by
    induction locations with
    | nil => exact fun _ => .ret _
    | cons location rest ih =>
      exact fun tokens => (Orderly.mild (Act.mild_read _)).bind fun _ => ih _
  exact (counts 0).bind fun _ => .ret _

theorem orderly_storePromotion {target : Tier} (here : target.At site) (result : LoadResult) :
    site.vault.Orderly (storePromotion target result) :=
  (Tier.orderly_store here result.key result.data result.metadata).bind fun _ => .ret _

theorem orderly_copyInto {origin destination : Tier} (first : origin.At site)
    (second : destination.At site) : site.vault.Orderly (copyInto key origin destination) :=
  (Tier.orderly_load first key).bind fun result => orderly_storePromotion second result

variable (key)

theorem orderly_lookup : store.site.vault.Orderly (store.lookup key) := by
  refine (orderly_scanFrom true store.at_site_of_lookupOrder).bind fun found => ?_
  rcases found with ⟨_ | ⟨location, rest⟩, _ | ⟨first, more⟩⟩ <;> exact .ret _

theorem orderly_locations : store.site.vault.Orderly (store.locations key) := by
  refine (orderly_scanFrom false store.at_site_of_lookupOrder).bind fun found => ?_
  rcases found with ⟨_ | ⟨location, rest⟩, _ | ⟨first, more⟩⟩ <;> exact .ret _

theorem orderly_put (data : Bytes) (m : KVMetadata) (preferred : Option TierName) :
    store.site.vault.Orderly (store.put key data m preferred) := by
  unfold put
  cases preferred with
  | none =>
    dsimp only
    cases order : store.lookupOrder with
    | nil => exact .ret _
    | cons item rest =>
      exact Tier.orderly_store (store.at_site_of_lookupOrder item (by rw [order]; exact List.mem_cons_self)) key
        data m
  | some name =>
    dsimp only
    cases found : store.tier? name with
    | none => exact .ret _
    | some item => exact Tier.orderly_store (at_site found) key data m

theorem orderly_fromSource (source : TierName) :
    store.site.vault.Orderly (store.fromSource key source) := by
  unfold fromSource
  cases found : store.tier? source with
  | none => exact .ret _
  | some item =>
    refine (Tier.orderly_load (at_site found) key).handle fun e => ?_
    split_ifs <;> exact .ret _

theorem orderly_fetch (sloBudgetMs : Option ℚ) (unavailable : List (TierName × PyError)) :
    store.site.vault.Orderly (store.fetch key sloBudgetMs unavailable) := by
  refine (orderly_scanFrom false store.at_site_of_lookupOrder).bind fun found => ?_
  cases found.1 with
  | nil => cases unavailable ++ found.2 <;> exact .ret _
  | cons location rest =>
    refine (orderly_requestContext _).bind fun ctx => (Orderly.ret _).bind fun decision => ?_
    cases decision.action with
    | load => exact store.orderly_fromSource key decision.tier
    | recompute => exact .ret _
    | prefetch => exact (Orderly.mild (Act.mild_observe _)).bind fun _ => .ret _

theorem orderly_requireTargetTier {α : Type} (target : TierName) {next : Tier → Py α}
    (rest : ∀ item : Tier, item.At store.site → store.site.vault.Orderly (next item)) :
    store.site.vault.Orderly (lift (store.requireTargetTier target) >>= next) := by
  unfold requireTargetTier
  cases found : store.tier? target with
  | none => exact .ret _
  | some item => exact rest item (at_site found)

theorem orderly_load (target : TierName) (sloBudgetMs : Option ℚ) :
    store.site.vault.Orderly (store.load key target sloBudgetMs) := by
  refine store.orderly_requireTargetTier target fun item here =>
    (orderly_fromTarget here).bind fun found => ?_
  rcases found with ⟨_ | result, unavailable⟩
  · refine (store.orderly_fetch key sloBudgetMs unavailable).bind fun result => ?_
    unfold promoteInto
    split_ifs
    · exact (orderly_storePromotion here result).bind fun _ => .ret _
    · exact .ret _
  · exact .ret _

theorem orderly_promoteFromTier (source target : TierName) :
    store.site.vault.Orderly (store.promoteFromTier key source target) := by
  unfold promoteFromTier
  cases first : store.tier? source with
  | none => exact .ret _
  | some origin =>
    cases second : store.tier? target with
    | none => exact .ret _
    | some destination =>
      dsimp only
      split_ifs
      · exact .ret _
      · refine (orderly_copyInto (at_site first) (at_site second)).attempt.bind fun copied => ?_
        cases copied with
        | ok _ => exact .ret _
        | error e =>
          dsimp only
          split_ifs <;> exact .ret _

theorem orderly_prefetch (keys : List BlockKey) (target : TierName) :
    store.site.vault.Orderly (store.prefetch keys target) := by
  have copies : ∀ key target found, store.site.vault.Orderly (store.prefetchFrom key target found) := by
    intro key target found
    induction found with
    | nil => exact .ret _
    | cons location rest ih =>
      unfold prefetchFrom
      split_ifs
      · exact ih
      · refine (store.orderly_promoteFromTier key location.tier target).bind fun done => ?_
        cases done with
        | false => exact ih
        | true => exact .ret _
  refine store.orderly_requireTargetTier target fun item here => ?_
  induction keys with
  | nil => exact .ret _
  | cons key rest ih =>
    refine Orderly.bind ?_ fun _ => ih
    refine (Tier.orderly_contains here key).bind fun there => ?_
    cases there with
    | true => exact .ret _
    | false => exact (store.orderly_locations key).bind fun found => copies key item.name found

theorem orderly_evict (name : Option TierName) : store.site.vault.Orderly (store.evict key name) := by
  have each : ∀ tiers : List Tier, (∀ item ∈ tiers, item.At store.site) →
      ∀ removed, store.site.vault.Orderly (evictFrom key removed tiers) := by
    intro tiers here
    induction tiers with
    | nil => exact fun _ => .ret _
    | cons item rest ih =>
      obtain ⟨first, later⟩ := List.forall_mem_cons.mp here
      exact fun _ => (Tier.orderly_evict first key).bind fun _ => ih later _
  unfold evict
  cases name with
  | none => exact each _ store.at_site_of_mem _
  | some name =>
    dsimp only
    cases found : store.tier? name with
    | none => exact .ret _
    | some item => exact Tier.orderly_evict (at_site found) key

theorem orderly_promote (target : TierName) : store.site.vault.Orderly (store.promote key target) := by
  have tries : store.site.vault.Orderly (store.tryPromote key target) := by
    refine (store.orderly_load key target none).bind fun _ => ?_
    cases found : store.tier? target with
    | none => exact .ret _
    | some item => exact Tier.orderly_contains (at_site found) key
  refine (Orderly.ret _).bind fun _ => tries.attempt.bind fun done => ?_
  cases done with
  | ok there => exact .ret _
  | error e =>
    dsimp only
    split_ifs <;> exact .ret _

theorem orderly_demote (source target : TierName) :
    store.site.vault.Orderly (store.demote key source target) := by
  unfold demote
  cases first : store.tier? source with
  | none => exact .ret _
  | some origin =>
    cases second : store.tier? target with
    | none => exact .ret _
    | some destination =>
      exact (orderly_copyInto (at_site first) (at_site second)).bind fun _ =>
        Tier.orderly_evict (at_site first) key

def compact (compactionId : Nat) (dryRun : Bool) : Py Unit :=
  match store.site.nvme with
  | some tier => do
    let _ ← tier.compactSegments compactionId dryRun
    return ()
  | none => return ()

theorem orderly_compact (compactionId : Nat) (dryRun : Bool) :
    store.site.vault.Orderly (store.compact compactionId dryRun) := by
  unfold compact
  cases here : store.site.nvme with
  | none => exact .ret _
  | some tier =>
    have passes : store.site.vault.Orderly (tier.compactSegments compactionId dryRun) :=
      .of_triple fun _ _ _ => tier.triple_compactSegments here compactionId dryRun
    exact passes.bind fun _ => .ret _

end MultiTier

end AiStorage.KV
