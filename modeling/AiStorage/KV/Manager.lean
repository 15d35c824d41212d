import AiStorage.KV.CostModel
import AiStorage.KV.MemoryTier

/-!
# The multi-tier store

`tier_manager.py`: a block may stand in several tiers. A load takes it from the tier that the
cost model selects and copies it into the tier that the caller asked for.
-/
namespace AiStorage.KV
open Lib Prog

/-! ## The interface of a tier -/

inductive Tier where
  | memory (tier : MemoryTier)
  | nvme (tier : NVMeTier)
  | s3 (tier : S3Tier)

namespace Tier

def name : Tier → TierName
  | memory _ => .memory
  | nvme _ => .nvme
  | s3 _ => .s3

def lookup : Tier → BlockKey → Py (Option BlockLocation)
  | memory _ => MemoryTier.lookup
  | nvme tier => tier.lookup
  | s3 tier => tier.lookup

def contains (tier : Tier) (key : BlockKey) : Py Bool := do
  let location ← tier.lookup key
  return location.isSome

def load : Tier → BlockKey → Py LoadResult
  | memory _ => MemoryTier.load
  | nvme tier => tier.load
  | s3 tier => tier.load

def store : Tier → BlockKey → Bytes → KVMetadata → Py StoreResult
  | memory tier => tier.store
  | nvme tier => tier.store
  | s3 tier => tier.store

def evict : Tier → BlockKey → Py Bool
  | memory _ => MemoryTier.evict
  | nvme tier => tier.evict
  | s3 tier => tier.evict

end Tier

def TierName.value : TierName → Text
  | memory => text "memory"
  | nvme => text "nvme"
  | s3 => text "s3"

/-- `MultiTierKVBlockStore`; the tiers are in the order of the dictionary. -/
structure MultiTier where
  tiers : List Tier
  nonempty : tiers ≠ []
  unique : (tiers.map Tier.name).Nodup
  costModel : CostModel

namespace MultiTier

variable (store : MultiTier) (key : BlockKey)

def tier? (name : TierName) : Option Tier := store.tiers.find? fun item => item.name = name

def lookupOrder : List Tier := [TierName.memory, .nvme, .s3].filterMap store.tier?

abbrev Scan := List BlockLocation × List (TierName × PyError)

def scanFrom (stopAfterFirst : Bool) : List Tier → Py Scan
  | [] => return ([], [])
  | item :: rest => do
    match ← (item.lookup key).attempt with
    | .error e =>
      if e.cls = .tierUnavailable then
        let found ← scanFrom stopAfterFirst rest
        return (found.1, (item.name, e) :: found.2)
      else raise e
    | .ok none => scanFrom stopAfterFirst rest
    | .ok (some location) =>
      if stopAfterFirst then return ([location], [])
      else
        let found ← scanFrom stopAfterFirst rest
        return (location :: found.1, found.2)

def scanLocations (stopAfterFirst : Bool) : Py Scan :=
  scanFrom key stopAfterFirst store.lookupOrder

def lookup : Py (Option BlockLocation) := do
  match ← store.scanLocations key true with
  | (location :: _, _) => return some location
  | ([], (_, e) :: _) => raise e
  | ([], []) => return none

def locations : Py (List BlockLocation) := do
  match ← store.scanLocations key false with
  | ([], (_, e) :: _) => raise e
  | (found, _) => return found

/-- `store(key, data, metadata, preferred_tier)`; some tier always comes first. -/
def put (data : Bytes) (m : KVMetadata) (preferred : Option TierName) : Py StoreResult :=
  match preferred with
  | some name =>
    match store.tier? name with
    | some item => item.store key data m
    | none => raise ⟨.blockNotFound, text "tier_unavailable:" ++ name.value⟩
  | none =>
    match store.lookupOrder with
    | item :: _ => item.store key data m
    | [] => raise (.bare .keyError)

/-! ## Loading -/

def requireTargetTier (target : TierName) : Except PyError Tier :=
  match store.tier? target with
  | some item => .ok item
  | none => .error ⟨.tierUnavailable, text "target tier is not configured: " ++ target.value⟩

def tokenCount : PyVal → Int
  | .int n => n
  | _ => 0

/-- The loop of `_request_context`: the largest token count of the locations' metadata. -/
def missingTokens : List BlockLocation → Int → Py Int
  | [], tokens => return tokens
  | location :: rest, tokens => do
    let metadata ← perform (Act.getMetadata key location.tier)
    missingTokens rest ((metadata.map fun m => max tokens (tokenCount m.tokens)).getD tokens)

def requestContext (locations : List BlockLocation) : Py RequestContext := do
  let tokens ← missingTokens key locations 0
  return { missingPrefillTokens := tokens }

def askTarget (target : Tier) : Py (Option LoadResult) := do
  if ← target.contains key then
    let result ← target.load key
    return some result
  else return none

/-- The same, with the unavailability of the target. -/
def fromTarget (target : Tier) : Py (Option LoadResult × List (TierName × PyError)) := do
  match ← (askTarget key target).attempt with
  | .ok result => return (result, [])
  | .error e =>
    if e.cls = .tierUnavailable then return (none, [(target.name, e)]) else raise e

/-- The load from the tier that the cost model selected. -/
def fromSource (source : TierName) : Py LoadResult :=
  match store.tier? source with
  | none => raise (.bare .keyError)
  | some item =>
    (item.load key).handle fun e =>
      if e.cls = .tierUnavailable then
        if source = .s3 then raise (.saying .blockNotFound "s3_load_unavailable_recompute")
        else raise e
      else raise e

def fromLocations (sloBudgetMs : Option ℚ) : Scan → Py LoadResult
  | ([], []) => raise (notFound key)
  | ([], _ :: _) => raise (.saying .blockNotFound "tier_lookup_unavailable_recompute")
  | (location :: rest, _) => do
    let ctx ← requestContext key (location :: rest)
    let decision ← lift (store.costModel.decide (location :: rest) ctx sloBudgetMs)
    match decision.action with
    | .prefetch =>
      let submission ← perform Act.submit
      raise ⟨.blockNotFound, text "cost_model_selected_prefetch:" ++ submission.reason⟩
    | .recompute => raise (.saying .blockNotFound "cost_model_selected_recompute")
    | .load => store.fromSource key decision.tier

def fetch (sloBudgetMs : Option ℚ) (unavailable : List (TierName × PyError)) : Py LoadResult := do
  let found ← store.scanLocations key false
  store.fromLocations key sloBudgetMs (found.1, unavailable ++ found.2)

def storePromotion (target : Tier) (result : LoadResult) : Py Unit := do
  let _ ← target.store result.key result.data result.metadata
  return ()

def promoteInto (target : Tier) (result : LoadResult) : Py LoadResult := do
  if result.tier ≠ target.name then storePromotion target result
  return result

def load (target : TierName) (sloBudgetMs : Option ℚ) : Py LoadResult := do
  let item ← lift (store.requireTargetTier target)
  match ← fromTarget key item with
  | (some result, _) => return result
  | (none, unavailable) =>
    let result ← store.fetch key sloBudgetMs unavailable
    promoteInto item result

/-! ## Moving and removing blocks -/

def copyInto (origin destination : Tier) : Py Unit := do
  let result ← origin.load key
  storePromotion destination result

/-- `_promote_from_tier` with `suppress_errors=True`. -/
def promoteFromTier (source target : TierName) : Py Bool :=
  match store.tier? source, store.tier? target with
  | some origin, some destination =>
    if source = target then return false
    else do
      match ← (copyInto key origin destination).attempt with
      | .ok () => return true
      | .error e => if e.cls.isKVStoreError || e.cls.isOSError then return false else raise e
  | _, _ => return false

def prefetchFrom (target : TierName) : List BlockLocation → Py Unit
  | [] => return ()
  | location :: rest =>
    if location.tier = target then prefetchFrom target rest
    else do
      if ← store.promoteFromTier key location.tier target then return ()
      else prefetchFrom target rest

def prefetchOne (target : Tier) : Py Unit := do
  if ← target.contains key then return ()
  else
    let found ← store.locations key
    store.prefetchFrom key target.name found

def prefetchEach (target : Tier) : List BlockKey → Py Unit
  | [] => return ()
  | key :: rest => do
    store.prefetchOne key target
    prefetchEach target rest

def prefetch (keys : List BlockKey) (target : TierName) : Py Unit := do
  let item ← lift (store.requireTargetTier target)
  store.prefetchEach item keys

/-- The loop of `evict` over every tier. -/
def evictFrom (removed : Bool) : List Tier → Py Bool
  | [] => return removed
  | item :: rest => do
    let here ← item.evict key
    evictFrom (here || removed) rest

def evict (name : Option TierName) : Py Bool :=
  match name with
  | some name =>
    match store.tier? name with
    | some item => item.evict key
    | none => return false
  | none => evictFrom key false store.tiers

def tryPromote (target : TierName) : Py Bool := do
  let _ ← store.load key target none
  match store.tier? target with
  | some item => item.contains key
  | none => return false

def promote (target : TierName) : Py Bool := do
  let _ ← lift (store.requireTargetTier target)
  match ← (store.tryPromote key target).attempt with
  | .ok there => return there
  | .error e => if e.cls = .blockNotFound then return false else raise e

def demote (source target : TierName) : Py Bool :=
  match store.tier? source, store.tier? target with
  | some origin, some destination => do
    copyInto key origin destination
    origin.evict key
  | _, _ => return false

/-- `release`: every tier of the lookup order. -/
def releaseFrom : List Tier → Py Unit
  | [] => return ()
  | item :: rest => do
    perform (Act.release key item.name)
    releaseFrom rest

def release : Py Unit := releaseFrom key store.lookupOrder

end MultiTier

end AiStorage.KV
