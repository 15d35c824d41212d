import AiStorage.KV.MetadataStore
import Mathlib.Algebra.Order.Field.Basic

/-!
# The cost model

`cost_model.py`: whether a block is loaded from one of its locations, prefetched or computed
again. Times and bandwidths are exact rationals.
-/
namespace AiStorage.KV
open Lib

structure TierProfile where
  fixedLatencyMs : ℚ
  bandwidthGbps : ℚ
  deserializeMsPerMb : ℚ := 1 / 50
  h2dBandwidthGbps : ℚ := 24

namespace TierProfile

def atLeast (x : ℚ) : ℚ := max x (1 / 1000000000)

def estimateLoadMs (profile : TierProfile) (bytes : Int) (queueWaitMs : ℚ) : ℚ :=
  let mb : ℚ := bytes / 1048576
  let gb : ℚ := bytes / 1073741824
  let transferMs := gb / atLeast profile.bandwidthGbps * 1000
  let deserializeMs := mb * profile.deserializeMsPerMb
  let h2dMs := gb / atLeast profile.h2dBandwidthGbps * 1000
  profile.fixedLatencyMs + transferMs + deserializeMs + h2dMs + queueWaitMs

end TierProfile

structure RequestContext where
  missingPrefillTokens : Int := 0
  measuredPrefillMsPerToken : ℚ := 2 / 25
  workerQueueWaitMs : ℚ := 0
  reuseProbability : ℚ := 1 / 2
  isReuseHeavy : Bool := false

inductive Action where
  | load | prefetch | recompute
  deriving DecidableEq

def Action.priority : Action → Nat
  | load => 0
  | prefetch => 1
  | recompute => 2

structure Decision where
  action : Action
  tier : TierName
  estimatedLoadMs : ℚ
  estimatedRecomputeMs : ℚ
  benefitMs : ℚ
  reason : Text

def Decision.le (a b : Decision) : Prop :=
  a.action.priority < b.action.priority ∨ a.action.priority = b.action.priority ∧
    (b.benefitMs < a.benefitMs ∨ a.benefitMs = b.benefitMs ∧ a.estimatedLoadMs ≤ b.estimatedLoadMs)

instance : DecidableRel Decision.le := fun _ _ => inferInstanceAs (Decidable (_ ∨ _))

structure CostModel where
  profiles : TierName → Option TierProfile
  loadBenefitThresholdMs : ℚ := 5
  s3LoadBenefitThresholdMs : ℚ := 50
  sloBudgetGuardMs : ℚ := 100
  s3MinMissingPrefillTokens : Int := 1024
  s3MinReuseProbability : ℚ := 3 / 4

namespace CostModel

variable (cost : CostModel)

def estimateRecomputeMs (ctx : RequestContext) : ℚ :=
  ctx.missingPrefillTokens * ctx.measuredPrefillMsPerToken

/-- `slo_budget_ms is not None and load_ms + self.slo_budget_guard_ms > slo_budget_ms` -/
def exceedsBudget (loadMs : ℚ) (sloBudgetMs : Option ℚ) : Bool :=
  sloBudgetMs.any fun budget => budget < loadMs + cost.sloBudgetGuardMs

def canSyncLoadFromS3 (ctx : RequestContext) (loadMs : ℚ) (sloBudgetMs : Option ℚ) : Bool :=
  if ctx.missingPrefillTokens < cost.s3MinMissingPrefillTokens then false
  else if ctx.reuseProbability < cost.s3MinReuseProbability && !ctx.isReuseHeavy then false
  else !cost.exceedsBudget loadMs sloBudgetMs

def threshold (tier : TierName) : ℚ :=
  if tier = .s3 then cost.s3LoadBenefitThresholdMs else cost.loadBenefitThresholdMs

def judge (ctx : RequestContext) (sloBudgetMs : Option ℚ) (tier : TierName) (loadMs benefit : ℚ) :
    Action × String :=
  if benefit ≤ cost.threshold tier then (.recompute, "recompute_better_than_load")
  else if cost.exceedsBudget loadMs sloBudgetMs then
    if tier = .s3 then (.prefetch, "s3_cold_tier_prefetch_only")
    else (.recompute, "slo_budget_not_enough")
  else if tier = .s3 && !cost.canSyncLoadFromS3 ctx loadMs sloBudgetMs then
    (.prefetch, "s3_cold_tier_prefetch_only")
  else (.load, "load_benefit_positive")

def consider (ctx : RequestContext) (sloBudgetMs : Option ℚ) (location : BlockLocation) :
    Except PyError Decision :=
  match cost.profiles location.tier with
  | none => .error (.bare .keyError)
  | some profile =>
    let recomputeMs := estimateRecomputeMs ctx
    let loadMs := profile.estimateLoadMs location.bytes ctx.workerQueueWaitMs
    let benefit := recomputeMs - loadMs
    let judged := cost.judge ctx sloBudgetMs location.tier loadMs benefit
    .ok {
      action := judged.1
      tier := location.tier
      estimatedLoadMs := loadMs
      estimatedRecomputeMs := recomputeMs
      benefitMs := benefit
      reason := text judged.2 }

def blockNotFound (ctx : RequestContext) : Decision where
  action := .recompute
  tier := .memory
  estimatedLoadMs := 0
  estimatedRecomputeMs := estimateRecomputeMs ctx
  benefitMs := 0
  reason := text "block_not_found"

def decide (locations : List BlockLocation) (ctx : RequestContext) (sloBudgetMs : Option ℚ) :
    Except PyError Decision := do
  let decisions ← locations.mapM (cost.consider ctx sloBudgetMs)
  return ((decisions.insertionSort Decision.le).head?).getD (blockNotFound ctx)

end CostModel

end AiStorage.KV
