import AiStorage.KV.CostModel
import AiStorage.Lib.Lists
import Mathlib.Data.Prod.Lex
import Mathlib.Tactic.Positivity

/-!
# The cost model is monotone

A location's action depends on its load estimate, its benefit and the S3 guard, each of which
moves one way when the inputs ease. The list's decision is the least by a linear key.
-/
namespace AiStorage.KV
open Lib

def Decision.key (d : Decision) : ℕ ×ₗ ℚᵒᵈ ×ₗ ℚ :=
  toLex (d.action.priority, toLex (OrderDual.toDual d.benefitMs, d.estimatedLoadMs))

theorem Decision.le_iff (a b : Decision) : a.le b ↔ a.key ≤ b.key := by
  simp [Decision.le, Decision.key, Prod.Lex.toLex_le_toLex]

instance : Std.Total Decision.le where
  total a b := by
    rw [Decision.le_iff, Decision.le_iff]
    exact le_total _ _

instance : IsTrans Decision Decision.le where
  trans a b c := by
    rw [Decision.le_iff, Decision.le_iff, Decision.le_iff]
    exact le_trans

theorem Action.priority_injective : Function.Injective Action.priority := by
  intro a b same
  cases a <;> cases b <;> first | rfl | cases same

theorem Decision.eq_of_key_eq {a b : Decision} (same : a.key = b.key) :
    a.action = b.action ∧ a.benefitMs = b.benefitMs ∧ a.estimatedLoadMs = b.estimatedLoadMs := by
  have parts := Prod.ext_iff.mp (toLex_inj.mp same)
  have rest := Prod.ext_iff.mp (toLex_inj.mp parts.2)
  exact ⟨Action.priority_injective parts.1, OrderDual.toDual_inj.mp rest.1, rest.2⟩

/-- A budget that allows more; no budget allows everything. -/
def BudgetLe (tight loose : Option ℚ) : Prop :=
  ∀ most, loose = some most → ∃ least, tight = some least ∧ least ≤ most

structure RequestContext.Eases (ctx easier : RequestContext) : Prop where
  missing : ctx.missingPrefillTokens ≤ easier.missingPrefillTokens
  perToken : easier.measuredPrefillMsPerToken = ctx.measuredPrefillMsPerToken
  queue : easier.workerQueueWaitMs ≤ ctx.workerQueueWaitMs
  reuse : ctx.reuseProbability ≤ easier.reuseProbability
  heavy : ctx.isReuseHeavy = true → easier.isReuseHeavy = true

theorem TierProfile.atLeast_pos (x : ℚ) : 0 < TierProfile.atLeast x :=
  lt_of_lt_of_le (by norm_num) (le_max_right x _)

theorem TierProfile.estimateLoadMs_mono {profile : TierProfile}
    (deserialize : 0 ≤ profile.deserializeMsPerMb) {bytes more : Int} (size : bytes ≤ more)
    {wait longer : ℚ} (queue : wait ≤ longer) :
    profile.estimateLoadMs bytes wait ≤ profile.estimateLoadMs more longer := by
  have bandwidth := TierProfile.atLeast_pos profile.bandwidthGbps
  have h2d := TierProfile.atLeast_pos profile.h2dBandwidthGbps
  have cast : (bytes : ℚ) ≤ more := by exact_mod_cast size
  simp only [TierProfile.estimateLoadMs]
  gcongr

namespace CostModel

variable {cost : CostModel} {ctx easier : RequestContext} {budget looser : Option ℚ}
  {load faster benefit larger : ℚ}

theorem estimateRecomputeMs_mono (eases : ctx.Eases easier)
    (perToken : 0 ≤ ctx.measuredPrefillMsPerToken) :
    estimateRecomputeMs ctx ≤ estimateRecomputeMs easier := by
  have cast : (ctx.missingPrefillTokens : ℚ) ≤ easier.missingPrefillTokens := by
    exact_mod_cast eases.missing
  rw [estimateRecomputeMs, estimateRecomputeMs, eases.perToken]
  exact mul_le_mul_of_nonneg_right cast perToken

theorem exceedsBudget_iff : cost.exceedsBudget load budget = true ↔
    ∃ most, budget = some most ∧ most < load + cost.sloBudgetGuardMs := by
  cases budget with
  | none => simp [exceedsBudget]
  | some most => simp [exceedsBudget]

theorem exceedsBudget_mono (quick : faster ≤ load) (allows : BudgetLe budget looser)
    (exceeds : cost.exceedsBudget faster looser = true) :
    cost.exceedsBudget load budget = true := by
  obtain ⟨most, same, above⟩ := exceedsBudget_iff.mp exceeds
  obtain ⟨least, tight, order⟩ := allows most same
  exact exceedsBudget_iff.mpr ⟨least, tight, by linarith⟩

theorem canSyncLoadFromS3_iff : cost.canSyncLoadFromS3 ctx load budget = true ↔
    cost.s3MinMissingPrefillTokens ≤ ctx.missingPrefillTokens ∧
      (cost.s3MinReuseProbability ≤ ctx.reuseProbability ∨ ctx.isReuseHeavy = true) ∧
      cost.exceedsBudget load budget = false := by
  unfold canSyncLoadFromS3
  split_ifs with few unlikely
  · simp [not_le.mpr few]
  · simp only [Bool.and_eq_true, decide_eq_true_iff, Bool.not_eq_true'] at unlikely
    simp [not_le.mpr unlikely.1, unlikely.2]
  · simp only [Bool.and_eq_true, decide_eq_true_iff, Bool.not_eq_true', not_and] at unlikely
    have likely : cost.s3MinReuseProbability ≤ ctx.reuseProbability ∨ ctx.isReuseHeavy = true := by
      by_contra neither
      rw [not_or, not_le] at neither
      exact neither.2 (by simpa using unlikely neither.1)
    simp [not_lt.mp few, likely]

theorem canSyncLoadFromS3_mono (eases : ctx.Eases easier) (quick : faster ≤ load)
    (allows : BudgetLe budget looser) (can : cost.canSyncLoadFromS3 ctx load budget = true) :
    cost.canSyncLoadFromS3 easier faster looser = true := by
  obtain ⟨enough, likely, within⟩ := canSyncLoadFromS3_iff.mp can
  refine canSyncLoadFromS3_iff.mpr ⟨enough.trans eases.missing, ?_, ?_⟩
  · rcases likely with often | heavy
    · exact .inl (often.trans eases.reuse)
    · exact .inr (eases.heavy heavy)
  · rw [← Bool.not_eq_true] at within ⊢
    exact fun exceeds => within (exceedsBudget_mono quick allows exceeds)

variable {tier : TierName} {location : BlockLocation} {d : Decision}
  {locations : List BlockLocation}

theorem judge_load_iff :
    (cost.judge ctx budget tier load benefit).1 = .load ↔
      cost.threshold tier < benefit ∧ cost.exceedsBudget load budget = false ∧
        (tier = .s3 → cost.canSyncLoadFromS3 ctx load budget = true) := by
  unfold judge
  split_ifs with low exceeds s3 guard
  · simp [not_lt.mpr low]
  · simp [exceeds]
  · simp [exceeds]
  · simp only [Bool.and_eq_true, decide_eq_true_iff, Bool.not_eq_true'] at guard
    simp [guard.1, guard.2]
  · simp only [Bool.and_eq_true, decide_eq_true_iff, Bool.not_eq_true', not_and] at guard
    refine iff_of_true rfl ⟨not_le.mp low, by simpa using exceeds, fun s3 => ?_⟩
    simpa using guard s3

theorem judge_recompute_iff :
    (cost.judge ctx budget tier load benefit).1 = .recompute ↔
      benefit ≤ cost.threshold tier ∨ cost.exceedsBudget load budget = true ∧ tier ≠ .s3 := by
  unfold judge
  split_ifs with low exceeds s3 guard
  · simp [low]
  · simp [s3 ▸ not_le.mp low, s3]
  · simp [exceeds, s3]
  · simp [low, exceeds]
  · simp [low, exceeds]

theorem judge_mono (eases : ctx.Eases easier) (quick : faster ≤ load)
    (more : benefit ≤ larger) (allows : BudgetLe budget looser) :
    (cost.judge easier looser tier faster larger).1.priority ≤
      (cost.judge ctx budget tier load benefit).1.priority := by
  cases before : (cost.judge ctx budget tier load benefit).1 with
  | load =>
    obtain ⟨above, within, guard⟩ := judge_load_iff.mp before
    have stays : (cost.judge easier looser tier faster larger).1 = .load := by
      refine judge_load_iff.mpr ⟨above.trans_le more, ?_, fun s3 =>
        canSyncLoadFromS3_mono eases quick allows (guard s3)⟩
      rw [← Bool.not_eq_true] at within ⊢
      exact fun exceeds => within (exceedsBudget_mono quick allows exceeds)
    rw [stays]
  | prefetch =>
    have notRecompute : (cost.judge easier looser tier faster larger).1 ≠ .recompute := by
      intro recompute
      have was : (cost.judge ctx budget tier load benefit).1 = .recompute := by
        refine judge_recompute_iff.mpr ?_
        rcases judge_recompute_iff.mp recompute with low | ⟨exceeds, other⟩
        · exact .inl (more.trans low)
        · exact .inr ⟨exceedsBudget_mono quick allows exceeds, other⟩
      rw [before] at was
      cases was
    cases after : (cost.judge easier looser tier faster larger).1 with
    | load => decide
    | prefetch => exact le_rfl
    | recompute => exact absurd after notRecompute
  | recompute =>
    cases (cost.judge easier looser tier faster larger).1 <;> decide

/-! ### The decision over all locations -/

structure Offers (cost : CostModel) (ctx : RequestContext) (budget : Option ℚ)
    (location : BlockLocation) (profile : TierProfile) (d : Decision) : Prop where
  known : cost.profiles location.tier = some profile
  tier : d.tier = location.tier
  load : d.estimatedLoadMs = profile.estimateLoadMs location.bytes ctx.workerQueueWaitMs
  benefit : d.benefitMs = estimateRecomputeMs ctx - d.estimatedLoadMs
  action : d.action = (cost.judge ctx budget d.tier d.estimatedLoadMs d.benefitMs).1

theorem consider_ok (considered : cost.consider ctx budget location = .ok d) :
    ∃ profile, cost.Offers ctx budget location profile d := by
  unfold consider at considered
  cases found : cost.profiles location.tier with
  | none =>
    rw [found] at considered
    cases considered
  | some profile =>
    rw [found] at considered
    cases considered
    exact ⟨profile, found, rfl, rfl, rfl, rfl⟩

theorem consider_total (known : (cost.profiles location.tier).isSome = true) :
    ∃ d, cost.consider ctx budget location = .ok d := by
  obtain ⟨profile, found⟩ := Option.isSome_iff_exists.mp known
  rw [consider, found]
  exact ⟨_, rfl⟩

theorem insertionSort_head {decisions : List Decision}
    (first : (decisions.insertionSort Decision.le).head? = some d) :
    d ∈ decisions ∧ ∀ other ∈ decisions, d.key ≤ other.key := by
  have sorted := List.pairwise_insertionSort Decision.le decisions
  obtain ⟨rest, split⟩ := List.head?_eq_some_iff.mp first
  rw [split, List.pairwise_cons] at sorted
  constructor
  · rw [← List.mem_insertionSort Decision.le, split]
    exact List.mem_cons_self
  · intro other member
    rw [← List.mem_insertionSort Decision.le, split] at member
    rcases List.mem_cons.mp member with rfl | later
    · exact le_rfl
    · exact (Decision.le_iff d other).mp (sorted.1 other later)

theorem decide_ok (nonempty : locations ≠ []) (decided : cost.decide locations ctx budget = .ok d) :
    (∃ location ∈ locations, cost.consider ctx budget location = .ok d) ∧
      ∀ location ∈ locations, ∃ other, cost.consider ctx budget location = .ok other ∧
        d.key ≤ other.key := by
  unfold CostModel.decide at decided
  cases all : locations.mapM (cost.consider ctx budget) with
  | error e =>
    rw [all] at decided
    cases decided
  | ok decisions =>
    rw [all] at decided
    have each := forall₂_of_mapM all
    cases head : (decisions.insertionSort Decision.le).head? with
    | none =>
      rw [List.head?_eq_none_iff] at head
      have empty : decisions = [] := by
        rw [← List.length_eq_zero_iff, ← List.length_insertionSort Decision.le, head]
        rfl
      rw [empty] at each
      exact absurd (List.forall₂_nil_right_iff.mp each) nonempty
    | some first =>
      have same : first = d := by
        have value : (Except.ok ((decisions.insertionSort Decision.le).head?.getD
          (blockNotFound ctx)) : Except PyError Decision) = .ok d := decided
        rw [head, Option.getD_some] at value
        exact Except.ok.inj value
      subst same
      obtain ⟨member, least⟩ := insertionSort_head head
      refine ⟨forall₂_mem_right each member, ?_⟩
      intro location inside
      obtain ⟨other, listed, considered⟩ := forall₂_mem_left each inside
      exact ⟨other, considered, least other listed⟩

theorem decide_total (known : ∀ location ∈ locations, (cost.profiles location.tier).isSome = true) :
    ∃ d, cost.decide locations ctx budget = .ok d := by
  have each : ∀ location ∈ locations, ∃ d, cost.consider ctx budget location = .ok d ∧
      cost.consider ctx budget location = .ok d := by
    intro location member
    obtain ⟨d, considered⟩ := consider_total (known location member)
    exact ⟨d, considered, considered⟩
  obtain ⟨decisions, all, -⟩ := mapM_forall₂ each
  rw [CostModel.decide, all]
  exact ⟨_, rfl⟩

theorem Offers.mono {other : BlockLocation} {profile better : TierProfile}
    {d' : Decision} (offers : cost.Offers ctx budget location profile d)
    (also : cost.Offers easier looser other better d')
    (deserialize : 0 ≤ profile.deserializeMsPerMb)
    (perToken : 0 ≤ ctx.measuredPrefillMsPerToken) (eases : ctx.Eases easier)
    (allows : BudgetLe budget looser) (tier : other.tier = location.tier)
    (bytes : other.bytes ≤ location.bytes) : d'.action.priority ≤ d.action.priority := by
  have profiles : better = profile := by
    have known := also.known
    rw [tier, offers.known] at known
    exact (Option.some.inj known).symm
  have quick : d'.estimatedLoadMs ≤ d.estimatedLoadMs := by
    rw [offers.load, also.load, profiles]
    exact TierProfile.estimateLoadMs_mono deserialize bytes eases.queue
  have recompute := estimateRecomputeMs_mono eases perToken
  have more : d.benefitMs ≤ d'.benefitMs := by
    rw [offers.benefit, also.benefit]
    linarith
  have tiers : d'.tier = d.tier := by rw [also.tier, offers.tier, tier]
  rw [also.action, offers.action, tiers]
  exact judge_mono eases quick more allows

/-- The action never gets worse when the context and the budget ease and every
location stays or shrinks, with any locations added. -/
theorem decide_mono {others : List BlockLocation} {d' : Decision}
    (deserialize : ∀ tier profile, cost.profiles tier = some profile →
      0 ≤ profile.deserializeMsPerMb)
    (perToken : 0 ≤ ctx.measuredPrefillMsPerToken) (nonempty : locations ≠ [])
    (decided : cost.decide locations ctx budget = .ok d) (eases : ctx.Eases easier)
    (allows : BudgetLe budget looser)
    (kept : ∀ location ∈ locations, ∃ other ∈ others,
      other.tier = location.tier ∧ other.bytes ≤ location.bytes)
    (also : cost.decide others easier looser = .ok d') :
    d'.action.priority ≤ d.action.priority := by
  obtain ⟨⟨location, member, considered⟩, -⟩ := decide_ok nonempty decided
  obtain ⟨other, inside, tier, bytes⟩ := kept location member
  obtain ⟨-, least⟩ := decide_ok (List.ne_nil_of_mem inside) also
  obtain ⟨competing, offered, order⟩ := least other inside
  obtain ⟨profile, offers⟩ := consider_ok considered
  obtain ⟨better, counter⟩ := consider_ok offered
  have better_action := offers.mono counter (deserialize _ _ offers.known) perToken eases allows
    tier bytes
  have chosen : d'.action.priority ≤ competing.action.priority := Prod.Lex.monotone_fst _ _ order
  exact chosen.trans better_action

theorem decide_perm {others : List BlockLocation}
    (nonempty : locations ≠ []) (decided : cost.decide locations ctx budget = .ok d)
    (perm : others.Perm locations) :
    ∃ d', cost.decide others ctx budget = .ok d' ∧ d'.action = d.action ∧
      d'.benefitMs = d.benefitMs ∧ d'.estimatedLoadMs = d.estimatedLoadMs := by
  obtain ⟨⟨first, inFirst, considered⟩, least⟩ := decide_ok nonempty decided
  have known : ∀ location ∈ others, (cost.profiles location.tier).isSome = true := by
    intro location member
    obtain ⟨other, offered, -⟩ := least location (perm.mem_iff.mp member)
    obtain ⟨profile, offers⟩ := consider_ok offered
    rw [offers.known]
    rfl
  obtain ⟨d', also⟩ := @decide_total cost ctx budget others known
  have others_ne : others ≠ [] := fun none => nonempty (List.nil_perm.mp (none ▸ perm))
  obtain ⟨⟨second, inSecond, considered'⟩, least'⟩ := decide_ok others_ne also
  obtain ⟨other, offered, lower⟩ := least second (perm.mem_iff.mp inSecond)
  obtain ⟨other', offered', lower'⟩ := least' first (perm.mem_iff.mpr inFirst)
  rw [considered'] at offered
  rw [considered] at offered'
  cases offered
  cases offered'
  exact ⟨d', also, Decision.eq_of_key_eq (le_antisymm lower' lower)⟩

theorem decide_load (nonempty : locations ≠ []) (decided : cost.decide locations ctx budget = .ok d)
    (loads : d.action = .load) :
    cost.threshold d.tier < d.benefitMs ∧
      (∀ most, budget = some most → d.estimatedLoadMs + cost.sloBudgetGuardMs ≤ most) ∧
      ∀ location ∈ locations, ∀ other, cost.consider ctx budget location = .ok other →
        other.action = .load → other.benefitMs ≤ d.benefitMs := by
  obtain ⟨⟨location, member, considered⟩, least⟩ := decide_ok nonempty decided
  obtain ⟨profile, offers⟩ := consider_ok considered
  have action := offers.action
  rw [loads] at action
  obtain ⟨above, within, -⟩ := judge_load_iff.mp action.symm
  refine ⟨above, ?_, ?_⟩
  · intro most same
    rw [← Bool.not_eq_true, exceedsBudget_iff] at within
    exact not_lt.mp fun more => within ⟨most, same, more⟩
  · intro location inside other offered alsoLoads
    obtain ⟨same, again, order⟩ := least location inside
    rw [offered] at again
    cases again
    have benefits := (Decision.le_iff d other).mpr order
    rw [Decision.le, loads, alsoLoads] at benefits
    rcases benefits with wrong | ⟨-, more | ⟨equal, -⟩⟩
    · exact absurd wrong (lt_irrefl _)
    · exact more.le
    · exact equal.ge

/-- Over exact rationals, for a decision over any nonempty list of locations: easing the context
or the budget, shrinking locations or adding some never makes the action worse, so larger
blocks and longer queues never make it better. Reordering the locations changes neither action
nor benefit nor load estimate. A load is above the threshold of its tier and within the budget,
and no location that qualifies for load has a larger benefit. -/
theorem decisions_monotone (cost : CostModel)
    (deserialize : ∀ tier profile, cost.profiles tier = some profile →
      0 ≤ profile.deserializeMsPerMb)
    (ctx : RequestContext) (perToken : 0 ≤ ctx.measuredPrefillMsPerToken) (budget : Option ℚ)
    (locations : List BlockLocation) (nonempty : locations ≠ []) (d : Decision)
    (decided : cost.decide locations ctx budget = .ok d) :
    (∀ easier looser others d', ctx.Eases easier → BudgetLe budget looser →
      (∀ location ∈ locations, ∃ other ∈ others,
        other.tier = location.tier ∧ other.bytes ≤ location.bytes) →
      cost.decide others easier looser = .ok d' → d'.action.priority ≤ d.action.priority) ∧
    (∀ others, others.Perm locations → ∃ d', cost.decide others ctx budget = .ok d' ∧
      d'.action = d.action ∧ d'.benefitMs = d.benefitMs ∧
        d'.estimatedLoadMs = d.estimatedLoadMs) ∧
    (d.action = .load → cost.threshold d.tier < d.benefitMs ∧
      (∀ most, budget = some most → d.estimatedLoadMs + cost.sloBudgetGuardMs ≤ most) ∧
      ∀ location ∈ locations, ∀ other, cost.consider ctx budget location = .ok other →
        other.action = .load → other.benefitMs ≤ d.benefitMs) := by
  refine ⟨?_, ?_, ?_⟩
  · intro easier looser others d' eases allows kept also
    exact decide_mono deserialize perToken nonempty decided eases allows kept also
  · intro others perm
    exact decide_perm nonempty decided perm
  · intro loads
    exact decide_load nonempty decided loads

def twoTiers : CostModel where
  profiles tier :=
    if tier = .memory then some ⟨1, 8, 1 / 50, 24⟩
    else if tier = .s3 then some ⟨20, 1, 1 / 50, 24⟩ else none

def mebibyteIn (tier : TierName) : BlockLocation where
  key := sampleKey
  tier := tier
  uri := text ""
  bytes := 1048576
  checksum := text ""
  createdAt := .int 0
  lastAccess := .int 0
  attributes _ := .none

/-- A request that misses 1024 tokens prefetches the block from S3, and loads it when it also
stands in memory. -/
theorem decisions_monotone_two_tiers :
    ∃ d d', twoTiers.decide [mebibyteIn .s3] { missingPrefillTokens := 1024 } none = .ok d ∧
      twoTiers.decide [mebibyteIn .s3, mebibyteIn .memory] { missingPrefillTokens := 1024 } none =
        .ok d' ∧
      d.action = .prefetch ∧ d'.action = .load ∧ d'.action.priority ≤ d.action.priority ∧
      twoTiers.threshold d'.tier < d'.benefitMs := by
  have deserialize : ∀ tier profile, twoTiers.profiles tier = some profile →
      0 ≤ profile.deserializeMsPerMb := by
    intro tier profile known
    simp only [twoTiers] at known
    split_ifs at known <;> cases known <;> norm_num
  obtain ⟨d, decided⟩ := @decide_total twoTiers { missingPrefillTokens := 1024 } none
    [mebibyteIn .s3] (by decide)
  obtain ⟨d', decided'⟩ := @decide_total twoTiers { missingPrefillTokens := 1024 } none
    [mebibyteIn .s3, mebibyteIn .memory] (by decide)
  have actions : (twoTiers.decide [mebibyteIn .s3] { missingPrefillTokens := 1024 } none).map
        Decision.action = .ok .prefetch ∧
      (twoTiers.decide [mebibyteIn .s3, mebibyteIn .memory] { missingPrefillTokens := 1024 } none).map
        Decision.action = .ok .load := by decide +kernel
  rw [decided, decided'] at actions
  have loads := Except.ok.inj actions.2
  have alone := decisions_monotone twoTiers deserialize { missingPrefillTokens := 1024 } (by norm_num)
    none [mebibyteIn .s3] (by simp) d decided
  have both := decisions_monotone twoTiers deserialize { missingPrefillTokens := 1024 } (by norm_num)
    none [mebibyteIn .s3, mebibyteIn .memory] (by simp) d' decided'
  refine ⟨d, d', decided, decided', Except.ok.inj actions.1, loads, ?_, (both.2.2 loads).1⟩
  exact alone.1 _ none _ d' ⟨le_refl _, rfl, le_refl _, le_refl _, fun heavy => heavy⟩ nofun
    (fun location member => ⟨location, List.mem_cons.mpr (.inl (List.mem_singleton.mp member)), rfl,
      le_refl _⟩) decided'

end CostModel

end AiStorage.KV
