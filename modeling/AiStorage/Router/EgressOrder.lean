import AiStorage.Router.Strategies

/-!
# The egress class of a worker

`scoreWorker` keeps one egress class of the non-local locations by `egressRank` and prices it
by `egressPenalty`. The two tables agree except on `unknown`, which has the rank of
`intra_zone` and a higher price. The transfer times of the locations are added in `float64`.
-/
namespace AiStorage.Router
open Lib

def validEgressCostClass (class_ : String) : Bool :=
  class_ = "" || class_ = "none" || class_ = "intra_zone" || class_ = "cross_zone" ||
    class_ = "cross_region" || class_ = "cross_cloud" || class_ = "unknown"

def nonLocalClasses (locations : List BlockLocation) : List String :=
  (locations.filter fun loc => !isLocalLocation loc).map BlockLocation.egressCostClass

def worstPenalty (classes : List String) : ℚ := (classes.map egressPenalty).foldr max 0

/-- Nothing crosses a zone, `unknown` occurs, and `intra_zone` comes first. -/
def Shadowed (classes : List String) : Prop :=
  (∀ class_ ∈ classes, egressRank class_ ≤ 1) ∧ "unknown" ∈ classes ∧
    classes.find? (fun class_ => egressRank class_ = 1) = some "intra_zone"

instance (classes : List String) : Decidable (Shadowed classes) :=
  inferInstanceAs (Decidable (_ ∧ _ ∧ _))

/-! ### The loop over the locations -/

def transferTimes (locations : List BlockLocation) : List ℚ :=
  (locations.filter fun loc => !isLocalLocation loc).map estimatedTransferMS

theorem foldl_add {F : Type} [Arithmetic F] (locations : List BlockLocation) (reuse : Reuse F) :
    (locations.foldl Reuse.add reuse).localOverlap =
        reuse.localOverlap + locations.countP isLocalLocation ∧
      (locations.foldl Reuse.add reuse).sharedOverlap =
        reuse.sharedOverlap + locations.countP (fun loc => !isLocalLocation loc) ∧
      (locations.foldl Reuse.add reuse).transferMS =
        accumulate reuse.transferMS (transferTimes locations) ∧
      (locations.foldl Reuse.add reuse).egressClass =
        (nonLocalClasses locations).foldl worseEgressClass reuse.egressClass := by
  induction locations generalizing reuse with
  | nil => simp [nonLocalClasses, transferTimes, accumulate]
  | cons loc rest ih =>
    obtain ⟨near, far, transfer, egress⟩ := ih (reuse.add loc)
    simp only [List.foldl_cons, near, far, transfer, egress]
    by_cases here : isLocalLocation loc = true <;>
      simp [Reuse.add, here, nonLocalClasses, transferTimes, accumulate] <;> omega

theorem worst_firstBest (classes : List String) :
    FirstBest egressRank ("none" :: classes) (classes.foldl worseEgressClass "none") := by
  have kept : worseEgressClass =
      fun best class_ => if egressRank best < egressRank class_ then class_ else best := rfl
  rw [kept]
  exact (FirstBest.singleton egressRank "none").foldl classes

/-! ### Ranks and prices -/

theorem egressPenalty_nonneg (class_ : String) : 0 ≤ egressPenalty class_ := by
  unfold egressPenalty
  split_ifs <;> norm_num

theorem egressPenalty_le_of_rank_lt {a b : String} (lower : egressRank a < egressRank b) :
    egressPenalty a ≤ egressPenalty b := by
  unfold egressRank at lower
  unfold egressPenalty
  split_ifs at lower ⊢ <;> first | omega | norm_num

theorem egressPenalty_of_rank_eq {a b : String} (same : egressRank a = egressRank b)
    (apart : egressRank a ≠ 1) : egressPenalty a = egressPenalty b := by
  unfold egressRank at same apart
  unfold egressPenalty
  split_ifs at same apart ⊢ <;> first | rfl | omega

variable {class_ : String} {classes : List String}

theorem eq_of_rank_one (valid : validEgressCostClass class_ = true)
    (one : egressRank class_ = 1) : class_ = "intra_zone" ∨ class_ = "unknown" := by
  simp only [validEgressCostClass, Bool.or_eq_true, decide_eq_true_eq] at valid
  rcases valid with (((((rfl | rfl) | rfl) | rfl) | rfl) | rfl) | rfl <;> revert one <;> decide

theorem egressPenalty_intraZone : egressPenalty "intra_zone" = 1 / 10 := rfl

theorem egressPenalty_unknown : egressPenalty "unknown" = 1 / 2 := rfl

theorem egressPenalty_le_half (low : egressRank class_ ≤ 1) :
    egressPenalty class_ ≤ 1 / 2 := by
  unfold egressRank at low
  unfold egressPenalty
  split_ifs at low ⊢ <;> first | omega | norm_num

theorem egressPenalty_le_tenth (valid : validEgressCostClass class_ = true)
    (low : egressRank class_ ≤ 1) (known : class_ ≠ "unknown") : egressPenalty class_ ≤ 1 / 10 := by
  rcases low.lt_or_eq with lower | one
  · exact egressPenalty_intraZone ▸ egressPenalty_le_of_rank_lt lower
  · rcases eq_of_rank_one valid one with rfl | rfl
    · exact egressPenalty_intraZone.le
    · exact absurd rfl known

theorem le_worstPenalty (member : class_ ∈ classes) :
    egressPenalty class_ ≤ worstPenalty classes := by
  unfold worstPenalty
  induction classes with
  | nil => cases member
  | cons head rest ih =>
    rw [List.map_cons, List.foldr_cons]
    rcases List.mem_cons.mp member with rfl | later
    · exact le_max_left _ _
    · exact (ih later).trans (le_max_right _ _)

theorem worstPenalty_le {bound : ℚ} (nonneg : 0 ≤ bound)
    (each : ∀ class_ ∈ classes, egressPenalty class_ ≤ bound) : worstPenalty classes ≤ bound := by
  unfold worstPenalty
  induction classes with
  | nil => exact nonneg
  | cons head rest ih =>
    rw [List.map_cons, List.foldr_cons]
    apply max_le
    · exact each head List.mem_cons_self
    · exact ih fun class_ member => each class_ (List.mem_cons_of_mem _ member)

theorem worstPenalty_mono {more : List String} (part : classes ⊆ more) :
    worstPenalty classes ≤ worstPenalty more := by
  apply worstPenalty_le
  · cases more with
    | nil => exact le_rfl
    | cons head rest => exact (egressPenalty_nonneg head).trans (le_worstPenalty List.mem_cons_self)
  · intro class_ member
    exact le_worstPenalty (part member)

/-! ### The class that is kept -/

theorem find_of_firstBest {kept : String}
    (best : FirstBest egressRank ("none" :: classes) kept) (one : egressRank kept = 1) :
    classes.find? (fun class_ => egressRank class_ = 1) = some kept := by
  obtain ⟨before, after, split, lower, -⟩ := best
  have first : ("none" :: classes).find? (fun class_ => egressRank class_ = 1) = some kept := by
    rw [split, List.find?_append]
    have skipped : before.find? (fun class_ => egressRank class_ = 1) = none := by
      apply List.find?_eq_none.mpr
      intro class_ member
      have less := lower class_ member
      simp only [decide_eq_true_eq]
      omega
    rw [skipped, Option.none_or, List.find?_cons_of_pos (by simpa using one)]
  rwa [List.find?_cons_of_neg (by decide)] at first

theorem penalty_le_worst (classes : List String) :
    egressPenalty (classes.foldl worseEgressClass "none") ≤ worstPenalty classes := by
  have best := worst_firstBest classes
  generalize classes.foldl worseEgressClass "none" = kept at best
  rcases List.mem_cons.mp best.mem with rfl | member
  · exact worstPenalty_mono (List.nil_subset classes)
  · exact le_worstPenalty member

theorem penalty_eq_worst_iff (accepted : ∀ class_ ∈ classes, validEgressCostClass class_ = true) :
    egressPenalty (classes.foldl worseEgressClass "none") = worstPenalty classes ↔
      ¬ Shadowed classes := by
  have best := worst_firstBest classes
  have reached := penalty_le_worst classes
  generalize classes.foldl worseEgressClass "none" = kept at best reached
  have worst (each : ∀ class_ ∈ classes, egressPenalty class_ ≤ egressPenalty kept) :
      egressPenalty kept = worstPenalty classes :=
    le_antisymm reached (worstPenalty_le (egressPenalty_nonneg _) each)
  have top : ∀ class_ ∈ classes, egressRank class_ ≤ egressRank kept :=
    fun class_ member => best.le (List.mem_cons_of_mem _ member)
  by_cases one : egressRank kept = 1
  · have first := find_of_firstBest best one
    have member := List.mem_of_find?_eq_some first
    have low : ∀ class_ ∈ classes, egressRank class_ ≤ 1 := one ▸ top
    rcases eq_of_rank_one (accepted kept member) one with rfl | rfl
    · have shadowed : Shadowed classes ↔ "unknown" ∈ classes :=
        ⟨fun shadowed => shadowed.2.1, fun unknown => ⟨low, unknown, first⟩⟩
      rw [shadowed]
      constructor
      · intro same unknown
        have price := le_worstPenalty unknown
        rw [← same, egressPenalty_unknown, egressPenalty_intraZone] at price
        norm_num at price
      · intro known
        apply worst
        intro class_ inside
        exact egressPenalty_le_tenth (accepted class_ inside) (low class_ inside)
          fun same => known (same ▸ inside)
    · constructor
      · rintro - ⟨-, -, other⟩
        rw [first] at other
        exact absurd other (by decide)
      · intro _
        apply worst
        intro class_ inside
        rw [egressPenalty_unknown]
        exact egressPenalty_le_half (low class_ inside)
  · constructor
    · rintro - ⟨low, unknown, -⟩
      have above := top "unknown" unknown
      rcases List.mem_cons.mp best.mem with rfl | member
      · exact absurd above (by decide)
      · have below := low kept member
        have rank : egressRank "unknown" = 1 := by decide
        omega
    · intro _
      apply worst
      intro class_ inside
      rcases (top class_ inside).lt_or_eq with lower | same
      · exact egressPenalty_le_of_rank_lt lower
      · exact (egressPenalty_of_rank_eq same.symm one).ge

theorem penalty_of_shadowed (shadowed : Shadowed classes) :
    egressPenalty (classes.foldl worseEgressClass "none") = 1 / 10 ∧
      worstPenalty classes = 1 / 2 := by
  obtain ⟨low, unknown, first⟩ := shadowed
  have best := worst_firstBest classes
  generalize classes.foldl worseEgressClass "none" = kept at best
  have one : egressRank kept = 1 := by
    apply le_antisymm
    · rcases List.mem_cons.mp best.mem with rfl | member
      · decide
      · exact low kept member
    · exact best.le (List.mem_cons_of_mem _ unknown)
  have same : kept = "intra_zone" := Option.some.inj ((find_of_firstBest best one).symm.trans first)
  refine ⟨by rw [same, egressPenalty_intraZone], ?_⟩
  apply le_antisymm
  · exact worstPenalty_le (by norm_num) fun class_ inside => egressPenalty_le_half (low class_ inside)
  · exact egressPenalty_unknown ▸ le_worstPenalty unknown

/-- Further classes lower the price exactly when they shadow an `unknown` that was priced. -/
theorem penalty_le_iff {more : List String} (part : classes ⊆ more)
    (accepted : ∀ class_ ∈ more, validEgressCostClass class_ = true) :
    egressPenalty (classes.foldl worseEgressClass "none") ≤
        egressPenalty (more.foldl worseEgressClass "none") ↔
      (Shadowed more → "unknown" ∈ classes → Shadowed classes) := by
  have acceptedFirst : ∀ class_ ∈ classes, validEgressCostClass class_ = true :=
    fun class_ member => accepted class_ (part member)
  by_cases shadowed : Shadowed more
  · rw [(penalty_of_shadowed shadowed).1]
    constructor
    · intro lower _ unknown
      by_contra visible
      rw [(penalty_eq_worst_iff acceptedFirst).mpr visible] at lower
      have price := (le_worstPenalty unknown).trans lower
      rw [egressPenalty_unknown] at price
      norm_num at price
    · intro hidden
      by_cases unknown : "unknown" ∈ classes
      · exact (penalty_of_shadowed (hidden shadowed unknown)).1.le
      · apply (penalty_le_worst classes).trans
        apply worstPenalty_le (by norm_num)
        intro class_ inside
        exact egressPenalty_le_tenth (acceptedFirst class_ inside)
          (shadowed.1 class_ (part inside)) fun same => unknown (same ▸ inside)
  · constructor
    · intro _ wrong
      exact absurd wrong shadowed
    · intro _
      rw [(penalty_eq_worst_iff accepted).mpr shadowed]
      exact (penalty_le_worst classes).trans (worstPenalty_mono part)

namespace TopologyAwareCostAware

variable (t : TopologyAwareCostAware) (req : RequestContext) (worker : WorkerState)

theorem scoreWorker_egressCostClass (locations : WorkerID → List BlockLocation) (F : Type)
    [Arithmetic F] [DecidableLT F] :
    (t.scoreWorker req locations worker F).egressCostClass =
      (nonLocalClasses (locations worker.id)).foldl worseEgressClass "none" :=
  (foldl_add (locations worker.id) ({} : Reuse F)).2.2.2

/-- Apart from the egress price and the sum of the transfer times, the score is one of the
locations in any order. -/
theorem score_eq_of_perm {F : Type} [Arithmetic F] [DecidableLT F]
    {locations others : WorkerID → List BlockLocation}
    (perm : (others worker.id).Perm (locations worker.id))
    (transfer : accumulate ((0 : ℚ) : F) (transferTimes (others worker.id)) =
      accumulate ((0 : ℚ) : F) (transferTimes (locations worker.id)))
    (price : egressPenalty (t.scoreWorker req others worker F).egressCostClass =
      egressPenalty (t.scoreWorker req locations worker F).egressCostClass) :
    (t.scoreWorker req others worker F).score = (t.scoreWorker req locations worker F).score := by
  obtain ⟨near, far, sum, -⟩ := foldl_add (locations worker.id) ({} : Reuse F)
  obtain ⟨near', far', sum', -⟩ := foldl_add (others worker.id) ({} : Reuse F)
  rw [perm.countP_eq] at near' far'
  simp only [scoreWorker, near, far, sum, near', far', sum', transfer] at price ⊢
  rw [price]

theorem accepted_classes {locations : List BlockLocation}
    (accepted : ∀ loc ∈ locations, validEgressCostClass loc.egressCostClass = true) :
    ∀ class_ ∈ nonLocalClasses locations, validEgressCostClass class_ = true := by
  intro class_ member
  obtain ⟨loc, inside, rfl⟩ := List.mem_map.mp member
  exact accepted loc (List.mem_filter.mp inside).1

def zoneThenUnknown : List BlockLocation :=
  [{ tier := "s3", egressCostClass := "intra_zone" }, { tier := "s3", egressCostClass := "unknown" }]

def threeTransfers : List BlockLocation :=
  [{ tier := "s3", estimatedTransferP95Ms := 1 / 10 },
    { tier := "s3", estimatedTransferP95Ms := 2 / 10 },
    { tier := "s3", estimatedTransferP95Ms := 456 / 10 }]

def idleScore (locations : List BlockLocation) : Float64 :=
  (TopologyAwareCostAware.scoreWorker {} {} (fun _ => locations) { id := "worker-0", url := "" }
    Float64).score

/-- The two locations, and one in another region, with transfer times of halves. -/
def withCrossing : List BlockLocation :=
  zoneThenUnknown ++
    [{ tier := "s3", egressCostClass := "cross_region", estimatedTransferP95Ms := 5 / 2 },
      { tier := "s3", estimatedTransferP95Ms := 3 }]

end TopologyAwareCostAware

end AiStorage.Router
