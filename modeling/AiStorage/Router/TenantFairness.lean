import AiStorage.Lib.Rotation
import AiStorage.Router.TenantLoad

/-!
# Fair shares within a tenant

On a fixed list of equally loaded workers without cached blocks, a tenant's score of a worker
falls with the tenant's own count there, as long as queue and pressure leave room in a
`float64` for the difference. Each pick then goes to the earliest worker of least count.
-/
namespace AiStorage.Router
open Lib

/-- Queue and pressure cost at most `4.5 * 10 ^ 15`. -/
def WorkerState.Moderate (worker : WorkerState) : Prop :=
  |(worker.queueDepth : ℚ)| * (3 / 2) + |worker.resourcePressure| * 2 ≤ 9 / 2 * 10 ^ 15

/-- Routable workers with one queue depth and one pressure. -/
structure Uniform (workers : List WorkerState) : Prop where
  routable : ∀ worker ∈ workers, worker.routable = true
  queue : ∀ a ∈ workers, ∀ b ∈ workers, a.queueDepth = b.queueDepth
  pressure : ∀ a ∈ workers, ∀ b ∈ workers, a.resourcePressure = b.resourcePressure

/-- The call is made with these workers, and none of them holds a block of it. -/
structure PickCall.Cold (workers : List WorkerState) (call : PickCall) : Prop where
  fixed : call.workers = workers
  cold : ∀ worker ∈ workers, call.view.overlap call.req worker.id = 0

theorem Uniform.healthy {workers : List WorkerState} (uniform : Uniform workers) :
    healthy workers = workers :=
  List.filter_eq_self.mpr uniform.routable

namespace TenantAwareBoundedLoad

/-! ### The score in binary64 -/

section Score

open Float64

variable {x y : Float64} {a b : ℚ}

theorem within_exact {q : ℚ} {n : Int} {k : Nat} (same : q = n / 2 ^ k)
    (small : n.natAbs ≤ 2 ^ 53) (fine : k ≤ unitBits) : (q : Float64).Within |q| := by
  obtain ⟨finite, value⟩ := cast_exact same small fine
  exact ⟨finite, by rw [value]⟩

theorem near_less (left : x.Within a) {n : Nat} (small : n ≤ 2 ^ 53) (room : a + n < 2 ^ 52)
    (taken : Prop) [Decidable taken] :
    (if taken then x - ((n : ℚ) : Float64) else x).Within (a + n + 1 / 4) ∧
      |(if taken then x - ((n : ℚ) : Float64) else x).toRat - (x.toRat - if taken then n else 0)| ≤
        1 / 4 := by
  have least : (0 : ℚ) ≤ n := Nat.cast_nonneg n
  split_ifs
  · obtain ⟨finite, value⟩ := cast_exact (q := n) (n := n) (k := 0) (by simp) small (by decide)
    obtain ⟨within, near⟩ := left.near_sub (b := n) ⟨finite, by rw [value, abs_of_nonneg least]⟩ room
    rw [value] at near
    exact ⟨within, near⟩
  · refine ⟨⟨left.finite, left.abs_le.trans (by linarith)⟩, ?_⟩
    simp

theorem within_three (n : Nat) (few : n ≤ 1000001) :
    (((n : ℚ) : Float64) * ((3 : ℚ) : Float64)).Within 3000003 ∧
      (((n : ℚ) : Float64) * ((3 : ℚ) : Float64)).toRat = n * 3 := by
  obtain ⟨finite, value⟩ := cast_exact (q := n) (n := n) (k := 0) (by simp) (by omega) (by decide)
  obtain ⟨finite', value'⟩ := cast_exact (q := 3) (n := 3) (k := 0) (by simp) (by decide) (by decide)
  rw [mul_of_finite finite finite', value, value']
  obtain ⟨whole, same⟩ := @round_exact (n * 3) (by omega) 0 (by decide)
    (negative ((n : ℚ) : Float64) ^^ negative ((3 : ℚ) : Float64))
  have product : ((n * 3 : Int) : ℚ) / 2 ^ 0 = n * 3 := by simp
  rw [product] at whole same
  refine ⟨⟨whole, ?_⟩, same⟩
  have most : (n : ℚ) ≤ 1000001 := by exact_mod_cast few
  have least : (0 : ℚ) ≤ n := Nat.cast_nonneg n
  rw [same, abs_le]
  constructor <;> linarith

/-- The part of the score that does not depend on the tenant, without cached blocks. -/
def queueScore (worker : WorkerState) : Float64 :=
  ((0 : ℚ) : Float64) * ((8 : ℚ) : Float64) -
    ((worker.queueDepth : ℚ) : Float64) * ((3 / 2 : ℚ) : Float64)

def pressureScore (worker : WorkerState) : Float64 :=
  (worker.resourcePressure : Float64) * ((2 : ℚ) : Float64)

variable {worker : WorkerState}

theorem within_queueScore (moderate : worker.Moderate) :
    (queueScore worker).Within (|(worker.queueDepth : ℚ)| * (3 / 2) + 2) := by
  have most := abs_nonneg worker.resourcePressure
  unfold WorkerState.Moderate at moderate
  have queue := within_cast (le_refl |(worker.queueDepth : ℚ)|) (by linarith)
  have half := within_exact (q := 3 / 2) (n := 3) (k := 1) (by norm_num) (by decide) (by decide)
  have zero := within_exact (q := 0) (n := 0) (k := 0) (by simp) (by decide) (by decide)
  have eight := within_exact (q := 8) (n := 8) (k := 0) (by simp) (by decide) (by decide)
  norm_num at half zero eight
  have product := queue.mul half (by linarith)
  have nothing := zero.mul eight (by norm_num)
  obtain ⟨within, -⟩ := nothing.near_sub product (by linarith)
  exact ⟨within.finite, within.abs_le.trans (by linarith)⟩

theorem within_pressureScore (moderate : worker.Moderate) :
    (pressureScore worker).Within (|worker.resourcePressure| * 2 + 1) := by
  have most := abs_nonneg (worker.queueDepth : ℚ)
  unfold WorkerState.Moderate at moderate
  have pressure := within_cast (le_refl |worker.resourcePressure|) (by linarith)
  have two := within_exact (q := 2) (n := 2) (k := 0) (by simp) (by decide) (by decide)
  norm_num at two
  have product := pressure.mul two (by linarith)
  exact ⟨product.finite, product.abs_le.trans (by linarith)⟩

/-- The score of a worker without cached blocks, after its queue and pressure. -/
def countedScore (queue pressure : Float64) (count : Nat) (above full : Bool) : Float64 :=
  let score := queue - ((count : ℚ) : Float64) * ((3 : ℚ) : Float64) - pressure
  let score := if above then score - ((25 : ℚ) : Float64) else score
  if full then score - ((15 : ℚ) : Float64) else score

theorem near_countedScore {queue pressure : Float64} (left : queue.Within a)
    (right : pressure.Within b) {count : Nat} (few : count ≤ 1000001)
    (room : a + b + 3000044 < 2 ^ 52) (above full : Bool) :
    (countedScore queue pressure count above full).isFinite = true ∧
      |(countedScore queue pressure count above full).toRat - (queue.toRat - count * 3 -
        pressure.toRat - (if above then 25 else 0) - if full then 15 else 0)| ≤ 1 := by
  have some := (abs_nonneg _).trans left.abs_le
  have more := (abs_nonneg _).trans right.abs_le
  obtain ⟨counted, value⟩ := within_three _ few
  obtain ⟨first, near₁⟩ := left.near_sub counted (by linarith)
  obtain ⟨second, near₂⟩ := first.near_sub right (by linarith)
  obtain ⟨third, near₃⟩ := near_less second (n := 25) (by decide) (by push_cast; linarith) above
  obtain ⟨last, near₄⟩ := near_less third (n := 15) (by decide) (by push_cast; linarith) full
  refine ⟨last.finite, ?_⟩
  unfold countedScore
  rw [value] at near₁
  push_cast at near₃ near₄
  rw [abs_le] at near₁ near₂ near₃ near₄ ⊢
  constructor <;> linarith

theorem score_eq (t : TenantAwareBoundedLoad) (load : TenantLoad) (limit : Int)
    (avgQueue : Float64) {overlap : WorkerID → Nat} (cold : overlap worker.id = 0) :
    (t.score load limit avgQueue overlap worker).score =
      countedScore (queueScore worker) (pressureScore worker) (load.count worker.id)
        ((load.count worker.id : Int) > limit)
        (avgQueue + ((t.globalSlack : ℚ) : Float64) < ((worker.queueDepth : ℚ) : Float64)) := by
  simp only [score, cold, Nat.cast_zero, countedScore, queueScore, pressureScore, decide_eq_true_eq]

theorem countedScore_lt {queue pressure : Float64} (left : queue.Within a)
    (right : pressure.Within b) (room : a + b + 3000044 < 2 ^ 52) {count more : Nat} (limit : Int)
    (full : Bool) (less : count < more) (few : more ≤ 1000001) :
    countedScore queue pressure more ((more : Int) > limit) full <
      countedScore queue pressure count ((count : Int) > limit) full := by
  obtain ⟨finite, near⟩ := near_countedScore left right few room ((more : Int) > limit) full
  obtain ⟨finite', near'⟩ := near_countedScore left right (less.le.trans few) room
    ((count : Int) > limit) full
  rw [lt_iff_of_finite finite finite']
  have apart : (count : ℚ) + 1 ≤ more := by exact_mod_cast less
  -- the tenant's own penalty falls on the larger count, if on either
  have penalty : (if decide ((count : Int) > limit) then 25 else 0 : ℚ) ≤
      if decide ((more : Int) > limit) then 25 else 0 := by
    simp only [decide_eq_true_eq]
    split_ifs
    · exact le_rfl
    · omega
    · norm_num
    · exact le_rfl
  rw [abs_le] at near near'
  linarith

end Score

variable {workers : List WorkerState} {t : TenantAwareBoundedLoad} {call : PickCall}

theorem scoring_ordered (uniform : Uniform workers) (moderate : ∀ worker ∈ workers, worker.Moderate)
    (cold : call.Cold workers)
    (few : ∀ worker ∈ workers, (t.settled call).1.count worker.id ≤ 1000000) :
    Ordered (fun worker => OrderDual.toDual ((t.settled call).1.count worker.id))
      (t.scoring call Float64) workers := by
  have score : ∀ worker ∈ workers, (t.scoring call Float64 worker).score = _ :=
    fun worker member => score_eq t _ _ _ (cold.cold worker member)
  have room : ∀ worker ∈ workers, |(worker.queueDepth : ℚ)| * (3 / 2) + 2 +
      (|worker.resourcePressure| * 2 + 1) + 3000044 < 2 ^ 52 := by
    intro worker member
    have small := moderate worker member
    unfold WorkerState.Moderate at small
    linarith
  have finite : ∀ worker ∈ workers, (t.scoring call Float64 worker).score.isFinite = true := by
    intro worker member
    rw [score worker member]
    exact (near_countedScore (within_queueScore (moderate worker member))
      (within_pressureScore (moderate worker member)) ((few worker member).trans (by decide))
      (room worker member) _ _).1
  have falls : ∀ a ∈ workers, ∀ b ∈ workers,
      (t.settled call).1.count a.id < (t.settled call).1.count b.id →
        (t.scoring call Float64 b).score.toRat < (t.scoring call Float64 a).score.toRat := by
    intro a inA b inB less
    rw [← Float64.lt_iff_of_finite (finite b inB) (finite a inA), score a inA, score b inB]
    unfold queueScore pressureScore
    rw [uniform.queue b inB a inA, uniform.pressure b inB a inA]
    exact countedScore_lt (within_queueScore (moderate a inA))
      (within_pressureScore (moderate a inA)) (room a inA) _ _ less ((few b inB).trans (by decide))
  refine ⟨fun worker member => Float64.lowest_lt_of_finite (finite worker member), ?_⟩
  intro a inA b inB
  rw [OrderDual.toDual_lt_toDual, Float64.lt_iff_of_finite (finite a inA) (finite b inB)]
  rcases lt_trichotomy ((t.settled call).1.count a.id) ((t.settled call).1.count b.id) with
    less | same | more
  · exact iff_of_false (falls a inA b inB less).asymm less.asymm
  · have equal : (t.scoring call Float64 a).score = (t.scoring call Float64 b).score := by
      rw [score a inA, score b inB]
      unfold queueScore pressureScore
      rw [uniform.queue b inB a inA, uniform.pressure b inB a inA, same]
    rw [equal, same]
    exact iff_of_false (lt_irrefl _) (lt_irrefl _)
  · exact iff_of_true (falls b inB a inA more) more

/-- The best worker is the earliest one of least count. -/
theorem next_of_best {best : WorkerState}
    (first : FirstBest (fun worker => OrderDual.toDual ((t.settled call).1.count worker.id))
      workers best) : Next (workers.map WorkerState.id) (t.settled call).1.count best.id := by
  refine ⟨List.mem_map_of_mem first.mem, ?_, ?_⟩
  · intro id member
    obtain ⟨other, inside, rfl⟩ := List.mem_map.mp member
    exact first.le inside
  · intro id member earlier
    obtain ⟨before, after, split, lower, -⟩ := first
    rw [split, List.map_append, List.map_cons] at earlier
    obtain ⟨other, inside, rfl⟩ := List.mem_map.mp (mem_of_idxOf_lt earlier)
    exact lower other inside

/-- Every tenant's counts are level along the workers, and at most one above the million from
where they are halved. -/
def Fair (workers : List WorkerState) (t : TenantAwareBoundedLoad) : Prop :=
  ∀ tenant load, t.assignments.lookup tenant = some load →
    Level (workers.map WorkerState.id) load.count ∧
      ∀ worker ∈ workers, load.count worker.id ≤ 1000001

theorem Fair.held (fair : t.Fair workers) (tenant : String) :
    Level (workers.map WorkerState.id) (t.held tenant) := by
  unfold TenantAwareBoundedLoad.held
  cases found : t.assignments.lookup tenant with
  | none => exact Level.zero _
  | some load => exact (fair tenant load found).1

theorem Fair.opened (fair : t.Fair workers) (call : PickCall) :
    Level (workers.map WorkerState.id) (t.opened call).2.count ∧
      ∀ worker ∈ workers, (t.opened call).2.count worker.id ≤ 1000001 := by
  rcases (t.opened_opens call).load with empty | kept
  · rw [empty]
    exact ⟨Level.zero _, fun _ _ => Nat.zero_le _⟩
  · exact fair _ _ kept

theorem Fair.settled (fair : t.Fair workers) (call : PickCall) :
    Level (workers.map WorkerState.id) (t.settled call).1.count := by
  rw [show (t.settled call).1.count = _ from funext (t.settled_count call)]
  split_ifs
  · exact (fair.opened call).1.halve
  · exact (fair.opened call).1

theorem Fair.settled_few (fair : t.Fair workers) (uniform : Uniform workers)
    (fixed : call.workers = workers) :
    ∀ worker ∈ workers, (t.settled call).1.count worker.id ≤ 1000000 := by
  intro worker member
  have most := (fair.opened call).2 worker member
  rw [t.settled_count call]
  split_ifs with many
  · omega
  · rw [fixed, uniform.healthy, gt_iff_lt, not_lt] at many
    exact (List.single_le_sum (fun _ _ => Nat.zero_le _) _
      (List.mem_map_of_mem (f := fun worker => (t.opened call).2.count worker.id) member)).trans many

theorem Fair.pick (fair : t.Fair workers) (uniform : Uniform workers)
    (moderate : ∀ worker ∈ workers, worker.Moderate) (cold : call.Cold workers) :
    (t.pick call Float64).2.Fair workers := by
  by_cases none : Router.healthy call.workers = []
  · rw [t.pick_none Float64 none]
    exact fair
  · obtain ⟨start, best, decision, ranked, picked, -⟩ := t.pick_ok call Float64 none
    have few := fair.settled_few uniform cold.fixed
    have first := (rank_leads (scoring_ordered uniform moderate cold few) start (by
      rwa [cold.fixed, uniform.healthy] at none)).best
    rw [cold.fixed, uniform.healthy] at ranked
    rw [← ranked] at first
    rw [picked]
    intro tenant load found
    by_cases own : tenant = tenantKey call.req
    · subst own
      rw [assigned, AList.lookup_insert, Option.some_inj] at found
      rw [← found, TenantLoad.count_insert]
      refine ⟨(fair.settled call).count_next (next_of_best first), fun worker member => ?_⟩
      have fewer := few worker member
      by_cases here : worker.id = best.id
      · rw [here, Function.update_self, ← here]
        omega
      · rw [Function.update_of_ne here]
        omega
    · rw [assigned, AList.lookup_insert_ne own] at found
      exact fair tenant load ((t.opened_opens call).others tenant load own found)

theorem Fair.after (fair : t.Fair workers) (uniform : Uniform workers)
    (moderate : ∀ worker ∈ workers, worker.Moderate) {calls : List PickCall}
    (cold : ∀ call ∈ calls, call.Cold workers) : (t.after calls Float64).Fair workers := by
  induction calls generalizing t with
  | nil => exact fair
  | cons call rest ih =>
    exact ih (fair.pick uniform moderate (cold call (by simp)))
      fun call member => cold call (List.mem_cons_of_mem _ member)

/-- With scores in binary64, from an empty start and after any calls of any tenants on the fixed
workers, each tenant's counts for two workers differ by at most one, also at the point of a
further call where its counts may just have been halved. While a tenant is neither halved nor
reset, what it is sent from then on differs by at most one too. -/
theorem counts_differ_by_at_most_one (workers : List WorkerState) (uniform : Uniform workers)
    (moderate : ∀ worker ∈ workers, worker.Moderate) (t : TenantAwareBoundedLoad)
    (empty : t.assignments = ∅) (calls : List PickCall)
    (cold : ∀ call ∈ calls, call.Cold workers) {a b : WorkerState} (inA : a ∈ workers)
    (inB : b ∈ workers) :
    (∀ tenant load, (t.after calls Float64).assignments.lookup tenant = some load →
      load.count a.id ≤ load.count b.id + 1) ∧
    (∀ call, ((t.after calls Float64).settled call).1.count a.id ≤
      ((t.after calls Float64).settled call).1.count b.id + 1) ∧
    ∀ tenant segment, (∀ call ∈ segment, call.Cold workers) →
      Along (fun t call => (t.pick call Float64).2) (Undisturbed tenant) (t.after calls Float64)
        segment →
        sent Float64 tenant a.id (t.after calls Float64) segment ≤
          sent Float64 tenant b.id (t.after calls Float64) segment + 1 := by
  have start : t.Fair workers := by
    intro tenant load found
    rw [empty] at found
    cases found
  have fair := start.after uniform moderate cold
  have idA : a.id ∈ workers.map WorkerState.id := List.mem_map_of_mem inA
  have idB : b.id ∈ workers.map WorkerState.id := List.mem_map_of_mem inB
  refine ⟨?_, ?_, ?_⟩
  · intro tenant load found
    exact (fair tenant load found).1.close idA idB
  · intro call
    exact (fair.settled call).close idA idB
  · intro tenant segment also undisturbed
    have later := (fair.after uniform moderate also).held tenant
    rw [show ((t.after calls Float64).after segment Float64).held tenant = _ from
      funext (held_after undisturbed)] at later
    exact (fair.held tenant).shares_close later idA idB

def pressed (pressure : ℚ) : List WorkerState :=
  [{ id := "worker-0", url := "", memoryPressure := pressure },
    { id := "worker-1", url := "", memoryPressure := pressure }]

/-- At a pressure of `10 ^ 18` a count of ten is lost in the rounding, and all picks go to the
first worker. -/
theorem large_pressure_hides_counts :
    ((after {} (List.replicate 10 (plainCall (pressed (10 ^ 18)))) Float64).assignments.lookup
      "unknown").map (fun load => (load.count "worker-0", load.count "worker-1")) =
        some (10, 0) := by
  decide +kernel

theorem counts_differ_by_at_most_one_two : ∃ load,
    (after {} (List.replicate 3 (plainCall (pressed 1))) Float64).assignments.lookup "unknown" =
        some load ∧
      load.count "worker-0" = 2 ∧ load.count "worker-0" ≤ load.count "worker-1" + 1 := by
  have uniform : Uniform (pressed 1) := ⟨by decide, by decide, by decide +kernel⟩
  have moderate : ∀ worker ∈ pressed 1, worker.Moderate := by
    unfold WorkerState.Moderate
    decide +kernel
  have each : ∀ call ∈ List.replicate 3 (plainCall (pressed 1)), call.Cold (pressed 1) := by
    intro call member
    rw [List.eq_of_mem_replicate member]
    exact ⟨rfl, fun _ _ => rfl⟩
  have counts : ((after {} (List.replicate 3 (plainCall (pressed 1))) Float64).assignments.lookup
      "unknown").map (fun load => load.count "worker-0") = some 2 := by decide +kernel
  obtain ⟨load, found, two⟩ := Option.map_eq_some_iff.mp counts
  have level := (@counts_differ_by_at_most_one (pressed 1) uniform moderate {} rfl _ each
    { id := "worker-0", url := "", memoryPressure := 1 }
    { id := "worker-1", url := "", memoryPressure := 1 } (by simp [pressed]) (by simp [pressed])).1
  exact ⟨load, found, two, level "unknown" load found⟩

end TenantAwareBoundedLoad

end AiStorage.Router
