import AiStorage.Router.Picks

/-!
# The queue bound of the prefix strategy

`PrefixHashBoundedLoad` leaves its prefix choice when that worker's queue is over the
threshold. The fallback compares a hashed pair by `loadScore`, which also weighs decode blocks
and memory pressure, so it can come back to an overloaded worker. Ratio, average and load
scores are exact here; the sum of the queues and the threshold are Go integers.
-/
namespace AiStorage.Router
open Lib

theorem findWorker_mem {workers : List WorkerState} (distinct : (workers.map WorkerState.id).Nodup)
    {worker : WorkerState} (member : worker ∈ workers) : findWorker workers worker.id = worker := by
  have found : workers.find? (fun other => other.id = worker.id) = some worker := by
    rw [List.find?_eq_some_iff_append]
    obtain ⟨before, after, rfl⟩ := List.append_of_mem member
    refine ⟨by simp, before, after, rfl, ?_⟩
    intro other earlier
    rw [List.map_append, List.nodup_append] at distinct
    simpa using distinct.2.2 other.id (List.mem_map_of_mem earlier) worker.id (by simp)
  rw [findWorker, found, Option.getD_some]

namespace PrefixHashBoundedLoad

def totalQueue (workers : List WorkerState) : Int :=
  ((healthy workers).map WorkerState.queueDepth).sum

def bound (p : PrefixHashBoundedLoad) (workers : List WorkerState) : Int :=
  ⌈(totalQueue workers : ℚ) / (healthy workers).length * p.ratio⌉ + p.slack

def Within (p : PrefixHashBoundedLoad) (workers : List WorkerState) (worker : WorkerState) : Prop :=
  worker.queueDepth ≤ p.bound workers

/-- Ratio and slack are large enough, queues are not negative, and neither their sum nor the
bound overflows an `int`. -/
structure Sane (p : PrefixHashBoundedLoad) (workers : List WorkerState) : Prop where
  ratio : 1 ≤ p.ratio
  slack : 1 ≤ p.slack
  queues : ∀ worker ∈ workers, 0 ≤ worker.queueDepth
  total : totalQueue workers < 2 ^ 63
  bound : p.bound workers < 2 ^ 63

variable {p : PrefixHashBoundedLoad} {workers : List WorkerState}

theorem Sane.totalQueue_nonneg (sane : p.Sane workers) : 0 ≤ totalQueue workers := by
  refine List.sum_nonneg fun queue member => ?_
  obtain ⟨worker, inside, rfl⟩ := List.mem_map.mp member
  exact sane.queues worker (mem_healthy.mp inside).1

theorem Sane.threshold_eq (sane : p.Sane workers) (some : healthy workers ≠ []) :
    p.threshold workers = p.bound workers := by
  have total := sane.totalQueue_nonneg
  have average : averageQueue (healthy workers) =
      (totalQueue workers : ℚ) / (healthy workers).length := by
    unfold averageQueue
    rw [if_neg (List.length_pos_iff.mpr some).ne', show (List.map _ _).sum = totalQueue workers
      from rfl, wrapInt_of_range (by decide) (by omega) sane.total]
    rfl
  have least : 0 ≤ ⌈(totalQueue workers : ℚ) / (healthy workers).length * p.ratio⌉ := by
    have ratio := sane.ratio
    have cast : (0 : ℚ) ≤ totalQueue workers := by exact_mod_cast total
    positivity
  have slack := sane.slack
  have fits := sane.bound
  unfold PrefixHashBoundedLoad.bound at fits ⊢
  rw [threshold, average, goInt, if_pos (by omega), wrapInt_of_range (by decide) (by omega) fits]

theorem Sane.within_of_single {worker : WorkerState} (sane : p.Sane workers)
    (single : healthy workers = [worker]) : p.Within workers worker := by
  have total : totalQueue workers = worker.queueDepth := by simp [totalQueue, single]
  have nonnegative : (0 : ℚ) ≤ worker.queueDepth := by exact_mod_cast total ▸ sane.totalQueue_nonneg
  have scaled : (worker.queueDepth : ℚ) ≤ worker.queueDepth * p.ratio :=
    le_mul_of_one_le_right nonnegative sane.ratio
  have ceiling : (worker.queueDepth : ℚ) ≤ ⌈worker.queueDepth * p.ratio⌉ :=
    scaled.trans (Int.le_ceil _)
  have integral : worker.queueDepth ≤ ⌈worker.queueDepth * p.ratio⌉ := by exact_mod_cast ceiling
  have slack := sane.slack
  rw [Within, PrefixHashBoundedLoad.bound, total, single, List.length_singleton, Nat.cast_one, div_one]
  omega

/-- One routable worker at most is over the bound, and every other one has a smaller load score. -/
def OneHeavy (p : PrefixHashBoundedLoad) (workers : List WorkerState) : Prop :=
  ∀ heavy ∈ healthy workers, ¬ p.Within workers heavy → ∀ other ∈ healthy workers, other ≠ heavy →
    p.Within workers other ∧ loadScore other < loadScore heavy

theorem OneHeavy.within_lighter (one : p.OneHeavy workers) {a b : WorkerState}
    (inA : a ∈ healthy workers) (inB : b ∈ healthy workers) (apart : a ≠ b) :
    p.Within workers (lighter a b) := by
  by_contra above
  obtain ⟨least, least'⟩ := lighter_least a b
  rcases lighter_eq a b with same | same
  · rw [same] at above least'
    exact absurd least' (not_le.mpr (one a inA above b inB apart.symm).2)
  · rw [same] at above least
    exact absurd least (not_le.mpr (one b inB above a inA apart).2)

/-- When the hashed pair, compared by `loadScore`, gives a worker within the bound. -/
def PairWithin (p : PrefixHashBoundedLoad) (workers : List WorkerState) (a b : WorkerState) :
    Prop :=
  p.Within workers a ∧ p.Within workers b ∨
    p.Within workers a ∧ loadScore a ≤ loadScore b ∨
    p.Within workers b ∧ loadScore b < loadScore a

theorem within_lighter {a b : WorkerState} :
    p.Within workers (lighter a b) ↔ p.PairWithin workers a b := by
  unfold lighter PairWithin
  split_ifs with less
  · have notLess : ¬ loadScore a ≤ loadScore b := not_le.mpr less
    tauto
  · have notLess : loadScore a ≤ loadScore b := not_lt.mp less
    tauto

/-- The prefix choice is within the bound, or the hashed pair leads to a worker that is. -/
def Bounded (p : PrefixHashBoundedLoad) (req : RequestContext) (workers : List WorkerState)
    (view : IndexView) : Prop :=
  ∃ preferred, PrefixHash.Choice req workers view preferred ∧
    (p.Within workers preferred ∨
      ∃ a b, P2C.HashedPair req workers a b ∧ p.PairWithin workers a b)

end PrefixHashBoundedLoad

theorem P2C.HashedPair.ne {req : RequestContext} {workers : List WorkerState} {a b : WorkerState}
    (distinct : (workers.map WorkerState.id).Nodup) (two : 2 ≤ (healthy workers).length)
    (pair : P2C.HashedPair req workers a b) : a ≠ b := by
  rintro rfl
  have unique : (healthy workers).Nodup :=
    (List.Nodup.of_map WorkerState.id distinct).filter _
  obtain ⟨inside, here⟩ := List.getElem?_eq_some_iff.mp pair.1
  obtain ⟨inside', here'⟩ := List.getElem?_eq_some_iff.mp pair.2
  exact deterministicPair_ne req.requestIDHash two
    ((List.Nodup.getElem_inj_iff unique).mp (here.trans here'.symm))

def queuedAndDecoding : List WorkerState :=
  [{ id := "worker-0", url := "", queueDepth := 100 },
    { id := "worker-1", url := "", activeDecodeBlocks := 1000 }]

def spilledTo (worker : WorkerID) : RouteDecision where
  strategy := "prefix_hash_bounded_load"
  workerID := worker
  fallback := true
  fallbackReason := "bounded_load_spillover"
  candidateCount := 2
  reason := "bounded_load_spillover"

def cachedAndIdle : List WorkerState :=
  [{ id := "worker-0", url := "", queueDepth := 100 }, { id := "worker-1", url := "" }]

def cachedView : IndexView where
  idx := { Index.new 0 with
    byBlock := AList.insert "a" (AList.insert "worker-0" { expiresAt := 1 } ∅) ∅ }
  now := 0

end AiStorage.Router
