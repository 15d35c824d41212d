import AiStorage.Lib.Cycle
import AiStorage.Router.Picks

/-!
# The round-robin counter

The counter of `RoundRobin` is a Go `int` that only grows, so after enough picks it wraps to a
negative number. Go's remainder of a negative number is not positive: unless it is zero, the
index is outside the slice and `Pick` panics.
-/
namespace AiStorage.Router
open Lib

/-! ### One pick -/

namespace RoundRobin

/-- The remainder of the counter is an index: the counter is not negative, or it is a
multiple of the number of candidates. -/
def Aligned (candidates : Nat) (counter : Int) : Prop :=
  0 ≤ counter ∨ (candidates : Int) ∣ counter

section Pick

variable {bits : Nat} {r : RoundRobin} {req : RequestContext} {workers : List WorkerState}

theorem pickOn_of_nil (none : healthy workers = []) :
    r.pickOn bits req workers = (.error .noHealthyWorker, r) := by
  simp [pickOn, none]

theorem pickOn_of_aligned (bits : Nat) (req : RequestContext) (some : healthy workers ≠ [])
    (aligned : Aligned (healthy workers).length r.next) :
    ∃ worker decision, (healthy workers)[(r.next % (healthy workers).length).toNat]? =
        Option.some worker ∧ decision.workerID = worker.id ∧
      r.pickOn bits req workers = (.ok decision, { next := wrapInt bits (r.next + 1) }) := by
  have positive : 0 < (healthy workers).length := List.length_pos_iff.mpr some
  have index : r.next.tmod (healthy workers).length = r.next % (healthy workers).length := by
    rcases aligned with up | multiple
    · exact Int.tmod_eq_emod_of_nonneg up
    · rw [Int.tmod_eq_zero_of_dvd multiple, Int.emod_eq_zero_of_dvd multiple]
  have least := Int.emod_nonneg r.next (show ((healthy workers).length : Int) ≠ 0 by omega)
  have most := Int.emod_lt_of_pos r.next (show (0 : Int) < (healthy workers).length by omega)
  have inside : (r.next % (healthy workers).length).toNat < (healthy workers).length := by omega
  obtain ⟨worker, -, found, read⟩ := goIndex_ok inside
  rw [Int.toNat_of_nonneg least] at read
  rw [pickOn, if_neg positive.ne', index, read]
  exact ⟨worker, _, found, rfl, rfl⟩

theorem pickOn_of_not_aligned (some : healthy workers ≠ [])
    (outside : ¬ Aligned (healthy workers).length r.next) :
    r.pickOn bits req workers = (.error .indexOutOfRange, r) := by
  have positive : 0 < (healthy workers).length := List.length_pos_iff.mpr some
  obtain ⟨down, free⟩ := not_or.mp outside
  have negative : r.next.tmod (healthy workers).length < 0 := by
    have opposite : (-r.next).tmod (healthy workers).length =
        -(r.next.tmod (healthy workers).length) := Int.neg_tmod _ _
    have least : 0 ≤ (-r.next).tmod (healthy workers).length :=
      Int.tmod_nonneg _ (by omega)
    have rest : r.next.tmod (healthy workers).length ≠ 0 :=
      fun none => free (Int.dvd_of_tmod_eq_zero none)
    omega
  rw [pickOn, if_neg positive.ne', goIndex, if_pos negative]

end Pick

theorem Aligned.wrapInt_succ_emod {bits candidates n : Nat} (positive : 0 < bits)
    (aligned : Aligned candidates (wrapInt bits (n + 1 : Nat))) :
    wrapInt bits (n + 1 : Nat) % candidates = (wrapInt bits n + 1) % candidates := by
  rw [Int.natCast_succ] at aligned ⊢
  have half : (0 : Int) < 2 ^ (bits - 1) := Int.pow_pos (by decide)
  rcases wrapInt_succ positive n with up | ⟨least, most⟩
  · rw [up]
  · rcases aligned with wrong | multiple
    · omega
    · rw [Int.emod_eq_zero_of_dvd multiple, most, Int.emod_eq_zero_of_dvd]
      rw [least] at multiple
      exact Int.dvd_neg.mp multiple

/-! ### Runs of picks -/

theorem counter_new {bits : Nat} (positive : 0 < bits) :
    ({} : RoundRobin).next = wrapInt bits (0 : Nat) := by
  have half : (0 : Int) < 2 ^ (bits - 1) := Int.pow_pos (by decide)
  exact (wrapInt_of_range positive (by simp [half.le]) half).symm

theorem counter_succ {bits earlier : Nat} {r : RoundRobin}
    (counted : r.next = wrapInt bits earlier) :
    wrapInt bits (r.next + 1) = wrapInt bits (earlier + 1 : Nat) := by
  rw [counted, wrapInt_wrapInt_add]
  rfl

/-- What consecutive picks return. A panic leaves the mutex locked, so no later pick
returns. -/
def picksOn (bits : Nat) : RoundRobin → List (RequestContext × List WorkerState) →
    List (Except PickError RouteDecision) × RoundRobin
  | r, [] => ([], r)
  | r, call :: rest =>
    match r.pickOn bits call.1 call.2 with
    | (.error .indexOutOfRange, after) => ([.error .indexOutOfRange], after)
    | (result, after) => (result :: (picksOn bits after rest).1, (picksOn bits after rest).2)

def chosen (results : List (Except PickError RouteDecision)) : List WorkerID :=
  results.filterMap fun result => result.toOption.map RouteDecision.workerID

@[simp] theorem chosen_ok_cons (decision : RouteDecision)
    (results : List (Except PickError RouteDecision)) :
    chosen (.ok decision :: results) = decision.workerID :: chosen results := rfl

def InRange (results : List (Except PickError RouteDecision)) : Prop :=
  .error .indexOutOfRange ∉ results

/-- All picks of a window chose a worker, and each routable worker was chosen its share
of the times, rounded down or up. -/
structure Fair (workers : List WorkerState) (number : Nat)
    (results : List (Except PickError RouteDecision)) : Prop where
  inRange : InRange results
  answered : (chosen results).length = number
  least : ∀ id, ((healthy workers).map (·.id)).count id * (number / (healthy workers).length) ≤
    (chosen results).count id
  most : ∀ id, (chosen results).count id ≤ ((healthy workers).map (·.id)).count id *
    ((number + (healthy workers).length - 1) / (healthy workers).length)

section Runs

variable {bits : Nat} {r : RoundRobin} {req : RequestContext} {workers : List WorkerState}
  {rest : List (RequestContext × List WorkerState)}

theorem picksOn_of_ok {decision : RouteDecision} {after : RoundRobin}
    (picked : r.pickOn bits req workers = (.ok decision, after)) :
    picksOn bits r ((req, workers) :: rest) =
      (.ok decision :: (picksOn bits after rest).1, (picksOn bits after rest).2) := by
  rw [picksOn, picked]

theorem picksOn_of_nil (none : healthy workers = []) :
    picksOn bits r ((req, workers) :: rest) =
      (.error .noHealthyWorker :: (picksOn bits r rest).1, (picksOn bits r rest).2) := by
  rw [picksOn, pickOn_of_nil none]

theorem picksOn_of_not_aligned (bits : Nat) (req : RequestContext)
    (rest : List (RequestContext × List WorkerState)) (some : healthy workers ≠ [])
    (outside : ¬ Aligned (healthy workers).length r.next) :
    picksOn bits r ((req, workers) :: rest) = ([.error .indexOutOfRange], r) := by
  rw [picksOn, pickOn_of_not_aligned some outside]

end Runs

theorem next_picksOn (bits : Nat) (calls : List (RequestContext × List WorkerState)) :
    ∀ (r : RoundRobin) (earlier : Nat), r.next = wrapInt bits earlier →
      InRange (picksOn bits r calls).1 →
      (picksOn bits r calls).2.next =
        wrapInt bits (earlier + (chosen (picksOn bits r calls).1).length) := by
  induction calls with
  | nil =>
    intro r earlier counted _
    simpa [picksOn, chosen] using counted
  | cons call rest later =>
    intro r earlier counted inRange
    obtain ⟨req, workers⟩ := call
    by_cases none : healthy workers = []
    · rw [picksOn_of_nil none] at inRange ⊢
      exact later r earlier counted fun bad => inRange (List.mem_cons_of_mem _ bad)
    · by_cases aligned : Aligned (healthy workers).length r.next
      · obtain ⟨worker, decision, -, -, picked⟩ :=
          pickOn_of_aligned bits req none aligned
        rw [picksOn_of_ok picked] at inRange ⊢
        have onwards := later { next := wrapInt bits (r.next + 1) } (earlier + 1)
          (counter_succ counted) fun bad => inRange (List.mem_cons_of_mem _ bad)
        simp only [chosen_ok_cons, List.length_cons]
        rw [onwards]
        congr 1
        push_cast
        ring
      · rw [picksOn_of_not_aligned bits req rest none aligned] at inRange
        exact absurd (List.mem_singleton.mpr rfl) inRange

/-! ### Windows of picks on a fixed list -/

section Window

variable {bits : Nat} {workers : List WorkerState}

def window (workers : List WorkerState) (requests : List RequestContext) :
    List (RequestContext × List WorkerState) :=
  requests.map fun req => (req, workers)

theorem aligned_of_inRange (some : healthy workers ≠ []) (requests : List RequestContext) :
    ∀ (r : RoundRobin) (earlier : Nat), r.next = wrapInt bits earlier →
      InRange (picksOn bits r (window workers requests)).1 →
      ∀ i < requests.length,
        Aligned (healthy workers).length (wrapInt bits (earlier + i : Nat)) := by
  induction requests with
  | nil =>
    intro r earlier _ _ i inside
    exact absurd inside (Nat.not_lt_zero i)
  | cons req rest later =>
    intro r earlier counted inRange i inside
    rw [window, List.map_cons, ← window] at inRange
    by_cases aligned : Aligned (healthy workers).length r.next
    · cases i with
      | zero => rwa [counted] at aligned
      | succ i =>
        obtain ⟨worker, decision, -, -, picked⟩ := pickOn_of_aligned bits req some aligned
        rw [picksOn_of_ok picked] at inRange
        have onwards := later { next := wrapInt bits (r.next + 1) } (earlier + 1)
          (counter_succ counted) (fun bad => inRange (List.mem_cons_of_mem _ bad)) i
          (Nat.lt_of_succ_lt_succ inside)
        rwa [Nat.add_right_comm] at onwards
    · rw [picksOn_of_not_aligned bits req _ some aligned] at inRange
      exact absurd (List.mem_singleton.mpr rfl) inRange

theorem around_next {α : Type} (items : List α) (some : 0 < items.length) (number : Nat)
    {counter after : Int} (next : after % items.length = (counter + 1) % items.length) :
    around items (after % items.length).toNat number =
      around items ((counter % items.length).toNat + 1) number := by
  have least := Int.emod_nonneg counter (show (items.length : Int) ≠ 0 by omega)
  obtain ⟨place, at_place⟩ := Int.eq_ofNat_of_zero_le least
  have moved : after % items.length = ((place + 1) % items.length : Nat) := by
    rw [next, ← Int.emod_add_emod, at_place]
    rfl
  rw [moved, at_place, Int.toNat_natCast, Int.toNat_natCast, around_mod]

theorem chosen_window (positive : 0 < bits) (some : healthy workers ≠ [])
    (requests : List RequestContext) :
    ∀ (r : RoundRobin) (earlier : Nat), r.next = wrapInt bits earlier →
      (∀ i < requests.length,
        Aligned (healthy workers).length (wrapInt bits (earlier + i : Nat))) →
      InRange (picksOn bits r (window workers requests)).1 ∧
        chosen (picksOn bits r (window workers requests)).1 =
          around ((healthy workers).map (·.id)) (r.next % (healthy workers).length).toNat
            requests.length := by
  induction requests with
  | nil =>
    intro r earlier _ _
    exact ⟨List.not_mem_nil, rfl⟩
  | cons req rest later =>
    intro r earlier counted every
    have here : Aligned (healthy workers).length r.next := by
      rw [counted]
      exact every 0 (Nat.succ_pos _)
    obtain ⟨worker, decision, found, sent, picked⟩ := pickOn_of_aligned bits req some here
    have onwards := later { next := wrapInt bits (r.next + 1) } (earlier + 1)
      (counter_succ counted) (by
      intro i inside
      rw [Nat.add_right_comm]
      exact every (i + 1) (Nat.succ_lt_succ inside))
    rw [window, List.map_cons, ← window, picksOn_of_ok picked, chosen_ok_cons, onwards.2]
    constructor
    · intro bad
      cases bad with
      | tail _ bad => exact onwards.1 bad
    · have size : ((healthy workers).map (·.id)).length = (healthy workers).length :=
        List.length_map ..
      have first : ((healthy workers).map (·.id))[
          (r.next % (healthy workers).length).toNat % (healthy workers).length]? =
            Option.some decision.workerID := by
        rw [Nat.mod_eq_of_lt (List.getElem?_eq_some_iff.mp found).1, List.getElem?_map, found, sent]
        rfl
      rw [List.length_cons, around_succ, size, first]
      apply congrArg (decision.workerID :: ·)
      cases rest with
      | nil => rfl
      | cons _ _ =>
        have next := (every 1 (Nat.succ_lt_succ (Nat.succ_pos _))).wrapInt_succ_emod positive
        rw [← counter_succ counted, ← counted, ← size] at next
        rw [← size]
        exact around_next _ (size.symm ▸ List.length_pos_iff.mpr some) _ next

theorem chosen_window_new (positive : 0 < bits) (some : healthy workers ≠ [])
    (requests : List RequestContext) (few : requests.length ≤ 2 ^ (bits - 1)) :
    InRange (picksOn bits {} (window workers requests)).1 ∧
      (chosen (picksOn bits {} (window workers requests)).1).length = requests.length := by
  have small : ∀ i : Nat, i < 2 ^ (bits - 1) → wrapInt bits i = i := by
    intro i below
    have bound : (i : Int) < 2 ^ (bits - 1) := by exact_mod_cast below
    exact wrapInt_of_range positive (by omega) bound
  obtain ⟨inRange, turns⟩ := chosen_window positive some requests {} 0 (counter_new positive) (by
    intro i inside
    left
    rw [small _ (by omega)]
    omega)
  constructor
  · exact inRange
  · rw [turns, length_around]
    rw [List.length_map]
    exact List.length_pos_iff.mpr some

def windowAfter (bits : Nat) (earlier : List (RequestContext × List WorkerState))
    (workers : List WorkerState) (requests : List RequestContext) :
    List (Except PickError RouteDecision) :=
  (picksOn bits (picksOn bits {} earlier).2 (window workers requests)).1

/-- A window of picks stays in range and is fair exactly when each of its counters is
non-negative or a multiple of the number of routable workers. -/
theorem window_fair_iff (positive : 0 < bits)
    (earlier : List (RequestContext × List WorkerState))
    (returned : InRange (picksOn bits {} earlier).1) (workers : List WorkerState)
    (some : healthy workers ≠ []) (requests : List RequestContext) :
    Fair workers requests.length (windowAfter bits earlier workers requests) ↔
      ∀ i < requests.length, Aligned (healthy workers).length
        (wrapInt bits ((chosen (picksOn bits {} earlier).1).length + i : Nat)) := by
  have counted := next_picksOn bits earlier {} 0 (counter_new positive) returned
  rw [Int.natCast_zero, Int.zero_add] at counted
  constructor
  · intro fair
    exact aligned_of_inRange some requests _ _ counted fair.inRange
  · intro aligned
    obtain ⟨inRange, turns⟩ := chosen_window positive some requests _ _ counted aligned
    have size : ((healthy workers).map (·.id)).length = (healthy workers).length :=
      List.length_map ..
    have share := count_around ((healthy workers).map (·.id))
      ((picksOn bits {} earlier).2.next % (healthy workers).length).toNat requests.length
    rw [← turns, size] at share
    exact {
      inRange := inRange
      answered := by
        rw [windowAfter, turns, length_around _ (size.symm ▸ List.length_pos_iff.mpr some)]
      least := fun id => (share id (List.length_pos_iff.mpr some)).1
      most := fun id => (share id (List.length_pos_iff.mpr some)).2 }

end Window

instance (candidates : Nat) (counter : Int) : Decidable (Aligned candidates counter) :=
  inferInstanceAs (Decidable (_ ∨ _))

def threeWorkers : List WorkerState :=
  ["worker-0", "worker-1", "worker-2"].map fun id => { id := id, url := "" }

theorem window_fair_iff_four :
    Fair threeWorkers 4 (windowAfter 64 [] threeWorkers [{}, {}, {}, {}]) :=
  (window_fair_iff (by decide) [] List.not_mem_nil threeWorkers (by decide) [{}, {}, {}, {}]).mpr
    (by decide)

/-- The pick that finds the counter just wrapped indexes outside the slice, unless the
number of routable workers divides the power of two. -/
theorem window_after_wrap {bits : Nat} (positive : 0 < bits) {workers : List WorkerState}
    (some : healthy workers ≠ [])
    (uneven : ¬ ((healthy workers).length : Int) ∣ 2 ^ (bits - 1)) (req : RequestContext) :
    InRange (picksOn bits {} (window workers (List.replicate (2 ^ (bits - 1)) req))).1 ∧
      windowAfter bits (window workers (List.replicate (2 ^ (bits - 1)) req)) workers [req] =
        [.error .indexOutOfRange] := by
  have half : (0 : Int) < 2 ^ (bits - 1) := Int.pow_pos (by decide)
  obtain ⟨inRange, number⟩ := chosen_window_new positive some
    (List.replicate (2 ^ (bits - 1)) req) (List.length_replicate).le
  rw [List.length_replicate] at number
  have counted := next_picksOn bits _ {} 0 (counter_new positive) inRange
  have least : wrapInt bits ((0 : Nat) + (2 ^ (bits - 1) : Nat)) = -(2 ^ (bits - 1)) := by
    rw [wrapInt, two_pow_eq_double positive]
    push_cast
    rw [Int.zero_add, ← Int.two_mul, Int.emod_self, Int.zero_sub]
  rw [number, least] at counted
  constructor
  · exact inRange
  · have outside : ¬ Aligned (healthy workers).length (-(2 ^ (bits - 1))) := by
      rintro (wrong | multiple)
      · omega
      · exact uneven (Int.dvd_neg.mp multiple)
    rw [← counted] at outside
    have panics := picksOn_of_not_aligned bits req [] some outside
    exact congrArg Prod.fst panics

/-- After as many picks as an `int` of either width has non-negative values, the next
pick over three workers indexes outside the slice. -/
theorem round_robin_panics :
    (InRange (picksOn 32 {} (window threeWorkers (List.replicate (2 ^ 31) {}))).1 ∧
      windowAfter 32 (window threeWorkers (List.replicate (2 ^ 31) {})) threeWorkers [{}] =
        [.error .indexOutOfRange]) ∧
    InRange (picksOn 64 {} (window threeWorkers (List.replicate (2 ^ 63) {}))).1 ∧
      windowAfter 64 (window threeWorkers (List.replicate (2 ^ 63) {})) threeWorkers [{}] =
        [.error .indexOutOfRange] := by
  have three : (healthy threeWorkers).length = 3 := by decide
  constructor
  · apply window_after_wrap (by decide) (by decide)
    rw [three]
    decide
  · apply window_after_wrap (by decide) (by decide)
    rw [three]
    decide

end RoundRobin

end AiStorage.Router
