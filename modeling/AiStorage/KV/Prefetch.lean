import AiStorage.KV.MetadataStore
import Mathlib.Data.Finset.Card

/-!
# The prefetch queue

`prefetch.py`. Each section under the lock of the prefetcher is one function of its fields; in
between, every call of `submit` is at some stage, together with its task and the callback of
the future, and any call may move next.
-/
namespace AiStorage.KV

abbrev Work := BlockKey × TierName

structure PrefetchSubmitResult where
  submitted : Bool
  reason : String
  deriving DecidableEq

structure Prefetcher where
  maxQueue : Int
  seen : Finset Work
  submitted : Int
  dropped : Int
  failed : Int

namespace Prefetcher

def init (maxWorkers maxQueue : Int) : Except String Prefetcher :=
  if maxWorkers ≤ 0 then .error "max_workers must be positive"
  else if maxQueue ≤ 0 then .error "max_queue must be positive"
  else .ok ⟨maxQueue, ∅, 0, 0, 0⟩

/-- Where a call of `submit` is, with its task. -/
inductive Stage where
  | rejected (result : PrefetchSubmitResult)
  /-- In `_seen`, before the executor is asked. -/
  | reserved
  /-- The executor raised. -/
  | refused
  | withdrawn
  /-- The executor has the task, the future has no callback yet. -/
  | running
  /-- The task is over before the callback is attached. -/
  | early (raised : Bool)
  | attached
  /-- The task is over, its callback is called and has not had the lock. -/
  | calling (raised : Bool)
  | finished (raised : Bool)
  deriving DecidableEq

namespace Stage

def outstanding : Stage → Bool
  | .rejected _ | .withdrawn | .finished _ => false
  | _ => true

def reached : Stage → Bool
  | .rejected _ | .withdrawn | .reserved | .refused => false
  | _ => true

def waiting : Stage → Bool
  | .reserved | .refused => true
  | _ => false

def isRejected : Stage → Bool
  | .rejected _ => true
  | _ => false

end Stage

variable (p : Prefetcher) (work : Work)

def submit : Prefetcher × Stage :=
  if work ∈ p.seen then
    ({ p with dropped := p.dropped + 1 }, .rejected ⟨false, "duplicate"⟩)
  else if (p.seen.card : Int) ≥ p.maxQueue then
    ({ p with dropped := p.dropped + 1 }, .rejected ⟨false, "queue_full"⟩)
  else ({ p with seen := insert work p.seen, submitted := p.submitted + 1 }, .reserved)

def withdraw : Prefetcher :=
  { p with seen := p.seen.erase work, submitted := p.submitted - 1 }

def done (failed : Bool) : Prefetcher :=
  { p with
    seen := p.seen.erase work
    failed := if failed then p.failed + 1 else p.failed }

/-- What happens to one call: by its own thread, by a worker or by the one who ends the task. -/
inductive Moves (p : Prefetcher) (work : Work) : Stage → Prefetcher → Stage → Prop
  | accept : Moves p work .reserved p .running
  | refuse : Moves p work .reserved p .refused
  | withdraw : Moves p work .refused (p.withdraw work) .withdrawn
  | attach : Moves p work .running p .attached
  | finishEarly (raised : Bool) : Moves p work .running p (.early raised)
  | finish (raised : Bool) : Moves p work .attached p (.calling raised)
  /-- `add_done_callback` calls the callback of a future that is over. -/
  | attachLate (raised : Bool) : Moves p work (.early raised) p (.calling raised)
  | done (raised : Bool) : Moves p work (.calling raised) (p.done work raised) (.finished raised)

structure System where
  queue : Prefetcher
  calls : List (Work × Stage)

inductive Step : System → System → Prop
  | submit (p : Prefetcher) (calls : List (Work × Stage)) (work : Work) :
      Step ⟨p, calls⟩ ⟨(p.submit work).1, calls ++ [(work, (p.submit work).2)]⟩
  | move {p p' : Prefetcher} {work : Work} {stage stage' : Stage}
      (before after : List (Work × Stage)) :
      Moves p work stage p' stage' →
      Step ⟨p, before ++ (work, stage) :: after⟩ ⟨p', before ++ (work, stage') :: after⟩

def outstanding (calls : List (Work × Stage)) : List Work :=
  (calls.filter (·.2.outstanding)).map Prod.fst

/-- `_seen` holds the work of the outstanding calls, each once. -/
structure Disciplined (limit : Int) (s : System) : Prop where
  bound : s.queue.maxQueue = limit
  seen : s.queue.seen.val = (outstanding s.calls : Multiset Work)
  room : (s.queue.seen.card : Int) ≤ limit
  submitted : s.queue.submitted = s.calls.countP fun call => call.2.reached || call.2.waiting
  dropped : s.queue.dropped = s.calls.countP (·.2.isRejected)
  failed : s.queue.failed = s.calls.countP (·.2 = .finished true)

variable {p work} {calls before after : List (Work × Stage)} {limit : Int}

theorem countP_call (counts : Work × Stage → Bool) (call : Work × Stage) :
    (before ++ call :: after).countP counts =
      (before ++ after).countP counts + (counts call).toNat := by
  rw [List.countP_append, List.countP_cons, List.countP_append, Nat.add_assoc]
  cases counts call <;> rfl

theorem outstanding_call (stage : Stage) : outstanding (before ++ (work, stage) :: after) =
    outstanding before ++ ((if stage.outstanding then [work] else []) ++ outstanding after) := by
  cases held : stage.outstanding <;> simp [outstanding, held]

theorem Disciplined.reject (holds : Disciplined limit ⟨p, calls⟩) (result : PrefetchSubmitResult) :
    Disciplined limit
      ⟨{ p with dropped := p.dropped + 1 }, calls ++ [(work, .rejected result)]⟩ where
  bound := holds.bound
  seen := by
    rw [outstanding_call]
    exact holds.seen.trans (congrArg _ (List.append_nil _).symm)
  room := holds.room
  submitted := by
    rw [countP_call, List.append_nil]
    exact holds.submitted
  dropped := by
    rw [countP_call, List.append_nil, Nat.cast_add]
    exact congrArg (· + 1) holds.dropped
  failed := by
    rw [countP_call, List.append_nil]
    exact holds.failed

theorem Disciplined.reserve (holds : Disciplined limit ⟨p, calls⟩) (new : work ∉ p.seen)
    (room : (p.seen.card : Int) < limit) :
    Disciplined limit
      ⟨{ p with seen := insert work p.seen, submitted := p.submitted + 1 },
        calls ++ [(work, .reserved)]⟩ where
  bound := holds.bound
  seen := by
    rw [outstanding_call, Finset.insert_val_of_notMem new, holds.seen, Multiset.cons_coe,
      Multiset.coe_eq_coe]
    exact (List.perm_append_singleton _ _).symm
  room := by
    rw [Finset.card_insert_of_notMem new, Nat.cast_succ]
    exact room
  submitted := by
    rw [countP_call, List.append_nil, Nat.cast_add]
    exact congrArg (· + 1) holds.submitted
  dropped := by
    rw [countP_call, List.append_nil]
    exact holds.dropped
  failed := by
    rw [countP_call, List.append_nil]
    exact holds.failed

theorem Disciplined.submit (holds : Disciplined limit ⟨p, calls⟩) :
    Disciplined limit ⟨(p.submit work).1, calls ++ [(work, (p.submit work).2)]⟩ := by
  unfold Prefetcher.submit
  split_ifs with duplicate full
  · exact holds.reject _
  · exact holds.reject _
  · exact holds.reserve duplicate (holds.bound ▸ not_le.mp full)

section Moves

variable {stage stage' : Stage} (holds : Disciplined limit ⟨p, before ++ (work, stage) :: after⟩)
include holds

theorem Disciplined.relabel (held : stage'.outstanding = stage.outstanding)
    (submitted : (stage'.reached || stage'.waiting) = (stage.reached || stage.waiting))
    (dropped : stage'.isRejected = stage.isRejected)
    (failed : decide (stage' = .finished true) = decide (stage = .finished true)) :
    Disciplined limit ⟨p, before ++ (work, stage') :: after⟩ where
  bound := holds.bound
  seen := by
    rw [outstanding_call, held, ← outstanding_call]
    exact holds.seen
  room := holds.room
  submitted := by
    rw [countP_call, submitted, ← countP_call _ (work, stage)]
    exact holds.submitted
  dropped := by
    rw [countP_call, dropped, ← countP_call _ (work, stage)]
    exact holds.dropped
  failed := by
    rw [countP_call, failed, ← countP_call _ (work, stage)]
    exact holds.failed

/-- A call that is no longer outstanding leaves its place in `_seen`. -/
theorem Disciplined.seen_erase (held : stage.outstanding) (closed : ¬ stage'.outstanding) :
    (p.seen.erase work).val =
      (outstanding (before ++ (work, stage') :: after) : Multiset Work) := by
  have front : (outstanding (before ++ (work, stage) :: after) : Multiset Work) =
      work ::ₘ outstanding (before ++ (work, stage') :: after) := by
    rw [outstanding_call, outstanding_call, if_pos held, if_neg closed]
    exact Multiset.coe_eq_coe.mpr List.perm_middle
  rw [Finset.erase_val, holds.seen, front, Multiset.erase_cons_head]

theorem Disciplined.room_erase : ((p.seen.erase work).card : Int) ≤ limit :=
  (Int.ofNat_le.mpr (Finset.card_le_card (Finset.erase_subset _ _))).trans holds.room

end Moves

theorem Disciplined.move {p' : Prefetcher} {stage stage' : Stage}
    (moves : Moves p work stage p' stage')
    (holds : Disciplined limit ⟨p, before ++ (work, stage) :: after⟩) :
    Disciplined limit ⟨p', before ++ (work, stage') :: after⟩ := by
  have submitted := holds.submitted
  have dropped := holds.dropped
  have failed := holds.failed
  rw [countP_call] at submitted dropped failed
  cases moves with
  | withdraw =>
    refine ⟨holds.bound, holds.seen_erase rfl Bool.false_ne_true, holds.room_erase, ?_, ?_, ?_⟩
    all_goals rw [countP_call]
    · rw [Nat.cast_add] at submitted
      exact sub_eq_of_eq_add submitted
    · exact dropped
    · exact failed
  | done raised =>
    refine ⟨holds.bound, holds.seen_erase rfl Bool.false_ne_true, holds.room_erase, ?_, ?_, ?_⟩
    all_goals rw [countP_call]
    · exact submitted
    · exact dropped
    · cases raised with
      | false => exact failed
      | true =>
        rw [Nat.cast_add]
        exact congrArg (· + 1) failed
  | accept | refuse | attach | finishEarly | finish | attachLate =>
    exact holds.relabel rfl rfl rfl rfl

theorem Disciplined.run {s t : System} (run : Relation.ReflTransGen Step s t)
    (holds : Disciplined limit s) : Disciplined limit t := by
  induction run with
  | refl => exact holds
  | tail _ step ih =>
    cases step with
    | submit p calls work => exact ih.submit
    | move before after moves => exact ih.move moves

theorem init_disciplined {maxWorkers maxQueue : Int} (new : init maxWorkers maxQueue = .ok p) :
    Disciplined maxQueue ⟨p, []⟩ := by
  unfold init at new
  split_ifs at new with workers queue
  cases new
  exact ⟨rfl, rfl, by simpa using (not_le.mp queue).le, rfl, rfl, rfl⟩

/-- Whatever the calls, the executor, the tasks and the callbacks do: at most one outstanding task
for each work, as many as `_seen` is large and at most `max_queue`; `submitted` counts what
reached the executor, `failed` what finished by raising, `dropped` what was rejected; and what is
in `_seen` is outstanding. -/
theorem prefetch_queue_disciplined {maxWorkers maxQueue : Int} {new : Prefetcher}
    (built : init maxWorkers maxQueue = .ok new) {s : System}
    (run : Relation.ReflTransGen Step ⟨new, []⟩ s) :
    (outstanding s.calls).Nodup ∧
      (outstanding s.calls).length = s.queue.seen.card ∧ (s.queue.seen.card : Int) ≤ maxQueue ∧
      ((∀ call ∈ s.calls, ¬ call.2.waiting) →
        s.queue.submitted = s.calls.countP (·.2.reached)) ∧
      s.queue.failed = s.calls.countP (·.2 = .finished true) ∧
      (∀ work, work ∈ s.queue.seen ↔ ∃ call ∈ s.calls, call.1 = work ∧ call.2.outstanding) ∧
      s.queue.dropped = s.calls.countP (·.2.isRejected) := by
  have holds := (init_disciplined built).run run
  have seen := holds.seen
  refine ⟨?_, ?_, holds.room, ?_, holds.failed, ?_, holds.dropped⟩
  · rw [← Multiset.coe_nodup, ← seen]
    exact s.queue.seen.nodup
  · rw [← Multiset.coe_card, ← seen]
    rfl
  · intro quiet
    rw [holds.submitted, Int.natCast_inj]
    apply List.countP_congr
    intro call member
    simp [quiet call member]
  · intro work
    rw [← Finset.mem_val, seen, Multiset.mem_coe, outstanding, List.mem_map]
    constructor
    · rintro ⟨call, member, same⟩
      exact ⟨call, (List.mem_filter.mp member).1, same, (List.mem_filter.mp member).2⟩
    · rintro ⟨call, member, same, held⟩
      exact ⟨call, List.mem_filter.mpr ⟨member, held⟩, same⟩

def oneSlot : Prefetcher := ⟨1, ∅, 0, 0, 0⟩

def sampleWork : Work := (sampleKey, .memory)

def earlyFailure : System :=
  ⟨(oneSlot.submit sampleWork).1.done sampleWork true, [(sampleWork, .finished true)]⟩

theorem earlyFailure_run : Relation.ReflTransGen Step ⟨oneSlot, []⟩ earlyFailure := by
  refine .head (.submit oneSlot [] sampleWork) ?_
  refine .head (.move [] [] .accept) ?_
  refine .head (.move [] [] (.finishEarly true)) ?_
  refine .head (.move [] [] (.attachLate true)) ?_
  exact .single (.move [] [] (.done true))

theorem prefetch_queue_early_failure :
    init 2 1 = .ok oneSlot ∧ Relation.ReflTransGen Step ⟨oneSlot, []⟩ earlyFailure ∧
      earlyFailure.queue.failed = earlyFailure.calls.countP (·.2 = .finished true) := by
  have built : init 2 1 = .ok oneSlot := rfl
  exact ⟨built, earlyFailure_run, (prefetch_queue_disciplined built earlyFailure_run).2.2.2.2.1⟩

end Prefetcher

end AiStorage.KV
