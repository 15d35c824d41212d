import AiStorage.Lib.Runs
import AiStorage.Router.Handler
import Mathlib.Data.List.Induction

/-!
# Worker lifecycle under concurrent requests

The handler together with the goroutines of its requests; admin calls and cache events
interleave. A section under `workersMu` is one transition. An accepted replacement keeps the
lock while it evicts the retired workers one by one, and only cache events run in between.
-/
namespace AiStorage.Router
open Lib

/-- Where the goroutine of a request stands in `handleProxy`. -/
inductive Phase where
  | arrived
  | snapshotted (workers : List WorkerState)
  | picked (id : WorkerID)
  | reserved (id : WorkerID) (worker : WorkerState)
  | responded (id : WorkerID)
  | finished
  deriving DecidableEq

/-- The request reserved this worker and has not released it. -/
def Phase.holds (id : WorkerID) : Phase → Bool
  | .reserved held _ => held = id
  | .responded held => held = id
  | _ => false

structure Proxy where
  handler : Handler
  requests : List Phase
  /-- Retired workers still to evict while a replacement holds `workersMu`. -/
  retiring : Option (List WorkerID)

inductive Step where
  | arrive
  | snapshot (request : Nat)
  | pick (request : Nat) (choice : Option WorkerID)
  | reserve (request : Nat)
  | respond (request : Nat)
  | release (request : Nat)
  | drain (id : WorkerID) (now : Time)
  | undrain (id : WorkerID) (now : Time)
  | replace (workers : List WorkerState) (now : Nat → Time)
  | retire
  | event (clock : Clock) (event : Event)

namespace Proxy

def boot (lib : GoLib) (cfg : Config) (now : Nat → Time) : Except String Proxy := do
  let handler ← newHandler lib cfg now
  pure { handler := handler, requests := [], retiring := none }

def setPhase (s : Proxy) (request : Nat) (phase : Phase) : Proxy :=
  { s with requests := s.requests.set request phase }

/-- A transition that needs `workersMu`, or a request in another phase, does not
fire: the state stays. -/
def step (lib : GoLib) (s : Proxy) : Step → Proxy
  | .arrive => { s with requests := s.requests ++ [.arrived] }
  | .snapshot request =>
    match s.retiring, s.requests[request]? with
    | none, some .arrived => s.setPhase request (.snapshotted s.handler.snapshotWorkers)
    | _, _ => s
  | .pick request choice =>
    match s.requests[request]?, choice with
    | some (.snapshotted _), some id => s.setPhase request (.picked id)
    | some (.snapshotted _), none => s.setPhase request .finished
    | _, _ => s
  | .reserve request =>
    match s.retiring, s.requests[request]? with
    | none, some (.picked id) =>
      match s.handler.reserveRoutableWorker lib id with
      | (.ok worker, handler) => { s with handler := handler }.setPhase request (.reserved id worker)
      | (.error _, handler) => { s with handler := handler }.setPhase request .finished
    | _, _ => s
  | .respond request =>
    match s.requests[request]? with
    | some (.reserved id _) => s.setPhase request (.responded id)
    | _ => s
  | .release request =>
    match s.retiring, s.requests[request]? with
    | none, some (.responded id) =>
      { s with handler := s.handler.releaseWorker id }.setPhase request .finished
    | _, _ => s
  | .drain id now =>
    match s.retiring with
    | none => { s with handler := (s.handler.handleWorkerDrain id true now).2 }
    | some _ => s
  | .undrain id now =>
    match s.retiring with
    | none => { s with handler := (s.handler.handleWorkerDrain id false now).2 }
    | some _ => s
  | .replace workers now =>
    match s.retiring, s.handler.handleReplaceWorkers lib workers now with
    | none, (.updatedWorkers _, handler, retired) =>
      { s with handler := handler, retiring := some retired }
    | _, _ => s
  | .retire =>
    match s.retiring with
    | some (id :: rest) =>
      { s with
        handler := { s.handler with index := (s.handler.index.evictWorker id).2 }
        retiring := some rest }
    | some [] => { s with retiring := none }
    | none => s
  | .event clock event =>
    { s with handler := { s.handler with index := (s.handler.index.applyEvent clock event).2 } }

def outstanding (s : Proxy) (id : WorkerID) : Nat := s.requests.countP (Phase.holds id)

def registered (s : Proxy) (id : WorkerID) : Option WorkerState :=
  s.handler.workers.find? (·.id = id)

def identity (s : Proxy) (id : WorkerID) : Option (String × Topology) :=
  (s.registered id).map fun worker => (worker.url, worker.topology)

def routable (s : Proxy) (id : WorkerID) : Bool :=
  match s.registered id with
  | some worker => worker.routable
  | none => false

def Grants (lib : GoLib) (id : WorkerID) (s : Proxy) (action : Step) : Prop :=
  ∃ request worker, action = .reserve request ∧ s.requests[request]? = some (.picked id) ∧
    (s.step lib action).requests[request]? = some (.reserved id worker)

def Accepts (lib : GoLib) (s : Proxy) (workers : List WorkerState) (now : Nat → Time) : Prop :=
  s.retiring = none ∧
    ∃ count, (s.handler.handleReplaceWorkers lib workers now).1 = .updatedWorkers count

/-- The only transitions that may make a worker routable again. -/
def Reroutes (lib : GoLib) (id : WorkerID) (s : Proxy) (action : Step) : Prop :=
  (∃ now, action = .undrain id now) ∨
    ∃ workers now, action = .replace workers now ∧ s.Accepts lib workers now ∧
      (s.step lib action).routable id

end Proxy

/-! ## What the handler functions do -/

/-- A list of workers that passed a validation loop entered with `seen`. -/
structure Checked (seen : List WorkerID) (workers : List WorkerState) : Prop where
  distinct : (workers.map (·.id)).Nodup
  fresh : ∀ w ∈ workers, w.id ∉ seen
  counts : ∀ w ∈ workers, 0 ≤ w.queueDepth ∧ 0 ≤ w.activeDecodeBlocks ∧ 0 ≤ w.inflightRequests

variable {seen : List WorkerID} {workers : List WorkerState} {now : Nat → Time} {h : Handler}

theorem Checked.cons {worker : WorkerState} {rest : List WorkerState}
    (tail : Checked (worker.id :: seen) rest) (fresh : worker.id ∉ seen)
    (counts : 0 ≤ worker.queueDepth ∧ 0 ≤ worker.activeDecodeBlocks ∧ 0 ≤ worker.inflightRequests) :
    Checked seen (worker :: rest) where
  distinct := by
    refine List.nodup_cons.mpr ⟨?_, tail.distinct⟩
    intro member
    obtain ⟨other, inRest, same⟩ := List.mem_map.mp member
    exact tail.fresh other inRest (by simp [same])
  fresh := List.forall_mem_cons.mpr ⟨fresh, fun w inRest known =>
    tail.fresh w inRest (List.mem_cons_of_mem _ known)⟩
  counts := List.forall_mem_cons.mpr ⟨counts, tail.counts⟩

theorem validateWorkers_ok {lib : GoLib}
    (ok : validateWorkers lib seen workers = .ok ()) : Checked seen workers := by
  induction workers generalizing seen with
  | nil => exact ⟨by simp, by simp, by simp⟩
  | cons worker rest ih =>
    simp only [validateWorkers, bind, Except.bind, throw, throwThe, MonadExceptOf.throw] at ok
    cases valid : validateWorkerURL lib worker.url with
    | error message =>
      simp only [valid] at ok
      split_ifs at ok
    | ok =>
      simp only [valid] at ok
      split_ifs at ok with noID noURL duplicate managed negative
      simp only [Bool.or_eq_true, decide_eq_true_eq, not_or, Int.not_lt] at negative
      exact (ih ok).cons duplicate ⟨negative.1.1, negative.1.2, negative.2⟩

theorem normalizeWorkerDefaults_kept (worker : WorkerState) (entry : Topology) :
    let normal := normalizeWorkerDefaults worker entry
    normal.id = worker.id ∧ normal.queueDepth = worker.queueDepth ∧
      normal.activeDecodeBlocks = worker.activeDecodeBlocks ∧
      normal.inflightRequests = worker.inflightRequests := by
  simp only [normalizeWorkerDefaults, fillDraining, fillReadiness]
  split_ifs <;> exact ⟨rfl, rfl, rfl, rfl⟩

theorem prepareWorkers_cons {lib : GoLib} {entry : Topology}
    {worker : WorkerState} {rest prepared : List WorkerState}
    (ok : prepareWorkers lib entry now seen (worker :: rest) = .ok prepared) :
    ∃ others, prepareWorkers lib entry now (worker.id :: seen) rest = .ok others ∧
      prepared =
        { normalizeWorkerDefaults worker entry with lastUpdated := now seen.length } :: others ∧
      worker.id ∉ seen ∧ 0 ≤ worker.queueDepth ∧ 0 ≤ worker.activeDecodeBlocks ∧
      0 ≤ worker.inflightRequests := by
  simp only [prepareWorkers, bind, Except.bind, pure, Except.pure, throw, throwThe,
    MonadExceptOf.throw] at ok
  cases valid : validateWorkerURL lib worker.url with
  | error message =>
    simp only [valid] at ok
    split_ifs at ok
  | ok =>
    cases tail : prepareWorkers lib entry now (worker.id :: seen) rest with
    | error message =>
      simp only [valid, tail] at ok
      split_ifs at ok
    | ok others =>
      simp only [valid, tail] at ok
      split_ifs at ok with missing duplicate managed negative
      simp only [Bool.or_eq_true, decide_eq_true_eq, not_or, Int.not_lt] at negative
      exact ⟨others, rfl, (Except.ok.inj ok).symm, duplicate, negative.1.1, negative.1.2, negative.2⟩

theorem prepareWorkers_ok {lib : GoLib} {entry : Topology} {prepared : List WorkerState}
    (ok : prepareWorkers lib entry now seen workers = .ok prepared) : Checked seen prepared := by
  induction workers generalizing seen prepared with
  | nil =>
    cases ok
    exact ⟨by simp, by simp, by simp⟩
  | cons worker rest ih =>
    obtain ⟨others, tail, rfl, fresh, atLeast⟩ := prepareWorkers_cons ok
    obtain ⟨id, queue, decode, reported⟩ := normalizeWorkerDefaults_kept worker entry
    refine Checked.cons ?_ ?_ ?_
    · exact id ▸ ih tail
    · exact id ▸ fresh
    · exact ⟨queue ▸ atLeast.1, decode ▸ atLeast.2.1, reported ▸ atLeast.2.2⟩

theorem newHandler_ok {lib : GoLib} {cfg : Config}
    (ok : newHandler lib cfg now = .ok h) : Checked [] h.workers ∧ h.routerInflight = ∅ := by
  simp only [newHandler, Config.validate, bind, Except.bind, pure, Except.pure, throw, throwThe,
    MonadExceptOf.throw] at ok
  generalize cfg.applyDefaults now = cfg at ok
  cases split : lib.splitHostPort cfg.adminAddr with
  | error message =>
    simp only [split] at ok
    split_ifs at ok
  | ok adminHost =>
    cases valid : validateWorkers lib [] cfg.workers with
    | error message =>
      simp only [split, valid] at ok
      split_ifs at ok
    | ok =>
      simp only [split, valid] at ok
      split_ifs at ok
      cases ok
      exact ⟨validateWorkers_ok valid, rfl⟩

theorem lookup_nextWorkers (workers : List WorkerState) (id : WorkerID) :
    (∀ w, (nextWorkers workers).lookup id = some w → w ∈ workers ∧ w.id = id) ∧
      ((nextWorkers workers).lookup id = none → ∀ w ∈ workers, w.id ≠ id) := by
  -- The map is built from the left, so the induction is on the last insertion.
  induction workers using List.reverseRecOn with
  | nil => simp [nextWorkers]
  | append_singleton front last ih =>
    have built : nextWorkers (front ++ [last]) = (nextWorkers front).insert last.id last := by
      simp [nextWorkers]
    rw [built]
    by_cases same : id = last.id
    · subst same
      refine ⟨?_, by simp⟩
      intro w found
      simp only [AList.lookup_insert, Option.some.injEq] at found
      simp [← found]
    · rw [AList.lookup_insert_ne same]
      refine ⟨?_, ?_⟩
      · intro w found
        exact ⟨List.mem_append_left _ (ih.1 w found).1, (ih.1 w found).2⟩
      · intro absent w member
        rcases List.mem_append.mp member with inFront | isLast
        · exact ih.2 absent w inFront
        · rw [List.mem_singleton.mp isLast]
          exact Ne.symm same

theorem pruneInflight_lookup (routerInflight : GoMap WorkerID Int) (workers : List WorkerState)
    (id : WorkerID) :
    ((pruneInflight routerInflight workers).lookup id).getD 0 = (routerInflight.lookup id).getD 0 := by
  unfold pruneInflight
  generalize routerInflight.keys = keys
  induction keys generalizing routerInflight with
  | nil => rfl
  | cons key rest ih =>
    rw [List.foldl_cons, ih]
    split_ifs with zero
    · by_cases same : id = key
      · subst same
        simp [zero.1]
      · rw [AList.lookup_erase_ne same]
    · rfl

theorem removedWorkerIDs_spec {oldWorkers newWorkers : List WorkerState} {id : WorkerID} :
    id ∈ removedWorkerIDs oldWorkers newWorkers ↔
      id ∈ oldWorkers.map (·.id) ∧ id ∉ newWorkers.map (·.id) := by
  have absent : (nextWorkers newWorkers).lookup id = none ↔ id ∉ newWorkers.map (·.id) := by
    obtain ⟨present, missing⟩ := lookup_nextWorkers newWorkers id
    cases found : (nextWorkers newWorkers).lookup id with
    | none => simpa using missing found
    | some w => simpa using ⟨w, present w found⟩
  rw [← absent]
  simp only [removedWorkerIDs, List.mem_map, List.mem_filter, Option.isNone_iff_eq_none]
  constructor
  · rintro ⟨w, ⟨member, gone⟩, rfl⟩
    exact ⟨⟨w, member, rfl⟩, gone⟩
  · rintro ⟨⟨w, member, rfl⟩, gone⟩
    exact ⟨w, ⟨member, gone⟩, rfl⟩

/-- An accepted replacement: its workers were checked, keep the identity of every
worker they retain, and drop only workers that are safe to remove. -/
structure Replacement (h : Handler) (workers : List WorkerState) : Prop where
  checked : Checked [] workers
  retained : ∀ old ∈ h.workers, ∀ w ∈ workers, w.id = old.id →
    w.url = old.url ∧ w.topology = old.topology
  removed : ∀ old ∈ h.workers, old.id ∉ workers.map (·.id) →
    old.draining ∧ old.activeDecodeBlocks = 0 ∧
      old.inflightRequests + h.inflight old.id = 0 ∧ old.queueDepth = 0

theorem replacement_of_no_conflict (checked : Checked [] workers)
    (free : workerReplacementConflicts h.workers workers h.inflight = []) :
    Replacement h workers where
  checked := checked
  retained := by
    intro old member w inNew same
    have unblocked := List.filterMap_eq_nil_iff.mp free old member
    unfold replacementConflict at unblocked
    cases found : (nextWorkers workers).lookup old.id with
    | none => exact absurd same ((lookup_nextWorkers workers old.id).2 found w inNew)
    | some replacement =>
      obtain ⟨inList, id⟩ := (lookup_nextWorkers workers old.id).1 replacement found
      have unique : replacement = w :=
        List.inj_on_of_nodup_map checked.distinct inList inNew (id.trans same.symm)
      subst unique
      simp only [found] at unblocked
      split_ifs at unblocked with changed
      simp only [Bool.or_eq_true, decide_eq_true_eq, not_or, not_not] at changed
      exact ⟨changed.1.symm, changed.2.symm⟩
  removed := by
    intro old member gone
    have unblocked := List.filterMap_eq_nil_iff.mp free old member
    unfold replacementConflict at unblocked
    cases found : (nextWorkers workers).lookup old.id with
    | some replacement =>
      obtain ⟨inList, id⟩ := (lookup_nextWorkers workers old.id).1 replacement found
      exact absurd (List.mem_map.mpr ⟨replacement, inList, id⟩) gone
    | none =>
      simp only [found] at unblocked
      split_ifs at unblocked with safe
      simp only [WorkerState.safeToRemove, WorkerState.effectiveInflightRequests, Bool.and_eq_true,
        decide_eq_true_eq] at safe
      exact ⟨safe.1.1.1, safe.1.1.2, of_decide_eq_true safe.1.2, safe.2⟩

theorem handleReplaceWorkers_accepted {lib : GoLib} {h' : Handler} {submitted : List WorkerState}
    {count : Nat} {retired : List WorkerID}
    (accepted : h.handleReplaceWorkers lib submitted now = (.updatedWorkers count, h', retired)) :
    Replacement h h'.workers ∧ retired = removedWorkerIDs h.workers h'.workers ∧
      h'.index = h.index ∧ ∀ id, h'.inflight id = h.inflight id := by
  unfold Handler.handleReplaceWorkers at accepted
  cases prepared : prepareWorkers lib h.entryTopology now [] submitted with
  | error message =>
    simp only [prepared] at accepted
    split_ifs at accepted <;> simp at accepted
  | ok workers =>
    simp only [prepared] at accepted
    split_ifs at accepted with empty blocked
    · simp at accepted
    · simp at accepted
    · obtain ⟨-, rfl, rfl⟩ := by simpa only [Prod.mk.injEq] using accepted
      refine ⟨replacement_of_no_conflict (prepareWorkers_ok prepared) (by simpa using blocked), rfl,
        rfl, fun id => pruneInflight_lookup h.routerInflight workers id⟩

def drainOne (id : WorkerID) (drain : Bool) (now : Time) (worker : WorkerState) : WorkerState :=
  if worker.id = id then setDraining drain now worker else worker

theorem drainOne_kept (id : WorkerID) (drain : Bool) (now : Time) (worker : WorkerState) :
    let w := drainOne id drain now worker
    w.id = worker.id ∧ w.url = worker.url ∧ w.topology = worker.topology ∧
      w.queueDepth = worker.queueDepth ∧ w.activeDecodeBlocks = worker.activeDecodeBlocks ∧
      w.inflightRequests = worker.inflightRequests := by
  simp only [drainOne, setDraining]
  split_ifs <;> exact ⟨rfl, rfl, rfl, rfl, rfl, rfl⟩

theorem handleWorkerDrain_workers (distinct : (h.workers.map (·.id)).Nodup)
    (id : WorkerID) (drain : Bool) (now : Time) :
    (h.handleWorkerDrain id drain now).2 =
      { h with workers := h.workers.map (drainOne id drain now) } := by
  have first : ∀ workers : List WorkerState, (workers.map (·.id)).Nodup →
      ((drainFirst id drain now workers).map Prod.snd).getD workers =
        workers.map (drainOne id drain now) := by
    intro workers
    induction workers with
    | nil => exact fun _ => rfl
    | cons head tail ih =>
      intro unique
      obtain ⟨notIn, unique⟩ := List.nodup_cons.mp unique
      by_cases other : head.id = id
      · have untouched : tail.map (drainOne id drain now) = tail := by
          refine (List.map_congr_left ?_).trans (List.map_id tail)
          intro w member
          have different : w.id ≠ id :=
            fun same => notIn (List.mem_map.mpr ⟨w, member, same.trans other.symm⟩)
          simp [drainOne, different]
        simp only [drainFirst, other, ne_eq, not_true_eq_false, if_false, List.map_cons, drainOne,
          if_true]
        exact congrArg _ untouched.symm
      · have deeper := ih unique
        simp only [drainFirst, ne_eq, other, not_false_eq_true, if_true, List.map_cons]
        rw [← deeper]
        cases drainFirst id drain now tail <;> simp [drainOne, other]
  have shape := first h.workers distinct
  unfold Handler.handleWorkerDrain
  cases found : drainFirst id drain now h.workers with
  | none =>
    rw [found] at shape
    simp only [← shape, Option.map_none, Option.getD_none]
  | some result =>
    rw [found] at shape
    simp only [← shape, Option.map_some, Option.getD_some]

theorem handleWorkerDrain_inflight (h : Handler) (id : WorkerID) (drain : Bool) (now : Time)
    (other : WorkerID) : (h.handleWorkerDrain id drain now).2.inflight other = h.inflight other := by
  unfold Handler.handleWorkerDrain
  split <;> rfl

theorem reserveRoutableWorker_cases (lib : GoLib) (h : Handler) (id : WorkerID) :
    (∃ worker h', h.workers.find? (·.id = id) = some worker ∧ worker.routable ∧
      h.reserveRoutableWorker lib id = (.ok (h'.workerSnapshotLocked worker), h') ∧
      h'.workers = h.workers ∧
      ∀ other, h'.inflight other = h.inflight other + if id = other then 1 else 0) ∨
    ∃ message, h.reserveRoutableWorker lib id = (.error message, h) := by
  unfold Handler.reserveRoutableWorker
  cases found : h.workers.find? (·.id = id) with
  | none => exact .inr ⟨_, rfl⟩
  | some worker =>
    by_cases routable : worker.routable
    · refine .inl ⟨worker,
        { h with routerInflight := h.routerInflight.insert id (h.inflight id + 1) }, rfl, routable,
        by simp [routable], rfl, ?_⟩
      intro other
      by_cases same : id = other
      · subst same
        simp [Handler.inflight]
      · simp [Handler.inflight, same, AList.lookup_insert_ne (Ne.symm same)]
    · exact .inr ⟨_, if_pos (by simpa using routable)⟩

theorem releaseWorker_spec (h : Handler) (id : WorkerID) :
    (h.releaseWorker id).workers = h.workers ∧ ∀ other, (h.releaseWorker id).inflight other =
      if id = other then max 0 (h.inflight id - 1) else h.inflight other := by
  unfold Handler.releaseWorker
  refine ⟨by split_ifs <;> rfl, ?_⟩
  intro other
  by_cases same : id = other
  · subst same
    rw [if_pos rfl]
    split_ifs with last
    · have none_left : max 0 (h.inflight id - 1) = 0 := by omega
      rw [none_left]
      simp [Handler.inflight]
    · have more : max 0 (h.inflight id - 1) = h.inflight id - 1 := by omega
      rw [more]
      simp [Handler.inflight]
  · rw [if_neg same]
    split_ifs
    · simp [Handler.inflight, AList.lookup_erase_ne (Ne.symm same)]
    · simp [Handler.inflight, AList.lookup_insert_ne (Ne.symm same)]

/-! ## One transition -/

namespace Proxy

/-- What a transition did to the registry and to the reservations. -/
inductive Change (lib : GoLib) (s : Proxy) (action : Step) (s' : Proxy) : Prop where
  | quiet (workers : s'.handler.workers = s.handler.workers)
      (inflight : ∀ id, s'.handler.inflight id = s.handler.inflight id)
      (held : ∀ id, s'.outstanding id = s.outstanding id)
  | granted (request : Nat) (id : WorkerID) (worker : WorkerState)
      (reserves : action = .reserve request) (chosen : s.requests[request]? = some (.picked id))
      (found : s.registered id = some worker) (routable : worker.routable)
      (workers : s'.handler.workers = s.handler.workers)
      (inflight : ∀ other,
        s'.handler.inflight other = s.handler.inflight other + if id = other then 1 else 0)
      (held : ∀ other, s'.outstanding other = s.outstanding other + if id = other then 1 else 0)
  | released (id : WorkerID)
      (workers : s'.handler.workers = s.handler.workers)
      (inflight : ∀ other, s'.handler.inflight other =
        if id = other then max 0 (s.handler.inflight id - 1) else s.handler.inflight other)
      (held : ∀ other, s'.outstanding other + (if id = other then 1 else 0) = s.outstanding other)
  | drained (id : WorkerID) (drain : Bool) (now : Time)
      (asked : action = if drain then .drain id now else .undrain id now)
      (workers : s'.handler.workers = (s.handler.handleWorkerDrain id drain now).2.workers)
      (inflight : ∀ id, s'.handler.inflight id = s.handler.inflight id)
      (held : ∀ id, s'.outstanding id = s.outstanding id)
  | replaced (submitted : List WorkerState) (now : Nat → Time)
      (asked : action = .replace submitted now) (accepted : s.Accepts lib submitted now)
      (replacement : Replacement s.handler s'.handler.workers)
      (inflight : ∀ id, s'.handler.inflight id = s.handler.inflight id)
      (held : ∀ id, s'.outstanding id = s.outstanding id)

section Outstanding

variable {lib : GoLib} {s s' : Proxy} {action : Step} {request : Nat} {old phase : Phase}

theorem outstanding_set (s' : Proxy) (here : s.requests[request]? = some old)
    (moved : s'.requests = s.requests.set request phase) (id : WorkerID) :
    s'.outstanding id + (if old.holds id then 1 else 0) =
      s.outstanding id + if phase.holds id then 1 else 0 := by
  obtain ⟨inside, rfl⟩ := List.getElem?_eq_some_iff.mp here
  have counted : (if s.requests[request].holds id then 1 else 0) ≤ s.outstanding id := by
    split_ifs with holds
    · exact List.countP_pos_iff.mpr ⟨_, List.getElem_mem inside, holds⟩
    · exact Nat.zero_le _
  unfold outstanding at *
  rw [moved, List.countP_set inside]
  omega

theorem quiet_of_handler (handler : s'.handler = s.handler)
    (held : ∀ id, s'.outstanding id = s.outstanding id) : Change lib s action s' :=
  .quiet (by rw [handler]) (fun id => by rw [handler]) held

theorem quiet_of_phase (here : s.requests[request]? = some old)
    (same : ∀ id, phase.holds id = old.holds id) :
    Change lib s action (s.setPhase request phase) := by
  refine quiet_of_handler rfl ?_
  intro id
  have moved := outstanding_set (s.setPhase request phase) here rfl id
  rw [same id] at moved
  omega

end Outstanding

variable {id : WorkerID}

theorem reserve_change (lib : GoLib) {s : Proxy} {request : Nat}
    (free : s.retiring = none) (here : s.requests[request]? = some (.picked id)) :
    Change lib s (.reserve request) (s.step lib (.reserve request)) := by
  simp only [step, free, here]
  rcases reserveRoutableWorker_cases lib s.handler id with
    ⟨worker, handler, found, routable, result, workers, inflight⟩ | ⟨message, result⟩
  · rw [result]
    refine .granted request id worker rfl here found routable workers inflight ?_
    intro other
    have moved := outstanding_set ({ s with handler := handler, retiring := none
      }.setPhase request (.reserved id (handler.workerSnapshotLocked worker))) here rfl other
    simpa [Phase.holds] using moved
  · rw [result, ← free]
    exact quiet_of_phase here (fun _ => rfl)

theorem release_change (lib : GoLib) {s : Proxy} {request : Nat}
    (free : s.retiring = none) (here : s.requests[request]? = some (.responded id)) :
    Change lib s (.release request) (s.step lib (.release request)) := by
  simp only [step, free, here]
  obtain ⟨workers, inflight⟩ := releaseWorker_spec s.handler id
  refine .released id workers inflight ?_
  intro other
  have moved := outstanding_set ({ s with
    handler := s.handler.releaseWorker id, retiring := none }.setPhase request .finished) here rfl other
  simpa [Phase.holds] using moved

/-- Every transition is quiet, a grant, a release, a drain or a replacement. -/
theorem step_change (lib : GoLib) (s : Proxy) (action : Step) :
    Change lib s action (s.step lib action) := by
  have idle : Change lib s action s := quiet_of_handler rfl (fun _ => rfl)
  cases action with
  | arrive =>
    refine quiet_of_handler rfl ?_
    intro id
    simp [step, outstanding, Phase.holds]
  | snapshot request | respond request =>
    simp only [step]
    split
    · rename_i here
      exact quiet_of_phase here (fun _ => rfl)
    · exact idle
  | pick request choice =>
    simp only [step]
    split
    · rename_i here
      exact quiet_of_phase here (fun _ => rfl)
    · rename_i here
      exact quiet_of_phase here (fun _ => rfl)
    · exact idle
  | reserve request =>
    by_cases enabled : s.retiring = none ∧ ∃ id, s.requests[request]? = some (.picked id)
    · obtain ⟨free, id, here⟩ := enabled
      exact reserve_change lib free here
    · simp only [step]
      split
      · exact absurd ⟨by assumption, _, by assumption⟩ enabled
      · exact idle
  | release request =>
    by_cases enabled : s.retiring = none ∧ ∃ id, s.requests[request]? = some (.responded id)
    · obtain ⟨free, id, here⟩ := enabled
      exact release_change lib free here
    · simp only [step]
      split
      · exact absurd ⟨by assumption, _, by assumption⟩ enabled
      · exact idle
  | drain id now =>
    simp only [step]
    split
    · refine .drained id true now rfl rfl ?_ (fun _ => rfl)
      exact fun other => handleWorkerDrain_inflight s.handler id true now other
    · exact idle
  | undrain id now =>
    simp only [step]
    split
    · refine .drained id false now rfl rfl ?_ (fun _ => rfl)
      exact fun other => handleWorkerDrain_inflight s.handler id false now other
    · exact idle
  | replace workers now =>
    simp only [step]
    split
    · rename_i free accepted
      obtain ⟨replacement, -, -, inflight⟩ := handleReplaceWorkers_accepted accepted
      exact .replaced workers now rfl ⟨free, _, congrArg Prod.fst accepted⟩ replacement inflight
        (fun _ => rfl)
    · exact idle
  | retire =>
    simp only [step]
    split
    · exact .quiet rfl (fun _ => rfl) (fun _ => rfl)
    · exact quiet_of_handler rfl (fun _ => rfl)
    · exact idle
  | event clock event => exact .quiet rfl (fun _ => rfl) (fun _ => rfl)

/-! ## Whole runs -/

/-- What holds of the registry in every reachable state. -/
structure Safe (s : Proxy) : Prop where
  checked : Checked [] s.handler.workers
  counted : ∀ id, s.handler.inflight id = s.outstanding id
  held : ∀ id, 0 < s.outstanding id → (s.registered id).isSome

theorem registered_isSome {s : Proxy} :
    (s.registered id).isSome ↔ ∃ w ∈ s.handler.workers, w.id = id := by
  simp [registered]

theorem safe_boot {lib : GoLib} {cfg : Config} {now : Nat → Time} {s : Proxy}
    (start : boot lib cfg now = .ok s) : Safe s := by
  unfold boot at start
  cases made : newHandler lib cfg now with
  | error message =>
    rw [made] at start
    exact absurd start nofun
  | ok handler =>
    rw [made] at start
    cases start
    obtain ⟨checked, empty⟩ := newHandler_ok made
    refine ⟨checked, ?_, ?_⟩
    · intro id
      simp [Handler.inflight, empty, outstanding]
    · intro id positive
      simp [outstanding] at positive

theorem registered_drained {s s' : Proxy} {drain : Bool} {now : Time}
    (checked : Checked [] s.handler.workers)
    (workers : s'.handler.workers = (s.handler.handleWorkerDrain id drain now).2.workers)
    (other : WorkerID) :
    s'.registered other = (s.registered other).map (drainOne id drain now) := by
  rw [handleWorkerDrain_workers checked.distinct] at workers
  simp only [registered, workers, List.find?_map]
  congr 2
  funext w
  simp [(drainOne_kept id drain now w).1]

theorem Safe.step {s : Proxy} (safe : Safe s) (lib : GoLib) (action : Step) :
    Safe (s.step lib action) := by
  cases step_change lib s action with
  | quiet workers inflight held =>
    refine ⟨workers ▸ safe.checked, ?_, ?_⟩
    · intro id
      rw [inflight, held, safe.counted]
    · intro id positive
      rw [held] at positive
      simpa [registered, workers] using safe.held id positive
  | granted request id worker reserves chosen found routable workers inflight held =>
    refine ⟨workers ▸ safe.checked, ?_, ?_⟩
    · intro other
      rw [inflight, held, safe.counted]
      split_ifs <;> simp
    · intro other positive
      have before : (s.registered other).isSome := by
        by_cases same : id = other
        · rw [← same, found]
          rfl
        · rw [held, if_neg same] at positive
          exact safe.held other positive
      simpa [registered, workers] using before
  | released id workers inflight held =>
    refine ⟨workers ▸ safe.checked, ?_, ?_⟩
    · intro other
      have count := held other
      have owned := safe.counted id
      rw [inflight]
      split_ifs at count ⊢ with same
      · subst same
        omega
      · rw [safe.counted other]
        omega
    · intro other positive
      have before := safe.held other (by have := held other; omega)
      simpa [registered, workers] using before
  | drained id drain now asked workers inflight held =>
    refine ⟨?_, ?_, ?_⟩
    · rw [workers, handleWorkerDrain_workers safe.checked.distinct]
      refine ⟨?_, by simp, ?_⟩
      · have ids : (·.id) ∘ drainOne id drain now = fun w : WorkerState => w.id :=
          funext fun w => (drainOne_kept id drain now w).1
        simpa [ids] using safe.checked.distinct
      · intro w member
        obtain ⟨old, inOld, rfl⟩ := List.mem_map.mp member
        obtain ⟨-, -, -, queue, decode, reported⟩ := drainOne_kept id drain now old
        rw [queue, decode, reported]
        exact safe.checked.counts old inOld
    · intro other
      rw [inflight, held, safe.counted]
    · intro other positive
      rw [registered_drained safe.checked workers, Option.isSome_map]
      rw [held] at positive
      exact safe.held other positive
  | replaced submitted now asked accepted replacement inflight held =>
    refine ⟨replacement.checked, ?_, ?_⟩
    · intro id
      rw [inflight, held, safe.counted]
    · intro id positive
      rw [held] at positive
      by_contra gone
      obtain ⟨old, member, rfl⟩ := registered_isSome.mp (safe.held id positive)
      have absent : old.id ∉ (s.step lib action).handler.workers.map (·.id) := by
        intro still
        obtain ⟨w, inNew, same⟩ := List.mem_map.mp still
        exact gone (registered_isSome.mpr ⟨w, inNew, same⟩)
      obtain ⟨-, -, total, -⟩ := replacement.removed old member absent
      have reported := (safe.checked.counts old member).2.2
      have owned := safe.counted old.id
      omega

theorem Safe.identity_step {s : Proxy} (safe : Safe s) (lib : GoLib) (action : Step)
    (before : (s.registered id).isSome)
    (after : ((s.step lib action).registered id).isSome) :
    (s.step lib action).identity id = s.identity id := by
  cases step_change lib s action with
  | quiet workers | granted _ _ _ _ _ _ _ workers | released _ workers =>
    simp [identity, registered, workers]
  | drained drainID drain now asked workers =>
    rw [identity, registered_drained safe.checked workers, identity, Option.map_map]
    congr 1
    funext w
    obtain ⟨-, url, topology, -⟩ := drainOne_kept drainID drain now w
    simp [url, topology]
  | replaced submitted now asked accepted replacement =>
    obtain ⟨old, foundOld⟩ := Option.isSome_iff_exists.mp before
    obtain ⟨new, foundNew⟩ := Option.isSome_iff_exists.mp after
    have oldID : old.id = id := by simpa using List.find?_some foundOld
    have newID : new.id = id := by simpa using List.find?_some foundNew
    obtain ⟨url, topology⟩ := replacement.retained old (List.mem_of_find?_eq_some foundOld) new
      (List.mem_of_find?_eq_some foundNew) (newID.trans oldID.symm)
    simp [identity, foundOld, foundNew, url, topology]

theorem not_routable_setDraining (now : Time) (w : WorkerState) :
    (setDraining true now w).routable = false := by
  simp [setDraining, WorkerState.routable]

theorem Safe.not_routable_step {s : Proxy} (safe : Safe s) {lib : GoLib} {action : Step}
    (before : s.routable id = false) (same : ¬ Reroutes lib id s action) :
    (s.step lib action).routable id = false := by
  cases step_change lib s action with
  | quiet workers | granted _ _ _ _ _ _ _ workers | released _ workers =>
    simpa [routable, registered, workers] using before
  | drained drainID drain now asked workers =>
    unfold routable at before ⊢
    rw [registered_drained safe.checked workers]
    cases found : s.registered id with
    | none => rfl
    | some w =>
      rw [found] at before
      have named : w.id = id := by simpa using List.find?_some found
      simp only [Option.map_some, drainOne]
      split_ifs with hit
      · cases drain with
        | true => exact not_routable_setDraining now w
        | false => exact absurd (.inl ⟨now, by rw [asked, ← named, hit]; rfl⟩) same
      · exact before
  | replaced submitted now asked accepted =>
    by_contra routes
    exact same (.inr ⟨submitted, now, asked, accepted, by simpa using routes⟩)

theorem Safe.not_routable_drained {s : Proxy} (safe : Safe s) (lib : GoLib) (id : WorkerID)
    (now : Time) (free : s.retiring = none) : (s.step lib (.drain id now)).routable id = false := by
  have workers : (s.step lib (.drain id now)).handler.workers =
      (s.handler.handleWorkerDrain id true now).2.workers := by
    simp only [Proxy.step, free]
  unfold routable
  rw [registered_drained safe.checked workers]
  cases found : s.registered id with
  | none => rfl
  | some w =>
    have named : w.id = id := by simpa using List.find?_some found
    simp only [Option.map_some, drainOne, named, if_true]
    exact not_routable_setDraining now w

theorem routable_of_grants {lib : GoLib} {s : Proxy} {action : Step}
    (grants : Grants lib id s action) : s.routable id = true := by
  obtain ⟨request, worker, rfl, here, after⟩ := grants
  simp only [Proxy.step, here] at after
  cases lock : s.retiring with
  | some _ =>
    rw [lock] at after
    simp [here] at after
  | none =>
    rw [lock] at after
    rcases reserveRoutableWorker_cases lib s.handler id with
      ⟨found, handler, registered, routable, -⟩ | ⟨message, result⟩
    · simpa [Proxy.routable, Proxy.registered, registered] using routable
    · simp only [result, setPhase, List.getElem?_set] at after
      split_ifs at after <;> simp at after

/-! ## Retired workers leave the cache index -/

/-- `idx'` holds nothing of `removed` and what `idx` holds of every other worker. -/
def Forgets (removed : WorkerID → Prop) (idx idx' : Index) : Prop :=
  ∀ w, (removed w → (∀ b, idx'.location b w = none) ∧ idx'.lastSeqByWorker.lookup w = none) ∧
    (¬ removed w → (∀ b, idx'.location b w = idx.location b w) ∧
      idx'.lastSeqByWorker.lookup w = idx.lastSeqByWorker.lookup w)

/-- While the lock is held, the workers still to evict are the ones not yet forgotten. -/
structure Retiring (removed : WorkerID → Prop) (idx : Index) (s : Proxy) : Prop where
  distinct : (s.retiring.getD []).Nodup
  pending : ∀ w ∈ s.retiring.getD [], removed w
  forgets : Forgets (fun w => removed w ∧ w ∉ s.retiring.getD []) idx s.handler.index

theorem locked_step (lib : GoLib) {s : Proxy} {pending : List WorkerID} {action : Step}
    (locked : s.retiring = some pending) (cache : ∀ clock event, action ≠ .event clock event)
    (other : action ≠ .retire) :
    (s.step lib action).handler.index = s.handler.index ∧
      (s.step lib action).retiring = s.retiring := by
  cases action with
  | event clock event => exact absurd rfl (cache clock event)
  | retire => exact absurd rfl other
  | arrive => exact ⟨rfl, rfl⟩
  | snapshot | reserve | release | drain | undrain | replace =>
    simp only [Proxy.step, locked, and_self]
  | pick | respond =>
    simp only [Proxy.step]
    split <;> exact ⟨rfl, rfl⟩

theorem Forgets.evictWorker {removed : WorkerID → Prop} {idx idx' : Index}
    (forgets : Forgets removed idx idx') (id : WorkerID) :
    Forgets (fun w => removed w ∨ w = id) idx (idx'.evictWorker id).2 := by
  intro w
  have erased : (idx'.evictWorker id).2.lastSeqByWorker = idx'.lastSeqByWorker.erase id := rfl
  have location := fun b => (Index.evictWorker_spec idx' id w b).1
  by_cases same : w = id
  · subst same
    refine ⟨fun _ => ⟨fun b => by simpa using location b, by simp [erased]⟩, ?_⟩
    intro kept
    exact absurd (.inr rfl) kept
  · simp only [same, or_false, if_false, erased, AList.lookup_erase_ne same] at location ⊢
    simp only [location]
    exact forgets w

theorem Retiring.step {removed : WorkerID → Prop} {idx : Index} {s : Proxy} (lib : GoLib)
    {action : Step} (inv : Retiring removed idx s) (locked : s.retiring.isSome)
    (cache : ∀ clock event, action ≠ .event clock event) :
    Retiring removed idx (s.step lib action) := by
  obtain ⟨pending, locked⟩ := Option.isSome_iff_exists.mp locked
  by_cases evicts : action = .retire
  · subst evicts
    obtain ⟨distinct, waiting, forgets⟩ := inv
    rw [locked] at distinct waiting forgets
    simp only [Option.getD_some] at distinct waiting forgets
    cases pending with
    | nil =>
      simp only [Proxy.step, locked]
      exact ⟨distinct, waiting, forgets⟩
    | cons id rest =>
      simp only [Proxy.step, locked]
      refine ⟨(List.nodup_cons.mp distinct).2, fun w member => waiting w (.tail _ member), ?_⟩
      have more := forgets.evictWorker id
      have exactly : (fun w => (removed w ∧ w ∉ id :: rest) ∨ w = id) =
          fun w => removed w ∧ w ∉ rest := by
        funext w
        by_cases same : w = id
        · subst same
          simp [waiting w (by simp), (List.nodup_cons.mp distinct).1]
        · simp [same]
      rwa [exactly] at more
  · obtain ⟨index, retiring⟩ := locked_step lib locked cache evicts
    exact ⟨retiring ▸ inv.distinct, retiring ▸ inv.pending, by
      rw [index, retiring]
      exact inv.forgets⟩

theorem accepted_step {lib : GoLib} {s : Proxy} {submitted : List WorkerState} {now : Nat → Time}
    (safe : Safe s) (accepted : s.Accepts lib submitted now) :
    let s' := s.step lib (.replace submitted now)
    Replacement s.handler s'.handler.workers ∧
      Retiring (fun w => (s.registered w).isSome ∧ (s'.registered w).isNone) s.handler.index s' := by
  obtain ⟨free, count, reply⟩ := accepted
  obtain ⟨outcome, result⟩ : ∃ outcome,
      s.handler.handleReplaceWorkers lib submitted now = outcome := ⟨_, rfl⟩
  obtain ⟨text, handler, retired⟩ := outcome
  rw [result] at reply
  obtain rfl : text = .updatedWorkers count := reply
  obtain ⟨replacement, rfl, index, -⟩ := handleReplaceWorkers_accepted result
  simp only [Proxy.step, free, result]
  refine ⟨replacement, ⟨?_, ?_, ?_⟩⟩
  · exact safe.checked.distinct.sublist ((List.filter_sublist).map _)
  · intro w member
    obtain ⟨was, gone⟩ := removedWorkerIDs_spec.mp member
    simpa [registered] using And.intro was gone
  · intro w
    refine ⟨?_, fun _ => ⟨fun b => by simp only [index], by simp only [index]⟩⟩
    rintro ⟨⟨was, gone⟩, notPending⟩
    refine absurd (removedWorkerIDs_spec.mpr ⟨?_, ?_⟩) notPending
    · simpa [registered] using was
    · simpa [registered] using gone

end Proxy

open Proxy in
/-- Worker lifecycle safety, over every interleaving of requests, admin calls and
cache events. -/
theorem worker_lifecycle_safety (lib : GoLib) (cfg : Config) (now : Nat → Time) (booted : Proxy)
    (start : boot lib cfg now = .ok booted) (schedule : List Step) :
    let step := Proxy.step lib
    let s := run step booted schedule
    (∀ id, s.handler.inflight id = s.outstanding id) ∧
    (∀ id, 0 < s.outstanding id → (s.registered id).isSome) ∧
    (∀ id more, (s.registered id).isSome →
      Along step (fun t a => ((step t a).registered id).isSome) s more →
      (run step s more).identity id = s.identity id) ∧
    (∀ id a, Grants lib id s a → (s.registered id).isSome ∧ s.routable id) ∧
    (∀ id time more, s.retiring = none →
      Along step (fun t a => ¬ Reroutes lib id t a) (step s (.drain id time)) more →
      Along step (fun t a => ¬ Grants lib id t a) (step s (.drain id time)) more) ∧
    (∀ submitted time, s.Accepts lib submitted time →
      let s' := step s (.replace submitted time)
      (∀ w ∈ s.handler.workers, (s'.registered w.id).isNone →
        w.draining ∧ w.queueDepth = 0 ∧ w.activeDecodeBlocks = 0 ∧ w.inflightRequests = 0 ∧
          s.handler.inflight w.id = 0) ∧
      ∀ more, Along step (fun t a => t.retiring.isSome ∧ ∀ clock e, a ≠ .event clock e) s' more →
        (run step s' more).retiring = none →
        Forgets (fun w => (s.registered w).isSome ∧ (s'.registered w).isNone) s.handler.index
          (run step s' more).handler.index) := by
  intro step s
  have safe : Safe s :=
    run_invariant Safe (fun t a safe => safe.step lib a) (safe_boot start) schedule
  have routed : ∀ t id a, Grants lib id t a → (t.registered id).isSome ∧ t.routable id := by
    intro t id a grants
    have routable := routable_of_grants grants
    refine ⟨?_, routable⟩
    unfold Proxy.routable at routable
    cases found : t.registered id <;> simp_all
  refine ⟨safe.counted, safe.held, ?_, routed s, ?_, ?_⟩
  · intro id more registered along
    have kept := along.invariant
      (fun t => Safe t ∧ (t.registered id).isSome ∧ t.identity id = s.identity id)
      (fun t a inv still => ⟨inv.1.step lib a, still,
        (inv.1.identity_step lib a inv.2.1 still).trans inv.2.2⟩) ⟨safe, registered, rfl⟩
    exact kept.2.2
  · intro id time more free along
    refine along.strengthen (fun t => Safe t ∧ t.routable id = false)
      (fun t a inv same => ⟨inv.1.step lib a, inv.1.not_routable_step inv.2 same⟩) ?_
      ⟨safe.step lib _, safe.not_routable_drained lib id time free⟩
    intro t a inv _ grants
    exact absurd (routed t id a grants).2 (by simp [inv.2])
  · intro submitted time accepted s'
    obtain ⟨replacement, retiring⟩ := accepted_step safe accepted
    refine ⟨?_, ?_⟩
    · intro w member gone
      have absent : w.id ∉ s'.handler.workers.map (·.id) := by
        simpa [registered] using gone
      obtain ⟨draining, decode, total, queue⟩ := replacement.removed w member absent
      have reported := (safe.checked.counts w member).2.2
      have owned := safe.counted w.id
      exact ⟨draining, queue, decode, by omega, by omega⟩
    · intro more along unlocked
      have final := along.invariant
        (Retiring (fun w => (s.registered w).isSome ∧ (s'.registered w).isNone)
          s.handler.index)
        (fun t a inv held => inv.step lib held.1 held.2) retiring
      have forgets := final.forgets
      rw [unlocked] at forgets
      simpa using forgets

def sampleLib : GoLib where
  parseURL raw :=
    if raw = "http://127.0.0.1:9000" then
      .ok { scheme := "http", host := "127.0.0.1:9000", hostname := "127.0.0.1" }
    else .error "unsupported"
  splitHostPort addr := if addr = "127.0.0.1:9090" then .ok "127.0.0.1" else .error "unsupported"
  parseIP host := if host = "127.0.0.1" then some true else none
  quote text := "\"" ++ text ++ "\""

def sampleConfig : Config where
  workers := [{ id := "w", url := "http://127.0.0.1:9000" }]

def sampleProxy : Proxy where
  handler :=
    { index := Index.new (30000 * 1000000)
      entryTopology := defaultEntryTopology
      workers :=
        [{ id := "w", url := "http://127.0.0.1:9000", health := workerReady,
           readinessState := readinessReady, topology := defaultEntryTopology, lastUpdated := 1 }]
      routerInflight := ∅ }
  requests := []
  retiring := none

theorem sampleProxy_boot : Proxy.boot sampleLib sampleConfig (fun _ => 1) = .ok sampleProxy := by
  rfl

/-- A request that reserved `w` before it was drained still holds it, and keeps it
registered. -/
def sampleSchedule : List Step :=
  [.arrive, .snapshot 0, .pick 0 (some "w"), .reserve 0, .drain "w" 2,
    .replace [{ id := "v", url := "http://127.0.0.1:9000" }] (fun _ => 3), .retire]

theorem sampleSchedule_safe :
    let s := run (Proxy.step sampleLib) sampleProxy sampleSchedule
    s.outstanding "w" = 1 ∧ s.handler.inflight "w" = 1 ∧ (s.registered "w").isSome := by
  have safety := worker_lifecycle_safety sampleLib sampleConfig (fun _ => 1) sampleProxy
    sampleProxy_boot sampleSchedule
  have one : (run (Proxy.step sampleLib) sampleProxy sampleSchedule).outstanding "w" = 1 := by
    decide
  refine ⟨one, ?_, safety.2.1 "w" (by rw [one]; exact Nat.one_pos)⟩
  rw [safety.1 "w", one]
  rfl

end AiStorage.Router
