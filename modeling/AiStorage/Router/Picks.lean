import AiStorage.Lib.Runs
import AiStorage.Router.Strategies
import Mathlib.Data.Prod.Lex

/-!
# What every strategy promises

A pick fails exactly when no worker is routable, never indexes outside a slice, and otherwise
names a routable worker of the list. The scoring strategies, over exact arithmetic, name the
first worker of maximal score.
-/
namespace AiStorage.Router
open Lib

/-- The decision sends the request to `worker`, one of the routable workers of the
list, and reports how many of those there are. -/
structure Chooses (workers : List WorkerState) (worker : WorkerState) (decision : RouteDecision) :
    Prop where
  mem : worker ∈ workers
  routable : worker.routable = true
  sent : decision.workerID = worker.id
  counted : decision.candidateCount = workers.countP WorkerState.routable

structure Contract (workers : List WorkerState) (result : Except PickError RouteDecision) :
    Prop where
  refuses : result = .error .noHealthyWorker ↔ ∀ worker ∈ workers, worker.routable = false
  inRange : result ≠ .error .indexOutOfRange
  chooses : ∀ decision, result = .ok decision → ∃ worker, Chooses workers worker decision

section Healthy

variable {workers : List WorkerState} {worker : WorkerState}

theorem mem_healthy : worker ∈ healthy workers ↔ worker ∈ workers ∧ worker.routable = true := by
  simp [healthy]

theorem healthy_eq_nil :
    healthy workers = [] ↔ ∀ worker ∈ workers, worker.routable = false := by
  simp [healthy, List.filter_eq_nil_iff]

theorem length_healthy : (healthy workers).length = workers.countP WorkerState.routable :=
  List.countP_eq_length_filter.symm

theorem contract_of_nil (none : healthy workers = []) :
    Contract workers (.error .noHealthyWorker) where
  refuses := ⟨fun _ => healthy_eq_nil.mp none, fun _ => rfl⟩
  inRange := by simp
  chooses := fun _ wrong => by cases wrong

theorem contract_of_mem (member : worker ∈ healthy workers) {decision : RouteDecision}
    (sent : decision.workerID = worker.id)
    (counted : decision.candidateCount = (healthy workers).length) :
    Contract workers (.ok decision) where
  refuses := by
    constructor
    · intro wrong
      cases wrong
    · intro none
      have routable := (mem_healthy.mp member).2
      rw [none worker (mem_healthy.mp member).1] at routable
      cases routable
  inRange := by simp
  chooses := by
    intro other same
    cases same
    exact ⟨worker, (mem_healthy.mp member).1, (mem_healthy.mp member).2, sent,
      counted.trans length_healthy⟩

end Healthy

/-! ### Indices -/

theorem goIndex_ok {α : Type} {items : List α} {i : Nat} (inside : i < items.length) :
    ∃ item ∈ items, items[i]? = some item ∧ goIndex items i = .ok item := by
  refine ⟨items[i], List.getElem_mem inside, List.getElem?_eq_getElem inside, ?_⟩
  simp [goIndex, inside]

variable {n picks : Nat} {score : WorkerState → CandidateScore} {decision : RouteDecision}
  {strategy : Strategy}

theorem deterministicPair_fst (key : Bytes) (positive : 0 < n) :
    (deterministicPair key n).1 < n := by
  simp only [deterministicPair]
  split_ifs
  · exact Nat.mod_lt _ positive
  · exact Nat.mod_lt _ positive

theorem deterministicPair_snd (key : Bytes) (positive : 0 < n) :
    (deterministicPair key n).2 < n := by
  simp only [deterministicPair]
  split_ifs
  · exact Nat.mod_lt _ positive
  · exact Nat.mod_lt _ positive

theorem fnv64a_lt (bytes : Bytes) : fnv64a bytes < 2 ^ 64 := by
  unfold fnv64a
  induction bytes using List.reverseRecOn with
  | nil => norm_num
  | append_singleton front last ih =>
    rw [List.foldl_append, List.foldl_cons, List.foldl_nil]
    exact Nat.mod_lt _ (by norm_num)

theorem deterministicPair_ne (key : Bytes) (two : 2 ≤ n) :
    (deterministicPair key n).1 ≠ (deterministicPair key n).2 := by
  have inside : (fnv64a key / n + 1) % 2 ^ 64 % n < n := Nat.mod_lt _ (by omega)
  simp only [deterministicPair]
  split_ifs with same
  · rw [same]
    intro repaired
    rcases Nat.lt_or_ge ((fnv64a key / n + 1) % 2 ^ 64 % n + 1) n with small | last
    · rw [Nat.mod_eq_of_lt small] at repaired
      omega
    · have whole : (fnv64a key / n + 1) % 2 ^ 64 % n + 1 = n := by omega
      rw [whole, Nat.mod_self] at repaired
      omega
  · exact same

/-! ### One lemma for each strategy -/

section Strategies

variable (req : RequestContext) (workers : List WorkerState)

theorem RoundRobin.pick_ok (r : RoundRobin) (nonnegative : 0 ≤ r.next)
    (some : healthy workers ≠ []) :
    ∃ worker ∈ healthy workers, ∃ decision,
      r.pick req workers = (.ok decision, { next := wrapInt 64 (r.next + 1) }) ∧
        decision.workerID = worker.id ∧ decision.candidateCount = (healthy workers).length := by
  have positive : 0 < (healthy workers).length := List.length_pos_iff.mpr some
  obtain ⟨n, counter⟩ := Int.eq_ofNat_of_zero_le nonnegative
  have inside : n % (healthy workers).length < (healthy workers).length := Nat.mod_lt _ positive
  obtain ⟨worker, member, -, found⟩ := goIndex_ok inside
  have index : r.next.tmod (healthy workers).length = (n % (healthy workers).length : Nat) := by
    rw [counter]
    rfl
  refine ⟨worker, member, ?_⟩
  rw [RoundRobin.pick, RoundRobin.pickOn, if_neg positive.ne', index, found]
  exact ⟨_, rfl, rfl, rfl⟩

theorem RoundRobin.contract (r : RoundRobin) (nonnegative : 0 ≤ r.next) :
    Contract workers (r.pick req workers).1 := by
  by_cases none : healthy workers = []
  · have refused : r.pick req workers = (.error .noHealthyWorker, r) := by
      simp [RoundRobin.pick, RoundRobin.pickOn, none]
    rw [refused]
    exact contract_of_nil none
  · obtain ⟨worker, member, decision, picked, sent, counted⟩ :=
      r.pick_ok req workers nonnegative none
    rw [picked]
    exact contract_of_mem member sent counted

def lighter (a b : WorkerState) : WorkerState := if loadScore b < loadScore a then b else a

theorem lighter_eq (a b : WorkerState) : lighter a b = a ∨ lighter a b = b := by
  unfold lighter
  split_ifs
  · exact .inr rfl
  · exact .inl rfl

/-- The pair of candidates that the request's hash selects. -/
def P2C.HashedPair (a b : WorkerState) : Prop :=
  (healthy workers)[(deterministicPair req.requestIDHash (healthy workers).length).1]? = some a ∧
    (healthy workers)[(deterministicPair req.requestIDHash (healthy workers).length).2]? = some b

variable {req workers} in
theorem P2C.HashedPair.unique {a b c d : WorkerState} (pair : P2C.HashedPair req workers a b)
    (other : P2C.HashedPair req workers c d) : a = c ∧ b = d := by
  unfold P2C.HashedPair at pair other
  rw [pair.1, pair.2, Option.some_inj, Option.some_inj] at other
  exact other

/-- With one candidate the choice is that one, otherwise the lighter of the hashed pair. -/
def P2C.Choice (worker : WorkerState) : Prop :=
  healthy workers = [worker] ∨ ∃ a b, P2C.HashedPair req workers a b ∧ worker = lighter a b

variable {req workers} in
theorem P2C.Choice.mem {worker : WorkerState} (choice : P2C.Choice req workers worker) :
    worker ∈ healthy workers := by
  rcases choice with single | ⟨a, b, ⟨left, right⟩, rfl⟩
  · simp [single]
  · rcases lighter_eq a b with same | same
    · rw [same]
      exact List.mem_of_getElem? left
    · rw [same]
      exact List.mem_of_getElem? right

theorem P2C.pick_ok (some : healthy workers ≠ []) :
    ∃ worker, P2C.Choice req workers worker ∧ ∃ decision, P2C.pick req workers = .ok decision ∧
      decision.workerID = worker.id ∧ decision.candidateCount = (healthy workers).length := by
  have positive : 0 < (healthy workers).length := List.length_pos_iff.mpr some
  by_cases single : (healthy workers).length = 1
  · obtain ⟨only, alone⟩ := List.length_eq_one_iff.mp single
    refine ⟨only, .inl alone, ?_⟩
    have found : goIndex (healthy workers) 0 = .ok only := by simp [goIndex, alone]
    rw [P2C.pick, if_neg positive.ne', if_pos single, found]
    exact ⟨_, rfl, rfl, single.symm⟩
  · obtain ⟨a, -, left, foundLeft⟩ :=
      goIndex_ok (deterministicPair_fst req.requestIDHash positive)
    obtain ⟨b, -, right, foundRight⟩ :=
      goIndex_ok (deterministicPair_snd req.requestIDHash positive)
    refine ⟨lighter a b, .inr ⟨a, b, ⟨left, right⟩, rfl⟩, ?_⟩
    rw [P2C.pick, if_neg positive.ne', if_neg single]
    simp only [foundLeft, foundRight]
    exact ⟨_, rfl, rfl, rfl⟩

theorem P2C.contract : Contract workers (P2C.pick req workers) := by
  by_cases none : healthy workers = []
  · have refused : P2C.pick req workers = .error .noHealthyWorker := by simp [P2C.pick, none]
    rw [refused]
    exact contract_of_nil none
  · obtain ⟨worker, choice, decision, picked, sent, counted⟩ := P2C.pick_ok req workers none
    rw [picked]
    exact contract_of_mem choice.mem sent counted

/-- What the `PrefixHash` loop maximises: overlap, then lightness. -/
def prefixKey (overlap : WorkerID → Nat) (worker : WorkerState) : ℕ ×ₗ ℚᵒᵈ :=
  toLex (overlap worker.id, OrderDual.toDual (loadScore worker))

theorem prefersWorker_iff (overlap : WorkerID → Nat) (best worker : WorkerState) :
    prefersWorker overlap best worker = true ↔
      prefixKey overlap best < prefixKey overlap worker := by
  rw [prefixKey, prefixKey, Prod.Lex.toLex_lt_toLex, OrderDual.toDual_lt_toDual, prefersWorker,
    Bool.or_eq_true, Bool.and_eq_true, decide_eq_true_iff, decide_eq_true_iff,
    decide_eq_true_iff, eq_comm]

/-- The worker the prefix rule prefers, first in list order among equals. -/
def PrefixHash.Choice (view : IndexView) (worker : WorkerState) : Prop :=
  FirstBest (prefixKey (view.overlap req)) (healthy workers) worker

theorem PrefixHash.pick_ok (view : IndexView) (some : healthy workers ≠ []) :
    ∃ worker, PrefixHash.Choice req workers view worker ∧ ∃ decision,
      PrefixHash.pick req workers view = .ok decision ∧ decision.workerID = worker.id ∧
        decision.candidateCount = (healthy workers).length := by
  obtain ⟨first, rest, split⟩ := List.exists_cons_of_ne_nil some
  have best := (FirstBest.singleton (prefixKey (view.overlap req)) first).foldl rest
  rw [List.singleton_append, ← split] at best
  refine ⟨_, best, ?_⟩
  simp only [PrefixHash.pick, split, prefersWorker_iff]
  exact ⟨_, rfl, rfl, rfl⟩

theorem PrefixHash.contract (view : IndexView) :
    Contract workers (PrefixHash.pick req workers view) := by
  by_cases none : healthy workers = []
  · have refused : PrefixHash.pick req workers view = .error .noHealthyWorker := by
      simp [PrefixHash.pick, none]
    rw [refused]
    exact contract_of_nil none
  · obtain ⟨worker, choice, decision, picked, sent, counted⟩ :=
      PrefixHash.pick_ok req workers view none
    rw [picked]
    exact contract_of_mem choice.mem sent counted

/-- Either the prefix choice stands, or its queue is over the threshold and the
two-choice rule decides. -/
theorem PrefixHashBoundedLoad.pick_ok (p : PrefixHashBoundedLoad) (view later : IndexView)
    (some : healthy workers ≠ []) :
    ∃ preferred, PrefixHash.Choice req workers view preferred ∧ ∃ spill,
      P2C.Choice req workers spill ∧ ∃ decision, p.pick req workers view later = .ok decision ∧
        decision.candidateCount = (healthy workers).length ∧
        decision.workerID =
          (if (findWorker workers preferred.id).queueDepth > p.threshold workers then spill
            else preferred).id := by
  obtain ⟨preferred, choice, first, picked, sent, counted⟩ :=
    PrefixHash.pick_ok req workers view some
  obtain ⟨spill, spilled, second, fallback, sentSecond, countedSecond⟩ :=
    P2C.pick_ok req workers some
  refine ⟨preferred, choice, spill, spilled, ?_⟩
  simp only [PrefixHashBoundedLoad.pick, picked, fallback, bind, Except.bind, ← sent]
  split_ifs
  · exact ⟨_, rfl, countedSecond, sentSecond⟩
  · exact ⟨_, rfl, counted, sent⟩

theorem PrefixHashBoundedLoad.contract (p : PrefixHashBoundedLoad) (view later : IndexView) :
    Contract workers (p.pick req workers view later) := by
  by_cases none : healthy workers = []
  · have refused : p.pick req workers view later = .error .noHealthyWorker := by
      simp [PrefixHashBoundedLoad.pick, PrefixHash.pick, none, bind, Except.bind]
    rw [refused]
    exact contract_of_nil none
  · obtain ⟨preferred, choice, spill, spilled, decision, picked, counted, sent⟩ :=
      p.pick_ok req workers view later none
    rw [picked]
    split_ifs at sent
    · exact contract_of_mem spilled.mem sent counted
    · exact contract_of_mem choice.mem sent counted

end Strategies

/-! ### The scoring loop -/

section Loop

variable {F : Type} [Arithmetic F] [DecidableLT F] {K : Type*} [LinearOrder K]

structure Leads (key : WorkerState → K) (score : WorkerState → CandidateScore F)
    (candidates : List WorkerState) (standing : Standing F) : Prop where
  best : FirstBest key candidates standing.best
  bestScore : standing.bestScore = (score standing.best).score
  bestCandidate : standing.bestCandidate = score standing.best
  top : standing.top = candidates.map score

/-- The scores of the candidates compare as their keys do, and are above the start of the loop. -/
structure Ordered (key : WorkerState → K) (score : WorkerState → CandidateScore F)
    (candidates : List WorkerState) : Prop where
  above : ∀ worker ∈ candidates, Arithmetic.lowest < ((score worker).score : WithBot F)
  lt_iff : ∀ a ∈ candidates, ∀ b ∈ candidates, (score a).score < (score b).score ↔ key a < key b

theorem rank_leads {key : WorkerState → K} {score : WorkerState → CandidateScore F}
    {candidates : List WorkerState} (ordered : Ordered key score candidates) (first : WorkerState)
    (some : candidates ≠ []) : Leads key score candidates (rank score first candidates) := by
  induction candidates using List.reverseRecOn with
  | nil => exact absurd rfl some
  | append_singleton earlier worker ih =>
    have own : worker ∈ earlier ++ [worker] := by simp
    rw [rank, List.foldl_append]
    by_cases nothing : earlier = []
    · subst nothing
      simp only [List.foldl_cons, List.foldl_nil, Standing.consider, if_pos (ordered.above worker own)]
      exact ⟨.singleton _ worker, rfl, rfl, rfl⟩
    · have leads := ih ⟨fun other member => ordered.above other (List.mem_append_left _ member),
        fun a inA b inB =>
          ordered.lt_iff a (List.mem_append_left _ inA) b (List.mem_append_left _ inB)⟩ nothing
      rw [rank] at leads
      generalize earlier.foldl (Standing.consider score) _ = standing at leads
      have better := ordered.lt_iff _ (List.mem_append_left _ leads.best.mem) worker own
      simp only [List.foldl_cons, List.foldl_nil, Standing.consider, leads.bestScore,
        WithBot.coe_lt_coe, better]
      split_ifs with more
      · exact ⟨leads.best.replace more, rfl, rfl, by simp [leads.top]⟩
      · exact ⟨leads.best.keep (not_lt.mp more), rfl, leads.bestCandidate, by simp [leads.top]⟩

end Loop

theorem rank_exact (score : WorkerState → CandidateScore) (first : WorkerState)
    {candidates : List WorkerState} (some : candidates ≠ []) :
    Leads (fun worker => (score worker).score) score candidates (rank score first candidates) :=
  rank_leads ⟨fun _ _ => WithBot.bot_lt_coe _, fun _ _ _ _ => Iff.rfl⟩ first some

/-- A decision of a scoring strategy names the first worker of maximal score. -/
def NamesBest (score : WorkerState → CandidateScore) (workers : List WorkerState)
    (decision : RouteDecision) : Prop :=
  ∃ worker, FirstBest (fun worker => (score worker).score) (healthy workers) worker ∧
    decision.workerID = worker.id ∧ decision.estimatedScore = (score worker).score

theorem contract_of_best {workers : List WorkerState} (best : NamesBest score workers decision)
    (counted : decision.candidateCount = (healthy workers).length) :
    Contract workers (.ok decision) := by
  obtain ⟨worker, first, sent, -⟩ := best
  exact contract_of_mem first.mem sent counted

/-- What a pick of a scoring strategy is: a refusal without candidates, else the
best by `score`. -/
def PicksBest (score : WorkerState → CandidateScore) (workers : List WorkerState)
    (result : Except PickError RouteDecision) : Prop :=
  healthy workers = [] ∧ result = .error .noHealthyWorker ∨
    ∃ decision, result = .ok decision ∧ NamesBest score workers decision ∧
      decision.candidateCount = (healthy workers).length

theorem PicksBest.contract {workers : List WorkerState}
    {result : Except PickError RouteDecision} (picks : PicksBest score workers result) :
    Contract workers result := by
  rcases picks with ⟨none, rfl⟩ | ⟨decision, rfl, best, counted⟩
  · exact contract_of_nil none
  · exact contract_of_best best counted

theorem PicksBest.best {workers : List WorkerState}
    {result : Except PickError RouteDecision} (picks : PicksBest score workers result)
    (picked : result = .ok decision) :
    NamesBest score workers decision := by
  rcases picks with ⟨-, refused⟩ | ⟨other, same, best, -⟩
  · rw [refused] at picked
    cases picked
  · rw [same] at picked
    cases picked
    exact best

theorem picksBest_ok {workers rest : List WorkerState}
    {first : WorkerState} (split : healthy workers = first :: rest)
    (sent : decision.workerID = (rank score first (first :: rest)).best.id)
    (scored : decision.estimatedScore = (rank score first (first :: rest)).bestScore)
    (counted : decision.candidateCount = (first :: rest).length) :
    PicksBest score workers (.ok decision) := by
  have leads := rank_exact score first (List.cons_ne_nil first rest)
  refine .inr ⟨decision, rfl, ⟨_, ?_, sent, scored.trans leads.bestScore⟩, ?_⟩
  · rw [split]
    exact leads.best
  · rw [counted, split]

theorem TenantAwareBoundedLoad.picksBest (t : TenantAwareBoundedLoad) (call : PickCall) :
    PicksBest (t.scoring call) call.workers (t.pick call).1 := by
  cases split : healthy call.workers with
  | nil => exact .inl ⟨split, by simp only [TenantAwareBoundedLoad.pick, split]⟩
  | cons first rest =>
    simp only [TenantAwareBoundedLoad.pick, split]
    exact picksBest_ok split rfl rfl rfl

theorem CostAware.picksBest (c : CostAware) (req : RequestContext) (workers : List WorkerState)
    (view : IndexView) :
    PicksBest (c.normalized.score req (view.overlap req)) workers (c.pick req workers view) := by
  cases split : healthy workers with
  | nil => exact .inl ⟨split, by simp only [CostAware.pick, split]⟩
  | cons first rest =>
    simp only [CostAware.pick, split]
    exact picksBest_ok split rfl rfl rfl

theorem TopologyAwareCostAware.picksBest (t : TopologyAwareCostAware) (req : RequestContext)
    (workers : List WorkerState) (view : IndexView) :
    PicksBest (t.scoreWorker req (view.locations req)) workers (t.pick req workers view) := by
  cases split : healthy workers with
  | nil => exact .inl ⟨split, by simp only [TopologyAwareCostAware.pick, split]⟩
  | cons first rest =>
    simp only [TopologyAwareCostAware.pick, split]
    exact picksBest_ok split rfl rfl rfl

/-! ### Every strategy -/

/-- How a strategy scores the candidates of a call, for those that score. -/
def Strategy.scores (strategy : Strategy) (call : PickCall) :
    Option (WorkerState → CandidateScore) :=
  match strategy with
  | .tenantAwareBoundedLoad t => some (t.scoring call)
  | .costAware c => some (c.normalized.score call.req (call.view.overlap call.req))
  | .topologyAwareCostAware t => some (t.scoreWorker call.req (call.view.locations call.req))
  | _ => none

/-- A round-robin counter that has made at most `picks` steps from zero. -/
def Strategy.CountedTo (picks : Nat) : Strategy → Prop
  | .roundRobin r => 0 ≤ r.next ∧ r.next ≤ picks
  | _ => True

def Strategy.Fresh : Strategy → Prop
  | .roundRobin r => r.next = 0
  | .tenantAwareBoundedLoad t => t.assignments = ∅ ∧ t.lastSeen = ∅
  | _ => True

def Strategy.after (strategy : Strategy) (calls : List PickCall) : Strategy :=
  run (fun strategy call => (strategy.pick call).2) strategy calls

/-- Too few picks to wrap the counter, if there is one. -/
def Strategy.Unwrapped (strategy : Strategy) (picks : Nat) : Prop :=
  ∀ r, strategy = .roundRobin r → picks < 2 ^ 63

theorem Strategy.Unwrapped.pick (unwrapped : strategy.Unwrapped picks) (call : PickCall) :
    (strategy.pick call).2.Unwrapped picks := by
  intro r' same
  cases strategy with
  | roundRobin r => exact unwrapped r rfl
  | _ => cases same

theorem Strategy.pick_countedTo
    (counted : strategy.CountedTo picks) (unwrapped : strategy.Unwrapped (picks + 1))
    (call : PickCall) : (strategy.pick call).2.CountedTo (picks + 1) := by
  cases strategy with
  | roundRobin r =>
    obtain ⟨nonnegative, most⟩ := counted
    have small := unwrapped r rfl
    by_cases none : healthy call.workers = []
    · have stays : (r.pick call.req call.workers).2 = r := by
        simp [RoundRobin.pick, RoundRobin.pickOn, none]
      simp only [Strategy.pick, Prod.map_snd, stays, CountedTo]
      omega
    · obtain ⟨_, _, _, picked, _⟩ := r.pick_ok call.req call.workers nonnegative none
      simp only [Strategy.pick, Prod.map_snd, picked, CountedTo, wrapInt]
      omega
  | _ => trivial

theorem Strategy.after_countedTo (counted : strategy.CountedTo picks) (calls : List PickCall)
    (unwrapped : strategy.Unwrapped (picks + calls.length)) :
    (strategy.after calls).CountedTo (picks + calls.length) := by
  induction calls generalizing strategy picks with
  | nil => exact counted
  | cons call rest ih =>
    have shift : picks + (call :: rest).length = picks + 1 + rest.length := by
      rw [List.length_cons]
      omega
    rw [shift] at unwrapped ⊢
    refine ih (pick_countedTo counted ?_ call) (unwrapped.pick call)
    intro r same
    have small := unwrapped r same
    omega

theorem Strategy.contract (counted : strategy.CountedTo picks)
    (call : PickCall) : Contract call.workers (strategy.pick call).1 := by
  cases strategy with
  | roundRobin r => exact r.contract call.req call.workers counted.1
  | p2c => exact P2C.contract call.req call.workers
  | prefixHash => exact PrefixHash.contract call.req call.workers call.view
  | prefixHashBoundedLoad p => exact p.contract call.req call.workers call.view call.later
  | tenantAwareBoundedLoad t => exact (t.picksBest call).contract
  | costAware c => exact (c.picksBest call.req call.workers call.view).contract
  | topologyAwareCostAware t => exact (t.picksBest call.req call.workers call.view).contract

theorem Strategy.picksBest {call : PickCall} (scored : strategy.scores call = some score) :
    PicksBest score call.workers (strategy.pick call).1 := by
  cases strategy with
  | tenantAwareBoundedLoad t =>
    cases scored
    exact t.picksBest call
  | costAware c =>
    cases scored
    exact c.picksBest call.req call.workers call.view
  | topologyAwareCostAware t =>
    cases scored
    exact t.picksBest call.req call.workers call.view
  | _ => cases scored

theorem Strategy.Fresh.countedTo (fresh : strategy.Fresh) :
    strategy.CountedTo 0 := by
  cases strategy with
  | roundRobin r =>
    have zero : r.next = 0 := fresh
    simp [Strategy.CountedTo, zero]
  | _ => trivial

/-- Over exact arithmetic, a freshly constructed strategy, after any earlier picks that did not
wrap the round-robin counter, meets the contract on every call. Where it scores, the decision
names the first candidate of maximal score. -/
theorem pick_routable_worker (strategy : Strategy) (fresh : strategy.Fresh)
    (earlier : List PickCall) (unwrapped : strategy.Unwrapped earlier.length) (call : PickCall) :
    Contract call.workers ((strategy.after earlier).pick call).1 ∧
      ∀ score decision, (strategy.after earlier).scores call = some score →
        ((strategy.after earlier).pick call).1 = .ok decision →
          NamesBest score call.workers decision := by
  refine ⟨?_, fun score decision scored picked => (Strategy.picksBest scored).best picked⟩
  have counted := Strategy.after_countedTo fresh.countedTo earlier
    (by rwa [Nat.zero_add])
  exact Strategy.contract counted call

theorem lighter_least (a b : WorkerState) :
    loadScore (lighter a b) ≤ loadScore a ∧ loadScore (lighter a b) ≤ loadScore b := by
  unfold lighter
  split_ifs with less
  · exact ⟨less.le, le_refl _⟩
  · exact ⟨le_refl _, not_lt.mp less⟩

/-- For two or more candidates the indices are inside the slice and differ, no sum on the way
overflows the type it is taken in, and so the worker picked is compared with another one, here
by exact load scores. -/
theorem P2C.compares_two_workers :
    (∀ (key : Bytes) (n : Nat), 2 ≤ n →
      fnv64a key / n + 1 < 2 ^ 64 ∧ (fnv64a key / n + 1) % n + 1 ≤ n ∧
      (deterministicPair key n).1 < n ∧ (deterministicPair key n).2 < n ∧
      (deterministicPair key n).1 ≠ (deterministicPair key n).2) ∧
    ∀ (req : RequestContext) (workers : List WorkerState), 2 ≤ (healthy workers).length →
      ∃ decision chosen other, ∃ i j : Nat, P2C.pick req workers = .ok decision ∧
        decision.workerID = chosen.id ∧ (healthy workers)[i]? = some chosen ∧
        (healthy workers)[j]? = some other ∧ i ≠ j ∧ loadScore chosen ≤ loadScore other := by
  constructor
  · intro key n two
    have quotient : fnv64a key / n ≤ fnv64a key / 2 := Nat.div_le_div_left two (by decide)
    have hash := fnv64a_lt key
    have second : (fnv64a key / n + 1) % n < n := Nat.mod_lt _ (by omega)
    refine ⟨by omega, second, deterministicPair_fst key (by omega),
      deterministicPair_snd key (by omega), deterministicPair_ne key two⟩
  · intro req workers two
    have some : healthy workers ≠ [] := by
      intro none
      rw [none] at two
      cases two
    have distinct := deterministicPair_ne req.requestIDHash two
    obtain ⟨worker, choice, decision, picked, sent, -⟩ := P2C.pick_ok req workers some
    rcases choice with alone | ⟨a, b, ⟨left, right⟩, rfl⟩
    · rw [alone] at two
      cases two with
      | step less => cases less
    · obtain ⟨least, least'⟩ := lighter_least a b
      rcases lighter_eq a b with same | same
      · rw [same] at sent least'
        exact ⟨decision, a, b, _, _, picked, sent, left, right, distinct, least'⟩
      · rw [same] at sent least
        exact ⟨decision, b, a, _, _, picked, sent, right, left, distinct.symm, least⟩

def emptyView : IndexView := ⟨Index.new 0, 0⟩

def RangeOrder.asStored : RangeOrder := ⟨id, fun _ => List.Perm.refl _⟩

def plainCall (workers : List WorkerState) : PickCall where
  req := {}
  workers := workers
  view := emptyView
  later := emptyView
  now := 0
  order := .asStored

def drainingAndReady : List WorkerState :=
  [{ id := "worker-0", url := "", draining := true }, { id := "worker-1", url := "" }]

theorem pick_routable_worker_draining :
    Contract drainingAndReady
      (((Strategy.roundRobin {}).after [plainCall drainingAndReady]).pick
        (plainCall drainingAndReady)).1 :=
  (pick_routable_worker (.roundRobin {}) rfl [plainCall drainingAndReady]
    (fun _ _ => by decide) (plainCall drainingAndReady)).1

def busyAndIdle : List WorkerState :=
  [{ id := "worker-0", url := "", queueDepth := 3 }, { id := "worker-1", url := "" }]

theorem P2C.compares_two_ready : ∃ decision chosen other, ∃ i j : Nat,
    P2C.pick {} busyAndIdle = .ok decision ∧ decision.workerID = "worker-1" ∧
      decision.workerID = chosen.id ∧ (healthy busyAndIdle)[i]? = some chosen ∧
      (healthy busyAndIdle)[j]? = some other ∧ i ≠ j ∧ loadScore chosen ≤ loadScore other := by
  obtain ⟨decision, chosen, other, i, j, picked, compared⟩ :=
    P2C.compares_two_workers.2 {} busyAndIdle (by decide)
  have idle : (P2C.pick {} busyAndIdle).toOption.map RouteDecision.workerID = some "worker-1" := by
    decide +kernel
  rw [picked] at idle
  exact ⟨decision, chosen, other, i, j, picked, Option.some.inj idle, compared⟩

end AiStorage.Router
