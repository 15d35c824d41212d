import AiStorage.Router.Picks
import Mathlib.Algebra.BigOperators.Group.Finset.Piecewise

/-!
# Tenant counts

What one pick of `TenantAwareBoundedLoad` does to the recorded counts: pruning and
eviction only drop whole tenants, halving halves every count of the picking
tenant, and the chosen worker's count goes up by one.
-/
namespace AiStorage.Router
open Lib

namespace TenantLoad

@[simp] theorem count_empty (worker : WorkerID) : count ∅ worker = 0 := rfl

variable (load : TenantLoad)

theorem count_insert (worker : WorkerID) (n : Nat) :
    count (load.insert worker n) = Function.update load.count worker n := by
  funext other
  by_cases same : other = worker
  · subst same
    rw [Function.update_self, count, AList.lookup_insert, Option.getD_some]
  · rw [Function.update_of_ne same, count, AList.lookup_insert_ne same, count]

abbrev Entry := Sigma fun _ : WorkerID => Nat

theorem foldl_halve_count (entries : List Entry) (nodup : entries.NodupKeys)
    (acc : TenantLoad × Nat) (worker : WorkerID) :
    (entries.foldl (fun acc entry => (acc.1.insert entry.1 (entry.2 / 2), acc.2 + entry.2 / 2))
        acc).1.count worker =
      ((entries.dlookup worker).map (· / 2)).getD (acc.1.count worker) := by
  induction entries generalizing acc with
  | nil => rfl
  | cons entry rest ih =>
    obtain ⟨key, n⟩ := entry
    obtain ⟨fresh, nodup⟩ := List.nodupKeys_cons.mp nodup
    rw [List.foldl_cons, ih nodup, count_insert]
    by_cases same : worker = key
    · subst same
      rw [List.dlookup_eq_none.mpr fresh, List.dlookup_cons_eq]
      simp
    · rw [List.dlookup_cons_ne _ _ same, Function.update_of_ne same]

theorem foldl_halve_total (entries : List Entry) (acc : TenantLoad × Nat) :
    (entries.foldl (fun acc entry => (acc.1.insert entry.1 (entry.2 / 2), acc.2 + entry.2 / 2))
        acc).2 = acc.2 + (entries.map fun entry => entry.2 / 2).sum := by
  induction entries generalizing acc with
  | nil => rfl
  | cons entry rest ih =>
    rw [List.foldl_cons, ih, List.map_cons, List.sum_cons, Nat.add_assoc]

theorem count_halve (worker : WorkerID) : load.halve.1.count worker = load.count worker / 2 := by
  rw [halve, foldl_halve_count _ load.nodupKeys, count, AList.lookup]
  cases load.entries.dlookup worker with
  | none => rfl
  | some n => rfl

/-- The sum of every halved count of the map, whichever worker it is for. -/
def halvedTotal (load : TenantLoad) : Nat := (load.entries.map fun entry => entry.2 / 2).sum

theorem halve_total : load.halve.2 = load.halvedTotal := by
  rw [halve, foldl_halve_total, Nat.zero_add, halvedTotal]

def halvedStrangers (load : TenantLoad) (candidates : List WorkerState) : Nat :=
  ((load.entries.filter fun entry => entry.1 ∉ candidates.map WorkerState.id).map
    fun entry => entry.2 / 2).sum

theorem halved_listed {ids : List WorkerID} (distinct : ids.Nodup) (entries : List Entry)
    (nodup : entries.NodupKeys) :
    ((entries.filter fun entry => entry.1 ∈ ids).map fun entry => entry.2 / 2).sum =
      (ids.map fun id => (entries.dlookup id).getD 0 / 2).sum := by
  induction entries with
  | nil => simp
  | cons entry rest ih =>
    obtain ⟨key, n⟩ := entry
    obtain ⟨fresh, nodup⟩ := List.nodupKeys_cons.mp nodup
    -- the new entry adds `n / 2` at its own key and nothing elsewhere
    have spread : ∀ id, (List.dlookup id (⟨key, n⟩ :: rest)).getD 0 / 2 =
        (rest.dlookup id).getD 0 / 2 + (if id = key then n / 2 else 0) := by
      intro id
      by_cases same : id = key
      · subst same
        simp [List.dlookup_eq_none.mpr fresh]
      · rw [List.dlookup_cons_ne rest ⟨key, n⟩ same, if_neg same, Nat.add_zero]
    simp only [spread, List.sum_map_add, ← ih nodup]
    rw [← List.sum_toFinset (fun id => if id = key then n / 2 else 0) distinct,
      Finset.sum_ite_eq' ids.toFinset key]
    by_cases listed : key ∈ ids
    · simp [listed, Nat.add_comm]
    · simp [listed]

theorem halvedTotal_eq {candidates : List WorkerState}
    (distinct : (candidates.map WorkerState.id).Nodup) :
    load.halvedTotal = load.halve.1.total candidates + load.halvedStrangers candidates := by
  have listed := halved_listed distinct load.entries load.nodupKeys
  have counts : load.halve.1.total candidates =
      ((candidates.map WorkerState.id).map fun id => (load.entries.dlookup id).getD 0 / 2).sum := by
    simp only [total, count_halve, List.map_map]
    rfl
  rw [counts, ← listed, halvedTotal, halvedStrangers, ← List.sum_append, ← List.map_append]
  refine List.Perm.sum_eq (List.Perm.map _ ?_)
  have parts := (List.filter_append_perm (fun entry : Entry =>
    decide (entry.1 ∈ candidates.map WorkerState.id)) load.entries).symm
  simpa only [decide_not] using parts

end TenantLoad

namespace TenantAwareBoundedLoad

/-! ### What stays of the recorded tenants -/

/-- Every entry of `later` was in `t` before. -/
def Retains (later t : TenantAwareBoundedLoad) : Prop :=
  ∀ tenant load, later.assignments.lookup tenant = some load →
    t.assignments.lookup tenant = some load

theorem forget_retains (t : TenantAwareBoundedLoad) (tenant : String) :
    (t.forget tenant).Retains t := by
  intro other load found
  by_cases same : other = tenant
  · subst same
    rw [forget, AList.lookup_erase] at found
    cases found
  · rwa [forget, AList.lookup_erase_ne same] at found

theorem pruneTenantState_retains (t : TenantAwareBoundedLoad) (now : Time) :
    (t.pruneTenantState now).Retains t := by
  unfold pruneTenantState
  generalize t.lastSeen.entries = entries
  generalize (if t.tenantStateTTL ≤ 0 then 15 * 60 * 1000000000 else t.tenantStateTTL) = ttl
  induction entries generalizing t with
  | nil => exact fun _ _ found => found
  | cons entry rest ih =>
    intro tenant load found
    rw [List.foldl_cons] at found
    split_ifs at found
    · exact t.forget_retains entry.1 tenant load (ih (t.forget entry.1) tenant load found)
    · exact ih t tenant load found

theorem evictOldestTenant_retains (t : TenantAwareBoundedLoad) (order : RangeOrder) :
    (t.evictOldestTenant order).Retains t := by
  simp only [evictOldestTenant]
  split_ifs
  · exact t.forget_retains _
  · exact fun _ _ found => found

/-- Opening a tenant hands out its recorded counts or none, drops other tenants at
most, and leaves the handed-out counts recorded. -/
structure Opens (t : TenantAwareBoundedLoad) (tenant : String)
    (opened : TenantAwareBoundedLoad × TenantLoad) : Prop where
  recorded : opened.1.assignments.lookup tenant = some opened.2
  load : opened.2 = ∅ ∨ t.assignments.lookup tenant = some opened.2
  others : ∀ other load, other ≠ tenant → opened.1.assignments.lookup other = some load →
    t.assignments.lookup other = some load

theorem openTenant_opens (t : TenantAwareBoundedLoad) (tenant : String) (now : Time)
    (order : RangeOrder) : t.Opens tenant (t.openTenant tenant now order) := by
  have pruned := t.pruneTenantState_retains now
  simp only [openTenant]
  cases found : (t.pruneTenantState now).assignments.lookup tenant with
  | some load =>
    exact ⟨found, .inr (pruned tenant load found), fun other load _ => pruned other load⟩
  | none =>
    refine ⟨AList.lookup_insert _, .inl rfl, ?_⟩
    intro other load different kept
    rw [AList.lookup_insert_ne different] at kept
    generalize (if (t.pruneTenantState now).maxTenantStates ≤ 0 then 4096
      else (t.pruneTenantState now).maxTenantStates) = maxStates at kept
    split_ifs at kept
    · exact pruned other load (evictOldestTenant_retains _ order other load kept)
    · exact pruned other load kept

theorem opened_opens (t : TenantAwareBoundedLoad) (call : PickCall) :
    t.Opens (tenantKey call.req) (t.opened call) :=
  t.openTenant_opens (tenantKey call.req) call.now call.order

/-! ### One pick -/

/-- The state after a pick that sent the tenant's request to `worker`. -/
def assigned (t : TenantAwareBoundedLoad) (call : PickCall) (worker : WorkerID) :
    TenantAwareBoundedLoad :=
  { (t.opened call).1 with
    assignments := (t.opened call).1.assignments.insert (tenantKey call.req)
      ((t.settled call).1.insert worker ((t.settled call).1.count worker + 1)) }

theorem pick_ok (t : TenantAwareBoundedLoad) (call : PickCall) (F : Type := ℚ) [Arithmetic F]
    [DecidableLT F] (some : healthy call.workers ≠ []) :
    ∃ first best decision, best = (rank (t.scoring call F) first (healthy call.workers)).best ∧
      t.pick call F = (.ok decision, t.assigned call best.id) ∧ decision.workerID = best.id := by
  obtain ⟨first, rest, split⟩ := List.exists_cons_of_ne_nil some
  simp only [pick, split]
  exact ⟨first, _, _, rfl, rfl, rfl⟩

theorem pick_none (t : TenantAwareBoundedLoad) {call : PickCall} (F : Type := ℚ) [Arithmetic F]
    [DecidableLT F] (none : healthy call.workers = []) :
    t.pick call F = (.error .noHealthyWorker, t) := by
  simp only [pick, none]

theorem settled_count (t : TenantAwareBoundedLoad) (call : PickCall) (worker : WorkerID) :
    (t.settled call).1.count worker =
      if (t.opened call).2.total (healthy call.workers) > 1000000 then
        (t.opened call).2.count worker / 2
      else (t.opened call).2.count worker := by
  simp only [settled, settle]
  split_ifs
  · exact TenantLoad.count_halve _ worker
  · rfl

def held (t : TenantAwareBoundedLoad) (tenant : String) (worker : WorkerID) : Nat :=
  ((t.assignments.lookup tenant).map fun load => load.count worker).getD 0

/-- Pruning and eviction at the start of the call leave the tenant's counts in place. -/
def Survives (tenant : String) (t : TenantAwareBoundedLoad) (call : PickCall) : Prop :=
  ∀ load, t.assignments.lookup tenant = some load →
    (t.opened call).1.assignments.lookup tenant = some load

/-- The call neither drops nor halves the tenant's counts. -/
structure Undisturbed (tenant : String) (t : TenantAwareBoundedLoad) (call : PickCall) : Prop where
  survives : t.Survives tenant call
  unhalved : tenantKey call.req = tenant →
    (t.opened call).2.total (healthy call.workers) ≤ 1000000

def Sends (t : TenantAwareBoundedLoad) (call : PickCall) (tenant : String) (worker : WorkerID)
    (F : Type := ℚ) [Arithmetic F] [DecidableLT F] : Prop :=
  tenantKey call.req = tenant ∧ (t.pick call F).1.toOption.map RouteDecision.workerID = some worker

variable {F : Type} [Arithmetic F] [DecidableLT F]

instance (t : TenantAwareBoundedLoad) (call : PickCall) (tenant : String) (worker : WorkerID) :
    Decidable (t.Sends call tenant worker F) :=
  inferInstanceAs (Decidable (_ ∧ _))

variable {tenant : String} {t : TenantAwareBoundedLoad} {call : PickCall}

theorem Survives.opened_count
    (survives : t.Survives (tenantKey call.req) call) (worker : WorkerID) :
    (t.opened call).2.count worker = t.held (tenantKey call.req) worker := by
  have opens := t.opened_opens call
  unfold held
  cases found : t.assignments.lookup (tenantKey call.req) with
  | some load =>
    have same := (survives load found).symm.trans opens.recorded
    rw [Option.some_inj.mp same]
    rfl
  | none =>
    rcases opens.load with empty | kept
    · rw [empty]
      rfl
    · rw [found] at kept
      cases kept

theorem Survives.opened_held (survives : t.Survives tenant call)
    (other : tenant ≠ tenantKey call.req)
    (worker : WorkerID) : (t.opened call).1.held tenant worker = t.held tenant worker := by
  unfold held
  cases found : t.assignments.lookup tenant with
  | some load => rw [survives load found]
  | none =>
    cases kept : (t.opened call).1.assignments.lookup tenant with
    | none => rfl
    | some load =>
      have before := (t.opened_opens call).others tenant load other kept
      rw [found] at before
      cases before

theorem held_assigned_own (t : TenantAwareBoundedLoad) (call : PickCall) (worker : WorkerID) :
    (t.assigned call worker).held (tenantKey call.req) =
      Function.update (t.settled call).1.count worker ((t.settled call).1.count worker + 1) := by
  funext other
  rw [held, assigned, AList.lookup_insert, Option.map_some, Option.getD_some,
    TenantLoad.count_insert]

theorem held_assigned_other (t : TenantAwareBoundedLoad) (call : PickCall) (worker : WorkerID)
    {tenant : String} (other : tenant ≠ tenantKey call.req) :
    (t.assigned call worker).held tenant = (t.opened call).1.held tenant := by
  funext id
  rw [held, assigned, AList.lookup_insert_ne other, held]

theorem Undisturbed.held_pick (undisturbed : t.Undisturbed tenant call) (worker : WorkerID) :
    (t.pick call F).2.held tenant worker =
      t.held tenant worker + (if t.Sends call tenant worker F then 1 else 0) := by
  by_cases none : healthy call.workers = []
  · have nothing : ¬ t.Sends call tenant worker F := by
      rintro ⟨-, sent⟩
      rw [t.pick_none F none] at sent
      cases sent
    rw [t.pick_none F none, if_neg nothing, Nat.add_zero]
  · obtain ⟨-, best, decision, -, picked, sent⟩ := t.pick_ok call F none
    have sends : t.Sends call tenant worker F ↔ tenantKey call.req = tenant ∧ best.id = worker := by
      rw [Sends, picked, ← sent]
      simp [Except.toOption]
    rw [picked]
    by_cases own : tenantKey call.req = tenant
    · subst own
      have few := undisturbed.unhalved rfl
      have count : (t.settled call).1.count worker = t.held (tenantKey call.req) worker := by
        rw [settled_count, if_neg (not_lt.mpr few), undisturbed.survives.opened_count]
      rw [held_assigned_own]
      by_cases same : best.id = worker
      · subst same
        rw [Function.update_self, count, if_pos (sends.mpr ⟨rfl, rfl⟩)]
      · rw [Function.update_of_ne (Ne.symm same), count,
          if_neg fun sent => same (sends.mp sent).2, Nat.add_zero]
    · rw [held_assigned_other _ _ _ (Ne.symm own), undisturbed.survives.opened_held (Ne.symm own),
        if_neg fun sent => own (sends.mp sent).1, Nat.add_zero]

def after (t : TenantAwareBoundedLoad) (calls : List PickCall) (F : Type := ℚ) [Arithmetic F]
    [DecidableLT F] : TenantAwareBoundedLoad :=
  run (fun t call => (t.pick call F).2) t calls

/-- How many of the calls are the tenant's and go to `worker`. -/
def sent (F : Type) [Arithmetic F] [DecidableLT F] (tenant : String) (worker : WorkerID) :
    TenantAwareBoundedLoad → List PickCall → Nat
  | _, [] => 0
  | t, call :: rest =>
    (if t.Sends call tenant worker F then 1 else 0) + sent F tenant worker (t.pick call F).2 rest

theorem held_after {calls : List PickCall}
    (undisturbed : Along (fun t call => (t.pick call F).2) (Undisturbed tenant) t calls)
    (worker : WorkerID) :
    (t.after calls F).held tenant worker = t.held tenant worker + sent F tenant worker t calls := by
  induction calls generalizing t with
  | nil => rfl
  | cons call rest ih =>
    rw [after, run_cons, ← after, ih undisturbed.2, undisturbed.1.held_pick, sent, Nat.add_assoc]

/-! ### The limit -/

theorem settled_of_halved (halves : 1000000 < (t.opened call).2.total (healthy call.workers)) :
    t.settled call = (t.opened call).2.halve := by
  rw [settled, settle, if_pos halves]

theorem settled_of_few (few : (t.opened call).2.total (healthy call.workers) ≤ 1000000) :
    t.settled call = ((t.opened call).2, (t.opened call).2.total (healthy call.workers)) := by
  rw [settled, settle, if_neg (not_lt.mpr few)]

/-- A call that halves takes its limit from the whole map. -/
theorem limit_of_halved (halves : 1000000 < (t.opened call).2.total (healthy call.workers)) :
    t.limit call =
      ((t.opened call).2.halvedTotal / (healthy call.workers).length : Nat) + t.tenantSlack := by
  rw [limit, tenantLimit, settled_of_halved halves, TenantLoad.halve_total]

theorem limit_of_few (few : (t.opened call).2.total (healthy call.workers) ≤ 1000000) :
    t.limit call =
      ((t.settled call).1.total (healthy call.workers) / (healthy call.workers).length : Nat) +
        t.tenantSlack := by
  rw [limit, tenantLimit, settled_of_few few]

theorem add_div_eq_iff {n : Nat} (positive : 0 < n) (sum more : Nat) :
    (sum + more) / n = sum / n ↔ sum % n + more < n := by
  have split : sum + more = n * (sum / n) + (sum % n + more) := by
    rw [← Nat.add_assoc, Nat.div_add_mod]
  rw [split, Nat.mul_add_div positive, Nat.add_eq_left, Nat.div_eq_zero_iff_lt positive]

/-- The limit of a call is the mean over its candidates plus the slack exactly when
the call does not halve, or the halved counts of the whole map have the same mean.
With distinct candidates the two sums differ by the halved counts of other workers,
which must then be less than what the sum over the candidates lacks to the next
multiple of their number. -/
theorem limit_eq_iff (t : TenantAwareBoundedLoad) (call : PickCall) :
    (t.limit call =
        ((t.settled call).1.total (healthy call.workers) / (healthy call.workers).length : Nat) +
          t.tenantSlack ↔
      (t.opened call).2.total (healthy call.workers) ≤ 1000000 ∨
        (t.opened call).2.halvedTotal / (healthy call.workers).length =
          (t.settled call).1.total (healthy call.workers) / (healthy call.workers).length) ∧
    (((healthy call.workers).map WorkerState.id).Nodup →
      1000000 < (t.opened call).2.total (healthy call.workers) →
        (t.opened call).2.halvedTotal = (t.settled call).1.total (healthy call.workers) +
          (t.opened call).2.halvedStrangers (healthy call.workers) ∧
        (t.limit call = ((t.settled call).1.total (healthy call.workers) /
            (healthy call.workers).length : Nat) + t.tenantSlack ↔
          (t.opened call).2.halve.1.total (healthy call.workers) % (healthy call.workers).length +
              (t.opened call).2.halvedStrangers (healthy call.workers) <
            (healthy call.workers).length)) := by
  refine ⟨?_, ?_⟩
  · rcases le_or_gt ((t.opened call).2.total (healthy call.workers)) 1000000 with few | halves
    · exact ⟨fun _ => .inl few, fun _ => limit_of_few few⟩
    · rw [limit_of_halved halves]
      constructor
      · intro same
        right
        omega
      · rintro (few | same)
        · omega
        · rw [same]
  · intro distinct halves
    have positive : 0 < (healthy call.workers).length := by
      refine List.length_pos_iff.mpr fun none => ?_
      rw [none] at halves
      cases halves
    have sums := TenantLoad.halvedTotal_eq (t.opened call).2 distinct
    rw [settled_of_halved halves, limit_of_halved halves]
    refine ⟨sums, ?_⟩
    rw [← add_div_eq_iff positive, ← sums]
    omega

/-! ### A departed worker raises the limit -/

/-- All recorded tenants were seen at time zero. -/
def Steady (t : TenantAwareBoundedLoad) : Prop :=
  ∀ tenant seen, t.lastSeen.lookup tenant = some seen → seen = 0

theorem Steady.pruneTenantState (steady : t.Steady) : t.pruneTenantState 0 = t := by
  have zero : ∀ entry ∈ t.lastSeen.entries, entry.2 = 0 := by
    intro entry member
    exact steady entry.1 entry.2 (AList.mem_lookup_iff.mpr member)
  unfold TenantAwareBoundedLoad.pruneTenantState
  generalize entries_eq : t.lastSeen.entries = entries at zero
  clear entries_eq
  induction entries with
  | nil => rfl
  | cons entry rest ih =>
    have fresh : ¬ timeSub 0 entry.2 >
        (if t.tenantStateTTL ≤ 0 then 15 * 60 * 1000000000 else t.tenantStateTTL) := by
      rw [zero entry (by simp)]
      split_ifs with unset
      · decide
      · change ¬ (0 : Int) > t.tenantStateTTL
        omega
    rw [List.foldl_cons, if_neg fresh]
    exact ih fun entry member => zero entry (List.mem_cons_of_mem _ member)

def soloCall (worker : WorkerID) : PickCall := plainCall [{ id := worker, url := "" }]

theorem healthy_soloCall (worker : WorkerID) :
    healthy (soloCall worker).workers = [{ id := worker, url := "" }] := rfl

theorem tenantKey_soloCall (worker : WorkerID) : tenantKey (soloCall worker).req = "unknown" := rfl

theorem Steady.survives (steady : t.Steady) (worker : WorkerID) :
    t.Survives "unknown" (soloCall worker) := by
  intro load found
  have kept : (t.pruneTenantState 0).assignments.lookup "unknown" = some load := by
    rw [steady.pruneTenantState, found]
  have opened : (t.opened (soloCall worker)).1.assignments =
      (t.pruneTenantState 0).assignments := by
    change (t.openTenant "unknown" 0 .asStored).1.assignments = _
    simp only [openTenant, kept]
  rw [opened, kept]

theorem Steady.insert {lastSeen : GoMap String Time}
    (steady : ∀ tenant seen, lastSeen.lookup tenant = some seen → seen = 0) (key : String) :
    ∀ tenant seen, (lastSeen.insert key 0).lookup tenant = some seen → seen = 0 := by
  intro tenant seen found
  by_cases same : tenant = key
  · subst same
    rw [AList.lookup_insert, Option.some_inj] at found
    exact found.symm
  · rw [AList.lookup_insert_ne same] at found
    exact steady tenant seen found

theorem Steady.forget (steady : t.Steady) (key : String) : (t.forget key).Steady := by
  intro tenant seen found
  by_cases same : tenant = key
  · subst same
    rw [TenantAwareBoundedLoad.forget, AList.lookup_erase] at found
    cases found
  · rw [TenantAwareBoundedLoad.forget, AList.lookup_erase_ne same] at found
    exact steady tenant seen found

theorem Steady.pick (steady : t.Steady) (worker : WorkerID) :
    (t.pick (soloCall worker)).2.Steady := by
  obtain ⟨-, best, decision, -, picked, -⟩ :=
    t.pick_ok (soloCall worker) ℚ (by simp [healthy_soloCall])
  rw [picked]
  change ∀ tenant seen,
    (t.openTenant "unknown" 0 .asStored).1.lastSeen.lookup tenant = some seen → seen = 0
  simp only [openTenant, steady.pruneTenantState]
  cases t.assignments.lookup "unknown" with
  | some load => exact Steady.insert steady "unknown"
  | none =>
    refine Steady.insert ?_ "unknown"
    generalize (if t.maxTenantStates ≤ 0 then 4096 else t.maxTenantStates) = maxStates
    split_ifs
    · simp only [evictOldestTenant]
      split_ifs
      · exact steady.forget _
      · exact steady
    · exact steady

theorem Steady.held_pick (steady : t.Steady) (worker : WorkerID)
    (few : t.held "unknown" worker ≤ 1000000) (other : WorkerID) :
    (t.pick (soloCall worker)).2.held "unknown" other =
      t.held "unknown" other + (if other = worker then 1 else 0) := by
  have survives := steady.survives worker
  have undisturbed : t.Undisturbed "unknown" (soloCall worker) := by
    refine ⟨survives, fun _ => ?_⟩
    have count := @Survives.opened_count t (soloCall worker) survives worker
    rw [healthy_soloCall, TenantLoad.total, List.map_singleton, List.sum_singleton, count]
    exact few
  have some : healthy (soloCall worker).workers ≠ [] := by simp [healthy_soloCall]
  obtain ⟨first, best, decision, ranked, picked, sent⟩ := t.pick_ok (soloCall worker) ℚ some
  have only : decision.workerID = worker := by
    have member := (rank_exact (t.scoring (soloCall worker)) first some).best.mem
    rw [← ranked, healthy_soloCall, List.mem_singleton] at member
    rw [sent, member]
  have sends : t.Sends (soloCall worker) "unknown" other ↔ other = worker := by
    rw [Sends, picked]
    simp [Except.toOption, only, eq_comm, soloCall, plainCall, tenantKey]
  rw [undisturbed.held_pick]
  simp only [sends]

theorem Steady.after_solo (steady : t.Steady) (worker : WorkerID)
    (n : Nat) (few : t.held "unknown" worker + n ≤ 1000001) :
    (t.after (List.replicate n (soloCall worker))).Steady ∧
      ∀ other, (t.after (List.replicate n (soloCall worker))).held "unknown" other =
        t.held "unknown" other + (if other = worker then n else 0) := by
  induction n generalizing t with
  | zero => exact ⟨steady, by simp [after]⟩
  | succ n ih =>
    have step := steady.held_pick worker (by omega)
    have more : (t.pick (soloCall worker)).2.held "unknown" worker + n ≤ 1000001 := by
      rw [step worker, if_pos rfl]
      omega
    obtain ⟨later, counts⟩ := ih (steady.pick worker) more
    rw [List.replicate_succ, after, run_cons, ← after]
    refine ⟨later, fun other => ?_⟩
    rw [counts other, step other]
    split_ifs
    · omega
    · omega

/-- A million and one picks for one worker, then two for another. -/
def departed : TenantAwareBoundedLoad :=
  (after {} (List.replicate 1000001 (soloCall "worker-0"))).after
    (List.replicate 2 (soloCall "worker-1"))

theorem departed_held : departed.Steady ∧ departed.held "unknown" "worker-0" = 1000001 ∧
    departed.held "unknown" "worker-1" = 2 := by
  have start : Steady {} := by
    intro tenant seen found
    cases found
  have empty : ∀ worker, held {} "unknown" worker = 0 := fun _ => rfl
  obtain ⟨steady, first⟩ := start.after_solo "worker-0" 1000001 (by rw [empty])
  have none : (after {} (List.replicate 1000001 (soloCall "worker-0"))).held "unknown" "worker-1" =
      0 := by
    rw [first, empty, if_neg (by decide)]
  obtain ⟨later, second⟩ := steady.after_solo "worker-1" 2 (by rw [none]; decide)
  refine ⟨later, ?_, ?_⟩
  · rw [departed, second, first, empty, if_pos rfl, if_neg (by decide)]
  · rw [departed, second, none, if_pos rfl]

theorem halved_le_strangers (load : TenantLoad) {candidates : List WorkerState}
    {worker : WorkerID} (outside : worker ∉ candidates.map WorkerState.id) :
    load.count worker / 2 ≤ load.halvedStrangers candidates := by
  unfold TenantLoad.count
  cases found : load.lookup worker with
  | none => exact Nat.zero_le _
  | some n =>
    have member : (⟨worker, n⟩ : TenantLoad.Entry) ∈ load.entries := AList.mem_lookup_iff.mp found
    refine List.single_le_sum (fun _ _ => Nat.zero_le _) _ (List.mem_map.mpr ?_)
    exact ⟨⟨worker, n⟩, List.mem_filter.mpr ⟨member, by simpa using outside⟩, rfl⟩

/-- The tenant comes back to `worker-0` alone. Its halved counts there sum to
500000, so the limit should be 500002; the two picks of `worker-1` raise it. -/
theorem departed_worker_raises_limit :
    (departed.settled (soloCall "worker-0")).1.total (healthy (soloCall "worker-0").workers) =
        500000 ∧
      500000 / (healthy (soloCall "worker-0").workers).length + departed.tenantSlack <
        departed.limit (soloCall "worker-0") := by
  obtain ⟨steady, first, second⟩ := departed_held
  have counts := @Survives.opened_count departed (soloCall "worker-0") (steady.survives "worker-0")
  rw [tenantKey_soloCall] at counts
  have total : ∀ load : TenantLoad, load.total (healthy (soloCall "worker-0").workers) =
      load.count "worker-0" := by
    intro load
    rw [healthy_soloCall, TenantLoad.total, List.map_singleton, List.sum_singleton]
  have halves : 1000000 <
      (departed.opened (soloCall "worker-0")).2.total (healthy (soloCall "worker-0").workers) := by
    rw [total, counts, first]
    decide
  have settled : (departed.settled (soloCall "worker-0")).1.total
      (healthy (soloCall "worker-0").workers) = 500000 := by
    rw [settled_of_halved halves, total, TenantLoad.count_halve, counts, first]
  have outside := halved_le_strangers (departed.opened (soloCall "worker-0")).2
    (show "worker-1" ∉ (healthy (soloCall "worker-0").workers).map WorkerState.id by decide)
  have left : (departed.opened (soloCall "worker-0")).2.count "worker-1" = 2 := by
    rw [counts, second]
  have whole := (departed.opened (soloCall "worker-0")).2.halvedTotal_eq
    (show ((healthy (soloCall "worker-0").workers).map WorkerState.id).Nodup by decide)
  rw [← settled_of_halved halves, settled] at whole
  refine ⟨settled, ?_⟩
  rw [limit_of_halved halves, healthy_soloCall, List.length_singleton, Nat.div_one]
  rw [healthy_soloCall] at whole outside
  omega

end TenantAwareBoundedLoad

end AiStorage.Router
