import AiStorage.Router.TenantLoad

/-!
# Bounded tenant state

`TenantAwareBoundedLoad` keeps two maps with one entry per tenant. Pruning, the eviction of the
oldest tenant and the insertion at a pick keep their keys equal, and an entry is made only when
there is room for it.
-/
namespace AiStorage.Router
open Lib

namespace TenantAwareBoundedLoad

/-- `MaxTenantStates`, or its default. -/
def stateLimit (t : TenantAwareBoundedLoad) : Int :=
  if t.maxTenantStates ≤ 0 then 4096 else t.maxTenantStates

/-- `TenantStateTTL`, or its default of fifteen minutes. -/
def stateTTL (t : TenantAwareBoundedLoad) : Int :=
  if t.tenantStateTTL ≤ 0 then 15 * 60 * 1000000000 else t.tenantStateTTL

theorem stateLimit_pos (t : TenantAwareBoundedLoad) : 0 < t.stateLimit := by
  unfold stateLimit
  split_ifs with unset
  · decide
  · exact not_le.mp unset

theorem stateTTL_pos (t : TenantAwareBoundedLoad) : 0 < t.stateTTL := by
  unfold stateTTL
  split_ifs with unset
  · decide
  · exact not_le.mp unset

/-- Both maps have the same keys, none of them empty, and no more than the limit. -/
structure Tracked (t : TenantAwareBoundedLoad) : Prop where
  same : ∀ tenant, tenant ∈ t.assignments ↔ tenant ∈ t.lastSeen
  named : "" ∉ t.lastSeen
  few : (t.assignments.keys.length : Int) ≤ t.stateLimit

variable {t : TenantAwareBoundedLoad}

theorem Tracked.perm (tracked : t.Tracked) :
    t.assignments.keys.Perm t.lastSeen.keys :=
  (List.perm_ext_iff_of_nodup t.assignments.keys_nodup t.lastSeen.keys_nodup).mpr tracked.same

/-! ### Forgetting -/

theorem Tracked.forget (tracked : t.Tracked) (tenant : String) :
    (t.forget tenant).Tracked where
  same := by
    intro other
    simp only [TenantAwareBoundedLoad.forget, AList.mem_erase, tracked.same]
  named := by
    intro empty
    exact tracked.named (AList.mem_erase.mp empty).2
  few := by
    have fewer : (t.forget tenant).assignments.keys.length ≤ t.assignments.keys.length := by
      simp only [TenantAwareBoundedLoad.forget, AList.keys_erase]
      exact List.length_erase_le
    have few := tracked.few
    change _ ≤ t.stateLimit
    omega

def forgetAll (t : TenantAwareBoundedLoad) (tenants : List String) : TenantAwareBoundedLoad :=
  tenants.foldl forget t

def expired (t : TenantAwareBoundedLoad) (now : Time) : List String :=
  (t.lastSeen.entries.filter fun entry => timeSub now entry.2 > t.stateTTL).map Sigma.fst

theorem pruneTenantState_eq (t : TenantAwareBoundedLoad) (now : Time) :
    t.pruneTenantState now = t.forgetAll (t.expired now) := by
  simp only [pruneTenantState, forgetAll, expired, List.foldl_map, List.foldl_filter, stateTTL]
  congr 1
  funext later entry
  exact if_congr decide_eq_true_iff.symm rfl rfl

theorem mem_expired {now : Time} {tenant : String} :
    tenant ∈ t.expired now ↔
      ∃ seen, t.lastSeen.lookup tenant = some seen ∧ timeSub now seen > t.stateTTL := by
  constructor
  · intro member
    obtain ⟨entry, left, rfl⟩ := List.mem_map.mp member
    obtain ⟨inside, old⟩ := List.mem_filter.mp left
    exact ⟨entry.2, AList.mem_lookup_iff.mpr inside, of_decide_eq_true old⟩
  · rintro ⟨seen, found, old⟩
    apply List.mem_map.mpr
    refine ⟨⟨tenant, seen⟩, List.mem_filter.mpr ⟨AList.mem_lookup_iff.mp found, ?_⟩, rfl⟩
    exact decide_eq_true old

/-- Forgetting keeps the bookkeeping and the settings, and every entry it leaves was there. -/
structure Forgets (t later : TenantAwareBoundedLoad) : Prop where
  tracked : t.Tracked → later.Tracked
  limit : later.stateLimit = t.stateLimit
  ttl : later.stateTTL = t.stateTTL
  seen : ∀ tenant seen, later.lastSeen.lookup tenant = some seen →
    t.lastSeen.lookup tenant = some seen

theorem Forgets.refl (t : TenantAwareBoundedLoad) : t.Forgets t :=
  ⟨fun tracked => tracked, rfl, rfl, fun _ _ found => found⟩

theorem Forgets.trans {t later last : TenantAwareBoundedLoad} (first : t.Forgets later)
    (second : later.Forgets last) : t.Forgets last where
  tracked before := second.tracked (first.tracked before)
  limit := second.limit.trans first.limit
  ttl := second.ttl.trans first.ttl
  seen tenant seen found := first.seen tenant seen (second.seen tenant seen found)

theorem forgets_forget (t : TenantAwareBoundedLoad) (tenant : String) :
    t.Forgets (t.forget tenant) where
  tracked before := before.forget tenant
  limit := rfl
  ttl := rfl
  seen := by
    intro other seen found
    by_cases same : other = tenant
    · subst same
      rw [forget, AList.lookup_erase] at found
      cases found
    · rwa [forget, AList.lookup_erase_ne same] at found

theorem forgets_forgetAll (t : TenantAwareBoundedLoad) (tenants : List String) :
    t.Forgets (t.forgetAll tenants) ∧
      ∀ tenant ∈ tenants, (t.forgetAll tenants).lastSeen.lookup tenant = none := by
  induction tenants generalizing t with
  | nil => exact ⟨.refl t, fun _ member => absurd member List.not_mem_nil⟩
  | cons head rest ih =>
    obtain ⟨kept, gone⟩ := ih (t.forget head)
    refine ⟨(t.forgets_forget head).trans kept, ?_⟩
    intro tenant member
    rcases List.mem_cons.mp member with rfl | later
    · cases found : (t.forgetAll (tenant :: rest)).lastSeen.lookup tenant with
      | none => rfl
      | some seen =>
        have before := kept.seen tenant seen found
        rw [forget, AList.lookup_erase] at before
        cases before
    · exact gone tenant later

theorem pruneTenantState_unexpired (t : TenantAwareBoundedLoad) (now : Time) :
    t.Forgets (t.pruneTenantState now) ∧
      ∀ tenant seen, (t.pruneTenantState now).lastSeen.lookup tenant = some seen →
        timeSub now seen ≤ t.stateTTL := by
  rw [pruneTenantState_eq]
  obtain ⟨kept, gone⟩ := t.forgets_forgetAll (t.expired now)
  refine ⟨kept, ?_⟩
  intro tenant seen found
  by_contra old
  have member : tenant ∈ t.expired now :=
    mem_expired.mpr ⟨seen, kept.seen tenant seen found, not_le.mp old⟩
  rw [gone tenant member] at found
  cases found

/-! ### Evicting the oldest tenant -/

def oldest (entries : List (Sigma fun _ : String => Time)) :
    Sigma fun _ : String => Time :=
  entries.foldl
    (fun oldest entry => if oldest.1 = "" ∨ entry.2 < oldest.2 then entry else oldest) ⟨"", 0⟩

theorem oldest_mem {entries : List (Sigma fun _ : String => Time)} (some : entries ≠ [])
    (named : ∀ entry ∈ entries, entry.1 ≠ "") : oldest entries ∈ entries := by
  have scan : ∀ (rest : List (Sigma fun _ : String => Time)) start,
      rest.foldl (fun oldest entry => if oldest.1 = "" ∨ entry.2 < oldest.2 then entry else oldest)
        start ∈ start :: rest := by
    intro rest
    induction rest with
    | nil =>
      intro start
      exact List.mem_singleton.mpr rfl
    | cons entry rest ih =>
      intro start
      rw [List.foldl_cons]
      split_ifs
      · exact List.mem_cons_of_mem _ (ih entry)
      · rcases List.mem_cons.mp (ih start) with same | later
        · rw [same]
          exact List.mem_cons_self
        · exact List.mem_cons_of_mem _ (List.mem_cons_of_mem _ later)
  obtain ⟨first, rest, rfl⟩ := List.exists_cons_of_ne_nil some
  unfold oldest
  rw [List.foldl_cons, if_pos (.inl rfl)]
  exact scan rest first

theorem evictOldestTenant_eq (tracked : t.Tracked)
    (some : t.lastSeen.entries ≠ []) (order : RangeOrder) :
    ∃ tenant ∈ t.lastSeen, t.evictOldestTenant order = t.forget tenant := by
  have visited := order.perm t.lastSeen.entries
  have keyed : ∀ entry ∈ order.visit t.lastSeen.entries, entry.1 ∈ t.lastSeen := by
    intro entry member
    exact List.mem_map_of_mem (visited.mem_iff.mp member)
  have named : ∀ entry ∈ order.visit t.lastSeen.entries, entry.1 ≠ "" := by
    intro entry member empty
    apply tracked.named
    rw [← empty]
    exact keyed entry member
  have nonempty : order.visit t.lastSeen.entries ≠ [] := by
    intro empty
    rw [empty] at visited
    exact some visited.nil_eq.symm
  have member := oldest_mem nonempty named
  refine ⟨_, keyed _ member, ?_⟩
  change (if (oldest (order.visit t.lastSeen.entries)).1 ≠ "" then _ else t) = _
  rw [if_pos (named _ member)]
  rfl

/-! ### Opening a tenant -/

/-- What opening a tenant leaves: the bookkeeping is in order, the tenant was seen now, and the
other entries are old ones that have not expired. -/
structure Renews (t : TenantAwareBoundedLoad) (tenant : String) (now : Time)
    (later : TenantAwareBoundedLoad) : Prop where
  tracked : later.Tracked
  limit : later.stateLimit = t.stateLimit
  ttl : later.stateTTL = t.stateTTL
  own : later.lastSeen.lookup tenant = some now
  others : ∀ other seen, other ≠ tenant → later.lastSeen.lookup other = some seen →
    t.lastSeen.lookup other = some seen ∧ timeSub now seen ≤ t.stateTTL

theorem Tracked.enter (tracked : t.Tracked) {tenant : String}
    (named : tenant ≠ "") (now : Time) (load : TenantLoad)
    (room : tenant ∈ t.assignments ∨ (t.assignments.keys.length : Int) < t.stateLimit) :
    ({ t with assignments := t.assignments.insert tenant load,
              lastSeen := t.lastSeen.insert tenant now } : TenantAwareBoundedLoad).Tracked where
  same := by
    intro other
    simp only [AList.mem_insert, tracked.same]
  named := by
    intro empty
    rcases (AList.mem_insert _).mp empty with same | before
    · exact named same.symm
    · exact tracked.named before
  few := by
    have few := tracked.few
    change ((t.assignments.insert tenant load).keys.length : Int) ≤ t.stateLimit
    rw [AList.keys_insert, List.length_cons]
    rcases room with there | room
    · have some := List.length_pos_of_mem (show tenant ∈ t.assignments.keys from there)
      rw [List.length_erase_of_mem (show tenant ∈ t.assignments.keys from there)]
      omega
    · have fewer := @List.length_erase_le _ _ tenant t.assignments.keys
      omega

theorem openTenant_renews (tracked : t.Tracked) {tenant : String}
    (named : tenant ≠ "") (now : Time) (order : RangeOrder) :
    t.Renews tenant now (t.openTenant tenant now order).1 := by
  obtain ⟨pruned, young⟩ := t.pruneTenantState_unexpired now
  -- what a later forgetting leaves of the pruned state, with the new entry
  have entered : ∀ (later : TenantAwareBoundedLoad), (t.pruneTenantState now).Forgets later →
      ∀ other seen, other ≠ tenant → (later.lastSeen.insert tenant now).lookup other = some seen →
        t.lastSeen.lookup other = some seen ∧ timeSub now seen ≤ t.stateTTL := by
    intro later forgets other seen apart found
    rw [AList.lookup_insert_ne apart] at found
    have kept := forgets.seen other seen found
    exact ⟨pruned.seen other seen kept, young other seen kept⟩
  simp only [openTenant]
  cases found : (t.pruneTenantState now).assignments.lookup tenant with
  | some load =>
    have there : tenant ∈ (t.pruneTenantState now).assignments :=
      AList.lookup_isSome.mp (by rw [found]; rfl)
    have before := pruned.tracked tracked
    refine ⟨⟨?_, ?_, before.few⟩, pruned.limit, pruned.ttl, AList.lookup_insert _,
      entered _ (.refl _)⟩
    · intro other
      rw [AList.mem_insert, ← before.same]
      constructor
      · exact .inr
      · rintro (rfl | inside)
        · exact there
        · exact inside
    · exact (before.enter named now load (.inl there)).named
  | none =>
    have limit : (if (t.pruneTenantState now).maxTenantStates ≤ 0 then 4096
        else (t.pruneTenantState now).maxTenantStates) = (t.pruneTenantState now).stateLimit := rfl
    simp only [limit]
    have before := pruned.tracked tracked
    split_ifs with full
    · have nonempty : (t.pruneTenantState now).lastSeen.entries ≠ [] := by
        intro empty
        have keys := before.perm.length_eq
        have positive := (t.pruneTenantState now).stateLimit_pos
        simp only [AList.keys, List.keys, empty, List.length_map, List.length_nil] at keys
        rw [keys] at full
        exact absurd full (not_le.mpr positive)
      obtain ⟨victim, member, evicted⟩ := evictOldestTenant_eq before nonempty order
      rw [evicted]
      have forgets := (t.pruneTenantState now).forgets_forget victim
      refine ⟨(before.forget victim).enter named now ∅ (.inr ?_), pruned.limit, pruned.ttl,
        AList.lookup_insert _, entered _ forgets⟩
      have inside : victim ∈ (t.pruneTenantState now).assignments.keys := (before.same victim).mpr member
      have some := List.length_pos_of_mem inside
      have few := before.few
      change (((t.pruneTenantState now).assignments.erase victim).keys.length : Int) <
        (t.pruneTenantState now).stateLimit
      rw [AList.keys_erase, List.length_erase_of_mem inside]
      omega
    · have room : ((t.pruneTenantState now).assignments.keys.length : Int) <
          (t.pruneTenantState now).stateLimit := by
        simpa [AList.keys, List.keys] using full
      exact ⟨before.enter named now ∅ (.inr room), pruned.limit, pruned.ttl,
        AList.lookup_insert _, entered _ (.refl _)⟩

/-! ### Picks -/

theorem tenantKey_ne (req : RequestContext) : tenantKey req ≠ "" := by
  unfold tenantKey
  split_ifs with unnamed
  · decide
  · exact unnamed

theorem pick_renews (tracked : t.Tracked) {call : PickCall}
    (some : healthy call.workers ≠ []) :
    t.Renews (tenantKey call.req) call.now (t.pick call).2 := by
  have opened : t.Renews (tenantKey call.req) call.now (t.opened call).1 :=
    openTenant_renews tracked (tenantKey_ne call.req) call.now call.order
  obtain ⟨-, worker, decision, -, picked, -⟩ := t.pick_ok call ℚ some
  rw [picked]
  have there : tenantKey call.req ∈ (t.opened call).1.assignments :=
    AList.lookup_isSome.mp (by rw [(t.opened_opens call).recorded]; rfl)
  -- the counts are written to an entry that is there
  have counted := opened.tracked.enter (tenantKey_ne call.req) call.now
    ((t.settled call).1.insert worker.id ((t.settled call).1.count worker.id + 1)) (.inl there)
  refine ⟨⟨?_, opened.tracked.named, counted.few⟩, opened.limit, opened.ttl, opened.own,
    opened.others⟩
  intro other
  change other ∈ (t.opened call).1.assignments.insert _ _ ↔ other ∈ (t.opened call).1.lastSeen
  rw [AList.mem_insert, ← opened.tracked.same]
  constructor
  · rintro (rfl | inside)
    · exact there
    · exact inside
  · exact .inr

def lastPick (tenant : String) (calls : List PickCall) : Option Time :=
  (calls.reverse.find? fun call => tenantKey call.req = tenant ∧ healthy call.workers ≠ []).map
    PickCall.now

theorem lastPick_append (tenant : String) (calls : List PickCall) (call : PickCall) :
    lastPick tenant (calls ++ [call]) =
      if tenantKey call.req = tenant ∧ healthy call.workers ≠ [] then some call.now
      else lastPick tenant calls := by
  simp only [lastPick, List.reverse_append, List.reverse_singleton, List.singleton_append,
    List.find?_cons]
  split_ifs with own <;> simp [own]

theorem after_append (t : TenantAwareBoundedLoad) (calls : List PickCall) (call : PickCall) :
    t.after (calls ++ [call]) = ((t.after calls).pick call).2 := by
  simp only [after, run_append, run_cons, run_nil]

/-- The state after any picks of a new strategy. -/
structure Kept (t : TenantAwareBoundedLoad) (calls : List PickCall) : Prop where
  tracked : (t.after calls).Tracked
  limit : (t.after calls).stateLimit = t.stateLimit
  ttl : (t.after calls).stateTTL = t.stateTTL
  seen : ∀ tenant seen, (t.after calls).lastSeen.lookup tenant = some seen →
    lastPick tenant calls = some seen

theorem kept_after (fresh : t.assignments = ∅)
    (unseen : t.lastSeen = ∅) (calls : List PickCall) : t.Kept calls := by
  induction calls using List.reverseRecOn with
  | nil =>
    refine ⟨⟨?_, ?_, ?_⟩, rfl, rfl, ?_⟩
    · intro tenant
      simp [after, fresh, unseen]
    · simp [after, unseen]
    · have positive := t.stateLimit_pos
      simp only [after, run_nil, fresh]
      exact positive.le
    · intro tenant seen found
      simp [after, unseen] at found
  | append_singleton calls call ih =>
    by_cases none : healthy call.workers = []
    · have stays : t.after (calls ++ [call]) = t.after calls := by
        rw [after_append, pick_none _ ℚ none]
      refine ⟨stays ▸ ih.tracked, stays ▸ ih.limit, stays ▸ ih.ttl, ?_⟩
      intro tenant seen found
      rw [stays] at found
      rw [lastPick_append, if_neg fun own => own.2 none]
      exact ih.seen tenant seen found
    · have renews := pick_renews ih.tracked none
      rw [← after_append] at renews
      refine ⟨renews.tracked, renews.limit.trans ih.limit, renews.ttl.trans ih.ttl, ?_⟩
      intro tenant seen found
      rw [lastPick_append]
      split_ifs with own
      · rw [← own.1, renews.own] at found
        exact found
      · have apart : tenant ≠ tenantKey call.req := fun same => own ⟨same.symm, none⟩
        exact ih.seen tenant seen (renews.others tenant seen apart found).1

theorem timeSub_self (now : Time) : timeSub now now = 0 := by
  simp [timeSub, maxInt64]

theorem sub_le_of_timeSub_le {now seen : Time} {ttl : Int} (young : timeSub now seen ≤ ttl)
    (expressible : ttl < maxInt64) : now - seen ≤ ttl := by
  have clamped : ∀ d : Int, max (-maxInt64 - 1) (min maxInt64 d) ≤ ttl → d ≤ ttl := by
    unfold maxInt64 at expressible ⊢
    intro d
    omega
  exact clamped (now - seen) young

/-- After every pick that found a routable worker, whatever the tenants, the clock readings and
the orders of the eviction scan: both maps have the same keys, no more than the limit, the
picking tenant among them; and each tenant's last pick is no older than the TTL, as `now.Sub`
measures it, hence in nanoseconds unless the TTL is the longest duration of all. -/
theorem tenant_state_bounded (t : TenantAwareBoundedLoad) (fresh : t.assignments = ∅)
    (unseen : t.lastSeen = ∅) (calls : List PickCall) (call : PickCall)
    (routable : healthy call.workers ≠ []) :
    (t.after (calls ++ [call])).assignments.keys.Perm (t.after (calls ++ [call])).lastSeen.keys ∧
      ((t.after (calls ++ [call])).assignments.keys.length : Int) ≤ t.stateLimit ∧
      tenantKey call.req ∈ (t.after (calls ++ [call])).assignments ∧
      ∀ tenant ∈ (t.after (calls ++ [call])).assignments,
        ∃ seen, lastPick tenant (calls ++ [call]) = some seen ∧
          timeSub call.now seen ≤ t.stateTTL ∧
          (t.stateTTL < maxInt64 → call.now - seen ≤ t.stateTTL) := by
  have before := kept_after fresh unseen calls
  have kept := kept_after fresh unseen (calls ++ [call])
  have renews := pick_renews before.tracked routable
  rw [← after_append] at renews
  refine ⟨kept.tracked.perm, kept.limit ▸ kept.tracked.few, ?_, ?_⟩
  · rw [kept.tracked.same]
    exact AList.lookup_isSome.mp (by rw [renews.own]; rfl)
  · intro tenant member
    obtain ⟨seen, found⟩ := Option.isSome_iff_exists.mp
      (AList.lookup_isSome.mpr ((kept.tracked.same tenant).mp member))
    have young : timeSub call.now seen ≤ t.stateTTL := by
      by_cases own : tenant = tenantKey call.req
      · rw [own, renews.own] at found
        cases found
        rw [timeSub_self]
        exact t.stateTTL_pos.le
      · rw [← before.ttl]
        exact (renews.others tenant seen own found).2
    exact ⟨seen, kept.seen tenant seen found, young, sub_le_of_timeSub_le young⟩

/-- Two tenants, one state: the second pick evicts the first tenant. -/
theorem tenant_state_bounded_two :
    (({ maxTenantStates := 1 } : TenantAwareBoundedLoad).after
      [{ soloCall "worker-0" with req := { tenantHash := "first" } },
        soloCall "worker-0"]).assignments.keys.length ≤ 1 := by
  have bounded := (tenant_state_bounded { maxTenantStates := 1 } rfl rfl
    [{ soloCall "worker-0" with req := { tenantHash := "first" } }] (soloCall "worker-0")
    (by simp [healthy_soloCall])).2.1
  exact Int.ofNat_le.mp bounded

end TenantAwareBoundedLoad

end AiStorage.Router
