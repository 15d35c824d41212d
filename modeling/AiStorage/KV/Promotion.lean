import AiStorage.KV.Eviction

/-!
# Promotion

`load` of the multi-tier store copies what it loaded into the target tier before it returns, and
lets every exception of that store out.
-/
namespace AiStorage.KV
open Lib Prog MetadataStore

def Anything (_ : Choice) : Prop := True

def Refusing (c : Choice) : Prop := c.dbFails = true

section Refusing

variable {α β : Type} {t : Nat} {w : World} {next : β → Py α}

theorem safe_ret_error (e : PyError) :
    (Prog.ret (.error e) : Py α).Safe (single t Refusing fun _ _ => True)
      (fun r _ => ∃ e, r = .error e) w := by
  intro w' _
  exact ⟨e, rfl⟩

theorem safe_refused {f : Choice → MetadataStore → Outcome β} :
    (perform (Act.database f) >>= next).Safe (single t Refusing fun _ _ => True)
      (fun r _ => ∃ e, r = .error e) w := by
  refine Safe.perform (fun _ => True) trivial (fun _ _ _ _ => trivial)
    (fun _ _ _ _ _ _ _ => trivial) (fun w c b w' _ choice done => ?_)
    fun w c e w' _ _ _ => safe_ret_error e
  change c.dbFails = true at choice
  change Act.database f t c w = _ at done
  rw [Act.database, if_pos choice] at done
  cases done

theorem safe_refused_exclusive {f : Choice → MetadataStore → Outcome β} :
    (perform (Act.exclusive f) >>= next).Safe (single t Refusing fun _ _ => True)
      (fun r _ => ∃ e, r = .error e) w := by
  refine Safe.perform (fun _ => True) trivial (fun _ _ _ _ => trivial)
    (fun _ _ _ _ _ _ _ => trivial) (fun w c b w' _ choice done => ?_)
    fun w c e w' _ _ _ => safe_ret_error e
  change c.dbFails = true at choice
  have ran := (Act.exclusive_some done).2
  rw [Act.database, if_pos choice] at ran
  cases ran

theorem safe_after {action : Act β}
    (rest : ∀ b w, (next b).Safe (single t Refusing fun _ _ => True) (fun r _ => ∃ e, r = .error e) w) :
    (perform action >>= next).Safe (single t Refusing fun _ _ => True)
      (fun r _ => ∃ e, r = .error e) w :=
  Safe.perform (fun _ => True) trivial (fun _ _ _ _ => trivial) (fun _ _ _ _ _ _ _ => trivial)
    (fun _ _ b w' _ _ _ => rest b w') fun _ _ e _ _ _ _ => safe_ret_error e

theorem safe_guarded {lock unlock : Act Unit} {body : Py α}
    (raises : ∀ w, body.Safe (single t Refusing fun _ _ => True) (fun r _ => ∃ e, r = .error e) w) :
    (perform lock >>= fun _ => body.andFinally (perform unlock)).Safe
      (single t Refusing fun _ _ => True) (fun r _ => ∃ e, r = .error e) w := by
  refine safe_after fun _ w => Safe.thenDo (raises w) fun r w' post => ?_
  obtain ⟨e, rfl⟩ := post
  exact safe_after fun _ w'' => safe_ret_error e

theorem safe_raises_bind {body : Py β}
    (raises : body.Safe (single t Refusing fun _ _ => True) (fun r _ => ∃ e, r = .error e) w) :
    (body >>= next).Safe (single t Refusing fun _ _ => True) (fun r _ => ∃ e, r = .error e) w := by
  refine Safe.bind raises (fun b w' post => ?_) fun e w' _ => safe_ret_error e
  obtain ⟨e, wrong⟩ := post
  cases wrong

end Refusing

theorem Backend.store_refused (B : Backend) (W : Writer) (key : BlockKey) (data : Bytes)
    (m : KVMetadata) (t : Nat) (w : World) :
    (B.store W key data m).Safe (single t Refusing fun _ _ => True)
      (fun r _ => ∃ e, r = .error e) w := by
  refine Safe.value (fun _ _ => ?_) fun e _ => safe_ret_error e
  refine Safe.value (fun _ _ => ?_) fun e _ => safe_ret_error e
  exact safe_raises_bind (safe_guarded fun w => safe_refused)

theorem MemoryTier.store_refused (tier : MemoryTier) (key : BlockKey) (data : Bytes)
    (m : KVMetadata) (t : Nat) (w : World) :
    (tier.store key data m).Safe (single t Refusing fun _ _ => True)
      (fun r _ => ∃ e, r = .error e) w := by
  refine Safe.value (fun _ _ => ?_) fun e _ => safe_ret_error e
  refine Safe.value (fun _ _ => ?_) fun e _ => safe_ret_error e
  refine safe_raises_bind (safe_guarded fun w => safe_after fun now w => ?_)
  exact Safe.value (fun _ _ => safe_refused_exclusive) fun e _ => safe_ret_error e

theorem Tier.store_refused (tier : Tier) (key : BlockKey) (data : Bytes) (m : KVMetadata) (t : Nat)
    (w : World) : (tier.store key data m).Safe (single t Refusing fun _ _ => True)
      (fun r _ => ∃ e, r = .error e) w := by
  cases tier with
  | memory tier => exact tier.store_refused key data m t w
  | nvme tier | s3 tier => exact tier.backend.store_refused tier.writer key data m t w

theorem Tier.store_can_raise (tier : Tier) (key : BlockKey) (data : Bytes) (m : KVMetadata) (t : Nat)
    (w : World) : ¬(tier.store key data m).Total (single t Anything fun _ _ => True)
      (fun r _ => ∃ stored, r = .ok stored) w := by
  intro total
  have refused : (tier.store key data m).Total (single t Refusing fun _ _ => True)
      (fun r _ => ∃ stored, r = .ok stored) w := Total.of_alone total fun _ _ => trivial
  obtain ⟨r, w', run, stored, rfl⟩ :=
    refused.exists_run ⟨{ calmChoice with dbFails := true }, rfl⟩
  obtain ⟨⟨e, wrong⟩, -⟩ := (tier.store_refused key data m t w).ends run
  cases wrong

namespace MultiTier

theorem name_of_requireTargetTier {store : MultiTier} {target : TierName} {item : Tier}
    (configured : store.requireTargetTier target = .ok item) : item.name = target := by
  unfold requireTargetTier tier? at configured
  split at configured
  · next found =>
    cases configured
    simpa using List.find?_some found
  · cases configured

variable {t : Nat} {w : World} {item : Tier} {result : LoadResult}

theorem local_promoteInto (item : Tier) (result : LoadResult) :
    LocalTo item.name (promoteInto item result) := by
  unfold promoteInto
  split_ifs
  · exact .bind (.bind (item.local_store _ _ _) fun _ => trivial) fun _ => trivial
  · trivial

theorem promoteInto_frame (apart : result.tier ≠ item.name) {r : Except PyError LoadResult}
    {w' : World} (run : (promoteInto item result).Ends device t Anything w r w') :
    SameFor result.tier w w' := by
  have safe : (promoteInto item result).Safe (single t Anything fun _ _ => True)
      (fun _ w' => True ∧ Confined item.name w w') w := by
    refine Safe.of_makes (Confined item.name w) (local_promoteInto item result) (.refl _ w) ?_ ?_
    · rintro w₁ w₂ rfl confined
      exact confined
    · intro β action w₁ c x w₂ kind confined _ done
      obtain ⟨e, effect⟩ := kind t c w₁ x w₂ done
      exact ⟨trivial, confined.trans effect.confined⟩
  exact ((safe.ends run).1.2).sameFor apart

theorem promoteInto_total_iff (allowed : Choice → Prop) :
    (promoteInto item result).Total (single t allowed fun _ _ => True)
        (fun r _ => r = .ok result) w ↔
      result.tier = item.name ∨ (item.store result.key result.data result.metadata).Total
        (single t allowed fun _ _ => True) (fun r _ => ∃ stored, r = .ok stored) w := by
  unfold promoteInto
  by_cases same : result.tier = item.name
  · rw [if_neg (not_not.mpr same)]
    exact iff_of_true rfl (.inl same)
  · rw [if_pos same]
    refine Total.bind_pure_iff.trans (Total.bind_pure_iff.trans ?_)
    constructor
    · refine fun total => .inr (total.mono fun r w' ended => ?_)
      cases r with
      | ok stored => exact ⟨stored, rfl⟩
      | error e => cases ended
    · rintro (wrong | total)
      · exact absurd wrong same
      · refine total.mono fun r w' ended => ?_
        obtain ⟨stored, rfl⟩ := ended
        rfl

/-- A load is the probe of the target, the fetch from elsewhere and the promotion. -/
theorem load_of_stages {store : MultiTier} {key : BlockKey} {target : TierName}
    {sloBudgetMs : Option ℚ} {allowed : Choice → Prop} {w₀ w₁ w₂ : World}
    {unavailable : List (TierName × PyError)} {r : Except PyError LoadResult}
    (configured : store.requireTargetTier target = .ok item)
    (probed : (fromTarget key item).Ends device t allowed w (.ok (none, unavailable)) w₀)
    (fetched : (store.fetch key sloBudgetMs unavailable).Ends device t allowed w₀ (.ok result) w₁)
    (promoted : (promoteInto item result).Ends device t allowed w₁ r w₂) :
    (store.load key target sloBudgetMs).Ends device t allowed w r w₂ := by
  unfold load
  rw [configured]
  exact probed.thenDo (fetched.thenDo promoted)

end MultiTier

/-- A load whose source gave a result ends with that result, whatever the store into the target
does, exactly when the source is the target itself; under fewer faults, when the store into the
target cannot raise. What the source has stays as it was. -/
theorem promotion_returns_result_iff (store : MultiTier) (key : BlockKey) (target : TierName)
    (sloBudgetMs : Option ℚ) (item : Tier) (t : Nat) (w w₀ w₁ : World)
    (unavailable : List (TierName × PyError)) (result : LoadResult)
    (configured : store.requireTargetTier target = .ok item)
    (probed : (MultiTier.fromTarget key item).Ends device t Anything w (.ok (none, unavailable)) w₀)
    (fetched : (store.fetch key sloBudgetMs unavailable).Ends device t Anything w₀ (.ok result) w₁) :
    (∀ r w₂, (MultiTier.promoteInto item result).Ends device t Anything w₁ r w₂ →
      (store.load key target sloBudgetMs).Ends device t Anything w r w₂) ∧
    ((MultiTier.promoteInto item result).Total (single t Anything fun _ _ => True)
      (fun r _ => r = .ok result) w₁ ↔ result.tier = target) ∧
    (∀ allowed, (MultiTier.promoteInto item result).Total (single t allowed fun _ _ => True)
        (fun r _ => r = .ok result) w₁ ↔
      result.tier = target ∨ (item.store result.key result.data result.metadata).Total
        (single t allowed fun _ _ => True) (fun r _ => ∃ stored, r = .ok stored) w₁) ∧
    (result.tier ≠ target → ∀ r w₂,
      (MultiTier.promoteInto item result).Ends device t Anything w₁ r w₂ →
      SameFor result.tier w₁ w₂) := by
  have here := MultiTier.name_of_requireTargetTier configured
  refine ⟨fun r w₂ run => ?_, ?_, fun allowed => ?_, fun apart r w₂ run => ?_⟩
  · exact MultiTier.load_of_stages configured probed fetched run
  · rw [MultiTier.promoteInto_total_iff, here]
    exact or_iff_left (item.store_can_raise _ _ _ t w₁)
  · rw [MultiTier.promoteInto_total_iff, here]
  · exact MultiTier.promoteInto_frame (here ▸ apart) run

def smallMemory : MemoryTier := ⟨2, by decide⟩

/-- A memory tier of two bytes over a file tier, with a cost model that prefers to load. -/
def memoryOverFiles : MultiTier where
  tiers := [.memory smallMemory, .nvme sampleNVMe]
  nonempty := List.cons_ne_nil _ _
  unique := by
    change [TierName.memory, .nvme].Nodup
    decide
  costModel := { profiles := fun _ => some { fixedLatencyMs := 1, bandwidthGbps := 1 } }

def storedFile : World :=
  emptyWorld.after (sampleNVMe.store sampleKey [1, 2, 3] { sampleMetadata with tokens := .int 1024 })

theorem storedFile_stages : ∃ w₀ w₁ w₂ result e,
    (MultiTier.fromTarget sampleKey (.memory smallMemory)).Ends device 0 Anything storedFile
      (.ok (none, [])) w₀ ∧
    (memoryOverFiles.fetch sampleKey none []).Ends device 0 Anything w₀ (.ok result) w₁ ∧
    (MultiTier.promoteInto (.memory smallMemory) result).Ends device 0 Anything w₁ (.error e) w₂ ∧
    result.data = [1, 2, 3] ∧ e.cls = .storeFull := by
  have outcome : (((MultiTier.fromTarget sampleKey (.memory smallMemory)).execute device 0
      calmChoice storedFile).bind fun probed =>
        ((memoryOverFiles.fetch sampleKey none []).execute device 0 calmChoice probed.2).bind
          fun fetched => fetched.1.toOption.bind fun result =>
            ((MultiTier.promoteInto (.memory smallMemory) result).execute device 0 calmChoice
              fetched.2).map fun promoted =>
                (probed.1.map fun found => (found.1.isNone, found.2.isEmpty), result.data,
                  promoted.1.map (fun _ => ()))) =
      some (.ok (true, true), [1, 2, 3], .error ⟨.storeFull, text "block exceeds memory tier capacity"⟩) := by
    decide +kernel
  obtain ⟨⟨r₀, w₀⟩, probed, outcome⟩ := Option.bind_eq_some_iff.mp outcome
  obtain ⟨⟨r₁, w₁⟩, fetched, outcome⟩ := Option.bind_eq_some_iff.mp outcome
  obtain ⟨result, returned, outcome⟩ := Option.bind_eq_some_iff.mp outcome
  obtain ⟨⟨r₂, w₂⟩, promoted, outcome⟩ := Option.map_eq_some_iff.mp outcome
  obtain ⟨missed, outcome⟩ := Prod.mk.inj outcome
  obtain ⟨data, raised⟩ := Prod.mk.inj outcome
  have probe : r₀ = .ok (none, []) := by
    rcases r₀ with e | ⟨_ | found, _ | ⟨failed, more⟩⟩
    all_goals first | rfl | cases missed
  have fetch : r₁ = .ok result := by
    cases r₁ with
    | error e => cases returned
    | ok other => exact congrArg Except.ok (Option.some.inj returned)
  cases r₂ with
  | ok other => cases raised
  | error e =>
    refine ⟨w₀, w₁, w₂, result, e, ends_of_execute trivial (probe ▸ probed),
      ends_of_execute trivial (fetch ▸ fetched), ends_of_execute trivial promoted, data, ?_⟩
    exact congrArg PyError.cls (Except.error.inj raised)

/-- The block is loaded from its file, and the caller gets `StoreFull`. -/
theorem full_target_costs_the_result : ∃ w₀ w₁ w₂ result e,
    (memoryOverFiles.fetch sampleKey none []).Ends device 0 Anything w₀ (.ok result) w₁ ∧
      result.data = [1, 2, 3] ∧ e.cls = .storeFull ∧
      (memoryOverFiles.load sampleKey .memory none).Ends device 0 Anything storedFile (.error e)
        w₂ := by
  obtain ⟨w₀, w₁, w₂, result, e, probed, fetched, promoted, data, full⟩ := storedFile_stages
  exact ⟨w₀, w₁, w₂, result, e, fetched, data, full,
    MultiTier.load_of_stages rfl probed fetched promoted⟩

theorem storedFile_promotion_can_raise : ∃ result w₁, result.data = [1, 2, 3] ∧
    ((MultiTier.promoteInto (.memory smallMemory) result).Total (single 0 Anything fun _ _ => True)
      (fun r _ => r = .ok result) w₁ ↔ result.tier = .memory) := by
  obtain ⟨w₀, w₁, -, result, -, probed, fetched, -, data, -⟩ := storedFile_stages
  exact ⟨result, w₁, data, (promotion_returns_result_iff memoryOverFiles sampleKey .memory none
    (.memory smallMemory) 0 storedFile w₀ w₁ [] result rfl probed fetched).2.1⟩

end AiStorage.KV
