import AiStorage.KV.Effects
import AiStorage.KV.Manager

/-!
# What a call of a tier can do

Every call of a tier acts for that tier only, and only `store` publishes.
-/
namespace AiStorage.KV
open Lib Prog MetadataStore

variable {pins : Bool}

theorem stepsIn_withMemoryLock {α : Type} {tier : TierName} {p : Py α} (quiet : StepsIn pins tier p) :
    StepsIn pins tier (withMemoryLock p) :=
  .bind (.perform (Act.quiet_lockMemory tier)) fun _ =>
    .andFinally quiet (.perform (Act.quiet_unlockMemory tier))

namespace MemoryTier

variable (key : BlockKey)

theorem lookupLocked_finds :
    (lookupLocked key).Makes device (fun action => action.Step pins .memory) (Finds key .memory) := by
  refine .bind (.perform (Act.quiet_lookup key .memory)) (fun found answer => ?_) fun e _ =>
    finds_error key .memory e
  refine Makes.bind (Uses.perform (Act.quiet_observe _)) (fun data _ => ?_) fun e _ =>
    finds_error key .memory e
  cases found with
  | none =>
    cases data with
    | none => exact finds_none key .memory
    | some data =>
      exact Makes.bind (Uses.perform (Act.quiet_memoryPop key)) (fun _ _ => finds_none key .memory)
        fun e _ => finds_error key .memory e
  | some location =>
    cases data with
    | none =>
      exact Makes.bind (Uses.perform (Act.quiet_delete key .memory))
        (fun _ _ => finds_none key .memory) fun e _ => finds_error key .memory e
    | some data =>
      exact Makes.bind (makes_lift _) (fun _ _ => finds_answer answer) fun e _ =>
        finds_error key .memory e

theorem lookup_finds :
    (lookup key).Makes device (fun action => action.Step pins .memory) (Finds key .memory) := by
  refine .bind (.perform (Act.quiet_lockMemory .memory)) (fun _ _ => ?_) fun e _ =>
    finds_error key .memory e
  exact .andFinally (lookupLocked_finds key) (.perform (Act.quiet_unlockMemory .memory)) fun e _ =>
    finds_error key .memory e

theorem quiet_evict : StepsIn pins .memory (evict key) := by
  refine stepsIn_withMemoryLock (.bind (.perform (Act.quiet_observe _)) fun data => ?_)
  cases data with
  | none => trivial
  | some data =>
    refine .bind (.perform (Act.quiet_delete key .memory)) fun removed => ?_
    cases removed with
    | false => trivial
    | true => exact .bind (.perform (Act.quiet_memoryPop key)) fun _ => trivial

theorem quiet_evictOne (exclude : BlockKey) (keys : List BlockKey) :
    StepsIn pins .memory (evictOne exclude keys) := by
  induction keys with
  | nil => trivial
  | cons key rest ih =>
    unfold evictOne
    split_ifs
    · exact ih
    · refine .bind (quiet_evict key) fun removed => ?_
      cases removed with
      | true => trivial
      | false => exact ih

variable (tier : MemoryTier)

theorem quiet_ensureCapacity (incoming : Int) (exclude : BlockKey) :
    StepsIn pins .memory (tier.ensureCapacity incoming exclude) := by
  have loop : ∀ rounds, StepsIn pins .memory (tier.evictUntil incoming exclude rounds) := by
    intro rounds
    induction rounds with
    | zero => exact .bind (.perform .stuck) fun none => nomatch none
    | succ rounds ih =>
      refine .bind (.perform (Act.quiet_observe _)) fun used => ?_
      split_ifs
      · refine .bind (.perform (Act.quiet_observe _)) fun keys => ?_
        refine .bind (quiet_evictOne exclude keys) fun evicted => ?_
        cases evicted with
        | true => exact ih
        | false => trivial
      · trivial
  unfold ensureCapacity
  split_ifs
  · trivial
  · exact .bind (.perform (Act.quiet_observe _)) fun keys => loop _

section Store

variable {admits : ∀ {β : Type}, Act β → Prop}
  (quietly : ∀ {β : Type} (action : Act β), action.Step pins .memory → admits action)
  (data : Bytes) (m : KVMetadata)
include quietly

theorem uses_replay {existing : BlockLocation}
    (upserts : ∀ location : BlockLocation, location.tier = existing.tier →
      admits (Act.upsert location m)) : (replay key data m existing).Uses device admits := by
  have silent : ∀ {γ : Type} (x : Except PyError γ), (lift x).Uses device admits := fun _ => trivial
  refine .bind (.perform (quietly _ (Act.quiet_observe _))) fun held => ?_
  cases held with
  | none => trivial
  | some held =>
    exact .bind (silent _) fun _ => .bind (.perform (quietly _ (Act.quiet_getMetadata key .memory)))
      fun _ => .bind (silent _) fun _ => .bind (.perform (upserts _ rfl)) fun _ =>
      .perform (quietly _ (Act.quiet_memoryMoveToEnd key))

variable (writing : ∀ {β : Type} (action : Act β), action.Writes .memory → admits action)
include writing

theorem uses_publish (upserts : ∀ location : BlockLocation, location.tier = .memory →
      admits (Act.upsert location m)) : (tier.publish key data m).Uses device admits := by
  have room : ∀ incoming, (tier.ensureCapacity incoming key).Uses device admits := fun incoming =>
    (tier.quiet_ensureCapacity incoming key).mono quietly fun _ _ => trivial
  have restores : ∀ previous, (restore key previous).Uses device admits := by
    intro previous
    refine .bind (.perform (quietly _ (Act.quiet_memoryPop key))) fun _ => ?_
    cases previous with
    | none => trivial
    | some old => exact .perform (writing _ (.memoryPut rfl key old))
  have put : ∀ previous, (placement key data m previous).Uses device admits := fun previous =>
    .bind (.perform (writing _ (.memoryPut rfl key data))) fun _ =>
      .handle (.perform (upserts _ rfl)) fun _ => .bind (restores previous) fun _ => trivial
  refine .bind (.perform (quietly _ (Act.quiet_observe _))) fun there => .bind (room _) fun _ =>
    .bind (.perform (quietly _ (Act.quiet_observe _))) fun previous => ?_
  cases previous with
  | none => exact put none
  | some old =>
    exact .bind (.perform (quietly _ (Act.quiet_memoryPop key))) fun _ => put (some old)

theorem uses_store (upserts : m.key = key → ∀ (location : BlockLocation) (clock : Float64),
      location.tier = .memory → admits (Act.upsert location (stamped m data clock))) :
    (tier.store key data m).Uses device admits := by
  have silent : ∀ {γ : Type} (x : Except PyError γ), (lift x).Uses device admits := fun _ => trivial
  refine Makes.bind (makes_lift _) (fun _ checked => ?_) fun _ _ => trivial
  have same : m.key = key := of_decide_eq_true (require_ok.mp checked.symm)
  refine Makes.bind (makes_lift _) (fun _ _ => ?_) fun _ _ => trivial
  refine Uses.bind (Uses.bind (.perform (quietly _ (Act.quiet_lockMemory .memory))) fun _ => ?_)
    fun _ => trivial
  refine .andFinally ?_ (.perform (quietly _ (Act.quiet_unlockMemory .memory)))
  refine .bind (.perform (quietly _ (Act.quiet_observe _))) fun now => .bind (silent _) fun _ =>
    .bind (.perform (quietly _ (Act.quiet_validatePayloadDescriptor .memory _))) fun _ => ?_
  refine Makes.bind ((lookup_finds key).mono quietly fun _ finds => finds) (fun found finds => ?_)
    fun _ _ => trivial
  cases found with
  | some existing =>
    exact uses_replay key quietly data _ fun location here =>
      upserts same location now (here.trans (finds existing rfl).2)
  | none =>
    exact uses_publish key tier quietly data _ writing fun location => upserts same location now

end Store

end MemoryTier

/-! ## Any tier -/

namespace Tier

variable (tier : Tier) (key : BlockKey)

theorem uses_store {admits : ∀ {β : Type}, Act β → Prop}
    (quietly : ∀ {β : Type} (action : Act β), action.Quiet tier.name → admits action)
    (writing : ∀ {β : Type} (action : Act β), action.Writes tier.name → admits action)
    (data : Bytes) (m : KVMetadata)
    (upserts : m.key = key → ∀ (location : BlockLocation) (clock : Float64),
      location.tier = tier.name → admits (Act.upsert location (stamped m data clock))) :
    (tier.store key data m).Uses device admits := by
  cases tier with
  | memory tier => exact tier.uses_store key quietly data m writing upserts
  | nvme tier =>
    exact tier.quiet_backend.store tier.quiet_writer key data m quietly writing upserts
  | s3 tier => exact tier.quiet_backend.store tier.quiet_writer key data m quietly writing upserts

theorem local_store (data : Bytes) (m : KVMetadata) :
    LocalTo tier.name (tier.store key data m) :=
  tier.uses_store key (fun _ kind => kind.isLocal) (fun _ kind => kind.effect.isLocal) data m
    fun _ location clock here => here ▸ Act.local_upsert location (stamped m data clock)

end Tier

end AiStorage.KV
