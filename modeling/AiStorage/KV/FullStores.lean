import AiStorage.KV.FileSite
import AiStorage.KV.MemoryStoring
import AiStorage.KV.RecordErrors

/-!
# Stores that find no room

A store makes room one eviction at a time, and only at the end knows that there is not enough.
When it raises `StoreFull`, rows that nobody has pinned may be gone with their payloads. Every
other row and every other payload is as it was.
-/
namespace AiStorage.KV
open Lib Prog MetadataStore

/-! ## What may be lost -/

def MetadataStore.busy (s : MetadataStore) (row : Row) : Bool :=
  row.state = .active && row.inFlightEpoch = s.ownerEpoch && 0 < row.inFlight

theorem busy_of_idle {s : MetadataStore} {row : Row} (idle : s.idle row = true) :
    s.busy row = false := by
  simp only [MetadataStore.idle, Bool.or_eq_true, decide_eq_true_eq] at idle
  rcases idle with none | other
  · simp [busy, none]
  · simp [busy, other]

/-- Rows of a tier that nobody has pinned are gone; all else in the database is as it was, and
so is the payload of every other location. -/
structure Sheds (site : Site) (tier : TierName) (gone : List RowId) (w w' : World) : Prop where
  unread : ∀ row ∈ w.store.blocks.rows, row.id ∈ gone → row.id.tier = tier ∧ w.store.busy row = false
  store : w'.store = { w.store with blocks := w.store.blocks.discard gone }
  payloads : ∀ location : BlockLocation, location.id ∉ gone →
    site.content location w' = site.content location w

theorem Sheds.bytesUsed {site : Site} {tier : TierName} {gone : List RowId} {w w' : World}
    (sheds : Sheds site tier gone w w') :
    w'.store.bytesUsed tier = (w.store.bytesUsed tier).map (· - total Row.bytes
      (w.store.blocks.rows.filter fun row => row.id ∈ gone && row.state = .active)) := by
  let mine (row : Row) : Bool := row.id.tier = tier && row.state = .active
  have left : ((w.store.blocks.discard gone).rows.filter mine) =
      (w.store.blocks.rows.filter mine).filter fun row => !decide (row.id ∈ gone) :=
    (List.filter_comm ..).trans (List.filter_congr fun row _ => by simp)
  have lost : (w.store.blocks.rows.filter mine).filter (fun row => row.id ∈ gone) =
      w.store.blocks.rows.filter fun row => row.id ∈ gone && row.state = .active := by
    rw [List.filter_filter]
    refine List.filter_congr fun row member => ?_
    by_cases among : row.id ∈ gone
    · simp [mine, among, (sheds.unread row member among).1]
    · simp [among]
  have whole := total_filter_add Row.bytes (fun row => decide (row.id ∈ gone))
    (w.store.blocks.rows.filter mine)
  rw [lost, ← left] at whole
  rw [sheds.store]
  simp only [MetadataStore.bytesUsed]
  cases w.store.closed with
  | true => rfl
  | false => exact congrArg Except.ok (eq_sub_of_add_eq' whole)

/-- Some rows are gone so, if the block would fit into the tier. -/
def Lost (site : Site) (tier : TierName) (fits : Prop) (w w' : World) : Prop :=
  ∃ gone, (gone ≠ [] → fits) ∧ Sheds site tier gone w w'

section Lost

variable {site : Site} {tier : TierName} {fits : Prop} {w w' w'' : World}

theorem Sheds.same (store : w'.store = w.store)
    (payloads : ∀ location, site.content location w' = site.content location w) :
    Sheds site tier [] w w' where
  unread _ _ wrong := by cases wrong
  store := by rw [store, Table.discard_nil]
  payloads location _ := payloads location

theorem Lost.same (store : w'.store = w.store)
    (payloads : ∀ location, site.content location w' = site.content location w) :
    Lost site tier fits w w' :=
  ⟨[], fun wrong => absurd rfl wrong, .same store payloads⟩

theorem Lost.refl (w : World) : Lost site tier fits w w := .same rfl fun _ => rfl

theorem Lost.trans (first : Lost site tier fits w w') (second : Lost site tier fits w' w'') :
    Lost site tier fits w w'' := by
  obtain ⟨gone, only, first⟩ := first
  obtain ⟨more, also, second⟩ := second
  refine ⟨gone ++ more, fun some => ?_, ⟨fun row member among => ?_, ?_, fun location apart => ?_⟩⟩
  · by_cases none : gone = []
    · exact also fun nothing => some (by rw [none, nothing]; rfl)
    · exact only none
  · by_cases early : row.id ∈ gone
    · exact first.unread row member early
    · have late := (List.mem_append.mp among).resolve_left early
      have later := second.unread row (by
        rw [first.store]
        exact List.mem_filter.mpr ⟨member, decide_eq_true early⟩) late
      rw [first.store] at later
      exact later
  · rw [second.store, first.store, Table.discard_discard]
  · rw [List.mem_append, not_or] at apart
    rw [second.payloads location apart.2, first.payloads location apart.1]

theorem Lost.erase (holds : fits) (key : BlockKey)
    (unread : ∀ row, w.store.blocks.find (key.row tier) = some row → w.store.busy row = false)
    (store : w'.store = { w.store with blocks := w.store.blocks.erase (key.row tier) })
    (payloads : ∀ location : BlockLocation, location.id ≠ key.row tier →
      site.content location w' = site.content location w) : Lost site tier fits w w' := by
  refine ⟨[key.row tier], fun _ => holds, ⟨fun row member among => ?_, ?_, fun location apart => ?_⟩⟩
  · have here := List.mem_singleton.mp among
    exact ⟨by rw [here]; rfl, unread row (Table.find_eq_some_iff.mpr ⟨member, here⟩)⟩
  · rw [store, Table.erase_eq_discard]
  · exact payloads location fun same => apart (List.mem_singleton.mpr same)

end Lost

/-! ## Harmless actions -/

def Act.Gentle (site : Site) (fits : Prop) {β : Type} (action : Act β) : Prop :=
  ∀ t c w x w', action t c w = some (x, w') → Lost site .nvme fits w w'

namespace Act.Gentle

variable {site : Site} {fits : Prop} {β : Type}

theorem observe (f : Choice → World → Except PyError β) : (Act.observe f).Gentle site fits := by
  intro t c w x w' done
  cases done
  exact .refl w

theorem query (f : Choice → MetadataStore → Except PyError β) :
    (Act.database fun c s => (f c s, s)).Gentle site fits := by
  intro t c w x w' done
  rcases Act.database_some done with ⟨-, -, rfl⟩ | ⟨-, same, after⟩
  · exact .refl w'
  · rw [after, ← (Prod.mk.inj same).2]
    exact .refl w

theorem exclusive {f : Choice → MetadataStore → Outcome β}
    (gentle : (Act.database f).Gentle site fits) : (Act.exclusive f).Gentle site fits :=
  fun t c w x w' done => gentle t c w x w' (Act.exclusive_some done).2

theorem lockMutation : Act.lockMutation.Gentle site fits := by
  intro t c w x w' done
  unfold Act.lockMutation at done
  split_ifs at done <;> cases done
  · exact .refl w
  · exact .same rfl fun _ => rfl

theorem unlockMutation : Act.unlockMutation.Gentle site fits := by
  intro t c w x w' done
  cases done
  exact .same rfl fun _ => rfl

theorem delete (holds : fits) (key : BlockKey) : (Act.delete key .nvme).Gentle site fits := by
  refine exclusive fun t c w x w' done => ?_
  rcases Act.database_some done with ⟨-, -, rfl⟩ | ⟨-, answered, after⟩
  · exact .refl w'
  · change w.store.delete key .nvme = _ at answered
    rcases w.store.delete_cases key .nvme with ⟨same, -⟩ | ⟨row, member, here, -, idle, deleted⟩
    · rw [answered] at same
      refine .same same fun _ => ?_
      rw [after]
      rfl
    · rw [answered] at deleted
      refine .erase holds key (fun other found => ?_) ?_ fun location _ => ?_
      · obtain rfl := Table.eq_of_id member (Table.mem_of_find found)
          (here.trans (Table.idOf_of_find found).symm)
        exact busy_of_idle idle
      · rw [(Prod.mk.inj deleted).2, here]
      · rw [after]
        rfl

end Act.Gentle

/-! ## Programs -/

abbrev anyhow (t : Nat) : Setting Act PyError World Choice :=
  single t (fun _ => True) fun _ _ => True

/-- When the program succeeds, rows may be gone. -/
def OnOk (site : Site) (fits : Prop) {α : Type} (w : World) (r : Except PyError α) (w' : World) :
    Prop :=
  ∀ a, r = .ok a → Lost site .nvme fits w w'

/-- When the program raises `StoreFull`, rows may be gone. -/
def OnFull (site : Site) (fits : Prop) {α : Type} (w : World) (r : Except PyError α) (w' : World) :
    Prop :=
  ∀ e, r = .error e → e.cls = .storeFull → Lost site .nvme fits w w'

section Programs

variable {site : Site} {fits : Prop} {α β : Type} {t : Nat} {w w' : World} {p : Py α}
  {next : α → Py β}

theorem safe_ret {r : Except PyError α} {Q : Except PyError α → World → Prop} (holds : Q r w) :
    (Prog.ret r : Py α).Safe (anyhow t) Q w := by
  rintro w' rfl
  exact holds

theorem safe_withMutation {Q : Except PyError α → World → Prop}
    (kept : ∀ r before after, Lost site .nvme fits before after → Q r before → Q r after)
    (refused : Q (.error mutationClosed) w)
    (inside : ∀ after, Lost site .nvme fits w after → p.Safe (anyhow t) Q after) :
    (withMutation p).Safe (anyhow t) Q w := by
  rintro before rfl c - x entered done
  have lost : Lost site .nvme fits w entered := Act.Gentle.lockMutation t c _ x entered done
  refine ⟨trivial, ?_⟩
  change Act.lockMutation t c w = _ at done
  unfold Act.lockMutation at done
  split_ifs at done <;> cases done
  · exact safe_ret refused
  · change (p.andFinally (perform Act.unlockMutation)).Safe (anyhow t) Q _
    refine Safe.thenDo (inside _ lost) fun r ended holds => ?_
    rintro before rfl c - x last left
    have lost : Lost site .nvme fits ended last := Act.Gentle.unlockMutation t c _ x last left
    cases left
    exact ⟨trivial, safe_ret (kept r _ _ lost holds)⟩

theorem onOk_uses (lost : Lost site .nvme fits w w')
    (uses : p.Uses device fun action => action.Gentle site fits) :
    p.Safe (anyhow t) (OnOk site fits w) w' := by
  have safe : p.Safe (anyhow t) (fun _ after => True ∧ Lost site .nvme fits w after) w' := by
    refine Safe.of_makes (C := anyhow t) (Lost site .nvme fits w) uses lost ?_ ?_
    · rintro before after rfl holds
      exact holds
    · exact fun action before c x after gentle holds _ done =>
        ⟨trivial, holds.trans (gentle _ c before x after done)⟩
  exact safe.weaken fun _ _ post _ _ => post.2

theorem onOk_bind (first : p.Safe (anyhow t) (OnOk site fits w) w')
    (rest : ∀ a after, Lost site .nvme fits w after →
      (next a).Safe (anyhow t) (OnOk site fits w) after) :
    (p >>= next).Safe (anyhow t) (OnOk site fits w) w' :=
  Safe.bind first (fun a after holds => rest a after (holds a rfl)) fun _ _ _ =>
    safe_ret fun _ wrong => by cases wrong

theorem onFull_bind (first : p.Safe (anyhow t) (OnOk site fits w) w') (never : NeverFull p)
    (rest : ∀ a after, Lost site .nvme fits w after →
      (next a).Safe (anyhow t) (OnFull site fits w) after) :
    (p >>= next).Safe (anyhow t) (OnFull site fits w) w' :=
  Safe.bind (first.and_makes never) (fun a after holds => rest a after (holds.1 a rfl))
    fun e _ holds => safe_ret fun e' same full => by
      cases same
      exact absurd full (holds.2 e rfl)

theorem onFull_never (never : NeverFull p) : p.Safe (anyhow t) (OnFull site fits w) w' := by
  have safe : p.Safe (anyhow t) (fun r _ => Raises NotFull r ∧ True) w' := by
    refine Safe.of_makes (C := anyhow t) (fun _ => True) never trivial (fun _ _ _ _ => trivial) ?_
    exact fun _ _ _ _ _ _ _ _ _ => ⟨trivial, trivial⟩
  exact safe.weaken fun _ _ post e same full => absurd full (post.1 e same)

theorem onFull_lift {x : Except PyError α} (raises : Raises NotFull x)
    (rest : ∀ a, x = .ok a → (next a).Safe (anyhow t) (OnFull site fits w) w') :
    (lift x >>= next).Safe (anyhow t) (OnFull site fits w) w' := by
  cases x with
  | ok a => exact rest a rfl
  | error e => exact onFull_never (.ret (.error (raises e rfl)))

/-- After the last capacity check. -/
theorem onFull_tail (first : p.Safe (anyhow t) (OnFull site fits w) w')
    (never : ∀ a, NeverFull (next a)) : (p >>= next).Safe (anyhow t) (OnFull site fits w) w' :=
  Safe.bind first (fun a _ _ => onFull_never (never a)) fun e _ holds => safe_ret fun e' same full => by
    cases same
    exact holds e rfl full

end Programs

/-! ## The file-backed tier -/

theorem beginDelete_none {s s' : MetadataStore} {key : BlockKey} {tier : TierName}
    (answered : s.beginDelete key tier = (.ok none, s')) : s' = s := by
  rcases s.beginDelete_cases key tier with ⟨same, -⟩ | ⟨row, -, -, -, -, location, -, begun⟩
  · rw [answered] at same
    exact same
  · rw [answered] at begun
    cases begun

theorem beginDelete_unread {s s' : MetadataStore} {key : BlockKey} {tier : TierName}
    {location : BlockLocation} (begun : s.beginDelete key tier = (.ok (some location), s')) :
    (∀ row, s.blocks.find (key.row tier) = some row → s.busy row = false) ∧
    { s' with blocks := s'.blocks.erase (key.row tier) } =
      { s with blocks := s.blocks.erase (key.row tier) } := by
  obtain ⟨row, found, -, change⟩ := beginDelete_row begun
  rcases change with ⟨active, unpinned, rfl⟩ | ⟨deleting, rfl⟩
  · refine ⟨fun other same => ?_, ?_⟩
    · obtain rfl := Option.some.inj (found.symm.trans same)
      simpa [busy, active] using unpinned
    · rw [← Table.idOf_of_find found]
      exact congrArg (fun blocks => { s with blocks }) (s.blocks.erase_set (tombstone row))
  · refine ⟨fun other same => ?_, rfl⟩
    obtain rfl := Option.some.inj (found.symm.trans same)
    simp [busy, deleting]

namespace NVMeTier

variable (tier : NVMeTier) {site : Site} {fits : Prop} {t : Nat} {w w' : World} (key : BlockKey)

theorem gentle_present (location : BlockLocation) :
    (tier.locationExists location).Uses device fun action => action.Gentle site fits := by
  refine .bind trivial fun target => ?_
  cases target with
  | segment ref =>
    refine .bind (.perform (.observe _)) fun there => ?_
    cases there with
    | true => exact .bind (.perform (.observe _)) fun _ => trivial
    | false => trivial
  | file path => exact .perform (.observe _)

theorem gentle_lookup (holds : fits) :
    (tier.lookup key).Uses device fun action => action.Gentle site fits := by
  have deleted : (perform (Act.delete key .nvme) >>= fun _ => pure none :
      Py (Option BlockLocation)).Uses device fun action => action.Gentle site fits :=
    .bind (.perform (.delete holds key)) fun _ => trivial
  refine .bind (.perform (.query _)) fun found => ?_
  cases found with
  | none => exact .bind (.bind (.perform (.query _)) fun _ => trivial) fun _ => trivial
  | some location =>
    refine .bind (tier.gentle_present location) fun there => ?_
    cases there with
    | true => trivial
    | false =>
      refine .bind (.perform .lockMutation) fun _ => .andFinally (.bind (.perform (.query _))
        fun again => ?_) (.perform .unlockMutation)
      cases again with
      | none => exact deleted
      | some location =>
        refine .bind (tier.gentle_present location) fun there => ?_
        cases there with
        | true => trivial
        | false => exact deleted

theorem safe_remove (here : site.nvme = some tier) (location : BlockLocation) :
    (tier.removeTarget location).Safe (anyhow t) (fun _ w' => w'.store = w.store ∧
      ∀ other : BlockLocation, other.id ≠ location.id →
        site.content other w' = site.content other w) w := by
  have untouched : ∀ r : Except PyError Unit, (Prog.ret r : Py Unit).Safe (anyhow t) (fun _ w' =>
      w'.store = w.store ∧ ∀ other : BlockLocation, other.id ≠ location.id →
        site.content other w' = site.content other w) w := fun _ => safe_ret ⟨rfl, fun _ _ => rfl⟩
  refine Safe.value (fun target found => ?_) fun e _ => untouched _
  obtain ⟨kind, ⟨mode, rfl⟩ | ⟨-, ref, rfl, -⟩⟩ := tier.target_of_ok found
  · rintro before rfl c - x after done
    change Act.unlink _ t c w = _ at done
    have removed : after.store = w.store ∧ ∀ other : BlockLocation, other.id ≠ location.id →
        site.content other after = site.content other w := by
      unfold Act.unlink at done
      split_ifs at done <;> cases done
      · exact ⟨rfl, fun _ _ => rfl⟩
      · exact ⟨rfl, fun _ _ => rfl⟩
      · refine ⟨rfl, fun other apart => ?_⟩
        refine tier.content_other here mode location.key (not_and_or.mp fun both => apart ?_)
          fun path elsewhere => Dict.get_erase_of_ne (Ne.symm elsewhere)
        rw [BlockLocation.id, BlockLocation.id, both.1, both.2, kind]
    refine ⟨trivial, ?_⟩
    cases x with
    | ok u => exact safe_ret removed
    | error e =>
      change Safe _ _ (if e.cls = .fileNotFoundError then pure () else raise e) after
      split_ifs <;> exact safe_ret removed
  · exact untouched _

theorem onOk_evictLocked (here : site.nvme = some tier) (holds : fits) :
    (tier.backend.evictLocked key).Safe (anyhow t) (OnOk site fits w) w := by
  have failing : ∀ (e : PyError) after, (Prog.ret (.error e) : Py Bool).Safe (anyhow t)
      (OnOk site fits w) after := fun e after => safe_ret fun _ wrong => by cases wrong
  rintro before rfl c - x begun done
  refine ⟨trivial, ?_⟩
  rcases Act.database_some (Act.exclusive_some done).2 with ⟨-, rfl, -⟩ | ⟨-, answered, after⟩
  · exact failing _ _
  have elsewhere : ∀ other : BlockLocation, site.content other begun = site.content other w := by
    intro other
    rw [after]
    rfl
  match x, answered with
  | .error e, _ => exact failing _ _
  | .ok none, answered => exact safe_ret fun _ _ => .same (beginDelete_none answered) elsewhere
  | .ok (some location), answered =>
    obtain ⟨own, kind, -⟩ := beginDelete_some answered
    obtain ⟨unread, erased⟩ := beginDelete_unread answered
    refine Safe.bind (tier.safe_remove here location) (fun _ removed left => ?_) fun e _ _ => failing e _
    rintro before rfl c - x last done
    refine ⟨trivial, ?_⟩
    rcases Act.database_some (Act.exclusive_some done).2 with ⟨-, rfl, -⟩ | ⟨-, answered, after⟩
    · exact failing _ _
    change removed.store.finishDelete key .nvme = _ at answered
    rcases removed.store.finishDelete_cases key .nvme with ⟨-, refused⟩ | ⟨row, -, named, -, finished⟩
    · rw [answered] at refused
      match x with
      | .error e => exact failing _ _
      | .ok false => exact failing _ _
      | .ok true => exact absurd rfl refused
    · rw [answered] at finished
      obtain ⟨rfl, stored⟩ := Prod.mk.inj finished
      refine safe_ret fun _ _ => .erase holds key unread ?_ fun other apart => ?_
      · rw [stored, named, left.1]
        exact erased
      · rw [after]
        refine (left.2 other fun same => apart (same.trans ?_)).trans (elsewhere other)
        rw [BlockLocation.id, own, kind]
        rfl

theorem onOk_evict (here : site.nvme = some tier) (holds : fits) (lost : Lost site .nvme fits w w') :
    (tier.evict key).Safe (anyhow t) (OnOk site fits w) w' := by
  refine safe_withMutation (fun r before after more kept b same => (kept b same).trans more)
    (fun _ wrong => by cases wrong) fun after more => ?_
  exact (tier.onOk_evictLocked key here holds).weaken fun r ended kept b same =>
    (lost.trans more).trans (kept b same)

theorem onOk_evictOne (here : site.nvme = some tier) (holds : fits) (exclude : BlockKey)
    (candidates : List BlockLocation) (lost : Lost site .nvme fits w w') :
    (tier.evictOne exclude candidates).Safe (anyhow t) (OnOk site fits w) w' := by
  induction candidates generalizing w' with
  | nil => exact safe_ret fun _ _ => lost
  | cons location rest ih =>
    unfold evictOne
    split_ifs
    · exact ih lost
    · refine onOk_bind (tier.onOk_evict location.key here holds lost) fun removed after lost => ?_
      cases removed with
      | true => exact safe_ret fun _ _ => lost
      | false => exact ih lost

theorem neverFull_evictOne (exclude : BlockKey) (candidates : List BlockLocation) :
    NeverFull (tier.evictOne exclude candidates) := by
  induction candidates with
  | nil => exact .pure _
  | cons location rest ih =>
    unfold evictOne
    split_ifs
    · exact ih
    · refine .bind (tier.neverFull_evict location.key) fun removed => ?_
      cases removed with
      | true => exact .pure _
      | false => exact ih

theorem onFull_evictUntil (here : site.nvme = some tier) (holds : fits) (incoming : Int)
    (exclude : BlockKey) (rounds : Nat) (current : Int) (lost : Lost site .nvme fits w w') :
    (tier.evictUntil incoming exclude rounds current).Safe (anyhow t) (OnFull site fits w) w' := by
  induction rounds generalizing current w' with
  | zero => exact fun _ _ _ _ _ _ wrong => by cases wrong
  | succ rounds ih =>
    unfold evictUntil
    split_ifs
    · refine onFull_bind (onOk_uses lost (.perform (.query _)))
        (.database fun c s => notFull_lruCandidates c.readings s .nvme 16) fun candidates after lost => ?_
      refine onFull_bind (tier.onOk_evictOne here holds exclude candidates lost)
        (tier.neverFull_evictOne exclude candidates) fun freed after lost => ?_
      cases freed with
      | some freed => exact ih _ lost
      | none => exact safe_ret fun _ _ _ => lost
    · exact safe_ret fun _ wrong => by cases wrong

theorem onFull_ensureCapacity (here : site.nvme = some tier) (holds : fits) (incoming : Nat)
    (exclude : BlockKey) (lost : Lost site .nvme fits w w') :
    (tier.ensureCapacity incoming exclude).Safe (anyhow t) (OnFull site fits w) w' := by
  refine onFull_bind (onOk_uses lost (.perform (.query _)))
    (.database fun _ s => .bind (.require (by decide)) fun _ _ => .ok _) fun used after lost => ?_
  refine onFull_bind (onOk_uses lost (tier.gentle_lookup exclude holds)) (tier.neverFull_lookup exclude)
    fun existing after lost => ?_
  exact onFull_bind (onOk_uses lost (.perform (.observe _))) (.observe fun _ _ => .ok _)
    fun rows after lost => tier.onFull_evictUntil here holds incoming exclude _ _ lost

theorem onFull_publish (here : site.nvme = some tier) (holds : fits) (data : Bytes) (m : KVMetadata)
    (lost : Lost site .nvme fits w w') :
    (Backend.publish tier.writer key data m).Safe (anyhow t) (OnFull site fits w) w' := by
  refine onFull_tail (tier.onFull_ensureCapacity here holds data.length key lost) fun _ => ?_
  generalize encoded : encodeRecordHeader _ = x
  have raises : Raises NotFull x := by
    rw [← encoded]
    exact notFull_encodeRecordHeader _
  exact .bind (.lift raises) fun raw =>
    .bind (tier.neverFull_place key raw data m) fun location => neverFull_upsert location m

theorem onFull_store (here : site.nvme = some tier) (data : Bytes) (m : KVMetadata) :
    (tier.store key data m).Safe (anyhow t)
      (OnFull site ((data.length : Int) ≤ tier.maxBytes) w) w := by
  refine onFull_lift (.require nofun) fun _ _ => onFull_lift (.ok _) fun _ _ =>
    onFull_tail ?_ fun _ => .pure _
  refine safe_withMutation (fun r before after more kept e same full => (kept e same full).trans more)
    (fun e same full => by cases same; cases full) fun after lost => ?_
  refine onFull_bind (onOk_uses lost (.perform (.query _)))
    (.database fun _ s => .bind (.require (by decide)) fun _ _ => .ok _) fun deleting after lost => ?_
  refine onFull_lift (.require nofun) fun _ _ => ?_
  refine Safe.value (fun _ admitted => ?_) fun e _ => safe_ret fun _ _ _ => lost
  have fits : (data.length : Int) ≤ tier.maxBytes := by simpa [writer] using require_ok.mp admitted
  refine onFull_bind (onOk_uses lost (.perform (.observe _))) neverFull_time fun now after lost =>
    onFull_lift (notFull_validate _) fun _ _ => ?_
  refine onFull_bind (onOk_uses lost (.perform (.exclusive (.query _))))
    (neverFull_validatePayloadDescriptor _) fun _ after lost => ?_
  refine onFull_bind (onOk_uses lost (tier.gentle_lookup key fits)) (tier.neverFull_lookup key)
    fun found after lost => ?_
  cases found with
  | some existing => exact onFull_never (tier.neverFull_replay key data _ existing)
  | none => exact tier.onFull_publish key here fits data _ lost

end NVMeTier

/-! ## The memory tier -/

theorem busy_of_deletable {s : MetadataStore} {key : BlockKey} {tier : TierName}
    (may : s.deletable key tier = true) {row : Row} (member : row ∈ s.blocks.rows)
    (here : row.id = key.row tier) : s.busy row = false := by
  obtain ⟨other, active, idle⟩ := (Option.any_eq_true ..).mp may
  obtain ⟨found, -⟩ := activeRow_eq_some.mp active
  rw [Table.eq_of_id member (Table.mem_of_find found) (here.trans (Table.idOf_of_find found).symm)]
  exact busy_of_idle idle

theorem Site.content_congr {site : Site} {w w' : World} (files : w'.files = w.files)
    (objects : w'.objects = w.objects) {location : BlockLocation}
    (memory : location.tier = .memory →
      Act.held location.key w'.memory = Act.held location.key w.memory) :
    site.content location w' = site.content location w := by
  by_cases inside : location.tier = .memory
  · unfold Site.content
    rw [inside]
    exact congrArg some (memory inside)
  · exact site.vault.outside inside files objects

namespace MemoryTier

theorem foldl_without_store (gone : List Entry) (s : Stock) :
    (gone.foldl without s).store = { s.store with
      blocks := s.store.blocks.discard (gone.map fun entry => entry.1.row .memory) } := by
  induction gone generalizing s with
  | nil => rw [List.map_nil, Table.discard_nil, List.foldl_nil]
  | cons entry rest ih =>
    rw [List.foldl_cons, ih, List.map_cons, ← List.singleton_append, ← Table.discard_discard,
      ← Table.erase_eq_discard]
    rfl

theorem foldl_without_outside (gone : List Entry) (s : Stock) :
    (gone.foldl without s).files = s.files ∧ (gone.foldl without s).objects = s.objects := by
  induction gone generalizing s with
  | nil => exact ⟨rfl, rfl⟩
  | cons entry rest ih => exact ih (without s entry)

variable {tier : MemoryTier} {key : BlockKey} {data : Bytes} {w w' : World}

theorem row_mem_rows {gone : List Entry} :
    key.row .memory ∈ gone.map (fun entry => entry.1.row .memory) ↔ key ∈ gone.map Prod.fst := by
  simp only [List.mem_map]
  refine exists_congr fun entry => and_congr_right fun _ => ⟨fun same => ?_, fun same => by rw [same]⟩
  by_contra apart
  exact row_ne apart .memory same

/-- The row of the key itself may have been stale. -/
theorem exists_stale {s before : Stock}
    (start : before = s ∨ before = dropRow s key ∧ s.store.deletable key .memory = true) :
    ∃ stale : List RowId, (∀ id ∈ stale, id = key.row .memory ∧ s.store.deletable key .memory = true) ∧
      before = { s with store := { s.store with blocks := s.store.blocks.discard stale } } ∧
      evictables before key = evictables s key := by
  rcases start with rfl | ⟨rfl, may⟩
  · exact ⟨[], nofun, by rw [Table.discard_nil], rfl⟩
  · refine ⟨[key.row .memory], fun id member => ⟨List.mem_singleton.mp member, may⟩, ?_,
      evictables_dropRow s key⟩
    rw [← Table.erase_eq_discard]
    rfl

/-- The rows that a full store may have deleted, with what is left in the map. -/
theorem Full.sheds (site : Site) (balanced : Balanced tier w.stock)
    (full : Full tier key data w.stock w'.stock) : ∃ gone, Sheds site .memory gone w w' ∧
      w'.memory = w.memory.filter (fun entry => entry.1.row .memory ∉ gone) ∧
      (tier.maxBytes < data.length → gone = []) ∧
      (data.length ≤ tier.maxBytes → ∀ entry ∈ w'.memory,
        MemoryTier.pinned w.stock entry = true) := by
  generalize after : w'.stock = s' at full
  have stored : w'.store = s'.store := congrArg Stock.store after
  have kept : w'.memory = s'.memory := congrArg Stock.memory after
  have files : w'.files = s'.files := congrArg Stock.files after
  have objects : w'.objects = s'.objects := congrArg Stock.objects after
  cases full with
  | large exceeds =>
    refine ⟨[], .same stored fun location => ?_, ?_, fun _ => rfl, fun fits => ?_⟩
    · exact Site.content_congr files objects fun _ => by rw [kept]; rfl
    · rw [kept]
      simp [World.stock]
    · omega
  | crowded fits absent start exceeds =>
    obtain ⟨stale, own, rfl, left⟩ := exists_stale start
    rw [left] at stored kept files objects
    rw [foldl_without_store, Table.discard_discard] at stored
    rw [foldl_without_memory] at kept
    rw [(foldl_without_outside ..).1] at files
    rw [(foldl_without_outside ..).2] at objects
    have apart : ∀ entry ∈ w.memory, entry.1 ≠ key := held_eq_none_iff.mp absent
    refine ⟨_, ⟨fun row member among => ?_, stored, fun location apart => ?_⟩, ?_, fun _ => ?_,
      fun _ entry member => ?_⟩
    · rcases List.mem_append.mp among with early | late
      · obtain ⟨here, may⟩ := own _ early
        exact ⟨by rw [here]; rfl, busy_of_deletable may member here⟩
      · obtain ⟨entry, leaves, here⟩ := List.mem_map.mp late
        have may := (List.mem_filter.mp leaves).2
        simp only [evictable, Bool.and_eq_true] at may
        exact ⟨by rw [← here]; rfl, busy_of_deletable may.2 member here.symm⟩
    · refine Site.content_congr files objects fun inside => ?_
      rw [kept]
      refine held_filter fun entry named => decide_eq_true fun leaves => apart ?_
      rw [BlockLocation.id, inside, ← named]
      exact List.mem_append_right _ (row_mem_rows.mpr leaves)
    · rw [kept]
      refine List.filter_congr fun entry member => decide_eq_decide.mpr (not_congr ?_)
      rw [List.mem_append, row_mem_rows]
      exact (or_iff_right fun early => row_ne (apart entry member) .memory (own _ early).1).symm
    · omega
    · rw [kept, List.mem_filter] at member
      have stays : evictable w.stock key entry = false := by
        by_contra leaves
        exact (of_decide_eq_true member.2) (List.mem_map_of_mem (List.mem_filter.mpr
          ⟨member.1, by simpa using leaves⟩))
      rw [balanced.evictable_eq member.1 (apart entry member.1)] at stays
      simpa using stays

end MemoryTier

/-! ## Both tiers -/

/-- A store that raises `StoreFull`, in every state of a memory tier that a run of calls reaches
and in every state of a file-backed tier: rows of the tier that nobody had pinned may be gone,
with their payloads, and the used bytes fall by exactly what they took; every other row and
payload is as it was. Nothing at all is gone when the block exceeds the tier, and otherwise the
memory tier has kept nothing but what is pinned. -/
theorem full_store_spares_pinned (site : Site) :
    (∀ (tier : MemoryTier) (t : Nat) (start w : World), start.memory = [] → start.usedBytes = 0 →
      start.Free t → Relation.ReflTransGen (tier.Step t) start w → ∀ key data m e w',
      (tier.store key data m).Ends device t (fun _ => True) w (.error e) w' → e.cls = .storeFull →
      ∃ gone, Sheds site .memory gone w w' ∧
        w'.memory = w.memory.filter (fun entry => entry.1.row .memory ∉ gone) ∧
        w'.usedBytes = w.usedBytes - total MemoryTier.size
          (w.memory.filter fun entry => entry.1.row .memory ∈ gone) ∧
        (tier.maxBytes < data.length → gone = []) ∧
        (data.length ≤ tier.maxBytes → ∀ entry ∈ w'.memory,
          MemoryTier.pinned w.stock entry = true)) ∧
    ∀ tier : NVMeTier, site.nvme = some tier → ∀ t w key data m e w',
      (tier.store key data m).Ends device t (fun _ => True) w (.error e) w' → e.cls = .storeFull →
      ∃ gone, Sheds site .nvme gone w w' ∧
        w'.store.bytesUsed .nvme = (w.store.bytesUsed .nvme).map (· - total Row.bytes
          (w.store.blocks.rows.filter fun row => row.id ∈ gone && row.state = .active)) ∧
        (tier.maxBytes < data.length → gone = []) := by
  constructor
  · intro tier t start w fresh unused free run key data m e w' ran full
    have rest := (MemoryTier.AtRest.start fresh unused free).run run
    obtain ⟨stored, -⟩ := (MemoryTier.runs_store rest.balanced key data m).ends rfl rest.free ran
    obtain ⟨gone, sheds, left, large, pinned⟩ := (stored.full e rfl full).sheds site rest.balanced
    refine ⟨gone, sheds, left, ?_, large, pinned⟩
    have whole := total_filter_add MemoryTier.size (fun entry => decide (entry.1.row .memory ∈ gone))
      w.memory
    have before : w.usedBytes = total MemoryTier.size w.memory := rest.balanced.used
    have after : w'.usedBytes = total MemoryTier.size w'.memory := stored.balanced.used
    rw [after, left, before, ← whole]
    simp
  · intro tier here t w key data m e w' ran full
    obtain ⟨gone, only, sheds⟩ := ((tier.onFull_store key here data m).ends ran).1 e rfl full
    refine ⟨gone, sheds, sheds.bytesUsed, fun exceeds => ?_⟩
    by_contra some
    exact absurd (only some) (not_le.mpr exceeds)

/-- The second block is evicted before it is known that the third one does not fit. -/
theorem full_store_evicts_unread :
    let store := MemoryTier.tightMemory.store MemoryTier.thirdKey [4, 5, 6]
      { sampleMetadata with key := MemoryTier.thirdKey }
    (MemoryTier.crowded.memory.map Prod.fst, MemoryTier.crowded.usedBytes) =
      ([sampleKey, MemoryTier.secondKey], 3) ∧
    (store.execute device 0 calmChoice MemoryTier.crowded).map (fun ended =>
      (raised ended.1, ended.2.memory.map Prod.fst, ended.2.usedBytes)) =
        some (some .storeFull, [sampleKey], 2) := by
  decide +kernel

def tightFiles (mode : LayoutMode) : NVMeTier :=
  { sampleNVMe with maxBytes := 4, capacity := Int.natCast_pos.mpr (Nat.succ_pos 3), layoutMode := mode }

def crowdedFiles (mode : LayoutMode) : World :=
  let w := (emptyWorld.after ((tightFiles mode).store sampleKey [1, 2] sampleMetadata)).after
    ((tightFiles mode).store MemoryTier.secondKey [3] { sampleMetadata with key := MemoryTier.secondKey })
  { w with store := (w.store.acquire sampleKey .nvme).2 }

/-- In each tier the block that is read stays when three more bytes find no room. -/
theorem full_store_spares_pinned_crowded :
    (∃ w' gone, Sheds ⟨none, none⟩ .memory gone MemoryTier.crowded w' ∧
      w'.memory.map Prod.fst = [sampleKey] ∧
      ∀ entry ∈ w'.memory, MemoryTier.pinned MemoryTier.crowded.stock entry = true) ∧
    ∀ mode, ∃ w' gone, Sheds ⟨some (tightFiles mode), none⟩ .nvme gone (crowdedFiles mode) w' ∧
      (crowdedFiles mode).store.blocks.rows.length = 2 ∧
      w'.store.blocks.rows.map Row.id = [sampleKey.row .nvme] := by
  refine ⟨?_, fun mode => ?_⟩
  · have outcome : ((MemoryTier.tightMemory.store MemoryTier.thirdKey [4, 5, 6] { sampleMetadata with
        key := MemoryTier.thirdKey }).execute device 0 calmChoice MemoryTier.crowded).map (fun ended =>
          (raised ended.1, ended.2.memory.map Prod.fst)) = some (some .storeFull, [sampleKey]) := by
      decide +kernel
    obtain ⟨⟨r, w'⟩, ran, shown⟩ := Option.map_eq_some_iff.mp outcome
    obtain ⟨full, keys⟩ := Prod.mk.inj shown
    obtain ⟨e, rfl, cls⟩ := raised_eq_some.mp full
    obtain ⟨gone, sheds, -, -, -, pinned⟩ := (full_store_spares_pinned ⟨none, none⟩).1 _ 0 _ _ rfl rfl
      ⟨rfl, rfl⟩ MemoryTier.crowded_reached _ _ _ _ _ (ends_of_execute trivial ran) cls
    exact ⟨w', gone, sheds, keys, pinned (by decide)⟩
  · have outcome : (((tightFiles mode).store MemoryTier.thirdKey [4, 5, 6] { sampleMetadata with
        key := MemoryTier.thirdKey }).execute device 0 calmChoice (crowdedFiles mode)).map (fun ended =>
          (raised ended.1, (crowdedFiles mode).store.blocks.rows.length,
            ended.2.store.blocks.rows.map Row.id)) =
            some (some .storeFull, 2, [sampleKey.row .nvme]) := by
      cases mode <;> decide +kernel
    obtain ⟨⟨r, w'⟩, ran, shown⟩ := Option.map_eq_some_iff.mp outcome
    obtain ⟨full, ids⟩ := Prod.mk.inj shown
    obtain ⟨e, rfl, cls⟩ := raised_eq_some.mp full
    obtain ⟨gone, sheds, -⟩ := (full_store_spares_pinned ⟨some (tightFiles mode), none⟩).2 _ rfl 0 _ _ _ _ _
      _ (ends_of_execute trivial ran) cls
    exact ⟨w', gone, sheds, Prod.mk.inj ids⟩

end AiStorage.KV
