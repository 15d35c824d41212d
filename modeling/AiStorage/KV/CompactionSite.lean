import AiStorage.KV.Candidates
import AiStorage.KV.FileSite

/-!
# Compaction in custody

A compaction pass moves a row only if no other call has a pin on it, and unlinks a segment file
only if no active row names it.
-/
namespace AiStorage.KV
open Lib Prog MetadataStore

theorem MetadataStore.pins_of_evictable {s : MetadataStore} {kind : TierName} {row : Row}
    (member : row ∈ s.evictable kind) : s.pins row.id = 0 := by
  obtain ⟨inside, -, -, idle⟩ := mem_evictable.mp member
  exact pins_eq_zero inside (effective_of_idle idle)

theorem acquire_false {s : MetadataStore} {key : BlockKey} {tier : TierName}
    (refused : (s.acquire key tier).1 = .ok false) (uri : Text) :
    s.place (key.row tier) ≠ some (.active, uri) := by
  intro place
  obtain ⟨row, found, -⟩ := place_active.mp place
  unfold acquire updateRow at refused
  split_ifs at refused
  have selected : s.select (key.row tier) (fun row => decide (row.state = .active)) = some row := found
  rw [selected] at refused
  cases refused

namespace Vault

variable {V : Vault} {α : Type} {t n k : Nat} {id : RowId}

variable (V t) in
/-- The row may be moved: no other call has a pin on it, and its payload is not lost. -/
structure Movable (id : RowId) (l : Ledger) : Prop where
  clear : ∀ u, u ≠ t → l.taken u id ≤ 0
  live : V.Live id l

theorem lasting_movable (inside : n ≠ 0) (outside : id.tier ≠ .memory) :
    V.Lasting t n k (V.Movable t id) := by
  intro more l l' others sane movable
  refine ⟨fun u apart => ?_, lasting_live outside more l l' others sane movable.live⟩
  have same := (others.mutation _ sane.mutation).2 (by omega)
  exact (same.taken u id).trans (movable.clear u apart)

theorem Movable.own {l l' : Ledger} (movable : V.Movable t id l) (outside : id.tier ≠ .memory)
    (seen : (V.among t).guarantee l l') : V.Movable t id l' := by
  refine ⟨fun u apart => ?_, fun location here lost => ?_⟩
  · rw [(seen.2 u apart).own]
    exact movable.clear u apart
  · refine movable.live location here ((seen.2 (t + 1) (Nat.succ_ne_self t)).lost location ?_ lost)
    rw [← here] at outside
    exact outside

theorem Movable.tamely {l l' : Ledger} (movable : V.Movable t id l) (outside : id.tier ≠ .memory)
    (tamely : V.Tamely l l') : V.Movable t id l' := by
  refine ⟨fun u apart => ?_, fun location here lost => movable.live location here
    (tamely.lost location (by rw [← here] at outside; exact outside) lost)⟩
  rw [tamely.taken]
  exact movable.clear u apart

end Vault

namespace NVMeTier

open Vault

variable (tier : NVMeTier) {site : Site} (here : site.nvme = some tier) {t n k : Nat}
  {I : Ledger → Prop}

/-! ## The rows that a pass moves -/

section

variable (V : Vault) (t : Nat)

def Todo (entries : List (BlockLocation × KVMetadata)) (l : Ledger) : Prop :=
  ∀ entry ∈ entries, V.Movable t (entry.1.key.row .nvme) l

def Idle (entries : List (BlockLocation × KVMetadata × Int)) (l : Ledger) : Prop :=
  ∀ entry ∈ entries, entry.1.tier = .nvme ∧ entry.1.Current l.world ∧ Free entry.1.id l

end

theorem lasting_todo {V : Vault} (inside : n ≠ 0) (entries : List (BlockLocation × KVMetadata)) :
    V.Lasting t n k (Todo V t entries) :=
  .forall_ fun _ => .imp fun _ => lasting_movable inside nofun

theorem lasting_idle {V : Vault} (inside : n ≠ 0) (entries : List (BlockLocation × KVMetadata × Int)) :
    V.Lasting t n k (Idle entries) :=
  .forall_ fun _ => .imp fun _ => (Lasting.const _).and
    ((lasting_current inside).and (lasting_free inside))

theorem Idle.mildly {entries : List (BlockLocation × KVMetadata × Int)} {l l' : Ledger}
    (idle : Idle entries l) (mildly : Mildly l l') : Idle entries l' := fun entry member =>
  ⟨(idle entry member).1, mildly.current.mpr (idle entry member).2.1,
    mildly.free (idle entry member).2.2⟩

theorem Todo.own {V : Vault} {entries : List (BlockLocation × KVMetadata)} {l l' : Ledger}
    (todo : Todo V t entries l) (seen : (V.among t).guarantee l l') : Todo V t entries l' :=
  fun entry member => (todo entry member).own nofun seen

theorem Todo.tamely {V : Vault} {entries : List (BlockLocation × KVMetadata)} {l l' : Ledger}
    (todo : Todo V t entries l) (tamely : V.Tamely l l') : Todo V t entries l' :=
  fun entry member => (todo entry member).tamely nofun tamely

theorem triple_tierEntries {V : Vault} :
    V.Triple t n k (fun _ => True) (perform (Act.tierEntries .nvme false))
      (OnResult fun entries l => n ≠ 0 → Idle entries l) := by
  refine .learn (Act.mild_read _) (.const True) (Settled.onResult fun entries => ?_)
    fun l c x l' sane _ mildly done => ?_
  · exact (Lasting.imp fun inside => lasting_idle inside entries).settled
  · rintro entries rfl -
    obtain ⟨listed, -⟩ := read_ok done
    have trusted := sane.custody.balanced.trusted
    refine Idle.mildly (fun entry member => ?_) mildly
    obtain ⟨row, evictable, names⟩ := tierEntries_names trusted.sound listed member
    obtain ⟨inside, kind, active, -⟩ := mem_evictable.mp evictable
    have same : entry.1.tier = .nvme := by rw [names.of.tier, kind]
    have id : row.id = entry.1.id := by rw [names.id, BlockLocation.id, same, kind]
    refine ⟨same, ?_, fun u => ?_⟩
    · have place := place_of_mem inside
      rw [id, active, ← names.of.uri] at place
      exact place
    · have covered := sane.custody.balanced.held_le u entry.1.id
      rw [← id, pins_of_evictable evictable, id] at covered
      exact covered

include here in
theorem triple_presentRecords (lasting : site.vault.Lasting t n k I)
    (kept : ∀ l l', Mildly l l' → I l → I l') (entries : List (BlockLocation × KVMetadata × Int))
    (known : ∀ l, I l → ∀ entry ∈ entries, entry.1.tier = .nvme ∧ site.vault.Suspect entry.1 l) :
    site.vault.Triple t n k I (tier.presentRecords entries) (OnResult fun found l => I l ∧
      ∀ record ∈ found, site.vault.Live (record.1.key.row .nvme) l ∧
        ∃ entry ∈ entries, entry.1 = record.1) := by
  induction entries generalizing I with
  | nil =>
    refine .value (fun l holds => ⟨holds, fun _ member => by cases member⟩) ?_
    exact fun l l' others sane holds => ⟨lasting.settled l l' others sane holds.1,
      fun _ member => by cases member⟩
  | cons entry rest ih =>
    obtain ⟨location, m, count⟩ := entry
    have later : ∀ l, I l → ∀ entry ∈ rest, entry.1.tier = .nvme ∧ site.vault.Suspect entry.1 l :=
      fun l holds entry member => known l holds entry (.tail _ member)
    have skip : site.vault.Triple t n k I (tier.presentRecords rest) (OnResult fun found l => I l ∧
        ∀ record ∈ found, site.vault.Live (record.1.key.row .nvme) l ∧
          ∃ entry ∈ (location, m, count) :: rest, entry.1 = record.1) := by
      refine (ih lasting kept later).weaken (fun _ holds => holds) fun r l post found same => ?_
      refine ⟨(post found same).1, fun record member => ?_⟩
      obtain ⟨live, entry, inside, named⟩ := (post found same).2 record member
      exact ⟨live, entry, .tail _ inside, named⟩
    unfold presentRecords
    split_ifs with segment
    · have apart : ∀ key : BlockKey, (key.row .nvme).tier ≠ .memory := fun _ wrong => by cases wrong
      have live := @lasting_live site.vault t n k (location.key.row .nvme) (apart _)
      refine .bind (R := fun there l => I l ∧
        (there = true → site.vault.Live (location.key.row .nvme) l)) ?_ fun there => ?_
      · refine (tier.respectful_present here location lasting kept).weaken
          (fun l holds => ⟨holds, (known l holds _ List.mem_cons_self).2⟩) fun r l post there same => ?_
        have kind := (known l (post there same).1 _ List.mem_cons_self).1
        refine ⟨(post there same).1, fun yes => ?_⟩
        have live := (post there same).2.1 yes
        rw [BlockLocation.id, kind] at live
        exact live
      · cases there with
        | false => exact skip.pre fun _ holds => holds.1
        | true =>
          have both := lasting.and live
          refine .bind ((ih both (fun l l' mildly holds => ⟨kept l l' mildly holds.1,
            mildly.live holds.2⟩) fun l holds => later l holds.1).pre
            fun l holds => ⟨holds.1, holds.2 rfl⟩) fun others => ?_
          refine .value (fun l holds => ⟨holds.1.1, fun record member => ?_⟩) ?_
          · rcases List.mem_cons.mp member with rfl | inside
            · exact ⟨holds.1.2, _, List.mem_cons_self, rfl⟩
            · obtain ⟨live, entry, member, named⟩ := holds.2 record inside
              exact ⟨live, entry, .tail _ member, named⟩
          · exact (lasting.and (.forall_ fun record => .imp fun _ =>
              (lasting_live (apart _)).and (.const _))).settled
    · exact skip

/-! ## Moving one record -/

structure Round (V : Vault) (t : Nat) (entries : List (BlockLocation × KVMetadata)) (id : RowId)
    (l : Ledger) : Prop where
  todo : Todo V t entries l
  held : Holding t id l

section Move

variable (inside : n ≠ 0) (mode : tier.layoutMode = .segment)
  {entries : List (BlockLocation × KVMetadata)} {location : BlockLocation} {m : KVMetadata}
  (member : (location, m) ∈ entries) (compactionId : Nat) {V : Vault} {id : RowId}

include inside in
theorem lasting_round : V.Lasting t n k (Round V t entries id) :=
  fun more l l' others sane round => ⟨lasting_todo inside entries more l l' others sane round.todo,
    lasting_holding more l l' others sane round.held⟩

theorem Round.tamely {l l' : Ledger} (round : Round V t entries id l) (tamely : V.Tamely l l') :
    Round V t entries id l' :=
  ⟨round.todo.tamely tamely, by rw [Holding, tamely.taken]; exact round.held⟩

theorem Round.own {l l' : Ledger} (round : Round V t entries id l)
    (seen : (V.among t).guarantee l l') (taken : l'.taken = l.taken) : Round V t entries id l' :=
  ⟨round.todo.own seen, by rw [Holding, taken]; exact round.held⟩

include here inside mode member in
theorem triple_moveRecord (header : Header) (payload : Bytes) :
    site.vault.Triple t n k (Round site.vault t entries (location.key.row .nvme))
      (tier.moveRecord compactionId location m header payload)
      (Always (Round site.vault t entries (location.key.row .nvme)) fun _ _ => True) := by
  have lasting := @lasting_round t n k inside entries site.vault (location.key.row .nvme)
  have written : ∀ ref : SegmentRef, site.vault.Settled t n k fun l =>
      (targetContent l.world (.segment ref)).isSome = true := fun ref =>
    .locked (fun l l' same before => by rw [targetContent, same.files]; exact before) inside
  refine .computedAlways (fun _ holds => holds) lasting.settled fun raw _ => ?_
  refine .bindAlways (R := fun ref l => Round site.vault t entries (location.key.row .nvme) l ∧
    ref.path.Resolved ∧ 0 ≤ ref.offset ∧ 0 ≤ ref.recordBytes ∧
      (targetContent l.world (.segment ref)).isSome = true) lasting.settled ?_ fun ref => ?_
  · exact tier.triple_appendRecord here lasting (fun _ _ tamely round => round.tamely tamely) mode
      inside (isCompactName compactionId) (nameOk_compactName _) location.key raw payload
  · refine .known (ref.path.Resolved ∧ 0 ≤ ref.offset ∧ 0 ≤ ref.recordBytes)
      (fun l holds => ⟨holds.2.1, holds.2.2.1, holds.2.2.2.1⟩) fun placed => ?_
    refine .computedAlways (fun _ holds => holds.1) lasting.settled fun moved built => ?_
    obtain ⟨key, kind, standard, there⟩ :=
      tier.content_segmentLocationFor here placed.1 placed.2.1 placed.2.2 built
    have id : moved.id = location.key.row .nvme := by rw [BlockLocation.id, key, kind]
    refine Triple.pre (I := fun l => Round site.vault t entries (location.key.row .nvme) l ∧
      (targetContent l.world (.segment ref)).isSome = true) ?_ fun l holds => ⟨holds.1, holds.2.2.2.2⟩
    refine .perform (lasting.settled.and (written ref))
      (fun r => lasting.settled.and (.onResult (fun _ => .const _) r)) fun l c x l' sane holds done => ?_
    obtain ⟨seen, gently, saner⟩ := step_upsert sane (fun wrong => by rw [kind] at wrong; cases wrong)
      (fun other _ _ => .inr fun u apart => by
        rw [id]
        exact (holds.1.todo _ member).clear u apart) (there l.world mode holds.2) standard done
    exact ⟨seen, saner, holds.1.own seen gently.taken, fun _ _ => trivial⟩

def Guarded (V : Vault) (t : Nat) (entries : List (BlockLocation × KVMetadata)) (id : RowId)
    (l : Ledger) : Prop :=
  Todo V t entries l ∧ (Holding t id l ∨ Vacant id l)

include inside in
theorem lasting_guarded : V.Lasting t n k (Guarded V t entries id) :=
  fun more l l' others sane guarded => ⟨lasting_todo inside entries more l l' others sane guarded.1,
    guarded.2.imp (lasting_holding more l l' others sane) (lasting_vacant inside more l l' others sane)⟩

theorem Round.guarded {l : Ledger} (round : Round V t entries id l) : Guarded V t entries id l :=
  ⟨round.todo, .inl round.held⟩

include here inside mode member in
theorem triple_compactAcquired :
    site.vault.Triple t n k (Guarded site.vault t entries (location.key.row .nvme))
      (tier.compactAcquired compactionId location m)
      (Always (Guarded site.vault t entries (location.key.row .nvme)) fun _ _ => True) := by
  have lasting := @lasting_round t n k inside entries site.vault (location.key.row .nvme)
  have guarded := @lasting_guarded t n k inside entries site.vault (location.key.row .nvme)
  refine .bindAlways (R := fun found l => Guarded site.vault t entries (location.key.row .nvme) l ∧
    (found.isSome = true → Round site.vault t entries (location.key.row .nvme) l)) guarded.settled ?_
    fun found => ?_
  · refine .learn (Act.mild_read _) guarded.settled (fun r => guarded.settled.and (.onResult (fun found =>
      guarded.settled.and (.imp fun _ => lasting.settled)) r)) fun l c x l' sane holds mildly done => ?_
    have still : Guarded site.vault t entries (location.key.row .nvme) l' := by
      refine ⟨holds.1.tamely mildly.tamely, holds.2.imp mildly.holding fun vacant uri => ?_⟩
      rw [mildly.place]
      exact vacant uri
    refine ⟨still, ?_⟩
    rintro found rfl
    refine ⟨still, fun some => ⟨still.1, ?_⟩⟩
    obtain ⟨now, rfl⟩ := Option.isSome_iff_exists.mp some
    -- a row that was found is not missing, so the round has a pin on it
    obtain ⟨key, kind, current⟩ := lookup_some (read_ok done).1
    refine still.2.resolve_right fun vacant => vacant now.uri ?_
    rw [mildly.place, ← key, ← kind]
    exact current
  · dsimp only
    split_ifs with same
    · have some : found.isSome = true := by
        cases found with
        | none => cases same
        | some now => rfl
      refine Triple.weaken (I := Round site.vault t entries (location.key.row .nvme))
        (Q := Always (Round site.vault t entries (location.key.row .nvme)) fun _ _ => True) ?_
        (fun l holds => holds.2 some) fun _ _ post => ⟨post.1.guarded, post.2⟩
      have mild : ∀ {β : Type} {p : Py β}, (p.Uses device fun action => action.Mild) →
          site.vault.Triple t n k (Round site.vault t entries (location.key.row .nvme)) p
            (Always (Round site.vault t entries (location.key.row .nvme))
              fun _ => Round site.vault t entries (location.key.row .nvme)) := fun uses =>
        (Triple.mild uses lasting.settled fun l l' mildly round => round.tamely mildly.tamely).anyway
      refine .bindAlways lasting.settled (mild (tier.mild_read location)) fun read =>
        .bindAlways lasting.settled (mild (.perform (Act.mild_observe _))) fun now =>
        .computedAlways (fun _ holds => holds) lasting.settled fun _ _ => ?_
      exact .bindAlways (R := fun _ => Round site.vault t entries (location.key.row .nvme)) lasting.settled
        ((tier.triple_moveRecord here inside mode member compactionId read.1 read.2).weaken
          (fun _ holds => holds) fun _ _ post => ⟨post.1, fun _ _ => post.1⟩)
        fun _ => .valueAlways (fun _ holds => ⟨holds, trivial⟩) lasting.settled (.const _)
    · exact .valueAlways (fun _ holds => ⟨holds.1, trivial⟩) guarded.settled (.const _)

include here inside mode member in
theorem triple_compactOne :
    site.vault.Triple t n k (Todo site.vault t entries) (tier.compactOne compactionId location m)
      (OnResult fun _ => Todo site.vault t entries) := by
  have todo := @lasting_todo t n k site.vault inside entries
  have guarded := @lasting_guarded t n k inside entries site.vault (location.key.row .nvme)
  have outside : (location.key.row .nvme).tier = .memory → k ≠ 0 := nofun
  refine .bind (R := fun _ => Guarded site.vault t entries (location.key.row .nvme)) ?_ fun _ => ?_
  · refine .perform todo.settled (Settled.onResult fun _ => guarded.settled)
      fun l c x l' sane holds done => ?_
    obtain ⟨seen, calmly, saner, pinned⟩ := step_pins (Act.pins_acquire location.key .nvme) sane
      (holds _ member).live outside done
    refine ⟨seen, saner, ?_⟩
    rintro acquired rfl
    refine ⟨holds.own seen, ?_⟩
    cases acquired with
    | true => exact .inl (pinned rfl)
    | false =>
      refine .inr fun uri => ?_
      rw [calmly.place]
      obtain ⟨w, ran, rfl⟩ := auditing_some done
      rcases Act.database_some (Act.exclusive_some ran).2 with ⟨-, wrong, -⟩ | ⟨-, ran, -⟩
      · cases wrong
      · exact acquire_false (congrArg Prod.fst ran) uri
  · refine (tier.triple_compactAcquired here inside mode member compactionId).thenDo fun r => ?_
    refine Triple.thenDo (P := fun _ => Todo site.vault t entries) ?_ fun released => ?_
    · refine .pre (I := Guarded site.vault t entries (location.key.row .nvme)) (.perform
        guarded.settled (fun _ => todo.settled) fun l c x l' sane holds done => ?_) fun _ holds => holds.1
      obtain ⟨seen, calmly, saner⟩ := step_release sane
        (holds.2.imp_right sane.custody.pins_of_vacant) done
      exact ⟨seen, saner, holds.1.own seen⟩
    · cases released with
      | ok _ =>
        cases r with
        | ok moved => exact .value (fun _ holds => holds) todo.settled
        | error e => exact .error e
      | error e => exact .error e

include here inside mode in
theorem triple_compactEach (rest : List (BlockLocation × KVMetadata)) (part : rest ⊆ entries)
    (counts : Nat × Nat) :
    site.vault.Triple t n k (Todo site.vault t entries) (tier.compactEach compactionId rest counts)
      (OnResult fun _ _ => True) := by
  induction rest generalizing counts with
  | nil => exact .value (fun _ _ => trivial) (.const _)
  | cons entry rest ih =>
    obtain ⟨location, m⟩ := entry
    have later : rest ⊆ entries := fun _ member => part (.tail _ member)
    refine .bind (tier.triple_compactOne here inside mode (part List.mem_cons_self) compactionId)
      fun moved => ?_
    cases moved with
    | true => exact ih later _
    | false => exact ih later _

end Move

/-! ## Removing files -/

/-- Every active row is among the entries, and spelled as the tier writes it. -/
def Listed (V : Vault) (entries : List (BlockLocation × KVMetadata × Int)) (l : Ledger) : Prop :=
  ∀ location : BlockLocation, location.tier = .nvme → location.Current l.world →
    V.standard location ∧ ∃ entry ∈ entries, entry.1.key = location.key ∧ entry.1.uri = location.uri

def Covered (referenced : List Path) (l : Ledger) : Prop :=
  ∀ location : BlockLocation, location.tier = .nvme → location.Current l.world → ∀ ref,
    tier.segmentRefFromUri location.uri location.key = .ok ref → ref.path ∈ referenced

theorem referencedPaths_mem {entries : List (BlockLocation × KVMetadata × Int)} {referenced : List Path}
    (done : tier.referencedPaths entries = .ok referenced) {entry : BlockLocation × KVMetadata × Int}
    (member : entry ∈ entries) (segment : isSegmentUri entry.1.uri = true) {ref : SegmentRef}
    (read : tier.segmentRefFromUri entry.1.uri entry.1.key = .ok ref) : ref.path ∈ referenced := by
  induction entries generalizing referenced with
  | nil => cases member
  | cons first rest ih =>
    obtain ⟨location, m, count⟩ := first
    unfold referencedPaths at done
    split_ifs at done with counts
    · cases named : tier.segmentRefFromUri location.uri location.key with
      | error e =>
        rw [named] at done
        dsimp only at done
        split_ifs at done
      | ok other =>
        rw [named] at done
        obtain ⟨others, rest', same⟩ := bind_eq_ok.mp done
        cases same
        rcases List.mem_cons.mp member with rfl | later
        · rw [named] at read
          cases read
          exact List.mem_cons_self
        · exact .tail _ (ih rest' later)
    · rcases List.mem_cons.mp member with rfl | later
      · exact absurd segment counts
      · exact ih done later

include here in
theorem covered_of_listed (mode : tier.layoutMode = .segment)
    {entries : List (BlockLocation × KVMetadata × Int)} {referenced : List Path}
    (done : tier.referencedPaths entries = .ok referenced) {l : Ledger}
    (listed : Listed site.vault entries l) : tier.Covered referenced l := by
  intro location kind current ref read
  obtain ⟨standard, entry, member, key, uri⟩ := listed location kind current
  refine tier.referencedPaths_mem done member ?_ (by rw [key, uri]; exact read)
  rw [uri]
  exact standard kind tier here mode ref read

theorem triple_listed {V : Vault} (inside : n ≠ 0) :
    V.Triple t n k (fun _ => True) (perform (Act.tierEntries .nvme true))
      (OnResult fun entries => Listed V entries) := by
  refine .learn (Act.mild_read _) (.const True) (Settled.onResult fun entries => ?_)
    fun l c x l' sane _ mildly done => ?_
  · refine Settled.locked (fun l l' same listed location kind current => listed location kind ?_) inside
    unfold BlockLocation.Current at current
    rw [same.place] at current
    exact current
  · rintro entries rfl location kind current
    have before : location.Current l.world := mildly.current.mp current
    have trusted := sane.custody.balanced.trusted
    refine ⟨sane.custody.standard location before, ?_⟩
    obtain ⟨row, found, uri⟩ := place_active.mp before
    obtain ⟨member, id, active⟩ := select_eq_some.mp found
    obtain ⟨entry, listed, names⟩ := tierEntries_complete trusted.sound (read_ok done).1 member
      (by rw [id]; exact kind) (of_decide_eq_true active)
    refine ⟨entry, listed, ?_, by rw [names.of.uri, uri]⟩
    have same : entry.1.id = location.id := by
      rw [BlockLocation.id, names.of.tier, ← names.id, id]
      rfl
    exact (key_of_id same).1

include here in
theorem unused_of_covered (mode : tier.layoutMode = .segment) {referenced : List Path} {l : Ledger}
    (covered : tier.Covered referenced l) {path : Path} (apart : path ∉ referenced)
    (other : BlockLocation) (current : other.Current l.world) :
    site.vault.content other { l.world with files := l.world.files.erase path } =
      site.vault.content other l.world := by
  by_cases kind : other.tier = .nvme
  · cases found : tier.validatedLocationTarget other with
    | error e => rw [tier.content_of_error here found kind, tier.content_of_error here found kind]
    | ok target =>
      rw [tier.content_of_target here found, tier.content_of_target here found]
      obtain ⟨-, ⟨single, -⟩ | ⟨-, ref, rfl, read⟩⟩ := tier.target_of_ok found
      · rw [mode] at single
        cases single
      · have named := covered other kind current ref read
        have differs : path ≠ ref.path := fun same => apart (by rw [same]; exact named)
        rw [targetContent, targetContent, Dict.get_erase_of_ne differs]
  · exact content_elsewhere kind l.world

section Remove

variable (mode : tier.layoutMode = .segment) (inside : n ≠ 0) {referenced : List Path}
include inside

theorem lasting_covered {V : Vault} : V.Lasting t n k (tier.Covered referenced) :=
  .locked (fun l l' same covered location kind current => by
    refine covered location kind ?_
    unfold BlockLocation.Current at current
    rw [same.place] at current
    exact current) inside

include here mode in
theorem triple_removeFile {path : Path} (apart : path ∉ referenced) :
    site.vault.Triple t n k (tier.Covered referenced) (removeFile path)
      (OnResult fun _ => tier.Covered referenced) := by
  have covered := @lasting_covered tier t n k inside referenced site.vault
  have moved : ∀ {l l' : Ledger}, l'.world.store.place = l.world.store.place →
      tier.Covered referenced l → tier.Covered referenced l' := by
    intro l l' place holds location kind current
    refine holds location kind ?_
    unfold BlockLocation.Current at current
    rw [place] at current
    exact current
  have removed : site.vault.Triple t n k (tier.Covered referenced) (unlinkSized path)
      (Always (tier.Covered referenced) fun _ => tier.Covered referenced) := by
    refine .bindAlways covered.settled (triple_onFiles (R := fun _ => tier.Covered referenced)
      covered.settled (fun l l' mildly => moved mildly.place) (fun _ => covered.settled)
      fun l c size l' holds mildly _ _ _ => moved mildly.place holds) fun size => ?_
    refine .bindAlways (R := fun _ => tier.Covered referenced) covered.settled (.perform covered.settled
      (fun r => covered.settled.and (.onResult (fun _ => covered.settled) r)) ?_) fun _ =>
      .valueAlways (fun _ holds => ⟨holds, holds⟩) covered.settled covered.settled
    intro l c x l' sane holds done
    obtain ⟨seen, saner, -, store⟩ :=
      step_unlink inside sane (tier.unused_of_covered here mode holds apart) done
    have still := moved (by rw [store]) holds
    exact ⟨seen, saner, still, fun _ _ => still⟩
  refine removed.thenDo fun r => ?_
  cases r with
  | ok size => exact .value (fun _ holds => holds.1) covered.settled
  | error e =>
    dsimp only
    split_ifs
    · exact .value (fun _ holds => holds.1) covered.settled
    · exact .error e

include here mode in
theorem triple_removeEach (files : List Path) (counts : Nat × Int) :
    site.vault.Triple t n k (tier.Covered referenced) (removeEach referenced files counts)
      (OnResult fun _ _ => True) := by
  induction files generalizing counts with
  | nil => exact .value (fun _ _ => trivial) (.const _)
  | cons path rest ih =>
    unfold removeEach
    split_ifs with named
    · exact ih counts
    · refine .bind (tier.triple_removeFile here mode inside named) fun removed => ?_
      cases removed with
      | none => exact ih counts
      | some size => exact ih _

include here mode in
theorem triple_removeUnreferencedSegmentFiles :
    site.vault.Triple t n k (fun _ => True) tier.removeUnreferencedSegmentFiles
      (OnResult fun _ _ => True) := by
  refine .bind (triple_listed inside) fun entries => .computed fun referenced done => ?_
  have covered := @lasting_covered tier t n k inside referenced site.vault
  refine .pre (.bind ((Triple.looks (Act.mild_observe _) covered.settled fun l l' mildly holds location
    kind current => holds location kind (mildly.current.mp current)).results) fun files =>
      tier.triple_removeEach here mode inside files _) fun l listed => ?_
  exact tier.covered_of_listed here mode done listed

end Remove

/-! ## The pass -/

include here in
theorem triple_compactLocked (mode : tier.layoutMode = .segment) (inside : n ≠ 0) (compactionId : Nat)
    (dryRun : Bool) : site.vault.Triple t n k (fun _ => True) (tier.compactLocked compactionId dryRun)
      (OnResult fun _ _ => True) := by
  refine .bind (.glances (Act.mild_observe _)) fun before => .bind triple_tierEntries fun idle => ?_
  have listed := @lasting_idle t n k site.vault inside idle
  refine .bind ((tier.triple_presentRecords here listed (fun l l' mildly holds => holds.mildly mildly)
    idle fun l holds entry member => ⟨(holds entry member).1,
      suspect_of_current (holds entry member).2.1⟩).pre fun l holds => holds inside)
    fun entries => ?_
  have todo := @lasting_todo t n k site.vault inside entries
  refine .pre (I := Todo site.vault t entries) ?_ fun l holds record member => ?_
  · refine .bind (Triple.looks (Act.mild_read _) todo.settled fun l l' mildly holds =>
      holds.tamely mildly.tamely).results fun all => ?_
    dsimp only
    split_ifs
    · exact .bind ((Triple.glances (Act.mild_read _)).pre fun _ _ => trivial) fun _ =>
        .value (fun _ _ => trivial) (.const _)
    · exact .bind (tier.triple_compactEach here inside mode compactionId entries (fun _ member => member)
        (0, 0)) fun _ => .bind (tier.triple_removeUnreferencedSegmentFiles here mode inside) fun _ =>
        .bind (.glances (Act.mild_observe _)) fun _ => .bind (.glances (Act.mild_read _)) fun _ =>
        .value (fun _ _ => trivial) (.const _)
  · obtain ⟨live, entry, inList, same⟩ := holds.2 record member
    obtain ⟨kind, -, unread⟩ := holds.1 entry inList
    rw [BlockLocation.id, kind, same] at unread
    exact ⟨fun u _ => unread u, live⟩

theorem triple_compactSegments (here : site.nvme = some tier) (compactionId : Nat) (dryRun : Bool) :
    site.vault.Triple t n k (fun _ => True) (tier.compactSegments compactionId dryRun)
      (OnResult fun _ _ => True) := by
  unfold compactSegments
  cases mode : tier.layoutMode with
  | segment =>
    exact (tier.triple_compactLocked here mode (Nat.succ_ne_zero n) compactionId dryRun).withMutation
      (.const True) (fun _ _ _ holds => holds) (fun _ => .const _) (fun _ => .const _)
      fun _ _ _ _ holds => holds
  | contentAddressed =>
    exact .bind (.glances (Act.mild_read _)) fun _ => .bind (.glances (Act.mild_observe _)) fun _ =>
      .bind (.glances (Act.mild_observe _)) fun _ => .value (fun _ holds => holds) (.const _)

end NVMeTier

end AiStorage.KV
