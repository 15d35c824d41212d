import AiStorage.KV.Custody

/-!
# Calls that respect what is in custody

`lookup`, `load`, `evict` and `store` of a tier, run by one thread among others. A load pins
only a row whose payload is there; an eviction removes a payload after its row; a store places
it before its row, and only if nobody reads the row.
-/
namespace AiStorage.KV
open Lib Prog MetadataStore

namespace Vault

variable {V : Vault} {α β : Type} {t n k : Nat} {I J : Ledger → Prop}

/-! ## Conditions -/

variable (V t n k) in
/-- The others leave it so, also deeper inside the mutation lock. -/
def Lasting (I : Ledger → Prop) : Prop := ∀ more, V.Settled t (n + more) k I

namespace Lasting

theorem settled (lasting : V.Lasting t n k I) : V.Settled t n k I := lasting 0

theorem deeper (lasting : V.Lasting t n k I) : V.Lasting t (n + 1) k I := fun more => by
  have same : n + 1 + more = n + (1 + more) := by omega
  rw [same]
  exact lasting (1 + more)

theorem const (holds : Prop) : V.Lasting t n k fun _ => holds := fun _ => .const holds

theorem and (left : V.Lasting t n k I) (right : V.Lasting t n k J) :
    V.Lasting t n k fun l => I l ∧ J l := fun more => (left more).and (right more)

theorem imp {condition : Prop} (lasting : condition → V.Lasting t n k I) :
    V.Lasting t n k fun l => condition → I l := fun more => .imp fun given => lasting given more

theorem forall_ {ι : Sort*} {F : ι → Ledger → Prop} (lasting : ∀ i, V.Lasting t n k (F i)) :
    V.Lasting t n k fun l => ∀ i, F i l :=
  fun more l l' others sane holds i => lasting i more l l' others sane (holds i)

theorem locked (kept : ∀ l l', Same l l' → I l → I l') (inside : n ≠ 0) : V.Lasting t n k I :=
  fun _ => .locked kept (by omega)

end Lasting

def Free (id : RowId) (l : Ledger) : Prop := ∀ u, l.taken u id ≤ 0

def Vacant (id : RowId) (l : Ledger) : Prop := ∀ uri, l.world.store.place id ≠ some (.active, uri)

theorem Custody.free_of_lost {l : Ledger} (custody : V.Custody l) {location : BlockLocation}
    (lost : V.Lost location l.world) : Free location.id l :=
  fun u => not_lt.mp fun held => custody.housed u location held lost

theorem Custody.pins_of_vacant {l : Ledger} (custody : V.Custody l) {key : BlockKey} {tier : TierName}
    (vacant : Vacant (key.row tier) l) : l.world.store.pins (key.row tier) = 0 := by
  by_contra some
  obtain ⟨-, -, row, member, here, active⟩ :=
    custody.balanced.trusted.exact.refuses (Nat.pos_of_ne_zero some)
  have place := place_of_mem member
  rw [here, active] at place
  exact vacant _ place

theorem Custody.free_of_vacant {l : Ledger} (custody : V.Custody l) {key : BlockKey} {tier : TierName}
    (vacant : Vacant (key.row tier) l) : Free (key.row tier) l := by
  intro u
  have covered := custody.balanced.held_le u (key.row tier)
  rw [custody.pins_of_vacant vacant] at covered
  exact covered

variable {id : RowId} {location : BlockLocation}

theorem lasting_free (inside : n ≠ 0) : V.Lasting t n k (Free id) :=
  .locked (fun _ _ same free u => (same.taken u id).trans (free u)) inside

theorem lasting_vacant (inside : n ≠ 0) : V.Lasting t n k (Vacant id) :=
  .locked (fun _ _ same vacant uri => by rw [same.place]; exact vacant uri) inside

theorem lasting_current (inside : n ≠ 0) : V.Lasting t n k fun l => location.Current l.world :=
  .locked (fun _ _ same current => by
    unfold BlockLocation.Current
    rw [same.place]
    exact current) inside

theorem lasting_content (inside : n ≠ 0) (outside : location.tier ≠ .memory)
    (holds : Option (Option Bytes) → Prop) :
    V.Lasting t n k fun l => holds (V.content location l.world) :=
  .locked (fun _ _ same before => by
    rw [V.outside outside same.files same.objects]
    exact before) inside

theorem lasting_live (outside : id.tier ≠ .memory) : V.Lasting t n k (V.Live id) :=
  fun _ _ _ others _ live location here lost =>
    live location here (others.lost location (by rw [← here] at outside; exact outside) lost)

def Holding (t : Nat) (id : RowId) (l : Ledger) : Prop := 0 < l.taken t id

theorem lasting_holding : V.Lasting t n k (Holding t id) :=
  fun _ _ _ others _ held => by
    unfold Holding
    rw [others.own]
    exact held

variable (V) in
def Suspect (location : BlockLocation) (l : Ledger) : Prop :=
  ∀ other : BlockLocation, other.id = location.id → V.Lost other l.world → other.uri = location.uri

theorem lasting_suspect (outside : location.tier ≠ .memory) : V.Lasting t n k (V.Suspect location) :=
  fun _ _ _ others _ suspect other here lost =>
    suspect other here (others.lost other (by rw [(key_of_id here).2]; exact outside) lost)

theorem suspect_of_uri {w : World} {other : BlockLocation} (here : other.id = location.id)
    (left : other.Current w) (right : location.Current w) : other.uri = location.uri := by
  have place : w.store.place other.id = some (.active, other.uri) := left
  rw [here, show w.store.place location.id = _ from right] at place
  exact (Prod.mk.inj (Option.some.inj place)).2.symm

theorem suspect_of_current {l : Ledger} (current : location.Current l.world) :
    V.Suspect location l := fun _ here lost => suspect_of_uri here lost.1 current

theorem Suspect.live {l : Ledger} (suspect : V.Suspect location l)
    (there : V.content location l.world ≠ some none) : V.Live location.id l := by
  intro other here lost
  obtain ⟨key, tier⟩ := key_of_id here
  rw [Lost, V.place _ key tier (suspect other here lost)] at lost
  exact there lost.2

variable (V) in
/-- An own step that moves no row and loses no payload. -/
structure Tamely (l l' : Ledger) : Prop where
  taken : l'.taken = l.taken
  place : l'.world.store.place = l.world.store.place
  lost : ∀ location, location.tier ≠ .memory → V.Lost location l'.world → V.Lost location l.world

theorem Mildly.tamely {l l' : Ledger} (mildly : Mildly l l') : V.Tamely l l' :=
  ⟨mildly.taken, mildly.place, fun _ _ lost => mildly.lost.mp lost⟩

theorem tamely_of_seen {l l' : Ledger} (seen : (V.among t).guarantee l l') (taken : l'.taken = l.taken)
    (place : l'.world.store.place = l.world.store.place) : V.Tamely l l' :=
  ⟨taken, place, (seen.2 (t + 1) (Nat.succ_ne_self t)).lost⟩

namespace Mildly

variable {l l' : Ledger} (mildly : Mildly l l')
include mildly

theorem free (before : Free id l) : Free id l' := by
  unfold Free
  rw [mildly.taken]
  exact before

theorem live (before : V.Live id l) : V.Live id l' := fun location here lost =>
  before location here (mildly.lost.mp lost)

theorem suspect (before : V.Suspect location l) : V.Suspect location l' := fun other here lost =>
  before other here (mildly.lost.mp lost)

theorem holding (before : Holding t id l) : Holding t id l' := by
  unfold Holding
  rw [mildly.taken]
  exact before

end Mildly

/-- What a look at the payload tells, by its two answers. -/
abbrev Tells (V : Vault) (n : Nat) (location : BlockLocation) (I : Ledger → Prop) (yes no : Prop)
    (l : Ledger) : Prop :=
  I l ∧ (yes → V.Live location.id l) ∧ (n ≠ 0 → no → V.content location l.world = some none)

theorem settled_tells {V : Vault} {t n k : Nat} {I : Ledger → Prop} {location : BlockLocation}
    (lasting : V.Lasting t n k I) (outside : location.tier ≠ .memory) (yes no : Prop) :
    V.Settled t n k (V.Tells n location I yes no) :=
  (lasting.and ((Lasting.imp fun _ => lasting_live outside).and (.imp fun inside => .imp fun _ =>
    lasting_content inside outside (· = some none)))).settled

end Vault

/-! ## Backends -/

structure Backend.Respectful (V : Vault) (B : Backend) : Prop where
  outside : B.tier ≠ .memory
  present : ∀ {t n k : Nat} {I : Ledger → Prop} (location : BlockLocation), location.tier = B.tier →
    V.Lasting t n k I → (∀ l l', Vault.Mildly l l' → I l → I l') →
    V.Triple t n k (fun l => I l ∧ V.Suspect location l) (B.present location)
      (Vault.OnResult fun there l => I l ∧ (there = true → V.Live location.id l) ∧
        (n ≠ 0 → there = false → V.content location l.world = some none))
  read : ∀ location, (B.read location).Uses device fun action => action.Mild
  afterMiss : ∀ key, (B.afterMiss key).Uses device fun action => action.Mild
  remove : ∀ {t n k : Nat} {G : Ledger → Prop} (location : BlockLocation), location.tier = B.tier →
    n ≠ 0 → V.Lasting t n k G → (∀ l l', l'.taken = l.taken → G l → G l') →
    V.Triple t n k (fun l => Vault.Vacant location.id l ∧ G l) (B.remove location)
      (Vault.OnResult fun _ => G)

/-- The physical parts of a writer keep to the rules: room is made and the payload placed while
nobody reads the row. -/
structure Writer.Respectful (V : Vault) (tier : TierName) (W : Writer) : Prop where
  makeRoom : ∀ {t n k : Nat} (size : Nat) (key : BlockKey), n ≠ 0 →
    V.Triple t n k (Vault.Free (key.row tier)) (W.makeRoom size key)
      (Vault.OnResult fun _ => Vault.Free (key.row tier))
  place : ∀ {t n k : Nat} (key : BlockKey) (raw data : Bytes) (m : KVMetadata), n ≠ 0 →
    V.Triple t n k (Vault.Free (key.row tier)) (W.place key raw data m)
      (Vault.OnResult fun location l => Vault.Free (key.row tier) l ∧ location.key = key ∧
        location.tier = tier ∧ V.standard location ∧ V.content location l.world ≠ some none)

theorem lookup_none {s : MetadataStore} {key : BlockKey} {tier : TierName}
    (missed : s.lookup key tier = .ok none) (uri : Text) :
    s.place (key.row tier) ≠ some (.active, uri) := by
  intro place
  obtain ⟨row, active, -⟩ := place_active.mp place
  unfold MetadataStore.lookup at missed
  split_ifs at missed
  rw [active] at missed
  dsimp only at missed
  cases built : locationFromRow key row with
  | error e | ok location =>
    rw [built] at missed
    cases missed

theorem lookup_some {w : World} {key : BlockKey} {tier : TierName} {location : BlockLocation}
    (found : w.store.lookup key tier = .ok (some location)) :
    location.key = key ∧ location.tier = tier ∧ location.Current w := by
  obtain ⟨row, active, built⟩ := lookup_ok found
  have same := locationFromRow_ok built
  have here := Table.idOf_of_find (activeRow_eq_some.mp active).1
  have tier' : location.tier = tier := by rw [same.tier, here]; rfl
  refine ⟨same.key, tier', ?_⟩
  unfold BlockLocation.Current BlockLocation.id
  rw [same.key, tier', same.uri]
  exact place_active.mpr ⟨row, active, rfl⟩

theorem beginDelete_row {s s' : MetadataStore} {key : BlockKey} {tier : TierName}
    {location : BlockLocation} (begun : s.beginDelete key tier = (.ok (some location), s')) :
    ∃ row, s.blocks.find (key.row tier) = some row ∧ locationFromRow key row = .ok location ∧
      (row.state = .active ∧ ¬(row.inFlightEpoch = s.ownerEpoch ∧ 0 < row.inFlight) ∧
          s' = { s with blocks := s.blocks.set (tombstone row) } ∨
        row.state = .deleting ∧ s' = s) := by
  unfold beginDelete at begun
  rw [if_neg (by rintro closed; rw [if_pos closed] at begun; cases begun)] at begun
  cases found : s.blocks.find (key.row tier) with
  | none =>
    rw [found] at begun
    cases begun
  | some row =>
    rw [found] at begun
    dsimp only at begun
    cases state : row.state with
    | active =>
      rw [state] at begun
      dsimp only at begun
      split_ifs at begun with busy
      · cases begun
      · cases built : locationFromRow key row with
        | error e =>
          rw [built] at begun
          cases begun
        | ok other =>
          rw [built] at begun
          cases begun
          exact ⟨row, rfl, built, .inl ⟨state, busy, rfl⟩⟩
    | deleting =>
      rw [state] at begun
      dsimp only at begun
      cases built : locationFromRow key row with
      | error e =>
        rw [built] at begun
        cases begun
      | ok other =>
        rw [built] at begun
        cases begun
        exact ⟨row, rfl, built, .inr ⟨state, rfl⟩⟩

theorem beginDelete_some {s s' : MetadataStore} {key : BlockKey} {tier : TierName}
    {location : BlockLocation} (begun : s.beginDelete key tier = (.ok (some location), s')) :
    location.key = key ∧ location.tier = tier ∧ ∀ uri, s'.place (key.row tier) ≠ some (.active, uri) := by
  obtain ⟨row, found, built, change⟩ := beginDelete_row begun
  have here := Table.idOf_of_find found
  have same := locationFromRow_ok built
  refine ⟨same.key, by rw [same.tier, here]; rfl, fun uri => ?_⟩
  rcases change with ⟨-, -, rfl⟩ | ⟨state, rfl⟩
  · rw [← here, show row.id = (tombstone row).id from rfl, place_set_self]
    simp [tombstone]
  · rw [place, found]
    simp [state]

theorem read_ok {β : Type} {f : Choice → MetadataStore → Except PyError β} {t : Nat} {c : Choice}
    {l l' : Ledger} {b : β}
    (done : auditing.exec t (Act.database fun c s => (f c s, s)) c l = some (.ok b, l')) :
    f c l.world.store = .ok b ∧ l'.world = l.world := by
  obtain ⟨w, ran, rfl⟩ := auditing_some done
  rcases Act.database_some ran with ⟨-, wrong, -⟩ | ⟨-, ran, rest⟩
  · cases wrong
  · obtain ⟨same, store⟩ := Prod.mk.inj ran
    exact ⟨same, by rw [Ledger.record, rest, ← store]⟩

namespace Vault

variable {V : Vault} {t n k : Nat} {I G : Ledger → Prop}

variable (V n I G) in
/-- What `lookup` leaves behind. -/
structure Looked (key : BlockKey) (tier : TierName) (found : Option BlockLocation) (l : Ledger) :
    Prop where
  some : ∀ location, found = some location → I l ∧ location.key = key ∧ location.tier = tier ∧
    V.Live (key.row tier) l ∧ (n ≠ 0 → location.Current l.world)
  none : found = none → G l ∧ (n ≠ 0 → Free (key.row tier) l)

variable {key : BlockKey} {tier : TierName} {found : Option BlockLocation} {l l' : Ledger}

theorem lasting_looked (outside : tier ≠ .memory)
    (lasting : V.Lasting t n k I) (weaker : V.Lasting t n k G) (found : Option BlockLocation) :
    V.Lasting t n k (V.Looked n I G key tier found) := by
  intro more l l' others sane looked
  refine ⟨fun location same => ?_, fun same => ?_⟩
  · obtain ⟨holds, key', tier', live, current⟩ := looked.some location same
    exact ⟨lasting more l l' others sane holds, key', tier',
      lasting_live outside more l l' others sane live,
      fun inside => lasting_current inside more l l' others sane (current inside)⟩
  · obtain ⟨holds, free⟩ := looked.none same
    exact ⟨weaker more l l' others sane holds,
      fun inside => lasting_free inside more l l' others sane (free inside)⟩

theorem Looked.shallower (looked : V.Looked (n + 1) I G key tier found l) :
    V.Looked n I G key tier found l := by
  refine ⟨fun location same => ?_, fun same => ?_⟩
  · obtain ⟨holds, key', tier', live, current⟩ := looked.some location same
    exact ⟨holds, key', tier', live, fun _ => current (Nat.succ_ne_zero n)⟩
  · obtain ⟨holds, free⟩ := looked.none same
    exact ⟨holds, fun _ => free (Nat.succ_ne_zero n)⟩

theorem Looked.mildly (looked : V.Looked n I G key tier found l) (mildly : Mildly l l')
    (kept : I l → I l') (left : G l → G l') : V.Looked n I G key tier found l' := by
  refine ⟨fun location same => ?_, fun same => ?_⟩
  · obtain ⟨holds, key', tier', live, current⟩ := looked.some location same
    exact ⟨kept holds, key', tier', mildly.live live, fun inside => mildly.current.mpr (current inside)⟩
  · obtain ⟨holds, free⟩ := looked.none same
    exact ⟨left holds, fun inside => mildly.free (free inside)⟩

end Vault

namespace Backend.Respectful

open Vault

variable {V : Vault} {B : Backend} (respectful : B.Respectful V) (key : BlockKey) {t n k : Nat}
  {I G : Ledger → Prop}
include respectful

theorem firstLook (lasting : V.Lasting t n k I) (kept : ∀ l l', Mildly l l' → I l → I l') :
    V.Triple t n k I (perform (Act.lookup key B.tier)) (OnResult fun found l => I l ∧
      (∀ location, found = some location → location.key = key ∧ location.tier = B.tier ∧
        V.Suspect location l ∧ (n ≠ 0 → location.Current l.world)) ∧
      (found = none → n ≠ 0 → Free (key.row B.tier) l)) := by
  refine .learn (Act.mild_read _) lasting.settled (fun r => ?_) fun l c x l' sane pre mildly done => ?_
  · intro l l' others sane holds found same
    obtain ⟨before, some, none⟩ := holds found same
    refine ⟨lasting.settled l l' others sane before, fun location here => ?_, fun missed inside => ?_⟩
    · obtain ⟨key', tier', suspect, current⟩ := some location here
      exact ⟨key', tier',
        (lasting_suspect (by rw [tier']; exact respectful.outside)).settled l l' others sane suspect,
        fun inside => (lasting_current inside).settled l l' others sane (current inside)⟩
    · exact (lasting_free inside).settled l l' others sane (none missed inside)
  · rintro found rfl
    obtain ⟨read, same⟩ := read_ok done
    refine ⟨kept l l' mildly pre, ?_, ?_⟩
    · rintro location rfl
      obtain ⟨key', tier', current⟩ := lookup_some read
      rw [← same] at current
      exact ⟨key', tier', suspect_of_current current, fun _ => current⟩
    · rintro rfl -
      exact mildly.free (sane.custody.free_of_vacant fun uri => lookup_none read uri)

theorem triple_recheck (inside : n ≠ 0) (lasting : V.Lasting t n k I) (weaker : V.Lasting t n k G)
    (kept : ∀ l l', Mildly l l' → I l → I l') (left : ∀ l l', l'.taken = l.taken → G l → G l')
    (weak : ∀ l, I l → G l) :
    V.Triple t n k I (B.recheck key) (OnResult (V.Looked n I G key B.tier)) := by
  have looked := fun found => (lasting_looked respectful.outside lasting weaker found :
    V.Lasting t n k (V.Looked n I G key B.tier found))
  have removed : V.Triple t n k (fun l => G l ∧ Free (key.row B.tier) l)
      (do let _ ← perform (Act.delete key B.tier); return none)
      (OnResult (V.Looked n I G key B.tier)) := by
    refine .bind (R := fun _ l => G l ∧ Free (key.row B.tier) l) ?_ fun _ =>
      .value (fun l holds => ⟨nofun, fun _ => ⟨holds.1, fun _ => holds.2⟩⟩) (looked none).settled
    have both := (weaker.and (@lasting_free V t n k (key.row B.tier) inside)).settled
    refine .removes (Act.removes_delete key B.tier) (fun here => absurd here respectful.outside) both
      (Settled.onResult fun _ => both) ?_
    intro l c x l' _ _ holds gently _ a _
    refine ⟨left l l' gently.taken holds.1, fun u => ?_⟩
    rw [gently.taken]
    exact holds.2 u
  refine .bind (respectful.firstLook key lasting kept) fun found => ?_
  cases found with
  | none =>
    exact removed.pre fun l holds => ⟨weak l holds.1, holds.2.2 rfl inside⟩
  | some location =>
    refine .known (location.key = key ∧ location.tier = B.tier) (fun l holds => ?_) fun named => ?_
    · obtain ⟨key', tier', -⟩ := holds.2.1 location rfl
      exact ⟨key', tier'⟩
    obtain ⟨rfl, tier⟩ := named
    have current := @lasting_current V t n k location inside
    refine .bind ((respectful.present location tier (lasting.and current) fun l l' mildly holds =>
      ⟨kept l l' mildly holds.1, mildly.current.mpr holds.2⟩).pre fun l holds => ?_) fun there => ?_
    · obtain ⟨-, -, suspect, here⟩ := holds.2.1 location rfl
      exact ⟨⟨holds.1, here inside⟩, suspect⟩
    · have id : location.id = location.key.row B.tier := by rw [BlockLocation.id, tier]
      cases there with
      | true =>
        refine .value (fun l holds => ⟨fun other same => ?_, nofun⟩) (looked _).settled
        cases same
        exact ⟨holds.1.1, rfl, tier, id ▸ holds.2.1 rfl, fun _ => holds.1.2⟩
      | false =>
        intro l sane holds
        have lost : V.Lost location l.world := ⟨holds.1.2, holds.2.2 inside rfl⟩
        exact removed l sane ⟨weak l holds.1.1, id ▸ sane.custody.free_of_lost lost⟩

theorem triple_lookup (lasting : V.Lasting t n k I) (weaker : V.Lasting t n k G)
    (kept : ∀ l l', Mildly l l' → I l → I l') (left : ∀ l l', l'.taken = l.taken → G l → G l')
    (weak : ∀ l, I l → G l) :
    V.Triple t n k I (B.lookup key) (OnResult (V.Looked n I G key B.tier)) := by
  have looked := fun found => (lasting_looked respectful.outside lasting weaker found :
    V.Lasting t n k (V.Looked n I G key B.tier found))
  refine .bind (respectful.firstLook key lasting kept) fun found => ?_
  cases found with
  | none =>
    have holds : V.Lasting t n k fun l => I l ∧ (n ≠ 0 → Free (key.row B.tier) l) :=
      lasting.and (.imp lasting_free)
    refine .bind ((Triple.mild (respectful.afterMiss key) holds.settled fun l l' mildly holds =>
      ⟨kept l l' mildly holds.1, fun inside => mildly.free (holds.2 inside)⟩).anyway.results.pre
        fun l holds => ⟨holds.1, holds.2.2 rfl⟩) fun _ => ?_
    exact .value (fun l holds => ⟨nofun, fun _ => ⟨weak l holds.1, holds.2⟩⟩) (looked none).settled
  | some location =>
    refine .known (location.key = key ∧ location.tier = B.tier) (fun l holds => ?_) fun named => ?_
    · obtain ⟨key', tier', -⟩ := holds.2.1 location rfl
      exact ⟨key', tier'⟩
    obtain ⟨rfl, tier⟩ := named
    have current : V.Lasting t n k fun l => n ≠ 0 → location.Current l.world := .imp lasting_current
    refine .bind ((respectful.present location tier (lasting.and current) fun l l' mildly holds =>
      ⟨kept l l' mildly holds.1, fun inside => mildly.current.mpr (holds.2 inside)⟩).pre
        fun l holds => ?_) fun there => ?_
    · obtain ⟨-, -, suspect, here⟩ := holds.2.1 location rfl
      exact ⟨⟨holds.1, here⟩, suspect⟩
    · have id : location.id = location.key.row B.tier := by rw [BlockLocation.id, tier]
      cases there with
      | true =>
        refine .value (fun l holds => ⟨fun other same => ?_, nofun⟩) (looked _).settled
        cases same
        exact ⟨holds.1.1, rfl, tier, id ▸ holds.2.1 rfl, holds.1.2⟩
      | false =>
        have again : V.Triple t (n + 1) k I (B.recheck location.key)
            (OnResult (V.Looked n I G location.key B.tier)) :=
          (respectful.triple_recheck location.key (Nat.succ_ne_zero n) lasting.deeper weaker.deeper
            kept left weak).weaken (fun _ holds => holds) fun r l post found same =>
              (post found same).shallower
        refine (again.withMutation lasting.settled kept (fun found => (looked found).settled)
          (fun found => looked found 1) fun found l l' mildly post => ?_).pre fun l holds => holds.1.1
        exact post.mildly mildly (kept l l' mildly) (left l l' mildly.taken)

theorem triple_evict (weaker : V.Lasting t n k G) (left : ∀ l l', l'.taken = l.taken → G l → G l') :
    V.Triple t n k G (B.evict key) (OnResult fun _ => G) := by
  have outside : B.tier = .memory → k ≠ 0 := fun here => absurd here respectful.outside
  have inside : n + 1 ≠ 0 := Nat.succ_ne_zero n
  have deeper := weaker.deeper
  refine Triple.withMutation ?_ weaker.settled (fun l l' mildly => left l l' mildly.taken)
    (fun _ => weaker.settled) (fun _ => deeper.settled) fun _ l l' mildly => left l l' mildly.taken
  -- the row is out of sight before its payload is removed
  refine .bind (R := fun begun l => G l ∧ ∀ location, begun = some location →
    location.key = key ∧ location.tier = B.tier ∧ Vacant (key.row B.tier) l) ?_ fun begun => ?_
  · refine .removes (Act.removes_beginDelete key B.tier) outside deeper.settled (fun r => ?_) ?_
    · intro l l' others sane holds begun same
      refine ⟨deeper.settled l l' others sane (holds begun same).1, fun location here => ?_⟩
      obtain ⟨key', tier', vacant⟩ := (holds begun same).2 location here
      exact ⟨key', tier', (lasting_vacant inside).settled l l' others sane vacant⟩
    · rintro l c x l' - - holds gently done begun rfl
      refine ⟨left l l' gently.taken holds, ?_⟩
      rintro location rfl
      obtain ⟨w, ran, rfl⟩ := auditing_some done
      rcases Act.database_some (Act.exclusive_some ran).2 with ⟨-, wrong, -⟩ | ⟨-, ran, -⟩
      · cases wrong
      · exact beginDelete_some ran
  · cases begun with
    | none => exact .value (fun l holds => holds.1) deeper.settled
    | some location =>
      refine .known (location.key = key ∧ location.tier = B.tier) (fun l holds => ?_)
        fun named => ?_
      · obtain ⟨key', tier', -⟩ := holds.2 location rfl
        exact ⟨key', tier'⟩
      obtain ⟨rfl, tier⟩ := named
      have id : location.id = location.key.row B.tier := by rw [BlockLocation.id, tier]
      refine .bind ((respectful.remove location tier inside deeper left).pre
        fun l holds => ⟨id ▸ (holds.2 location rfl).2.2, holds.1⟩) fun _ => ?_
      refine .bind (R := fun _ => G) ?_ fun finished => .computed fun _ _ =>
        .value (fun l holds => holds) deeper.settled
      exact .removes (Act.removes_finishDelete location.key B.tier) outside deeper.settled
        (Settled.onResult fun _ => deeper.settled)
        fun l c x l' _ _ holds gently _ a _ => left l l' gently.taken holds

theorem mild_readAcquired (location : BlockLocation) :
    (B.readAcquired key location).Uses device fun action => action.Mild :=
  .bind (respectful.read location) fun _ => .bind (.perform (Act.mild_observe _)) fun _ =>
    .bind trivial fun _ => .bind trivial fun _ => .bind (.perform (Act.mild_touch key B.tier)) fun _ =>
    .bind (.perform (Act.mild_read _)) fun _ => .bind trivial fun _ => trivial

end Backend.Respectful

namespace Vault

variable {V : Vault} {t n k : Nat} {I : Ledger → Prop} {tier : TierName} (key : BlockKey)

theorem Triple.release (lasting : V.Lasting t n k I) (kept : ∀ l l', Calmly l l' → I l → I l') :
    V.Triple t n k (fun l => I l ∧ Holding t (key.row tier) l) (Prog.perform (Act.release key tier))
      fun _ => I := by
  refine .perform (lasting.and lasting_holding).settled (fun _ => lasting.settled) ?_
  intro l c x l' sane holds done
  obtain ⟨seen, calmly, saner⟩ := step_release sane (.inl holds.2) done
  exact ⟨seen, saner, kept l l' calmly holds.1⟩

/-- The end of a load gives the pin back before anything else. -/
theorem Triple.finishGuarded {evict : Py Bool} (remains : String)
    (evicts : V.Triple t n k (fun _ => True) evict (OnResult fun _ _ => True))
    (lasting : V.Lasting t n k I) (kept : ∀ l l', Calmly l l' → I l → I l')
    (result : Except PyError LoadResult) :
    V.Triple t n k (fun l => I l ∧ Holding t (key.row tier) l)
      (KV.finishGuarded tier evict remains key result) (OnResult fun _ => I) := by
  have released := (@Triple.release V t n k I tier key lasting kept).anyway.results
  unfold KV.finishGuarded
  cases result with
  | ok loaded =>
    exact .bind released fun _ => .value (fun l holds => holds) lasting.settled
  | error e =>
    dsimp only
    split_ifs with corrupt
    · have looks : V.Triple t n k (fun _ => True) (invalidate tier evict remains key)
          (OnResult fun _ _ => True) := by
        refine .bind evicts fun removed => ?_
        cases removed with
        | true => exact .value (fun _ _ => trivial) (.const _)
        | false =>
          refine .bind (.glances (Act.mild_read _)) fun found => ?_
          cases found with
          | none => exact .value (fun _ _ => trivial) (.const _)
          | some location => exact .error _
      refine .bind (released.handle (fun _ => lasting.settled) fun _ => .error _) fun _ => ?_
      exact .bind ((looks.handle (fun _ => .const _) fun _ => .error _).pre fun _ _ => trivial)
        fun _ => .error e
    · exact .bind released fun _ => .error e

end Vault

namespace Backend.Respectful

open Vault

variable {V : Vault} {B : Backend} (respectful : B.Respectful V) (key : BlockKey) {t n k : Nat}
  {I : Ledger → Prop}
include respectful

theorem triple_load (lasting : V.Lasting t n k I) (kept : ∀ l l', Calmly l l' → I l → I l') :
    V.Triple t n k I (B.load key) (OnResult fun _ => I) := by
  have mild : ∀ l l', Mildly l l' → I l → I l' := fun l l' mildly => kept l l' mildly.toCalmly
  refine .bind (respectful.triple_lookup (G := fun _ => True) key lasting (.const True) mild
    (fun _ _ _ holds => holds) fun _ _ => trivial) fun found => ?_
  cases found with
  | none => exact .error _
  | some seen =>
    have live := @lasting_live V t n k (key.row B.tier) respectful.outside
    refine .bind (R := fun found l => I l ∧
      ((∃ location, found = some location) → Holding t (key.row B.tier) l)) ?_ fun found => ?_
    · refine Triple.pre (I := fun l => I l ∧ V.Live (key.row B.tier) l) ?_
        fun l holds => ⟨(holds.some seen rfl).1, (holds.some seen rfl).2.2.2.1⟩
      refine .perform (lasting.and live).settled (fun r => ?_) fun l c x l' sane holds done => ?_
      · intro l l' others sane holds a same
        exact ⟨lasting.settled l l' others sane (holds a same).1, fun answered =>
          lasting_holding.settled l l' others sane ((holds a same).2 answered)⟩
      · obtain ⟨kept', calmly, saner, pinned⟩ := step_pins (Act.pins_lookupAndAcquire key B.tier) sane
          holds.2 (fun here => absurd here respectful.outside) done
        refine ⟨kept', saner, ?_⟩
        rintro found rfl
        exact ⟨kept l l' calmly holds.1, fun ⟨location, same⟩ => pinned ⟨location, by rw [same]⟩⟩
    · cases found with
      | none => exact .error _
      | some location =>
        have holds := lasting.and (@lasting_holding V t n k (key.row B.tier))
        refine Triple.thenDo ((Triple.mild (respectful.mild_readAcquired key location) holds.settled
          fun l l' mildly holds => ⟨mild l l' mildly holds.1, mildly.holding holds.2⟩).pre
            fun l holds => ⟨holds.1, holds.2 ⟨location, rfl⟩⟩) fun r => ?_
        exact .finishGuarded key B.remains
          (respectful.triple_evict key (.const True) fun _ _ _ holds => holds) lasting kept r

variable {W : Writer} (data : Bytes) (m : KVMetadata)

omit respectful in
theorem triple_upsert {location : BlockLocation} (outside : location.tier ≠ .memory)
    (settled : V.Settled t n k I) (moves : ∀ l, I l → ∀ other : BlockLocation,
      other.id = location.id → other.Current l.world →
        other.uri = location.uri ∨ ∀ u, u ≠ t → l.taken u location.id ≤ 0)
    (there : ∀ l, I l → V.content location l.world ≠ some none)
    (written : ∀ l, V.Custody l → I l → V.standard location) (m : KVMetadata) :
    V.Triple t n k I (perform (Act.upsert location m)) (OnResult fun _ _ => True) := by
  refine .perform settled (fun r l l' _ _ _ a _ => trivial) fun l c x l' sane holds done => ?_
  obtain ⟨kept, -, saner⟩ := step_upsert sane (fun here => absurd here outside) (moves l holds)
    (there l holds) (written l sane.custody holds) done
  exact ⟨kept, saner, fun _ _ => trivial⟩

theorem triple_replay (inside : n ≠ 0) {existing : BlockLocation} (here : existing.tier = B.tier) :
    V.Triple t n k (fun l => existing.Current l.world ∧ V.content existing l.world ≠ some none)
      (B.replay key data m existing) (OnResult fun _ _ => True) := by
  have outside : existing.tier ≠ .memory := by rw [here]; exact respectful.outside
  have lasting : V.Lasting t n k fun l =>
      existing.Current l.world ∧ V.content existing l.world ≠ some none :=
    (lasting_current inside).and (lasting_content inside outside (· ≠ some none))
  unfold Backend.replay
  refine .bind (respectful.triple_load key lasting fun l l' calmly holds =>
    ⟨calmly.current.mpr holds.1, by rw [calmly.content]; exact holds.2⟩) fun loaded => ?_
  refine .computed fun _ _ => .computed fun _ _ =>
    triple_upsert (by exact outside) lasting.settled ?_ ?_ ?_ _
  · exact fun l holds other same current => .inl (suspect_of_uri same current holds.1)
  · intro l holds missing
    refine holds.2 (Eq.trans ?_ missing)
    exact V.place l.world rfl rfl rfl
  · intro l custody holds
    exact @Vault.spelled V existing _ rfl rfl rfl (custody.standard existing holds.1)

theorem triple_store (writer : W.Respectful V B.tier) :
    V.Triple t n k (fun _ => True) (B.store W key data m) (OnResult fun _ _ => True) := by
  have inside : n + 1 ≠ 0 := Nat.succ_ne_zero n
  refine .computed fun _ _ => .computed fun _ _ => .bind (R := fun _ _ => True) ?_ fun _ =>
    .value (fun _ _ => trivial) (.const _)
  refine Triple.withMutation ?_ (.const True) (fun _ _ _ holds => holds) (fun _ => .const True)
    (fun _ => .const True) fun _ _ _ _ holds => holds
  refine .bind (.glances (Act.mild_read _)) fun _ => .computed fun _ _ => .computed fun _ _ =>
    .bind (.glances (Act.mild_observe _)) fun now => .computed fun _ _ =>
    .bind (.glances (Act.mild_validatePayloadDescriptor _)) fun _ => ?_
  refine .bind (respectful.triple_lookup (G := fun _ => True) key (.const True) (.const True)
    (fun _ _ _ holds => holds) (fun _ _ _ holds => holds) fun _ holds => holds) fun found => ?_
  cases found with
  | some existing =>
    refine .known (existing.tier = B.tier) (fun l holds => ?_) fun kind => ?_
    · obtain ⟨-, -, tier', -⟩ := holds.some existing rfl
      exact tier'
    refine (respectful.triple_replay key data _ inside kind).pre fun l holds => ?_
    obtain ⟨-, key', tier', live, current⟩ := holds.some existing rfl
    have id : existing.id = key.row B.tier := by rw [BlockLocation.id, key', tier']
    exact ⟨current inside, fun missing => live existing id ⟨current inside, missing⟩⟩
  | none =>
    refine Triple.pre (I := Free (key.row B.tier)) ?_ fun l holds => (holds.none rfl).2 inside
    refine .bind (writer.makeRoom data.length key inside) fun _ => .computed fun raw _ =>
      .bind (writer.place key raw data _ inside) fun location => ?_
    refine .known (location.key = key ∧ location.tier = B.tier)
      (fun l holds => ⟨holds.2.1, holds.2.2.1⟩) fun named => ?_
    have outside : location.tier ≠ .memory := by rw [named.2]; exact respectful.outside
    have id : location.id = key.row B.tier := by rw [BlockLocation.id, named.1, named.2]
    refine (triple_upsert (I := fun l => Free (key.row B.tier) l ∧
      V.standard location ∧ V.content location l.world ≠ some none) outside ?_ ?_
      (fun l holds => holds.2.2) (fun l _ holds => holds.2.1) _).pre
      fun l holds => ⟨holds.1, holds.2.2.2⟩
    · exact ((lasting_free inside).and
        ((Lasting.const _).and (lasting_content inside outside (· ≠ some none)))).settled
    · exact fun l holds other _ _ => .inr fun u _ => by rw [id]; exact holds.1 u

end Backend.Respectful

end AiStorage.KV
