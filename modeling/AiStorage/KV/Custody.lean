import AiStorage.KV.Ledger

/-!
# Payloads in custody

What the calls of several threads owe to each other. No active row loses its payload, and a row
that some call has pinned stays at its place with its payload as it is.
-/
namespace AiStorage.KV
open Lib Prog MetadataStore

def BlockLocation.id (location : BlockLocation) : RowId := location.key.row location.tier

def BlockLocation.Current (location : BlockLocation) (w : World) : Prop :=
  w.store.place location.id = some (.active, location.uri)

/-- Where the payloads are, and how the tiers write their locations. -/
structure Vault where
  standard : BlockLocation → Prop
  spelled : ∀ {location other : BlockLocation}, other.key = location.key →
    other.tier = location.tier → other.uri = location.uri → standard location → standard other
  content : BlockLocation → World → Option (Option Bytes)
  place : ∀ {location other : BlockLocation} (w : World), location.key = other.key →
    location.tier = other.tier → location.uri = other.uri → content location w = content other w
  outside : ∀ {location : BlockLocation} {w w' : World}, location.tier ≠ .memory →
    w'.files = w.files → w'.objects = w.objects → content location w' = content location w
  inside : ∀ {location : BlockLocation} {w w' : World}, location.tier = .memory →
    w'.memory = w.memory → content location w' = content location w

/-! ## What the threads owe to each other -/

/-- Nothing changed that the mutation lock protects, and nobody took a pin. -/
structure Same (l l' : Ledger) : Prop where
  files : l'.world.files = l.world.files
  objects : l'.world.objects = l.world.objects
  place : l'.world.store.place = l.world.store.place
  taken : l'.taken ≤ l.taken

theorem Same.trans {l l' l'' : Ledger} (first : Same l l') (second : Same l' l'') : Same l l'' :=
  ⟨second.files.trans first.files, second.objects.trans first.objects,
    second.place.trans first.place, second.taken.trans first.taken⟩

structure SameMemory (l l' : Ledger) : Prop where
  memory : l'.world.memory = l.world.memory
  place : ∀ id, id.tier = .memory → l'.world.store.place id = l.world.store.place id
  taken : ∀ t id, id.tier = .memory → l'.taken t id ≤ l.taken t id

theorem SameMemory.trans {l l' l'' : Ledger} (first : SameMemory l l') (second : SameMemory l' l'') :
    SameMemory l l'' where
  memory := second.memory.trans first.memory
  place id here := (second.place id here).trans (first.place id here)
  taken t id here := (second.taken t id here).trans (first.taken t id here)

namespace Vault

variable (V : Vault)

def Lost (location : BlockLocation) (w : World) : Prop :=
  location.Current w ∧ V.content location w = some none

def Shown (location : BlockLocation) (bytes : Bytes) (w : World) : Prop :=
  location.Current w ∧ V.content location w = some (some bytes)

/-- The books are balanced, file names and locations are well-formed, and what is pinned is
there. -/
structure Custody (l : Ledger) : Prop where
  balanced : l.Balanced
  standard : ∀ location : BlockLocation, location.Current l.world → V.standard location
  proper : ∀ path, (l.world.files.get path).isSome = true → path.Resolved
  housed : ∀ t location, 0 < l.taken t location.id → ¬V.Lost location l.world

/-- What a thread may rely on when the others make a step. -/
structure Respects (t : Nat) (l l' : Ledger) : Prop where
  custody : V.Custody l → V.Custody l'
  own : l'.taken t = l.taken t
  lost : ∀ location, location.tier ≠ .memory → V.Lost location l'.world → V.Lost location l.world
  shown : ∀ location bytes, 0 < l.taken t location.id → V.Shown location bytes l.world →
    V.Shown location bytes l'.world
  mutation : RLock.Guards t l.world.mutation l'.world.mutation (Same l l')
  memory : RLock.Guards t l.world.memoryLock l'.world.memoryLock (SameMemory l l')

theorem Respects.refl (t : Nat) (l : Ledger) : V.Respects t l l where
  custody := id
  own := rfl
  lost _ _ lost := lost
  shown _ _ _ shown := shown
  mutation := .unchanged ⟨rfl, rfl, rfl, le_refl _⟩
  memory := .unchanged ⟨rfl, fun _ _ => rfl, fun _ _ _ => le_refl _⟩

variable {V}

variable {l l' : Ledger} {w : World} {location : BlockLocation}

theorem Respects.trans {t : Nat} {l'' : Ledger} (first : V.Respects t l l')
    (second : V.Respects t l' l'') : V.Respects t l l'' where
  custody := second.custody ∘ first.custody
  own := second.own.trans first.own
  lost location apart lost := first.lost location apart (second.lost location apart lost)
  shown location bytes held shown :=
    second.shown location bytes (by rw [first.own]; exact held) (first.shown location bytes held shown)
  mutation := first.mutation.trans second.mutation Same.trans
  memory := first.memory.trans second.memory SameMemory.trans

variable (V) in
/-- One thread among others that respect what is in custody. -/
def among (t : Nat) : Setting Act PyError Ledger Choice where
  device := auditing
  thread := t
  allowed _ := True
  rely := V.Respects t
  guarantee l l' := V.Custody l' ∧ ∀ u, u ≠ t → V.Respects u l l'
  rely_refl := Respects.refl V t
  rely_trans := Respects.trans

theorem seen {t : Nat} (custody : V.Custody l) (trusted : w.store.Trusted)
    (matched : ∀ id, 0 ≤ l.taken t id + ((w.store.pins id : Int) - l.world.store.pins id))
    (standard : ∀ location : BlockLocation, location.Current w →
      location.Current l.world ∨ V.standard location)
    (proper : ∀ path, (w.files.get path).isSome = true → path.Resolved)
    (lost : ∀ location, V.Lost location w → V.Lost location l.world ∨
      location.tier = .memory ∧ ∀ u, (l.record t w).taken u location.id ≤ 0)
    (raised : ∀ location, l.world.store.pins location.id < w.store.pins location.id →
      ¬V.Lost location w)
    (shown : ∀ location bytes, V.Shown location bytes l.world → V.Shown location bytes w ∨
      ∀ u, u ≠ t → l.taken u location.id ≤ 0)
    (mutation : ∀ u, u ≠ t → RLock.Guards u l.world.mutation w.mutation (Same l (l.record t w)))
    (memory : ∀ u, u ≠ t →
      RLock.Guards u l.world.memoryLock w.memoryLock (SameMemory l (l.record t w))) :
    (V.among t).guarantee l (l.record t w) := by
  have others : ∀ u, u ≠ t → (l.record t w).taken u = l.taken u := fun u apart =>
    Function.update_of_ne apart _ _
  have after : V.Custody (l.record t w) := by
    refine ⟨custody.balanced.record trusted matched, fun location current =>
      (standard location current).elim (custody.standard location) id, proper,
      fun u location held gone => ?_⟩
    rcases lost location gone with before | ⟨-, free⟩
    · by_cases here : u = t
      · subst here
        rw [l.taken_record] at held
        by_cases already : 0 < l.taken u location.id
        · exact custody.housed u location already before
        · exact raised location (by omega) gone
      · rw [others u here] at held
        exact custody.housed u location held before
    · exact absurd held (not_lt.mpr (free u))
  refine ⟨after, fun u apart => ⟨fun _ => after, others u apart, fun location outside gone => ?_,
    fun location bytes held before => ?_, mutation u apart, memory u apart⟩⟩
  · rcases lost location gone with before | ⟨inside, -⟩
    · exact before
    · exact absurd inside outside
  · rcases shown location bytes before with after | free
    · exact after
    · exact absurd held (not_lt.mpr (free u apart))

/-! ## Inside the locks -/

variable (V) in
/-- The thread is so deep inside the two locks. -/
structure Sane (t n k : Nat) (l : Ledger) : Prop where
  custody : V.Custody l
  mutation : RLock.Depth t n l.world.mutation
  memory : RLock.Depth t k l.world.memoryLock

theorem Sane.record {t n k : Nat} (sane : V.Sane t n k l)
    (after : V.Custody (l.record t w)) (mutation : w.mutation = l.world.mutation)
    (memoryLock : w.memoryLock = l.world.memoryLock) : V.Sane t n k (l.record t w) :=
  ⟨after, (congrArg (RLock.Depth t n) mutation).mpr sane.mutation,
    (congrArg (RLock.Depth t k) memoryLock).mpr sane.memory⟩

theorem stable_sane (t n k : Nat) : (V.among t).Stable (V.Sane t n k) := by
  intro l l' others sane
  have respects : V.Respects t l l' := others
  exact ⟨respects.custody sane.custody, (respects.mutation n sane.mutation).1,
    (respects.memory k sane.memory).1⟩

variable (V) in
def Settled (t n k : Nat) (I : Ledger → Prop) : Prop :=
  ∀ l l', V.Respects t l l' → V.Sane t n k l → I l → I l'

namespace Settled

variable {t n k : Nat} {I J : Ledger → Prop}

theorem stable (settled : V.Settled t n k I) :
    (V.among t).Stable fun l => V.Sane t n k l ∧ I l :=
  fun l l' others holds => ⟨stable_sane t n k l l' others holds.1,
    settled l l' others holds.1 holds.2⟩

theorem const (holds : Prop) : V.Settled t n k fun _ => holds := fun _ _ _ _ same => same

theorem and (left : V.Settled t n k I) (right : V.Settled t n k J) :
    V.Settled t n k fun l => I l ∧ J l :=
  fun l l' others sane both => ⟨left l l' others sane both.1, right l l' others sane both.2⟩

theorem imp {condition : Prop} (settled : condition → V.Settled t n k I) :
    V.Settled t n k fun l => condition → I l :=
  fun l l' others sane holds given => settled given l l' others sane (holds given)

theorem locked (kept : ∀ l l', Same l l' → I l → I l') (inside : n ≠ 0) : V.Settled t n k I :=
  fun l l' others sane => kept l l' ((others.mutation n sane.mutation).2 inside)

theorem guarded (kept : ∀ l l', SameMemory l l' → I l → I l') (inside : k ≠ 0) : V.Settled t n k I :=
  fun l l' others sane => kept l l' ((others.memory k sane.memory).2 inside)

end Settled

structure Calmly (l l' : Ledger) : Prop where
  files : l'.world.files = l.world.files
  objects : l'.world.objects = l.world.objects
  memory : l'.world.memory = l.world.memory
  place : l'.world.store.place = l.world.store.place

/-- A step that only looks, notes an access, or passes a lock. -/
structure Mildly (l l' : Ledger) : Prop extends Calmly l l' where
  taken : l'.taken = l.taken

theorem Mildly.same (mildly : Mildly l l') : Same l l' :=
  ⟨mildly.files, mildly.objects, mildly.place, le_of_eq mildly.taken⟩

theorem Mildly.sameMemory (mildly : Mildly l l') : SameMemory l l' :=
  ⟨mildly.memory, fun id _ => congrFun mildly.place id, fun t id _ => by rw [mildly.taken]⟩

theorem Calmly.current (calmly : Calmly l l') :
    location.Current l'.world ↔ location.Current l.world := by
  unfold BlockLocation.Current
  rw [calmly.place]

theorem Calmly.content (calmly : Calmly l l') (location : BlockLocation) :
    V.content location l'.world = V.content location l.world := by
  by_cases inside : location.tier = .memory
  · exact V.inside inside calmly.memory
  · exact V.outside inside calmly.files calmly.objects

theorem Calmly.lost (calmly : Calmly l l') :
    V.Lost location l'.world ↔ V.Lost location l.world := by
  unfold Lost
  rw [calmly.current, calmly.content]

theorem Calmly.shown (calmly : Calmly l l') {bytes : Bytes} :
    V.Shown location bytes l'.world ↔ V.Shown location bytes l.world := by
  unfold Shown
  rw [calmly.current, calmly.content]

theorem taken_record_of_pins {t : Nat}
    (pins : w.store.pins = l.world.store.pins) : (l.record t w).taken = l.taken := by
  funext u
  by_cases here : u = t
  · subst here
    funext id
    rw [l.taken_record, pins]
    omega
  · exact Function.update_of_ne here _ _

theorem seen_locks {t n k : Nat} (sane : V.Sane t n k l) (mutation memoryLock : RLock)
    (first : ∀ u, u ≠ t → ∀ intact : Prop, intact →
      RLock.Guards u l.world.mutation mutation intact)
    (second : ∀ u, u ≠ t → ∀ intact : Prop, intact →
      RLock.Guards u l.world.memoryLock memoryLock intact) :
    let w : World := { l.world with mutation := mutation, memoryLock := memoryLock }
    (V.among t).guarantee l (l.record t w) ∧ Mildly l (l.record t w) := by
  intro w
  have mildly : Mildly l (l.record t w) := ⟨⟨rfl, rfl, rfl, rfl⟩, taken_record_of_pins rfl⟩
  refine ⟨?_, mildly⟩
  apply seen (w := w) sane.custody sane.custody.balanced.trusted
  · intro id
    rw [sub_self, add_zero]
    exact sane.custody.balanced.nonneg t id
  · intro location current
    exact .inl current
  · exact sane.custody.proper
  · intro location gone
    exact .inl (mildly.lost.mp gone)
  · intro location more
    exact absurd more (lt_irrefl _)
  · intro location bytes before
    exact .inl (mildly.shown.mpr before)
  · intro u apart
    exact first u apart _ mildly.same
  · intro u apart
    exact second u apart _ mildly.sameMemory

/-! ## Steps on the rows -/

theorem content_rows {w' : World} (shape : w' = { w with store := w'.store })
    (location : BlockLocation) : V.content location w' = V.content location w := by
  by_cases inside : location.tier = .memory
  · exact V.inside inside (by rw [shape])
  · exact V.outside inside (by rw [shape]) (by rw [shape])

/-- A step that changes rows only: what becomes active has its payload, what is pinned has it,
and a row leaves its place only if nobody else reads it. -/
theorem seen_rows {t n k : Nat} (sane : V.Sane t n k l)
    (shape : w = { l.world with store := w.store }) (trusted : w.store.Trusted)
    (matched : ∀ id, 0 ≤ l.taken t id + ((w.store.pins id : Int) - l.world.store.pins id))
    (current : ∀ location : BlockLocation, location.Current w → location.Current l.world ∨
      V.standard location ∧ V.content location l.world ≠ some none)
    (raised : ∀ location, l.world.store.pins location.id < w.store.pins location.id →
      ¬V.Lost location w)
    (stays : ∀ location : BlockLocation, location.Current l.world → location.Current w ∨
      ∀ u, u ≠ t → l.taken u location.id ≤ 0)
    (mutation : l.world.mutation.admits t = true ∨ Same l (l.record t w))
    (memory : k ≠ 0 ∨ SameMemory l (l.record t w)) :
    (V.among t).guarantee l (l.record t w) ∧ V.Sane t n k (l.record t w) := by
  have mutationLock : w.mutation = l.world.mutation := by rw [shape]
  have memoryLock : w.memoryLock = l.world.memoryLock := by rw [shape]
  have kept : (V.among t).guarantee l (l.record t w) := by
    apply seen sane.custody trusted matched
    · intro location after
      exact (current location after).imp_right And.left
    · intro path there
      rw [shape] at there
      exact sane.custody.proper path there
    · intro location gone
      have missing := gone.2
      rw [content_rows shape] at missing
      rcases current location gone.1 with before | ⟨-, there⟩
      · exact .inl ⟨before, missing⟩
      · exact absurd missing there
    · exact raised
    · intro location bytes before
      refine (stays location before.1).imp_left fun after => ⟨after, ?_⟩
      rw [content_rows shape]
      exact before.2
    · intro u apart
      rw [mutationLock]
      exact mutation.elim (fun free => .inside free apart) .unchanged
    · intro u apart
      rw [memoryLock]
      rcases memory with deep | same
      · obtain ⟨depth, rfl⟩ := Nat.exists_eq_succ_of_ne_zero deep
        exact .inside sane.memory.admits apart
      · exact .unchanged same
  exact ⟨kept, sane.record kept.1 mutationLock memoryLock⟩

/-- The payloads and the pins are as before. -/
structure Gently (l l' : Ledger) : Prop where
  files : l'.world.files = l.world.files
  objects : l'.world.objects = l.world.objects
  memory : l'.world.memory = l.world.memory
  taken : l'.taken = l.taken

theorem seen_still {t n k : Nat} (sane : V.Sane t n k l)
    (shape : w = { l.world with store := w.store }) (trusted : w.store.Trusted)
    (pins : w.store.pins = l.world.store.pins)
    (current : ∀ location : BlockLocation, location.Current w → location.Current l.world ∨
      V.standard location ∧ V.content location l.world ≠ some none)
    (stays : ∀ location : BlockLocation, location.Current l.world → location.Current w ∨
      ∀ u, u ≠ t → l.taken u location.id ≤ 0)
    (mutation : l.world.mutation.admits t = true ∨ w.store.place = l.world.store.place)
    (memory : k ≠ 0 ∨ ∀ id, id.tier = .memory → w.store.place id = l.world.store.place id) :
    (V.among t).guarantee l (l.record t w) ∧ Gently l (l.record t w) ∧
      V.Sane t n k (l.record t w) := by
  have taken := taken_record_of_pins (l := l) (t := t) pins
  have gently : Gently l (l.record t w) :=
    ⟨by rw [Ledger.record, shape], by rw [Ledger.record, shape], by rw [Ledger.record, shape], taken⟩
  obtain ⟨kept, saner⟩ := seen_rows sane shape trusted
    (fun id => by rw [pins, sub_self, add_zero]; exact sane.custody.balanced.nonneg t id) current
    (fun location more => by rw [pins] at more; exact absurd more (lt_irrefl _)) stays
    (mutation.imp_right fun place => ⟨gently.files, gently.objects, place, le_of_eq taken⟩)
    (memory.imp_right fun place => ⟨gently.memory, place, fun v id _ => by rw [taken]⟩)
  exact ⟨kept, gently, saner⟩

theorem seen_unmoved {t n k : Nat} (sane : V.Sane t n k l)
    (shape : w = { l.world with store := w.store }) (trusted : w.store.Trusted)
    (pins : w.store.pins = l.world.store.pins) (place : w.store.place = l.world.store.place) :
    (V.among t).guarantee l (l.record t w) ∧ Mildly l (l.record t w) ∧
      V.Sane t n k (l.record t w) := by
  obtain ⟨kept, gently, saner⟩ := seen_still sane shape trusted pins
    (fun location after => .inl ((congrFun place _).symm.trans after))
    (fun location before => .inl ((congrFun place _).trans before)) (.inr place)
    (.inr fun id _ => congrFun place id)
  exact ⟨kept, ⟨⟨gently.files, gently.objects, gently.memory, place⟩, gently.taken⟩, saner⟩

end Vault

/-! ## Mild actions -/

/-- The action reads, or notes an access. -/
structure Act.Mild {β : Type} (action : Act β) : Prop where
  keeps : ∀ t c w x w', action t c w = some (x, w') → w.store.Trusted → w'.store.Trusted ∧
    w'.store.place = w.store.place ∧ w'.store.pins = w.store.pins ∧
      w' = { w with store := w'.store }

namespace Act

variable {β : Type}

theorem mild_observe (f : Choice → World → Except PyError β) : (observe f).Mild where
  keeps t c w x w' done trusted := by
    cases done
    exact ⟨trusted, rfl, rfl, rfl⟩

theorem mild_database {f : Choice → MetadataStore → Outcome β}
    (mild : ∀ c s, s.Trusted → (f c s).2.Trusted ∧ (f c s).2.place = s.place ∧ (f c s).2.pins = s.pins) :
    (database f).Mild where
  keeps t c w x w' done trusted := by
    rcases database_some done with ⟨-, -, rfl⟩ | ⟨-, ran, rest⟩
    · exact ⟨trusted, rfl, rfl, rfl⟩
    · have after := mild c w.store trusted
      rw [ran] at after
      exact ⟨after.1, after.2.1, after.2.2, rest⟩

theorem mild_read (f : Choice → MetadataStore → Except PyError β) :
    (database fun c s => (f c s, s)).Mild :=
  mild_database fun _ _ trusted => ⟨trusted, rfl, rfl⟩

theorem mild_validatePayloadDescriptor (m : KVMetadata) : (validatePayloadDescriptor m).Mild where
  keeps t c w x w' done := (mild_read _).keeps t c w x w' (exclusive_some done).2

theorem mild_touch (key : BlockKey) (tier : TierName) : (touch key tier).Mild := by
  refine mild_database fun c s trusted => ?_
  rcases s.touch_cases key tier c.clock with same | ⟨row, member, here, active, done⟩
  · rw [same]
    exact ⟨trusted, rfl, rfl⟩
  · rw [done]
    have change := Change.touch c.clock member active
    obtain ⟨after, pins⟩ := change.trusted trusted
    exact ⟨after, place_rewrite member (by rfl) (by rfl) (by rfl), pins⟩

theorem mild_stuck : stuck.Mild := ⟨fun _ _ _ _ _ done => by cases done⟩

end Act

namespace Vault

variable {V : Vault} {α β : Type} {t n k : Nat} {I : Ledger → Prop}

variable {l l' : Ledger} {c : Choice} {x : Except PyError Unit}

theorem step_mild {action : Act β} (mild : action.Mild) (sane : V.Sane t n k l)
    {x : Except PyError β} (done : auditing.exec t action c l = some (x, l')) :
    (V.among t).guarantee l l' ∧ Mildly l l' ∧ V.Sane t n k l' := by
  obtain ⟨w, ran, rfl⟩ := auditing_some done
  obtain ⟨trusted, place, pins, shape⟩ := mild.keeps t c l.world x w ran sane.custody.balanced.trusted
  exact seen_unmoved sane shape trusted pins place

/-! ## Programs -/

variable (V t n k) in
/-- Started in `I`, whatever the others do, the program respects them, leaves the locks as they
were, and ends in `Q`. -/
def Triple (I : Ledger → Prop) (p : Py α) (Q : Except PyError α → Ledger → Prop) : Prop :=
  ∀ l, V.Sane t n k l → I l → p.Safe (V.among t) (fun r l => V.Sane t n k l ∧ Q r l) l

/-- A condition on the results; an exception may leave anything. -/
def OnResult (R : α → Ledger → Prop) (r : Except PyError α) (l : Ledger) : Prop :=
  ∀ a, r = .ok a → R a l

/-- A condition that also holds after an exception, and one on the results. -/
def Always (J : Ledger → Prop) (R : α → Ledger → Prop) (r : Except PyError α) (l : Ledger) : Prop :=
  J l ∧ OnResult R r l

theorem Settled.onResult {R : α → Ledger → Prop} (settled : ∀ a, V.Settled t n k (R a))
    (r : Except PyError α) : V.Settled t n k (OnResult R r) :=
  fun l l' others sane holds a same => settled a l l' others sane (holds a same)

namespace Triple

variable {p : Py α} {J : Ledger → Prop} {Q Q' : Except PyError α → Ledger → Prop}
  {R R' : α → Ledger → Prop} {S : β → Ledger → Prop}

theorem weaken (triple : V.Triple t n k I p Q) (pre : ∀ l, J l → I l)
    (post : ∀ r l, Q r l → Q' r l) : V.Triple t n k J p Q' :=
  fun l sane holds => (triple l sane (pre l holds)).weaken fun r l after =>
    ⟨after.1, post r l after.2⟩

theorem pre (triple : V.Triple t n k I p Q) (stronger : ∀ l, J l → I l) : V.Triple t n k J p Q :=
  fun l sane holds => triple l sane (stronger l holds)

theorem known (fact : Prop) (tells : ∀ l, I l → fact) (triple : fact → V.Triple t n k I p Q) :
    V.Triple t n k I p Q :=
  fun l sane holds => triple (tells l holds) l sane holds

theorem anyway (triple : V.Triple t n k I p fun _ => J) : V.Triple t n k I p (Always J fun _ => J) :=
  triple.weaken (fun _ holds => holds) fun _ _ post => ⟨post, fun _ _ => post⟩

theorem ret {r : Except PyError α} (holds : ∀ l, I l → Q r l) (settled : V.Settled t n k (Q r)) :
    V.Triple t n k I (.ret r) Q :=
  fun l sane pre => Safe.ret ⟨sane, holds l pre⟩ settled.stable

theorem value {a : α} (holds : ∀ l, I l → R a l) (settled : V.Settled t n k (R a)) :
    V.Triple t n k I (.ret (.ok a)) (OnResult R) :=
  ret (fun l pre b same => by cases same; exact holds l pre) fun l l' others sane before b same => by
    cases same
    exact settled l l' others sane (before a rfl)

theorem error (e : PyError) : V.Triple t n k I (.ret (.error e) : Py α) (OnResult R) :=
  ret (fun l pre b same => by cases same) fun l l' others sane before b same => by cases same

theorem thenDo {next : Except PyError α → Py β} {Q : Except PyError β → Ledger → Prop}
    {P : Except PyError α → Ledger → Prop} (first : V.Triple t n k I p P)
    (rest : ∀ r, V.Triple t n k (P r) (next r) Q) :
    V.Triple t n k I (p.thenDo next) Q :=
  fun l sane pre => Safe.thenDo (first l sane pre) fun r l after => rest r l after.1 after.2

variable {next : α → Py β} {action : Act α}

theorem bind (first : V.Triple t n k I p (OnResult R))
    (rest : ∀ a, V.Triple t n k (R a) (next a) (OnResult S)) :
    V.Triple t n k I (p >>= next) (OnResult S) := by
  refine first.thenDo fun r => ?_
  cases r with
  | ok a => exact (rest a).pre fun l holds => holds a rfl
  | error e => exact error e

theorem results (triple : V.Triple t n k I p (Always J R)) : V.Triple t n k I p (OnResult R) :=
  triple.weaken (fun _ holds => holds) fun _ _ post => post.2

theorem valueAlways {a : α} (holds : ∀ l, I l → J l ∧ R a l) (settled : V.Settled t n k J)
    (after : V.Settled t n k (R a)) : V.Triple t n k I (.ret (.ok a)) (Always J R) := by
  refine ret (fun l pre => ⟨(holds l pre).1, fun b same => ?_⟩) fun l l' others sane before =>
    ⟨settled l l' others sane before.1, fun b same => ?_⟩
  · cases same
    exact (holds l pre).2
  · cases same
    exact after l l' others sane (before.2 a rfl)

theorem errorAlways {e : PyError} (holds : ∀ l, I l → J l) (settled : V.Settled t n k J) :
    V.Triple t n k I (.ret (.error e) : Py α) (Always J R) :=
  ret (fun l pre => ⟨holds l pre, fun b same => by cases same⟩)
    fun l l' others sane before => ⟨settled l l' others sane before.1, fun b same => by cases same⟩

theorem bindAlways (settled : V.Settled t n k J) (first : V.Triple t n k I p (Always J R))
    (rest : ∀ a, V.Triple t n k (R a) (next a) (Always J S)) :
    V.Triple t n k I (p >>= next) (Always J S) := by
  refine first.thenDo fun r => ?_
  cases r with
  | ok a => exact (rest a).pre fun l holds => holds.2 a rfl
  | error e => exact errorAlways (fun l holds => holds.1) settled

theorem handle {handler : PyError → Py α} (first : V.Triple t n k I p (OnResult R))
    (settled : ∀ a, V.Settled t n k (R a))
    (rest : ∀ e, V.Triple t n k (fun _ => True) (handler e) (OnResult R)) :
    V.Triple t n k I (p.handle handler) (OnResult R) := by
  refine first.thenDo fun r => ?_
  cases r with
  | ok a => exact value (fun l holds => holds a rfl) (settled a)
  | error e => exact (rest e).pre fun _ _ => trivial

theorem computed {x : Except PyError α}
    (rest : ∀ a, x = .ok a → V.Triple t n k I (next a) (OnResult S)) :
    V.Triple t n k I (lift x >>= next) (OnResult S) := by
  cases x with
  | ok a => exact rest a rfl
  | error e => exact error e

theorem computedAlways {x : Except PyError α} (holds : ∀ l, I l → J l) (settled : V.Settled t n k J)
    (rest : ∀ a, x = .ok a → V.Triple t n k I (next a) (Always J S)) :
    V.Triple t n k I (lift x >>= next) (Always J S) := by
  cases x with
  | ok a => exact rest a rfl
  | error e => exact errorAlways holds settled

theorem perform (settled : V.Settled t n k I) (after : ∀ r, V.Settled t n k (Q r))
    (step : ∀ l c x l', V.Sane t n k l → I l → auditing.exec t action c l = some (x, l') →
      (V.among t).guarantee l l' ∧ V.Sane t n k l' ∧ Q x l') :
    V.Triple t n k I (Prog.perform action) Q := by
  intro l sane pre
  refine Safe.act (fun l => V.Sane t n k l ∧ I l) ⟨sane, pre⟩ settled.stable ?_
  intro l c x l' holds _ done
  obtain ⟨kept, saner, post⟩ := step l c x l' holds.1 holds.2 done
  exact ⟨kept, Safe.ret ⟨saner, post⟩ (after x).stable⟩

theorem learn (mild : action.Mild) (settled : V.Settled t n k I)
    (after : ∀ r, V.Settled t n k (Q r))
    (tells : ∀ l c x l', V.Sane t n k l → I l → Mildly l l' →
      auditing.exec t action c l = some (x, l') → Q x l') :
    V.Triple t n k I (Prog.perform action) Q := by
  refine perform settled after fun l c x l' sane pre done => ?_
  obtain ⟨kept, mildly, saner⟩ := step_mild mild sane done
  exact ⟨kept, saner, tells l c x l' sane pre mildly done⟩

theorem mild (uses : p.Uses device fun action => action.Mild) (settled : V.Settled t n k I)
    (kept : ∀ l l', Mildly l l' → I l → I l') : V.Triple t n k I p fun _ => I := by
  intro l sane pre
  refine (Safe.of_makes (fun l => V.Sane t n k l ∧ I l)
    (Makes.on uses answers_auditing) ⟨sane, pre⟩ settled.stable ?_).weaken fun _ _ post => post.2
  intro β action l c x l' kind holds _ done
  obtain ⟨seen, mildly, saner⟩ := step_mild kind holds.1 done
  exact ⟨seen, saner, kept l l' mildly holds.2⟩

theorem looks (kind : action.Mild) (settled : V.Settled t n k I)
    (kept : ∀ l l', Mildly l l' → I l → I l') :
    V.Triple t n k I (Prog.perform action) (Always I fun _ => I) :=
  (mild (.perform kind) settled kept).anyway

theorem glances (kind : action.Mild) :
    V.Triple t n k (fun _ => True) (Prog.perform action) (OnResult fun _ _ => True) :=
  (looks kind (.const True) fun _ _ _ holds => holds).results

end Triple

/-! ## Passing the locks -/

theorem step_lockMutation (sane : V.Sane t n k l)
    (done : auditing.exec t Act.lockMutation c l = some (x, l')) :
    (V.among t).guarantee l l' ∧ Mildly l l' ∧
      ((∃ e, x = .error e) ∧ V.Sane t n k l' ∨ x = .ok () ∧ V.Sane t (n + 1) k l') := by
  obtain ⟨w, ran, rfl⟩ := auditing_some done
  unfold Act.lockMutation at ran
  split_ifs at ran with free closed
  · cases ran
    obtain ⟨kept, mildly⟩ := seen_locks sane l.world.mutation l.world.memoryLock
      (fun u _ _ holds => .unchanged holds) fun u _ _ holds => .unchanged holds
    exact ⟨kept, mildly, .inl ⟨⟨_, rfl⟩, kept.1, sane.mutation, sane.memory⟩⟩
  · cases ran
    obtain ⟨kept, mildly⟩ := seen_locks sane (l.world.mutation.enter t) l.world.memoryLock
      (fun u apart _ _ => .enter free apart) fun u _ _ holds => .unchanged holds
    exact ⟨kept, mildly, .inr ⟨rfl, kept.1, sane.mutation.enter free, sane.memory⟩⟩

theorem step_unlockMutation (sane : V.Sane t (n + 1) k l)
    (done : auditing.exec t Act.unlockMutation c l = some (x, l')) :
    (V.among t).guarantee l l' ∧ Mildly l l' ∧ x = .ok () ∧ V.Sane t n k l' := by
  obtain ⟨w, ran, rfl⟩ := auditing_some done
  cases ran
  obtain ⟨kept, mildly⟩ := seen_locks sane l.world.mutation.leave l.world.memoryLock
    (fun u apart _ _ => .leave sane.mutation apart) fun u _ _ holds => .unchanged holds
  exact ⟨kept, mildly, rfl, kept.1, sane.mutation.leave, sane.memory⟩

theorem step_lockMemory (sane : V.Sane t n k l)
    (done : auditing.exec t Act.lockMemory c l = some (x, l')) :
    (V.among t).guarantee l l' ∧ Mildly l l' ∧
      ((∃ e, x = .error e) ∧ V.Sane t n k l' ∨ x = .ok () ∧ V.Sane t n (k + 1) l') := by
  obtain ⟨w, ran, rfl⟩ := auditing_some done
  unfold Act.lockMemory at ran
  split_ifs at ran with free
  cases ran
  obtain ⟨kept, mildly⟩ := seen_locks sane l.world.mutation (l.world.memoryLock.enter t)
    (fun u _ _ holds => .unchanged holds) fun u apart _ _ => .enter free apart
  exact ⟨kept, mildly, .inr ⟨rfl, kept.1, sane.mutation, sane.memory.enter free⟩⟩

theorem step_unlockMemory (sane : V.Sane t n (k + 1) l)
    (done : auditing.exec t Act.unlockMemory c l = some (x, l')) :
    (V.among t).guarantee l l' ∧ Mildly l l' ∧ x = .ok () ∧ V.Sane t n k l' := by
  obtain ⟨w, ran, rfl⟩ := auditing_some done
  cases ran
  obtain ⟨kept, mildly⟩ := seen_locks sane l.world.mutation l.world.memoryLock.leave
    (fun u _ _ holds => .unchanged holds) fun u apart _ _ => .leave sane.memory apart
  exact ⟨kept, mildly, rfl, kept.1, sane.mutation, sane.memory.leave⟩

namespace Triple

variable {body : Py α} {R : α → Ledger → Prop}

theorem within {enter leave : Act Unit} {n' k' : Nat}
    (locks : ∀ {l l' c x}, V.Sane t n k l → auditing.exec t enter c l = some (x, l') →
      (V.among t).guarantee l l' ∧ Mildly l l' ∧
        ((∃ e, x = .error e) ∧ V.Sane t n k l' ∨ x = .ok () ∧ V.Sane t n' k' l'))
    (unlocks : ∀ {l l' c x}, V.Sane t n' k' l → auditing.exec t leave c l = some (x, l') →
      (V.among t).guarantee l l' ∧ Mildly l l' ∧ x = .ok () ∧ V.Sane t n k l')
    (inside : V.Triple t n' k' I body (OnResult R)) (settled : V.Settled t n k I)
    (kept : ∀ l l', Mildly l l' → I l → I l') (after : ∀ a, V.Settled t n k (R a))
    (deeper : ∀ a, V.Settled t n' k' (R a)) (left : ∀ a l l', Mildly l l' → R a l → R a l') :
    V.Triple t n k I (do Prog.perform enter; body.andFinally (Prog.perform leave)) (OnResult R) := by
  intro l sane holds
  refine Safe.act (fun l => V.Sane t n k l ∧ I l) ⟨sane, holds⟩ settled.stable ?_
  intro l c x l' holds _ done
  obtain ⟨seen, mildly, outcome⟩ := locks holds.1 done
  have still := kept l l' mildly holds.2
  refine ⟨seen, ?_⟩
  rcases outcome with ⟨⟨e, rfl⟩, saner⟩ | ⟨rfl, saner⟩
  · exact (error e : V.Triple t n k I _ (OnResult R)) l' saner still
  · change (body.andFinally (Prog.perform leave)).Safe (V.among t) _ l'
    refine Safe.thenDo (inside l' saner still) fun r l post => ?_
    refine Safe.act (fun l => V.Sane t n' k' l ∧ OnResult R r l) post (Settled.onResult deeper r).stable ?_
    intro l c x l' holds _ done
    obtain ⟨seen, mildly, rfl, saner⟩ := unlocks holds.1 done
    exact ⟨seen, Safe.ret ⟨saner, fun a same => left a l l' mildly (holds.2 a same)⟩
      (Settled.onResult after r).stable⟩

theorem withMutation (inside : V.Triple t (n + 1) k I body (OnResult R)) (settled : V.Settled t n k I)
    (kept : ∀ l l', Mildly l l' → I l → I l') (after : ∀ a, V.Settled t n k (R a))
    (deeper : ∀ a, V.Settled t (n + 1) k (R a)) (left : ∀ a l l', Mildly l l' → R a l → R a l') :
    V.Triple t n k I (KV.withMutation body) (OnResult R) :=
  within (fun sane done => step_lockMutation sane done)
    (fun sane done => step_unlockMutation sane done) inside settled kept after deeper left

theorem withMemoryLock (inside : V.Triple t n (k + 1) I body (OnResult R))
    (settled : V.Settled t n k I) (kept : ∀ l l', Mildly l l' → I l → I l')
    (after : ∀ a, V.Settled t n k (R a)) (deeper : ∀ a, V.Settled t n (k + 1) (R a))
    (left : ∀ a l l', Mildly l l' → R a l → R a l') :
    V.Triple t n k I (KV.withMemoryLock body) (OnResult R) :=
  within (fun sane done => step_lockMemory sane done)
    (fun sane done => step_unlockMemory sane done) inside settled kept after deeper left

end Triple

end Vault

/-! ## Taking rows away -/

/-- The action takes a row of the tier away, if nobody reads it. -/
structure Act.Removes {β : Type} (tier : TierName) (action : Act β) : Prop where
  keeps : ∀ t c w x w', action t c w = some (x, w') → w.store.Trusted →
    w.mutation.admits t = true ∧ w' = { w with store := w'.store } ∧ w'.store.Trusted ∧
      w'.store.pins = w.store.pins ∧
      (∀ id, w'.store.place id = w.store.place id ∨
        w.store.pins id = 0 ∧ ∀ uri, w'.store.place id ≠ some (.active, uri)) ∧
      ∀ id, id.tier ≠ tier → w'.store.place id = w.store.place id

namespace Act

variable {β : Type} (key : BlockKey) (tier : TierName)

theorem removes_exclusive {f : Choice → MetadataStore → Outcome β} {tier : TierName}
    (statement : Statement false tier false f) : (exclusive f).Removes tier where
  keeps t c w x w' done trusted := by
    obtain ⟨free, done⟩ := exclusive_some done
    refine ⟨free, ?_⟩
    have nothing : w' = w → w' = { w with store := w'.store } ∧ w'.store.Trusted ∧
        w'.store.pins = w.store.pins ∧
        (∀ id, w'.store.place id = w.store.place id ∨
          w.store.pins id = 0 ∧ ∀ uri, w'.store.place id ≠ some (.active, uri)) ∧
        ∀ id, id.tier ≠ tier → w'.store.place id = w.store.place id := by
      rintro rfl
      exact ⟨rfl, trusted, rfl, fun _ => .inl rfl, fun _ _ => rfl⟩
    rcases database_some done with ⟨-, -, same⟩ | ⟨-, ran, rest⟩
    · exact nothing same
    · rcases statement c w.store with same | ⟨op, same, silent, pins, -, id, here, inside⟩
      · rw [ran] at same
        refine nothing ?_
        rw [rest, show w'.store = w.store from same]
      · rw [ran] at same
        have result : w'.store = op.apply w.store := same
        obtain ⟨event, change, -, published, moved, row⟩ := op.change w.store
        have still : event.pins = false := by
          cases moves : event.pins with
          | false => rfl
          | true => cases pins (moved moves)
        have quiet : event.publishes = false := by
          cases publishes : event.publishes with
          | false => rfl
          | true => rw [silent] at published; cases published publishes
        obtain ⟨after, count⟩ := change.trusted trusted
        have left := change.place trusted quiet (fun reopened => by rw [reopened] at still; cases still)
        refine ⟨rest, by rw [result]; exact after, ?_, fun id => by rw [result]; exact left id, ?_⟩
        · rw [result, count, countAfter_of_still still]
        · intro other apart
          rw [result]
          rcases row with rfl | row
          · generalize op.apply w.store = unchanged at change
            cases change
            rfl
          · have frame := (change.frame (row.trans here)).1 other fun clash => apart (clash ▸ inside)
            exact congrArg (Option.map _) frame

theorem removes_delete : (delete key tier).Removes tier :=
  removes_exclusive fun _ _ => .inr ⟨.delete key tier, rfl, rfl, nofun, trivial, _, rfl, rfl⟩

theorem removes_beginDelete : (beginDelete key tier).Removes tier :=
  removes_exclusive fun _ _ => .inr ⟨.beginDelete key tier, rfl, rfl, nofun, trivial, _, rfl, rfl⟩

theorem removes_finishDelete : (finishDelete key tier).Removes tier :=
  removes_exclusive fun _ _ => .inr ⟨.finishDelete key tier, rfl, rfl, nofun, trivial, _, rfl, rfl⟩

end Act

namespace Vault

variable {V : Vault} {α β : Type} {t n k : Nat} {I : Ledger → Prop} {tier : TierName}

theorem step_removes {action : Act β} (removes : action.Removes tier) {l l' : Ledger}
    (sane : V.Sane t n k l) (own : tier = .memory → k ≠ 0) {c : Choice} {x : Except PyError β}
    (done : auditing.exec t action c l = some (x, l')) :
    (V.among t).guarantee l l' ∧ Gently l l' ∧ V.Sane t n k l' := by
  obtain ⟨w, ran, rfl⟩ := auditing_some done
  obtain ⟨free, shape, trusted, pins, left, others⟩ :=
    removes.keeps t c l.world x w ran sane.custody.balanced.trusted
  apply seen_still sane shape trusted pins
  · intro location after
    rcases left location.id with same | ⟨-, inactive⟩
    · exact .inl (same.symm.trans after)
    · exact absurd after (inactive _)
  · intro location before
    rcases left location.id with same | ⟨zero, -⟩
    · exact .inl (same.trans before)
    · refine .inr fun u _ => ?_
      have covered := sane.custody.balanced.held_le u location.id
      rw [zero] at covered
      exact covered
  · exact .inl free
  · by_cases here : tier = .memory
    · exact .inl (own here)
    · exact .inr fun id inside => others id fun same => here (same ▸ inside)

theorem Triple.removes {action : Act α} (removes : action.Removes tier) (own : tier = .memory → k ≠ 0)
    (settled : V.Settled t n k I) {Q : Except PyError α → Ledger → Prop}
    (after : ∀ r, V.Settled t n k (Q r))
    (tells : ∀ l c x l', V.Sane t n k l → V.Sane t n k l' → I l → Gently l l' →
      auditing.exec t action c l = some (x, l') → Q x l') :
    V.Triple t n k I (Prog.perform action) Q := by
  refine .perform settled after fun l c x l' sane pre done => ?_
  obtain ⟨kept, gently, saner⟩ := step_removes removes sane own done
  exact ⟨kept, saner, tells l c x l' sane saner pre gently done⟩

end Vault

/-! ## Taking a pin and giving it back -/

/-- The action pins the row if it says so, and otherwise changes nothing. -/
structure Act.Pins {β : Type} (id : RowId) (answer : Except PyError β → Prop) (action : Act β) :
    Prop where
  keeps : ∀ t c w x w', action t c w = some (x, w') → w.store.Trusted →
    w.mutation.admits t = true ∧ w' = { w with store := w'.store } ∧ w'.store.Trusted ∧
      w'.store.place = w.store.place ∧ (w'.store.pins = w.store.pins ∧ ¬answer x ∨
        w'.store.pins = countAfter w.store.pins (.pin id))

namespace Act

variable {β : Type} (key : BlockKey) (tier : TierName)

theorem pins_exclusive {id : RowId} {answer : Except PyError β → Prop}
    {f : Choice → MetadataStore → Outcome β} (fails : ∀ e, ¬answer (.error e))
    (pins : ∀ c s, ((f c s).2 = s ∧ ¬answer (f c s).1) ∨
      ∃ row ∈ s.blocks.rows, row.id = id ∧ row.state = .active ∧
        (f c s).2 = { s with blocks := s.blocks.set (s.pinned row) }) :
    (exclusive f).Pins id answer where
  keeps t c w x w' done trusted := by
    obtain ⟨free, done⟩ := exclusive_some done
    refine ⟨free, ?_⟩
    rcases database_some done with ⟨-, rfl, rfl⟩ | ⟨-, ran, rest⟩
    · exact ⟨rfl, trusted, rfl, .inl ⟨rfl, fails _⟩⟩
    · rcases pins c w.store with ⟨same, refused⟩ | ⟨row, member, here, active, raised⟩
      · rw [ran] at same refused
        have store : w'.store = w.store := same
        rw [store] at rest ⊢
        exact ⟨rest, trusted, rfl, .inl ⟨rfl, refused⟩⟩
      · rw [ran] at raised
        have store : w'.store = _ := raised
        obtain ⟨after, count⟩ := (Change.pin member active).trusted trusted
        rw [store] at rest ⊢
        rw [← here]
        exact ⟨rest, after, place_rewrite member (by rfl) (by rfl) (by rfl), .inr count⟩

theorem pins_acquire : (acquire key tier).Pins (key.row tier) (· = .ok true) := by
  refine pins_exclusive nofun fun c s => ?_
  rcases s.acquire_cases key tier with unchanged | ⟨row, member, here, active, done⟩
  · exact .inl unchanged
  · exact .inr ⟨row, member, here, active, by rw [done]⟩

theorem pins_lookupAndAcquire :
    (lookupAndAcquire key tier).Pins (key.row tier) (∃ location, · = .ok (some location)) := by
  refine pins_exclusive (fun e ⟨_, wrong⟩ => by cases wrong) fun c s => ?_
  rcases s.lookupAndAcquire_cases key tier with ⟨same, missed⟩ | ⟨row, member, here, active, done⟩
  · exact .inl ⟨same, fun ⟨location, found⟩ => missed location found⟩
  · exact .inr ⟨row, member, here, active, by rw [done]⟩

end Act

/-- The action lowers the counter of the row at most. -/
structure Act.Unpins {β : Type} (id : RowId) (action : Act β) : Prop where
  keeps : ∀ t c w x w', action t c w = some (x, w') → w.store.Trusted →
    w' = { w with store := w'.store } ∧ w'.store.Trusted ∧ w'.store.place = w.store.place ∧
      (w'.store.pins = w.store.pins ∨ w'.store.pins = countAfter w.store.pins (.unpin id))

theorem Act.unpins_release (key : BlockKey) (tier : TierName) :
    (release key tier).Unpins (key.row tier) where
  keeps t c w x w' done trusted := by
    rcases database_some done with ⟨-, -, rfl⟩ | ⟨-, ran, rest⟩
    · exact ⟨rfl, trusted, rfl, .inl rfl⟩
    · rcases w.store.release_cases key tier with ⟨same, -⟩ | ⟨row, member, here, own, freed⟩
      · rw [ran] at same
        have store : w'.store = w.store := same
        rw [store] at rest ⊢
        exact ⟨rest, trusted, rfl, .inl rfl⟩
      · rw [freed] at ran
        obtain ⟨after, count⟩ := (Change.unpin member own).trusted trusted
        have store := (Prod.mk.inj ran).2
        rw [← store] at rest ⊢
        exact ⟨rest, after, place_rewrite member (by rfl) (by rfl) (by rfl), .inr (by rw [count, here])⟩

theorem countAfter_unpin_le (count : RowId → Nat) (id other : RowId) :
    countAfter count (.unpin id) other ≤ count other := by
  by_cases here : other = id
  · rw [here, countAfter, Function.update_self]
    exact Nat.sub_le _ _
  · rw [countAfter, Function.update_of_ne here]

namespace Vault

variable {V : Vault} {α β : Type} {t n k : Nat} {I : Ledger → Prop} {tier : TierName}

variable (V) in
def Live (id : RowId) (l : Ledger) : Prop := ∀ location, location.id = id → ¬V.Lost location l.world

variable {l l' : Ledger} {c : Choice} {x : Except PyError Unit} {location : BlockLocation}

theorem step_pins {action : Act β} {id : RowId} {answer : Except PyError β → Prop}
    (pins : action.Pins id answer) (sane : V.Sane t n k l) (live : V.Live id l)
    (own : id.tier = .memory → k ≠ 0) {x : Except PyError β}
    (done : auditing.exec t action c l = some (x, l')) :
    (V.among t).guarantee l l' ∧ Calmly l l' ∧ V.Sane t n k l' ∧ (answer x → 0 < l'.taken t id) := by
  obtain ⟨w, ran, rfl⟩ := auditing_some done
  obtain ⟨free, shape, trusted, place, counts⟩ :=
    pins.keeps t c l.world x w ran sane.custody.balanced.trusted
  have calmly : Calmly l (l.record t w) :=
    ⟨by rw [Ledger.record, shape], by rw [Ledger.record, shape], by rw [Ledger.record, shape], place⟩
  have only : ∀ other, other ≠ id → w.store.pins other = l.world.store.pins other := by
    intro other apart
    rcases counts with ⟨same, -⟩ | raised
    · rw [same]
    · rw [raised, countAfter, Function.update_of_ne apart]
  have raised : ∀ other, l.world.store.pins other ≤ w.store.pins other := by
    intro other
    by_cases here : other = id
    · rcases counts with ⟨same, -⟩ | raised
      · rw [same]
      · rw [raised, here, countAfter, Function.update_self]
        exact Nat.le_succ _
    · rw [only other here]
  have kept : (V.among t).guarantee l (l.record t w) ∧ V.Sane t n k (l.record t w) := by
    apply seen_rows sane shape trusted
    · intro other
      have least := sane.custody.balanced.nonneg t other
      have more := raised other
      omega
    · intro location current
      exact .inl (calmly.current.mp current)
    · intro location more gone
      by_cases here : location.id = id
      · exact live location here (calmly.lost.mp gone)
      · rw [only _ here] at more
        exact lt_irrefl _ more
    · intro location current
      exact .inl (calmly.current.mpr current)
    · exact .inl free
    · by_cases here : id.tier = .memory
      · exact .inl (own here)
      · refine .inr ⟨calmly.memory, fun other _ => congrFun place other, fun v other inside => ?_⟩
        by_cases same : v = t
        · rw [same, l.taken_record, only other fun clash => here (clash ▸ inside)]
          omega
        · exact le_of_eq (congrFun (Function.update_of_ne same _ _) other)
  refine ⟨kept.1, calmly, kept.2, fun answered => ?_⟩
  rcases counts with ⟨-, refused⟩ | more
  · exact absurd answered refused
  · have least := sane.custody.balanced.nonneg t id
    rw [l.taken_record, more, countAfter, Function.update_self]
    omega

/-- A pin that the call holds may be given back. -/
theorem step_release {key : BlockKey} (sane : V.Sane t n k l)
    (matched : 0 < l.taken t (key.row tier) ∨ l.world.store.pins (key.row tier) = 0)
    (done : auditing.exec t (Act.release key tier) c l = some (x, l')) :
    (V.among t).guarantee l l' ∧ Calmly l l' ∧ V.Sane t n k l' := by
  obtain ⟨w, ran, rfl⟩ := auditing_some done
  have trusted := sane.custody.balanced.trusted
  obtain ⟨shape, after, place, counts⟩ := (Act.unpins_release key tier).keeps t c l.world x w ran trusted
  have calmly : Calmly l (l.record t w) :=
    ⟨by rw [Ledger.record, shape], by rw [Ledger.record, shape], by rw [Ledger.record, shape], place⟩
  have lowered : ∀ id, w.store.pins id ≤ l.world.store.pins id := by
    intro id
    rcases counts with same | less
    · rw [same]
    · rw [less]
      exact countAfter_unpin_le _ _ _
  have taken : (l.record t w).taken ≤ l.taken := by
    intro u id
    change (l.record t w).taken u id ≤ l.taken u id
    by_cases here : u = t
    · have less := lowered id
      rw [here, l.taken_record]
      omega
    · exact le_of_eq (congrFun (Function.update_of_ne here _ _) id)
  have kept : (V.among t).guarantee l (l.record t w) ∧ V.Sane t n k (l.record t w) := by
    apply seen_rows sane shape after
    · intro id
      have least := sane.custody.balanced.nonneg t id
      rcases counts with same | less
      · rw [same]
        omega
      · rw [less]
        by_cases here : id = key.row tier
        · rw [here] at least ⊢
          rw [countAfter, Function.update_self]
          omega
        · rw [countAfter, Function.update_of_ne here]
          omega
    · intro location current
      exact .inl (calmly.current.mp current)
    · intro location more
      exact absurd more (not_lt.mpr (lowered _))
    · intro location current
      exact .inl (calmly.current.mpr current)
    · exact .inr ⟨calmly.files, calmly.objects, place, taken⟩
    · exact .inr ⟨calmly.memory, fun id _ => congrFun place id, fun v id _ => taken v id⟩
  exact ⟨kept.1, calmly, kept.2⟩

/-! ## Publishing a row -/

theorem key_of_id {other : BlockLocation} (same : location.id = other.id) :
    location.key = other.key ∧ location.tier = other.tier := by
  obtain ⟨hash, space, tier⟩ := RowId.mk.inj same
  exact ⟨BlockKey.namespaceId_inj space (Subtype.ext hash), tier⟩

/-- A publication that is refused changes nothing; otherwise the row names the place. -/
theorem upsert_places {m : KVMetadata} {w w' : World} (trusted : w.store.Trusted)
    (done : Act.upsert location m t c w = some (x, w')) :
    w.mutation.admits t = true ∧ w' = { w with store := w'.store } ∧ w'.store.Trusted ∧
      w'.store.pins = w.store.pins ∧ (w'.store.place = w.store.place ∨
        w'.store.place location.id = some (.active, location.uri) ∧
          ∀ id, id ≠ location.id → w'.store.place id = w.store.place id) := by
  obtain ⟨free, ran⟩ := Act.exclusive_some done
  refine ⟨free, ?_⟩
  rcases Act.database_some ran with ⟨-, -, rfl⟩ | ⟨-, ran, rest⟩
  · exact ⟨rfl, trusted, rfl, .inl rfl⟩
  · rcases w.store.upsert_change c.readings location m with ⟨e, failed⟩ | ⟨row, accepted, ended⟩
    · rw [failed] at ran
      rw [← (Prod.mk.inj ran).2] at rest ⊢
      exact ⟨rest, trusted, rfl, .inl rfl⟩
    · rw [ended] at ran
      obtain ⟨after, count⟩ := (Change.publish accepted).trusted trusted
      have made := acceptUpsert_ok accepted
      have here : row.id = location.id := by rw [made.id, ← made.key]; rfl
      rw [← (Prod.mk.inj ran).2] at rest ⊢
      refine ⟨rest, after, count, .inr ⟨?_, fun id apart => place_set_of_ne fun same => ?_⟩⟩
      · rw [← here, place_set_self, made.state, made.uri]
      · exact apart (same.symm.trans here)

theorem step_upsert {m : KVMetadata} (sane : V.Sane t n k l) (own : location.tier = .memory → k ≠ 0)
    (moves : ∀ other : BlockLocation, other.id = location.id → other.Current l.world →
      other.uri = location.uri ∨ ∀ u, u ≠ t → l.taken u location.id ≤ 0)
    (there : V.content location l.world ≠ some none)
    (written : V.standard location)
    (done : auditing.exec t (Act.upsert location m) c l = some (x, l')) :
    (V.among t).guarantee l l' ∧ Gently l l' ∧ V.Sane t n k l' := by
  obtain ⟨w, ran, rfl⟩ := auditing_some done
  obtain ⟨free, shape, after, pins, place⟩ := upsert_places sane.custody.balanced.trusted ran
  apply seen_still sane shape after pins
  · intro other now
    rcases place with same | ⟨moved, others⟩
    · exact .inl ((congrFun same _).symm.trans now)
    · by_cases here : other.id = location.id
      · obtain ⟨key, tier⟩ := key_of_id here
        have uri : w.store.place other.id = some (.active, other.uri) := now
        rw [here, moved] at uri
        have uri : other.uri = location.uri := (Prod.mk.inj (Option.some.inj uri)).2.symm
        exact .inr ⟨V.spelled key tier uri written, by rw [V.place _ key tier uri]; exact there⟩
      · exact .inl ((others _ here).symm.trans now)
  · intro other before
    rcases place with same | ⟨moved, others⟩
    · exact .inl ((congrFun same _).trans before)
    · by_cases here : other.id = location.id
      · rcases moves other here before with uri | unread
        · refine .inl ?_
          unfold BlockLocation.Current
          rw [here, moved, uri]
        · exact .inr (by rw [here]; exact unread)
      · exact .inl ((others _ here).trans before)
  · exact .inl free
  · by_cases here : location.tier = .memory
    · exact .inl (own here)
    · refine .inr fun id inside => ?_
      rcases place with same | ⟨-, others⟩
      · exact congrFun same id
      · exact others id fun clash => here (by rw [clash] at inside; exact inside)

/-! ## Payloads -/

/-- Payloads change inside their locks: the payload of an active row stays as it is, unless it
was missing or no call has a pin on the row; outside of the memory tier it is not taken away. -/
theorem step_payload {w : World} (sane : V.Sane t n k l)
    (shape : w = { l.world with files := w.files, objects := w.objects, memory := w.memory, usedBytes := w.usedBytes })
    (proper : ∀ path, (w.files.get path).isSome = true → path.Resolved)
    (outside : n ≠ 0 ∨ w.files = l.world.files ∧ w.objects = l.world.objects)
    (inside : k ≠ 0 ∨ w.memory = l.world.memory)
    (kept : ∀ location, location.Current l.world → V.content location w = V.content location l.world ∨
      V.content location l.world = some none ∨
      (V.content location w ≠ some none ∨ location.tier = .memory) ∧ ∀ u, l.taken u location.id ≤ 0) :
    (V.among t).guarantee l (l.record t w) ∧ V.Sane t n k (l.record t w) ∧
      (l.record t w).taken = l.taken := by
  have store : w.store = l.world.store := by rw [shape]
  have mutation : w.mutation = l.world.mutation := by rw [shape]
  have memoryLock : w.memoryLock = l.world.memoryLock := by rw [shape]
  have taken : (l.record t w).taken = l.taken := taken_record_of_pins (by rw [store])
  have current : ∀ location : BlockLocation, location.Current w ↔ location.Current l.world := by
    intro location
    unfold BlockLocation.Current
    rw [store]
  have seen : (V.among t).guarantee l (l.record t w) := by
    apply seen sane.custody (by rw [store]; exact sane.custody.balanced.trusted)
    · intro id
      rw [store, sub_self, add_zero]
      exact sane.custody.balanced.nonneg t id
    · intro location after
      exact .inl ((current location).mp after)
    · exact proper
    · intro location gone
      have active := (current location).mp gone.1
      rw [taken]
      rcases kept location active with same | missing | ⟨there | here, unread⟩
      · exact .inl ⟨active, same.symm.trans gone.2⟩
      · exact .inl ⟨active, missing⟩
      · exact absurd gone.2 there
      · exact .inr ⟨here, unread⟩
    · intro location more
      rw [store] at more
      exact absurd more (lt_irrefl _)
    · intro location bytes before
      rcases kept location before.1 with same | missing | ⟨-, unread⟩
      · exact .inl ⟨(current location).mpr before.1, same.trans before.2⟩
      · cases missing.symm.trans before.2
      · exact .inr fun u _ => unread u
    · intro u apart
      rw [mutation]
      rcases outside with deep | ⟨files, objects⟩
      · obtain ⟨depth, rfl⟩ := Nat.exists_eq_succ_of_ne_zero deep
        exact .inside sane.mutation.admits apart
      · exact .unchanged ⟨files, objects, by rw [Ledger.record, store], le_of_eq taken⟩
    · intro u apart
      rw [memoryLock]
      rcases inside with deep | memory
      · obtain ⟨depth, rfl⟩ := Nat.exists_eq_succ_of_ne_zero deep
        exact .inside sane.memory.admits apart
      · exact .unchanged ⟨memory, fun id _ => by rw [Ledger.record, store], fun v id _ => by rw [taken]⟩
  exact ⟨seen, sane.record seen.1 mutation memoryLock, taken⟩

end Vault

end AiStorage.KV
