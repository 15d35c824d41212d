import AiStorage.KV.Calls

/-!
# Calls that run alone

A thread that nobody disturbs is never blocked by its own locks. Physical steps may fail and
leave the rows alone; the database answers unless a choice says otherwise.
-/
namespace AiStorage.KV
open Lib Prog MetadataStore

def Reliable (c : Choice) : Prop := c.dbFails = false

theorem never_broken {allowed : Choice → Prop} {P : Prop} (reliable : ∀ c, allowed c → Reliable c)
    (c : Choice) (choice : allowed c) (broken : c.dbFails = true) : P :=
  absurd ((reliable c choice).symm.trans broken) Bool.false_ne_true

structure World.Free (t : Nat) (w : World) : Prop where
  mutation : w.mutation.admits t = true
  memoryLock : w.memoryLock.admits t = true

def single (t : Nat) (allowed : Choice → Prop) (G : World → World → Prop) :
    Setting Act PyError World Choice :=
  .alone device t allowed G

theorem RLock.admits_enter {t : Nat} {lock : RLock} (_free : lock.admits t = true) :
    (lock.enter t).admits t = true := by
  rcases lock with - | ⟨u, depth⟩ <;> simp [RLock.enter, RLock.admits]

section Rules

variable {α β : Type} {t : Nat} {allowed : Choice → Prop} {G : World → World → Prop} {w : World}
  {Q : Except PyError α → World → Prop} {next : β → Py α}

theorem step_observe {f : Choice → World → Except PyError β} (kept : G w w)
    (ok : ∀ c, allowed c → ∀ b, f c w = .ok b → (next b).Total (single t allowed G) Q w)
    (failed : ∀ c, allowed c → ∀ e, f c w = .error e → Q (.error e) w) :
    (perform (Act.observe f) >>= next).Total (single t allowed G) Q w :=
  .step fun c choice => ⟨_, _, rfl, kept, ok c choice, failed c choice⟩

theorem step_onFiles {f : Choice → World → Except PyError β} (kept : G w w)
    (broken : ∀ c, allowed c → c.fails .file = true → Q (.error (.bare .osError)) w)
    (ok : ∀ c, allowed c → ∀ b, f c w = .ok b → (next b).Total (single t allowed G) Q w)
    (failed : ∀ c, allowed c → ∀ e, f c w = .error e → Q (.error e) w) :
    (perform (Act.onFiles f) >>= next).Total (single t allowed G) Q w := by
  refine step_observe kept (fun c choice b done => ?_) fun c choice e done => ?_
  · split_ifs at done
    exact ok c choice b done
  · split_ifs at done with fails
    · cases done
      exact broken c choice fails
    · exact failed c choice e done

theorem total_onFiles {f : Choice → World → Except PyError α} (kept : G w w)
    (broken : ∀ c, allowed c → c.fails .file = true → Q (.error (.bare .osError)) w)
    (done : ∀ c, allowed c → Q (f c w) w) :
    (perform (Act.onFiles f)).Total (single t allowed G) Q w := by
  refine .perform fun c choice => ⟨_, _, rfl, kept, ?_⟩
  dsimp only
  split_ifs with fails
  · exact broken c choice fails
  · exact done c choice

section Database

variable {f : Choice → MetadataStore → Outcome β} (free : w.mutation.admits t = true)
  (kept : ∀ c, allowed c → G w { w with store := (f c w.store).2 })
  (broken : ∀ c, allowed c → c.dbFails = true → G w w ∧ Q (.error (.bare .operationalError)) w)
  (ok : ∀ c, allowed c → ∀ b s, f c w.store = (.ok b, s) →
    (next b).Total (single t allowed G) Q { w with store := s })
  (failed : ∀ c, allowed c → ∀ e s, f c w.store = (.error e, s) → Q (.error e) { w with store := s })
include kept broken ok failed

theorem step_database :
    (perform (Act.database f) >>= next).Total (single t allowed G) Q w := by
  refine .step fun c choice => ?_
  cases refuses : c.dbFails with
  | true =>
    refine ⟨.error (.bare .operationalError), w, ?_, (broken c choice refuses).1, nofun, ?_⟩
    · change Act.database f t c w = _
      rw [Act.database, if_pos refuses]
    · rintro e ⟨⟩
      exact (broken c choice refuses).2
  | false =>
    refine ⟨(f c w.store).1, _, ?_, kept c choice, fun b same => ?_, fun e same => ?_⟩
    · change Act.database f t c w = _
      rw [Act.database, if_neg (by rw [refuses]; decide)]
    · exact ok c choice b _ (Prod.ext same rfl)
    · exact failed c choice e _ (Prod.ext same rfl)

include free in
theorem step_exclusive :
    (perform (Act.exclusive f) >>= next).Total (single t allowed G) Q w := by
  intro c choice
  obtain ⟨x, w', done, rest⟩ := step_database kept broken ok failed c choice
  refine ⟨x, w', ?_, rest⟩
  change Act.exclusive f t c w = _
  rw [Act.exclusive, if_pos free]
  exact done

end Database

theorem step_memoryPop {next : Unit → Py α} {key : BlockKey} {data : Bytes}
    (there : Act.held key w.memory = some data)
    (kept : G w { w with
      memory := Act.without key w.memory, usedBytes := w.usedBytes - data.length })
    (ok : (next ()).Total (single t allowed G) Q { w with
      memory := Act.without key w.memory, usedBytes := w.usedBytes - data.length }) :
    (perform (Act.memoryPop key) >>= next).Total (single t allowed G) Q w := by
  refine .step fun c choice => ⟨.ok (), _, ?_, kept, fun _ _ => ok, nofun⟩
  change Act.memoryPop key t c w = _
  unfold Act.memoryPop
  rw [there]

theorem total_withMutation {body : Py α} (free : w.mutation.admits t = true)
    (entered : G w { w with mutation := w.mutation.enter t })
    (refused : w.store.closed = true → G w w ∧ Q (.error mutationClosed) w)
    (run : w.store.closed = false → body.Total (single t allowed G)
      (fun r w' => w'.mutation = w.mutation.enter t ∧ G w' { w' with mutation := w.mutation } ∧
        Q r { w' with mutation := w.mutation }) { w with mutation := w.mutation.enter t }) :
    (withMutation body).Total (single t allowed G) Q w := by
  cases closed : w.store.closed with
  | true =>
    refine .step fun c choice => ⟨.error mutationClosed, w, ?_, (refused closed).1, nofun, ?_⟩
    · change Act.lockMutation t c w = _
      rw [Act.lockMutation, if_pos free, if_pos closed]
    · rintro e ⟨⟩
      exact (refused closed).2
  | false =>
    refine .step fun c choice => ⟨.ok (), _, ?_, entered, fun _ _ => ?_, nofun⟩
    · change Act.lockMutation t c w = _
      rw [Act.lockMutation, if_pos free, if_neg (by rw [closed]; decide)]
    · refine .andFinally (run closed) fun r w'' post => .perform fun c choice => ?_
      refine ⟨.ok (), { w'' with mutation := w.mutation }, ?_, post.2.1, fun _ => post.2.2, nofun⟩
      change Act.unlockMutation t c w'' = _
      rw [Act.unlockMutation, post.1, RLock.leave_enter free]

theorem total_withMemoryLock {body : Py α} (free : w.memoryLock.admits t = true)
    (entered : G w { w with memoryLock := w.memoryLock.enter t })
    (run : body.Total (single t allowed G)
      (fun r w' => w'.memoryLock = w.memoryLock.enter t ∧ G w' { w' with memoryLock := w.memoryLock } ∧
        Q r { w' with memoryLock := w.memoryLock }) { w with memoryLock := w.memoryLock.enter t }) :
    (withMemoryLock body).Total (single t allowed G) Q w := by
  refine .step fun c choice => ⟨.ok (), _, ?_, entered, fun _ _ => ?_, nofun⟩
  · change Act.lockMemory t c w = _
    rw [Act.lockMemory, if_pos free]
  · refine .andFinally run fun r w'' post => .perform fun c choice => ?_
    refine ⟨.ok (), { w'' with memoryLock := w.memoryLock }, ?_, post.2.1, fun _ => post.2.2, nofun⟩
    change Act.unlockMemory t c w'' = _
    rw [Act.unlockMemory, post.1, RLock.leave_enter free]

end Rules

def calmChoice : Choice where
  readings := ⟨.ofDecimal false 0 0, .ofDecimal false 0 0⟩
  clock := .ofDecimal false 0 0
  dbFails := false
  fails _ := false
  carriedOut := false
  ambiguous := false
  strict := false
  reason := []
  leftover := []
  bodyKind := .readable
  replies _ := .chunk 65536
  closeFails := false
  submission := .submitted

def brokenChoice : Choice := { calmChoice with fails := fun _ => true }

def emptyWorld : World where
  store := .create (text "owner")
  files := .empty
  objects := .empty
  memory := []
  usedBytes := 0
  mutation := none
  memoryLock := none

def World.after {α : Type} (w : World) (call : Py α) : World :=
  ((call.execute device 0 calmChoice w).map Prod.snd).getD w

theorem ends_after {α : Type} (w : World) (call : Py α)
    (ends : (call.execute device 0 calmChoice w).isSome = true) :
    ∃ r, call.Ends device 0 (fun _ => True) w r (w.after call) := by
  obtain ⟨⟨r, w'⟩, ran⟩ := Option.isSome_iff_exists.mp ends
  refine ⟨r, ?_⟩
  rw [World.after, ran]
  exact ends_of_execute trivial ran

def raised {α : Type} : Except PyError α → Option ErrorClass
  | .ok _ => none
  | .error e => some e.cls

theorem raised_eq_some {α : Type} {r : Except PyError α} {cls : ErrorClass} :
    raised r = some cls ↔ ∃ e, r = .error e ∧ e.cls = cls := by
  cases r <;> simp [raised]

def alone (t : Nat) : Setting Act PyError World Choice := single t Reliable fun _ _ => True

/-! ## Physical steps -/

structure OnlyPayloads (w w' : World) : Prop where
  store : w'.store = w.store
  mutation : w'.mutation = w.mutation
  memoryLock : w'.memoryLock = w.memoryLock

theorem OnlyPayloads.refl (w : World) : OnlyPayloads w w := ⟨rfl, rfl, rfl⟩

theorem OnlyPayloads.trans {w w' w'' : World} (first : OnlyPayloads w w')
    (second : OnlyPayloads w' w'') : OnlyPayloads w w'' :=
  ⟨second.store.trans first.store, second.mutation.trans first.mutation,
    second.memoryLock.trans first.memoryLock⟩

/-- The action never waits and changes nothing but payloads. -/
def Act.Physical {β : Type} (action : Act β) : Prop :=
  ∀ t c w, ∃ x w', action t c w = some (x, w') ∧ OnlyPayloads w w'

namespace Act

variable {β : Type}

theorem physical_observe (f : Choice → World → Except PyError β) : (observe f).Physical :=
  fun _ _ w => ⟨_, w, rfl, .refl w⟩

theorem physical_unlink (path : Path) : (unlink path).Physical := by
  intro t c w
  unfold unlink
  split_ifs <;> exact ⟨_, _, rfl, rfl, rfl, rfl⟩

theorem physical_deleteObject (objectKey : Text) : (deleteObject objectKey).Physical := by
  intro t c w
  unfold deleteObject
  split_ifs <;> exact ⟨_, _, rfl, rfl, rfl, rfl⟩

end Act

/-- A physical program ends, and what it changes are payloads of its tier. -/
theorem total_physical {α : Type} {p : Py α} {tier : TierName} {post : Except PyError α → Prop}
    {t : Nat} {allowed : Choice → Prop} {w : World}
    (physical : p.Makes device (fun action => action.Physical) post) (quiet : QuietIn tier p) :
    p.Total (single t allowed fun _ _ => True)
      (fun r w' => post r ∧ OnlyPayloads w w' ∧ Confined tier w w') w := by
  refine (Total.of_makes (fun w' => OnlyPayloads w w' ∧ Confined tier w w') (physical.and quiet)
    ⟨.refl w, .refl tier w⟩ ?_).mono fun r w' holds => ⟨holds.1.1, holds.2⟩
  rintro β action w₁ c ⟨kind, still⟩ ⟨payloads, confined⟩ choice
  obtain ⟨x, w₂, done, same⟩ := kind t c w₁
  obtain ⟨e, effect, -⟩ := still.effect t c w₁ x w₂ done
  exact ⟨x, w₂, done, trivial, payloads.trans same, confined.trans effect.confined⟩

end AiStorage.KV
