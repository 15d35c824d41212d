import AiStorage.Lib.Prog
import AiStorage.Lib.Runs

/-!
# Threads over a shared state

A schedule starts calls on threads, lets one thread perform its next action, or restarts the
system, which loses every running call. If each call is safe under what the other threads
guarantee, the invariant holds after every schedule.
-/
namespace AiStorage.Lib

variable {Act : Type → Type} {Call ε α σ χ ρ : Type}

structure Finished (Call ε α σ : Type) where
  thread : Nat
  call : Call
  result : Except ε α
  /-- The shared state when the call ended. -/
  state : σ

structure Machine (Call : Type) (Act : Type → Type) (ε α σ : Type) : Type 1 where
  state : σ
  running : Nat → Option (Call × Prog Act ε α)
  finished : List (Finished Call ε α σ)

inductive Event (Call χ ρ : Type) where
  | start (t : Nat) (call : Call)
  | step (t : Nat) (choice : χ)
  | restart (x : ρ)

def Event.thread : Event Call χ ρ → Option Nat
  | start t _ => some t
  | step t _ => some t
  | restart _ => none

structure System (Call : Type) (Act : Type → Type) (ε α σ χ ρ : Type) where
  device : Device Act ε σ χ
  program : Call → Prog Act ε α
  /-- The bookkeeping of a call that starts. -/
  enter : Nat → σ → σ
  restart : ρ → σ → σ

/-! ## Reentrant locks -/

/-- The holder of a lock, with the number of times it entered again. -/
abbrev RLock := Option (Nat × Nat)

namespace RLock

def admits (t : Nat) (lock : RLock) : Bool := lock.all fun held => held.1 = t

def enter (t : Nat) : RLock → RLock
  | none => some (t, 0)
  | some (_, depth) => some (t, depth + 1)

def leave : RLock → RLock
  | some (t, depth + 1) => some (t, depth)
  | _ => none

@[simp] theorem leave_enter {t : Nat} {lock : RLock} (free : lock.admits t = true) :
    (lock.enter t).leave = lock := by
  rcases lock with - | ⟨u, depth⟩
  · rfl
  · obtain rfl : u = t := by simpa [admits] using free
    rfl

def Depth (t : Nat) : Nat → RLock → Prop
  | 0, lock => ∀ again, lock ≠ some (t, again)
  | n + 1, lock => lock = some (t, n)

variable {t u n m : Nat} {lock lock' : RLock}

theorem depth_none (t : Nat) : Depth t 0 none := nofun

theorem Depth.admits (inside : Depth t (n + 1) lock) : lock.admits t = true := by
  cases inside
  simp [RLock.admits]

theorem depth_eq_zero (free : lock.admits t = true) (apart : u ≠ t) (depth : Depth u n lock) :
    n = 0 := by
  cases n with
  | zero => rfl
  | succ n =>
    cases depth
    exact absurd (by simpa [RLock.admits] using free) apart

theorem Depth.enter (free : lock.admits t = true) (depth : Depth t n lock) :
    Depth t (n + 1) (lock.enter t) := by
  cases n with
  | zero =>
    rcases lock with - | ⟨holder, again⟩
    · rfl
    · obtain rfl : holder = t := by simpa [RLock.admits] using free
      exact absurd rfl (depth again)
  | succ n =>
    cases depth
    rfl

theorem Depth.leave (depth : Depth t (n + 1) lock) : Depth t n lock.leave := by
  cases depth
  cases n with
  | zero => exact depth_none t
  | succ n => rfl

theorem outside_enter (apart : u ≠ t) : Depth u 0 (lock.enter t) := by
  rcases lock with - | ⟨holder, again⟩ <;> rintro - ⟨⟩ <;> exact apart rfl

theorem outside_leave (inside : Depth t (n + 1) lock) (apart : u ≠ t) : Depth u 0 lock.leave := by
  cases inside
  cases n with
  | zero => exact depth_none u
  | succ n =>
    rintro - ⟨⟩
    exact apart rfl

/-- A step of the others: the thread stays inside or outside, and while it is inside, what the
lock protects is sealed. -/
def Guards (u : Nat) (lock lock' : RLock) (intact : Prop) : Prop :=
  ∀ n, Depth u n lock → Depth u n lock' ∧ (n ≠ 0 → intact)

theorem Guards.unchanged {intact : Prop} (holds : intact) : Guards u lock lock intact :=
  fun _ depth => ⟨depth, fun _ => holds⟩

theorem Guards.inside {intact : Prop} (free : lock.admits t = true) (apart : u ≠ t) :
    Guards u lock lock intact :=
  fun _ depth => ⟨depth, fun some => absurd (depth_eq_zero free apart depth) some⟩

theorem Guards.enter {intact : Prop} (free : lock.admits t = true) (apart : u ≠ t) :
    Guards u lock (lock.enter t) intact := by
  intro n depth
  obtain rfl := depth_eq_zero free apart depth
  exact ⟨outside_enter apart, fun some => absurd rfl some⟩

theorem Guards.leave {intact : Prop} (inside : Depth t (n + 1) lock) (apart : u ≠ t) :
    Guards u lock lock.leave intact := by
  intro m depth
  obtain rfl := depth_eq_zero inside.admits apart depth
  exact ⟨outside_leave inside apart, fun some => absurd rfl some⟩

theorem Guards.trans {first second both : Prop} {lock'' : RLock} (one : Guards u lock lock' first)
    (two : Guards u lock' lock'' second) (joined : first → second → both) :
    Guards u lock lock'' both := by
  intro n depth
  obtain ⟨middle, left⟩ := one n depth
  obtain ⟨last, right⟩ := two n middle
  exact ⟨last, fun some => joined (left some) (right some)⟩

end RLock

/-! ## Schedules -/

namespace System

variable (S : System Call Act ε α σ χ ρ)

def boot (s : σ) : Machine Call Act ε α σ := ⟨s, fun _ => none, []⟩

def step (m : Machine Call Act ε α σ) : Event Call χ ρ → Machine Call Act ε α σ
  | .start t call =>
    match m.running t with
    | some _ => m
    | none =>
      { m with
        state := S.enter t m.state
        running := Function.update m.running t (some (call, S.program call)) }
  | .step t choice =>
    match m.running t with
    | none => m
    | some (call, .ret r) =>
      { m with
        running := Function.update m.running t none
        finished := ⟨t, call, r, m.state⟩ :: m.finished }
    | some (call, .act a next) =>
      match S.device.exec t a choice m.state with
      | none => m
      | some (x, s) =>
        { m with state := s, running := Function.update m.running t (some (call, next x)) }
  | .restart x => { m with state := S.restart x m.state, running := fun _ => none }

variable {S}

variable {m : Machine Call Act ε α σ} {event : Event Call χ ρ} {t : Nat} {call : Call}
  {p : Prog Act ε α}

theorem running_other (apart : event.thread ≠ some t)
    (there : (S.step m event).running t = some (call, p)) : m.running t = some (call, p) := by
  cases event with
  | start u started =>
    have here : t ≠ u := fun same => apart (congrArg some same.symm)
    simp only [step] at there
    split at there
    · exact there
    · simpa [here] using there
  | step u c =>
    have here : t ≠ u := fun same => apart (congrArg some same.symm)
    simp only [step] at there
    split at there
    · exact there
    · simpa [here] using there
    · split at there
      · exact there
      · simpa [here] using there
  | restart x => cases there

theorem running_own {c : χ} (there : (S.step m (.step t c)).running t = some (call, p)) :
    ∃ before, m.running t = some (call, before) := by
  simp only [step] at there
  split at there
  · exact ⟨p, there⟩
  · simp at there
  · next call' β a next busy =>
    split at there
    · exact ⟨p, there⟩
    · have same := (Prod.mk.inj (Option.some.inj (by simpa using there))).1
      exact ⟨_, by rw [busy, same]⟩

omit m event t call p in
theorem step_running {P : Call → Prog Act ε α → Prop} {event : Event Call χ ρ}
    (starts : ∀ t call, event = .start t call → P call (S.program call))
    (goes : ∀ call {β : Type} (a : Act β) next x, P call (.act a next) → S.device.Answers a x →
      P call (next x)) {m : Machine Call Act ε α σ}
    (before : ∀ t call p, m.running t = some (call, p) → P call p) :
    ∀ t call p, (S.step m event).running t = some (call, p) → P call p := by
  intro t call p there
  have update : ∀ {u now}, Function.update m.running u now t = some (call, p) →
      (∀ call' p', now = some (call', p') → P call' p') → P call p := by
    intro u now there holds
    by_cases here : t = u
    · subst here
      exact holds call p (by simpa using there)
    · exact before t call p (by simpa [here] using there)
  cases event with
  | start u call' =>
    simp only [step] at there
    split at there
    · exact before t call p there
    · refine update there fun call'' p' same => ?_
      cases same
      exact starts u call' rfl
  | step u choice =>
    simp only [step] at there
    split at there
    · exact before t call p there
    · exact update there nofun
    · next call' β a next busy =>
      split at there
      · exact before t call p there
      · next x s done =>
        refine update there fun call'' p' same => ?_
        cases same
        exact goes call' a next x (before u call' _ busy) ⟨u, choice, m.state, s, done⟩
  | restart x => cases there

end System

/-! ## Safety of all schedules -/

/-- What the threads rely on, and that each call keeps to it. -/
structure Discipline (S : System Call Act ε α σ χ ρ) where
  allowed : χ → Prop
  rely : Nat → σ → σ → Prop
  invariant : σ → Prop
  /-- The thread runs no call. -/
  idle : Nat → σ → Prop
  /-- The call promises nothing. -/
  lawless : Call → Prop
  post : Nat → Call → Except ε α → σ → Prop
  rely_refl : ∀ t s, rely t s s
  rely_trans : ∀ t {s s' s''}, rely t s s' → rely t s' s'' → rely t s s''
  idle_stable : ∀ t s s', rely t s s' → idle t s → idle t s'
  enter_keeps : ∀ t s, invariant s → idle t s →
    invariant (S.enter t s) ∧ idle t (S.enter t s) ∧ ∀ u, u ≠ t → rely u s (S.enter t s)
  restart_keeps : ∀ x s, invariant s → invariant (S.restart x s) ∧ ∀ t, idle t (S.restart x s)
  post_idle : ∀ t call r s, post t call r s → idle t s

namespace Discipline

variable {S : System Call Act ε α σ χ ρ} (D : Discipline S)

/-- What the others may see of a step. -/
def Seen (t : Nat) (s s' : σ) : Prop := D.invariant s' ∧ ∀ u, u ≠ t → D.rely u s s'

def setting (t : Nat) : Setting Act ε σ χ where
  device := S.device
  thread := t
  allowed := D.allowed
  rely := D.rely t
  guarantee := D.Seen t
  rely_refl := D.rely_refl t
  rely_trans := D.rely_trans t

/-- Every other call is safe from every state in which it can start. -/
def Respected : Prop :=
  ∀ t call s, ¬D.lawless call → D.invariant s → D.idle t s →
    (S.program call).Safe (D.setting t) (D.post t call) (S.enter t s)

structure Good (m : Machine Call Act ε α σ) : Prop where
  invariant : D.invariant m.state
  idle : ∀ t, m.running t = none → D.idle t m.state
  lawless : ∀ t call p, m.running t = some (call, p) → D.lawless call → D.idle t m.state
  running : ∀ t call p, m.running t = some (call, p) → ¬D.lawless call →
    p.Safe (D.setting t) (D.post t call) m.state
  finished : ∀ f ∈ m.finished, ¬D.lawless f.call → D.post f.thread f.call f.result f.state

/-- The event makes an allowed choice, and if it is a step of a lawless call, it happens to
keep to the discipline. -/
def Admits (m : Machine Call Act ε α σ) : Event Call χ ρ → Prop
  | .step t choice => D.allowed choice ∧ ∀ call p, m.running t = some (call, p) → D.lawless call →
      D.Seen t m.state (S.step m (.step t choice)).state ∧
        D.idle t (S.step m (.step t choice)).state
  | _ => True

variable {D} {m : Machine Call Act ε α σ}

theorem Good.move (good : D.Good m) (t : Nat) (now : Option (Call × Prog Act ε α)) {s : σ}
    (seen : D.Seen t m.state s) (rests : (∀ call p, now = some (call, p) → D.lawless call) → D.idle t s)
    (runs : ∀ call p, now = some (call, p) → ¬D.lawless call →
      p.Safe (D.setting t) (D.post t call) s) :
    D.Good { m with state := s, running := Function.update m.running t now } := by
  have others : ∀ u, u ≠ t → D.idle u m.state → D.idle u s := fun u apart =>
    D.idle_stable u m.state s (seen.2 u apart)
  refine ⟨seen.1, fun u none => ?_, fun u call p there free => ?_, fun u call p there bound => ?_,
    good.finished⟩
  · by_cases here : u = t
    · subst here
      have rest : now = .none := by simpa using none
      exact rests fun call p busy => by rw [rest] at busy; cases busy
    · exact others u here (good.idle u (by simpa [here] using none))
  · by_cases here : u = t
    · subst here
      have busy : now = some (call, p) := by simpa using there
      refine rests fun call' p' same => ?_
      rw [busy] at same
      cases same
      exact free
    · exact others u here (good.lawless u call p (by simpa [here] using there) free)
  · by_cases here : u = t
    · subst here
      exact runs call p (by simpa using there) bound
    · have before : m.running u = some (call, p) := by simpa [here] using there
      exact (good.running u call p before bound).stable (seen.2 u here)

theorem Good.step (respected : D.Respected) (good : D.Good m) {event : Event Call χ ρ}
    (admitted : D.Admits m event) : D.Good (S.step m event) := by
  cases event with
  | start t call =>
    simp only [System.step]
    cases busy : m.running t with
    | some _ => exact good
    | none =>
      have idle := good.idle t busy
      obtain ⟨kept, rests, seen⟩ := D.enter_keeps t m.state good.invariant idle
      refine good.move t _ ⟨kept, seen⟩ (fun _ => rests) fun call' p same bound => ?_
      obtain ⟨rfl, rfl⟩ := Prod.mk.inj (Option.some.inj same)
      exact respected t call m.state bound good.invariant idle
  | step t choice =>
    obtain ⟨allowed, kept⟩ := admitted
    simp only [System.step] at kept ⊢
    split
    · exact good
    · next call r busy =>
      have same : D.Seen t m.state m.state := ⟨good.invariant, fun u _ => D.rely_refl u _⟩
      by_cases free : D.lawless call
      · have moved := good.move t none same (fun _ => good.lawless t call _ busy free)
          fun _ _ wrong => by cases wrong
        exact ⟨moved.invariant, moved.idle, moved.lawless, moved.running,
          List.forall_mem_cons.mpr ⟨fun bound => absurd free bound, good.finished⟩⟩
      · have post := good.running t call _ busy free m.state (D.rely_refl t _)
        have moved := good.move t none same (fun _ => D.post_idle t call r _ post)
          fun _ _ wrong => by cases wrong
        exact ⟨moved.invariant, moved.idle, moved.lawless, moved.running,
          List.forall_mem_cons.mpr ⟨fun _ => post, good.finished⟩⟩
    · next call β a next busy =>
      split
      · exact good
      · next x s done =>
        have now : ∀ {call' p}, some (call, next x) = some (call', p) → call' = call ∧ p = next x := by
          rintro call' p ⟨⟩
          exact ⟨rfl, rfl⟩
        by_cases free : D.lawless call
        · have harmless := kept call _ busy free
          rw [busy] at harmless
          simp only [done] at harmless
          refine good.move t _ harmless.1 (fun _ => harmless.2) fun call' p same bound => ?_
          rw [(now same).1] at bound
          exact absurd free bound
        · obtain ⟨seen, later⟩ :=
            good.running t call _ busy free m.state (D.rely_refl t _) choice allowed x s done
          refine good.move t _ seen (fun all => absurd (all _ _ rfl) free) fun call' p same _ => ?_
          obtain ⟨rfl, rfl⟩ := now same
          exact later
  | restart x =>
    obtain ⟨kept, rests⟩ := D.restart_keeps x m.state good.invariant
    exact ⟨kept, fun t _ => rests t, fun t _ _ _ _ => rests t, fun t call p there => (by cases there),
      good.finished⟩

/-- The others see every event of a thread as one they rely on. -/
theorem Good.seen (good : D.Good m) {event : Event Call χ ρ} (admitted : D.Admits m event) {t : Nat}
    (acts : event.thread = some t) : D.Seen t m.state (S.step m event).state := by
  have same : D.Seen t m.state m.state := ⟨good.invariant, fun u _ => D.rely_refl u _⟩
  cases event with
  | start u call =>
    cases acts
    simp only [System.step]
    cases busy : m.running t with
    | some _ => exact same
    | none =>
      obtain ⟨kept, -, seen⟩ := D.enter_keeps t m.state good.invariant (good.idle t busy)
      exact ⟨kept, seen⟩
  | step u choice =>
    cases acts
    obtain ⟨allowed, kept⟩ := admitted
    cases busy : m.running t with
    | none =>
      simp only [System.step, busy]
      exact same
    | some running =>
      obtain ⟨call, p⟩ := running
      by_cases free : D.lawless call
      · exact (kept call p busy free).1
      · cases p with
        | ret r =>
          simp only [System.step, busy]
          exact same
        | act a next =>
          simp only [System.step, busy]
          cases done : S.device.exec t a choice m.state with
          | none => exact same
          | some result =>
            exact (good.running t call _ busy free m.state (D.rely_refl t _) choice allowed _ _ done).1
  | restart x => cases acts

theorem good_boot {s : σ} (initial : D.invariant s) (rests : ∀ t, D.idle t s) :
    D.Good (System.boot s : Machine Call Act ε α σ) :=
  ⟨initial, fun t _ => rests t, fun t _ _ _ _ => rests t, fun t call p there => (by cases there),
    List.forall_mem_nil _⟩

end Discipline

end AiStorage.Lib
