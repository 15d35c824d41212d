import AiStorage.Lib.Counts

/-!
# One subscriber of the event bus

`inMemorySubscriber` of `router/internal/cacheindex/eventbus.go`. Each operation is one atomic
step of the source. A panic of the Go runtime is an error, a step that has to wait is `none`.
-/
namespace AiStorage.Router
open Lib

inductive Panic
  | sendOnClosed
  | closeOfClosed
  | negativeCounter
  | addDuringWait
  deriving DecidableEq

/-- The progress of a `sync.Once`. -/
inductive Once
  | idle
  | running
  | finished
  deriving DecidableEq

structure Subscriber (μ : Type) where
  /-- Everything ever sent on `ch`, oldest first; the buffer holds what is not received. -/
  enqueued : List μ := []
  received : Nat := 0
  chClosed : Bool := false
  doneClosed : Bool := false
  closed : Bool := false
  senders : Nat := 0
  /-- Some goroutine is inside `senders.Wait`. -/
  waiting : Bool := false
  once : Once := .idle

/-- What a goroutine is to a subscriber: between `acquireSender` and `senders.Done`, or
at one of the steps inside `once.Do` of `close`. -/
inductive Role
  | sender
  | lock
  | wait
  | closeCh
  | leave
  deriving DecidableEq

namespace Subscriber

variable {μ : Type} (s : Subscriber μ)

def acquireSender : Except Panic (Bool × Subscriber μ) :=
  if s.closed then .ok (false, s)
  else if s.waiting && s.senders = 0 then .error .addDuringWait
  else .ok (true, { s with senders := s.senders + 1 })

/-- The send case of `select` is ready; on a closed channel it is, and panics. -/
def sendReady (cap : Nat) : Bool := s.chClosed || s.enqueued.length - s.received < cap

def send (message : μ) : Except Panic (Subscriber μ) :=
  if s.chClosed then .error .sendOnClosed else .ok { s with enqueued := s.enqueued ++ [message] }

def senderDone : Except Panic (Subscriber μ) :=
  if s.senders = 0 then .error .negativeCounter else .ok { s with senders := s.senders - 1 }

def receive : Option (Subscriber μ) :=
  if s.received < s.enqueued.length then some { s with received := s.received + 1 } else none

/-- The section under `s.mu` in `close`, up to the call of `Wait`. -/
def closeLocked : Except Panic (Subscriber μ) :=
  if s.doneClosed then .error .closeOfClosed
  else .ok { s with closed := true, doneClosed := true, waiting := true }

def closeWait : Option (Subscriber μ) :=
  if s.senders = 0 then some { s with waiting := false } else none

def closeChannel : Except Panic (Subscriber μ) :=
  if s.chClosed then .error .closeOfClosed else .ok { s with chClosed := true }

end Subscriber

/-! ## The life of a subscriber

Closing goes through six stages in order. The goroutine inside `once.Do` is the
only one with a role other than sender. -/

inductive Stage
  | idle
  | lock
  | wait
  | closeCh
  | leave
  | finished
  deriving DecidableEq

namespace Stage

def role : Stage → Option Role
  | .idle => none
  | .lock => some .lock
  | .wait => some .wait
  | .closeCh => some .closeCh
  | .leave => some .leave
  | .finished => none

theorem eq_of_role {stage other : Stage} {r : Role} (here : stage.role = some r)
    (there : other.role = some r) : stage = other := by
  cases stage <;> cases here <;> cases other <;> cases there <;> rfl

def once : Stage → Once
  | .idle => .idle
  | .finished => .finished
  | _ => .running

/-- Closing has begun: the flag is set and `done` is closed. -/
def begun : Stage → Bool
  | .idle => false
  | .lock => false
  | _ => true

def chClosed : Stage → Bool
  | .leave => true
  | .finished => true
  | _ => false

def drained : Stage → Bool
  | .closeCh => true
  | .leave => true
  | .finished => true
  | _ => false

end Stage

/-- The subscriber is at a stage, with so many goroutines in each role. -/
structure Subscriber.At {μ : Type} (s : Subscriber μ) (stage : Stage) (n : Role → Nat) : Prop where
  once : s.once = stage.once
  closed : s.closed = stage.begun
  done : s.doneClosed = stage.begun
  ch : s.chClosed = stage.chClosed
  waits : s.waiting = true → stage = .wait
  senders : s.senders = n .sender
  drained : stage.drained = true → n .sender = 0
  roles : ∀ r, r ≠ .sender → n r = hasRole stage.role r

/-- The counts after one goroutine changed its role. -/
def Moved (n n' : Role → Nat) (old new : Option Role) : Prop :=
  ∀ r, n' r + hasRole old r = n r + hasRole new r

namespace Subscriber.At

variable {μ : Type} {s : Subscriber μ} {stage : Stage} {n n' : Role → Nat}

theorem new : ({} : Subscriber μ).At .idle fun _ => 0 :=
  ⟨rfl, rfl, rfl, rfl, fun wrong => (by cases wrong), rfl, fun wrong => (by cases wrong), fun _ _ => rfl⟩

theorem stage_of_role (h : s.At stage n) {r : Role} (other : r ≠ .sender) (present : 0 < n r) :
    stage.role = some r := by
  rw [h.roles r other] at present
  unfold hasRole at present
  split_ifs at present with has
  · exact has
  · omega

theorem open_of_sender (h : s.At stage n) (present : 0 < n .sender) : s.chClosed = false := by
  have filled : stage.drained ≠ true := fun drained => by
    have := h.drained drained
    omega
  rw [h.ch]
  cases stage <;> first | rfl | exact absurd rfl filled

theorem roles_of_moved (h : s.At stage n) (next : Stage) (moved : Moved n n' stage.role next.role) :
    ∀ r, r ≠ .sender → n' r = hasRole next.role r := by
  intro r other
  have := moved r
  have := h.roles r other
  omega

theorem roles_of_sender (h : s.At stage n)
    (kept : ∀ r, r ≠ .sender → n' r = n r) : ∀ r, r ≠ .sender → n' r = hasRole stage.role r :=
  fun r other => (kept r other).trans (h.roles r other)

theorem moved_sender {old new : Option Role} (moved : Moved n n' old new)
    (apart : ∀ r, r ≠ Role.sender → hasRole old r = hasRole new r) : ∀ r, r ≠ Role.sender → n' r = n r := by
  intro r other
  have := moved r
  have := apart r other
  omega

theorem acquireSender_closed (h : s.At stage n) (begun : stage.begun = true) :
    s.acquireSender = .ok (false, s) := by
  rw [acquireSender, if_pos (h.closed.trans begun)]

theorem acquireSender_open (h : s.At stage n) (begun : stage.begun = false) :
    s.acquireSender = .ok (true, { s with senders := s.senders + 1 }) := by
  have idle : s.waiting = false := by
    by_contra waiting
    rw [h.waits (by simpa using waiting)] at begun
    cases begun
  simp [acquireSender, h.closed, begun, idle]

theorem acquired (h : s.At stage n) (begun : stage.begun = false)
    (moved : Moved n n' none (some .sender)) : At { s with senders := s.senders + 1 } stage n' := by
  have one := moved .sender
  simp only [hasRole_none, hasRole_self, Nat.add_zero] at one
  refine ⟨h.once, h.closed, h.done, h.ch, h.waits, ?_, ?_,
    h.roles_of_sender (moved_sender moved fun r other => ?_)⟩
  · rw [one, ← h.senders]
  · intro drained
    cases stage <;> simp [Stage.begun, Stage.drained] at begun drained
  · simp [hasRole, Ne.symm other]

theorem send_eq (h : s.At stage n) (present : 0 < n .sender) (message : μ) :
    s.send message = .ok { s with enqueued := s.enqueued ++ [message] } := by
  rw [Subscriber.send, h.open_of_sender present]
  rfl

theorem sent (h : s.At stage n) (message : μ) :
    At { s with enqueued := s.enqueued ++ [message] } stage n :=
  ⟨h.once, h.closed, h.done, h.ch, h.waits, h.senders, h.drained, h.roles⟩

theorem senderDone_eq (h : s.At stage n) (present : 0 < n .sender) :
    s.senderDone = .ok { s with senders := s.senders - 1 } := by
  have counted := h.senders
  exact if_neg (by omega)

theorem released (h : s.At stage n) (moved : Moved n n' (some .sender) none) :
    At { s with senders := s.senders - 1 } stage n' := by
  have counted := h.senders
  have one := moved .sender
  simp only [hasRole_none, hasRole_self, Nat.add_zero] at one
  refine ⟨h.once, h.closed, h.done, h.ch, h.waits, ?_, ?_,
    h.roles_of_sender (moved_sender moved fun r other => ?_)⟩
  · change s.senders - 1 = _
    omega
  · intro drained
    have := h.drained drained
    omega
  · simp [hasRole, Ne.symm other]

theorem receive (h : s.At stage n) {s' : Subscriber μ} (taken : s.receive = some s') :
    s'.At stage n := by
  unfold Subscriber.receive at taken
  split_ifs at taken
  cases taken
  exact ⟨h.once, h.closed, h.done, h.ch, h.waits, h.senders, h.drained, h.roles⟩

theorem sender_of_moved {old new : Option Role} (moved : Moved n n' old new)
    (oldOther : old ≠ some .sender) (newOther : new ≠ some .sender) : n' .sender = n .sender := by
  have := moved .sender
  simpa [hasRole, oldOther, newOther] using this

theorem onceBegin (h : s.At .idle n) (moved : Moved n n' none (some .lock)) :
    At { s with once := .running } .lock n' := by
  have same := sender_of_moved moved (by simp) (by simp)
  exact ⟨rfl, h.closed, h.done, h.ch, fun waiting => (by cases h.waits waiting), h.senders.trans same.symm,
    fun wrong => (by cases wrong), h.roles_of_moved .lock moved⟩

theorem closeLocked_eq (h : s.At .lock n) :
    s.closeLocked = .ok { s with closed := true, doneClosed := true, waiting := true } := by
  rw [Subscriber.closeLocked, h.done]
  rfl

theorem begun (h : s.At .lock n) (moved : Moved n n' (some .lock) (some .wait)) :
    At { s with closed := true, doneClosed := true, waiting := true } .wait n' := by
  have same := sender_of_moved moved (by simp) (by simp)
  exact ⟨h.once, rfl, rfl, h.ch, fun _ => rfl, h.senders.trans same.symm,
    fun wrong => (by cases wrong), h.roles_of_moved .wait moved⟩

theorem closeWait (h : s.At .wait n) {s' : Subscriber μ} (returned : s.closeWait = some s')
    (moved : Moved n n' (some .wait) (some .closeCh)) : s'.At .closeCh n' := by
  have same := sender_of_moved moved (by simp) (by simp)
  unfold Subscriber.closeWait at returned
  split_ifs at returned with none
  cases returned
  exact ⟨h.once, h.closed, h.done, h.ch, fun wrong => (by cases wrong), h.senders.trans same.symm,
    fun _ => (by rw [same, ← h.senders, none]), h.roles_of_moved .closeCh moved⟩

theorem closeChannel_eq (h : s.At .closeCh n) : s.closeChannel = .ok { s with chClosed := true } := by
  rw [Subscriber.closeChannel, h.ch]
  rfl

theorem chClosed (h : s.At .closeCh n) (moved : Moved n n' (some .closeCh) (some .leave)) :
    At { s with chClosed := true } .leave n' := by
  have same := sender_of_moved moved (by simp) (by simp)
  exact ⟨h.once, h.closed, h.done, rfl, fun waiting => (by cases h.waits waiting),
    h.senders.trans same.symm, fun _ => same.trans (h.drained rfl), h.roles_of_moved .leave moved⟩

theorem onceEnd (h : s.At .leave n) (moved : Moved n n' (some .leave) none) :
    At { s with once := .finished } .finished n' := by
  have same := sender_of_moved moved (by simp) (by simp)
  exact ⟨rfl, h.closed, h.done, h.ch, fun waiting => (by cases h.waits waiting),
    h.senders.trans same.symm, fun _ => same.trans (h.drained rfl), h.roles_of_moved .finished moved⟩

end Subscriber.At

end AiStorage.Router
