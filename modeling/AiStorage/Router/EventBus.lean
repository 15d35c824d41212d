import AiStorage.Lib.Runs
import AiStorage.Router.CacheIndex
import AiStorage.Router.Subscriber

/-!
# The in-memory event bus

`InMemoryBus` of `router/internal/cacheindex/eventbus.go` with any number of goroutines. The
sections under `b.mu` and under a subscriber's `mu` hold no blocking operation and are one step
each. A schedule chooses who moves, which ready case a `select` takes, the order in which a map
is ranged over, when a context is cancelled and when a consumer reads.
-/
namespace AiStorage.Router.EventBus
open Lib

structure Message where
  publication : Nat
  event : Event
  deriving DecidableEq

inductive PublishError
  | busClosed
  | cancelled
  deriving DecidableEq

/-- Where a goroutine goes on after `close` of a subscriber has returned. -/
inductive After
  | subscribeFailed
  | subscribing (ctx : Nat) (name : String) (sub : Nat)
  | watcher
  | closeAll (rest : List Nat)

inductive PC
  | publish (ctx : Nat) (event : Event)
  /-- At the head of the loop of `Publish`. -/
  | publishing (ctx : Nat) (event : Event) (snapshot rest : List Nat)
  /-- In the `select`, counted as a sender. -/
  | sending (ctx : Nat) (event : Event) (snapshot : List Nat) (sub : Nat) (rest : List Nat)
  /-- Before `senders.Done` and the next round. -/
  | releasing (ctx : Nat) (event : Event) (snapshot : List Nat) (sub : Nat) (rest : List Nat)
  /-- Before `senders.Done` and `return ctx.Err()`. -/
  | aborting (sub : Nat)
  | published (snapshot : List Nat)
  | publishFailed (reason : PublishError)
  | subscribe (ctx : Nat) (name : String)
  /-- Before the `go` statement. -/
  | subscribing (ctx : Nat) (name : String) (sub : Nat)
  | subscribed (sub : Nat)
  | subscribeFailed
  /-- The goroutine of a subscription, in its `select`. -/
  | watch (ctx : Nat) (name : String) (sub : Nat)
  | removing (name : String) (sub : Nat)
  | closeBus
  | closeAll (rest : List Nat)
  /-- In `close` of a subscriber; `idle` is the call of `once.Do`. -/
  | closing (sub : Nat) (stage : Stage) (after : After)
  | finished

def After.resume : After → PC
  | .subscribeFailed => .subscribeFailed
  | .subscribing ctx name sub => .subscribing ctx name sub
  | .watcher => .finished
  | .closeAll rest => .closeAll rest

/-- What the goroutine is to a subscriber. -/
def PC.role (i : Nat) : PC → Option Role
  | .sending _ _ _ sub _ => if sub = i then some .sender else none
  | .releasing _ _ _ sub _ => if sub = i then some .sender else none
  | .aborting sub => if sub = i then some .sender else none
  | .closing sub stage _ => if sub = i then stage.role else none
  | _ => none

structure Bus where
  bufferSize : Nat
  closed : Bool := false
  subs : GoMap String Nat := ∅
  /-- Subscribers by number; those from `next` on are not created yet. -/
  table : Nat → Subscriber Message := fun _ => {}
  next : Nat := 0
  cancelled : List Nat := []
  threads : List PC := []
  panic : Option Panic := none

def Bus.new (bufferSize : Int) : Bus where
  bufferSize := if bufferSize ≤ 0 then 16 else bufferSize.toNat

/-- How a goroutine with several ways to go on goes on. -/
inductive Choice
  | go
  | order (subs : List Nat)
  | send
  | done
  | ctx
  deriving DecidableEq

namespace Bus

variable (b : Bus)

def goto (t : Nat) (pc : PC) : Bus := { b with threads := b.threads.set t pc }

def put (i : Nat) (s : Subscriber Message) : Bus := { b with table := Function.update b.table i s }

def operate (t i : Nat) (result : Except Panic (Subscriber Message)) (pc : PC) : Bus :=
  match result with
  | .ok s => (b.put i s).goto t pc
  | .error panic => { b with panic := some panic }

def values : List Nat := b.subs.entries.map (·.2)

/-- One round of the loop of `Publish`, up to the `select`. -/
def acquire (t ctx : Nat) (event : Event) (snapshot : List Nat) (sub : Nat) (rest : List Nat) : Bus :=
  match (b.table sub).acquireSender with
  | .ok (true, s) => (b.put sub s).goto t (.sending ctx event snapshot sub rest)
  | .ok (false, _) => b.goto t (.publishing ctx event snapshot rest)
  | .error panic => { b with panic := some panic }

def register (t ctx : Nat) (name : String) : Bus :=
  let sub := b.next
  let b := { b with next := sub + 1 }
  if b.closed then b.goto t (.closing sub .idle .subscribeFailed)
  else
    let old := b.subs.lookup name
    let b := { b with subs := b.subs.insert name sub }
    match old with
    | some old => b.goto t (.closing old .idle (.subscribing ctx name sub))
    | none => b.goto t (.subscribing ctx name sub)

def unregister (name : String) (sub : Nat) : Bus :=
  if b.subs.lookup name = some sub then { b with subs := b.subs.erase name } else b

/-- One step inside `close`; `none` waits. -/
def closeStep (t sub : Nat) (after : After) : Stage → Option Bus
  | .idle =>
    match (b.table sub).once with
    | .idle =>
      some ((b.put sub { b.table sub with once := .running }).goto t (.closing sub .lock after))
    | .running => none
    | .finished => some (b.goto t after.resume)
  | .lock => some (b.operate t sub (b.table sub).closeLocked (.closing sub .wait after))
  | .wait => (b.table sub).closeWait.map fun s => (b.put sub s).goto t (.closing sub .closeCh after)
  | .closeCh => some (b.operate t sub (b.table sub).closeChannel (.closing sub .leave after))
  | .leave => some ((b.put sub { b.table sub with once := .finished }).goto t after.resume)
  | .finished => none

/-- One step of goroutine `t`; `none` if it cannot take the choice now. -/
def advance (t : Nat) : PC → Choice → Option Bus
  | .publish ctx event, .order subs =>
    if b.closed then some (b.goto t (.publishFailed .busClosed))
    else if subs.isPerm b.values then some (b.goto t (.publishing ctx event subs subs)) else none
  | .publishing _ _ snapshot [], .go => some (b.goto t (.published snapshot))
  | .publishing ctx event snapshot (sub :: rest), .go => some (b.acquire t ctx event snapshot sub rest)
  | .sending ctx event snapshot sub rest, .send =>
    if (b.table sub).sendReady b.bufferSize then
      some (b.operate t sub ((b.table sub).send ⟨t, event⟩) (.releasing ctx event snapshot sub rest))
    else none
  | .sending ctx event snapshot sub rest, .done =>
    if (b.table sub).doneClosed then some (b.goto t (.releasing ctx event snapshot sub rest)) else none
  | .sending ctx _ _ sub _, .ctx =>
    if ctx ∈ b.cancelled then some (b.goto t (.aborting sub)) else none
  | .releasing ctx event snapshot sub rest, .go =>
    some (b.operate t sub (b.table sub).senderDone (.publishing ctx event snapshot rest))
  | .aborting sub, .go =>
    some (b.operate t sub (b.table sub).senderDone (.publishFailed .cancelled))
  | .subscribe ctx name, .go => some (b.register t ctx (if name = "" then "default" else name))
  | .subscribing ctx name sub, .go =>
    some { b with threads := b.threads.set t (.subscribed sub) ++ [.watch ctx name sub] }
  | .watch ctx name sub, .ctx =>
    if ctx ∈ b.cancelled then some (b.goto t (.removing name sub)) else none
  | .watch _ _ sub, .done => if (b.table sub).doneClosed then some (b.goto t .finished) else none
  | .removing name sub, .go => some ((b.unregister name sub).goto t (.closing sub .idle .watcher))
  | .closeBus, .order subs =>
    if b.closed then some (b.goto t .finished)
    else if subs.isPerm b.values then
      some ({ b with closed := true, subs := ∅ }.goto t (.closeAll subs))
    else none
  | .closeAll [], .go => some (b.goto t .finished)
  | .closeAll (sub :: rest), .go => some (b.goto t (.closing sub .idle (.closeAll rest)))
  | .closing sub stage after, .go => b.closeStep t sub after stage
  | _, _ => none

end Bus

/-- What happens next anywhere in the system. -/
inductive Tick
  | publish (ctx : Nat) (event : Event)
  | subscribe (ctx : Nat) (name : String)
  | close
  | run (t : Nat) (choice : Choice)
  | cancel (ctx : Nat)
  | receive (sub : Nat)

def Bus.step (b : Bus) : Tick → Option Bus
  | .publish ctx event => some { b with threads := b.threads ++ [.publish ctx event] }
  | .subscribe ctx name => some { b with threads := b.threads ++ [.subscribe ctx name] }
  | .close => some { b with threads := b.threads ++ [.closeBus] }
  | .run t choice => b.threads[t]?.bind fun pc => b.advance t pc choice
  | .cancel ctx => some { b with cancelled := ctx :: b.cancelled }
  | .receive sub => (b.table sub).receive.map fun s => b.put sub s

/-- A step that cannot be taken leaves the bus as it is. -/
def Bus.tick (b : Bus) (event : Tick) : Bus := (b.step event).getD b

/-! ## The invariant -/

namespace Bus

variable (b : Bus)

def roles (i : Nat) (r : Role) : Nat := countRole (PC.role i) b.threads r

def copies (t i : Nat) : Nat := (b.table i).enqueued.countP fun m => m.publication = t

/-- The subscriber got its copy, or its closing has begun. -/
def Delivered (t i : Nat) : Prop := b.copies t i = 1 ∨ (b.table i).closed = true

/-- The subscribers of the snapshot before `rest` are served, those in `rest` are not. -/
structure Halfway (t : Nat) (snapshot rest : List Nat) : Prop where
  distinct : snapshot.Nodup
  suffix : rest <:+ snapshot
  served : ∀ i ∈ snapshot, i ∉ rest → b.Delivered t i
  fresh : ∀ i ∈ rest, b.copies t i = 0

/-- What goroutine `t` has delivered so far. -/
def Progress (t : Nat) : PC → Prop
  | .publish _ _ => ∀ i, b.copies t i = 0
  | .publishing _ _ snapshot rest => b.Halfway t snapshot rest
  | .sending _ _ snapshot sub rest => b.Halfway t snapshot (sub :: rest)
  | .releasing _ _ snapshot _ rest => b.Halfway t snapshot rest
  | .published snapshot => ∀ i ∈ snapshot, b.Delivered t i
  | _ => True

structure Inv : Prop where
  calm : b.panic = none
  staged : ∀ i, ∃ stage, (b.table i).At stage (b.roles i)
  /-- One name for each subscriber, and only for those already made. -/
  named : b.values.Nodup ∧ ∀ i ∈ b.values, i < b.next
  stamped : ∀ i, ∀ m ∈ (b.table i).enqueued, m.publication < b.threads.length
  progress : ∀ (t : Nat) (pc : PC), b.threads[t]? = some pc → b.Progress t pc

end Bus

section Progress

variable {b b' : Bus} {t : Nat}

theorem Bus.Delivered.mono {i : Nat} (copies : b'.copies t i = b.copies t i)
    (closed : (b.table i).closed = true → (b'.table i).closed = true) (h : b.Delivered t i) :
    b'.Delivered t i :=
  h.imp (copies.trans) closed

theorem Bus.Halfway.mono {snapshot rest : List Nat} (copies : ∀ i, b'.copies t i = b.copies t i)
    (closed : ∀ i, (b.table i).closed = true → (b'.table i).closed = true)
    (h : b.Halfway t snapshot rest) : b'.Halfway t snapshot rest where
  distinct := h.distinct
  suffix := h.suffix
  served i member outside := (h.served i member outside).mono (copies i) (closed i)
  fresh i member := (copies i).trans (h.fresh i member)

theorem Bus.Progress.mono {pc : PC} (copies : ∀ i, b'.copies t i = b.copies t i)
    (closed : ∀ i, (b.table i).closed = true → (b'.table i).closed = true)
    (h : b.Progress t pc) : b'.Progress t pc := by
  cases pc with
  | publish ctx event => exact fun i => (copies i).trans (h i)
  | publishing ctx event snapshot rest | sending ctx event snapshot sub rest =>
    exact Halfway.mono copies closed h
  | releasing ctx event snapshot sub rest => exact Halfway.mono copies closed h
  | published snapshot => exact fun i member => (h i member).mono (copies i) (closed i)
  | _ => trivial

theorem Bus.Progress.of_table {pc : PC} (same : b'.table = b.table) (h : b.Progress t pc) :
    b'.Progress t pc :=
  h.mono (fun i => by rw [Bus.copies, Bus.copies, same]) fun i => by rw [same]; exact id

theorem Bus.Halfway.next {snapshot rest : List Nat} {sub : Nat} (h : b.Halfway t snapshot (sub :: rest))
    (copies : ∀ i, i ≠ sub → b'.copies t i = b.copies t i)
    (closed : ∀ i, (b.table i).closed = true → (b'.table i).closed = true)
    (delivered : b'.Delivered t sub) : b'.Halfway t snapshot rest where
  distinct := h.distinct
  suffix := (List.suffix_cons sub rest).trans h.suffix
  served i member outside := by
    by_cases same : i = sub
    · rw [same]
      exact delivered
    · exact (h.served i member (by simp [same, outside])).mono (copies i same) (closed i)
  fresh i member := by
    have distinct := h.distinct.sublist h.suffix.sublist
    have other : i ≠ sub := fun same => (List.nodup_cons.mp distinct).1 (same ▸ member)
    rw [copies i other]
    exact h.fresh i (.tail sub member)

end Progress

/-! ## Moves of one goroutine -/

section Move

variable {b : Bus} {t : Nat} {pc pc' : PC}

theorem moved_set (here : b.threads[t]? = some pc) (i : Nat) :
    Moved (b.roles i) (fun r => countRole (PC.role i) (b.threads.set t pc') r) (pc.role i)
      (pc'.role i) :=
  fun r => countRole_set (PC.role i) here pc' r

theorem Bus.Inv.goto (inv : b.Inv) (here : b.threads[t]? = some pc) {closed : Bool}
    {subs : GoMap String Nat} {next : Nat}
    (named : (subs.entries.map (·.2)).Nodup ∧ ∀ i ∈ subs.entries.map (·.2), i < next)
    (same : ∀ i, pc'.role i = pc.role i) (progress : b.Progress t pc') :
    ({ b with closed := closed, subs := subs, next := next }.goto t pc').Inv where
  calm := inv.calm
  staged i := by
    obtain ⟨stage, h⟩ := inv.staged i
    change ∃ stage, (b.table i).At stage (fun r => countRole (PC.role i) (b.threads.set t pc') r)
    have counts : (fun r => countRole (PC.role i) (b.threads.set t pc') r) = b.roles i := by
      funext r
      have moved := @moved_set b t pc pc' here i r
      rw [same i] at moved
      exact Nat.add_right_cancel moved
    rw [counts]
    exact ⟨stage, h⟩
  named := named
  stamped i m member := by
    rw [Bus.goto, List.length_set]
    exact inv.stamped i m member
  progress u pc'' found := by
    have keep : ∀ {v pc}, b.Progress v pc →
        ({ b with closed := closed, subs := subs, next := next }.goto t pc').Progress v pc :=
      fun h => Bus.Progress.of_table (b := b) rfl h
    change (b.threads.set t pc')[u]? = some pc'' at found
    rw [List.getElem?_set] at found
    split_ifs at found with own inside
    · cases found
      exact keep (own ▸ progress)
    · exact keep (inv.progress u pc'' found)

variable {i : Nat} {s : Subscriber Message}

theorem copies_put {u j : Nat} (same : s.enqueued = (b.table i).enqueued) :
    ((b.put i s).goto t pc).copies u j = b.copies u j := by
  change (Function.update b.table i s j).enqueued.countP _ = _
  by_cases own : j = i
  · subst own
    rw [Function.update_self, same]
    rfl
  · rw [Function.update_of_ne own]
    rfl

theorem closed_put {j : Nat} (grows : (b.table i).closed = true → s.closed = true) :
    (b.table j).closed = true → (((b.put i s).goto t pc).table j).closed = true := by
  change _ → (Function.update b.table i s j).closed = true
  by_cases own : j = i
  · subst own
    rw [Function.update_self]
    exact grows
  · rw [Function.update_of_ne own]
    exact id

theorem Bus.Inv.put (inv : b.Inv) (here : b.threads[t]? = some pc)
    (others : ∀ j, j ≠ i → pc'.role j = pc.role j)
    (staged : ∀ n', Moved (b.roles i) n' (pc.role i) (pc'.role i) → ∃ next, s.At next n')
    (closed : (b.table i).closed = true → s.closed = true)
    (messages : s.enqueued = (b.table i).enqueued ∨
      ∃ m, m.publication = t ∧ s.enqueued = (b.table i).enqueued ++ [m])
    (progress : ((b.put i s).goto t pc').Progress t pc') : ((b.put i s).goto t pc').Inv where
  calm := inv.calm
  staged j := by
    obtain ⟨stage, h⟩ := inv.staged j
    have moved := @moved_set b t pc pc' here j
    change ∃ stage, (Function.update b.table i s j).At stage
      (fun r => countRole (PC.role j) (b.threads.set t pc') r)
    by_cases same : j = i
    · subst same
      rw [Function.update_self]
      exact staged _ moved
    · rw [Function.update_of_ne same]
      have counts : (fun r => countRole (PC.role j) (b.threads.set t pc') r) = b.roles j := by
        funext r
        have one := moved r
        rw [others j same] at one
        exact Nat.add_right_cancel one
      rw [counts]
      exact ⟨stage, h⟩
  named := inv.named
  stamped j m member := by
    change m ∈ (Function.update b.table i s j).enqueued at member
    change m.publication < (b.threads.set t pc').length
    rw [List.length_set]
    by_cases same : j = i
    · subst same
      rw [Function.update_self] at member
      rcases messages with kept | ⟨new, own, more⟩
      · exact inv.stamped j m (kept ▸ member)
      · rw [more] at member
        rcases List.mem_append.mp member with old | last
        · exact inv.stamped j m old
        · rw [List.mem_singleton.mp last, own]
          exact (List.getElem?_eq_some_iff.mp here).1
    · rw [Function.update_of_ne same] at member
      exact inv.stamped j m member
  progress u pc'' found := by
    change (b.threads.set t pc')[u]? = some pc'' at found
    rw [List.getElem?_set] at found
    split_ifs at found with own inside
    · cases found
      exact own ▸ progress
    · refine (inv.progress u pc'' found).mono (fun j => ?_) fun j => closed_put closed
      rcases messages with kept | ⟨new, mine, more⟩
      · exact copies_put kept
      · have other : ¬ new.publication = u := fun h => own (mine.symm.trans h)
        change (Function.update b.table i s j).enqueued.countP _ = _
        by_cases same : j = i
        · subst same
          rw [Function.update_self, more, List.countP_append]
          simp [other, Bus.copies]
        · rw [Function.update_of_ne same]
          rfl

theorem Bus.Inv.goto_only (inv : b.Inv) (here : b.threads[t]? = some pc)
    (same : ∀ i, pc'.role i = pc.role i) (progress : b.Progress t pc') : (b.goto t pc').Inv :=
  @Bus.Inv.goto b t pc pc' inv here b.closed b.subs b.next inv.named same progress

theorem operate_ok {result : Except Panic (Subscriber Message)}
    (ok : result = .ok s) : b.operate t i result pc' = (b.put i s).goto t pc' := by
  rw [ok]
  rfl

theorem role_pos {r : Role} (here : b.threads[t]? = some pc) (has : pc.role i = some r) :
    0 < b.roles i r := countRole_pos here has

end Move

/-! ## Every step keeps the invariant -/

section Steps

variable {b : Bus} {t ctx sub : Nat} {event : Event} {snapshot rest : List Nat} {after : After}

@[simp] theorem role_resume (after : After) (i : Nat) : after.resume.role i = none := by
  cases after <;> rfl

theorem progress_resume (b : Bus) (t : Nat) (after : After) : b.Progress t after.resume := by
  cases after <;> trivial

theorem role_sending_of_ne {i : Nat} (other : i ≠ sub) :
    (PC.sending ctx event snapshot sub rest).role i = none := if_neg (Ne.symm other)

theorem role_releasing_of_ne {i : Nat} (other : i ≠ sub) :
    (PC.releasing ctx event snapshot sub rest).role i = none := if_neg (Ne.symm other)

variable {stage : Stage}

theorem role_closing_of_ne {i : Nat} (other : i ≠ sub) :
    (PC.closing sub stage after).role i = none := if_neg (Ne.symm other)

theorem role_closing_self : (PC.closing sub stage after).role sub = stage.role :=
  if_pos rfl

theorem inv_acquire (inv : b.Inv)
    (here : b.threads[t]? = some (.publishing ctx event snapshot (sub :: rest))) :
    (b.acquire t ctx event snapshot sub rest).Inv := by
  obtain ⟨stage, at_⟩ := inv.staged sub
  have half : b.Halfway t snapshot (sub :: rest) := inv.progress t _ here
  unfold Bus.acquire
  cases begun : stage.begun with
  | true =>
    rw [at_.acquireSender_closed begun]
    refine inv.goto_only here (fun _ => rfl) ?_
    exact half.next (fun _ _ => rfl) (fun _ => id) (.inr (at_.closed.trans begun))
  | false =>
    rw [at_.acquireSender_open begun]
    refine inv.put here (fun j other => role_sending_of_ne other) (fun n' moved => ?_) id
      (.inl rfl) ?_
    · rw [show (PC.sending ctx event snapshot sub rest).role sub = some .sender from if_pos rfl] at moved
      exact ⟨stage, at_.acquired begun moved⟩
    · refine Bus.Halfway.mono (fun i => ?_) (fun i => ?_) half
      · exact copies_put rfl
      · exact closed_put id

theorem inv_send (inv : b.Inv) (here : b.threads[t]? = some (.sending ctx event snapshot sub rest)) :
    (b.operate t sub ((b.table sub).send ⟨t, event⟩) (.releasing ctx event snapshot sub rest)).Inv := by
  obtain ⟨stage, at_⟩ := inv.staged sub
  have half : b.Halfway t snapshot (sub :: rest) := inv.progress t _ here
  have present : 0 < b.roles sub .sender := role_pos here (if_pos rfl)
  rw [operate_ok (at_.send_eq present ⟨t, event⟩)]
  refine inv.put here (fun j other => ?_) (fun n' moved => ?_) id (.inr ⟨_, rfl, rfl⟩) ?_
  · rw [role_releasing_of_ne other, role_sending_of_ne other]
  · refine ⟨stage, ?_⟩
    have same : n' = b.roles sub := funext fun r => Nat.add_right_cancel (moved r)
    rw [same]
    exact at_.sent ⟨t, event⟩
  · refine half.next (fun i other => ?_) (fun i => ?_) (.inl ?_)
    · change (Function.update b.table sub _ i).enqueued.countP _ = _
      rw [Function.update_of_ne other]
      rfl
    · exact closed_put id
    · have none := half.fresh sub List.mem_cons_self
      change (Function.update b.table sub _ sub).enqueued.countP _ = 1
      rw [Function.update_self, List.countP_append]
      simp only [Bus.copies] at none
      simp [none]

theorem inv_senderDone {pc pc' : PC} (inv : b.Inv) (here : b.threads[t]? = some pc)
    (roles : ∀ i, pc.role i = if sub = i then some .sender else none)
    (roles' : ∀ i, pc'.role i = none)
    (progress : ∀ s, s.enqueued = (b.table sub).enqueued →
      ((b.table sub).closed = true → s.closed = true) → ((b.put sub s).goto t pc').Progress t pc') :
    (b.operate t sub (b.table sub).senderDone pc').Inv := by
  obtain ⟨stage, at_⟩ := inv.staged sub
  have own : pc.role sub = some .sender := (roles sub).trans (if_pos rfl)
  rw [operate_ok (at_.senderDone_eq (role_pos here own))]
  refine inv.put here (fun j other => ?_) (fun n' moved => ?_) id (.inl rfl) (progress _ rfl id)
  · rw [roles', roles, if_neg (Ne.symm other)]
  · rw [own, roles'] at moved
    exact ⟨stage, at_.released moved⟩

theorem inv_closeStep {b' : Bus} (inv : b.Inv)
    (here : b.threads[t]? = some (.closing sub stage after))
    (taken : b.closeStep t sub after stage = some b') : b'.Inv := by
  obtain ⟨current, at_⟩ := inv.staged sub
  have others : ∀ {next : Stage} (j : Nat), j ≠ sub →
      (PC.closing sub next after).role j = (PC.closing sub stage after).role j := by
    intro next j other
    rw [role_closing_of_ne other, role_closing_of_ne other]
  -- the goroutine inside `once.Do` is the one the stage belongs to
  have mine : ∀ {r : Role}, r ≠ .sender → stage.role = some r → current.role = some r := by
    intro r other has
    exact at_.stage_of_role other (role_pos here (role_closing_self.trans has))
  cases stage with
  | idle =>
    unfold Bus.closeStep at taken
    rw [at_.once] at taken
    cases current with
    | idle =>
      cases taken
      refine inv.put here others (fun n' moved => ?_) id (.inl rfl) trivial
      rw [role_closing_self, role_closing_self] at moved
      exact ⟨.lock, at_.onceBegin moved⟩
    | finished =>
      cases taken
      refine inv.goto_only here (fun i => ?_) (progress_resume b t after)
      rw [role_resume]
      by_cases own : i = sub
      · rw [own, role_closing_self]
        rfl
      · rw [role_closing_of_ne own]
    | lock => cases taken
    | wait => cases taken
    | closeCh => cases taken
    | leave => cases taken
  | lock =>
    obtain rfl : current = .lock := Stage.eq_of_role (mine (by decide) rfl) rfl
    cases taken
    rw [operate_ok at_.closeLocked_eq]
    refine inv.put here others (fun n' moved => ?_) (fun _ => rfl) (.inl rfl) trivial
    rw [role_closing_self, role_closing_self] at moved
    exact ⟨.wait, at_.begun moved⟩
  | wait =>
    obtain rfl : current = .wait := Stage.eq_of_role (mine (r := .wait) (by decide) rfl) rfl
    obtain ⟨s, returned, rfl⟩ := Option.map_eq_some_iff.mp taken
    have shape : s = { b.table sub with waiting := false } := by
      unfold Subscriber.closeWait at returned
      split_ifs at returned
      exact (Option.some.inj returned).symm
    refine inv.put here others (fun n' moved => ?_) (fun closed => ?_) (.inl ?_) trivial
    · rw [role_closing_self, role_closing_self] at moved
      exact ⟨.closeCh, at_.closeWait returned moved⟩
    · rw [shape]
      exact closed
    · rw [shape]
  | closeCh =>
    obtain rfl : current = .closeCh := Stage.eq_of_role (mine (r := .closeCh) (by decide) rfl) rfl
    cases taken
    rw [operate_ok at_.closeChannel_eq]
    refine inv.put here others (fun n' moved => ?_) id (.inl rfl) trivial
    rw [role_closing_self, role_closing_self] at moved
    exact ⟨.leave, at_.chClosed moved⟩
  | leave =>
    obtain rfl : current = .leave := Stage.eq_of_role (mine (r := .leave) (by decide) rfl) rfl
    cases taken
    refine inv.put here (fun j other => ?_) (fun n' moved => ?_) id (.inl rfl)
      (progress_resume _ t after)
    · rw [role_resume, role_closing_of_ne other]
    · rw [role_resume, role_closing_self] at moved
      exact ⟨.finished, at_.onceEnd moved⟩
  | finished => cases taken

theorem role_idle (sub : Nat) (after : After) (i : Nat) :
    (PC.closing sub .idle after).role i = none := by
  by_cases own : i = sub
  · rw [own, role_closing_self]
    rfl
  · exact role_closing_of_ne own

theorem inv_register {pc : PC} (inv : b.Inv) (here : b.threads[t]? = some pc)
    (plain : ∀ i, pc.role i = none) (name : String) : (b.register t ctx name).Inv := by
  obtain ⟨distinct, known⟩ := inv.named
  have older : ∀ i ∈ b.values, i < b.next + 1 := fun i member => (known i member).trans (by omega)
  unfold Bus.register
  dsimp only
  split_ifs
  · exact inv.goto here ⟨distinct, older⟩ (fun i => by rw [role_idle, plain]) trivial
  · have named : ((b.subs.insert name b.next).entries.map (·.2)).Nodup ∧
        ∀ i ∈ (b.subs.insert name b.next).entries.map (·.2), i < b.next + 1 := by
      have part := ((List.kerase_sublist name b.subs.entries).map (·.2))
      rw [AList.entries_insert, List.map_cons]
      refine ⟨List.nodup_cons.mpr ⟨fun inside => ?_, distinct.sublist part⟩, fun i member => ?_⟩
      · exact Nat.lt_irrefl _ (known b.next (part.subset inside))
      · rcases List.mem_cons.mp member with rfl | old
        · exact Nat.lt_succ_self _
        · exact older i (part.subset old)
    cases b.subs.lookup name with
    | some old => exact inv.goto here named (fun i => by rw [role_idle, plain]) trivial
    | none => exact inv.goto here named (fun i => by rw [plain]; rfl) trivial

theorem inv_unregister {pc pc' : PC} (inv : b.Inv) (here : b.threads[t]? = some pc)
    (same : ∀ i, pc'.role i = pc.role i) (progress : b.Progress t pc') (name : String) (sub : Nat) :
    ((b.unregister name sub).goto t pc').Inv := by
  unfold Bus.unregister
  split_ifs
  · have part := ((List.kerase_sublist name b.subs.entries).map (·.2))
    exact @Bus.Inv.goto b t pc pc' inv here b.closed (b.subs.erase name) b.next
      ⟨inv.named.1.sublist part, fun i member => inv.named.2 i (part.subset member)⟩ same progress
  · exact inv.goto_only here same progress

theorem inv_spawn {pc : PC} (inv : b.Inv) (plain : ∀ i, pc.role i = none)
    (progress : b.Progress b.threads.length pc) : Bus.Inv { b with threads := b.threads ++ [pc] } where
  calm := inv.calm
  staged i := by
    obtain ⟨stage, at_⟩ := inv.staged i
    change ∃ stage, (b.table i).At stage (fun r => countRole (PC.role i) (b.threads ++ [pc]) r)
    have counts : (fun r => countRole (PC.role i) (b.threads ++ [pc]) r) = b.roles i := by
      funext r
      rw [countRole_append, plain]
      rfl
    rw [counts]
    exact ⟨stage, at_⟩
  named := inv.named
  stamped i m member := by
    have := inv.stamped i m member
    simp only [List.length_append, List.length_singleton]
    omega
  progress u pc' found := by
    rw [List.getElem?_append] at found
    split_ifs at found with old
    · exact Bus.Progress.of_table (b := b) rfl (inv.progress u pc' found)
    · have last : u - b.threads.length = 0 := by
        by_contra beyond
        obtain ⟨k, shape⟩ := Nat.exists_eq_succ_of_ne_zero beyond
        simp [shape] at found
      rw [last, List.getElem?_cons_zero] at found
      obtain rfl : pc = pc' := Option.some.inj found
      have place : u = b.threads.length := by omega
      rw [place]
      exact Bus.Progress.of_table (b := b) rfl progress

theorem copies_fresh (inv : b.Inv) (i : Nat) : b.copies b.threads.length i = 0 := by
  refine List.countP_eq_zero.mpr fun m member => ?_
  have := inv.stamped i m member
  simp only [decide_eq_true_eq]
  omega

theorem inv_advance {pc : PC} {choice : Choice} {b' : Bus} (inv : b.Inv)
    (here : b.threads[t]? = some pc) (taken : b.advance t pc choice = some b') : b'.Inv := by
  have progress := inv.progress t pc here
  unfold Bus.advance at taken
  split at taken
  · -- Publish takes its snapshot
    rename_i ctx event subs
    split_ifs at taken with closed order <;> cases taken
    · exact inv.goto_only here (fun _ => rfl) trivial
    · refine inv.goto_only here (fun _ => rfl) ⟨?_, List.suffix_rfl, ?_, fun i _ => progress i⟩
      · exact (List.isPerm_iff.mp order).nodup_iff.mpr inv.named.1
      · exact fun i member outside => absurd member outside
  · -- Publish has served every subscriber
    cases taken
    exact inv.goto_only here (fun _ => rfl) fun i member => progress.served i member (by simp)
  · cases taken
    exact inv_acquire inv here
  · rename_i ctx event snapshot sub rest
    split_ifs at taken
    cases taken
    exact inv_send inv here
  · -- the subscriber is closing
    rename_i ctx event snapshot sub rest
    split_ifs at taken with closed
    cases taken
    obtain ⟨stage, at_⟩ := inv.staged sub
    refine inv.goto_only here (fun _ => rfl) ?_
    exact progress.next (fun _ _ => rfl) (fun _ => id)
      (.inr (at_.closed.trans (at_.done.symm.trans closed)))
  · split_ifs at taken
    cases taken
    exact inv.goto_only here (fun _ => rfl) trivial
  · cases taken
    refine inv_senderDone inv here (fun _ => rfl) (fun _ => rfl) fun s same grows => ?_
    exact Bus.Halfway.mono (fun i => copies_put same) (fun i => closed_put grows) progress
  · cases taken
    exact inv_senderDone inv here (fun _ => rfl) (fun _ => rfl) fun _ _ _ => trivial
  · cases taken
    exact inv_register inv here (fun _ => rfl) _
  · rename_i ctx name sub
    cases taken
    have moved := @Bus.Inv.goto_only b t _ (.subscribed sub) inv here (fun _ => rfl) trivial
    exact @inv_spawn _ (.watch ctx name sub) moved (fun _ => rfl) trivial
  · split_ifs at taken
    cases taken
    exact inv.goto_only here (fun _ => rfl) trivial
  · split_ifs at taken
    cases taken
    exact inv.goto_only here (fun _ => rfl) trivial
  · rename_i name sub
    cases taken
    exact @inv_unregister b t _ (.closing sub .idle .watcher) inv here
      (fun i => by rw [role_idle]; rfl) trivial name sub
  · split_ifs at taken with closed order <;> cases taken
    · exact inv.goto_only here (fun _ => rfl) trivial
    · exact @Bus.Inv.goto b t _ _ inv here true ∅ b.next ⟨List.nodup_nil, by simp⟩ (fun _ => rfl)
        trivial
  · cases taken
    exact inv.goto_only here (fun _ => rfl) trivial
  · cases taken
    exact inv.goto_only here (fun i => by rw [role_idle]; rfl) trivial
  · exact inv_closeStep inv here taken
  · cases taken

theorem inv_receive {b' : Bus} (inv : b.Inv) (taken : b.step (.receive sub) = some b') : b'.Inv := by
  obtain ⟨s, received, rfl⟩ := Option.map_eq_some_iff.mp taken
  have shape : s = { b.table sub with received := (b.table sub).received + 1 } := by
    unfold Subscriber.receive at received
    split_ifs at received
    exact (Option.some.inj received).symm
  have each : ∀ i, (b.put sub s).table i = b.table i ∨
      i = sub ∧ (b.put sub s).table i = { b.table i with received := (b.table i).received + 1 } := by
    intro i
    by_cases own : i = sub
    · subst own
      exact .inr ⟨rfl, (Function.update_self ..).trans shape⟩
    · exact .inl (Function.update_of_ne own ..)
  refine ⟨inv.calm, fun i => ?_, inv.named, fun i m member => ?_, fun u pc found => ?_⟩
  · obtain ⟨stage, at_⟩ := inv.staged i
    refine ⟨stage, ?_⟩
    rcases each i with same | ⟨rfl, same⟩
    · rw [same]
      exact at_
    · have taken : (b.put i s).table i = s := Function.update_self ..
      rw [taken]
      exact at_.receive received
  · rcases each i with same | ⟨-, same⟩
    · exact inv.stamped i m (same ▸ member)
    · rw [same] at member
      exact inv.stamped i m member
  · refine (inv.progress u pc found).mono (fun i => ?_) fun i => ?_
    · unfold Bus.copies
      rcases each i with same | ⟨-, same⟩ <;> rw [same]
    · rcases each i with same | ⟨-, same⟩ <;> rw [same] <;> exact id

end Steps

theorem inv_new (bufferSize : Int) : (Bus.new bufferSize).Inv where
  calm := rfl
  staged _ := ⟨.idle, .new⟩
  named := ⟨List.nodup_nil, by simp [Bus.new, Bus.values]⟩
  stamped i m member := by simp [Bus.new] at member
  progress t pc found := by simp [Bus.new] at found

theorem inv_tick (b : Bus) (event : Tick) (inv : b.Inv) : (b.tick event).Inv := by
  unfold Bus.tick
  cases taken : b.step event with
  | none => exact inv
  | some b' =>
    cases event with
    | publish ctx event =>
      cases taken
      exact inv_spawn inv (fun _ => rfl) (copies_fresh inv)
    | subscribe ctx name | close =>
      cases taken
      exact inv_spawn inv (fun _ => rfl) trivial
    | run t choice =>
      obtain ⟨pc, here, advanced⟩ := Option.bind_eq_some_iff.mp taken
      exact inv_advance inv here advanced
    | cancel ctx =>
      cases taken
      exact ⟨inv.calm, inv.staged, inv.named, inv.stamped, fun u pc found =>
        Bus.Progress.of_table (b := b) rfl (inv.progress u pc found)⟩
    | receive sub => exact inv_receive inv taken

theorem inv_run (bufferSize : Int) (schedule : List Tick) :
    (run Bus.tick (Bus.new bufferSize) schedule).Inv :=
  run_invariant Bus.Inv inv_tick (inv_new bufferSize) schedule

/-! ## What follows for a whole run -/

/-- The goroutine that watches the context of subscription `i`, and what it goes on to do. -/
def PC.serves (i : Nat) : PC → Prop
  | .watch _ _ sub => sub = i
  | .removing _ sub => sub = i
  | .closing sub _ .watcher => sub = i
  | _ => False

/-- Nothing a subscription's goroutine does touches another subscription. -/
theorem advance_serves {b b' : Bus} {t i : Nat} {pc : PC} {choice : Choice} (serves : pc.serves i)
    (taken : b.advance t pc choice = some b') (j : Nat) (other : j ≠ i) :
    b'.table j = b.table j ∧ ∀ name, b.subs.lookup name = some j → b'.subs.lookup name = some j := by
  have put : ∀ s, Function.update b.table i s j = b.table j := fun s => Function.update_of_ne other ..
  have operated : ∀ result pc', (b.operate t i result pc').table j = b.table j ∧
      (b.operate t i result pc').subs = b.subs := by
    intro result pc'
    cases result with
    | error panic => exact ⟨rfl, rfl⟩
    | ok s => exact ⟨put s, rfl⟩
  cases pc with
  | watch ctx name sub =>
    cases choice with
    | ctx | done =>
      simp only [Bus.advance] at taken
      split_ifs at taken
      cases taken
      exact ⟨rfl, fun _ => id⟩
    | _ => cases taken
  | removing name sub =>
    obtain rfl : sub = i := serves
    cases choice with
    | go =>
      cases taken
      unfold Bus.unregister
      split_ifs with mapped
      · refine ⟨rfl, fun name' found => ?_⟩
        have different : name' ≠ name := by
          rintro rfl
          exact other (Option.some.inj (found.symm.trans mapped))
        exact (AList.lookup_erase_ne different).trans found
      · exact ⟨rfl, fun _ => id⟩
    | _ => cases taken
  | closing sub stage after =>
    cases after with
    | watcher =>
      obtain rfl : sub = i := serves
      cases choice with
      | go =>
        change b.closeStep t sub .watcher stage = some b' at taken
        cases stage with
        | idle =>
          unfold Bus.closeStep at taken
          cases once : (b.table sub).once with
          | idle =>
            rw [once] at taken
            cases taken
            exact ⟨put _, fun _ => id⟩
          | running =>
            rw [once] at taken
            cases taken
          | finished =>
            rw [once] at taken
            cases taken
            exact ⟨rfl, fun _ => id⟩
        | lock | closeCh =>
          cases taken
          exact ⟨(operated _ _).1, fun _ found => (operated _ _).2 ▸ found⟩
        | wait =>
          obtain ⟨s, -, rfl⟩ := Option.map_eq_some_iff.mp taken
          exact ⟨put s, fun _ => id⟩
        | leave =>
          cases taken
          exact ⟨put _, fun _ => id⟩
        | finished => cases taken
      | _ => cases taken
    | _ => cases serves
  | _ => cases serves

/-- A counted sender of a subscriber whose closing has begun can always go on. -/
theorem sender_enabled {b : Bus} {t i : Nat} {pc : PC} (here : b.threads[t]? = some pc)
    (sender : pc.role i = some .sender) (begun : (b.table i).doneClosed = true) :
    ∃ choice, (b.step (.run t choice)).isSome = true := by
  have run : ∀ choice, b.step (.run t choice) = b.advance t pc choice := by
    intro choice
    rw [Bus.step, here]
    rfl
  cases pc with
  | sending ctx event snapshot sub rest =>
    have own : sub = i := by
      by_contra other
      simp [PC.role, other] at sender
    refine ⟨.done, ?_⟩
    rw [run, Bus.advance, own, if_pos begun]
    rfl
  | releasing ctx event snapshot sub rest | aborting sub => exact ⟨.go, by rw [run]; rfl⟩
  | closing sub stage after =>
    by_cases own : sub = i
    · cases stage <;> simp [PC.role, own, Stage.role] at sender
    · simp [PC.role, own] at sender
  | _ => cases sender

/-- Safety and delivery of the event bus, over every schedule. -/
theorem event_bus_safe (bufferSize : Int) (schedule : List Tick) :
    let b := run Bus.tick (Bus.new bufferSize) schedule
    b.panic = none ∧
    (∀ (t ctx sub : Nat) (event : Event) (snapshot rest : List Nat),
      b.threads[t]? = some (.sending ctx event snapshot sub rest) →
        (b.table sub).chClosed = false) ∧
    (∀ (t : Nat) (snapshot : List Nat), b.threads[t]? = some (.published snapshot) →
      ∀ i ∈ snapshot, b.copies t i = 1 ∨ (b.table i).closed = true) ∧
    (∀ (t i j : Nat) (pc : PC) (choice : Choice) (b' : Bus), b.threads[t]? = some pc → pc.serves i →
      j ≠ i → b.step (.run t choice) = some b' → b'.table j = b.table j ∧
        ∀ name, b.subs.lookup name = some j → b'.subs.lookup name = some j) ∧
    (∀ (t i : Nat) (after : After), b.threads[t]? = some (.closing i .wait after) →
      ((b.step (.run t .go)).isSome = true ∨
        ∃ (u : Nat) (pc : PC), b.threads[u]? = some pc ∧ pc.role i = some .sender) ∧
      ∀ (u : Nat) (pc : PC), b.threads[u]? = some pc → pc.role i = some .sender →
        ∃ choice, (b.step (.run u choice)).isSome = true) := by
  intro b
  have inv : b.Inv := inv_run bufferSize schedule
  refine ⟨inv.calm, ?_, fun t snapshot found => inv.progress t _ found, ?_, ?_⟩
  · intro t ctx sub event snapshot rest here
    obtain ⟨stage, at_⟩ := inv.staged sub
    exact at_.open_of_sender (role_pos here (if_pos rfl))
  · intro t i j pc choice b' here serves other taken
    rw [Bus.step, here] at taken
    exact advance_serves serves taken j other
  · intro t i after here
    obtain ⟨stage, at_⟩ := inv.staged i
    have waiting : stage = .wait := Stage.eq_of_role (at_.stage_of_role (r := .wait) (by decide)
      (role_pos here role_closing_self)) rfl
    subst waiting
    refine ⟨?_, fun u pc there sender => sender_enabled there sender at_.done⟩
    by_cases none : (b.table i).senders = 0
    · refine .inl ?_
      rw [Bus.step, here]
      simp [Bus.advance, Bus.closeStep, Subscriber.closeWait, none]
    · refine .inr (exists_of_countRole_pos ?_)
      have counted := at_.senders
      change 0 < b.roles i .sender
      omega

end AiStorage.Router.EventBus
