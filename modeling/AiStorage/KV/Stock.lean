import AiStorage.KV.Alone

/-!
# What a call leaves in stock

A thread whose locks nobody else holds is never kept waiting, so that a call is described by
the data it finds and the data it leaves; the locks are as free after it as before.
-/
namespace AiStorage.KV
open Lib Prog MetadataStore

structure Stock where
  store : MetadataStore
  files : Dict Path Bytes
  objects : Dict Text Bytes
  memory : List (BlockKey × Bytes)
  usedBytes : Int

def World.stock (w : World) : Stock := ⟨w.store, w.files, w.objects, w.memory, w.usedBytes⟩

theorem RLock.admits_leave {t : Nat} {lock : RLock} (free : lock.admits t = true) :
    lock.leave.admits t = true := by
  rcases lock with - | ⟨u, - | depth⟩
  · rfl
  · rfl
  · exact free

/-- Whatever the allowed choices, the call ends and leaves what is stated. -/
structure Runs (t : Nat) (allowed : Choice → Prop) {α : Type} (p : Py α) (s : Stock)
    (Q : Except PyError α → Stock → Prop) : Prop where
  total : ∀ w, w.stock = s → w.Free t → p.Total (single t allowed fun _ _ => True)
    (fun r w' => Q r w'.stock ∧ w'.Free t) w

namespace Runs

variable {t : Nat} {allowed : Choice → Prop} {α β : Type} {p : Py α} {s : Stock}
  {Q R : Except PyError α → Stock → Prop}

theorem mono (runs : Runs t allowed p s R) (post : ∀ r s', R r s' → Q r s') :
    Runs t allowed p s Q :=
  ⟨fun w same free => (runs.total w same free).mono fun r _ holds => ⟨post r _ holds.1, holds.2⟩⟩

theorem ret {r : Except PyError α} (holds : Q r s) : Runs t allowed (.ret r) s Q :=
  ⟨fun _ same free => ⟨same ▸ holds, free⟩⟩

theorem thenDo {next : Except PyError α → Py β} {Q : Except PyError β → Stock → Prop}
    (first : Runs t allowed p s R) (rest : ∀ r s', R r s' → Runs t allowed (next r) s' Q) :
    Runs t allowed (p.thenDo next) s Q :=
  ⟨fun w same free => (first.total w same free).thenDo fun r w' holds =>
    (rest r w'.stock holds.1).total w' rfl holds.2⟩

theorem bind {next : α → Py β} {Q : Except PyError β → Stock → Prop}
    (first : Runs t allowed p s R) (ok : ∀ a s', R (.ok a) s' → Runs t allowed (next a) s' Q)
    (failed : ∀ e s', R (.error e) s' → Q (.error e) s') : Runs t allowed (p >>= next) s Q := by
  refine thenDo first fun r s' holds => ?_
  cases r with
  | ok a => exact ok a s' holds
  | error e => exact ret (failed e s' holds)

theorem value {x : Except PyError α} {next : α → Py β} {Q : Except PyError β → Stock → Prop}
    (ok : ∀ a, x = .ok a → Runs t allowed (next a) s Q)
    (failed : ∀ e, x = .error e → Q (.error e) s) : Runs t allowed (KV.lift x >>= next) s Q := by
  cases x with
  | ok a => exact ok a rfl
  | error e => exact ret (failed e rfl)

theorem handle {handler : PyError → Py α} (first : Runs t allowed p s R)
    (ok : ∀ a s', R (.ok a) s' → Q (.ok a) s')
    (rest : ∀ e s', R (.error e) s' → Runs t allowed (handler e) s' Q) :
    Runs t allowed (p.handle handler) s Q := by
  refine thenDo first fun r s' holds => ?_
  cases r with
  | ok a => exact ret (ok a s' holds)
  | error e => exact rest e s' holds

theorem ends (runs : Runs t allowed p s Q) {w w' : World} {r : Except PyError α}
    (same : w.stock = s) (free : w.Free t) (ran : p.Ends device t allowed w r w') :
    Q r w'.stock ∧ w'.Free t :=
  (runs.total w same free).ends ran

end Runs

/-! ## Actions -/

section Actions

variable {t : Nat} {allowed : Choice → Prop} {α : Type} {s : Stock}

theorem runs_perform {action : Act α} {Q : Except PyError α → Stock → Prop}
    (step : ∀ c w, allowed c → w.stock = s → w.Free t →
      ∃ x w', action t c w = some (x, w') ∧ Q x w'.stock ∧ w'.Free t) :
    Runs t allowed (perform action) s Q :=
  ⟨fun w same free => .perform fun c choice => by
    obtain ⟨x, w', done, holds⟩ := step c w choice same free
    exact ⟨x, w', done, trivial, holds⟩⟩

theorem runs_observe {f : Choice → World → Except PyError α} {Q : Except PyError α → Stock → Prop}
    (answers : ∀ c w, allowed c → w.stock = s → Q (f c w) s) :
    Runs t allowed (perform (Act.observe f)) s Q :=
  runs_perform fun c w choice same free =>
    ⟨f c w, w, rfl, by rw [same]; exact answers c w choice same, free⟩

/-- The database refused the statement, or this is what it answers and leaves. -/
def Stated (allowed : Choice → Prop) (f : Choice → MetadataStore → Outcome α) (s : Stock)
    (r : Except PyError α) (s' : Stock) : Prop :=
  (∃ c, allowed c ∧ c.dbFails = true ∧ r = .error (.bare .operationalError) ∧ s' = s) ∨
    ∃ c m, allowed c ∧ f c s.store = (r, m) ∧ s' = { s with store := m }

theorem Stated.query {f : Choice → MetadataStore → Except PyError α} {r : Except PyError α}
    {s' : Stock} (stated : Stated allowed (fun c m => (f c m, m)) s r s') : s' = s := by
  rcases stated with ⟨c, -, -, -, rfl⟩ | ⟨c, m, -, answered, rfl⟩
  · rfl
  · obtain ⟨-, rfl⟩ := Prod.mk.inj answered
    rfl

theorem runs_database (f : Choice → MetadataStore → Outcome α) :
    Runs t allowed (perform (Act.database f)) s (Stated allowed f s) := by
  refine runs_perform fun c w choice same free => ?_
  subst same
  cases fails : c.dbFails with
  | true =>
    refine ⟨_, w, ?_, .inl ⟨c, choice, fails, rfl, rfl⟩, free⟩
    rw [Act.database, if_pos fails]
  | false =>
    refine ⟨(f c w.store).1, { w with store := (f c w.store).2 }, ?_,
      .inr ⟨c, _, choice, rfl, rfl⟩, ?_⟩
    · rw [Act.database, if_neg (by rw [fails]; decide)]
    · exact ⟨free.mutation, free.memoryLock⟩

theorem runs_exclusive (f : Choice → MetadataStore → Outcome α) :
    Runs t allowed (perform (Act.exclusive f)) s (Stated allowed f s) := by
  refine runs_perform fun c w choice same free => ?_
  obtain ⟨x, w', done, -, holds⟩ := (runs_database f).total w same free c choice
  refine ⟨x, w', ?_, holds⟩
  rw [Act.exclusive, if_pos free.mutation]
  exact done

theorem Runs.observe {β : Type} {f : Choice → World → Except PyError α} {a : α} {next : α → Py β}
    {Q : Except PyError β → Stock → Prop} (answers : ∀ c w, w.stock = s → f c w = .ok a)
    (rest : Runs t allowed (next a) s Q) : Runs t allowed (perform (Act.observe f) >>= next) s Q := by
  refine .bind (R := fun r s' => r = .ok a ∧ s' = s) ?_ (fun b s' seen => ?_) fun e s' wrong => ?_
  · exact runs_observe fun c w _ same => ⟨answers c w same, rfl⟩
  · obtain ⟨same, rfl⟩ := seen
    cases same
    exact rest
  · cases wrong.1

variable {key : BlockKey}

theorem Runs.memoryGet {next : Option Bytes → Py α} {Q : Except PyError α → Stock → Prop}
    (rest : Runs t allowed (next (Act.held key s.memory)) s Q) :
    Runs t allowed (perform (Act.memoryGet key) >>= next) s Q :=
  .observe (fun _ _ same => same ▸ rfl) rest

theorem Runs.memoryUsed {next : Int → Py α} {Q : Except PyError α → Stock → Prop}
    (rest : Runs t allowed (next s.usedBytes) s Q) :
    Runs t allowed (perform Act.memoryUsed >>= next) s Q :=
  .observe (fun _ _ same => same ▸ rfl) rest

theorem Runs.memoryKeys {next : List BlockKey → Py α} {Q : Except PyError α → Stock → Prop}
    (rest : Runs t allowed (next (s.memory.map Prod.fst)) s Q) :
    Runs t allowed (perform Act.memoryKeys >>= next) s Q :=
  .observe (fun _ _ same => same ▸ rfl) rest

theorem Runs.query {β : Type} {f : Choice → MetadataStore → Except PyError α} {next : α → Py β}
    {Q : Except PyError β → Stock → Prop}
    (refused : ∀ c, allowed c → c.dbFails = true → Q (.error (.bare .operationalError)) s)
    (ok : ∀ c a, allowed c → f c s.store = .ok a → Runs t allowed (next a) s Q)
    (failed : ∀ c e, allowed c → f c s.store = .error e → Q (.error e) s) :
    Runs t allowed (perform (Act.database fun c m => (f c m, m)) >>= next) s Q := by
  refine .bind (runs_database _) (fun a s' stated => ?_) fun e s' stated => ?_
  · rcases stated with ⟨c, -, -, wrong, -⟩ | ⟨c, m, choice, answered, rfl⟩
    · cases wrong
    · obtain ⟨answer, rfl⟩ := Prod.mk.inj answered
      exact ok c a choice answer
  · rcases stated with ⟨c, choice, fails, same, rfl⟩ | ⟨c, m, choice, answered, rfl⟩
    · cases same
      exact refused c choice fails
    · obtain ⟨answer, rfl⟩ := Prod.mk.inj answered
      exact failed c e choice answer

theorem runs_memoryPop {data : Bytes} (there : Act.held key s.memory = some data) :
    Runs t allowed (perform (Act.memoryPop key)) s fun r s' => r = .ok () ∧ s' = { s with
      memory := Act.without key s.memory, usedBytes := s.usedBytes - data.length } := by
  refine runs_perform fun c w choice same free => ?_
  subst same
  refine ⟨.ok (), { w with memory := Act.without key w.memory
                           usedBytes := w.usedBytes - data.length }, ?_, ⟨rfl, rfl⟩, ?_⟩
  · have held : Act.held key w.memory = some data := there
    rw [Act.memoryPop, held]
  · exact ⟨free.mutation, free.memoryLock⟩

theorem runs_memoryPut (key : BlockKey) (data : Bytes) :
    Runs t allowed (perform (Act.memoryPut key data)) s fun r s' => r = .ok () ∧ s' = { s with
      memory := Act.without key s.memory ++ [(key, data)]
      usedBytes := s.usedBytes + data.length } := by
  refine runs_perform fun c w choice same free => ?_
  subst same
  exact ⟨.ok (), _, rfl, ⟨rfl, rfl⟩, free.mutation, free.memoryLock⟩

theorem runs_memoryMoveToEnd {data : Bytes} (there : Act.held key s.memory = some data) :
    Runs t allowed (perform (Act.memoryMoveToEnd key)) s fun r s' => r = .ok () ∧ s' = { s with
      memory := Act.without key s.memory ++ [(key, data)] } := by
  refine runs_perform fun c w choice same free => ?_
  subst same
  refine ⟨.ok (), { w with memory := Act.without key w.memory ++ [(key, data)] }, ?_,
    ⟨rfl, rfl⟩, ?_⟩
  · have held : Act.held key w.memory = some data := there
    rw [Act.memoryMoveToEnd, held]
  · exact ⟨free.mutation, free.memoryLock⟩

/-! ## Locks -/

theorem runs_lockMemory :
    Runs t allowed (perform Act.lockMemory) s fun r s' => r = .ok () ∧ s' = s := by
  refine runs_perform fun c w choice same free =>
    ⟨.ok (), { w with memoryLock := w.memoryLock.enter t }, ?_, ⟨rfl, same⟩, free.mutation,
      RLock.admits_enter free.memoryLock⟩
  rw [Act.lockMemory, if_pos free.memoryLock]

theorem runs_unlockMemory :
    Runs t allowed (perform Act.unlockMemory) s fun r s' => r = .ok () ∧ s' = s :=
  runs_perform fun _ _ _ same free =>
    ⟨.ok (), _, rfl, ⟨rfl, same⟩, free.mutation, RLock.admits_leave free.memoryLock⟩

theorem Runs.last {last : Py Unit} {r : Except PyError α} {Q : Except PyError α → Stock → Prop}
    (left : Runs t allowed last s fun x s' => x = .ok () ∧ s' = s) (holds : Q r s) :
    Runs t allowed (last >>= fun _ => .ret r) s Q := by
  refine .bind left (fun _ s' same => .ret ?_) fun e s' wrong => ?_
  · rw [same.2]
    exact holds
  · cases wrong.1

theorem runs_withMemoryLock {body : Py α} {Q : Except PyError α → Stock → Prop}
    (runs : Runs t allowed body s Q) : Runs t allowed (withMemoryLock body) s Q := by
  refine .bind runs_lockMemory (fun _ s' entered => ?_) fun e s' wrong => ?_
  · rw [entered.2]
    exact runs.thenDo fun _ _ holds => .last runs_unlockMemory holds
  · cases wrong.1

end Actions

/-! ## If a call ends -/

/-- Whatever the allowed choices, if the call ends it leaves what is stated. -/
structure Leads (t : Nat) (allowed : Choice → Prop) {α : Type} (p : Py α) (s : Stock)
    (Q : Except PyError α → Stock → Prop) : Prop where
  ends : ∀ w w' r, w.stock = s → w.Free t → p.Ends device t allowed w r w' →
    Q r w'.stock ∧ w'.Free t

namespace Leads

variable {t : Nat} {allowed : Choice → Prop} {α β : Type} {p : Py α} {s : Stock}
  {Q R : Except PyError α → Stock → Prop}

theorem of_runs (runs : Runs t allowed p s Q) : Leads t allowed p s Q :=
  ⟨fun _ _ _ same free ran => runs.ends same free ran⟩

theorem ret {r : Except PyError α} (holds : Q r s) : Leads t allowed (.ret r) s Q :=
  .of_runs (.ret holds)

theorem thenDo {next : Except PyError α → Py β} {Q : Except PyError β → Stock → Prop}
    (first : Leads t allowed p s R) (rest : ∀ r s', R r s' → Leads t allowed (next r) s' Q) :
    Leads t allowed (p.thenDo next) s Q := by
  refine ⟨fun w w'' r' same free ran => ?_⟩
  obtain ⟨r, w', here, later⟩ := ran.of_thenDo
  obtain ⟨holds, free⟩ := first.ends w w' r same free here
  exact (rest r w'.stock holds).ends w' w'' r' rfl free later

theorem bind {next : α → Py β} {Q : Except PyError β → Stock → Prop}
    (first : Leads t allowed p s R) (ok : ∀ a s', R (.ok a) s' → Leads t allowed (next a) s' Q)
    (failed : ∀ e s', R (.error e) s' → Q (.error e) s') : Leads t allowed (p >>= next) s Q := by
  refine thenDo first fun r s' holds => ?_
  cases r with
  | ok a => exact ok a s' holds
  | error e => exact ret (failed e s' holds)

theorem handle {handler : PyError → Py α} (first : Leads t allowed p s R)
    (ok : ∀ a s', R (.ok a) s' → Q (.ok a) s')
    (rest : ∀ e s', R (.error e) s' → Leads t allowed (handler e) s' Q) :
    Leads t allowed (p.handle handler) s Q := by
  refine thenDo first fun r s' holds => ?_
  cases r with
  | ok a => exact ret (ok a s' holds)
  | error e => exact rest e s' holds

theorem withMemoryLock (body : Leads t allowed p s Q) :
    Leads t allowed (KV.withMemoryLock p) s Q := by
  refine .bind (.of_runs runs_lockMemory) (fun _ s' entered => ?_) fun e s' wrong => ?_
  · rw [entered.2]
    exact body.thenDo fun _ _ holds => .of_runs (.last runs_unlockMemory holds)
  · cases wrong.1

end Leads

/-- Whatever happens, the call keeps what holds of the stock. -/
structure Keeps (t : Nat) (allowed : Choice → Prop) (P : Stock → Prop) {α : Type} (p : Py α) :
    Prop where
  leads : ∀ s, P s → Leads t allowed p s fun _ s' => P s'

namespace Keeps

variable {t : Nat} {allowed : Choice → Prop} {P : Stock → Prop} {α β : Type} {p : Py α}

theorem of_runs (runs : ∀ s, P s → Runs t allowed p s fun _ s' => P s') : Keeps t allowed P p :=
  ⟨fun s holds => .of_runs (runs s holds)⟩

theorem ret (r : Except PyError α) : Keeps t allowed P (.ret r) := ⟨fun _ holds => .ret holds⟩

theorem thenDo {next : Except PyError α → Py β} (first : Keeps t allowed P p)
    (rest : ∀ r, Keeps t allowed P (next r)) : Keeps t allowed P (p.thenDo next) :=
  ⟨fun s holds => (first.leads s holds).thenDo fun r s' => (rest r).leads s'⟩

theorem bind {next : α → Py β} (first : Keeps t allowed P p)
    (rest : ∀ a, Keeps t allowed P (next a)) : Keeps t allowed P (p >>= next) :=
  ⟨fun s holds => .bind (first.leads s holds) (fun a s' => (rest a).leads s')
    fun _ _ holds => holds⟩

theorem handle {handler : PyError → Py α} (first : Keeps t allowed P p)
    (rest : ∀ e, Keeps t allowed P (handler e)) : Keeps t allowed P (p.handle handler) :=
  ⟨fun s holds => (first.leads s holds).handle (fun _ _ holds => holds)
    fun e s' => (rest e).leads s'⟩

theorem withMemoryLock (body : Keeps t allowed P p) : Keeps t allowed P (KV.withMemoryLock p) :=
  ⟨fun s holds => (body.leads s holds).withMemoryLock⟩

theorem observe (f : Choice → World → Except PyError α) :
    Keeps t allowed P (perform (Act.observe f)) :=
  of_runs fun _ holds => runs_observe fun _ _ _ _ => holds

variable {f : Choice → MetadataStore → Outcome α}

theorem stated {s s' : Stock} {r : Except PyError α}
    (step : ∀ c s, P s → P { s with store := (f c s.store).2 }) (holds : P s)
    (ended : Stated allowed f s r s') : P s' := by
  rcases ended with ⟨c, -, -, -, rfl⟩ | ⟨c, m, -, answered, rfl⟩
  · exact holds
  · have kept := step c s holds
    rw [answered] at kept
    exact kept

theorem database (step : ∀ c s, P s → P { s with store := (f c s.store).2 }) :
    Keeps t allowed P (perform (Act.database f)) :=
  of_runs fun _ holds => (runs_database f).mono fun _ _ => stated step holds

theorem exclusive (step : ∀ c s, P s → P { s with store := (f c s.store).2 }) :
    Keeps t allowed P (perform (Act.exclusive f)) :=
  of_runs fun _ holds => (runs_exclusive f).mono fun _ _ => stated step holds

end Keeps

end AiStorage.KV
