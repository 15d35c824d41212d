import Mathlib.Logic.Relation
import Mathlib.Logic.Function.Basic

/-!
# Programs of atomic actions

A program ends with a result or an exception, or performs one atomic action and goes on with
the reply. Between two actions other programs may act on the shared state.
-/
namespace AiStorage.Lib

variable {Act : Type → Type} {ε α β γ σ χ : Type}

inductive Prog (Act : Type → Type) (ε α : Type) : Type 1 where
  | ret (result : Except ε α)
  | act {β : Type} (action : Act β) (next : Except ε β → Prog Act ε α)

namespace Prog

/-- Go on with the result or the exception of a program. -/
def thenDo (p : Prog Act ε α) (next : Except ε α → Prog Act ε β) : Prog Act ε β :=
  match p with
  | ret r => next r
  | act a k => act a fun x => (k x).thenDo next

def bind (p : Prog Act ε α) (f : α → Prog Act ε β) : Prog Act ε β :=
  p.thenDo fun r =>
    match r with
    | .ok a => f a
    | .error e => ret (.error e)

instance : Monad (Prog Act ε) where
  pure a := ret (.ok a)
  bind := bind

def raise (e : ε) : Prog Act ε α := ret (.error e)

def perform (a : Act α) : Prog Act ε α := act a ret

/-- The result of a program, with its exception as a value. -/
def attempt (p : Prog Act ε α) : Prog Act ε (Except ε α) := p.thenDo fun r => ret (.ok r)

/-- `except Exception` -/
def handle (p : Prog Act ε α) (handler : ε → Prog Act ε α) : Prog Act ε α :=
  p.thenDo fun r =>
    match r with
    | .ok a => ret (.ok a)
    | .error e => handler e

/-- `finally`: an exception of the last part replaces the result. -/
def andFinally (p : Prog Act ε α) (last : Prog Act ε Unit) : Prog Act ε α :=
  p.thenDo fun r => last.bind fun _ => ret r

end Prog

/-! ## Executions -/

/-- How an action changes the state: the choice stands for everything the caller does not
control. No outcome means that the action has to wait. -/
structure Device (Act : Type → Type) (ε σ χ : Type) where
  exec : {β : Type} → Nat → Act β → χ → σ → Option (Except ε β × σ)

/-- A program that runs alone, under choices of the given kind, from its start to its end. -/
inductive Prog.Ends (D : Device Act ε σ χ) (t : Nat) (allowed : χ → Prop) :
    Prog Act ε α → σ → Except ε α → σ → Prop where
  | ret {r : Except ε α} {s : σ} : Ends D t allowed (.ret r) s r s
  | act {β : Type} {a : Act β} {next : Except ε β → Prog Act ε α} {c : χ} {x : Except ε β}
      {r : Except ε α} {s s' s'' : σ} (choice : allowed c) (done : D.exec t a c s = some (x, s'))
      (rest : Ends D t allowed (next x) s' r s'') : Ends D t allowed (.act a next) s r s''

variable {t : Nat} {allowed : χ → Prop} {r : Except ε α}

theorem Prog.Ends.mono {D : Device Act ε σ χ} {allowed' : χ → Prop}
    {p : Prog Act ε α} {s s' : σ} (run : p.Ends D t allowed s r s')
    (weaker : ∀ c, allowed c → allowed' c) : p.Ends D t allowed' s r s' := by
  induction run with
  | ret => exact .ret
  | act choice done rest ih => exact .act (weaker _ choice) done ih

theorem Prog.Ends.thenDo {D : Device Act ε σ χ} {p : Prog Act ε α}
    {next : Except ε α → Prog Act ε β} {s s' s'' : σ} {r' : Except ε β}
    (first : p.Ends D t allowed s r s') (rest : (next r).Ends D t allowed s' r' s'') :
    (p.thenDo next).Ends D t allowed s r' s'' := by
  induction first with
  | ret => exact rest
  | act choice done _ ih => exact .act choice done (ih rest)

theorem Prog.Ends.of_thenDo {D : Device Act ε σ χ}
    {p : Prog Act ε α} {next : Except ε α → Prog Act ε β} {s s'' : σ} {r' : Except ε β}
    (run : (p.thenDo next).Ends D t allowed s r' s'') :
    ∃ r s', p.Ends D t allowed s r s' ∧ (next r).Ends D t allowed s' r' s'' := by
  induction p generalizing s with
  | ret r => exact ⟨r, s, .ret, run⟩
  | act a k ih =>
    cases run with
    | act choice done rest =>
      obtain ⟨r, s', first, later⟩ := ih _ rest
      exact ⟨r, s', .act choice done first, later⟩

/-- The run under one choice, which is made again at every action. -/
def Prog.execute (D : Device Act ε σ χ) (t : Nat) (c : χ) :
    Prog Act ε α → σ → Option (Except ε α × σ)
  | .ret r, s => some (r, s)
  | .act a next, s =>
    match D.exec t a c s with
    | some (x, s') => execute D t c (next x) s'
    | none => none

theorem Prog.ends_of_execute {D : Device Act ε σ χ} {c : χ}
    {p : Prog Act ε α} {s s' : σ} (choice : allowed c)
    (ran : p.execute D t c s = some (r, s')) : p.Ends D t allowed s r s' := by
  induction p generalizing s with
  | ret x =>
    cases ran
    exact .ret
  | act a next ih =>
    rw [execute] at ran
    split at ran
    · next x s₁ done => exact .act choice done (ih x ran)
    · cases ran

/-- The action can answer so. -/
def Device.Answers (D : Device Act ε σ χ) {β : Type} (a : Act β) (x : Except ε β) : Prop :=
  ∃ t c s s', D.exec t a c s = some (x, s')

/-- Every action of the tree is of the given kind, and the result is as stated whatever the
actions answer. -/
def Prog.Makes (D : Device Act ε σ χ) (admits : ∀ {β : Type}, Act β → Prop)
    (post : Except ε α → Prop) : Prog Act ε α → Prop
  | .ret r => post r
  | .act a next => admits a ∧ ∀ x, D.Answers a x → Makes D admits post (next x)

def Prog.Uses (D : Device Act ε σ χ) (admits : ∀ {β : Type}, Act β → Prop)
    (p : Prog Act ε α) : Prop := p.Makes D admits fun _ => True

section Makes

variable {D : Device Act ε σ χ} {admits admits' : ∀ {β : Type}, Act β → Prop}
  {p : Prog Act ε α} {post post' : Except ε α → Prop}

theorem Prog.Makes.mono (makes : p.Makes D admits post)
    (kinds : ∀ {β : Type} (a : Act β), admits a → admits' a) (weaker : ∀ r, post r → post' r) :
    p.Makes D admits' post' := by
  induction p with
  | ret r => exact weaker r makes
  | act a k ih => exact ⟨kinds a makes.1, fun x answer => ih x (makes.2 x answer)⟩

theorem Prog.Makes.thenDo {post : Except ε β → Prop} {next : Except ε α → Prog Act ε β}
    (first : p.Makes D admits post') (rest : ∀ r, post' r → (next r).Makes D admits post) :
    (p.thenDo next).Makes D admits post := by
  induction p with
  | ret r => exact rest r first
  | act a k ih => exact ⟨first.1, fun x answer => ih x (first.2 x answer)⟩

theorem Prog.Makes.bind {post : Except ε β → Prop} {f : α → Prog Act ε β}
    (first : p.Makes D admits post') (rest : ∀ a, post' (.ok a) → (f a).Makes D admits post)
    (failed : ∀ e, post' (.error e) → post (.error e)) : (p >>= f).Makes D admits post := by
  refine Makes.thenDo first fun r holds => ?_
  cases r with
  | ok a => exact rest a holds
  | error e => exact failed e holds

theorem Prog.Makes.handle {handler : ε → Prog Act ε α} (first : p.Makes D admits post')
    (ok : ∀ a, post' (.ok a) → post (.ok a))
    (rest : ∀ e, post' (.error e) → (handler e).Makes D admits post) :
    (p.handle handler).Makes D admits post := by
  refine Makes.thenDo first fun r holds => ?_
  cases r with
  | ok a => exact ok a holds
  | error e => exact rest e holds

theorem Prog.Makes.andFinally {last : Prog Act ε Unit} {post' : Except ε Unit → Prop}
    (first : p.Makes D admits post) (rest : last.Makes D admits post')
    (failed : ∀ e, post' (.error e) → post (.error e)) : (p.andFinally last).Makes D admits post :=
  Makes.thenDo first fun _ holds => Makes.bind rest (fun _ _ => holds) failed

theorem Prog.Makes.perform {a : Act α} (kind : admits a) :
    (Prog.perform a : Prog Act ε α).Makes D admits (D.Answers a) := ⟨kind, fun _ answer => answer⟩

theorem Prog.Makes.and (first : p.Makes D admits post) (second : p.Makes D admits' post') :
    p.Makes D (fun a => admits a ∧ admits' a) fun r => post r ∧ post' r := by
  induction p with
  | ret r => exact ⟨first, second⟩
  | act a k ih => exact ⟨⟨first.1, second.1⟩, fun x answer => ih x (first.2 x answer) (second.2 x answer)⟩

theorem Prog.Makes.on {τ ψ : Type} {E : Device Act ε τ ψ} (makes : p.Makes D admits post)
    (fewer : ∀ {β : Type} (a : Act β) x, E.Answers a x → D.Answers a x) : p.Makes E admits post := by
  induction p with
  | ret r => exact makes
  | act a k ih => exact ⟨makes.1, fun x answer => ih x (makes.2 x (fewer a x answer))⟩

theorem Prog.Uses.thenDo {next : Except ε α → Prog Act ε β} (first : p.Uses D admits)
    (rest : ∀ r, (next r).Uses D admits) : (p.thenDo next).Uses D admits :=
  Makes.thenDo first fun r _ => rest r

theorem Prog.Uses.bind {f : α → Prog Act ε β} (first : p.Uses D admits)
    (rest : ∀ a, (f a).Uses D admits) : (p >>= f).Uses D admits :=
  Makes.bind first (fun a _ => rest a) fun _ _ => trivial

theorem Prog.Uses.handle {handler : ε → Prog Act ε α} (first : p.Uses D admits)
    (rest : ∀ e, (handler e).Uses D admits) : (p.handle handler).Uses D admits :=
  Makes.handle first (fun _ _ => trivial) fun e _ => rest e

theorem Prog.Uses.andFinally {last : Prog Act ε Unit} (first : p.Uses D admits)
    (rest : last.Uses D admits) : (p.andFinally last).Uses D admits :=
  Makes.andFinally first rest fun _ _ => trivial

theorem Prog.Uses.perform {a : Act α} (kind : admits a) :
    (Prog.perform a : Prog Act ε α).Uses D admits := ⟨kind, fun _ _ => trivial⟩

end Makes

/-! ## Rely and guarantee -/

/-- Who acts, under which choices, among whom, and what each own step guarantees. -/
structure Setting (Act : Type → Type) (ε σ χ : Type) where
  device : Device Act ε σ χ
  thread : Nat
  allowed : χ → Prop
  rely : σ → σ → Prop
  guarantee : σ → σ → Prop
  rely_refl : ∀ s, rely s s
  rely_trans : ∀ {s s' s''}, rely s s' → rely s' s'' → rely s s''

variable {C : Setting Act ε σ χ}

/-- Every step of the program keeps the guarantee, and it ends in `Q`, whatever the others
do in between. -/
def Prog.Safe (C : Setting Act ε σ χ) (Q : Except ε α → σ → Prop) : Prog Act ε α → σ → Prop
  | .ret r, s => ∀ s', C.rely s s' → Q r s'
  | .act a next, s => ∀ s', C.rely s s' → ∀ c, C.allowed c → ∀ x s'',
      C.device.exec C.thread a c s' = some (x, s'') →
        C.guarantee s' s'' ∧ Safe C Q (next x) s''

def Setting.Stable (C : Setting Act ε σ χ) (P : σ → Prop) : Prop :=
  ∀ s s', C.rely s s' → P s → P s'

namespace Prog.Safe

variable {Q Q' : Except ε α → σ → Prop} {p : Prog Act ε α} {s s' : σ}

theorem stable (safe : p.Safe C Q s) (others : C.rely s s') : p.Safe C Q s' := by
  cases p with
  | ret r | act a next => exact fun s'' more => safe s'' (C.rely_trans others more)

theorem weaken (safe : p.Safe C Q s) (post : ∀ r s, Q r s → Q' r s) : p.Safe C Q' s := by
  induction p generalizing s with
  | ret r => exact fun s' others => post r s' (safe s' others)
  | act a next ih =>
    intro s' others c choice x s'' done
    obtain ⟨kept, rest⟩ := safe s' others c choice x s'' done
    exact ⟨kept, ih x rest⟩

theorem ret {r : Except ε α} (holds : Q r s) (stable : C.Stable (Q r)) :
    (Prog.ret r : Prog Act ε α).Safe C Q s :=
  fun s' others => stable s s' others holds

theorem act {a : Act β} {next : Except ε β → Prog Act ε α} (P : σ → Prop) (pre : P s)
    (stable : C.Stable P)
    (step : ∀ s c x s', P s → C.allowed c → C.device.exec C.thread a c s = some (x, s') →
      C.guarantee s s' ∧ (next x).Safe C Q s') : (Prog.act a next).Safe C Q s :=
  fun s' others c choice x s'' done => step s' c x s'' (stable s s' others pre) choice done

theorem thenDo {Q : Except ε β → σ → Prop} {next : Except ε α → Prog Act ε β}
    (first : p.Safe C Q' s) (rest : ∀ r s, Q' r s → (next r).Safe C Q s) :
    (p.thenDo next).Safe C Q s := by
  induction p generalizing s with
  | ret r => exact rest r s (first s (C.rely_refl s))
  | act a k ih =>
    intro s' others c choice x s'' done
    obtain ⟨kept, later⟩ := first s' others c choice x s'' done
    exact ⟨kept, ih x later⟩

theorem bind {Q : Except ε β → σ → Prop} {f : α → Prog Act ε β} (first : p.Safe C Q' s)
    (rest : ∀ a s, Q' (.ok a) s → (f a).Safe C Q s)
    (failed : ∀ e s, Q' (.error e) s → (Prog.ret (.error e) : Prog Act ε β).Safe C Q s) :
    (p >>= f).Safe C Q s := by
  refine thenDo first fun r s holds => ?_
  cases r with
  | ok a => exact rest a s holds
  | error e => exact failed e s holds

theorem value {x : Except ε β} {f : β → Prog Act ε α} (ok : ∀ b, x = .ok b → (f b).Safe C Q s)
    (failed : ∀ e, x = .error e → (Prog.ret (.error e) : Prog Act ε α).Safe C Q s) :
    ((Prog.ret x : Prog Act ε β) >>= f).Safe C Q s := by
  cases x with
  | ok b => exact ok b rfl
  | error e => exact failed e rfl

theorem perform {a : Act β} {f : β → Prog Act ε α} (P : σ → Prop) (pre : P s) (stable : C.Stable P)
    (kept : ∀ s c x s', P s → C.allowed c → C.device.exec C.thread a c s = some (x, s') →
      C.guarantee s s')
    (ok : ∀ s c b s', P s → C.allowed c → C.device.exec C.thread a c s = some (.ok b, s') →
      (f b).Safe C Q s')
    (failed : ∀ s c e s', P s → C.allowed c → C.device.exec C.thread a c s = some (.error e, s') →
      (Prog.ret (.error e) : Prog Act ε α).Safe C Q s') : (Prog.perform a >>= f).Safe C Q s := by
  refine Safe.act P pre stable fun s c x s' holds choice done =>
    ⟨kept s c x s' holds choice done, ?_⟩
  cases x with
  | ok b => exact ok s c b s' holds choice done
  | error e => exact failed s c e s' holds choice done

theorem of_makes {admits : ∀ {β : Type}, Act β → Prop} {post : Except ε α → Prop} (P : σ → Prop)
    (makes : p.Makes C.device admits post) (pre : P s) (stable : C.Stable P)
    (harmless : ∀ {β : Type} (a : Act β) s c x s', admits a → P s → C.allowed c →
      C.device.exec C.thread a c s = some (x, s') → C.guarantee s s' ∧ P s') :
    p.Safe C (fun r s => post r ∧ P s) s := by
  induction p generalizing s with
  | ret r => exact fun s' others => ⟨makes, stable s s' others pre⟩
  | act a next ih =>
    intro s' others c choice x s'' done
    obtain ⟨kept, holds⟩ := harmless a s' c x s'' makes.1 (stable s s' others pre) choice done
    exact ⟨kept, ih x (makes.2 x ⟨_, _, _, _, done⟩) holds⟩

theorem and_makes {admits : ∀ {β : Type}, Act β → Prop} {post : Except ε α → Prop}
    (safe : p.Safe C Q s) (makes : p.Makes C.device admits post) :
    p.Safe C (fun r s => Q r s ∧ post r) s := by
  induction p generalizing s with
  | ret r => exact fun s' others => ⟨safe s' others, makes⟩
  | act a next ih =>
    intro s' others c choice x s'' done
    obtain ⟨kept, rest⟩ := safe s' others c choice x s'' done
    exact ⟨kept, ih x rest (makes.2 x ⟨_, _, _, _, done⟩)⟩

theorem ends {r : Except ε α} (safe : p.Safe C Q s)
    (run : p.Ends C.device C.thread C.allowed s r s') :
    Q r s' ∧ Relation.ReflTransGen C.guarantee s s' := by
  induction run with
  | ret => exact ⟨safe _ (C.rely_refl _), .refl⟩
  | act choice done rest ih =>
    obtain ⟨kept, later⟩ := safe _ (C.rely_refl _) _ choice _ _ done
    obtain ⟨post, chain⟩ := ih later
    exact ⟨post, .head kept chain⟩

end Prog.Safe

/-! ## Programs that run alone -/

/-- Alone, the program is never blocked, every step keeps the guarantee, and it ends in `Q`. -/
def Prog.Total (C : Setting Act ε σ χ) (Q : Except ε α → σ → Prop) : Prog Act ε α → σ → Prop
  | .ret r, s => Q r s
  | .act a next, s => ∀ c, C.allowed c → ∃ x s',
      C.device.exec C.thread a c s = some (x, s') ∧ C.guarantee s s' ∧ Total C Q (next x) s'

def Setting.alone (D : Device Act ε σ χ) (t : Nat) (allowed : χ → Prop)
    (guarantee : σ → σ → Prop) : Setting Act ε σ χ where
  device := D
  thread := t
  allowed := allowed
  rely := Eq
  guarantee := guarantee
  rely_refl _ := rfl
  rely_trans := Eq.trans

namespace Prog.Total

variable {Q Q' : Except ε α → σ → Prop} {p : Prog Act ε α} {s s' : σ}

theorem mono (total : p.Total C Q s) (post : ∀ r s, Q r s → Q' r s) : p.Total C Q' s := by
  induction p generalizing s with
  | ret r => exact post r s total
  | act a next ih =>
    intro c choice
    obtain ⟨x, s', done, kept, rest⟩ := total c choice
    exact ⟨x, s', done, kept, ih x rest⟩

theorem thenDo {Q : Except ε β → σ → Prop} {next : Except ε α → Prog Act ε β}
    (first : p.Total C Q' s) (rest : ∀ r s, Q' r s → (next r).Total C Q s) :
    (p.thenDo next).Total C Q s := by
  induction p generalizing s with
  | ret r => exact rest r s first
  | act a k ih =>
    intro c choice
    obtain ⟨x, s', done, kept, later⟩ := first c choice
    exact ⟨x, s', done, kept, ih x later⟩

theorem bind {Q : Except ε β → σ → Prop} {f : α → Prog Act ε β} (first : p.Total C Q' s)
    (rest : ∀ a s, Q' (.ok a) s → (f a).Total C Q s)
    (failed : ∀ e s, Q' (.error e) s → Q (.error e) s) : (p >>= f).Total C Q s := by
  refine thenDo first fun r s holds => ?_
  cases r with
  | ok a => exact rest a s holds
  | error e => exact failed e s holds

theorem value {x : Except ε β} {f : β → Prog Act ε α} (ok : ∀ b, x = .ok b → (f b).Total C Q s)
    (failed : ∀ e, x = .error e → Q (.error e) s) :
    ((Prog.ret x : Prog Act ε β) >>= f).Total C Q s := by
  cases x with
  | ok b => exact ok b rfl
  | error e => exact failed e rfl

theorem perform {a : Act α} (step : ∀ c, C.allowed c → ∃ x s',
    C.device.exec C.thread a c s = some (x, s') ∧ C.guarantee s s' ∧ Q x s') :
    (Prog.perform a).Total C Q s := step

theorem step {a : Act β} {f : β → Prog Act ε α} (step : ∀ c, C.allowed c → ∃ x s',
    C.device.exec C.thread a c s = some (x, s') ∧ C.guarantee s s' ∧
      (∀ b, x = .ok b → (f b).Total C Q s') ∧ ∀ e, x = .error e → Q (.error e) s') :
    (Prog.perform a >>= f).Total C Q s := by
  intro c choice
  obtain ⟨x, s', done, kept, ok, failed⟩ := step c choice
  refine ⟨x, s', done, kept, ?_⟩
  cases x with
  | ok b => exact ok b rfl
  | error e => exact failed e rfl

theorem handle {handler : ε → Prog Act ε α} (first : p.Total C Q' s)
    (ok : ∀ a s, Q' (.ok a) s → Q (.ok a) s)
    (rest : ∀ e s, Q' (.error e) s → (handler e).Total C Q s) : (p.handle handler).Total C Q s := by
  refine thenDo first fun r s holds => ?_
  cases r with
  | ok a => exact ok a s holds
  | error e => exact rest e s holds

theorem andFinally {last : Prog Act ε Unit} (first : p.Total C Q' s)
    (rest : ∀ r s, Q' r s → last.Total C (fun x s => (x = .ok () → Q r s) ∧
      ∀ e, x = .error e → Q (.error e) s) s) : (p.andFinally last).Total C Q s := by
  refine thenDo first fun r s holds => ?_
  refine bind (rest r s holds) (fun _ s post => post.1 rfl) fun e s post => post.2 e rfl

theorem thenDo_ret_iff {Q : Except ε β → σ → Prop} {g : Except ε α → Except ε β}
    {next : Except ε α → Prog Act ε β} (computes : ∀ r, next r = .ret (g r)) :
    (p.thenDo next).Total C Q s ↔ p.Total C (fun r s => Q (g r) s) s := by
  constructor
  · intro total
    induction p generalizing s with
    | ret r =>
      rw [Prog.thenDo, computes r] at total
      exact total
    | act a k ih =>
      intro c choice
      obtain ⟨x, s', done, kept, rest⟩ := total c choice
      exact ⟨x, s', done, kept, ih x rest⟩
  · intro total
    refine thenDo total fun r s holds => ?_
    rw [computes r]
    exact holds

theorem bind_pure_iff {Q : Except ε β → σ → Prop} {b : β} :
    (p >>= fun _ => pure b : Prog Act ε β).Total C Q s ↔
      p.Total C (fun r s => Q (r.map fun _ => b) s) s := by
  refine thenDo_ret_iff fun r => ?_
  cases r <;> rfl

theorem of_alone {D : Device Act ε σ χ} {t : Nat} {allowed allowed' : χ → Prop} {G : σ → σ → Prop}
    (total : p.Total (.alone D t allowed G) Q s) (fewer : ∀ c, allowed' c → allowed c) :
    p.Total (.alone D t allowed' G) Q s := by
  induction p generalizing s with
  | ret r => exact total
  | act a next ih =>
    intro c choice
    obtain ⟨x, s', done, kept, rest⟩ := total c (fewer c choice)
    exact ⟨x, s', done, kept, ih x rest⟩

theorem and (first : p.Total C Q s) (second : p.Total C Q' s) :
    p.Total C (fun r s => Q r s ∧ Q' r s) s := by
  induction p generalizing s with
  | ret r => exact ⟨first, second⟩
  | act a next ih =>
    intro c choice
    obtain ⟨x, s', done, kept, rest⟩ := first c choice
    obtain ⟨y, s'', again, -, rest'⟩ := second c choice
    rw [done] at again
    obtain ⟨rfl, rfl⟩ := Prod.mk.inj (Option.some.inj again)
    exact ⟨x, s', done, kept, ih x rest rest'⟩

theorem and_makes {admits : ∀ {β : Type}, Act β → Prop} {post : Except ε α → Prop}
    (total : p.Total C Q s) (makes : p.Makes C.device admits post) :
    p.Total C (fun r s => Q r s ∧ post r) s := by
  induction p generalizing s with
  | ret r => exact ⟨total, makes⟩
  | act a next ih =>
    intro c choice
    obtain ⟨x, s', done, kept, rest⟩ := total c choice
    exact ⟨x, s', done, kept, ih x rest (makes.2 x ⟨_, _, _, _, done⟩)⟩

theorem ends {r : Except ε α} (total : p.Total C Q s)
    (run : p.Ends C.device C.thread C.allowed s r s') : Q r s' := by
  induction run with
  | ret => exact total
  | act choice done rest ih =>
    obtain ⟨y, s₁, again, -, later⟩ := total _ choice
    rw [done] at again
    obtain ⟨rfl, rfl⟩ := Prod.mk.inj (Option.some.inj again)
    exact ih later

theorem exists_run (total : p.Total C Q s) (some_choice : ∃ c, C.allowed c) :
    ∃ r s', p.Ends C.device C.thread C.allowed s r s' ∧ Q r s' := by
  obtain ⟨c, choice⟩ := some_choice
  induction p generalizing s with
  | ret r => exact ⟨r, s, .ret, total⟩
  | act a next ih =>
    obtain ⟨x, s', done, -, later⟩ := total c choice
    obtain ⟨r, s'', run, post⟩ := ih x later
    exact ⟨r, s'', .act choice done run, post⟩

theorem of_makes {admits : ∀ {β : Type}, Act β → Prop} {post : Except ε α → Prop} (P : σ → Prop)
    (makes : p.Makes C.device admits post) (pre : P s)
    (prompt : ∀ {β : Type} (a : Act β) s c, admits a → P s → C.allowed c → ∃ x s',
      C.device.exec C.thread a c s = some (x, s') ∧ C.guarantee s s' ∧ P s') :
    p.Total C (fun r s => post r ∧ P s) s := by
  induction p generalizing s with
  | ret r => exact ⟨makes, pre⟩
  | act a next ih =>
    intro c choice
    obtain ⟨x, s', done, kept, holds⟩ := prompt a s c makes.1 pre choice
    exact ⟨x, s', done, kept, ih x (makes.2 x ⟨_, _, _, _, done⟩) holds⟩

end Prog.Total

end AiStorage.Lib
