import Mathlib.Data.List.Basic

/-!
# Counting threads by role

Each thread of a system has at most one role towards a given resource.
-/
namespace AiStorage.Lib

variable {σ ρ : Type*} [DecidableEq ρ]

def countRole (role : σ → Option ρ) (threads : List σ) (r : ρ) : Nat :=
  threads.countP fun state => role state = some r

/-- One for the role that is had, zero for others. -/
def hasRole (had : Option ρ) (r : ρ) : Nat := if had = some r then 1 else 0

@[simp] theorem hasRole_none (r : ρ) : hasRole none r = 0 := rfl

@[simp] theorem hasRole_self (r : ρ) : hasRole (some r) r = 1 := if_pos rfl

theorem countRole_append (role : σ → Option ρ) (threads : List σ) (state : σ) (r : ρ) :
    countRole role (threads ++ [state]) r = countRole role threads r + hasRole (role state) r := by
  simp [countRole, hasRole, List.countP_append, List.countP_singleton]

theorem countRole_set (role : σ → Option ρ) {threads : List σ} {t : Nat} {old : σ}
    (here : threads[t]? = some old) (new : σ) (r : ρ) :
    countRole role (threads.set t new) r + hasRole (role old) r =
      countRole role threads r + hasRole (role new) r := by
  unfold countRole hasRole
  induction threads generalizing t with
  | nil => simp at here
  | cons first rest ih =>
    cases t with
    | zero =>
      obtain rfl : first = old := by simpa using here
      simp only [List.set_cons_zero, List.countP_cons, decide_eq_true_eq]
      omega
    | succ t =>
      have later := ih (by simpa using here)
      simp only [List.set_cons_succ, List.countP_cons] at later ⊢
      omega

theorem countRole_pos {role : σ → Option ρ} {threads : List σ} {t : Nat} {state : σ} {r : ρ}
    (here : threads[t]? = some state) (has : role state = some r) : 0 < countRole role threads r :=
  List.countP_pos_iff.mpr ⟨state, List.mem_of_getElem? here, by simpa using has⟩

theorem exists_of_countRole_pos {role : σ → Option ρ} {threads : List σ} {r : ρ}
    (positive : 0 < countRole role threads r) :
    ∃ (t : Nat) (state : σ), threads[t]? = some state ∧ role state = some r := by
  obtain ⟨state, member, has⟩ := List.countP_pos_iff.mp positive
  obtain ⟨t, here⟩ := List.mem_iff_getElem?.mp member
  exact ⟨t, state, here, by simpa using has⟩

end AiStorage.Lib
