import Mathlib.Data.List.Basic

/-!
# Runs of a deterministic step function

A run folds a step function over a schedule of actions. `Along` states a
condition on every transition of a run, read at the state it is taken from.
-/
namespace AiStorage.Lib

variable {σ α : Type*} {step : σ → α → σ}

def run (step : σ → α → σ) (s : σ) (schedule : List α) : σ := schedule.foldl step s

@[simp] theorem run_nil (s : σ) : run step s [] = s := rfl

@[simp] theorem run_cons (s : σ) (a : α) (rest : List α) :
    run step s (a :: rest) = run step (step s a) rest := rfl

/-- Every transition of the run meets the condition. -/
def Along (step : σ → α → σ) (condition : σ → α → Prop) : σ → List α → Prop
  | _, [] => True
  | s, a :: rest => condition s a ∧ Along step condition (step s a) rest

theorem run_append (s : σ) (first rest : List α) :
    run step s (first ++ rest) = run step (run step s first) rest := List.foldl_append

variable {condition : σ → α → Prop} {s : σ}

theorem Along.of_append {first rest : List α}
    (along : Along step condition s (first ++ rest)) : Along step condition s first := by
  induction first generalizing s with
  | nil => trivial
  | cons a first ih => exact ⟨along.1, ih along.2⟩

theorem run_invariant (inv : σ → Prop) (preserved : ∀ s a, inv s → inv (step s a))
    (initial : inv s) (schedule : List α) : inv (run step s schedule) := by
  induction schedule generalizing s with
  | nil => exact initial
  | cons a rest ih => exact ih (preserved s a initial)

theorem Along.invariant (inv : σ → Prop)
    (preserved : ∀ s a, inv s → condition s a → inv (step s a)) (initial : inv s)
    {schedule : List α} (along : Along step condition s schedule) : inv (run step s schedule) := by
  induction schedule generalizing s with
  | nil => exact initial
  | cons a rest ih => exact ih (preserved s a initial along.1) along.2

theorem Along.strengthen {result : σ → α → Prop} (inv : σ → Prop)
    (preserved : ∀ s a, inv s → condition s a → inv (step s a))
    (gives : ∀ s a, inv s → condition s a → result s a) (initial : inv s)
    {schedule : List α} (along : Along step condition s schedule) :
    Along step result s schedule := by
  induction schedule generalizing s with
  | nil => trivial
  | cons a rest ih =>
    exact ⟨gives s a initial along.1, ih (preserved s a initial along.1) along.2⟩

end AiStorage.Lib
