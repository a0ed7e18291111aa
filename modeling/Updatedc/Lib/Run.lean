import Mathlib

/-!
# Runs

A run is a list of inputs taken one after the other from a state. A condition on single steps
holds *along* a run when each step meets it in the state it is taken in, and what every such step
preserves holds at the end of the run.
-/

namespace Updatedc.Run

variable {σ ι : Type*} {step : σ → ι → σ} {cond : σ → ι → Prop}

/-- Every step of the run meets the condition, in the state it is taken in. -/
def Along (step : σ → ι → σ) (cond : σ → ι → Prop) : σ → List ι → Prop
  | _, [] => True
  | s, i :: rest => cond s i ∧ Along step cond (step s i) rest

instance Along.decidable [∀ s i, Decidable (cond s i)] :
    ∀ s inputs, Decidable (Along step cond s inputs)
  | _, [] => isTrue trivial
  | s, i :: rest =>
    have := Along.decidable (step s i) rest
    inferInstanceAs (Decidable (cond s i ∧ Along step cond (step s i) rest))

theorem along_singleton {s : σ} {i : ι} : Along step cond s [i] ↔ cond s i := by
  simp [Along]

theorem along_append {s : σ} {first second : List ι} :
    Along step cond s (first ++ second) ↔
      Along step cond s first ∧ Along step cond (first.foldl step s) second := by
  induction first generalizing s with
  | nil => simp [Along]
  | cons i rest ih => simp [Along, ih, and_assoc]

/-- The condition at any one step of the run. -/
theorem Along.at_step {s : σ} {before after : List ι} {i : ι}
    (along : Along step cond s (before ++ i :: after)) : cond (before.foldl step s) i :=
  (along_append.mp along).2.1

/-- A condition that holds at every step of the run holds along it. -/
theorem along_of_forall_split {s : σ} {inputs : List ι}
    (holds : ∀ before i after, inputs = before ++ i :: after → cond (before.foldl step s) i) :
    Along step cond s inputs := by
  induction inputs generalizing s with
  | nil => exact trivial
  | cons i rest ih =>
    refine ⟨holds [] i rest rfl, ih fun before j after split => ?_⟩
    exact holds (i :: before) j after (by rw [split, List.cons_append])

theorem Along.and {other : σ → ι → Prop} {s : σ} {inputs : List ι}
    (first : Along step cond s inputs) (second : Along step other s inputs) :
    Along step (fun s i => cond s i ∧ other s i) s inputs := by
  induction inputs generalizing s with
  | nil => exact trivial
  | cons i rest ih => exact ⟨⟨first.1, second.1⟩, ih first.2 second.2⟩

/-- What each step preserves, the run preserves. -/
theorem Along.invariant (inv : σ → Prop) (kept : ∀ s i, cond s i → inv s → inv (step s i))
    {s : σ} {inputs : List ι} (along : Along step cond s inputs) (start : inv s) :
    inv (inputs.foldl step s) := by
  induction inputs generalizing s with
  | nil => exact start
  | cons i rest ih => exact ih along.2 (kept s i along.1 start)

/-- A condition that follows from an invariant of the run holds along it. -/
theorem Along.of_invariant (inv : σ → Prop) {goal : σ → ι → Prop}
    (kept : ∀ s i, cond s i → inv s → inv (step s i))
    (holds : ∀ s i, cond s i → inv s → goal s i) {s : σ} {inputs : List ι}
    (along : Along step cond s inputs) (start : inv s) : Along step goal s inputs := by
  induction inputs generalizing s with
  | nil => exact trivial
  | cons i rest ih =>
    exact ⟨holds s i along.1 start, ih along.2 (kept s i along.1 start)⟩

end Updatedc.Run
