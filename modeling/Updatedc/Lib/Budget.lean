import Mathlib

/-!
# Spending a budget along a list

A sweep walks a list and grants its items one by one while a counter is below a budget. Several
sweeps may share one counter: each starts where the one before it stopped. What a caller needs is
how many items one sweep grants (`countP_grant`), from which the bounds on any chain of sweeps are
arithmetic; `card_le_countP` turns such a count into a bound on the set of items.
-/

namespace Updatedc.Budget

variable {α : Type*}

/-- Pair every item with whether it was granted: it was if fewer than `budget` grants were made
before it, `moved` of them before the sweep. -/
def grant (budget : Nat) : Nat → List α → List (α × Bool)
  | _, [] => []
  | moved, x :: rest =>
    if moved < budget then (x, true) :: grant budget (moved + 1) rest
    else (x, false) :: grant budget moved rest

/-- The counter after a sweep. -/
def spent (budget moved : Nat) (items : List α) : Nat :=
  moved + (grant budget moved items).countP (·.2)

/-- A sweep answers every item, in order. -/
@[simp]
theorem map_fst_grant (budget moved : Nat) (items : List α) :
    (grant budget moved items).map Prod.fst = items := by
  induction items generalizing moved with
  | nil => rfl
  | cons x rest ih =>
    unfold grant
    split <;> simp [ih]

theorem mem_of_mem_grant {budget moved : Nat} {items : List α} {x : α} {granted : Bool}
    (member : (x, granted) ∈ grant budget moved items) : x ∈ items := by
  rw [← map_fst_grant budget moved items]
  exact List.mem_map_of_mem member

theorem exists_mem_grant {budget moved : Nat} {items : List α} {x : α} (member : x ∈ items) :
    ∃ granted, (x, granted) ∈ grant budget moved items := by
  rw [← map_fst_grant budget moved items] at member
  obtain ⟨⟨y, granted⟩, found, rfl⟩ := List.mem_map.mp member
  exact ⟨granted, found⟩

/-- A sweep grants as many items as there are, or as the budget has left. -/
theorem countP_grant (budget moved : Nat) (items : List α) :
    (grant budget moved items).countP (·.2) = min items.length (budget - moved) := by
  induction items generalizing moved with
  | nil => simp [grant]
  | cons x rest ih =>
    unfold grant
    split <;> simp [ih] <;> omega

/-- What a sweep grants among items that are all of one kind. -/
theorem countP_grant_of_all {budget moved : Nat} {items : List α} (kind : α → Bool)
    (all : ∀ x ∈ items, kind x = true) :
    (grant budget moved items).countP (fun entry => entry.2 && kind entry.1) =
      (grant budget moved items).countP (·.2) :=
  List.countP_congr fun entry member => by simp [all _ (mem_of_mem_grant member)]

theorem countP_grant_of_none {budget moved : Nat} {items : List α} (kind : α → Bool)
    (none : ∀ x ∈ items, kind x = false) :
    (grant budget moved items).countP (fun entry => entry.2 && kind entry.1) = 0 :=
  List.countP_eq_zero.mpr fun entry member => by simp [none _ (mem_of_mem_grant member)]

/-- An exhausted budget grants nothing. -/
theorem not_granted_of_le {budget moved : Nat} (exhausted : budget ≤ moved) {items : List α}
    {x : α} {granted : Bool} (member : (x, granted) ∈ grant budget moved items) :
    granted = false := by
  have none_granted : (grant budget moved items).countP (·.2) = 0 := by
    rw [countP_grant]
    omega
  simpa using List.countP_eq_zero.mp none_granted _ member

/-- A set whose elements each come from their own accepted list item is no larger than the number
of accepted items. -/
theorem card_le_countP {β : Type*} [DecidableEq β] {set : Finset β} {items : List α} (f : α → β)
    (p : α → Bool) (cover : ∀ y ∈ set, ∃ x ∈ items, p x = true ∧ f x = y) :
    set.card ≤ items.countP p := by
  have subset : set ⊆ ((items.filter p).map f).toFinset := by
    intro y member
    obtain ⟨x, listed, accepted, rfl⟩ := cover y member
    exact List.mem_toFinset.mpr (List.mem_map_of_mem (List.mem_filter.mpr ⟨listed, accepted⟩))
  calc set.card ≤ ((items.filter p).map f).toFinset.card := Finset.card_le_card subset
    _ ≤ ((items.filter p).map f).length := List.toFinset_card_le _
    _ = items.countP p := by rw [List.length_map, List.countP_eq_length_filter]

end Updatedc.Budget
