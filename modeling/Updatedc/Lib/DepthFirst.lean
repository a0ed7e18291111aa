import Mathlib

/-!
# The trail of a depth-first walk

A depth-first walk keeps the vertices it is inside of on a stack, and marks them. While it walks,
the stack is a path along the graph's edges and the marks are exactly the stack (`Trail`). An edge
from the top of the stack back to a marked vertex therefore closes a cycle, and the stack from that
vertex on is the cycle (`Trail.closes`).
-/

namespace Updatedc

open Relation

variable {α : Type*} {edge : α → α → Prop} {marked marked' : α → Prop} {stack : List α} {a : α}

/-- The stack is a path, and the marks are its vertices. -/
structure Trail (edge : α → α → Prop) (marked : α → Prop) (stack : List α) : Prop where
  path : stack.IsChain edge
  marks : ∀ a, marked a ↔ a ∈ stack

/-- A path of at least one edge leads from its first vertex to its last. -/
theorem transGen_of_isChain {b : α} {path : List α}
    (chain : (a :: (path ++ [b])).IsChain edge) : TransGen edge a b := by
  induction path generalizing a with
  | nil => exact .single (List.isChain_pair.mp chain)
  | cons next rest ih =>
    rw [List.cons_append, List.isChain_cons_cons] at chain
    exact .head chain.1 (ih chain.2)

/-- Every vertex of a closed walk lies on a cycle. -/
theorem transGen_of_closed {path : List α} (closed : (a :: (path ++ [a])).IsChain edge) :
    ∀ b ∈ a :: path, TransGen edge b b := by
  intro b member
  rcases List.mem_cons.mp member with rfl | inside
  · exact transGen_of_isChain closed
  · obtain ⟨before, after, rfl⟩ := List.append_of_mem inside
    have parts : ((a :: before) ++ b :: (after ++ [a])).IsChain edge := by simpa using closed
    obtain ⟨there, back⟩ := List.isChain_split.mp parts
    exact (transGen_of_isChain back).trans (transGen_of_isChain there)

namespace Trail

/-- Entering a vertex that the top of the stack has an edge to. -/
theorem push (trail : Trail edge marked stack) (reached : ∀ top ∈ stack.getLast?, edge top a)
    (marks : ∀ b, marked' b ↔ marked b ∨ b = a) : Trail edge marked' (stack ++ [a]) where
  path := trail.path.append (.singleton a) fun top last b first => by
    cases first
    exact reached top last
  marks b := by rw [marks, trail.marks, List.mem_append, List.mem_singleton]

/-- Leaving the vertex entered last. -/
theorem pop (trail : Trail edge marked (stack ++ [a])) (fresh : a ∉ stack)
    (marks : ∀ b, marked' b ↔ marked b ∧ b ≠ a) : Trail edge marked' stack where
  path := trail.path.left_of_append
  marks b := by
    rw [marks, trail.marks, List.mem_append, List.mem_singleton]
    constructor
    · rintro ⟨inside | rfl, other⟩
      · exact inside
      · exact absurd rfl other
    · intro inside
      refine ⟨.inl inside, ?_⟩
      rintro rfl
      exact fresh inside

/-- **Back to a marked vertex is a cycle.** -/
theorem closes [DecidableEq α] (trail : Trail edge marked stack) (seen : marked a)
    (reached : ∀ top ∈ stack.getLast?, edge top a) :
    ∀ b ∈ stack.dropWhile (· != a) ++ [a], TransGen edge b b := by
  obtain ⟨before, after, rfl, fresh⟩ :=
    List.eq_append_cons_of_mem ((trail.marks a).mp seen)
  have rest : (before ++ a :: after).dropWhile (· != a) = a :: after := by
    rw [List.dropWhile_append_of_pos, List.dropWhile_cons_of_neg (by simp)]
    intro b earlier
    simp only [bne_iff_ne, ne_eq]
    rintro rfl
    exact fresh earlier
  have closed : (a :: (after ++ [a])).IsChain edge := by
    rw [← List.cons_append]
    refine trail.path.right_of_append.append (.singleton a) fun top last b first => ?_
    cases first
    exact reached top (by rwa [List.getLast?_append_of_ne_nil _ (List.cons_ne_nil _ _)])
  intro b member
  rw [rest, List.mem_append, List.mem_singleton] at member
  rcases member with inside | rfl
  · exact transGen_of_closed closed b inside
  · exact transGen_of_closed closed b List.mem_cons_self

end Trail

end Updatedc
