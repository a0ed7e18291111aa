import Mathlib

/-!
# Breadth-first order

A breadth-first search that follows the successors of a vertex in their own order meets every vertex
first along its **least** path: the shortest one, and among the shortest the lexicographically
least. The reason is one invariant of the order in which vertices are met (`Layered`): it is the
order of the paths they were met along. A vertex that is queued later hangs below a vertex popped
later, so its path comes later too, and whatever is met again was met along a smaller path.

`key` is the order on paths, and `Layered.least` what the invariant says about all other paths.
-/

namespace Updatedc.BreadthFirst

variable {α : Type*}

/-! ## The order on paths -/

/-- Paths by length first, then lexicographically. -/
def key (path : List α) : ℕ ×ₗ List α := toLex (path.length, path)

theorem key_injective : Function.Injective (key : List α → ℕ ×ₗ List α) := fun p q same => by
  have same : (p.length, p) = (q.length, q) := toLex.injective same
  exact congrArg Prod.snd same

variable [LinearOrder α] {p q : List α} {a b : α}

theorem key_lt_iff : key p < key q ↔ p.length < q.length ∨ p.length = q.length ∧ p < q :=
  Prod.Lex.toLex_lt_toLex

theorem key_le_iff : key p ≤ key q ↔ p.length < q.length ∨ p.length = q.length ∧ p ≤ q :=
  Prod.Lex.toLex_le_toLex

/-- Lists of one length that differ keep their order when both grow. -/
theorem append_lt_append (length : p.length = q.length) (less : p < q) (s t : List α) :
    p ++ s < q ++ t := by
  induction p generalizing q with
  | nil =>
    cases q with
    | nil => exact absurd less (lt_irrefl _)
    | cons => cases length
  | cons x p ih =>
    cases q with
    | nil => cases length
    | cons y q =>
      simp only [List.cons_append, List.cons_lt_cons_iff] at less ⊢
      rcases less with first | ⟨same, rest⟩
      · exact .inl first
      · exact .inr ⟨same, ih (Nat.succ.inj length) rest⟩

theorem key_snoc_lt (less : key p < key q) : key (p ++ [a]) < key (q ++ [b]) := by
  rw [key_lt_iff] at less ⊢
  simp only [List.length_append, List.length_singleton, add_lt_add_iff_right, add_left_inj]
  rcases less with shorter | ⟨length, less⟩
  · exact .inl shorter
  · exact .inr ⟨length, append_lt_append length less _ _⟩

theorem key_snoc_le (le : key p ≤ key q) : key (p ++ [a]) ≤ key (q ++ [a]) := by
  rcases le.eq_or_lt with same | less
  · rw [key_injective same]
  · exact (key_snoc_lt less).le

theorem key_lt_snoc : key p < key (p ++ [a]) :=
  key_lt_iff.mpr (.inl (by simp))

theorem key_snoc_lt_of_lt (less : a < b) : key (p ++ [a]) < key (p ++ [b]) := by
  refine key_lt_iff.mpr (.inr ⟨by simp, ?_⟩)
  exact List.Lex.append_left _ (List.Lex.rel less) p

theorem key_cons_le_iff : key (a :: p) ≤ key (a :: q) ↔ key p ≤ key q := by
  simp only [key_le_iff, List.length_cons, add_lt_add_iff_right, add_left_inj]
  refine or_congr_right (and_congr_right fun _ => ?_)
  simp [← not_lt]

/-! ## The order of a search -/

/-- What a breadth-first search knows between two turns: `done` are the vertices it has followed,
`queue` those it still will, and `path` the paths they were met along. -/
structure Layered (edge : α → α → Prop) (starts done queue : List α) (path : α → List α) :
    Prop where
  /-- Vertices were met in the order of their paths. -/
  ordered : (done ++ queue).Pairwise fun u v => key (path u) < key (path v)
  started : ∀ s ∈ starts, s ∈ done ++ queue ∧ path s = [s]
  rooted : ∀ v ∈ done ++ queue, path v = [v] ∨ ∃ u ∈ done, path v = path u ++ [v]
  /-- What a followed vertex leads to was met along no larger path. -/
  followed : ∀ u ∈ done, ∀ w, edge u w → w ∈ done ++ queue ∧ key (path w) ≤ key (path u ++ [w])

namespace Layered

variable {edge : α → α → Prop} {starts done queue found : List α} {path path' : α → List α}
  {u v w : α}

theorem start (sorted : starts.Pairwise (· < ·)) : Layered edge starts [] starts fun v => [v] where
  ordered := sorted.imp fun {a b} less => by
    simpa using key_snoc_lt_of_lt (p := []) less
  started s member := ⟨member, rfl⟩
  rooted v _ := .inl rfl
  followed u member := absurd member List.not_mem_nil

theorem path_length (known : Layered edge starts done queue path) (met : v ∈ done ++ queue) :
    0 < (path v).length := by
  rcases known.rooted v met with root | ⟨u, -, below⟩
  · simp [root]
  · simp [below]

/-- Everything met so far comes before whatever the oldest queued vertex leads to. -/
theorem before_next (known : Layered edge starts done (v :: queue) path)
    (met : u ∈ done ++ v :: queue) : key (path u) < key (path v ++ [w]) := by
  rcases known.rooted u met with root | ⟨parent, followed, below⟩
  · have := known.path_length (List.mem_append_right done (List.mem_cons_self (l := queue)))
    refine key_lt_iff.mpr (.inl ?_)
    simp only [root, List.length_singleton, List.length_append]
    omega
  · rw [below]
    have order := (List.pairwise_append.mp known.ordered).2.2
    exact key_snoc_lt (order parent followed v List.mem_cons_self)

/-- One turn: the oldest vertex is followed, and what it leads to and was not met is queued in
order. -/
theorem follow (known : Layered edge starts done (v :: queue) path)
    (sorted : found.Pairwise (· < ·))
    (finds : ∀ w, w ∈ found ↔ edge v w ∧ w ∉ done ++ v :: queue)
    (kept : ∀ u ∈ done ++ v :: queue, path' u = path u)
    (below : ∀ w ∈ found, path' w = path v ++ [w]) :
    Layered edge starts (done ++ [v]) (queue ++ found) path' := by
  have all : done ++ [v] ++ (queue ++ found) = (done ++ v :: queue) ++ found := by simp
  have here : v ∈ done ++ v :: queue := List.mem_append_right _ List.mem_cons_self
  refine ⟨?_, ?_, ?_, ?_⟩ <;> rw [all]
  · refine List.pairwise_append.mpr ⟨?_, ?_, fun u met w new => ?_⟩
    · refine known.ordered.imp_of_mem fun {a b} first second less => ?_
      rwa [kept a first, kept b second]
    · refine sorted.imp_of_mem fun {a b} first second less => ?_
      rw [below a first, below b second]
      exact key_snoc_lt_of_lt less
    · rw [kept u met, below w new]
      exact known.before_next met
  · intro s member
    have ⟨met, root⟩ := known.started s member
    exact ⟨List.mem_append_left _ met, (kept s met).trans root⟩
  · intro w member
    rcases List.mem_append.mp member with met | new
    · rcases known.rooted w met with root | ⟨u, followed, hangs⟩
      · exact .inl ((kept w met).trans root)
      · have earlier := List.mem_append_left (v :: queue) followed
        refine .inr ⟨u, List.mem_append_left _ followed, ?_⟩
        rw [kept w met, kept u earlier, hangs]
    · refine .inr ⟨v, List.mem_append_right _ (List.mem_singleton_self v), ?_⟩
      rw [below w new, kept v here]
  · intro u followed w leads
    rcases List.mem_append.mp followed with before | now
    · have ⟨met, bound⟩ := known.followed u before w leads
      refine ⟨List.mem_append_left _ met, ?_⟩
      rwa [kept w met, kept u (List.mem_append_left _ before)]
    · cases List.mem_singleton.mp now
      by_cases met : w ∈ done ++ v :: queue
      · refine ⟨List.mem_append_left _ met, ?_⟩
        rw [kept w met, kept v here]
        exact (known.before_next met).le
      · have new := (finds w).mpr ⟨leads, met⟩
        refine ⟨List.mem_append_right _ new, ?_⟩
        rw [below w new, kept v here]

/-- **A path to a vertex is no smaller than the one it was met along**, or else no smaller than the
path of the oldest queued vertex. -/
theorem least (known : Layered edge starts done (v :: queue) path) {other : List α}
    (start : ∀ s ∈ other.head?, s ∈ starts) (leads : other.IsChain edge)
    (ends : other.getLast? = some w) :
    (w ∈ done ++ v :: queue ∧ key (path w) ≤ key other) ∨ key (path v) ≤ key other := by
  -- The induction follows the path from its start, one edge at a time.
  induction other using List.reverseRecOn generalizing w with
  | nil => cases ends
  | append_singleton rest last ih =>
    rw [List.getLast?_concat] at ends
    cases ends
    cases rest using List.reverseRecOn with
    | nil =>
      have ⟨met, root⟩ := known.started last (start last rfl)
      refine .inl ⟨met, ?_⟩
      rw [root]
      exact le_rfl
    | append_singleton rest u =>
      obtain ⟨leads, -, edges⟩ := List.isChain_append.mp leads
      have start : ∀ s ∈ (rest ++ [u]).head?, s ∈ starts := by
        intro s head
        refine start s ?_
        simp_all
      have edge : edge u last := edges u (by simp) last rfl
      rcases ih start leads List.getLast?_concat with ⟨met, bound⟩ | bound
      · rcases List.mem_append.mp met with before | queued
        · have ⟨met, small⟩ := known.followed u before last edge
          exact .inl ⟨met, small.trans (key_snoc_le bound)⟩
        · -- A queued vertex is the oldest one or comes after it.
          have order := List.pairwise_cons.mp (List.pairwise_append.mp known.ordered).2.1
          have oldest : key (path v) ≤ key (path u) := by
            rcases List.mem_cons.mp queued with rfl | later
            · exact le_rfl
            · exact (order.1 u later).le
          exact .inr ((oldest.trans bound).trans key_lt_snoc.le)
      · exact .inr (bound.trans key_lt_snoc.le)

end Layered

end Updatedc.BreadthFirst
