import Mathlib

/-!
# Worklists

A search that pops a vertex, marks what it leads to and has not been seen, and queues it. What the
search knows is `Explored`: it says what is seen, what is still queued, and that everything seen
and no longer queued has been followed. One turn of any such search keeps it
(`Explored.follow`), and with nothing left to follow, what is seen is what can be reached
(`Explored.mem_iff`). `explore` is the search that only collects.
-/

namespace Updatedc.Worklist

open Relation (ReflTransGen)

variable {α : Type*} [DecidableEq α]

/-- What a search knows between two turns. -/
structure Explored (edge : α → α → Prop) (starts seen : Finset α) (queue : List α) : Prop where
  started : starts ⊆ seen
  queued : ∀ v ∈ queue, v ∈ seen
  sound : ∀ v ∈ seen, ∃ s ∈ starts, ReflTransGen edge s v
  followed : ∀ v ∈ seen, v ∈ queue ∨ ∀ w, edge v w → w ∈ seen

namespace Explored

variable {edge : α → α → Prop} {starts seen : Finset α} {queue : List α}

theorem start (list : List α) : Explored edge list.toFinset list.toFinset list where
  started := Finset.Subset.refl _
  queued _ := List.mem_toFinset.mpr
  sound v member := ⟨v, member, .refl⟩
  followed _ member := .inl (List.mem_toFinset.mp member)

/-- One turn: the oldest vertex is followed. -/
theorem follow {v : α} {found : List α} (known : Explored edge starts seen (v :: queue))
    (finds : ∀ w, w ∈ found ↔ edge v w ∧ w ∉ seen) :
    Explored edge starts (seen ∪ found.toFinset) (queue ++ found) where
  started := known.started.trans Finset.subset_union_left
  queued w member := by
    rcases List.mem_append.mp member with old | new
    · exact Finset.mem_union_left _ (known.queued w (List.mem_cons_of_mem _ old))
    · exact Finset.mem_union_right _ (List.mem_toFinset.mpr new)
  sound w member := by
    rcases Finset.mem_union.mp member with old | new
    · exact known.sound w old
    · obtain ⟨s, start, path⟩ := known.sound v (known.queued v List.mem_cons_self)
      exact ⟨s, start, path.tail ((finds w).mp (List.mem_toFinset.mp new)).1⟩
  followed w member := by
    rcases Finset.mem_union.mp member with old | new
    · rcases known.followed w old with queued | closed
      · rcases List.mem_cons.mp queued with rfl | later
        · -- It is the vertex this turn follows.
          refine .inr fun u leads => ?_
          by_cases before : u ∈ seen
          · exact Finset.mem_union_left _ before
          · exact Finset.mem_union_right _ (List.mem_toFinset.mpr ((finds u).mpr ⟨leads, before⟩))
        · exact .inl (List.mem_append_left _ later)
      · exact .inr fun u leads => Finset.mem_union_left _ (closed u leads)
    · exact .inl (List.mem_append_right _ (List.mem_toFinset.mp new))

omit [DecidableEq α] in
/-- With nothing queued, what is seen is what can be reached. -/
theorem mem_iff (known : Explored edge starts seen []) {v : α} :
    v ∈ seen ↔ ∃ s ∈ starts, ReflTransGen edge s v := by
  constructor
  · exact known.sound v
  · rintro ⟨s, start, path⟩
    induction path with
    | refl => exact known.started start
    | tail _ leads before =>
      exact (known.followed _ before).resolve_left List.not_mem_nil _ leads

end Explored

/-- Everything reached from the queue. -/
def explore (next : α → List α) : (fuel : Nat) → (seen : Finset α) → (queue : List α) → Finset α
  | 0, seen, _ => seen
  | _ + 1, seen, [] => seen
  | fuel + 1, seen, v :: queue =>
    let found := (next v).filter (· ∉ seen)
    explore next fuel (seen ∪ found.toFinset) (queue ++ found)

/-- Marking new vertices leaves that many fewer to mark. -/
theorem card_union_found {seen : Finset α} {found : List α} (distinct : found.Nodup)
    (fresh : ∀ w ∈ found, w ∉ seen) :
    (seen ∪ found.toFinset).card = seen.card + found.length := by
  rw [Finset.card_union_of_disjoint, List.toFinset_card_of_nodup distinct]
  exact Finset.disjoint_right.mpr fun w member => fresh w (List.mem_toFinset.mp member)

section
variable {next : α → List α} {starts seen vertices : Finset α} {queue : List α}

/-- The search ends with nothing queued, if there is fuel for every vertex of a set it does
not leave. -/
theorem explored_explore (distinct : ∀ v, (next v).Nodup)
    (closed : ∀ v ∈ vertices, ∀ w ∈ next v, w ∈ vertices) (fuel : Nat)
    (known : Explored (fun v w => w ∈ next v) starts seen queue) (within : seen ⊆ vertices)
    (enough : queue.length + (vertices.card - seen.card) < fuel) :
    Explored (fun v w => w ∈ next v) starts (explore next fuel seen queue) [] := by
  induction fuel generalizing seen queue with
  | zero => omega
  | succ fuel ih =>
    cases queue with
    | nil => exact known
    | cons v queue =>
      let found := (next v).filter (· ∉ seen)
      have finds : ∀ w, w ∈ found ↔ w ∈ next v ∧ w ∉ seen := by simp [found]
      have within' : seen ∪ found.toFinset ⊆ vertices := by
        refine Finset.union_subset within fun w member => ?_
        have leads := ((finds w).mp (List.mem_toFinset.mp member)).1
        exact closed v (within (known.queued v List.mem_cons_self)) w leads
      refine ih (known.follow finds) within' ?_
      have grown : (seen ∪ found.toFinset).card = seen.card + found.length :=
        card_union_found ((distinct v).filter _) fun w member => ((finds w).mp member).2
      have room := Finset.card_le_card within'
      change (queue ++ found).length + (vertices.card - (seen ∪ found.toFinset).card) < fuel
      rw [List.length_append]
      rw [List.length_cons] at enough
      omega

/-- **What `explore` collects is what can be reached.** -/
theorem mem_explore_iff {list : List α} (distinct : ∀ v, (next v).Nodup)
    (closed : ∀ v ∈ vertices, ∀ w ∈ next v, w ∈ vertices) (single : list.Nodup)
    (within : list.toFinset ⊆ vertices) {fuel : Nat} (enough : vertices.card < fuel) {v : α} :
    v ∈ explore next fuel list.toFinset list ↔
      ∃ s ∈ list, ReflTransGen (fun v w => w ∈ next v) s v := by
  have size := List.toFinset_card_of_nodup single
  have room := Finset.card_le_card within
  have known := explored_explore distinct closed fuel (.start list) within (by omega)
  simpa using known.mem_iff

end

end Updatedc.Worklist
