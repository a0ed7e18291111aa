import Updatedc.Lib.Except

/-!
# Folds that work key by key

A loop over a map's entries often builds its result one key at a time: the turn of an entry reads
and writes what the accumulator holds for that entry's key, and nothing else of it. `view` is what
the accumulator holds for a key, `law` relates it before and after a turn. With distinct keys every
key then has at most one turn, so the law holds between the first accumulator and the last, and a
loop that fails does so on some entry read against the first accumulator.
-/

namespace Updatedc

universe u

namespace KeyedFold

variable {ε : Type*} {σ : Type u} {κ v ω : Type*} {step : σ → κ × v → Except ε σ} {view : σ → κ → ω}
  {law : κ → v → ω → ω → Prop} {entries : List (κ × v)} {first last : σ}

/-- What one turn does: its own key by the law, the others not at all. -/
structure Local (step : σ → κ × v → Except ε σ) (view : σ → κ → ω)
    (law : κ → v → ω → ω → Prop) : Prop where
  own : ∀ {state key value next}, step state (key, value) = .ok next →
    law key value (view state key) (view next key)
  frame : ∀ {state key value next}, step state (key, value) = .ok next →
    ∀ other, other ≠ key → view next other = view state other

namespace Local

/-- A key without an entry is left alone. -/
theorem view_of_not_mem (keyed : Local step view law)
    (ran : entries.foldlM step first = .ok last) {key : κ}
    (absent : key ∉ entries.map Prod.fst) : view last key = view first key := by
  induction entries generalizing first with
  | nil =>
    cases ran
    rfl
  | cons entry rest ih =>
    obtain ⟨next, turn, others⟩ := Except.bind_ok_iff.mp ran
    rw [List.map_cons, List.mem_cons, not_or] at absent
    rw [ih others absent.2]
    exact keyed.frame turn key absent.1

/-- A key with an entry has its one turn. -/
theorem law_of_mem (keyed : Local step view law) (distinct : (entries.map Prod.fst).Nodup)
    (ran : entries.foldlM step first = .ok last) {key : κ} {value : v}
    (member : (key, value) ∈ entries) : law key value (view first key) (view last key) := by
  induction entries generalizing first with
  | nil => cases member
  | cons entry rest ih =>
    obtain ⟨next, turn, others⟩ := Except.bind_ok_iff.mp ran
    obtain ⟨fresh, distinct⟩ := List.nodup_cons.mp distinct
    rcases List.mem_cons.mp member with rfl | later
    · rw [keyed.view_of_not_mem others fresh]
      exact keyed.own turn
    · have other : key ≠ entry.1 := by
        rintro rfl
        exact fresh (List.mem_map.mpr ⟨_, later, rfl⟩)
      rw [← keyed.frame turn key other]
      exact ih distinct others later

/-- A loop that fails does so on some entry, whose key still has what it had at first. -/
theorem exists_error (keyed : Local step view law) (distinct : (entries.map Prod.fst).Nodup)
    {e : ε} (failed : entries.foldlM step first = .error e) :
    ∃ key value state, (key, value) ∈ entries ∧ view state key = view first key ∧
      step state (key, value) = .error e := by
  induction entries generalizing first with
  | nil => cases failed
  | cons entry rest ih =>
    rcases Except.bind_error_iff.mp failed with now | ⟨next, turn, later⟩
    · exact ⟨entry.1, entry.2, first, List.mem_cons_self, rfl, now⟩
    · obtain ⟨fresh, distinct⟩ := List.nodup_cons.mp distinct
      obtain ⟨key, value, state, member, same, failing⟩ := ih distinct later
      refine ⟨key, value, state, List.mem_cons_of_mem _ member, ?_, failing⟩
      rw [same]
      refine keyed.frame turn key ?_
      rintro rfl
      exact fresh (List.mem_map.mpr ⟨_, member, rfl⟩)

end Local

/-! ## Loops that cannot fail -/

section
variable {f : σ → κ × v → σ}
  (keyed : Local (fun state entry => (pure (f state entry) : Except Empty σ)) view law)
include keyed

theorem view_foldl_of_not_mem {key : κ} (absent : key ∉ entries.map Prod.fst) :
    view (entries.foldl f first) key = view first key :=
  keyed.view_of_not_mem List.foldlM_pure absent

theorem law_foldl_of_mem (distinct : (entries.map Prod.fst).Nodup) {key : κ} {value : v}
    (member : (key, value) ∈ entries) :
    law key value (view first key) (view (entries.foldl f first) key) :=
  keyed.law_of_mem distinct List.foldlM_pure member

end

/-! ## Loops that collect a value per key -/

theorem mapM_eq_some {value : κ × v → Option ω} {entries : List (κ × v)} {found : List (κ × ω)}
    (all : entries.mapM (fun entry => (value entry).map (entry.1, ·)) = some found) :
    found.map Prod.fst = entries.map Prod.fst ∧
      ∀ entry ∈ entries, ∃ x, value entry = some x ∧ (entry.1, x) ∈ found := by
  induction entries generalizing found with
  | nil =>
    cases all
    exact ⟨rfl, nofun⟩
  | cons entry rest ih =>
    rw [List.mapM_cons] at all
    obtain ⟨here, own, all⟩ := Option.bind_eq_some_iff.mp all
    obtain ⟨others, later, all⟩ := Option.bind_eq_some_iff.mp all
    obtain ⟨x, stated, rfl⟩ := Option.map_eq_some_iff.mp own
    obtain ⟨keys, each⟩ := ih later
    cases all
    refine ⟨congrArg _ keys, List.forall_mem_cons.mpr ⟨⟨x, stated, List.mem_cons_self⟩, ?_⟩⟩
    intro other member
    obtain ⟨y, stated', member'⟩ := each other member
    exact ⟨y, stated', List.mem_cons_of_mem _ member'⟩

end KeyedFold

end Updatedc
