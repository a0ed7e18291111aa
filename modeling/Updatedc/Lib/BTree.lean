import Mathlib

/-!
# Ordered maps

`BTreeMap` is the standard library's extensional search tree, ordered by `compare`: two maps
with the same lookups are equal, and iteration is in ascending key order. It stands for the
sources' `BTreeMap`, and for a `HashMap` wherever nothing observes the iteration order.
`BTreeSet` is the same for sets that are iterated; a set that is only tested is a `Finset`.
-/

namespace Updatedc

/-- An ordered map, as `std::collections::BTreeMap`. -/
abbrev BTreeMap (κ v : Type) [Ord κ] := Std.ExtTreeMap κ v compare

/-- An ordered set, as `std::collections::BTreeSet`. -/
abbrev BTreeSet (κ : Type) [Ord κ] := Std.ExtTreeSet κ compare

namespace BTreeMap

variable {κ v : Type} [Ord κ] [Std.TransOrd κ] [Std.LawfulEqOrd κ]

/-- A lookup after an insertion, with the keys compared by equality. -/
theorem getElem?_insert [DecidableEq κ] (m : BTreeMap κ v) (k a : κ) (x : v) :
    (m.insert k x)[a]? = if k = a then some x else m[a]? := by
  rw [Std.ExtTreeMap.getElem?_insert]
  simp only [Std.LawfulEqCmp.compare_eq_iff_eq]

/-- The values in key order, as `BTreeMap::values`. -/
def values {κ v : Type} [Ord κ] [Std.TransOrd κ] (m : BTreeMap κ v) : List v :=
  m.toList.map Prod.snd

theorem mem_values_iff {m : BTreeMap κ v} {x : v} :
    x ∈ m.values ↔ ∃ k : κ, m[k]? = some x := by
  rw [values, List.mem_map]
  constructor
  · rintro ⟨⟨k, y⟩, member, rfl⟩
    exact ⟨k, Std.ExtTreeMap.mem_toList_iff_getElem?_eq_some.mp member⟩
  · rintro ⟨k, found⟩
    exact ⟨(k, x), Std.ExtTreeMap.mem_toList_iff_getElem?_eq_some.mpr found, rfl⟩

/-- An entry after inserting a list of pairs is one of the pairs, or was there before. -/
theorem mem_or_getElem?_of_insertMany [DecidableEq κ] {k : κ} {x : v} :
    ∀ (l : List (κ × v)) (m : BTreeMap κ v), (m.insertMany l)[k]? = some x →
      (k, x) ∈ l ∨ m[k]? = some x
  | [], _, h => .inr (by simpa using h)
  | (a, y) :: l, m, h => by
    rw [Std.ExtTreeMap.insertMany_cons] at h
    rcases mem_or_getElem?_of_insertMany l _ h with member | found
    · exact .inl (List.mem_cons_of_mem _ member)
    · rw [getElem?_insert] at found
      split at found
      · next same =>
        cases found
        exact .inl (same ▸ List.mem_cons_self)
      · exact .inr found

/-- Every entry of a map collected from pairs is one of the pairs. -/
theorem mem_of_getElem?_ofList [DecidableEq κ] {l : List (κ × v)} {k : κ} {x : v}
    (h : (Std.ExtTreeMap.ofList l compare)[k]? = some x) : (k, x) ∈ l := by
  rw [Std.ExtTreeMap.ofList_eq_insertMany_empty] at h
  rcases mem_or_getElem?_of_insertMany l _ h with member | found
  · exact member
  · simp at found

/-- The keys of a map collected from pairs are the keys of the pairs. -/
theorem exists_getElem?_ofList [DecidableEq κ] {l : List (κ × v)} {k : κ} {x : v}
    (h : (k, x) ∈ l) : ∃ y, (Std.ExtTreeMap.ofList l compare)[k]? = some y := by
  rw [← Option.isSome_iff_exists, Std.ExtTreeMap.isSome_getElem?_iff_mem,
    ← Std.ExtTreeMap.contains_iff_mem, Std.ExtTreeMap.contains_ofList]
  simpa using ⟨x, h⟩

/-- A pair whose key no other pair has is an entry of the collected map. -/
theorem getElem?_ofList_of_mem [DecidableEq κ] {l : List (κ × v)} {k : κ} {x : v}
    (distinct : (l.map Prod.fst).Nodup) (h : (k, x) ∈ l) :
    (Std.ExtTreeMap.ofList l compare)[k]? = some x := by
  refine Std.ExtTreeMap.getElem?_ofList_of_mem (Std.ReflCmp.compare_self) ?_ h
  rw [List.nodup_iff_pairwise_ne, List.pairwise_map] at distinct
  refine distinct.imp fun {a b} different same => different ?_
  exact Std.LawfulEqCmp.compare_eq_iff_eq.mp same

/-- Keeping the entries whose key passes. -/
theorem getElem?_filter_key (m : BTreeMap κ v) (p : κ → Bool) (k : κ) :
    (m.filter fun k _ => p k)[k]? = if p k then m[k]? else none := by
  rw [Std.ExtTreeMap.getElem?_filter']
  cases m[k]? <;> simp [Option.filter]

theorem mem_filter_key {m : BTreeMap κ v} {p : κ → Bool} {k : κ} :
    k ∈ m.filter (fun k _ => p k) ↔ k ∈ m ∧ p k = true := by
  simp only [Std.ExtTreeMap.mem_iff_isSome_getElem?, getElem?_filter_key]
  by_cases kept : p k = true <;> simp [kept]

/-- Inserting one value under each key of a list. -/
theorem getElem?_foldl_insert [DecidableEq κ] (x : v) (k : κ) (ks : List κ) (m : BTreeMap κ v) :
    (ks.foldl (fun m a => m.insert a x) m)[k]? = if k ∈ ks then some x else m[k]? := by
  induction ks generalizing m with
  | nil => simp
  | cons a ks ih =>
    rw [List.foldl_cons, ih, getElem?_insert]
    by_cases later : k ∈ ks
    · simp [later]
    · by_cases here : a = k
      · simp [here]
      · simp [later, here, Ne.symm here]

theorem mem_foldl_insertIfNew (x : v) (k : κ) (ks : List κ) (m : BTreeMap κ v) :
    k ∈ ks.foldl (fun m a => m.insertIfNew a x) m ↔ k ∈ ks ∨ k ∈ m := by
  induction ks generalizing m with
  | nil => simp
  | cons a ks ih =>
    rw [List.foldl_cons, ih, Std.ExtTreeMap.mem_insertIfNew, List.mem_cons,
      Std.LawfulEqCmp.compare_eq_iff_eq, eq_comm]
    tauto

theorem mem_keys_toFinset [DecidableEq κ] {m : BTreeMap κ v} {k : κ} :
    k ∈ m.keys.toFinset ↔ k ∈ m := by
  rw [List.mem_toFinset, Std.ExtTreeMap.mem_keys]

omit [Std.LawfulEqOrd κ] in
theorem card_keys_toFinset [DecidableEq κ] (m : BTreeMap κ v) : m.keys.toFinset.card = m.size := by
  rw [List.toFinset_card_of_nodup Std.ExtTreeMap.nodup_keys, Std.ExtTreeMap.length_keys]

theorem keys_toFinset_foldl_insert [DecidableEq κ] (x : v) (ks : List κ) (m : BTreeMap κ v) :
    (ks.foldl (fun m a => m.insert a x) m).keys.toFinset = m.keys.toFinset ∪ ks.toFinset := by
  ext k
  rw [Finset.mem_union, mem_keys_toFinset, mem_keys_toFinset, List.mem_toFinset,
    Std.ExtTreeMap.mem_iff_isSome_getElem?, getElem?_foldl_insert]
  by_cases member : k ∈ ks <;> simp [member]

omit [Std.LawfulEqOrd κ] in
/-- A walk over a map's entries meets every key once. -/
theorem nodup_keys_toList (m : BTreeMap κ v) : (m.toList.map Prod.fst).Nodup := by
  rw [Std.ExtTreeMap.map_fst_toList_eq_keys]
  exact Std.ExtTreeMap.nodup_keys

/-- The entries of a map, in any order. -/
theorem toList_perm_iff {m : BTreeMap κ v} {l : List (κ × v)} :
    m.toList.Perm l ↔ (l.map Prod.fst).Nodup ∧ ∀ k x, (k, x) ∈ l ↔ m[k]? = some x := by
  constructor
  · intro perm
    refine ⟨(perm.map Prod.fst).nodup_iff.mp (nodup_keys_toList m), fun k x => ?_⟩
    rw [← perm.mem_iff, Std.ExtTreeMap.mem_toList_iff_getElem?_eq_some]
  · rintro ⟨distinct, same⟩
    refine (List.perm_ext_iff_of_nodup (nodup_keys_toList m).of_map distinct.of_map).mpr ?_
    rintro ⟨k, x⟩
    rw [same, Std.ExtTreeMap.mem_toList_iff_getElem?_eq_some]

theorem toList_erase_perm [DecidableEq κ] {m : BTreeMap κ v} {entry : κ × v} {l : List (κ × v)}
    (perm : m.toList.Perm (entry :: l)) : (m.erase entry.1).toList.Perm l := by
  obtain ⟨distinct, same⟩ := toList_perm_iff.mp perm
  obtain ⟨fresh, distinct⟩ := List.nodup_cons.mp distinct
  refine toList_perm_iff.mpr ⟨distinct, fun k x => ?_⟩
  rw [Std.ExtTreeMap.getElem?_erase]
  simp only [Std.LawfulEqCmp.compare_eq_iff_eq]
  by_cases here : entry.1 = k
  · subst here
    simp only [if_true, reduceCtorEq, iff_false]
    exact fun member => fresh (List.mem_map.mpr ⟨_, member, rfl⟩)
  · rw [if_neg here, ← same, List.mem_cons]
    simp only [iff_or_self]
    rintro rfl
    exact absurd rfl here

theorem toList_insert_perm [DecidableEq κ] {m : BTreeMap κ v} {k : κ} {l : List (κ × v)}
    (perm : (m.erase k).toList.Perm l) (x : v) : (m.insert k x).toList.Perm ((k, x) :: l) := by
  obtain ⟨distinct, same⟩ := toList_perm_iff.mp perm
  simp only [Std.ExtTreeMap.getElem?_erase, Std.LawfulEqCmp.compare_eq_iff_eq] at same
  refine toList_perm_iff.mpr ⟨List.nodup_cons.mpr ⟨fun named => ?_, distinct⟩, fun a y => ?_⟩
  · obtain ⟨entry, member, rfl⟩ := List.mem_map.mp named
    simpa using (same entry.1 entry.2).mp member
  · rw [List.mem_cons, same, getElem?_insert]
    by_cases here : k = a
    · simp [here, eq_comm]
    · simp [here, Ne.symm here]

theorem not_mem_keys_toList {m : BTreeMap κ v} {k : κ} (absent : m[k]? = none) :
    k ∉ m.toList.map Prod.fst := by
  rw [Std.ExtTreeMap.map_fst_toList_eq_keys, Std.ExtTreeMap.mem_keys,
    Std.ExtTreeMap.mem_iff_isSome_getElem?, absent]
  exact Bool.false_ne_true

end BTreeMap

end Updatedc
