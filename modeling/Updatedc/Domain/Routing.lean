import Updatedc.Domain.Reconcile

/-!
# Where nodes are routed

A node goes to the one planned group its labels match, or to the reserved pseudo-group if they
match none. Routing can fail in many ways; none of them is about a node's placement.
-/

namespace Updatedc

open Contracts

/-! ## Routing one fleet -/

section
variable {indexed next : BTreeMap String ResolvedGroup} {group : ResolvedGroup} {name : String}

theorem indexGroup_ok (ok : indexGroup indexed group = .ok next) :
    group.name ≠ defaultGroup ∧ next = indexed.insert group.name group := by
  unfold indexGroup at ok
  split_ifs at ok with empty reserved duplicate
  exact ⟨reserved, (Except.ok.inj ok).symm⟩

theorem foldlM_indexGroup_ok {groups : List ResolvedGroup}
    (ok : groups.foldlM indexGroup indexed = .ok next) :
    (∀ group ∈ groups, group.name ≠ defaultGroup) ∧
      ∀ (name : String) (group : ResolvedGroup), next[name]? = some group →
        indexed[name]? = some group ∨ (group ∈ groups ∧ group.name = name) := by
  induction groups generalizing indexed with
  | nil =>
    cases ok
    exact ⟨nofun, fun _ _ found => .inl found⟩
  | cons first rest ih =>
    obtain ⟨mid, turn, others⟩ := Except.bind_ok_iff.mp ok
    obtain ⟨named, rfl⟩ := indexGroup_ok turn
    obtain ⟨restNamed, entries⟩ := ih others
    refine ⟨List.forall_mem_cons.mpr ⟨named, restNamed⟩, fun name group found => ?_⟩
    rcases entries name group found with here | ⟨member, same⟩
    · rw [BTreeMap.getElem?_insert] at here
      split_ifs at here with same
      · cases here
        exact .inr ⟨List.mem_cons_self, same⟩
      · exact .inl here
    · exact .inr ⟨List.mem_cons_of_mem _ member, same⟩

/-- A node is routed to the reserved pseudo-group, or to an indexed group. -/
theorem selectGroup_ok {node : ResolvedNode} (ok : selectGroup indexed node = .ok name) :
    name = defaultGroup ∨ ∃ group, indexed[name]? = some group := by
  unfold selectGroup at ok
  dsimp only at ok
  split at ok
  · exact .inl (Except.ok.inj ok).symm
  · next only listed =>
    cases ok
    have member : name ∈ (indexed.toList.filter fun entry =>
        selectorMatches entry.2.matchLabels node.labels).map (·.1) :=
      listed ▸ List.mem_singleton_self name
    obtain ⟨⟨_, group⟩, entry, rfl⟩ := List.mem_map.mp member
    exact .inr ⟨group, Std.ExtTreeMap.mem_toList_iff_getElem?_eq_some.mp
      (List.mem_of_mem_filter entry)⟩
  · cases ok

/-- A node no indexed group matches is routed to the reserved pseudo-group. -/
theorem selectGroup_of_unmatched {node : ResolvedNode}
    (unmatched : ∀ (name : String) (group : ResolvedGroup), indexed[name]? = some group →
      selectorMatches group.matchLabels node.labels = false) :
    selectGroup indexed node = .ok defaultGroup := by
  have none : (indexed.toList.filter fun entry =>
      selectorMatches entry.2.matchLabels node.labels) = [] := by
    refine List.filter_eq_nil_iff.mpr ?_
    rintro ⟨name, group⟩ entry
    simpa using unmatched name group (Std.ExtTreeMap.mem_toList_iff_getElem?_eq_some.mp entry)
  simp [selectGroup, none]

theorem routeNode_ok {nodeGroups routed : BTreeMap String String} {node : ResolvedNode}
    (ok : routeNode indexed nodeGroups node = .ok routed) :
    nodeGroups[node.name]? = none ∧ ∃ selected, selectGroup indexed node = .ok selected ∧
      routed = nodeGroups.insert node.name selected := by
  unfold routeNode at ok
  split_ifs at ok with duplicate invalid
  obtain ⟨selected, found, ok⟩ := Except.bind_ok_iff.mp ok
  cases ok
  refine ⟨?_, selected, found, rfl⟩
  rw [Std.ExtTreeMap.contains_eq_isSome_getElem?, Bool.not_eq_true] at duplicate
  exact Option.isNone_iff_eq_none.mp (Option.isSome_eq_false_iff.mp duplicate)

theorem foldlM_routeNode_ok {nodes : List ResolvedNode}
    {nodeGroups routed : BTreeMap String String}
    (ok : nodes.foldlM (routeNode indexed) nodeGroups = .ok routed) :
    (∀ (name selected : String), nodeGroups[name]? = some selected →
      routed[name]? = some selected) ∧
    (∀ node ∈ nodes, ∃ selected, selectGroup indexed node = .ok selected ∧
      routed[node.name]? = some selected) ∧
    (∀ (name selected : String), routed[name]? = some selected →
      nodeGroups[name]? = some selected ∨
        ∃ node ∈ nodes, node.name = name ∧ selectGroup indexed node = .ok selected) := by
  induction nodes generalizing nodeGroups with
  | nil =>
    cases ok
    exact ⟨fun _ _ found => found, nofun, fun _ _ found => .inl found⟩
  | cons first rest ih =>
    obtain ⟨mid, turn, others⟩ := Except.bind_ok_iff.mp ok
    obtain ⟨fresh, selected, chosen, rfl⟩ := routeNode_ok turn
    obtain ⟨kept, placed, origin⟩ := ih others
    have here : routed[first.name]? = some selected :=
      kept first.name selected (by rw [BTreeMap.getElem?_insert, if_pos rfl])
    refine ⟨fun name before found => ?_, ?_, fun name after found => ?_⟩
    · refine kept name before ?_
      have different : first.name ≠ name := by
        rintro rfl
        rw [fresh] at found
        cases found
      rw [BTreeMap.getElem?_insert, if_neg different]
      exact found
    · exact List.forall_mem_cons.mpr ⟨⟨selected, chosen, here⟩, placed⟩
    · rcases origin name after found with entry | ⟨node, member, same, chose⟩
      · rw [BTreeMap.getElem?_insert] at entry
        split_ifs at entry with same
        · cases entry
          exact .inr ⟨first, List.mem_cons_self, same, chosen⟩
        · exact .inl entry
      · exact .inr ⟨node, List.mem_cons_of_mem _ member, same, chose⟩

end

variable [Crates]

/-- What a successful routing says. -/
structure RoutedBy (desired : DesiredState) (nodeGroups : BTreeMap String String) : Prop where
  /-- No planned group has the reserved name. -/
  unreserved : desired.groups[defaultGroup]? = none
  /-- Every node is routed. -/
  node : ∀ node ∈ desired.nodes, ∃ selected, nodeGroups[node.name]? = some selected
  /-- A node no planned group matches is routed to the reserved pseudo-group. -/
  unmatched : ∀ node ∈ desired.nodes,
    (∀ group ∈ desired.groups.values, selectorMatches group.matchLabels node.labels = false) →
      nodeGroups[node.name]? = some defaultGroup
  /-- A node is routed to the reserved pseudo-group or to a planned group. -/
  group : ∀ (name selected : String), nodeGroups[name]? = some selected →
    selected = defaultGroup ∨ selected ∈ desired.groups
  /-- Nothing else is routed. -/
  listed : ∀ (name selected : String), nodeGroups[name]? = some selected →
    ∃ node ∈ desired.nodes, node.name = name

theorem DesiredState.route_ok {desired : DesiredState} {nodeGroups : BTreeMap String String}
    (ok : desired.route = .ok nodeGroups) : RoutedBy desired nodeGroups := by
  obtain ⟨_, -, ok⟩ := Except.bind_ok_iff.mp ok
  obtain ⟨indexed, indexing, routing⟩ := Except.bind_ok_iff.mp ok
  obtain ⟨named, entries⟩ := foldlM_indexGroup_ok indexing
  obtain ⟨-, placed, origin⟩ := foldlM_routeNode_ok routing
  have planned : ∀ (name : String) (group : ResolvedGroup), indexed[name]? = some group →
      group ∈ desired.groups.values ∧ group.name = name := by
    intro name group found
    rcases entries name group found with none | member
    · simp at none
    · exact member
  constructor
  · cases reserved : desired.groups[defaultGroup]? with
    | none => rfl
    | some group =>
      have own := desired.named (defaultGroup, group)
        (Std.ExtTreeMap.mem_toList_iff_getElem?_eq_some.mpr reserved)
      exact absurd own (named group (BTreeMap.mem_values_iff.mpr ⟨defaultGroup, reserved⟩))
  · intro node member
    obtain ⟨selected, -, found⟩ := placed node member
    exact ⟨selected, found⟩
  · intro node member unmatched
    obtain ⟨selected, chosen, found⟩ := placed node member
    have default : selectGroup indexed node = .ok defaultGroup :=
      selectGroup_of_unmatched fun name group entry =>
      unmatched group (planned name group entry).1
    rwa [Except.ok.inj (chosen.symm.trans default)] at found
  · intro name selected found
    rcases origin name selected found with none | ⟨node, member, -, chosen⟩
    · simp at none
    · refine (selectGroup_ok chosen).imp_right fun ⟨group, entry⟩ => ?_
      obtain ⟨listed, rfl⟩ := planned selected group entry
      obtain ⟨key, stored⟩ := BTreeMap.mem_values_iff.mp listed
      have own := desired.named (key, group)
        (Std.ExtTreeMap.mem_toList_iff_getElem?_eq_some.mpr stored)
      rw [show group.name = key from own]
      exact Std.ExtTreeMap.mem_iff_isSome_getElem?.mpr (by simp [stored])
  · intro name selected found
    rcases origin name selected found with none | ⟨node, member, same, -⟩
    · simp at none
    · exact ⟨node, member, same⟩

/-! ## How routing and publication fail -/

/-- The error says that some node's placement could not be kept. -/
def PlanError.isPlacement : PlanError → Bool
  | .routingLoss _ | .unknownPlacement _ _ => true
  | _ => false

/-- A computation that fails for some other reason than a node's placement. -/
abbrev NoPlacementError {α : Type} (x : Except PlanError α) : Prop :=
  Except.FailsOnly (fun error => error.isPlacement = false) x

theorem noPlacementError_checkInputs (name : String) (group : ResolvedGroup) :
    NoPlacementError (checkInputs name group) := by
  have each : NoPlacementError (group.inputs.toList.forM fun entry =>
      if inputIsValid group entry.1 entry.2 then .ok ()
      else .error (.invalidDependencyInput name entry.1)) := by
    refine .forM (fun entry => ?_) _
    split
    · exact .ok _
    · exact .error rfl
  unfold checkInputs
  dsimp only
  split
  · exact Except.FailsOnly.bind (.error rfl) fun _ => each
  · exact each

theorem noPlacementError_visit (groups : BTreeMap String ResolvedGroup)
    (quarantined : Finset String) (fuel : Nat) (name : String) (walk : Walk) :
    NoPlacementError (visit groups quarantined fuel name walk) := by
  induction fuel generalizing name walk with
  | zero => exact .ok _
  | succ fuel ih =>
    unfold visit
    split
    · exact .ok _
    · exact .error rfl
    · exact .ok _
    · refine Except.FailsOnly.bind (.foldlM _ _ fun dependency _ walk => ?_) fun _ =>
        (noPlacementError_checkInputs _ _).bind fun _ => .ok _
      split_ifs
      · exact .ok _
      · exact .error rfl
      · exact ih dependency walk

theorem noPlacementError_route (desired : DesiredState) : NoPlacementError desired.route := by
  refine Except.FailsOnly.bind ?_ fun _ => Except.FailsOnly.bind ?_ fun indexed => ?_
  · exact Except.FailsOnly.bind (.foldlM _ _ fun name _ walk =>
      noPlacementError_visit _ _ _ name walk) fun _ => .ok _
  · refine .foldlM _ _ fun group _ indexed => ?_
    unfold indexGroup
    split_ifs
    · exact .error rfl
    · exact .error rfl
    · exact .error rfl
    · exact .ok _
  · refine .foldlM _ _ fun node _ nodeGroups => ?_
    unfold routeNode
    split_ifs
    · exact .error rfl
    · exact .error rfl
    · refine Except.FailsOnly.bind ?_ fun _ => .ok _
      unfold selectGroup
      dsimp only
      split
      · exact .ok _
      · exact .ok _
      · exact .error rfl

theorem noPlacementError_buildPublicationPlan (repository : UpdateRepositorySpec)
    (nodeGroups : BTreeMap String String)
    (nodeDeployments : BTreeMap String DesiredDeployment) :
    NoPlacementError (buildPublicationPlan repository nodeGroups nodeDeployments) := by
  unfold buildPublicationPlan
  dsimp only
  split_ifs
  · exact .error rfl
  · exact .error rfl
  · refine Except.FailsOnly.bind (.foldlM _ _ fun entry _ build => ?_) fun _ => .ok _
    exact Except.FailsOnly.bind (.mapError fun _ => rfl) fun _ =>
      Except.FailsOnly.bind (.mapError fun _ => rfl) fun _ => .ok _

end Updatedc
