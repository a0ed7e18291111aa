import Updatedc.Domain.Movement
import Updatedc.Domain.Routing

/-!
# Frozen nodes

An operator's hold freezes a node, and so does the quarantine of the group its labels select. The
planner leaves such a node out, the default arm passes it by, and the carry-forward republishes
the body its recorded assignment names, under its recorded routing, or fails the whole generation.
-/

namespace Updatedc

open Contracts

variable [Crates]

section
variable {desired : DesiredState} {observed : ObservedState} {memory : Memory}
  {nodeGroups : BTreeMap String String} {default : DesiredDeployment}
  {deployments : BTreeMap String DesiredDeployment} {plan : ReconcilePlan} {node : String}

/-- A held node takes no turn. -/
theorem nodeTurn_of_held {observations : Observations}
    {running : BTreeMap Sha256 DesiredDeployment} {holds : Finset String} {movement : Movement}
    (hold : node ∈ holds) : (nodeTurn observations running holds movement node).1 = .leave := by
  unfold nodeTurn
  rw [if_pos hold]

/-- The planner assigns a held node nothing. -/
theorem nodeDeployments_of_held (hold : node ∈ desired.holds) :
    (rolloutOutcome desired observed memory nodeGroups default).plan.nodeDeployments[node]? =
      none := by
  by_contra assigned
  obtain ⟨deployment, found⟩ := Option.ne_none_iff_exists'.mp assigned
  obtain ⟨name, group, state, currentId, -, -, -, -, assigned⟩ := exists_assigned found
  cases assigned with
  | immediate turn | granted _ _ turn | left _ _ turn =>
    cases (nodeTurn_of_held hold).symm.trans turn

/-- It assigns nothing to a node of the reserved pseudo-group. -/
theorem nodeDeployments_of_unmatched (routing : RoutedBy desired nodeGroups)
    (unmatched : nodeGroups[node]? = some defaultGroup) :
    (rolloutOutcome desired observed memory nodeGroups default).plan.nodeDeployments[node]? =
      none := by
  by_contra assigned
  obtain ⟨deployment, found⟩ := Option.ne_none_iff_exists'.mp assigned
  obtain ⟨name, group, -, -, routed, planned, -⟩ := exists_assigned found
  obtain rfl : name = defaultGroup := Option.some.inj (routed.symm.trans unmatched)
  obtain ⟨declared, -, -, reserved, -⟩ := getElem?_resolveGroupInputs planned
  cases reserved.symm.trans routing.unreserved

omit [Crates] in
/-- A quarantined group whose selector matches an unmatched node withholds it. -/
theorem withheld_of_quarantined {resolved : ResolvedNode} (listed : resolved ∈ desired.nodes)
    (unmatched : nodeGroups[resolved.name]? = some defaultGroup) {name : String}
    {selector : Labels} (quarantined : desired.quarantined[name]? = some selector)
    (usable : selector.isEmpty = false)
    (selects : selectorMatches selector resolved.labels = true) :
    (quarantinedNodes desired nodeGroups).contains resolved.name = true := by
  have found : ∃ group, desired.quarantinedGroup resolved defaultGroup = some group := by
    unfold DesiredState.quarantinedGroup
    rw [if_neg (not_not.mpr rfl)]
    have captures : (desired.quarantined.toList.find? fun entry =>
        !entry.2.isEmpty && selectorMatches entry.2 resolved.labels).isSome = true :=
      List.find?_isSome.mpr ⟨(name, selector),
        Std.ExtTreeMap.mem_toList_iff_getElem?_eq_some.mpr quarantined, by simp [usable, selects]⟩
    obtain ⟨entry, first⟩ := Option.isSome_iff_exists.mp captures
    exact ⟨entry.1, by rw [first]; rfl⟩
  obtain ⟨group, captured⟩ := found
  have member : (resolved.name, group) ∈ desired.nodes.filterMap fun node =>
      (desired.quarantinedGroup node (nodeGroups[node.name]?.getD defaultGroup)).map
        (node.name, ·) :=
    List.mem_filterMap.mpr ⟨resolved, listed, by simp [unmatched, captured]⟩
  obtain ⟨value, stored⟩ := BTreeMap.exists_getElem?_ofList member
  rw [Std.ExtTreeMap.contains_eq_isSome_getElem?]
  exact Option.isSome_iff_exists.mpr ⟨value, stored⟩

/-- A frozen node the planner left out is published as it was recorded. -/
theorem PlannedBy.kept_of_frozen
    (planned : PlannedBy desired observed memory plan nodeGroups default deployments)
    {group last : String} (routed : nodeGroups[node]? = some group)
    (recorded : observed.routing[node]? = some last)
    (unassigned : (rolloutOutcome desired observed memory nodeGroups
      default).plan.nodeDeployments[node]? = none)
    (frozen : (quarantinedNodes desired nodeGroups).contains node = true ∨
      node ∈ desired.holds) :
    plan.routing[node]? = some last ∧ ∃ identity,
      observed.assignments[node]? = some identity ∧ plan.assignments[node]? = some identity := by
  let publishing := passPublishing desired observed memory nodeGroups default
  have passed : publishing.takesDefault node group = false := by
    rcases frozen with withheld | hold
    · have withheld : publishing.quarantined.contains node = true := withheld
      simp [Publishing.takesDefault, withheld]
    · have hold : node ∈ publishing.desired.holds := hold
      simp [Publishing.takesDefault, hold]
  have routed' : publishing.nodeGroups[node]? = some group := routed
  obtain ⟨carry, carried, published⟩ := Publishing.publishNodes_ok planned.published routed
  rw [Publishing.getElem?_placeDefault routed', passed, if_neg Bool.false_ne_true, unassigned]
    at carried published
  have carries : publishing.lastRouting node group false = some last := by
    have recorded : publishing.observed.routing[node]? = some last := recorded
    simp [Publishing.lastRouting, recorded, Option.filter]
  have stays : publishing.frozen node last = true := by
    rcases frozen with withheld | hold
    · have withheld : publishing.quarantined.contains node = true := withheld
      simp [Publishing.frozen, withheld]
    · have hold : node ∈ publishing.desired.holds := hold
      simp [Publishing.frozen, hold]
  rw [Option.isSome_none, Publishing.carried_of_frozen carries stays] at carried
  cases placed : publishing.placedDeployment node with
  | none => rw [placed] at carried; cases carried
  | some deployment =>
    rw [placed] at carried
    cases carried
    obtain ⟨body, routing⟩ := Prod.mk.inj published
    have identity := planned.assignments node
    rw [body, Option.bind_some, deploymentIdentity_of_placedDeployment placed] at identity
    have known := planned.identities node deployment body
    rw [deploymentIdentity_of_placedDeployment placed] at known
    obtain ⟨recordedId, same⟩ := Option.ne_none_iff_exists'.mp known
    exact ⟨routing, recordedId, same, identity.trans same⟩

/-- **Frozen nodes do not move.** A planned node with recorded routing that is held, or that no
planned group matches while a quarantined group's selector does, is published with exactly the
identity and the group the previous generation recorded for it. -/
theorem planReconcile_keeps_frozen
    (ok : (planReconcile desired observed memory).1 = .ok plan) (resolved : ResolvedNode)
    (listed : resolved ∈ desired.nodes) (last : String)
    (recorded : observed.routing[resolved.name]? = some last)
    (frozen : resolved.name ∈ desired.holds ∨
      ((∀ group ∈ desired.groups.values,
          selectorMatches group.matchLabels resolved.labels = false) ∧
        ∃ (name : String) (selector : Labels), desired.quarantined[name]? = some selector ∧
          selector.isEmpty = false ∧ selectorMatches selector resolved.labels = true)) :
    plan.routing[resolved.name]? = some last ∧ ∃ identity,
      observed.assignments[resolved.name]? = some identity ∧
      plan.assignments[resolved.name]? = some identity := by
  obtain ⟨nodeGroups, default, deployments, planned⟩ := planReconcile_ok ok
  have routing := DesiredState.route_ok planned.route
  obtain ⟨group, routed⟩ := routing.node resolved listed
  rcases frozen with hold | ⟨unmatched, name, selector, quarantined, usable, selects⟩
  · exact planned.kept_of_frozen routed recorded (nodeDeployments_of_held hold) (.inr hold)
  · have fallen := routing.unmatched resolved listed unmatched
    exact planned.kept_of_frozen fallen recorded (nodeDeployments_of_unmatched routing fallen)
      (.inl (withheld_of_quarantined listed fallen quarantined usable selects))

end

end Updatedc

namespace Updatedc.Sample

open Contracts

/-- The group rolls back from `b`, but node `m` is held. -/
def heldDesired : DesiredState := { rejectedDesired ∅ with holds := {"m"} }

/-- The held node stays on `b` while its group goes back to `a`. -/
theorem planReconcile_keeps_frozen_held :
    ∃ plan, (planReconcile heldDesired rejectedObserved nothing).1 = .ok plan ∧
      plan.admitted["g"]?.any (·.current = deployment "a" {}) = true ∧
      plan.routing["m"]? = some "g" ∧ plan.assignments["m"]? = some 98 := by
  obtain ⟨plan, ok, rebased⟩ := Except.exists_of_any
    (x := (planReconcile heldDesired rejectedObserved nothing).1)
    (p := fun plan => plan.admitted["g"]?.any (·.current = deployment "a" {}))
    (by decide +kernel)
  obtain ⟨routing, identity, recorded, kept⟩ := planReconcile_keeps_frozen ok ⟨"m", edge⟩
    List.mem_cons_self "g" (by decide) (.inl (by decide))
  have before : rejectedObserved.assignments["m"]? = some 98 := by decide
  exact ⟨plan, ok, rebased, routing, kept.trans (recorded.symm.trans before)⟩

end Updatedc.Sample
