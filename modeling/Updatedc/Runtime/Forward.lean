import Updatedc.Domain.Frozen
import Updatedc.Lib.Run
import Updatedc.Runtime.Retention

/-!
# Assignments only move forward

Once a node has been published its group's admitted current, nothing short of a new current or a
new group takes it off: the planner hands it the same deployment whatever it reports, a hold or a
quarantine carries its recorded body forward, and a default that may not be handed out leaves the
unmatched nodes where they are.

That is so for the nodes a pass plans at all. **An agent whose identity is malformed is dropped from
the generation, also one that was published**: editing its pinned key to a text that does not parse
takes its node off. That is the only exception (`Controller.run_forward_only`).
-/

namespace Updatedc

open Contracts

variable [Crates]

/-- The group a node of the fleet belongs to in a pass. A quarantined group is not planned, and
keeps its nodes all the same: those its selector still names, or, where the selector has become
empty, those last published under it. -/
inductive BelongsTo (desired : DesiredState) (observed : ObservedState)
    (nodeGroups : BTreeMap String String) (node group : String) : Prop
  | routed (routed : nodeGroups[node]? = some group)
  | withheld (resolved : ResolvedNode) (listed : resolved ∈ desired.nodes)
      (named : resolved.name = node) (unmatched : nodeGroups[node]? = some defaultGroup)
      (selector : Labels) (quarantined : desired.quarantined[group]? = some selector)
      (usable : selector.isEmpty = false)
      (selects : selectorMatches selector resolved.labels = true)
  | unselected (unmatched : nodeGroups[node]? = some defaultGroup) (selector : Labels)
      (quarantined : desired.quarantined[group]? = some selector)
      (empty : selector.isEmpty = true) (recorded : observed.routing[node]? = some group)

/-- The admitted current of a group has this identity. -/
def Admitted.CurrentIs (admitted : Admitted) (group : String) (identity : Sha256) : Prop :=
  ∃ state, admitted[group]? = some state ∧ deploymentIdentity state.current = some identity

/-! ## One pass -/

section
variable {desired : DesiredState} {observed : ObservedState} {memory : Memory}
  {plan : ReconcilePlan} {nodeGroups : BTreeMap String String} {default : DesiredDeployment}
  {deployments : BTreeMap String DesiredDeployment} {node group last : String}
  {identity : Sha256}

/-- A planned group's entry is the planner's. -/
theorem getElem?_passPublishing_of_planned (pinned : Pinned desired observed)
    (planned : group ∈ desired.groups) (matched : group ≠ defaultGroup) :
    (passPublishing desired observed memory nodeGroups default).admitted[group]? =
      (rolloutOutcome desired observed memory nodeGroups default).admitted[group]? := by
  have unpinned : desired.held[group]? = none := by
    by_contra pin
    obtain ⟨state, found⟩ := Option.ne_none_iff_exists'.mp pin
    rw [Std.ExtTreeMap.mem_iff_isSome_getElem?, pinned.unplanned group state found] at planned
    cases planned
  have restored : (restorePins desired.held
      (rolloutOutcome desired observed memory nodeGroups default).admitted)[group]? = _ :=
    getElem?_restorePins_of_unpinned unpinned
  rw [← restored]
  change (if _ then _ else _)[group]? = _
  split_ifs
  · rfl
  · cases deploymentIdentity default with
    | none => rfl
    | some id => exact getElem?_recordDefault_of_ne matched

/-- The default lineage stands at the default whenever that may be handed out. -/
theorem identity_of_current_default
    (unblocked : (passPublishing desired observed memory nodeGroups default).defaultBlocked = false)
    (known : deploymentIdentity default ≠ none)
    (current : (passPublishing desired observed memory nodeGroups
      default).admitted.CurrentIs defaultGroup identity) :
    deploymentIdentity default = some identity := by
  obtain ⟨id, same⟩ := Option.ne_none_iff_exists'.mp known
  obtain ⟨state, found, stands⟩ := current
  let pins := restorePins desired.held
    (rolloutOutcome desired observed memory nodeGroups default).admitted
  obtain ⟨recorded, entry, newest, -⟩ := getElem?_recordDefault_default pins default id
  change (if (passPublishing desired observed memory nodeGroups default).defaultBlocked then pins
    else (deploymentIdentity default).elim pins fun id => recordDefault default id
      pins)[defaultGroup]? = _ at found
  rw [unblocked, same] at found
  obtain rfl := Option.some.inj (entry.symm.trans found)
  rcases newest with rfl | other
  · exact stands
  · rw [same, ← other, stands]

variable (planned : PlannedBy desired observed memory plan nodeGroups default deployments)
include planned

/-- A published node whose recorded body is carried forward keeps its identity. -/
theorem PlannedBy.of_placed {deployment : DesiredDeployment}
    (found : deployments[node]? = some deployment)
    (placed : (passPublishing desired observed memory nodeGroups default).placedDeployment node =
      some deployment) :
    plan.assignments[node]? = observed.assignments[node]? := by
  rw [planned.assignments, found, Option.bind_some, deploymentIdentity_of_placedDeployment placed]
  rfl

/-- A node of a planned group that stands at what the node was published stays there. -/
theorem PlannedBy.forward_of_routed (pinned : Pinned desired observed)
    (routed : nodeGroups[node]? = some group) (matched : group ≠ defaultGroup)
    (free : node ∉ desired.holds) (assigned : observed.assignments[node]? = some identity)
    (current : plan.admitted.CurrentIs group identity) :
    plan.assignments[node]? = some identity := by
  have listed : group ∈ desired.groups :=
    ((DesiredState.route_ok planned.route).group node group routed).resolve_left matched
  obtain ⟨state, found, stands⟩ := current
  rw [planned.admitted, getElem?_passPublishing_of_planned pinned listed matched] at found
  obtain ⟨declared, resolved⟩ := Option.isSome_iff_exists.mp
    (Std.ExtTreeMap.mem_iff_isSome_getElem?.mp (mem_resolveGroupInputs listed))
  have published : (rolloutInputs desired observed memory.verified nodeGroups
      default).published[node]? = some identity := assigned
  have there : ((rolloutInputs desired observed memory.verified nodeGroups
      default).observations (memory.verified.verifyFleet observed.reports
        observed.publicKeys) observed.now).advanced node identity = true := by
    rw [advanced_observations]
    simp [RolloutInputs.isOn, published]
  have handed : (rolloutOutcome desired observed memory nodeGroups
      default).plan.nodeDeployments[node]? = some state.current :=
    assignment_of_advanced resolved found routed stands free there
  rw [planned.assignments, planned.of_assigned routed matched handed]
  exact stands

/-- An unmatched node follows the default lineage, or stays where it is. -/
theorem PlannedBy.forward_of_unmatched (unmatched : nodeGroups[node]? = some defaultGroup)
    (assigned : observed.assignments[node]? = some identity)
    (recorded : observed.routing[node]? = some last)
    (current : plan.admitted.CurrentIs defaultGroup identity) :
    plan.assignments[node]? = some identity := by
  obtain ⟨deployment, found⟩ :=
    planned.mem_routing_iff.mp (planned.mem_routing unmatched recorded)
  rcases planned.origin found with handed | ⟨rfl, unblocked⟩ | placed
  · have routing := DesiredState.route_ok planned.route
    cases (nodeDeployments_of_unmatched routing unmatched).symm.trans handed
  · rw [planned.assignments, found]
    rw [planned.admitted] at current
    exact identity_of_current_default unblocked (planned.identities node _ found) current
  · rw [planned.of_placed found placed, assigned]

/-- A node whose group's selector has become empty is carried forward for its last routing. -/
theorem PlannedBy.forward_of_unselected (unmatched : nodeGroups[node]? = some defaultGroup)
    {selector : Labels} (quarantined : desired.quarantined[group]? = some selector)
    (empty : selector.isEmpty = true) (matched : group ≠ defaultGroup)
    (assigned : observed.assignments[node]? = some identity)
    (recorded : observed.routing[node]? = some group)
    (current : plan.admitted.CurrentIs group identity) :
    plan.assignments[node]? = some identity := by
  let publishing := passPublishing desired observed memory nodeGroups default
  obtain ⟨carry, carried, published⟩ := Publishing.publishNodes_ok planned.published unmatched
  have carries (handed : Bool) : publishing.lastRouting node defaultGroup handed = some group := by
    have recorded : publishing.observed.routing[node]? = some group := recorded
    have quarantined : publishing.desired.quarantined[group]? = some selector := quarantined
    simp [Publishing.lastRouting, recorded, quarantined, empty, Option.filter]
  have frozen : publishing.frozen node group = true := by
    obtain ⟨state, found, -⟩ := current
    rw [planned.admitted] at found
    have entry : publishing.admitted.contains group = true := by
      rw [Std.ExtTreeMap.contains_eq_isSome_getElem?, found]
      rfl
    simp [Publishing.frozen, matched, entry]
  rw [Publishing.carried_of_frozen (carries _) frozen] at carried
  cases placed : publishing.placedDeployment node with
  | none => rw [placed] at carried; cases carried
  | some deployment =>
    rw [placed] at carried
    cases carried
    rw [planned.of_placed (Prod.mk.inj published).1 placed, assigned]

/-- **One pass never takes a node back**: a node that was published its group's current is
published it again, if that is still the current and still the node's group. -/
theorem PlannedBy.forward (pinned : Pinned desired observed)
    (belongs : BelongsTo desired observed nodeGroups node group)
    (assigned : observed.assignments[node]? = some identity)
    (recorded : observed.routing[node]? = some last)
    (current : plan.admitted.CurrentIs group identity) :
    plan.assignments[node]? = some identity := by
  have frozen : ∀ selected, nodeGroups[node]? = some selected →
      (rolloutOutcome desired observed memory nodeGroups default).plan.nodeDeployments[node]? =
        none →
      (quarantinedNodes desired nodeGroups).contains node = true ∨ node ∈ desired.holds →
      plan.assignments[node]? = some identity := by
    intro selected routed unassigned kept
    obtain ⟨-, known, same, published⟩ :=
      planned.kept_of_frozen routed recorded unassigned kept
    rw [published, ← same, assigned]
  have held : ∀ selected, nodeGroups[node]? = some selected → node ∈ desired.holds →
      plan.assignments[node]? = some identity :=
    fun selected routed hold =>
      frozen selected routed (nodeDeployments_of_held hold) (.inr hold)
  cases belongs with
  | routed routed =>
    by_cases hold : node ∈ desired.holds
    · exact held group routed hold
    by_cases matched : group = defaultGroup
    · subst matched
      exact planned.forward_of_unmatched routed assigned recorded current
    · exact planned.forward_of_routed pinned routed matched hold assigned current
  | withheld resolved listed named unmatched selector quarantined usable selects =>
    subst named
    exact frozen defaultGroup unmatched
      (nodeDeployments_of_unmatched (DesiredState.route_ok planned.route) unmatched)
      (.inl (withheld_of_quarantined listed unmatched quarantined usable selects))
  | unselected unmatched selector quarantined empty last =>
    by_cases matched : group = defaultGroup
    · subst matched
      exact planned.forward_of_unmatched unmatched assigned recorded current
    · exact planned.forward_of_unselected unmatched quarantined empty matched assigned last current

end

/-! ## Runs -/

namespace Controller

variable (node group : String) (identity : Sha256)
variable (self : Controller)

/-- In the pass's plan, if it has one, the group's admitted current has the identity, and the node
belongs to the group if it is planned. -/
def Stands (pass : Pass) : Prop :=
  let desired := pass.cluster.desired self.durable pass.surroundings.blockedDeployments
  ∀ plan nodeGroups, (self.plan pass).1 = .ok plan → desired.route = .ok nodeGroups →
    plan.admitted.CurrentIs group identity ∧ (node ∈ pass.cluster.wellFormedAgents →
      BelongsTo desired (pass.observed self.durable) nodeGroups node group)

/-- In a pass that has a plan, the node's agent is there and its identity is well-formed. -/
def IsWellFormed (pass : Pass) : Prop :=
  ∀ plan, (self.plan pass).1 = .ok plan → node ∈ pass.cluster.wellFormedAgents

/-- The pass's plan, if it has one, publishes the node with the identity. -/
def Publishes (pass : Pass) : Prop :=
  ∀ plan, (self.plan pass).1 = .ok plan → plan.assignments[node]? = some identity

/-- The node is recorded on the identity, and under some group. -/
def IsRecorded : Prop :=
  self.durable.assignments[node]? = some identity ∧ node ∈ self.durable.routing

variable {node group identity}

theorem isRecorded_plan {self : Controller} {pass : Pass} {plan : ReconcilePlan}
    (ok : (self.plan pass).1 = .ok plan) (assigned : plan.assignments[node]? = some identity) :
    plan.durable.assignments[node]? = some identity ∧ node ∈ plan.durable.routing := by
  obtain ⟨nodeGroups, default, deployments, planned⟩ := planReconcile_ok ok
  refine ⟨assigned, planned.mem_routing_iff.mpr ?_⟩
  rw [planned.assignments] at assigned
  obtain ⟨deployment, found, -⟩ := Option.bind_eq_some_iff.mp assigned
  exact ⟨deployment, found⟩

theorem publishes_of_stands {self : Controller} {pass : Pass}
    (stands : Stands node group identity self pass) (recorded : IsRecorded node identity self)
    (wellFormed : IsWellFormed node self pass) : Publishes node identity self pass := by
  intro plan ok
  obtain ⟨nodeGroups, default, deployments, planned⟩ := planReconcile_ok ok
  obtain ⟨current, belongs⟩ := stands plan nodeGroups ok planned.route
  obtain ⟨last, before⟩ := Option.isSome_iff_exists.mp
    (Std.ExtTreeMap.mem_iff_isSome_getElem?.mp recorded.2)
  exact planned.forward (self.pinned pass) (belongs (wellFormed plan ok)) recorded.1 before current

/-- **A plan publishes only agents with a well-formed identity.** -/
theorem isWellFormed_of_publishes {self : Controller} {pass : Pass}
    (publishes : Publishes node identity self pass) : IsWellFormed node self pass := by
  intro plan ok
  have routed := (isRecorded_plan ok (publishes plan ok)).2
  obtain ⟨nodeGroups, default, deployments, planned⟩ := planReconcile_ok ok
  cases selected : nodeGroups[node]? with
  | none =>
    have unrouted : plan.routing[node]? = none :=
      (Publishing.publishNodes_ok_of_not_routed planned.published selected).2
    rw [ReconcilePlan.durable, Std.ExtTreeMap.mem_iff_isSome_getElem?, unrouted] at routed
    cases routed
  | some group =>
    obtain ⟨resolved, listed, rfl⟩ :=
      (DesiredState.route_ok planned.route).listed node group selected
    obtain ⟨⟨name, agent⟩, known, rfl⟩ := List.mem_map.mp listed
    rw [Std.ExtTreeMap.mem_iff_isSome_getElem?,
      Std.ExtTreeMap.mem_toList_iff_getElem?_eq_some.mp known]
    rfl

theorem isRecorded_step {self : Controller} {pass : Pass}
    (publishes : Publishes node identity self pass) (recorded : IsRecorded node identity self) :
    IsRecorded node identity (self.step pass) := by
  rcases self.durable_step pass with same | ⟨plan, ok, same⟩
  · exact ⟨same ▸ recorded.1, same ▸ recorded.2⟩
  · rw [IsRecorded, same]
    exact isRecorded_plan ok (publishes plan ok)

/-- **Assignments only move forward, for agents whose identity stays well-formed.** Once a recorded
pass publishes a node with an identity, take any run of passes in which the admitted current of the
node's group has that identity: every plan of the run publishes the node with it exactly if the
node's agent is there, with a well-formed identity, in every pass that has a plan. -/
theorem run_forward_only (self : Controller) (node group : String) (identity : Sha256)
    (first : Pass) (committed : first.surroundings.committed = true) (plan : ReconcilePlan)
    (ok : (self.plan first).1 = .ok plan) (assigned : plan.assignments[node]? = some identity)
    (rest : List Pass)
    (stands : Run.Along step (Stands node group identity) (self.step first) rest) :
    Run.Along step (Publishes node identity) (self.step first) rest ↔
      Run.Along step (IsWellFormed node) (self.step first) rest := by
  have start : IsRecorded node identity (self.step first) := by
    rw [IsRecorded, durable_step_of_ok ok committed]
    exact isRecorded_plan ok assigned
  constructor
  · exact fun publishes => publishes.of_invariant (fun _ => True) (fun _ _ _ _ => trivial)
      (fun _ _ now _ => isWellFormed_of_publishes now) trivial
  · intro wellFormed
    refine (stands.and wellFormed).of_invariant (IsRecorded node identity) ?_ ?_ start
    · exact fun _ _ now recorded =>
        isRecorded_step (publishes_of_stands now.1 recorded now.2) recorded
    · exact fun _ _ now recorded => publishes_of_stands now.1 recorded now.2

end Controller

end Updatedc

namespace Updatedc.Sample

open Contracts

/-- One group of one node, cordoned, that asks for `a` with this budget. -/
def budgeted (maxUnavailable : Nat) : Pass :=
  reporting (cluster "d" [] [("g", { updateGroup "g" "a" [] with maxUnavailable })]
    [("m", { agent "g" with cordon := true })]) []

theorem stands_unbudgeted :
    (Controller.initial.step (budgeted 1)).Stands "m" "g" 97 (budgeted 0) := by
  intro plan nodeGroups ok route
  have unmatched : ((budgeted 0).cluster.desired
      (Controller.initial.step (budgeted 1)).durable ∅).route =
        .ok (table [("m", defaultGroup)]) := by
    decide +kernel
  obtain rfl := Except.ok.inj (unmatched.symm.trans route)
  obtain ⟨known, same, current⟩ := Except.exists_of_any
    (x := ((Controller.initial.step (budgeted 1)).plan (budgeted 0)).1)
    (p := fun plan => plan.admitted["g"]?.any (deploymentIdentity ·.current = some 97))
    (by decide +kernel)
  obtain rfl := Except.ok.inj (same.symm.trans ok)
  obtain ⟨state, found, stands⟩ := (Option.any_eq_true _ _).mp current
  exact ⟨⟨state, found, of_decide_eq_true stands⟩, fun _ =>
    .withheld ⟨"m", labelled "g"⟩ (by decide +kernel) rfl (by decide) (labelled "g")
      (by decide +kernel) (by decide) (by decide)⟩

/-- A budget of zero quarantines the group, and its node stays where it is. -/
theorem run_forward_only_quarantined :
    ∃ plan, (Controller.initial.plan (budgeted 1)).1 = .ok plan ∧
      plan.assignments["m"]? = some 97 ∧
      (Controller.initial.step (budgeted 1)).Publishes "m" 97 (budgeted 0) := by
  obtain ⟨plan, ok, assigned⟩ := Except.exists_of_any
    (x := (Controller.initial.plan (budgeted 1)).1)
    (p := fun plan => plan.assignments["m"]? = some 97) (by decide +kernel)
  have handed := of_decide_eq_true assigned
  have along := Controller.run_forward_only Controller.initial "m" "g" 97 (budgeted 1) rfl plan ok
    handed [budgeted 0] (Run.along_singleton.mpr stands_unbudgeted)
  exact ⟨plan, ok, handed, Run.along_singleton.mp
    (along.mpr (Run.along_singleton.mpr fun _ _ => by decide +kernel))⟩

/-- The same agent, its pinned key edited to a text that is no key. -/
def rekeyed : Pass :=
  reporting (cluster "d" [] [("g", { updateGroup "g" "a" [] with maxUnavailable := some 1 })]
    [("m", { agent "g" with cordon := true, identity := ⟨.manual, none, some (.other "x")⟩ })]) []

/-- **An edited key takes a published node off.** Its group and the group's current are what they
were, and the next plan does not publish it. -/
theorem run_drops_malformed :
    (∃ plan, (Controller.initial.plan (budgeted 1)).1 = .ok plan ∧
      plan.assignments["m"]? = some 97) ∧
    ∃ plan, ((Controller.initial.step (budgeted 1)).plan rekeyed).1 = .ok plan ∧
      plan.admitted.CurrentIs "g" 97 ∧ plan.assignments["m"]? = none := by
  obtain ⟨first, ok, assigned⟩ := Except.exists_of_any
    (x := (Controller.initial.plan (budgeted 1)).1)
    (p := fun plan => plan.assignments["m"]? = some 97) (by decide +kernel)
  obtain ⟨second, planned, dropped⟩ := Except.exists_of_any
    (x := ((Controller.initial.step (budgeted 1)).plan rekeyed).1)
    (p := fun plan => plan.admitted["g"]?.any (deploymentIdentity ·.current = some 97) &&
      plan.assignments["m"]? = none) (by decide +kernel)
  rw [Bool.and_eq_true] at dropped
  obtain ⟨state, found, stands⟩ := (Option.any_eq_true _ _).mp dropped.1
  exact ⟨⟨first, ok, of_decide_eq_true assigned⟩, second, planned,
    ⟨state, found, of_decide_eq_true stands⟩, of_decide_eq_true dropped.2⟩

end Updatedc.Sample
