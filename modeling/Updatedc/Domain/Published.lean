import Updatedc.Domain.Reconcile

/-!
# What a plan publishes for a node

`planReconcile` decides a node's publication in one place, `publishNodes`. Here it is read node by
node: what a node is published with is a function of its own routing, its own assignment by the
planner and what it would be carried forward on (`publishNodes_ok`), and the loop fails only if
carrying some node forward does (`publishNodes_error`). The rest of the pass is peeled off around
it once (`planReconcile_ok`).
-/

namespace Updatedc

open Contracts

variable [Crates]
variable {group : String} {deployments : BTreeMap String DesiredDeployment}

namespace Publishing

variable {self : Publishing} {nodeDeployments : BTreeMap String DesiredDeployment}

/-- What one turn of the loop leaves for its node, from what was there and what it is carried
forward on. -/
def publishedAs (group : String) (before : Option DesiredDeployment × Option String) :
    Option (String × DesiredDeployment) → Option DesiredDeployment × Option String
  | some (last, deployment) => (some deployment, some last)
  | none => if before.1.isSome then (before.1, some group) else before

omit [Crates] in
/-- A node that is not carried keeps what it was handed, under its own group. -/
@[simp] theorem publishedAs_none (group : String) (handed : Option DesiredDeployment) :
    publishedAs group (handed, none) none = (handed, handed.map fun _ => group) := by
  cases handed <;> rfl

theorem publishStep_ok {build next : BTreeMap String DesiredDeployment × BTreeMap String String}
    {node : String} (ok : self.publishStep build (node, group) = .ok next) :
    ∃ carry, self.carried node group (build.1.contains node) = .ok carry ∧
      next = match carry with
        | some (last, deployment) => (build.1.insert node deployment, build.2.insert node last)
        | none => if build.1.contains node then (build.1, build.2.insert node group)
            else build := by
  obtain ⟨carry, carried, ok⟩ := Except.bind_ok_iff.mp ok
  refine ⟨carry, carried, ?_⟩
  rcases carry with _ | ⟨last, deployment⟩
  · dsimp only at ok ⊢
    split_ifs at ok ⊢ <;> cases ok <;> rfl
  · cases ok
    rfl

private theorem publishStep_local (self : Publishing) :
    KeyedFold.Local self.publishStep (fun build node => (build.1[node]?, build.2[node]?))
      (fun node group before after => ∃ carry,
        self.carried node group before.1.isSome = .ok carry ∧
          after = publishedAs group before carry) where
  own {build node group next} ok := by
    obtain ⟨carry, carried, rfl⟩ := publishStep_ok ok
    rw [Std.ExtTreeMap.contains_eq_isSome_getElem?] at carried
    refine ⟨carry, carried, ?_⟩
    rcases carry with _ | ⟨last, deployment⟩
    · unfold publishedAs
      simp only [Std.ExtTreeMap.contains_eq_isSome_getElem?]
      split_ifs <;> simp
    · simp [publishedAs]
  frame {build node group next} ok other different := by
    obtain ⟨carry, -, rfl⟩ := publishStep_ok ok
    rcases carry with _ | ⟨last, deployment⟩
    · dsimp only
      split_ifs
      · rw [BTreeMap.getElem?_insert, if_neg different.symm]
      · rfl
    · simp only [BTreeMap.getElem?_insert, if_neg different.symm]

variable {assigned : Bool}

/-- A node is carried forward on its recorded body, or follows the repository default. -/
theorem carried_some {node last : String} {deployment : DesiredDeployment}
    (ok : self.carried node group assigned = .ok (some (last, deployment))) :
    self.lastRouting node group assigned = some last ∧
      (self.frozen node last = true ∧ self.placedDeployment node = some deployment ∨
        self.frozen node last = false ∧ last = defaultGroup ∧ deployment = self.default) := by
  unfold carried at ok
  split at ok
  · cases ok
  · next routed =>
    split_ifs at ok with frozen unmatched
    · split at ok
      · next placed =>
        cases ok
        exact ⟨routed, .inl ⟨frozen, placed⟩⟩
      · cases ok
    · cases ok
      exact ⟨routed, .inr ⟨by simpa using frozen, unmatched, rfl⟩⟩
    · cases ok

/-- Carrying a node forward fails only for want of its recorded body. -/
theorem carried_error {node : String} {error : PlanError}
    (failed : self.carried node group assigned = .error error) :
    ∃ last, self.observed.routing[node]? = some last ∧ self.placedDeployment node = none ∧
      error = .unknownPlacement node last := by
  unfold carried at failed
  split at failed
  · cases failed
  · next last routed =>
    split_ifs at failed with frozen unmatched
    split at failed
    · cases failed
    · next lost =>
      cases failed
      exact ⟨last, (Option.filter_eq_some_iff.mp routed).1, lost, rfl⟩

/-- A frozen node is carried forward on its recorded body, or not at all. -/
theorem carried_of_frozen {node last : String}
    (routed : self.lastRouting node group assigned = some last)
    (frozen : self.frozen node last = true) :
    self.carried node group assigned =
      (self.placedDeployment node).elim (.error (.unknownPlacement node last))
        fun deployment => .ok (some (last, deployment)) := by
  unfold carried
  rw [routed]
  dsimp only
  rw [if_pos frozen]
  cases self.placedDeployment node <;> rfl

/-- Any other node follows the default if it was published under it. -/
theorem carried_of_not_frozen {node last : String}
    (routed : self.lastRouting node group assigned = some last)
    (free : self.frozen node last = false) :
    self.carried node group assigned =
      .ok (if last = defaultGroup then some (last, self.default) else none) := by
  unfold carried
  rw [routed]
  dsimp only
  rw [free, if_neg Bool.false_ne_true]
  split_ifs <;> rfl

omit [Crates] in
private theorem placeDefault_local (self : Publishing) :
    KeyedFold.Local
      (fun build entry => (pure
        (if self.takesDefault entry.1 entry.2 then build.insert entry.1 self.default else build) :
        Except Empty (BTreeMap String DesiredDeployment)))
      (fun build node => build[node]?)
      (fun node selected before after =>
        after = if self.takesDefault node selected then some self.default else before) where
  own {build node selected next} ok := by
    cases ok
    split_ifs <;> simp_all
  frame {build node selected next} ok other different := by
    cases ok
    split_ifs
    · rw [BTreeMap.getElem?_insert, if_neg different.symm]
    · rfl

omit [Crates] in
/-- The default arm reaches exactly the nodes that follow the repository default. -/
theorem getElem?_placeDefault {node : String} (routed : self.nodeGroups[node]? = some group) :
    (self.placeDefault nodeDeployments)[node]? =
      if self.takesDefault node group then some self.default else nodeDeployments[node]? :=
  KeyedFold.law_foldl_of_mem (placeDefault_local self) self.nodeGroups.nodup_keys_toList
    (Std.ExtTreeMap.mem_toList_iff_getElem?_eq_some.mpr routed)

omit [Crates] in
theorem getElem?_placeDefault_of_not_routed {node : String}
    (unrouted : self.nodeGroups[node]? = none) :
    (self.placeDefault nodeDeployments)[node]? = nodeDeployments[node]? :=
  KeyedFold.view_foldl_of_not_mem (placeDefault_local self)
    (BTreeMap.not_mem_keys_toList unrouted)

/-- A planned node is published as its own turn decides, whatever the others do. -/
theorem publishNodes_ok {routing : BTreeMap String String}
    (ok : self.publishNodes nodeDeployments = .ok (deployments, routing)) {node : String}
    (routed : self.nodeGroups[node]? = some group) :
    ∃ carry, self.carried node group (self.placeDefault nodeDeployments)[node]?.isSome =
        .ok carry ∧
      (deployments[node]?, routing[node]?) =
        publishedAs group ((self.placeDefault nodeDeployments)[node]?, none) carry := by
  have turn := (publishStep_local self).law_of_mem self.nodeGroups.nodup_keys_toList ok
    (Std.ExtTreeMap.mem_toList_iff_getElem?_eq_some.mpr routed)
  simpa using turn

theorem publishNodes_ok_of_not_routed {routing : BTreeMap String String}
    (ok : self.publishNodes nodeDeployments = .ok (deployments, routing)) {node : String}
    (unrouted : self.nodeGroups[node]? = none) :
    deployments[node]? = nodeDeployments[node]? ∧ routing[node]? = none := by
  have same := (publishStep_local self).view_of_not_mem ok
    (BTreeMap.not_mem_keys_toList unrouted)
  simpa [getElem?_placeDefault_of_not_routed unrouted] using same

/-- The loop fails only where carrying a node forward does. -/
theorem publishNodes_error {error : PlanError}
    (failed : self.publishNodes nodeDeployments = .error error) :
    ∃ node group, self.nodeGroups[node]? = some group ∧
      self.carried node group (self.placeDefault nodeDeployments)[node]?.isSome =
        .error error := by
  obtain ⟨node, group, build, member, same, turn⟩ :=
    (publishStep_local self).exists_error self.nodeGroups.nodup_keys_toList failed
  refine ⟨node, group, Std.ExtTreeMap.mem_toList_iff_getElem?_eq_some.mp member, ?_⟩
  rcases Except.bind_error_iff.mp turn with failing | ⟨carry, -, published⟩
  · rw [Std.ExtTreeMap.contains_eq_isSome_getElem?, (Prod.mk.inj same).1] at failing
    exact failing
  · rcases carry with _ | ⟨last, deployment⟩
    · dsimp only at published
      split_ifs at published <;> cases published
    · cases published

end Publishing

/-! ## Peeling off the pass -/

section
variable {desired : DesiredState} {observed : ObservedState} {memory : Memory}

/-- The outcome of the planner in this pass. -/
def rolloutOutcome (desired : DesiredState) (observed : ObservedState) (memory : Memory)
    (nodeGroups : BTreeMap String String) (default : DesiredDeployment) : RolloutOutcome :=
  planRollouts desired.sets (rolloutInputs desired observed memory.verified nodeGroups default)
    observed.admitted observed.vetoed memory.log
    (memory.verified.verifyFleet observed.reports observed.publicKeys) observed.now

/-- What the pass decides its publication from. -/
def passPublishing (desired : DesiredState) (observed : ObservedState) (memory : Memory)
    (nodeGroups : BTreeMap String String) (default : DesiredDeployment) : Publishing :=
  publishing desired observed nodeGroups default
    (rolloutOutcome desired observed memory nodeGroups default)

/-- Everything a plan rests on, named. -/
structure PlannedBy (desired : DesiredState) (observed : ObservedState) (memory : Memory)
    (plan : ReconcilePlan) (nodeGroups : BTreeMap String String) (default : DesiredDeployment)
    (deployments : BTreeMap String DesiredDeployment) : Prop where
  route : desired.route = .ok nodeGroups
  parsed : DesiredDeployment.tryFrom desired.repository.defaultDeployment = .ok default
  published : (passPublishing desired observed memory nodeGroups default).publishNodes
    (rolloutOutcome desired observed memory nodeGroups default).plan.nodeDeployments =
      .ok (deployments, plan.routing)
  kept : (passPublishing desired observed memory nodeGroups default).dropped plan.routing = []
  assignments : ∀ node : String,
    plan.assignments[node]? = deployments[node]?.bind deploymentIdentity
  identities : ∀ (node : String) (deployment : DesiredDeployment),
    deployments[node]? = some deployment → deploymentIdentity deployment ≠ none
  keys : plan.routing.keys = deployments.keys
  blocked : plan.blocked =
    (rolloutOutcome desired observed memory nodeGroups default).plan.blocked
  admitted : plan.admitted =
    (passPublishing desired observed memory nodeGroups default).admitted
  vetoed : plan.vetoed = (rolloutOutcome desired observed memory nodeGroups default).vetoed

theorem planReconcile_ok {plan : ReconcilePlan}
    (ok : (planReconcile desired observed memory).1 = .ok plan) :
    ∃ nodeGroups default deployments,
      PlannedBy desired observed memory plan nodeGroups default deployments := by
  unfold planReconcile at ok
  cases route : desired.route with
  | error error => rw [route] at ok; cases ok
  | ok nodeGroups =>
    rw [route] at ok
    cases parsed : DesiredDeployment.tryFrom desired.repository.defaultDeployment with
    | error error => rw [parsed] at ok; cases ok
    | ok default =>
      rw [parsed] at ok
      obtain ⟨⟨deployments, routing⟩, published, ok⟩ := Except.bind_ok_iff.mp ok
      dsimp only at ok
      split_ifs at ok with kept
      obtain ⟨publication, built, ok⟩ := Except.bind_ok_iff.mp ok
      cases ok
      obtain ⟨rfl, keys, assignments, identities⟩ := buildPublicationPlan_ok built
      exact ⟨nodeGroups, default, deployments, route, parsed, published, not_not.mp kept,
        assignments, identities, keys, rfl, rfl, rfl⟩

section
variable {plan : ReconcilePlan} {nodeGroups : BTreeMap String String}
  {default : DesiredDeployment} {deployments : BTreeMap String DesiredDeployment} {node : String}
  (planned : PlannedBy desired observed memory plan nodeGroups default deployments)
include planned

/-- A node of the fleet that was published before is published. -/
theorem PlannedBy.mem_routing {last : String} (routed : nodeGroups[node]? = some group)
    (recorded : observed.routing[node]? = some last) : node ∈ plan.routing := by
  have before : node ∈ observed.routing.keys := by
    rw [Std.ExtTreeMap.mem_keys, Std.ExtTreeMap.mem_iff_isSome_getElem?, recorded]
    rfl
  have kept := List.filter_eq_nil_iff.mp planned.kept node before
  have fleet : nodeGroups.contains node = true := by
    rw [Std.ExtTreeMap.contains_eq_isSome_getElem?, routed]
    rfl
  by_contra missing
  have unpublished : plan.routing.contains node = false :=
    Bool.eq_false_iff.mpr fun there => missing (Std.ExtTreeMap.contains_iff_mem.mp there)
  exact kept (Bool.and_eq_true_iff.mpr ⟨fleet, by rw [unpublished]; rfl⟩)

/-- What is published under a group is published with a deployment, and the other way round. -/
theorem PlannedBy.mem_routing_iff :
    node ∈ plan.routing ↔ ∃ deployment, deployments[node]? = some deployment := by
  rw [← Std.ExtTreeMap.mem_keys, planned.keys, Std.ExtTreeMap.mem_keys,
    Std.ExtTreeMap.mem_iff_isSome_getElem?, Option.isSome_iff_exists]

/-- A node with a group of its own is published with what the planner assigned it. -/
theorem PlannedBy.of_assigned {deployment : DesiredDeployment}
    (routed : nodeGroups[node]? = some group) (matched : group ≠ defaultGroup)
    (assigned : (rolloutOutcome desired observed memory nodeGroups
      default).plan.nodeDeployments[node]? = some deployment) :
    deployments[node]? = some deployment := by
  let publishing := passPublishing desired observed memory nodeGroups default
  obtain ⟨carry, carried, published⟩ := Publishing.publishNodes_ok planned.published routed
  have passed : publishing.takesDefault node group = false := by
    simp [Publishing.takesDefault, matched]
  have routed' : publishing.nodeGroups[node]? = some group := routed
  rw [Publishing.getElem?_placeDefault routed', passed, if_neg Bool.false_ne_true, assigned]
    at carried published
  have free : publishing.lastRouting node group true = none := by
    simp [Publishing.lastRouting, matched]
  have uncarried : publishing.carried node group true = .ok none := by
    unfold Publishing.carried
    rw [free]
  obtain rfl := Except.ok.inj (uncarried.symm.trans carried)
  rw [Publishing.publishedAs_none] at published
  exact (Prod.mk.inj published).1

end

/-- **Where a published deployment comes from**: the planner assigned it, it is the repository
default and movement onto that is not blocked, or it is the body recorded for the node. -/
theorem PlannedBy.origin {plan : ReconcilePlan} {nodeGroups : BTreeMap String String}
    {default : DesiredDeployment}
    (planned : PlannedBy desired observed memory plan nodeGroups default deployments)
    {node : String} {deployment : DesiredDeployment} (found : deployments[node]? = some deployment)
    :
    (rolloutOutcome desired observed memory nodeGroups default).plan.nodeDeployments[node]? =
        some deployment ∨
      (deployment = default ∧
        (passPublishing desired observed memory nodeGroups default).defaultBlocked = false) ∨
      (passPublishing desired observed memory nodeGroups default).placedDeployment node =
        some deployment := by
  cases routed : nodeGroups[node]? with
  | none =>
    have same := (Publishing.publishNodes_ok_of_not_routed planned.published routed).1
    exact .inl (same ▸ found)
  | some group =>
    obtain ⟨carry, carried, same⟩ := Publishing.publishNodes_ok planned.published routed
    rcases carry with _ | ⟨last, body⟩
    · -- Not carried: what the planner or the default arm handed it.
      have handed : ((passPublishing desired observed memory nodeGroups default).placeDefault
          (rolloutOutcome desired observed memory nodeGroups default).plan.nodeDeployments)[node]?
          = some deployment := by
        rw [Publishing.publishedAs_none] at same
        exact (Prod.mk.inj same).1 ▸ found
      rw [Publishing.getElem?_placeDefault routed] at handed
      split_ifs at handed with follows
      · refine .inr (.inl ⟨(Option.some.inj handed).symm, ?_⟩)
        simpa using (Bool.and_eq_true_iff.mp follows).2
      · exact .inl handed
    · cases (Option.some.inj (found.symm.trans (Prod.mk.inj same).1))
      rcases (Publishing.carried_some carried).2 with ⟨-, placed⟩ | ⟨free, unmatched, rfl⟩
      · exact .inr (.inr placed)
      · refine .inr (.inl ⟨rfl, ?_⟩)
        by_contra blocked
        rw [Bool.not_eq_false] at blocked
        simp [Publishing.frozen, blocked, unmatched] at free

end

end Updatedc
