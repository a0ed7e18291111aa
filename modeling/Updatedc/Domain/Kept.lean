import Updatedc.Domain.Stored

/-!
# Nodes a pass may drop

A pass refuses to publish a generation that drops a routed node. A node is dropped when its own
group hands it nothing and the group it was last published under has no entry left to freeze it
on. `Keeps` lists what saves a node from that, in terms of what the pass is given; with every
routed node kept, a pass never loses routing (`planReconcile_no_routingLoss`).
-/

namespace Updatedc

open Contracts

variable [Crates]

/-- What keeps a routed node in the publication; one constructor for each way. The node is routed
to `group` and was last published under `last`. -/
inductive Keeps (desired : DesiredState) (observed : ObservedState) (memory : Memory)
    (nodeGroups : BTreeMap String String) (default : DesiredDeployment)
    (node group last : String) : Prop
  /-- It belongs to the default cohort. -/
  | cohort (unmatched : last = defaultGroup)
  /-- The operator holds it. -/
  | held (hold : node ∈ desired.holds)
  /-- A quarantined group withholds it. -/
  | withheld (quarantined : (quarantinedNodes desired nodeGroups).contains node = true)
  /-- Its last group is planned, and admitted to something. -/
  | standing (planned : last ∈ desired.groups) (entry : last ∈ observed.admitted)
  /-- Its last group is quarantined, and pinned. -/
  | pinned (pin : last ∈ desired.held)
  /-- Some node of the fleet is placed on a body its last group's entry stores. -/
  | running (state : AdmittedDeployment) (deployment : DesiredDeployment) (identity : Sha256)
      (other : String) (entry : observed.admitted[last]? = some state)
      (body : deployment ∈ state.bodies) (id : deploymentIdentity deployment = some identity)
      (fleet : other ∈ nodeGroups) (placed : observed.isOn other identity = true)
  /-- Its own group is admitted to something, and can publish that and what it asks for. -/
  | received (declared : ResolvedGroup) (state : AdmittedDeployment)
      (planned : (resolvedGroups desired observed memory.verified nodeGroups)[group]? =
        some declared)
      (entry : observed.admitted[group]? = some state)
      (current : deploymentIdentity state.current ≠ none)
      (target : deploymentIdentity declared.deployment ≠ none)
  /-- It falls to the default cohort, and movement onto the default is not refused. -/
  | fallen (unmatched : group = defaultGroup)
      (free : ∀ identity, deploymentIdentity default = some identity →
        ¬(rolloutInputs desired observed memory.verified nodeGroups default).Refuses desired.sets
          observed.admitted observed.vetoed memory.log
          (memory.verified.verifyFleet observed.reports observed.publicKeys) observed.now identity)

section
variable {desired : DesiredState} {observed : ObservedState} {memory : Memory}
  {nodeGroups : BTreeMap String String} {default : DesiredDeployment} {node group last : String}

/-- A node the loop leaves out has no assignment, and nothing to be carried forward on. -/
theorem Publishing.left_out {self : Publishing}
    {nodeDeployments deployments : BTreeMap String DesiredDeployment}
    {routing : BTreeMap String String}
    (ok : self.publishNodes nodeDeployments = .ok (deployments, routing))
    (routed : self.nodeGroups[node]? = some group)
    (recorded : self.observed.routing[node]? = some last) (lost : routing[node]? = none) :
    self.takesDefault node group = false ∧ nodeDeployments[node]? = none ∧
      self.frozen node last = false ∧ last ≠ defaultGroup := by
  obtain ⟨carry, carried, published⟩ := publishNodes_ok ok routed
  rcases carry with _ | ⟨kept, body⟩
  · rw [publishedAs_none] at published
    have unassigned : (self.placeDefault nodeDeployments)[node]? = none := by
      have missing := (Prod.mk.inj published).2.symm.trans lost
      exact Option.map_eq_none_iff.mp missing
    rw [unassigned, Option.isSome_none] at carried
    rw [getElem?_placeDefault routed] at unassigned
    split_ifs at unassigned with follows
    have carries : self.lastRouting node group false = some last := by
      simp [lastRouting, recorded, Option.filter]
    cases frozen : self.frozen node last with
    | true =>
      rw [carried_of_frozen carries frozen] at carried
      cases placed : self.placedDeployment node <;> rw [placed] at carried <;> cases carried
    | false =>
      refine ⟨by simpa using follows, unassigned, rfl, fun unmatched => ?_⟩
      rw [carried_of_not_frozen carries frozen, if_pos unmatched] at carried
      cases carried
  · cases (Prod.mk.inj published).2.symm.trans lost

/-- Its last group has an entry when the pass ends, if it had one to keep. -/
theorem mem_of_keeps_entry
    (keeps : (last ∈ desired.groups ∧ last ∈ observed.admitted) ∨
      (last ∈ desired.held ∧ last ≠ defaultGroup) ∨
      ∃ state deployment identity other, observed.admitted[last]? = some state ∧
        deployment ∈ state.bodies ∧ deploymentIdentity deployment = some identity ∧
        other ∈ nodeGroups ∧ observed.isOn other identity = true) :
    last ∈ (passPublishing desired observed memory nodeGroups default).admitted := by
  have standing : last ∈ desired.groups → last ∈ observed.admitted →
      last ∈ (rolloutOutcome desired observed memory nodeGroups default).admitted := by
    intro planned entry
    refine mem_planRollouts ?_ entry
    exact Std.ExtTreeMap.mem_map.mpr (mem_resolveGroupInputs planned)
  rcases keeps with ⟨planned, entry⟩ | pin | ⟨state, deployment, identity, other, entry, body, id,
    fleet, placed⟩
  · exact mem_passPublishing (.inl (standing planned entry))
  · exact mem_passPublishing (.inr pin)
  · refine mem_passPublishing (.inl ?_)
    by_cases planned : last ∈ desired.groups
    · exact standing planned (Std.ExtTreeMap.mem_iff_isSome_getElem?.mpr (by simp [entry]))
    · -- A deleted group is kept for the sake of the node that runs one of its bodies.
      refine mem_planRollouts_of_placed ?_ entry body id fleet ?_
      · by_contra resolved
        obtain ⟨group, found⟩ := Option.ne_none_iff_exists'.mp resolved
        obtain ⟨declared, -, -, listed, -⟩ := getElem?_resolveGroupInputs found
        exact planned (Std.ExtTreeMap.mem_iff_isSome_getElem?.mpr (by simp [listed]))
      · rw [advanced_observations]
        exact placed

/-- Its own group assigns it something, if it has an entry it can publish. -/
theorem assigned_of_received {declared : ResolvedGroup} {state : AdmittedDeployment}
    {identity : Sha256} (routed : nodeGroups[node]? = some group)
    (planned : (resolvedGroups desired observed memory.verified nodeGroups)[group]? =
      some declared)
    (entry : observed.admitted[group]? = some state)
    (current : deploymentIdentity state.current ≠ none)
    (target : deploymentIdentity declared.deployment ≠ none) (free : node ∉ desired.holds)
    (assigned : observed.assignments[node]? = some identity)
    (stored : observed.admitted.Resolves identity) :
    (rolloutOutcome desired observed memory nodeGroups default).plan.nodeDeployments[node]? ≠
      none := by
  let inputs := rolloutInputs desired observed memory.verified nodeGroups default
  let verified := memory.verified.verifyFleet observed.reports observed.publicKeys
  have asked : inputs.desired[group]? = some declared.deployment := by
    change (inputs.groups.map _)[group]? = _
    rw [Std.ExtTreeMap.getElem?_map]
    exact congrArg (Option.map _) planned
  obtain ⟨after, currentId, found, id⟩ :
      ∃ after identity, (rolloutOutcome desired observed memory nodeGroups
        default).admitted[group]? = some after ∧
          deploymentIdentity after.current = some identity :=
    publishable_planRollouts asked entry current target
  have fleet : node ∈ inputs.nodeGroups :=
    Std.ExtTreeMap.mem_iff_isSome_getElem?.mpr (Option.isSome_iff_exists.mpr ⟨group, routed⟩)
  have published : (inputs.observations verified observed.now).published[node]? =
    some identity := assigned
  have placed : (inputs.observations verified observed.now).placement node =
      some (.canonical identity) := by
    simp [Observations.placement, published]
  have resolves : (rolloutOutcome desired observed memory nodeGroups default).admitted.Resolves
      identity :=
    resolves_planRollouts fleet (Observations.advanced_of_placement placed) stored
  obtain ⟨name, owner, deployment, ownerAt, body, known⟩ := resolves
  obtain ⟨running, indexed⟩ := exists_bodiesByIdentity
    (List.mem_append_left desired.held.values (BTreeMap.mem_values_iff.mpr ⟨name, ownerAt⟩))
    body known
  have assignment : ∃ handed, (rolloutOutcome desired observed memory nodeGroups
      default).plan.nodeDeployments[node]? = some handed :=
    exists_assignment planned found routed id free placed indexed
  exact Option.ne_none_iff_exists'.mpr assignment

/-- **With every routed node kept, no routing is lost.** -/
theorem planReconcile_no_routingLoss
    (recorded : ∀ (node last : String), observed.routing[node]? = some last →
      ∃ identity, observed.assignments[node]? = some identity)
    (stored : ∀ (node : String) (identity : Sha256),
      observed.assignments[node]? = some identity → observed.admitted.Resolves identity)
    (keeps : ∀ nodeGroups default, desired.route = .ok nodeGroups →
      DesiredDeployment.tryFrom desired.repository.defaultDeployment = .ok default →
      ∀ node group last : String, nodeGroups[node]? = some group →
        observed.routing[node]? = some last →
          Keeps desired observed memory nodeGroups default node group last)
    (nodes : List String) :
    (planReconcile desired observed memory).1 ≠ .error (.routingLoss nodes) := by
  intro failed
  rcases planReconcile_error failed with
    other | ⟨nodeGroups, default, route, parsed, loop | ⟨deployments, routing, ok, dropped, -⟩⟩
  · cases other
  · obtain ⟨_, _, -, carried⟩ := Publishing.publishNodes_error loop
    obtain ⟨_, -, -, unknown⟩ := Publishing.carried_error carried
    cases unknown
  · let publishing := passPublishing desired observed memory nodeGroups default
    -- Some dropped node was routed before, is routed now, and is not published.
    obtain ⟨node, member⟩ := List.exists_mem_of_ne_nil _ dropped
    obtain ⟨before, lost⟩ := List.mem_filter.mp member
    simp only [Bool.and_eq_true, Bool.not_eq_true'] at lost
    obtain ⟨last, recordedAt⟩ := Option.isSome_iff_exists.mp
      (Std.ExtTreeMap.mem_iff_isSome_getElem?.mp (Std.ExtTreeMap.mem_keys.mp before))
    obtain ⟨group, routed⟩ := Option.isSome_iff_exists.mp
      (Std.ExtTreeMap.contains_eq_isSome_getElem?.symm.trans lost.1)
    have missing : routing[node]? = none :=
      Option.isNone_iff_eq_none.mp (Option.isSome_eq_false_iff.mp
        (Std.ExtTreeMap.contains_eq_isSome_getElem?.symm.trans lost.2))
    obtain ⟨follows, unassigned, thawed, other⟩ :=
      Publishing.left_out ok routed recordedAt missing
    simp only [Publishing.frozen, Bool.or_eq_false_iff, Bool.and_eq_false_iff,
      decide_eq_false_iff_not, not_not] at thawed
    obtain ⟨⟨⟨unquarantined, unheld⟩, -⟩, gone⟩ := thawed
    have noEntry : last ∉ publishing.admitted := fun entry =>
      Bool.noConfusion ((Std.ExtTreeMap.contains_iff_mem.mpr entry).symm.trans
        (gone.resolve_left other))
    cases keeps nodeGroups default route parsed node group last routed recordedAt with
    | cohort unmatched => exact other unmatched
    | held hold => exact unheld hold
    | withheld quarantined => exact Bool.noConfusion (quarantined.symm.trans unquarantined)
    | standing planned entry => exact noEntry (mem_of_keeps_entry (.inl ⟨planned, entry⟩))
    | pinned pin => exact noEntry (mem_of_keeps_entry (.inr (.inl ⟨pin, other⟩)))
    | running state deployment identity another entry body id fleet placed =>
      exact noEntry (mem_of_keeps_entry (.inr (.inr
        ⟨state, deployment, identity, another, entry, body, id, fleet, placed⟩)))
    | received declared state planned entry current target =>
      obtain ⟨identity, assigned⟩ := recorded node last recordedAt
      exact assigned_of_received routed planned entry current target unheld assigned
        (stored node identity assigned) unassigned
    | fallen unmatched free =>
      have unblocked : publishing.defaultBlocked = false := by
        refine Bool.eq_false_iff.mpr fun blocked => ?_
        obtain ⟨identity, id, refused⟩ := (Option.any_eq_true _ _).mp blocked
        exact free identity id (mem_blocked_iff.mp (of_decide_eq_true refused))
      have takes : publishing.takesDefault node group = true := by
        simp only [Publishing.takesDefault, unmatched, decide_true, Bool.true_and,
          Bool.and_eq_true, Bool.not_eq_true', decide_eq_true_eq]
        exact ⟨⟨unquarantined, unheld⟩, unblocked⟩
      exact Bool.noConfusion (takes.symm.trans follows)

end

end Updatedc
