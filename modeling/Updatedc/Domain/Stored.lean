import Updatedc.Domain.Movement
import Updatedc.Domain.Routing
import Updatedc.Rollout.Bodies

/-!
# What is published is stored

A pass may publish a body only if the state it leaves behind stores it, or the next pass could not
carry it forward. The planner stores what it assigns; restoring the pins of quarantined groups and
recording the repository default overwrite entries, but never with fewer bodies. So every
assignment a plan records resolves in the admitted state it records (`PlannedBy.resolves`), and a
node whose recorded assignment resolves is never carried forward onto nothing
(`planReconcile_no_unknownPlacement`).
-/

namespace Updatedc

open Contracts

variable [Crates]

/-! ## Pins and the default lineage -/

section
variable {held admitted : Admitted} {name : String} {identity : Sha256}

omit [Crates] in
private theorem restorePins_local :
    KeyedFold.Local
      (fun admitted entry => (pure
        (if entry.1 = defaultGroup then admitted else admitted.insert entry.1 entry.2) :
        Except Empty Admitted))
      (fun admitted name => admitted[name]?)
      (fun name state before after =>
        after = if name = defaultGroup then before else some state) where
  own {admitted name state next} ok := by
    cases ok
    split_ifs <;> simp
  frame {admitted name state next} ok other different := by
    cases ok
    split_ifs
    · rfl
    · rw [BTreeMap.getElem?_insert, if_neg different.symm]

omit [Crates] in
theorem getElem?_restorePins_of_pinned {state : AdmittedDeployment}
    (pinned : held[name]? = some state) :
    (restorePins held admitted)[name]? =
      if name = defaultGroup then admitted[name]? else some state :=
  KeyedFold.law_foldl_of_mem restorePins_local held.nodup_keys_toList
    (Std.ExtTreeMap.mem_toList_iff_getElem?_eq_some.mpr pinned)

omit [Crates] in
theorem getElem?_restorePins_of_unpinned (unpinned : held[name]? = none) :
    (restorePins held admitted)[name]? = admitted[name]? :=
  KeyedFold.view_foldl_of_not_mem restorePins_local (BTreeMap.not_mem_keys_toList unpinned)

/-- Restoring pins loses nothing when each pin has every body of the entry it replaces. -/
theorem resolves_restorePins
    (covers : ∀ (name : String) (pin state : AdmittedDeployment), held[name]? = some pin →
      admitted[name]? = some state → ∀ deployment ∈ state.bodies, deployment ∈ pin.bodies)
    (h : admitted.Resolves identity) : (restorePins held admitted).Resolves identity := by
  obtain ⟨name, state, deployment, entry, body, id⟩ := h
  cases pinned : held[name]? with
  | none =>
    exact ⟨name, state, deployment, (getElem?_restorePins_of_unpinned pinned).trans entry, body, id⟩
  | some pin =>
    by_cases reserved : name = defaultGroup
    · refine ⟨name, state, deployment, ?_, body, id⟩
      rw [getElem?_restorePins_of_pinned pinned, if_pos reserved, entry]
    · refine ⟨name, pin, deployment, ?_, covers name pin state pinned entry deployment body, id⟩
      rw [getElem?_restorePins_of_pinned pinned, if_neg reserved]

variable {default : DesiredDeployment} {defaultIdentity : Sha256}

variable (admitted default defaultIdentity) in
/-- The default's entry once the default is recorded. -/
theorem getElem?_recordDefault_default :
    ∃ state, (recordDefault default defaultIdentity admitted)[defaultGroup]? = some state ∧
      (state.current = default ∨ deploymentIdentity state.current = some defaultIdentity) ∧
      ∀ before, admitted[defaultGroup]? = some before →
        ∀ deployment ∈ before.bodies, deployment ∈ state.bodies := by
  unfold recordDefault
  cases entry : admitted[defaultGroup]? with
  | none =>
    dsimp only
    exact ⟨{ current := default }, by rw [BTreeMap.getElem?_insert, if_pos rfl], .inl rfl, nofun⟩
  | some state =>
    dsimp only
    by_cases current : deploymentIdentity state.current = some defaultIdentity
    · rw [if_pos current]
      refine ⟨state, entry, .inr current, fun before same => ?_⟩
      cases same
      exact fun _ body => body
    · rw [if_neg current]
      refine ⟨_, by rw [BTreeMap.getElem?_insert, if_pos rfl], .inl rfl, fun before same => ?_⟩
      cases same
      intro deployment body
      refine List.mem_cons_of_mem _ ?_
      dsimp only
      split_ifs with listed
      · rcases List.mem_cons.mp body with rfl | previous
        · exact List.contains_iff_mem.mp listed
        · exact previous
      · exact body

theorem getElem?_recordDefault_of_ne (other : name ≠ defaultGroup) :
    (recordDefault default defaultIdentity admitted)[name]? = admitted[name]? := by
  unfold recordDefault
  split
  · rw [BTreeMap.getElem?_insert, if_neg other.symm]
  · next state entry =>
    by_cases current : deploymentIdentity state.current = some defaultIdentity
    · rw [if_pos current]
    · rw [if_neg current]
      dsimp only
      rw [BTreeMap.getElem?_insert, if_neg other.symm]

theorem resolves_recordDefault (h : admitted.Resolves identity) :
    (recordDefault default defaultIdentity admitted).Resolves identity := by
  obtain ⟨name, state, deployment, entry, body, id⟩ := h
  by_cases reserved : name = defaultGroup
  · cases reserved
    obtain ⟨next, found, -, kept⟩ :=
      getElem?_recordDefault_default admitted default defaultIdentity
    exact ⟨defaultGroup, next, deployment, found, kept state entry deployment body, id⟩
  · exact ⟨name, state, deployment, (getElem?_recordDefault_of_ne reserved).trans entry, body, id⟩

end

/-! ## The pass -/

/-- The pins of a desired state are the durable entries of groups nobody plans. -/
structure Pinned (desired : DesiredState) (observed : ObservedState) : Prop where
  entry : ∀ (name : String) (state : AdmittedDeployment), desired.held[name]? = some state →
    observed.admitted[name]? = some state
  unplanned : ∀ (name : String) (state : AdmittedDeployment), desired.held[name]? = some state →
    desired.groups[name]? = none

section
variable {desired : DesiredState} {observed : ObservedState} {memory : Memory}
  {nodeGroups : BTreeMap String String} {default : DesiredDeployment} {identity : Sha256}

/-- What the planner stores, the pass stores. -/
theorem resolves_passPublishing (pinned : Pinned desired observed)
    (h : (rolloutOutcome desired observed memory nodeGroups default).admitted.Resolves
      identity) :
    (passPublishing desired observed memory nodeGroups default).admitted.Resolves identity := by
  have restored : (restorePins desired.held (rolloutOutcome desired observed memory nodeGroups
      default).admitted).Resolves identity := by
    refine resolves_restorePins (fun name pin state pin_entry entry deployment body => ?_) h
    -- A pinned group is not planned, so its entry is what retirement left of the pin.
    have unplanned : (rolloutInputs desired observed memory.verified nodeGroups
        default).groups[name]? = none := by
      by_contra planned
      obtain ⟨group, found⟩ := Option.ne_none_iff_exists'.mp planned
      obtain ⟨declared, -, -, declaredAt, -⟩ := getElem?_resolveGroupInputs found
      cases declaredAt.symm.trans (pinned.unplanned name pin pin_entry)
    rw [rolloutOutcome, getElem?_planRollouts_of_unplanned unplanned,
      getElem?_retireDeletedGroups, pinned.entry name pin pin_entry] at entry
    dsimp only [Option.bind_some] at entry
    split_ifs at entry
    · exact Option.some.inj entry ▸ body
    · split at entry
      · cases entry
      · next current previous live =>
        cases entry
        have kept : deployment ∈ current :: previous := body
        exact List.mem_of_mem_filter (live ▸ kept)
  change Admitted.Resolves (if _ then _ else _) identity
  split_ifs
  · exact restored
  · cases deploymentIdentity default with
    | none => exact restored
    | some id => exact resolves_recordDefault restored

omit [Crates] in
theorem mem_restorePins {held admitted : Admitted} {name : String}
    (entry : name ∈ admitted ∨ (name ∈ held ∧ name ≠ defaultGroup)) :
    name ∈ restorePins held admitted := by
  rw [Std.ExtTreeMap.mem_iff_isSome_getElem?]
  cases pinned : held[name]? with
  | none =>
    rw [getElem?_restorePins_of_unpinned pinned, ← Std.ExtTreeMap.mem_iff_isSome_getElem?]
    refine entry.resolve_right fun pin => ?_
    rw [Std.ExtTreeMap.mem_iff_isSome_getElem?, pinned] at pin
    exact Bool.noConfusion pin.1
  | some state =>
    rw [getElem?_restorePins_of_pinned pinned]
    split_ifs with reserved
    · rw [← Std.ExtTreeMap.mem_iff_isSome_getElem?]
      exact entry.resolve_right fun pin => pin.2 reserved
    · rfl

/-- Entries the planner keeps and pins of quarantined groups are entries when the pass ends. -/
theorem mem_passPublishing {name : String}
    (entry : name ∈ (rolloutOutcome desired observed memory nodeGroups default).admitted ∨
      (name ∈ desired.held ∧ name ≠ defaultGroup)) :
    name ∈ (passPublishing desired observed memory nodeGroups default).admitted := by
  have restored := mem_restorePins entry
  change name ∈ (if _ then _ else _)
  split_ifs
  · exact restored
  · cases deploymentIdentity default with
    | none => exact restored
    | some id =>
      change name ∈ recordDefault default id _
      rw [Std.ExtTreeMap.mem_iff_isSome_getElem?] at restored ⊢
      by_cases reserved : name = defaultGroup
      · obtain ⟨state, found, -⟩ := getElem?_recordDefault_default
          (restorePins desired.held
            (rolloutOutcome desired observed memory nodeGroups default).admitted) default id
        rw [reserved, found]
        rfl
      · rwa [getElem?_recordDefault_of_ne reserved]

/-- The default is stored when it may be handed out. -/
theorem resolves_default (id : deploymentIdentity default = some identity)
    (unblocked : (passPublishing desired observed memory nodeGroups default).defaultBlocked =
      false) :
    (passPublishing desired observed memory nodeGroups default).admitted.Resolves identity := by
  let pins := restorePins desired.held
    (rolloutOutcome desired observed memory nodeGroups default).admitted
  obtain ⟨state, found, current, -⟩ := getElem?_recordDefault_default pins default identity
  refine ⟨defaultGroup, state, state.current, ?_, List.mem_cons_self, ?_⟩
  · change (if (passPublishing desired observed memory nodeGroups default).defaultBlocked then pins
      else (deploymentIdentity default).elim pins fun id => recordDefault default id
        pins)[defaultGroup]? = _
    rw [unblocked, id]
    exact found
  · rcases current with same | known
    · rw [same, id]
    · exact known

/-- **What a plan records as published, it records the body of.** -/
theorem PlannedBy.resolves {plan : ReconcilePlan}
    {deployments : BTreeMap String DesiredDeployment} (pinned : Pinned desired observed)
    (planned : PlannedBy desired observed memory plan nodeGroups default deployments)
    {node : String} (assigned : plan.assignments[node]? = some identity) :
    plan.admitted.Resolves identity := by
  rw [planned.assignments] at assigned
  obtain ⟨deployment, found, id⟩ := Option.bind_eq_some_iff.mp assigned
  rw [planned.admitted]
  rcases planned.origin found with handed | ⟨rfl, unblocked⟩ | placed
  · obtain ⟨known, same, stored⟩ := resolves_of_assigned pinned.entry handed
    cases id.symm.trans same
    exact resolves_passPublishing pinned stored
  · exact resolves_default id unblocked
  · -- A body carried forward was looked up in the very state the plan records.
    obtain ⟨recorded, -, body⟩ := Option.bind_eq_some_iff.mp placed
    obtain ⟨state, stored, listed⟩ := mem_of_bodiesByIdentity body
    obtain ⟨name, entry⟩ := BTreeMap.mem_values_iff.mp stored
    exact ⟨name, state, deployment, entry, listed, id⟩

/-! ## Failures -/

/-- **How a pass fails**: for a reason that is no node's placement, because some node could not be
carried forward, or because a routed node would be dropped. -/
theorem planReconcile_error {error : PlanError}
    (failed : (planReconcile desired observed memory).1 = .error error) :
    error.isPlacement = false ∨ ∃ nodeGroups default,
      desired.route = .ok nodeGroups ∧
      DesiredDeployment.tryFrom desired.repository.defaultDeployment = .ok default ∧
      ((passPublishing desired observed memory nodeGroups default).publishNodes
          (rolloutOutcome desired observed memory nodeGroups default).plan.nodeDeployments =
            .error error ∨
        ∃ deployments routing,
          (passPublishing desired observed memory nodeGroups default).publishNodes
            (rolloutOutcome desired observed memory nodeGroups default).plan.nodeDeployments =
              .ok (deployments, routing) ∧
          (passPublishing desired observed memory nodeGroups default).dropped routing ≠ [] ∧
          error = .routingLoss
            ((passPublishing desired observed memory nodeGroups default).dropped routing)) := by
  unfold planReconcile at failed
  cases route : desired.route with
  | error reason =>
    rw [route] at failed
    cases failed
    exact .inl (noPlacementError_route desired _ route)
  | ok nodeGroups =>
    rw [route] at failed
    cases parsed : DesiredDeployment.tryFrom desired.repository.defaultDeployment with
    | error reason =>
      rw [parsed] at failed
      cases failed
      exact .inl rfl
    | ok default =>
      rw [parsed] at failed
      rcases Except.bind_error_iff.mp failed with loop | ⟨⟨deployments, routing⟩, published, rest⟩
      · exact .inr ⟨nodeGroups, default, rfl, rfl, .inl loop⟩
      · dsimp only at rest
        split_ifs at rest with dropped
        · cases rest
          exact .inr ⟨nodeGroups, default, rfl, rfl, .inr ⟨deployments, routing, published,
            dropped, rfl⟩⟩
        · rcases Except.bind_error_iff.mp rest with build | ⟨publication, -, impossible⟩
          · exact .inl (noPlacementError_buildPublicationPlan _ _ _ _ build)
          · cases impossible

/-- A node of the fleet whose recorded assignment resolves before the pass has a body in it. -/
theorem exists_placedDeployment (pinned : Pinned desired observed) {node group : String}
    (routed : nodeGroups[node]? = some group)
    (assigned : observed.assignments[node]? = some identity)
    (stored : observed.admitted.Resolves identity) :
    ∃ deployment, (passPublishing desired observed memory nodeGroups default).placedDeployment
      node = some deployment := by
  have fleet : node ∈ nodeGroups :=
    Std.ExtTreeMap.mem_iff_isSome_getElem?.mpr (Option.isSome_iff_exists.mpr ⟨group, routed⟩)
  have published : (rolloutInputs desired observed memory.verified nodeGroups
      default).published[node]? = some identity := assigned
  have placed : ((rolloutInputs desired observed memory.verified nodeGroups
      default).observations (memory.verified.verifyFleet observed.reports
        observed.publicKeys) observed.now).advanced node identity = true := by
    rw [advanced_observations]
    simp [RolloutInputs.isOn, published]
  have resolves : (passPublishing desired observed memory nodeGroups default).admitted.Resolves
      identity :=
    resolves_passPublishing pinned (resolves_planRollouts fleet placed stored)
  obtain ⟨deployment, found⟩ := resolves.body
  have recorded : (passPublishing desired observed memory nodeGroups
      default).observed.assignments[node]? = some identity := assigned
  exact ⟨deployment, by rw [Publishing.placedDeployment, recorded]; exact found⟩

/-- A node whose recorded assignment resolves is never carried forward onto nothing. -/
theorem planReconcile_no_unknownPlacement (pinned : Pinned desired observed)
    (recorded : ∀ (node last : String), observed.routing[node]? = some last →
      ∃ identity, observed.assignments[node]? = some identity)
    (stored : ∀ (node : String) (identity : Sha256),
      observed.assignments[node]? = some identity → observed.admitted.Resolves identity)
    (node group : String) :
    (planReconcile desired observed memory).1 ≠ .error (.unknownPlacement node group) := by
  intro failed
  rcases planReconcile_error failed with
    other | ⟨nodeGroups, default, -, -, loop | ⟨_, _, -, -, loss⟩⟩
  · cases other
  · obtain ⟨lost, selected, routed, carried⟩ := Publishing.publishNodes_error loop
    obtain ⟨last, before, missing, -⟩ := Publishing.carried_error carried
    obtain ⟨identity, assigned⟩ := recorded lost last before
    obtain ⟨deployment, found⟩ :=
      exists_placedDeployment pinned routed assigned (stored lost identity assigned)
    cases missing.symm.trans found
  · cases loss

end

end Updatedc
