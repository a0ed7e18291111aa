import Updatedc.Rollout.Plan

/-!
# The availability budget

A pass may disturb at most `maxUnavailable` nodes of a group, and a node that works only while the
nodes already down leave room for it. The statements here are about the whole of `planRollouts`
and speak of the fleet directly: what was last published for a node, and what its fresh authentic
report says.
-/

namespace Updatedc

open Contracts

variable [Crates]

/-! ## The fleet as a pass finds it -/

namespace RolloutInputs

variable (self : RolloutInputs) (now : DateTime)

/-- The planned nodes a group selects. -/
def members (name : String) : Finset String :=
  self.nodeGroups.keys.toFinset.filter (self.nodeGroups[·]? = some name)

/-- The node's fresh authentic report. -/
def report (node : String) : Option NodeReport :=
  freshReport self.reports self.publicKeys now.timestampMillis node

/-- Something was published for the node, or it reports acting on something. -/
def isPlaced (node : String) : Bool :=
  self.published[node]?.isSome || (self.report now node).isSome

/-- The node was last published this identity, or its fresh report names it. -/
def isOn (node : String) (identity : Sha256) : Bool :=
  self.published[node]? = some identity
    || (self.report now node).any (·.assignmentSha256 = .canonical identity)

/-- The node has a fresh authentic report, and it is healthy. -/
def isHealthy (node : String) : Bool :=
  (self.report now node).any (·.healthy)

/-- The plan moves the node: in rotation and placed, it is assigned something it is not on. -/
def isMoved (plan : RolloutPlan) (node : String) : Bool :=
  node ∉ self.holds && node ∉ self.cordons && self.isPlaced now node &&
    plan.nodeDeployments[node]?.any fun deployment =>
      !(deploymentIdentity deployment).any (self.isOn now node)

/-- The node is down as far as the budget is concerned: placed, in rotation, able to report, and
without a fresh healthy report. -/
def isLacking (node : String) : Bool :=
  self.isPlaced now node && node ∉ self.cordons && self.publicKeys.contains node &&
    !self.isHealthy now node

/-- The nodes of a group the plan moves. -/
def movedNodes (plan : RolloutPlan) (name : String) : Finset String :=
  (self.members name).filter fun node => self.isMoved now plan node

/-- The nodes of a group that are down. -/
def lackingNodes (name : String) : Finset String :=
  (self.members name).filter fun node => self.isLacking now node

end RolloutInputs

/-! ## What the two sweeps grant -/

section
variable (maxUnavailable unavailable : Nat) (blockedNow : Bool) (staged : List Staged)

omit [Crates] in
/-- The moves of one pass, rescues included, stay within the group's `maxUnavailable`. -/
theorem countP_grantMoves_le :
    (grantMoves maxUnavailable unavailable blockedNow staged).countP (·.2) ≤ maxUnavailable := by
  simp only [grantMoves, List.countP_append, Budget.spent, Budget.countP_grant]
  cases blockedNow <;> simp
  omega

omit [Crates] in
/-- How many broken nodes the budget moves. -/
theorem countP_grantMoves_broken :
    (grantMoves maxUnavailable unavailable blockedNow staged).countP
        (fun move => move.2 && move.1.evidence = .broken) =
      min (staged.countP (·.evidence = .broken)) (if blockedNow then 0 else maxUnavailable) := by
  unfold grantMoves
  rw [List.countP_append]
  refine (congrArg₂ (· + ·)
    (Budget.countP_grant_of_all (fun s : Staged => s.evidence = .broken) fun _ member =>
      (List.mem_filter.mp member).2)
    (Budget.countP_grant_of_none (fun s : Staged => s.evidence = .broken) fun _ member => by
      simpa using (List.mem_filter.mp member).2)).trans ?_
  rw [Budget.countP_grant, List.countP_eq_length_filter, Nat.sub_zero, Nat.add_zero]

omit [Crates] in
/-- How many of the others it moves: rescues take the shared counter first. -/
theorem countP_grantMoves_others :
    (grantMoves maxUnavailable unavailable blockedNow staged).countP
        (fun move => move.2 && move.1.evidence ≠ .broken) =
      min (staged.countP (·.evidence ≠ .broken))
        ((if blockedNow then 0 else maxUnavailable - unavailable) -
          min (staged.countP (·.evidence = .broken))
            (if blockedNow then 0 else maxUnavailable)) := by
  unfold grantMoves
  rw [List.countP_append]
  refine (congrArg₂ (· + ·)
    (Budget.countP_grant_of_none (fun s : Staged => s.evidence ≠ .broken) fun _ member => by
      simpa using (List.mem_filter.mp member).2)
    (Budget.countP_grant_of_all (fun s : Staged => s.evidence ≠ .broken) fun _ member =>
      (List.mem_filter.mp member).2)).trans ?_
  rw [Budget.countP_grant, Budget.spent, Budget.countP_grant, List.countP_eq_length_filter,
    List.countP_eq_length_filter, Nat.zero_add, Nat.zero_add, Nat.sub_zero]

omit [Crates] in
theorem countP_grantMoves_others_le :
    (grantMoves maxUnavailable unavailable blockedNow staged).countP
        (fun move => move.2 && move.1.evidence ≠ .broken) ≤ maxUnavailable - unavailable := by
  rw [countP_grantMoves_others]
  cases blockedNow <;> simp

end

/-! ## The planner's reading of the fleet -/

section
variable {inputs : RolloutInputs} {verified : VerifiedReports} {now : DateTime} {node : String}

theorem report_observations :
    (inputs.observations verified now).report node = inputs.report now node :=
  (inputs.observations verified now).report_eq_freshReport node

theorem advanced_observations (identity : Sha256) :
    (inputs.observations verified now).advanced node identity =
      inputs.isOn now node identity := by
  unfold Observations.advanced RolloutInputs.isOn
  rw [report_observations]
  rfl

theorem placement_observations_eq_none :
    (inputs.observations verified now).placement node = none ↔
      inputs.isPlaced now node = false := by
  unfold Observations.placement RolloutInputs.isPlaced
  rw [report_observations]
  have published : (inputs.observations verified now).published = inputs.published := rfl
  rw [published]
  cases inputs.published[node]? <;> simp

omit [Crates] in
theorem mem_members {name : String} :
    node ∈ inputs.members name ↔ inputs.nodeGroups[node]? = some name := by
  simp only [RolloutInputs.members, Finset.mem_filter, List.mem_toFinset,
    Std.ExtTreeMap.mem_keys, and_iff_right_iff_imp]
  intro routed
  exact Std.ExtTreeMap.mem_iff_isSome_getElem?.mpr (by simp [routed])

/-- A healthy report never reads as broken. -/
theorem evidence_ne_broken (healthy : inputs.isHealthy now node = true) (identity : DigestText) :
    (inputs.observations verified now).evidence node identity ≠ .broken := by
  unfold Observations.evidence
  rw [report_observations]
  obtain ⟨report, found, well⟩ := (Option.any_eq_true _ _).mp healthy
  rw [found]
  by_cases blind : (inputs.observations verified now).publicKeys.contains node <;>
    by_cases here : report.assignmentSha256 = identity <;> simp [blind, here, well]

/-- A node that can report and has no fresh healthy report is unavailable wherever it is. -/
theorem evidence_unavailable (keyed : inputs.publicKeys.contains node = true)
    (unhealthy : inputs.isHealthy now node = false) (identity : DigestText) :
    ((inputs.observations verified now).evidence node identity).unavailable = true := by
  unfold Observations.evidence
  rw [report_observations]
  have pinned : (inputs.observations verified now).publicKeys.contains node = true := keyed
  rw [pinned]
  unfold RolloutInputs.isHealthy at unhealthy
  cases found : inputs.report now node with
  | none => rfl
  | some report =>
    rw [found] at unhealthy
    have sick : report.healthy = false := unhealthy
    by_cases here : report.assignmentSha256 = identity <;> simp [here, sick] <;> rfl

/-- Whatever turn it takes, such a node is charged to its group's availability. -/
theorem charged_of_lacking {running : BTreeMap Sha256 DesiredDeployment} {movement : Movement}
    (lacking : inputs.isLacking now node = true) :
    (nodeTurn (inputs.observations verified now) running inputs.holds movement node).2 =
      true := by
  simp only [RolloutInputs.isLacking, Bool.and_eq_true, decide_eq_true_eq,
    Bool.not_eq_true'] at lacking
  obtain ⟨⟨⟨placed, inRotation⟩, keyed⟩, unhealthy⟩ := lacking
  have down : ∀ identity,
      ((inputs.observations verified now).evidence node identity).unavailable = true :=
    evidence_unavailable keyed unhealthy
  have somewhere : (inputs.observations verified now).placement node ≠ none := by
    rw [Ne, placement_observations_eq_none, placed]
    exact Bool.noConfusion
  have reason := nodeTurn_cases (inputs.observations verified now) running inputs.holds movement
    node
  generalize nodeTurn (inputs.observations verified now) running inputs.holds movement node
    = decided at reason ⊢
  cases reason with
  | held hold =>
    obtain ⟨identity, known⟩ := Option.ne_none_iff_exists'.mp somewhere
    have present : node ∉ (inputs.observations verified now).cordons := inRotation
    simp [present, known, down identity]
  | cordoned free cordon => exact absurd cordon inRotation
  | advanced | predecessor | elsewhere | firstDelivery => exact down _
  | refused free unplaced | waiting free unplaced => exact absurd unplaced somewhere

end

/-! ## One group's moves -/

section
variable {inputs : RolloutInputs} {verified : VerifiedReports} {now : DateTime}
  {running : BTreeMap Sha256 DesiredDeployment} {movement : Movement} {name node : String}

/-- A node with a fresh healthy report is never staged as a rescue. -/
theorem staged_ne_broken {evidence : NodeEvidence} {hold : Option DesiredDeployment}
    (healthy : inputs.isHealthy now node = true)
    (turn : (nodeTurn (inputs.observations verified now) running inputs.holds movement node).1 =
      .staged evidence hold) :
    evidence ≠ .broken := by
  have well : ∀ identity,
      (inputs.observations verified now).evidence node identity ≠ .broken :=
    evidence_ne_broken healthy
  have reason := nodeTurn_cases (inputs.observations verified now) running inputs.holds movement
    node
  generalize nodeTurn (inputs.observations verified now) running inputs.holds movement node
    = decided at reason turn
  cases reason with
  | predecessor identity deployment free listed there =>
    exact (Turn.staged.inj turn).1 ▸ well _
  | elsewhere identity free placed => exact (Turn.staged.inj turn).1 ▸ well _
  | waiting free unplaced => exact (Turn.staged.inj turn).1 ▸ nofun
  | held | cordoned | advanced | refused | firstDelivery => cases turn

/-- The nodes that are down are all charged. -/
theorem card_lacking_le_charged :
    (inputs.lackingNodes now name).card ≤
      (groupTurns (inputs.observations verified now) running inputs.holds movement name).countP
        (·.2.2) := by
  refine Budget.card_le_countP (·.1) _ fun node member => ?_
  obtain ⟨selected, lacking⟩ := Finset.mem_filter.mp member
  have listed : node ∈ (inputs.observations verified now).nodes name :=
    (inputs.observations verified now).mem_nodes.mpr (mem_members.mp selected)
  exact ⟨_, List.mem_map_of_mem listed, charged_of_lacking lacking, rfl⟩

/-- The moves a pass grants the staged nodes of a group. -/
def passMoves (inputs : RolloutInputs) (verified : VerifiedReports) (now : DateTime)
    (admitted : Admitted) (group : ResolvedGroup) (movement : Movement) (name : String) :
    List (Staged × Bool) :=
  groupMoves group.maxUnavailable movement.blockedNow
    (groupTurns (inputs.observations verified now)
      (bodiesByIdentity (admitted.values ++ inputs.held.values)) inputs.holds movement name)

variable {plan : RolloutPlan} {admitted : Admitted} {movementBlocks : Finset Sha256}
  {group : ResolvedGroup} {state : AdmittedDeployment}

variable (assignment : plan.nodeDeployments = assignNodes inputs.groups admitted inputs.held
    (inputs.observations verified now) inputs.holds movementBlocks)
  (planned : inputs.groups[name]? = some group) (entry : admitted[name]? = some state)
include assignment planned entry

/-- A moved node was granted its move, and it moves onto the admitted `current`. -/
theorem granted_of_mem_movedNodes (member : node ∈ inputs.movedNodes now plan name) :
    plan.nodeDeployments[node]? = some state.current ∧
      ∃ currentId, deploymentIdentity state.current = some currentId ∧
        ∃ evidence hold,
          (nodeTurn (inputs.observations verified now)
            (bodiesByIdentity (admitted.values ++ inputs.held.values)) inputs.holds
            (state.movement currentId movementBlocks) node).1 = .staged evidence hold ∧
          (⟨node, evidence, hold⟩, true) ∈ passMoves inputs verified now admitted group
            (state.movement currentId movementBlocks) name := by
  obtain ⟨selected, moved⟩ := Finset.mem_filter.mp member
  simp only [RolloutInputs.isMoved, Bool.and_eq_true, decide_eq_true_eq] at moved
  obtain ⟨⟨⟨-, inRotation⟩, placed⟩, elsewhere⟩ := moved
  obtain ⟨deployment, found, away⟩ := (Option.any_eq_true _ _).mp elsewhere
  rw [assignment] at found
  obtain ⟨own, ownGroup, ownState, currentId, routed, ownPlanned, ownEntry, id, assigned⟩ :=
    exists_assigned found
  -- A node has one group, so the assignment is this group's.
  obtain rfl : own = name := Option.some.inj (routed.symm.trans (mem_members.mp selected))
  obtain rfl : ownGroup = group := Option.some.inj (ownPlanned.symm.trans planned)
  obtain rfl : ownState = state := Option.some.inj (ownEntry.symm.trans entry)
  have somewhere : (inputs.observations verified now).placement node ≠ none := by
    rw [Ne, placement_observations_eq_none, placed]
    exact Bool.noConfusion
  have notThere : ∀ identity, deploymentIdentity deployment = some identity →
      (inputs.observations verified now).advanced node identity = false := by
    intro identity known
    rw [advanced_observations]
    simpa [known] using away
  obtain ⟨rfl, granted⟩ := assigned.granted_of_moved
    (fun _ _ => deploymentIdentity_of_bodiesByIdentity) id inRotation somewhere notThere
  exact ⟨assignment ▸ found, currentId, id, granted⟩

/-- At most `maxUnavailable` nodes are moved. -/
theorem card_movedNodes_le : (inputs.movedNodes now plan name).card ≤ group.maxUnavailable := by
  rcases (inputs.movedNodes now plan name).eq_empty_or_nonempty with none | ⟨first, member⟩
  · simp [none]
  · obtain ⟨-, currentId, id, -⟩ := granted_of_mem_movedNodes assignment planned entry member
    have moves : (inputs.movedNodes now plan name).card ≤
        (passMoves inputs verified now admitted group (state.movement currentId movementBlocks)
          name).countP (·.2) := by
      refine Budget.card_le_countP (·.1.node) _ fun node member => ?_
      obtain ⟨-, otherId, known, evidence, hold, -, move⟩ :=
        granted_of_mem_movedNodes assignment planned entry member
      obtain rfl : otherId = currentId := Option.some.inj (known.symm.trans id)
      exact ⟨_, move, rfl, rfl⟩
    exact moves.trans (countP_grantMoves_le _ _ _ _)

/-- The moved nodes that worked fit beside the nodes that are down. -/
theorem card_healthyMoved_le
    (someMoved : ((inputs.movedNodes now plan name).filter
      fun node => inputs.isHealthy now node).Nonempty) :
    ((inputs.movedNodes now plan name).filter fun node => inputs.isHealthy now node).card ≤
      group.maxUnavailable - (inputs.lackingNodes now name).card := by
  obtain ⟨first, member⟩ := someMoved
  obtain ⟨-, currentId, id, -⟩ :=
    granted_of_mem_movedNodes assignment planned entry (Finset.mem_filter.mp member).1
  have moves : ((inputs.movedNodes now plan name).filter
        fun node => inputs.isHealthy now node).card ≤
      (passMoves inputs verified now admitted group (state.movement currentId movementBlocks)
        name).countP fun move => move.2 && move.1.evidence ≠ .broken := by
    refine Budget.card_le_countP (·.1.node) _ fun node member => ?_
    obtain ⟨moved, healthy⟩ := Finset.mem_filter.mp member
    obtain ⟨-, otherId, known, evidence, hold, turn, move⟩ :=
      granted_of_mem_movedNodes assignment planned entry moved
    obtain rfl : otherId = currentId := Option.some.inj (known.symm.trans id)
    exact ⟨_, move, by simpa using staged_ne_broken healthy turn, rfl⟩
  calc _ ≤ _ := moves
    _ ≤ _ := countP_grantMoves_others_le _ _ _ _
    _ ≤ _ := Nat.sub_le_sub_left card_lacking_le_charged _

end

/-! ## The budget of a pass -/

/-- **The availability budget of one pass**: every node a pass moves moves onto its group's
admitted `current`; at most `maxUnavailable` of a group's nodes are moved; and together with the
nodes that are down, the moved nodes that worked stay within `maxUnavailable`, unless the nodes
that are down already exceed it, and then none of those that worked is moved. -/
theorem planRollouts_moves_within_budget (sets : List UpdateGroupSet) (inputs : RolloutInputs)
    (admitted : Admitted) (vetoed : BTreeMap Sha256 VetoedDeployment) (log : ObservationLog)
    (verified : VerifiedReports) (now : DateTime) (name : String) (group : ResolvedGroup)
    (state : AdmittedDeployment) (planned : inputs.groups[name]? = some group)
    (entry : (planRollouts sets inputs admitted vetoed log verified now).admitted[name]? =
      some state) :
    let plan := (planRollouts sets inputs admitted vetoed log verified now).plan
    let moved := inputs.movedNodes now plan name
    let lacking := inputs.lackingNodes now name
    (∀ node ∈ moved, plan.nodeDeployments[node]? = some state.current) ∧
      moved.card ≤ group.maxUnavailable ∧
      (moved.filter fun node => inputs.isHealthy now node).card + lacking.card ≤
        max group.maxUnavailable lacking.card := by
  intro plan moved lacking
  have assignment : plan.nodeDeployments = assignNodes inputs.groups
      (planRollouts sets inputs admitted vetoed log verified now).admitted inputs.held
      (inputs.observations verified now) inputs.holds plan.blocked := rfl
  refine ⟨fun node member => (granted_of_mem_movedNodes assignment planned entry member).1,
    card_movedNodes_le assignment planned entry, ?_⟩
  rcases (moved.filter fun node => inputs.isHealthy now node).eq_empty_or_nonempty with
    none | someMoved
  · rw [none, Finset.card_empty, Nat.zero_add]
    exact le_max_right _ _
  · have room : (moved.filter fun node => inputs.isHealthy now node).card ≤
        group.maxUnavailable - lacking.card :=
      card_healthyMoved_le assignment planned entry someMoved
    have positive := someMoved.card_pos
    omega

end Updatedc

namespace Updatedc.Sample

open Contracts

/-- Two healthy nodes on deployment `a`, whose group now asks for `b`. -/
def retarget : RolloutInputs where
  groups := table [("g",
    { name := "g", matchLabels := ∅, deployment := deployment "b" {}, maxUnavailable := 1 })]
  groupLabels := ∅
  nodeGroups := table [("m", "g"), ("n", "g")]
  reports := table [("m", envelope 109 97 0 1), ("n", envelope 110 97 0 1)]
  publicKeys := table [("m", ⟨[1]⟩), ("n", ⟨[2]⟩)]
  published := table [("m", 97), ("n", 97)]
  held := ∅
  holds := ∅
  cordons := ∅
  blockedDeployments := ∅
  defaultDeployment := deployment "a" {}

/-- What the group is admitted to when the retarget arrives. -/
def retargetAdmitted : Admitted := table [("g", { current := deployment "a" {} })]

/-- The retarget moves one of the two nodes. -/
theorem planRollouts_moves_within_budget_retarget :
    let plan := (planRollouts [] retarget retargetAdmitted ∅ {} .empty 1000000000).plan
    let moved := retarget.movedNodes 1000000000 plan "g"
    moved = {"m"} ∧ moved.card ≤ 1 ∧
      ∀ node ∈ moved, plan.nodeDeployments[node]? = some (deployment "b" {}) := by
  have budget := planRollouts_moves_within_budget [] retarget retargetAdmitted ∅ {} .empty
    1000000000 "g"
    { name := "g", matchLabels := ∅, deployment := deployment "b" {}, maxUnavailable := 1 }
    { current := deployment "b" {}, previous := [deployment "a" {}] }
    (by decide) (by decide +kernel)
  exact ⟨by decide +kernel, budget.2.1, budget.1⟩

end Updatedc.Sample
