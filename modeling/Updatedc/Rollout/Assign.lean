import Updatedc.Lib.Budget
import Updatedc.Rollout.Retention

/-!
# Assigning deployments to nodes (`updatec/src/rollout.rs:1996–2310`)

Every planned group with an admitted entry hands its nodes their deployments. Each node first
takes its own *turn*: it is left out, it is handed the admitted `current` at once, or it is staged
with the body to leave it on. The staged nodes then move within the group's `maxUnavailable`, the
broken ones first, on one shared counter (`Budget.grant`).

`TurnCase` says why a node gets the turn it gets; `Assigned` says how a node came by what it is
assigned.
-/

namespace Updatedc

open Contracts

variable [Crates]

/-! ## One node's turn -/

/-- A node whose move is decided by the budget: the evidence that classified it, and what to leave
it on if it gets no slot. -/
structure Staged where
  node : String
  evidence : NodeEvidence
  hold : Option DesiredDeployment

/-- What the walk over a group's nodes does with one of them. -/
inductive Turn where
  /-- Left out of the assignment. -/
  | leave
  /-- Handed the admitted `current` now. -/
  | current
  /-- Waits for the budget. -/
  | staged (evidence : NodeEvidence) (hold : Option DesiredDeployment)

/-- What the walk reads of the group: its `current` with its identity, the predecessors that have
one, and whether movement onto `current` is refused. -/
structure Movement where
  currentId : Sha256
  previous : List (Sha256 × DesiredDeployment)
  blockedNow : Bool

/-- The turn of one node, with whether it is charged to the group's availability. -/
def nodeTurn (observations : Observations) (running : BTreeMap Sha256 DesiredDeployment)
    (holds : Finset String) (movement : Movement) (node : String) : Turn × Bool :=
  if node ∈ holds then
    -- Never moved; still charged while it is in rotation and placed.
    (.leave, decide (node ∉ observations.cordons) &&
      (observations.placement node).any fun identity =>
        (observations.evidence node identity).unavailable)
  else if node ∈ observations.cordons ∧ !movement.blockedNow then (.current, false)
  else if observations.advanced node movement.currentId then
    (.current, (observations.evidence node (.canonical movement.currentId)).unavailable)
  else
    match movement.previous.find? fun (identity, _) => observations.advanced node identity with
    | some (identity, deployment) =>
      let evidence := observations.evidence node (.canonical identity)
      (.staged evidence (some deployment), evidence.unavailable)
    | none =>
      match observations.placement node with
      | some identity =>
        let evidence := observations.evidence node identity
        (.staged evidence (identity.digest?.bind (running[·]?)), evidence.unavailable)
      | none =>
        if movement.previous.isEmpty then
          -- First delivery, unless the deployment is halted.
          if movement.blockedNow then (.leave, false)
          else (.current,
            (observations.evidence node (.canonical movement.currentId)).unavailable)
        else (.staged .silent none, false)

/-! ## One group, all groups -/

/-- The nodes whose turn is a given one. -/
def stagedNodes (turns : List (String × Turn × Bool)) : List Staged :=
  turns.filterMap fun (node, turn, _) =>
    match turn with
    | .staged evidence hold => some { node, evidence, hold }
    | _ => none

def immediateNodes (turns : List (String × Turn × Bool)) : List String :=
  turns.filterMap fun (node, turn, _) =>
    match turn with
    | .current => some node
    | _ => none

/-- The two sweeps over the staged nodes, rescues first, on one counter of moves. A halted
deployment admits nobody, so its budgets are empty. -/
def grantMoves (maxUnavailable unavailable : Nat) (blockedNow : Bool) (staged : List Staged) :
    List (Staged × Bool) :=
  let capacity := if blockedNow then 0 else maxUnavailable - unavailable
  let rescueBudget := if blockedNow then 0 else maxUnavailable
  let rescues := staged.filter (·.evidence = .broken)
  let others := staged.filter (·.evidence ≠ .broken)
  Budget.grant rescueBudget 0 rescues
    ++ Budget.grant capacity (Budget.spent rescueBudget 0 rescues) others

/-- What the walk over the nodes of an entry with this `current` reads. -/
def AdmittedDeployment.movement (state : AdmittedDeployment) (currentId : Sha256)
    (movementBlocks : Finset Sha256) : Movement :=
  { currentId
    previous := state.previous.filterMap fun deployment =>
      (deploymentIdentity deployment).map (·, deployment)
    blockedNow := decide (currentId ∈ movementBlocks) }

/-- The walk over a group's nodes. -/
def groupTurns (observations : Observations) (running : BTreeMap Sha256 DesiredDeployment)
    (holds : Finset String) (movement : Movement) (name : String) :
    List (String × Turn × Bool) :=
  (observations.nodes name).map fun node =>
    (node, nodeTurn observations running holds movement node)

/-- Which staged nodes the group's budget moves. -/
def groupMoves (maxUnavailable : Nat) (blockedNow : Bool) (turns : List (String × Turn × Bool)) :
    List (Staged × Bool) :=
  grantMoves maxUnavailable (turns.countP (·.2.2)) blockedNow (stagedNodes turns)

/-- The assignments of one group's nodes. -/
def assignGroup (group : ResolvedGroup) (state : AdmittedDeployment)
    (running : BTreeMap Sha256 DesiredDeployment) (observations : Observations)
    (holds : Finset String) (movementBlocks : Finset Sha256) (name : String) :
    List (String × DesiredDeployment) :=
  match deploymentIdentity state.current with
  -- A `current` that cannot be encoded publishes nothing.
  | none => []
  | some currentId =>
    let movement := state.movement currentId movementBlocks
    let turns := groupTurns observations running holds movement name
    (immediateNodes turns).map (·, state.current) ++
      (groupMoves group.maxUnavailable movement.blockedNow turns).filterMap
        fun (staged, granted) =>
          (if granted then some state.current else staged.hold).map (staged.node, ·)

def assignNodes (groups : BTreeMap String ResolvedGroup) (admitted held : Admitted)
    (observations : Observations) (holds : Finset String) (movementBlocks : Finset Sha256) :
    BTreeMap String DesiredDeployment :=
  let running := bodiesByIdentity (admitted.values ++ held.values)
  .ofList (groups.toList.flatMap fun (name, group) =>
    match admitted[name]? with
    | none => []
    | some state => assignGroup group state running observations holds movementBlocks name)

/-! ## Why a node gets the turn it gets -/

variable {maxUnavailable : Nat} {blockedNow : Bool}

section
variable {observations : Observations} {running : BTreeMap Sha256 DesiredDeployment}
  {holds : Finset String} {movement : Movement} {node : String}

/-- A node is where it was placed. -/
theorem Observations.advanced_of_placement {identity : Sha256}
    (placed : observations.placement node = some (.canonical identity)) :
    observations.advanced node identity = true := by
  unfold placement at placed
  unfold advanced
  split at placed
  · next published same =>
    cases placed
    simp [same]
  · obtain ⟨report, found, same⟩ := Option.map_eq_some_iff.mp placed
    simp [found, same]

/-- What the walk read before it gave a node its turn; one constructor for each way through. -/
inductive TurnCase (observations : Observations) (running : BTreeMap Sha256 DesiredDeployment)
    (holds : Finset String) (movement : Movement) (node : String) : Turn × Bool → Prop
  | held (hold : node ∈ holds) :
    TurnCase observations running holds movement node
      (.leave, decide (node ∉ observations.cordons) &&
        (observations.placement node).any fun identity =>
          (observations.evidence node identity).unavailable)
  | cordoned (free : node ∉ holds) (cordon : node ∈ observations.cordons)
      (open_ : movement.blockedNow = false) :
    TurnCase observations running holds movement node (.current, false)
  | advanced (free : node ∉ holds)
      (there : observations.advanced node movement.currentId = true) :
    TurnCase observations running holds movement node
      (.current, (observations.evidence node (.canonical movement.currentId)).unavailable)
  | predecessor (identity : Sha256) (deployment : DesiredDeployment) (free : node ∉ holds)
      (listed : (identity, deployment) ∈ movement.previous)
      (there : observations.advanced node identity = true) :
    TurnCase observations running holds movement node
      (.staged (observations.evidence node (.canonical identity)) (some deployment),
        (observations.evidence node (.canonical identity)).unavailable)
  | elsewhere (identity : DigestText) (free : node ∉ holds)
      (placed : observations.placement node = some identity) :
    TurnCase observations running holds movement node
      (.staged (observations.evidence node identity) (identity.digest?.bind (running[·]?)),
        (observations.evidence node identity).unavailable)
  | refused (free : node ∉ holds) (unplaced : observations.placement node = none) :
    TurnCase observations running holds movement node (.leave, false)
  | firstDelivery (free : node ∉ holds) (unplaced : observations.placement node = none)
      (open_ : movement.blockedNow = false) :
    TurnCase observations running holds movement node
      (.current, (observations.evidence node (.canonical movement.currentId)).unavailable)
  | waiting (free : node ∉ holds) (unplaced : observations.placement node = none) :
    TurnCase observations running holds movement node (.staged .silent none, false)

variable (observations running holds movement node) in
theorem nodeTurn_cases :
    TurnCase observations running holds movement node
      (nodeTurn observations running holds movement node) := by
  unfold nodeTurn
  by_cases hold : node ∈ holds
  · rw [if_pos hold]
    exact .held hold
  rw [if_neg hold]
  by_cases cordon : node ∈ observations.cordons ∧ !movement.blockedNow
  · rw [if_pos cordon]
    exact .cordoned hold cordon.1 (by simpa using cordon.2)
  rw [if_neg cordon]
  by_cases there : observations.advanced node movement.currentId = true
  · rw [if_pos there]
    exact .advanced hold there
  rw [if_neg there]
  split
  · next identity deployment found =>
    exact .predecessor identity deployment hold (List.mem_of_find?_eq_some found)
      (by simpa using List.find?_some found)
  · split
    · next identity placed => exact .elsewhere identity hold placed
    · next unplaced =>
      split_ifs with settled blocked
      · exact .refused hold unplaced
      · exact .firstDelivery hold unplaced (by simpa using blocked)
      · exact .waiting hold unplaced

/-- A node that is already on `current` is handed it again, unless it is held. -/
theorem nodeTurn_of_advanced (free : node ∉ holds)
    (there : observations.advanced node movement.currentId = true) :
    (nodeTurn observations running holds movement node).1 = .current := by
  unfold nodeTurn
  rw [if_neg free]
  split_ifs <;> rfl

/-- A node is handed `current` at once only out of rotation, on arrival, or where it already is. -/
theorem current_cases
    (turn : (nodeTurn observations running holds movement node).1 = .current) :
    node ∈ observations.cordons ∧ movement.blockedNow = false ∨
      observations.advanced node movement.currentId = true ∨
      observations.placement node = none ∧ movement.blockedNow = false := by
  have reason := nodeTurn_cases observations running holds movement node
  generalize nodeTurn observations running holds movement node = decided at reason turn
  cases reason with
  | cordoned free cordon unblocked => exact .inl ⟨cordon, unblocked⟩
  | advanced free there => exact .inr (.inl there)
  | firstDelivery free unplaced unblocked => exact .inr (.inr ⟨unplaced, unblocked⟩)
  | held | predecessor | elsewhere | refused | waiting => cases turn

theorem mem_immediateNodes {name : String} :
    node ∈ immediateNodes (groupTurns observations running holds movement name) ↔
      node ∈ observations.nodes name ∧
        (nodeTurn observations running holds movement node).1 = .current := by
  simp only [immediateNodes, groupTurns, List.mem_filterMap, List.mem_map]
  constructor
  · rintro ⟨_, ⟨member, listed, rfl⟩, found⟩
    split at found
    · next turn => cases found; exact ⟨listed, turn⟩
    · cases found
  · rintro ⟨listed, turn⟩
    exact ⟨_, ⟨node, listed, rfl⟩, by simp [turn]⟩

variable {staged : Staged} {stagedList : List Staged}

theorem mem_stagedNodes {name : String} :
    staged ∈ stagedNodes (groupTurns observations running holds movement name) ↔
      staged.node ∈ observations.nodes name ∧
        (nodeTurn observations running holds movement staged.node).1 =
          .staged staged.evidence staged.hold := by
  simp only [stagedNodes, groupTurns, List.mem_filterMap, List.mem_map]
  constructor
  · rintro ⟨_, ⟨member, listed, rfl⟩, found⟩
    split at found
    · next evidence hold turn => cases found; exact ⟨listed, turn⟩
    · cases found
  · rintro ⟨listed, turn⟩
    exact ⟨_, ⟨staged.node, listed, rfl⟩, by simp [turn]⟩

omit [Crates] in
/-- Every staged node is answered, and nobody else is. -/
theorem mem_of_mem_grantMoves {unavailable : Nat} {granted : Bool} (member : (staged, granted) ∈
      grantMoves maxUnavailable unavailable blockedNow stagedList) : staged ∈ stagedList := by
  rcases List.mem_append.mp member with rescue | other
  · exact List.mem_of_mem_filter (Budget.mem_of_mem_grant rescue)
  · exact List.mem_of_mem_filter (Budget.mem_of_mem_grant other)

omit [Crates] in
theorem exists_mem_grantMoves {unavailable : Nat} (member : staged ∈ stagedList) :
    ∃ granted, (staged, granted) ∈
      grantMoves maxUnavailable unavailable blockedNow stagedList := by
  unfold grantMoves
  by_cases broken : staged.evidence = .broken
  · have rescue : staged ∈ stagedList.filter (·.evidence = .broken) :=
      List.mem_filter.mpr ⟨member, decide_eq_true broken⟩
    obtain ⟨granted, found⟩ := Budget.exists_mem_grant rescue
    exact ⟨granted, List.mem_append_left _ found⟩
  · have other : staged ∈ stagedList.filter (·.evidence ≠ .broken) :=
      List.mem_filter.mpr ⟨member, decide_eq_true broken⟩
    obtain ⟨granted, found⟩ := Budget.exists_mem_grant other
    exact ⟨granted, List.mem_append_right _ found⟩

omit [Crates] in
/-- A halted deployment admits nobody. -/
theorem not_granted_of_blocked {unavailable : Nat} {granted : Bool}
    (member : (staged, granted) ∈ grantMoves maxUnavailable unavailable true stagedList) :
    granted = false := by
  rcases List.mem_append.mp member with rescue | other
  · exact Budget.not_granted_of_le (Nat.zero_le _) rescue
  · exact Budget.not_granted_of_le (Nat.zero_le _) other

end

/-! ## The entries of an assignment -/

section
variable {group : ResolvedGroup} {state : AdmittedDeployment}
  {running : BTreeMap Sha256 DesiredDeployment} {observations : Observations}
  {holds : Finset String} {movementBlocks : Finset Sha256} {name node : String}
  {deployment : DesiredDeployment} {currentId : Sha256}

/-- How a node came by the deployment its group assigns it. -/
inductive Assigned (group : ResolvedGroup) (state : AdmittedDeployment)
    (observations : Observations) (running : BTreeMap Sha256 DesiredDeployment)
    (holds : Finset String) (movement : Movement) (name node : String) :
    DesiredDeployment → Prop
  /-- Its turn handed it `current` at once. -/
  | immediate
      (turn : (nodeTurn observations running holds movement node).1 = .current) :
    Assigned group state observations running holds movement name node state.current
  /-- The budget moved it. -/
  | granted (evidence : NodeEvidence) (hold : Option DesiredDeployment)
      (turn : (nodeTurn observations running holds movement node).1 = .staged evidence hold)
      (move : (⟨node, evidence, hold⟩, true) ∈ groupMoves group.maxUnavailable
        movement.blockedNow (groupTurns observations running holds movement name)) :
    Assigned group state observations running holds movement name node state.current
  /-- It stays where it is. -/
  | left (evidence : NodeEvidence) (deployment : DesiredDeployment)
      (turn : (nodeTurn observations running holds movement node).1 =
        .staged evidence (some deployment)) :
    Assigned group state observations running holds movement name node deployment

theorem assigned_of_mem_assignGroup (id : deploymentIdentity state.current = some currentId)
    (member : (node, deployment) ∈
      assignGroup group state running observations holds movementBlocks name) :
    node ∈ observations.nodes name ∧
      Assigned group state observations running holds (state.movement currentId movementBlocks)
        name node deployment := by
  unfold assignGroup at member
  rw [id] at member
  rcases List.mem_append.mp member with immediate | moved
  · obtain ⟨member, listed, pair⟩ := List.mem_map.mp immediate
    cases pair
    obtain ⟨known, turn⟩ := mem_immediateNodes.mp listed
    exact ⟨known, .immediate turn⟩
  · obtain ⟨⟨staged, granted⟩, move, found⟩ := List.mem_filterMap.mp moved
    obtain ⟨body, chosen, pair⟩ := Option.map_eq_some_iff.mp found
    cases pair
    obtain ⟨known, turn⟩ := mem_stagedNodes.mp (mem_of_mem_grantMoves move)
    refine ⟨known, ?_⟩
    cases granted with
    | true =>
      cases chosen
      exact .granted staged.evidence staged.hold turn move
    | false =>
      have kept : staged.hold = some deployment := chosen
      exact .left staged.evidence deployment (kept ▸ turn)

theorem mem_assignGroup_of_current (id : deploymentIdentity state.current = some currentId)
    (listed : node ∈ observations.nodes name)
    (turn : (nodeTurn observations running holds (state.movement currentId movementBlocks)
      node).1 = .current) :
    (node, state.current) ∈
      assignGroup group state running observations holds movementBlocks name := by
  unfold assignGroup
  rw [id]
  exact List.mem_append_left _
    (List.mem_map_of_mem (mem_immediateNodes.mpr ⟨listed, turn⟩))

/-- A staged node that can be left where it is gets an assignment either way. -/
theorem exists_mem_assignGroup_of_staged (id : deploymentIdentity state.current = some currentId)
    (listed : node ∈ observations.nodes name) {evidence : NodeEvidence}
    (turn : (nodeTurn observations running holds (state.movement currentId movementBlocks)
      node).1 = .staged evidence (some deployment)) :
    ∃ assigned, (node, assigned) ∈
      assignGroup group state running observations holds movementBlocks name := by
  have member : ⟨node, evidence, some deployment⟩ ∈ stagedNodes (groupTurns observations running
      holds (state.movement currentId movementBlocks) name) :=
    mem_stagedNodes.mpr ⟨listed, turn⟩
  obtain ⟨granted, move⟩ := exists_mem_grantMoves member
  refine ⟨if granted then state.current else deployment, ?_⟩
  unfold assignGroup
  rw [id]
  refine List.mem_append_right _ (List.mem_filterMap.mpr ⟨_, move, ?_⟩)
  cases granted <;> rfl

/-- Nothing is assigned from a `current` that cannot be encoded. -/
theorem deploymentIdentity_of_mem_assignGroup
    (member : (node, deployment) ∈
      assignGroup group state running observations holds movementBlocks name) :
    ∃ identity, deploymentIdentity state.current = some identity := by
  unfold assignGroup at member
  cases id : deploymentIdentity state.current with
  | none => simp [id] at member
  | some identity => exact ⟨identity, rfl⟩

/-- A node that is left where it is was there already, on one of its own group's predecessors or
on a body some entry runs. -/
theorem left_cases {evidence : NodeEvidence}
    (turn : (nodeTurn observations running holds (state.movement currentId movementBlocks)
      node).1 = .staged evidence (some deployment)) :
    ∃ identity, observations.advanced node identity = true ∧
      ((deployment ∈ state.previous ∧ deploymentIdentity deployment = some identity) ∨
        running[identity]? = some deployment) := by
  have reason := nodeTurn_cases observations running holds
    (state.movement currentId movementBlocks) node
  generalize nodeTurn observations running holds (state.movement currentId movementBlocks) node
    = decided at reason turn
  cases reason with
  | predecessor identity body free listed there =>
    cases turn
    obtain ⟨stored, member, found⟩ := List.mem_filterMap.mp listed
    obtain ⟨id, known, pair⟩ := Option.map_eq_some_iff.mp found
    cases pair
    exact ⟨identity, there, .inl ⟨member, known⟩⟩
  | elsewhere identity free placed =>
    obtain ⟨-, kept⟩ := Turn.staged.inj turn
    obtain ⟨digest, canonical, found⟩ := Option.bind_eq_some_iff.mp kept
    refine ⟨digest, ?_, .inr found⟩
    cases identity with
    | canonical known =>
      cases canonical
      exact Observations.advanced_of_placement placed
    | other text malformed => cases canonical
  | held | cordoned | advanced | refused | firstDelivery | waiting => cases turn

theorem advanced_of_left {evidence : NodeEvidence}
    (indexed : ∀ (identity : Sha256) (body : DesiredDeployment),
      running[identity]? = some body → deploymentIdentity body = some identity)
    (turn : (nodeTurn observations running holds (state.movement currentId movementBlocks)
      node).1 = .staged evidence (some deployment)) :
    ∃ identity, deploymentIdentity deployment = some identity ∧
      observations.advanced node identity = true := by
  obtain ⟨identity, there, ⟨-, known⟩ | found⟩ := left_cases turn
  · exact ⟨identity, known, there⟩
  · exact ⟨identity, indexed identity deployment found, there⟩

/-- **Every assignment is a permitted move or no move**: the admitted `current`, onto which
movement is not blocked, or something the node was already handed or reports acting on. -/
theorem Assigned.permitted
    (indexed : ∀ (identity : Sha256) (body : DesiredDeployment),
      running[identity]? = some body → deploymentIdentity body = some identity)
    (id : deploymentIdentity state.current = some currentId)
    (assigned : Assigned group state observations running holds
      (state.movement currentId movementBlocks) name node deployment) :
    ∃ identity, deploymentIdentity deployment = some identity ∧
      ((identity = currentId ∧ currentId ∉ movementBlocks) ∨
        observations.advanced node identity = true) := by
  cases assigned with
  | immediate turn =>
    refine ⟨currentId, id, ?_⟩
    rcases current_cases turn with ⟨-, unblocked⟩ | there | ⟨-, unblocked⟩
    · exact .inl ⟨rfl, of_decide_eq_false unblocked⟩
    · exact .inr there
    · exact .inl ⟨rfl, of_decide_eq_false unblocked⟩
  | granted evidence hold turn move =>
    refine ⟨currentId, id, .inl ⟨rfl, fun blocked => ?_⟩⟩
    have blockedNow : (state.movement currentId movementBlocks).blockedNow = true :=
      decide_eq_true blocked
    rw [blockedNow] at move
    exact Bool.noConfusion (not_granted_of_blocked move)
  | left evidence _ turn =>
    obtain ⟨identity, known, there⟩ := advanced_of_left indexed turn
    exact ⟨identity, known, .inr there⟩

/-- A node in rotation that ends up somewhere it was not before was moved by the budget. -/
theorem Assigned.granted_of_moved
    (indexed : ∀ (identity : Sha256) (body : DesiredDeployment),
      running[identity]? = some body → deploymentIdentity body = some identity)
    (id : deploymentIdentity state.current = some currentId)
    (inRotation : node ∉ observations.cordons) (placed : observations.placement node ≠ none)
    (moved : ∀ identity, deploymentIdentity deployment = some identity →
      observations.advanced node identity = false)
    (assigned : Assigned group state observations running holds
      (state.movement currentId movementBlocks) name node deployment) :
    deployment = state.current ∧ ∃ evidence hold,
      (nodeTurn observations running holds (state.movement currentId movementBlocks) node).1 =
        .staged evidence hold ∧
      (⟨node, evidence, hold⟩, true) ∈ groupMoves group.maxUnavailable
        (state.movement currentId movementBlocks).blockedNow
        (groupTurns observations running holds (state.movement currentId movementBlocks)
          name) := by
  cases assigned with
  | immediate turn =>
    rcases current_cases turn with ⟨cordon, -⟩ | there | ⟨unplaced, -⟩
    · exact absurd cordon inRotation
    · exact Bool.noConfusion (there.symm.trans (moved currentId id))
    · exact absurd unplaced placed
  | granted evidence hold turn move => exact ⟨rfl, evidence, hold, turn, move⟩
  | left evidence _ turn =>
    obtain ⟨identity, known, there⟩ := advanced_of_left indexed turn
    exact Bool.noConfusion (there.symm.trans (moved identity known))

end

/-! ## Everyone is assigned once -/

omit [Crates] in
private theorem sublist_map_filterMap {α β γ : Type*} {f : α → Option β} {g : β → γ} {h : α → γ}
    (same : ∀ x y, f x = some y → g y = h x) (items : List α) :
    ((items.filterMap f).map g).Sublist (items.map h) := by
  induction items with
  | nil => exact .slnil
  | cons x rest ih =>
    cases found : f x with
    | none => simpa [found] using ih.cons _
    | some y => simpa [found, same x y found] using ih.cons_cons (h x)

omit [Crates] in
theorem nodup_filterMap_keys (nodeGroups : BTreeMap String String) (group : String) :
    (nodeGroups.toList.filterMap fun (node, selected) =>
      if selected = group then some node else none).Nodup := by
  have keys := BTreeMap.nodup_keys_toList nodeGroups
  have shape : (nodeGroups.toList.filterMap fun (node, selected) =>
      if selected = group then some node else none) =
        (nodeGroups.toList.filter (·.2 = group)).map Prod.fst := by
    induction nodeGroups.toList with
    | nil => rfl
    | cons entry rest ih =>
      by_cases here : entry.2 = group <;> simp [here, ih]
  rw [shape]
  exact keys.sublist (List.filter_sublist.map _)

section
variable {group : ResolvedGroup} {state : AdmittedDeployment}
  {running : BTreeMap Sha256 DesiredDeployment} {observations : Observations}
  {holds : Finset String} {movementBlocks : Finset Sha256} {movement : Movement}
  {name node : String} {deployment : DesiredDeployment} {currentId : Sha256}

theorem map_fst_groupTurns :
    (groupTurns observations running holds movement name).map Prod.fst =
      observations.nodes name := by
  simp [groupTurns, Function.comp_def]

theorem nodup_immediateNodes :
    (immediateNodes (groupTurns observations running holds movement name)).Nodup := by
  have sub : ((immediateNodes (groupTurns observations running holds movement name)).map id).Sublist
      ((groupTurns observations running holds movement name).map Prod.fst) := by
    refine sublist_map_filterMap ?_ _
    rintro ⟨node, turn, charged⟩ y found
    cases turn <;> cases found
    rfl
  rw [List.map_id, map_fst_groupTurns] at sub
  exact (nodup_filterMap_keys _ _).sublist sub

theorem nodup_stagedNodes :
    ((stagedNodes (groupTurns observations running holds movement name)).map
      Staged.node).Nodup := by
  have sub : ((stagedNodes (groupTurns observations running holds movement name)).map
      Staged.node).Sublist
        ((groupTurns observations running holds movement name).map Prod.fst) := by
    refine sublist_map_filterMap ?_ _
    rintro ⟨node, turn, charged⟩ y found
    cases turn <;> cases found
    rfl
  rw [map_fst_groupTurns] at sub
  exact (nodup_filterMap_keys _ _).sublist sub

omit [Crates] in
/-- The budget answers every staged node once. -/
theorem map_fst_grantMoves_perm (maxUnavailable unavailable : Nat) (blockedNow : Bool)
    (staged : List Staged) :
    ((grantMoves maxUnavailable unavailable blockedNow staged).map Prod.fst).Perm staged := by
  unfold grantMoves
  rw [List.map_append, Budget.map_fst_grant, Budget.map_fst_grant]
  have split := List.filter_append_perm (fun entry : Staged => decide (entry.evidence = .broken))
    staged
  simpa using split

theorem nodup_groupMoves :
    ((groupMoves maxUnavailable blockedNow (groupTurns observations running holds movement
      name)).map (·.1.node)).Nodup := by
  have perm := (map_fst_grantMoves_perm maxUnavailable ((groupTurns observations running holds
    movement name).countP (·.2.2)) blockedNow (stagedNodes (groupTurns observations running holds
    movement name))).map Staged.node
  rw [List.map_map] at perm
  exact perm.nodup_iff.mpr nodup_stagedNodes

/-- **A group assigns each of its nodes at most once.** -/
theorem nodup_assignGroup :
    ((assignGroup group state running observations holds movementBlocks name).map
      Prod.fst).Nodup := by
  unfold assignGroup
  cases id : deploymentIdentity state.current with
  | none => exact List.nodup_nil
  | some currentId =>
    let movement := state.movement currentId movementBlocks
    let turns := groupTurns observations running holds movement name
    let moves := groupMoves group.maxUnavailable movement.blockedNow turns
    have moved : ((moves.filterMap fun move =>
        (if move.2 then some state.current else move.1.hold).map (move.1.node, ·)).map
          Prod.fst).Sublist (moves.map (·.1.node)) := by
      refine sublist_map_filterMap (fun entry pair found => ?_) moves
      obtain ⟨body, -, rfl⟩ := Option.map_eq_some_iff.mp found
      rfl
    rw [List.map_append, List.nodup_append]
    refine ⟨?_, nodup_groupMoves.sublist moved, ?_⟩
    · simpa [Function.comp_def] using
        (nodup_immediateNodes : (immediateNodes turns).Nodup)
    · -- A node handed `current` at once is not staged.
      rintro node immediate other listed rfl
      have handed : node ∈ immediateNodes turns := by
        simpa [Function.comp_def] using immediate
      obtain ⟨move, member, same⟩ := List.mem_map.mp (moved.subset listed)
      have turn := (mem_immediateNodes.mp handed).2
      have staged := (mem_stagedNodes.mp (mem_of_mem_grantMoves member)).2
      rw [same] at staged
      cases turn.symm.trans staged

end

/-! ## The whole assignment -/

section
variable {groups : BTreeMap String ResolvedGroup} {admitted held : Admitted}
  {observations : Observations} {holds : Finset String} {movementBlocks : Finset Sha256}
  {node : String} {deployment : DesiredDeployment}

/-- Every assignment comes from the node's own group. -/
theorem exists_assigned
    (found : (assignNodes groups admitted held observations holds movementBlocks)[node]? =
      some deployment) :
    ∃ (name : String) (group : ResolvedGroup) (state : AdmittedDeployment) (currentId : Sha256),
      observations.nodeGroups[node]? = some name ∧ groups[name]? = some group ∧
      admitted[name]? = some state ∧ deploymentIdentity state.current = some currentId ∧
      Assigned group state observations (bodiesByIdentity (admitted.values ++ held.values)) holds
        (state.movement currentId movementBlocks) name node deployment := by
  have member := BTreeMap.mem_of_getElem?_ofList found
  obtain ⟨⟨name, group⟩, planned, listed⟩ := List.mem_flatMap.mp member
  rw [Std.ExtTreeMap.mem_toList_iff_getElem?_eq_some] at planned
  cases entry : admitted[name]? with
  | none => simp [entry] at listed
  | some state =>
    simp only [entry] at listed
    obtain ⟨currentId, id⟩ := deploymentIdentity_of_mem_assignGroup listed
    obtain ⟨known, assigned⟩ := assigned_of_mem_assignGroup id listed
    exact ⟨name, group, state, currentId, (observations.mem_nodes).mp known, planned, entry, id,
      assigned⟩

section
variable {name : String} {group : ResolvedGroup} {state : AdmittedDeployment} {currentId : Sha256}
  (planned : groups[name]? = some group) (entry : admitted[name]? = some state)
include planned entry

/-- What its group lists for a node is what the node is assigned. -/
theorem getElem?_assignNodes_of_mem
    (member : (node, deployment) ∈ assignGroup group state
      (bodiesByIdentity (admitted.values ++ held.values)) observations holds movementBlocks
      name) :
    (assignNodes groups admitted held observations holds movementBlocks)[node]? =
      some deployment := by
  obtain ⟨assigned, found⟩ : ∃ assigned, (assignNodes groups admitted held observations holds
      movementBlocks)[node]? = some assigned := by
    refine BTreeMap.exists_getElem?_ofList (x := deployment) (List.mem_flatMap.mpr ⟨(name, group),
      Std.ExtTreeMap.mem_toList_iff_getElem?_eq_some.mpr planned, ?_⟩)
    simpa only [entry] using member
  obtain ⟨currentId, id⟩ := deploymentIdentity_of_mem_assignGroup member
  have routed := (observations.mem_nodes).mp (assigned_of_mem_assignGroup id member).1
  -- The entry that won is of the same group, which lists the node once.
  obtain ⟨⟨name', group'⟩, planned', listed'⟩ :=
    List.mem_flatMap.mp (BTreeMap.mem_of_getElem?_ofList found)
  rw [Std.ExtTreeMap.mem_toList_iff_getElem?_eq_some] at planned'
  cases entry' : admitted[name']? with
  | none => simp [entry'] at listed'
  | some state' =>
    simp only [entry'] at listed'
    obtain ⟨currentId', id'⟩ := deploymentIdentity_of_mem_assignGroup listed'
    have routed' := (observations.mem_nodes).mp (assigned_of_mem_assignGroup id' listed').1
    obtain rfl := Option.some.inj (routed.symm.trans routed')
    obtain rfl := Option.some.inj (planned.symm.trans planned')
    obtain rfl := Option.some.inj (entry.symm.trans entry')
    have same : assigned = deployment :=
      congrArg Prod.snd (List.inj_on_of_nodup_map nodup_assignGroup listed' member rfl)
    exact same ▸ found

/-- A node whose turn is to be handed its group's `current` is assigned it. -/
theorem assignNodes_of_current (routed : observations.nodeGroups[node]? = some name)
    (id : deploymentIdentity state.current = some currentId)
    (turn : (nodeTurn observations (bodiesByIdentity (admitted.values ++ held.values)) holds
      (state.movement currentId movementBlocks) node).1 = .current) :
    (assignNodes groups admitted held observations holds movementBlocks)[node]? =
      some state.current :=
  getElem?_assignNodes_of_mem planned entry
    (mem_assignGroup_of_current id (observations.mem_nodes.mpr routed) turn)

/-- **A node that is on its group's `current` stays on it.** -/
theorem assignment_of_advanced (routed : observations.nodeGroups[node]? = some name)
    (id : deploymentIdentity state.current = some currentId) (free : node ∉ holds)
    (there : observations.advanced node currentId = true) :
    (assignNodes groups admitted held observations holds movementBlocks)[node]? =
      some state.current :=
  assignNodes_of_current planned entry routed id (nodeTurn_of_advanced free there)

/-- A node that is not held, is placed, and whose placement some entry still runs, is assigned
something as soon as its group has an entry it can publish. -/
theorem exists_assignment {identity : Sha256} {body : DesiredDeployment}
    (routed : observations.nodeGroups[node]? = some name)
    (id : deploymentIdentity state.current = some currentId) (free : node ∉ holds)
    (placed : observations.placement node = some (.canonical identity))
    (running : (bodiesByIdentity (admitted.values ++ held.values))[identity]? = some body) :
    ∃ deployment, (assignNodes groups admitted held observations holds movementBlocks)[node]? =
      some deployment := by
  let bodies := bodiesByIdentity (admitted.values ++ held.values)
  have listed : node ∈ observations.nodes name := observations.mem_nodes.mpr routed
  obtain ⟨deployment, member⟩ : ∃ deployment, (node, deployment) ∈
      assignGroup group state bodies observations holds movementBlocks name := by
    have reason := nodeTurn_cases observations bodies holds
      (state.movement currentId movementBlocks) node
    generalize turn : nodeTurn observations bodies holds
      (state.movement currentId movementBlocks) node = decided at reason
    cases reason with
    | held hold => exact absurd hold free
    | cordoned | advanced | firstDelivery =>
      exact ⟨_, mem_assignGroup_of_current id listed (congrArg Prod.fst turn)⟩
    | predecessor other kept =>
      exact exists_mem_assignGroup_of_staged id listed (congrArg Prod.fst turn)
    | elsewhere known _ there =>
      -- Its placement is the recorded one, which the index of running bodies answers.
      obtain rfl : known = .canonical identity := Option.some.inj (there.symm.trans placed)
      have kept : (DigestText.canonical identity).digest?.bind (bodies[·]?) = some body := running
      rw [kept] at turn
      exact exists_mem_assignGroup_of_staged id listed (congrArg Prod.fst turn)
    | refused _ unplaced | waiting _ unplaced => cases placed.symm.trans unplaced
  exact ⟨deployment, getElem?_assignNodes_of_mem planned entry member⟩

end

end

end Updatedc
