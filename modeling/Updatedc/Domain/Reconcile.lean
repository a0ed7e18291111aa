import Updatedc.Domain.Inputs
import Updatedc.Rollout.Plan

/-!
# Pure reconciliation (`updatec/src/domain.rs:18–501`)

`planReconcile` is the only path from the desired inventory and the observed telemetry to a
publication and a new durable state. It routes the nodes, resolves inputs, plans the rollouts, and
then decides what each node is published with: the planner's deployment, the repository default,
or the node's last placement carried forward. A plan that would drop a routed node is refused.
-/

namespace Updatedc

open Contracts

/-! ## States and plans -/

structure DesiredState where
  repository : UpdateRepositorySpec
  groups : BTreeMap String ResolvedGroup
  groupLabels : BTreeMap String Labels
  sets : List UpdateGroupSet
  nodes : List ResolvedNode
  /-- Every group quarantined this pass, with the selector that says which agents are its own. -/
  quarantined : BTreeMap String Labels
  holds : Finset String
  cordons : Finset String
  blockedDeployments : Finset Sha256
  /-- The quarantined groups that have a durable pin, with it. -/
  held : Admitted
  /-- The planned groups stand under their own names. -/
  named : ∀ entry ∈ groups.toList, entry.2.name = entry.1

/-- Quarantine only captures otherwise unmatched nodes, by a selector that selects something. -/
def DesiredState.quarantinedGroup (self : DesiredState) (node : ResolvedNode)
    (selectedGroup : String) : Option String :=
  if selectedGroup ≠ defaultGroup then none
  else
    (self.quarantined.toList.find? fun (_, selector) =>
      !selector.isEmpty && selectorMatches selector node.labels).map (·.1)

structure ObservedState where
  reports : BTreeMap String Envelope
  outputs : BTreeMap String ExactOutputPublication
  dataflowKey : Bytes
  publicKeys : BTreeMap String P256PublicKey
  admitted : Admitted
  vetoed : BTreeMap Sha256 VetoedDeployment
  /-- The group each node was last published under. -/
  routing : BTreeMap String String
  /-- The identity each node was last published. -/
  assignments : BTreeMap String Sha256
  now : DateTime

structure ReconcilePlan where
  publication : PublicationPlan
  desiredDeployments : BTreeMap String DesiredDeployment
  blocked : Finset Sha256
  inputSnapshots : BTreeMap Sha256 FileSnapshot
  admitted : Admitted
  vetoed : BTreeMap Sha256 VetoedDeployment
  routing : BTreeMap String String
  assignments : BTreeMap String Sha256
  setStatuses : List SetStatus
  groups : BTreeMap String GroupProgress
  nodeCounts : BTreeMap String GroupNodes
  haltedGroups : BTreeMap String HaltedDeployment

variable [Crates]

/-- What the process remembers from pass to pass. -/
structure Memory where
  log : ObservationLog
  verified : VerifiedReports

/-! ## Up to the planner -/

/-- The group each node resolves to, once the dependency graph is sound. -/
def DesiredState.route (self : DesiredState) : Except PlanError (BTreeMap String String) := do
  validateDependencyGraph self.groups self.quarantined.keys.toFinset
  resolveNodeGroups self.groups.values self.nodes

/-- The groups with their inputs as this pass resolves them. -/
def resolvedGroups (desired : DesiredState) (observed : ObservedState)
    (verified : VerifiedReports) (nodeGroups : BTreeMap String String) :
    BTreeMap String ResolvedGroup :=
  resolveGroupInputs
    { nodeGroups
      reports := observed.reports
      outputs := observed.outputs
      publicKeys := observed.publicKeys
      verified := verified.verifyFleet observed.reports observed.publicKeys
      cordons := desired.cordons
      nowMs := observed.now.timestampMillis
      dataflowKey := observed.dataflowKey }
    desired.groups

def rolloutInputs (desired : DesiredState) (observed : ObservedState)
    (verified : VerifiedReports) (nodeGroups : BTreeMap String String)
    (default : DesiredDeployment) : RolloutInputs where
  groups := resolvedGroups desired observed verified nodeGroups
  groupLabels := desired.groupLabels
  nodeGroups
  reports := observed.reports
  publicKeys := observed.publicKeys
  published := observed.assignments
  held := desired.held
  holds := desired.holds
  cordons := desired.cordons
  blockedDeployments := desired.blockedDeployments
  defaultDeployment := default

/-! ## What each node is published with -/

/-- The nodes a quarantined group withholds, with it. -/
def quarantinedNodes (desired : DesiredState) (nodeGroups : BTreeMap String String) :
    BTreeMap String String :=
  .ofList (desired.nodes.filterMap fun node =>
    (desired.quarantinedGroup node (nodeGroups[node.name]?.getD defaultGroup)).map (node.name, ·))

/-- Restore the pins of quarantined groups; the reserved name has none. -/
def restorePins (held admitted : Admitted) : Admitted :=
  held.toList.foldl
    (fun admitted (name, state) =>
      if name = defaultGroup then admitted else admitted.insert name state)
    admitted

/-- Record the repository default as the newest body of its lineage. -/
def recordDefault (default : DesiredDeployment) (identity : Sha256) (admitted : Admitted) :
    Admitted :=
  match admitted[defaultGroup]? with
  | none => admitted.insert defaultGroup { current := default }
  | some state =>
    if deploymentIdentity state.current = some identity then admitted
    else
      let previous :=
        if state.previous.contains state.current then state.previous
        else state.current :: state.previous
      admitted.insert defaultGroup { current := default, previous }

/-- What deciding each node's publication reads. -/
structure Publishing where
  desired : DesiredState
  observed : ObservedState
  nodeGroups : BTreeMap String String
  default : DesiredDeployment
  defaultBlocked : Bool
  /-- The admitted state with pins restored and the default recorded. -/
  admitted : Admitted

namespace Publishing

variable (self : Publishing)

def quarantined : BTreeMap String String := quarantinedNodes self.desired self.nodeGroups

/-- Whether an unmatched node follows the repository default this pass. -/
def takesDefault (node selected : String) : Bool :=
  selected = defaultGroup && !self.quarantined.contains node && node ∉ self.desired.holds
    && !self.defaultBlocked

/-- Hand the repository default to the unmatched nodes. -/
def placeDefault (nodeDeployments : BTreeMap String DesiredDeployment) :
    BTreeMap String DesiredDeployment :=
  self.nodeGroups.toList.foldl
    (fun nodeDeployments (node, selected) =>
      if self.takesDefault node selected then nodeDeployments.insert node self.default
      else nodeDeployments)
    nodeDeployments

/-- The body the last generation recorded for a node (`placed_deployment`). -/
def placedDeployment (node : String) : Option DesiredDeployment :=
  self.observed.assignments[node]?.bind ((bodiesByIdentity self.admitted.values)[·]?)

/-- The last routing of a node whose own group cannot be planned: it produced no deployment, or
the node fell to `default` because its group is quarantined for an empty selector. -/
def lastRouting (node group : String) (assigned : Bool) : Option String :=
  self.observed.routing[node]?.filter fun last =>
    !assigned || (group = defaultGroup && self.desired.quarantined[last]?.any (·.isEmpty))

/-- Whether a carried node is frozen on its recorded body, rather than following the default. -/
def frozen (node last : String) : Bool :=
  self.quarantined.contains node || node ∈ self.desired.holds
    || (self.defaultBlocked && last = defaultGroup)
    || (last ≠ defaultGroup && self.admitted.contains last)

/-- What a node is carried forward on, if it is. -/
def carried (node group : String) (assigned : Bool) :
    Except PlanError (Option (String × DesiredDeployment)) :=
  match self.lastRouting node group assigned with
  | none => .ok none
  | some last =>
    if self.frozen node last then
      match self.placedDeployment node with
      | some deployment => .ok (some (last, deployment))
      | none => .error (.unknownPlacement node last)
    else if last = defaultGroup then .ok (some (last, self.default))
    else .ok none

/-- Publish one node: carried forward, on what it was handed, or left out. -/
def publishStep (build : BTreeMap String DesiredDeployment × BTreeMap String String)
    (entry : String × String) :
    Except PlanError (BTreeMap String DesiredDeployment × BTreeMap String String) := do
  let (node, group) := entry
  match ← self.carried node group (build.1.contains node) with
  | some (last, deployment) =>
    return (build.1.insert node deployment, build.2.insert node last)
  | none =>
    if build.1.contains node then return (build.1, build.2.insert node group) else return build

/-- Every node's deployment and the group it is published under. -/
def publishNodes (nodeDeployments : BTreeMap String DesiredDeployment) :
    Except PlanError (BTreeMap String DesiredDeployment × BTreeMap String String) :=
  self.nodeGroups.toList.foldlM self.publishStep (self.placeDefault nodeDeployments, ∅)

/-- The routed nodes of this pass that a publication would drop. -/
def dropped (publishedNodes : BTreeMap String String) : List String :=
  self.observed.routing.keys.filter fun node =>
    self.nodeGroups.contains node && !publishedNodes.contains node

end Publishing

/-! ## The pass -/

/-- What deciding the publication reads, after the planner ran. -/
def publishing (desired : DesiredState) (observed : ObservedState)
    (nodeGroups : BTreeMap String String) (default : DesiredDeployment)
    (rollout : RolloutOutcome) : Publishing :=
  let identity := deploymentIdentity default
  let defaultBlocked := identity.any (· ∈ rollout.plan.blocked)
  let admitted := restorePins desired.held rollout.admitted
  { desired, observed, nodeGroups, default, defaultBlocked
    admitted :=
      if defaultBlocked then admitted
      else identity.elim admitted fun identity => recordDefault default identity admitted }

/-- The sensitive bytes the pass's assignments name, by generation. -/
def inputSnapshots (groups : BTreeMap String ResolvedGroup) : BTreeMap Sha256 FileSnapshot :=
  .ofList (groups.values.filterMap fun group => do
    let snapshot ← group.inputSnapshot
    let generation ← group.deployment.runtime.inputs.generation.digest?
    return (generation, snapshot))

/-- The publication, or the reason there is none. -/
def finishPlan (publishing : Publishing) (inputs : RolloutInputs) (rollout : RolloutOutcome) :
    Except PlanError ReconcilePlan := do
  let (nodeDeployments, publishedNodes) ←
    publishing.publishNodes rollout.plan.nodeDeployments
  let dropped := publishing.dropped publishedNodes
  if dropped ≠ [] then .error (.routingLoss dropped)
  else
    let publication ← buildPublicationPlan publishing.desired.repository publishedNodes
      nodeDeployments
    return {
      publication
      desiredDeployments := inputs.desired
      blocked := rollout.plan.blocked
      inputSnapshots := inputSnapshots inputs.groups
      admitted := publishing.admitted
      vetoed := rollout.vetoed
      routing := publication.nodeGroups
      assignments := publication.nodeAssignments
      setStatuses := rollout.plan.sets
      groups := rollout.plan.groups
      nodeCounts := rollout.plan.nodeCounts
      haltedGroups := rollout.plan.haltedGroups }

/-- One pure pass: its plan or its failure, and what the process remembers of it either way. -/
def planReconcile (desired : DesiredState) (observed : ObservedState) (memory : Memory) :
    Except PlanError ReconcilePlan × Memory :=
  match desired.route with
  | .error error => (.error error, memory)
  | .ok nodeGroups =>
    match DesiredDeployment.tryFrom desired.repository.defaultDeployment with
    | .error error =>
      (.error (.invalidDeployment error),
        { memory with
          verified := memory.verified.verifyFleet observed.reports observed.publicKeys })
    | .ok default =>
      let inputs := rolloutInputs desired observed memory.verified nodeGroups default
      let verified := memory.verified.verifyFleet observed.reports observed.publicKeys
      let rollout := planRollouts desired.sets inputs observed.admitted observed.vetoed memory.log
        verified observed.now
      (finishPlan (publishing desired observed nodeGroups default rollout) inputs rollout,
        { log := rollout.log, verified := rollout.verified })

end Updatedc
