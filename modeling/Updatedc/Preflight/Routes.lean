import Updatedc.Domain.Movement

/-!
# Release preflight: routes (`updatec/src/preflight.rs:1–241`)

Before anything is published, every node that may be moved is checked against the graph it would
be moved to: it must have a complete route from what the node runs, and from wherever the node may
still land while it follows an assignment it already has. What the checks collect, per deployment,
is the set of versions whose packages have to be verified next.
-/

namespace Updatedc

open Contracts

/-- A deployment with the versions nodes may pass through under it, and those they start from. -/
structure PreparedRollout where
  deployment : DesiredDeployment
  versions : BTreeSet String := ∅
  sources : BTreeSet String := ∅

abbrev Pending := BTreeMap Sha256 PreparedRollout

/-- Extend the entry of a deployment, or begin one. -/
def Pending.prepare (pending : Pending) (identity : Sha256) (deployment : DesiredDeployment)
    (sources versions : List String) : Pending :=
  let prepared := pending[identity]?.getD { deployment }
  pending.insert identity
    { prepared with
      sources := prepared.sources.insertMany sources
      versions := prepared.versions.insertMany versions }

/-- The version a report states, unless it has none installed. -/
def installedVersion (report : Option NodeReport) : Option String :=
  (report.map (·.version)).filter (!·.isEmpty)

/-- The assignments a node may still be acting on, in the order of their digests: the one recorded
for it and, if there is one, the one its report names. -/
def activeAssignments (recorded : Option Sha256) (report : Option NodeReport) : List DigestText :=
  match recorded, report with
  | none, _ => []
  | some recorded, none => [.canonical recorded]
  | some recorded, some report =>
    if report.assignmentSha256 = .canonical recorded then [.canonical recorded]
    else if recorded.hex < report.assignmentSha256.text then
      [.canonical recorded, report.assignmentSha256]
    else [report.assignmentSha256, .canonical recorded]

variable [Crates]

/-! ## One node -/

/-- The versions on routes from what the node reports it runs. -/
def directVersions (graph : ReleaseGraph) (assigned : Bool) (report : Option NodeReport) :
    Except String (List String) :=
  match report with
  | some report =>
    if report.version.isEmpty then graph.routeVersions none
    else do
      graph.checkSource report.version report.archiveSha256
      graph.routeVersions (some report.version)
  | none =>
    if !assigned then graph.routeVersions none
    else
      .error (s!"cannot verify installed version before rollout to {graph.target}: " ++
        "a fresh authenticated report is required")

/-- A release the node may land on must keep its identity and have a complete route. -/
def checkLanding (node : String) (graph prior : ReleaseGraph)
    (found : List String × List String) (landing : String) :
    Except PlanError (List String × List String) := do
  -- A landing is one of the prior graph's releases.
  let package := (prior.releases[landing]?).elim .empty (·.package.sha256)
  let route ← (do graph.checkSource landing package; graph.routeVersions (some landing)).mapError
    fun message => .releasePreflight node s!"in-flight release {landing}: {message}"
  return (landing :: found.1, route ++ found.2)

/-- Whether the prior graph cannot advance the node, because it does not know what it runs. -/
def isStranded (prior : ReleaseGraph) (report : Option NodeReport) : Bool :=
  report.any fun report =>
    !report.version.isEmpty &&
      !(prior.checkSource report.version report.archiveSha256).isOk

/-- Every landing of one assignment the node may still be acting on. -/
def checkPrior (node : String) (graph : ReleaseGraph) (report : Option NodeReport)
    (published : BTreeMap Sha256 DesiredDeployment) (found : List String × List String)
    (assignment : DigestText) : Except PlanError (List String × List String) :=
  match assignment.digest?.bind (published[·]?) with
  | none => .error (.releasePreflight node
      "cannot verify in-flight route: published assignment body is missing")
  | some prior =>
    if isStranded prior.application report then .ok found
    else
      let remaining := (prior.application.routeVersions (installedVersion report)).toOption.getD []
      remaining.foldlM (checkLanding node graph prior.application) found

/-- Check one node against the deployment it would be moved to, given the report it is judged
by. -/
def checkReported (node : String) (deployment : DesiredDeployment) (identity : Sha256)
    (recorded : Option Sha256) (report : Option NodeReport)
    (published : BTreeMap Sha256 DesiredDeployment) (pending : Pending) :
    Except PlanError Pending := do
  let graph := deployment.application
  let versions ← (directVersions graph recorded.isSome report).mapError
    (.releasePreflight node)
  let (sources, versions) ← (activeAssignments recorded report).foldlM
    (checkPrior node graph report published) ((installedVersion report).toList, versions)
  return pending.prepare identity deployment sources versions

/-- The node's report, as the cache answers. -/
def VerifiedReports.reportOf (self : VerifiedReports) (observed : ObservedState) (node : String) :
    Option NodeReport := do
  let envelope ← observed.reports[node]?
  let key ← observed.publicKeys[node]?
  self.fresh node envelope key observed.now.timestampMillis

def checkNode (observed : ObservedState) (verified : VerifiedReports)
    (published : BTreeMap Sha256 DesiredDeployment) (node : String)
    (deployment : DesiredDeployment) (pending : Pending) : Except PlanError Pending :=
  match deploymentIdentity deployment with
  | none => .error (.invalidDeployment "cannot encode release graph")
  | some identity =>
    if observed.assignments[node]? = some identity then .ok pending
    else checkReported node deployment identity observed.assignments[node]?
      (verified.reportOf observed node) published pending

/-! ## The whole generation -/

/-- What a group's nodes are meant to run. A durable regression response supersedes the refused
forward intent. -/
def intendedDeployment (plan : ReconcilePlan) (default : DesiredDeployment) (group : String) :
    DesiredDeployment :=
  let deployment := plan.desiredDeployments[group]?.getD default
  if (deploymentIdentity deployment).any plan.vetoed.contains then
    plan.admitted[group]?.elim deployment (·.current)
  else deployment

/-- A node the pass may move: neither held nor withheld by a quarantined group. -/
def DesiredState.isFree (self : DesiredState) (nodeGroups : BTreeMap String String)
    (node : ResolvedNode) : Bool :=
  node.name ∉ self.holds &&
    (self.quarantinedGroup node (nodeGroups[node.name]?.getD defaultGroup)).isNone

/-- The bodies of the published assignments. -/
def publishedBodies (desired : DesiredState) (observed : ObservedState) :
    BTreeMap Sha256 DesiredDeployment :=
  bodiesByIdentity (observed.admitted.values ++ desired.held.values)

/-- One node of a cohort, if it is free, against its group's intent. -/
def cohortStep (desired : DesiredState) (observed : ObservedState) (plan : ReconcilePlan)
    (verified : VerifiedReports) (nodeGroups : BTreeMap String String)
    (default : DesiredDeployment) (pending : Pending) (node : ResolvedNode) :
    Except PlanError Pending :=
  if desired.isFree nodeGroups node then
    checkNode observed verified (publishedBodies desired observed) node.name
      (intendedDeployment plan default (nodeGroups[node.name]?.getD defaultGroup)) pending
  else .ok pending

def checkCohorts (desired : DesiredState) (observed : ObservedState) (plan : ReconcilePlan)
    (verified : VerifiedReports) (nodeGroups : BTreeMap String String)
    (default : DesiredDeployment) (pending : Pending) : Except PlanError Pending :=
  desired.nodes.foldlM (cohortStep desired observed plan verified nodeGroups default) pending

/-- The predecessors a group may be rolled back to. -/
def rollbackCandidates (deployment : DesiredDeployment) (state : AdmittedDeployment) :
    List DesiredDeployment :=
  (if state.current ≠ deployment then [state.current] else []) ++ state.previous

/-- The versions on the routes back, from everywhere a forward rollout can leave a node. -/
def returnVersions (group : String) (restored : DesiredDeployment) (forward : PreparedRollout) :
    Except PlanError (List String) :=
  (forward.sources.insertMany forward.versions.toList).toList.foldlM
    (fun versions source => do
      let route ← (restored.application.routeVersions (some source)).mapError fun message =>
        .releasePreflight s!"group {group}" s!"automatic rollback: {message}"
      return route ++ versions)
    []

/-- Validate the return topology of one group, before its forward rollout. -/
def checkRollback (observed : ObservedState) (plan : ReconcilePlan) (pending : Pending)
    (group : String) : Except PlanError Pending :=
  -- The group is one of the desired ones, and what is desired has an identity.
  match plan.desiredDeployments[group]?, plan.desiredDeployments[group]?.bind deploymentIdentity,
      observed.admitted[group]? with
  | some deployment, some identity, some state =>
    match pending[identity]? with
    | none => .ok pending
    | some forward =>
      let previous := rollbackCandidates deployment state
      if plan.vetoed.contains identity || previous.isEmpty then .ok pending
      else
        match rollbackTarget deployment previous plan.blocked with
        | none => .error (.releasePreflight s!"group {group}" <|
            "automatic rollback has no permitted, immutable baseline in the release catalog")
        | some (_, restored) => do
          let versions ← returnVersions group restored forward
          match deploymentIdentity restored with
          | none => return pending
          | some restoredIdentity => return pending.prepare restoredIdentity restored [] versions
  | _, _, _ => .ok pending

/-- The document a publication holds under an identity. -/
def PublicationPlan.target? (self : PublicationPlan) (identity : Sha256) :
    Option PublicationTarget :=
  (Std.ExtTreeMap.ofList (self.targets.map fun target => (target.sha256, target))
    compare)[identity]?

/-- One entry of the concrete publication. -/
def checkPublished (desired : DesiredState) (observed : ObservedState) (plan : ReconcilePlan)
    (verified : VerifiedReports) (pending : Pending) (entry : String × Sha256) :
    Except PlanError Pending :=
  if observed.assignments[entry.1]? = some entry.2 then .ok pending
  else
    match plan.publication.target? entry.2 with
    | none => .error (.invalidDeployment "publication has no matching configuration")
    | some target => do
      let deployment ←
        (RepositoryAssignment.fromBoundedJson target.bytes).mapError .invalidDeployment
      checkNode observed verified (publishedBodies desired observed) entry.1 deployment pending

/-- Inspect all cohorts first. A missing route on the last node cannot leave the first admitted. -/
def routes (desired : DesiredState) (observed : ObservedState) (plan : ReconcilePlan)
    (verified : VerifiedReports) : Except PlanError (List PreparedRollout) × VerifiedReports :=
  match resolveNodeGroups desired.groups.values desired.nodes with
  | .error error => (.error error, verified)
  | .ok nodeGroups =>
    let verified := verified.verifyFleet observed.reports observed.publicKeys
    match DesiredDeployment.tryFrom desired.repository.defaultDeployment with
    | .error error => (.error (.invalidDeployment error), verified)
    | .ok default =>
      let prepared : Except PlanError Pending := do
        let pending ← checkCohorts desired observed plan verified nodeGroups default ∅
        let pending ← (rollbackGroups desired.sets plan.desiredDeployments
          desired.groupLabels).foldlM (checkRollback observed plan) pending
        plan.publication.nodeAssignments.toList.foldlM
          (checkPublished desired observed plan verified) pending
      (prepared.map BTreeMap.values, verified)

end Updatedc
