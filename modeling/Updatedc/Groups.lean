import Updatedc.Lib.KeyedFold
import Updatedc.Crates

/-!
# Groups, sets and the publication they compile to (`updatec/src/lib.rs`)

The control plane's resources after Kubernetes metadata has been joined with their specs, the
selectors that route a node to a group, the dependency graph between groups, and the
all-or-nothing publication a plan compiles to.
-/

namespace Updatedc

open Contracts

abbrev Labels := BTreeMap String String

/-- The signed document a node is assigned, as the control plane names it. -/
abbrev DesiredDeployment := RepositoryAssignment

/-! ## Specs -/

structure ReleaseRepositorySpec where
  metadataUrl : String
  targetsUrl : String
  rootJson : String

structure RuntimeSpec where
  product : String
  channel : String
  installRoot : String
  repository : ManagedRepositoryLimits
  storage : ManagedStorage
  timeouts : ManagedTimeouts

structure DeploymentSpec where
  name : String
  releaseRepository : ReleaseRepositorySpec
  application : ReleaseGraph
  runtime : RuntimeSpec

structure GroupOutputReference where
  group : String
  output : String
  deriving DecidableEq

inductive RegressionResponse where
  | halt
  | rollback
  deriving DecidableEq

/-- `UpdateGroupSet`: a throttle over the groups its selector matches. -/
structure UpdateGroupSet where
  name : String
  matchLabels : Labels
  maxConcurrent : Option Nat := none
  rolloutWindows : List RolloutWindow := []
  calendar : List CalendarEntry := []
  maxRegressions : Option Nat := none
  onRegression : RegressionResponse := .halt

/-- The configured concurrency, or `members - 1`, clamped to `1..=members-1`. -/
def UpdateGroupSet.effectiveMaxConcurrent (self : UpdateGroupSet) (members : Nat) : Nat :=
  let ceiling := max (members - 1) 1
  let requested := self.maxConcurrent.getD ceiling
  max 1 (min requested ceiling)

/-- `UpdateRepositorySpec`, as far as planning reads it. -/
structure UpdateRepositorySpec where
  defaultDeployment : DeploymentSpec
  assignmentPrefix : String

/-- An `UpdateGroup` after Kubernetes metadata has been combined with its spec. -/
structure ResolvedGroup where
  name : String
  matchLabels : Labels
  dependsOn : List String := []
  inputs : BTreeMap String GroupOutputReference := ∅
  inputSnapshot : Option FileSnapshot := none
  deployment : DesiredDeployment
  maxUnavailable : Nat
  emergencyCorrection : Bool := false
  deriving DecidableEq

def ResolvedGroup.inputsReady (self : ResolvedGroup) : Bool :=
  self.inputs.isEmpty || self.inputSnapshot.isSome

structure ResolvedNode where
  name : String
  labels : Labels
  deriving DecidableEq

/-- One deployment the regression verdict has halted, with the evidence that halted it. -/
structure HaltedDeployment where
  deployment : String
  evidence : Nat
  rolledBack : Bool
  deriving DecidableEq

/-- The durable record of an identity a rollback response has consumed the evidence for. -/
structure VetoedDeployment where
  deployment : String
  evidence : Nat
  deriving DecidableEq

inductive PlanError where
  | emptySelector (group : String)
  | duplicateGroup (group : String)
  | reservedGroupName
  /-- The plan would publish nothing for nodes that already have an assignment. -/
  | routingLoss (nodes : List String)
  /-- A carried node has no deployment body the control plane can still resolve. -/
  | unknownPlacement (node group : String)
  | duplicateNode (node : String)
  | missingDependency (group dependency : String)
  | dependencyCycle (cycle : List String)
  | invalidDependencyInput (group input : String)
  | tooManyDependencyInputs (group : String) (inputs : Nat)
  | ambiguousNode (node : String) (groups : List String)
  | invalidNodeName
  | invalidPrefix
  | invalidDeployment (error : String)
  | nodeDeploymentMismatch
  | serialize (error : String)
  | releasePreflight (node message : String)
  deriving DecidableEq

section
variable [Crates]

/-- `TryFrom<DeploymentSpec>`: the document starts with no inputs, and must validate. -/
def DesiredDeployment.tryFrom (value : DeploymentSpec) : Except String DesiredDeployment := do
  let releaseRoot ← match Json.fromSlice value.releaseRepository.rootJson.toUTF8.data.toList with
    | .ok (root : JsonValue) => pure root
    | .error error => throw s!"releaseRepository.rootJson is invalid JSON: {error}"
  let desired : DesiredDeployment :=
    { schema := RepositoryAssignment.currentSchema
      deployment := value.name
      metadataUrl := value.releaseRepository.metadataUrl
      targetsUrl := value.releaseRepository.targetsUrl
      application := value.application
      releaseRoot
      runtime :=
        { product := value.runtime.product
          channel := value.runtime.channel
          installRoot := value.runtime.installRoot
          repository := value.runtime.repository
          storage := value.runtime.storage
          timeouts := value.runtime.timeouts } }
  desired.validate
  return desired

/-- The digest of the exact bytes published for a deployment. An invalid deployment has no
identity and can never match a report. -/
def deploymentIdentity (value : DesiredDeployment) : Option Sha256 :=
  match value.publication with
  | .ok (_, identity) => some identity
  | .error _ => none

end

/-! ## Selectors -/

/-- The pseudo-group of a node that matched no `UpdateGroup`. -/
def defaultGroup : String := "default"

def selectorMatches (expected labels : Labels) : Bool :=
  expected.toList.all fun (key, value) => labels[key]? == some value

variable (indexed : BTreeMap String ResolvedGroup)

/-- Index one group by name, refusing an empty selector, the reserved name and a duplicate. -/
def indexGroup (group : ResolvedGroup) : Except PlanError (BTreeMap String ResolvedGroup) :=
  if group.matchLabels.isEmpty then .error (.emptySelector group.name)
  else if group.name = defaultGroup then .error .reservedGroupName
  else if indexed.contains group.name then .error (.duplicateGroup group.name)
  else .ok (indexed.insert group.name group)

/-- The one group whose selector matches a node, or the reserved pseudo-group. -/
def selectGroup (node : ResolvedNode) : Except PlanError String :=
  let selected := (indexed.toList.filter fun (_, group) =>
    selectorMatches group.matchLabels node.labels).map (·.1)
  match selected with
  | [] => .ok defaultGroup
  | [only] => .ok only
  | groups => .error (.ambiguousNode node.name groups)

/-- Route one node to its group, refusing a duplicate and an unusable name. -/
def routeNode (nodeGroups : BTreeMap String String) (node : ResolvedNode) :
    Except PlanError (BTreeMap String String) :=
  if nodeGroups.contains node.name then .error (.duplicateNode node.name)
  else if (ResourceName.new? node.name).isNone then .error .invalidNodeName
  else do
    let selected ← selectGroup indexed node
    return nodeGroups.insert node.name selected

/-- Route every node to its group. -/
def resolveNodeGroups (groups : List ResolvedGroup) (nodes : List ResolvedNode) :
    Except PlanError (BTreeMap String String) := do
  let indexed ← groups.foldlM indexGroup ∅
  nodes.foldlM (routeNode indexed) ∅

/-! ## The dependency graph

`visit` is the depth-first walk of `validate_dependency_graph`. Every nested call marks one more
group as being visited, so a walk over `n` groups nests at most `n + 1` deep, which is the fuel it
is given. -/

/-- How far the walk is with a group. -/
inductive Mark where
  | visiting
  | done
  deriving DecidableEq

structure Walk where
  state : BTreeMap String Mark := ∅
  /-- The groups being visited, outermost first. -/
  stack : List String := []

section
variable [Crates]

/-- Whether a name may be a key of a signed file snapshot. -/
def isOutputName (name : String) : Bool :=
  match FileValue.fromBytes [] with
  | .ok value => ({ files := (∅ : BTreeMap String FileValue).insert name value } :
      FileSnapshot).validate.isOk
  | .error _ => false

/-- Whether one declared input can be wired. -/
def inputIsValid (group : ResolvedGroup) (input : String) (reference : GroupOutputReference) :
    Bool :=
  isOutputName input && isOutputName reference.output
    && group.dependsOn.contains reference.group

/-- What the walk checks of a group's declared inputs. -/
def checkInputs (name : String) (group : ResolvedGroup) : Except PlanError Unit := do
  if group.inputs.size > FileSnapshot.maxFiles then
    throw (.tooManyDependencyInputs name group.inputs.size)
  group.inputs.toList.forM fun (input, reference) =>
    if inputIsValid group input reference then .ok ()
    else .error (.invalidDependencyInput name input)

def visit (groups : BTreeMap String ResolvedGroup) (quarantined : Finset String) :
    (fuel : Nat) → (name : String) → Walk → Except PlanError Walk
  | 0, _, walk => .ok walk
  | fuel + 1, name, walk =>
    match walk.state[name]?, groups[name]? with
    | some .done, _ => .ok walk
    | some .visiting, _ => .error (.dependencyCycle (walk.stack.dropWhile (· != name) ++ [name]))
    | none, none => .ok walk
    | none, some group => do
      let walk : Walk := ⟨walk.state.insert name .visiting, walk.stack ++ [name]⟩
      let walk ← group.dependsOn.foldlM
        (fun walk dependency =>
          if dependency ∈ quarantined then .ok walk
          else if !groups.contains dependency then .error (.missingDependency name dependency)
          else visit groups quarantined fuel dependency walk)
        walk
      checkInputs name group
      return ⟨walk.state.insert name .done, walk.stack.dropLast⟩

/-- The whole graph. A quarantined dependency is present but frozen, so the walk skips it. -/
def validateDependencyGraph (groups : BTreeMap String ResolvedGroup)
    (quarantined : Finset String) : Except PlanError Unit := do
  let _ ← groups.keys.foldlM
    (fun walk name => visit groups quarantined (groups.size + 1) name walk) {}

/-- The first reason, local to one group, why its wiring cannot be planned. -/
def localViolation (groups : BTreeMap String ResolvedGroup) (quarantined : Finset String)
    (group : ResolvedGroup) : Option String :=
  if group.inputs.size > FileSnapshot.maxFiles then
    some (s!"This group declares {group.inputs.size} dependency inputs; " ++
      s!"a signed file snapshot admits at most {FileSnapshot.maxFiles}.")
  else
    match group.inputs.toList.find? fun (input, reference) =>
        !inputIsValid group input reference with
    | some (input, reference) =>
      some (s!"This group's input {input.quote} is invalid: its name and referenced output " ++
        s!"must satisfy the output grammar, and its group {reference.group.quote} must be " ++
        "listed in dependsOn.")
    | none =>
      (group.dependsOn.find? fun dependency =>
          dependency ∉ quarantined && !groups.contains dependency).map fun dependency =>
        s!"This group depends on {dependency.quote}, which does not exist."

/-- Quarantine one reported cycle at a time until the remainder is acyclic. Each turn removes a
group, so the number of groups is fuel enough. -/
def cycleViolations (groups : BTreeMap String ResolvedGroup) (quarantined : Finset String) :
    (fuel : Nat) → BTreeMap String String → BTreeMap String String
  | 0, violations => violations
  | fuel + 1, violations =>
    let remaining := groups.filter fun name _ => !violations.contains name
    let skip := quarantined ∪ violations.keys.toFinset
    match validateDependencyGraph remaining skip with
    | .error (.dependencyCycle cycle) =>
      let display := " -> ".intercalate cycle
      let message := s!"This group is part of a dependency cycle: {display}."
      cycleViolations groups quarantined fuel
        (cycle.foldl (fun violations member => violations.insertIfNew member message) violations)
    | _ => violations

/-- Every group whose dependency wiring cannot be planned, with the reason. -/
def dependencyViolations (groups : BTreeMap String ResolvedGroup)
    (quarantined : Finset String) : BTreeMap String String :=
  cycleViolations groups quarantined (groups.size + 1)
    (groups.filterMap fun _ group => localViolation groups quarantined group)

end

/-! ## Publication -/

structure PublicationTarget where
  path : String
  bytes : Bytes
  sha256 : Sha256

structure PublicationPlan where
  targets : List PublicationTarget
  nodeGroups : BTreeMap String String
  /-- The identity of the deployment this generation publishes for each node. -/
  nodeAssignments : BTreeMap String Sha256
  digest : Sha256

def trimSlashes (path : String) : String :=
  String.ofList <| (((path.toList.dropWhile (· == '/')).reverse).dropWhile (· == '/')).reverse

def configObjectKey (base : String) (id : Sha256) : String :=
  trimSlashes base ++ "/configs/" ++ id.hex ++ ".json"

def assignmentObjectKey (base node : String) : String :=
  trimSlashes base ++ "/agents/" ++ node ++ ".json"

section
variable [Crates]

def publicationTarget (path : String) (bytes : Bytes) : PublicationTarget :=
  ⟨path, bytes, sha256 bytes⟩

def publicationDigest (targets : List PublicationTarget) : Sha256 :=
  sha256 (targets.flatMap fun target =>
    target.path.toUTF8.data.toList ++ [0] ++ target.bytes ++ [0])

/-- The publication under construction. -/
structure PlanBuild where
  targets : List PublicationTarget := []
  references : BTreeMap Sha256 TargetReference := ∅
  nodeAssignments : BTreeMap String Sha256 := ∅

/-- Add the shared deployment document, unless an earlier node already did. -/
def PlanBuild.addConfig (build : PlanBuild) (base : String) (id : Sha256) (bytes : Bytes) :
    PlanBuild × TargetReference :=
  match build.references[id]? with
  | some reference => (build, reference)
  | none =>
    let config := publicationTarget (configObjectKey base id) bytes
    let reference := ⟨config.path, .canonical config.sha256⟩
    ({ build with
        targets := build.targets ++ [config]
        references := build.references.insert id reference }, reference)

/-- Publish one node: the document it is assigned, and its own routing document. -/
def PlanBuild.addNode (base : String) (build : PlanBuild)
    (entry : String × DesiredDeployment) : Except PlanError PlanBuild := do
  let (bytes, id) ← entry.2.publication.mapError .invalidDeployment
  let (build, config) := build.addConfig base id bytes
  let document ← (AgentDocument.toBoundedJson ⟨1, config⟩).mapError .serialize
  return { build with
    targets := build.targets ++
      [publicationTarget (assignmentObjectKey base entry.1) document]
    nodeAssignments := build.nodeAssignments.insert entry.1 id }

/-- The all-or-nothing publication of `nodeDeployments`, routed by `nodeGroups`. -/
def buildPublicationPlan (repository : UpdateRepositorySpec)
    (nodeGroups : BTreeMap String String) (nodeDeployments : BTreeMap String DesiredDeployment) :
    Except PlanError PublicationPlan :=
  let base := trimSlashes repository.assignmentPrefix
  if !Path.isConfinedRelative base then .error .invalidPrefix
  else if nodeGroups.keys ≠ nodeDeployments.keys then .error .nodeDeploymentMismatch
  else do
    let build ← nodeDeployments.toList.foldlM (PlanBuild.addNode base) {}
    let targets := build.targets.insertionSort fun a b => a.path ≤ b.path
    return { targets, nodeGroups, nodeAssignments := build.nodeAssignments,
             digest := publicationDigest targets }

/-! ## What a publication records -/

/-- Publishing one node records the identity of the document it is assigned. -/
theorem PlanBuild.addNode_ok {base : String} {build next : PlanBuild} {node : String}
    {deployment : DesiredDeployment}
    (ok : PlanBuild.addNode base build (node, deployment) = .ok next) :
    ∃ identity, deploymentIdentity deployment = some identity ∧
      next.nodeAssignments = build.nodeAssignments.insert node identity := by
  obtain ⟨⟨bytes, identity⟩, published, ok⟩ := Except.bind_ok_iff.mp ok
  obtain ⟨document, -, ok⟩ := Except.bind_ok_iff.mp ok
  cases ok
  refine ⟨identity, ?_, ?_⟩
  · unfold deploymentIdentity
    cases publication : deployment.publication with
    | error error => rw [publication] at published; cases published
    | ok pair => rw [publication] at published; cases published; rfl
  · dsimp only [PlanBuild.addConfig]
    split <;> rfl

private theorem addNode_local (base : String) :
    KeyedFold.Local (PlanBuild.addNode base) (fun build node => build.nodeAssignments[node]?)
      (fun _ deployment _ after => after = deploymentIdentity deployment ∧ after ≠ none) where
  own ok := by
    obtain ⟨identity, known, recorded⟩ := PlanBuild.addNode_ok ok
    simp [recorded, known]
  frame ok other different := by
    obtain ⟨identity, -, recorded⟩ := PlanBuild.addNode_ok ok
    rw [recorded, BTreeMap.getElem?_insert, if_neg different.symm]

/-- A publication keeps the routing it was given and records, for every node it publishes and no
other, the identity of the deployment it was given. -/
theorem buildPublicationPlan_ok {repository : UpdateRepositorySpec}
    {nodeGroups : BTreeMap String String} {nodeDeployments : BTreeMap String DesiredDeployment}
    {plan : PublicationPlan}
    (ok : buildPublicationPlan repository nodeGroups nodeDeployments = .ok plan) :
    plan.nodeGroups = nodeGroups ∧ nodeGroups.keys = nodeDeployments.keys ∧
      (∀ node : String,
        plan.nodeAssignments[node]? = nodeDeployments[node]?.bind deploymentIdentity) ∧
      ∀ (node : String) (deployment : DesiredDeployment),
        nodeDeployments[node]? = some deployment → deploymentIdentity deployment ≠ none := by
  unfold buildPublicationPlan at ok
  dsimp only at ok
  split_ifs at ok with _ keys
  obtain ⟨build, ran, ok⟩ := Except.bind_ok_iff.mp ok
  cases ok
  have published : ∀ {node : String} {deployment : DesiredDeployment},
      nodeDeployments[node]? = some deployment →
        build.nodeAssignments[node]? = deploymentIdentity deployment ∧
          build.nodeAssignments[node]? ≠ none := fun found =>
    (addNode_local _).law_of_mem nodeDeployments.nodup_keys_toList ran
      (Std.ExtTreeMap.mem_toList_iff_getElem?_eq_some.mpr found)
  refine ⟨rfl, not_not.mp keys, fun node => ?_, fun node deployment found => ?_⟩
  · cases found : nodeDeployments[node]? with
    | none => exact (addNode_local _).view_of_not_mem ran (BTreeMap.not_mem_keys_toList found)
    | some deployment => exact (published found).1
  · exact (published found).1 ▸ (published found).2

end

end Updatedc

namespace Updatedc.Sample

open Contracts

/-- The spec of the sample deployment of this name. -/
def spec (name : String) : DeploymentSpec :=
  { name
    releaseRepository :=
      { metadataUrl := "https://h/", targetsUrl := "https://h/", rootJson := "" }
    application := (deployment name {}).application
    runtime :=
      { product := "p"
        channel := "c"
        installRoot := "/"
        repository := ⟨1, 1, 1⟩
        storage := ⟨1, 1, 1⟩
        timeouts := ⟨1, 1, 1, 1, 1, 1⟩ } }

end Updatedc.Sample
