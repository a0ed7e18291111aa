import Updatedc.Domain.Reconcile

/-!
# The controller across passes (`updatec/src/runtime/reconcile.rs:519–1060`)

`reconcile_once` reads the cluster, sorts its resources into what can be planned and what is
quarantined, runs the pure planner against the durable state, and makes the plan durable once its
generation is published. Storage, signing and status writes are outside; whether they let a plan
become durable is the pass's `committed`. A pass may also find the process freshly started, with
nothing remembered.
-/

namespace Updatedc

open Contracts

/-! ## Resources -/

/-- A pinned key as a resource spells it: the canonical spelling of a key, or none's. -/
inductive KeyText where
  | point (key : P256PublicKey)
  | other (text : String)
  deriving DecidableEq

/-- `P256PublicKey::parse_hex`. -/
def KeyText.parseHex : KeyText → Option P256PublicKey
  | point key => some key
  | other _ => none

inductive AgentIdentityKind where
  | manual | reserved | enrolled
  deriving DecidableEq

structure AgentIdentity where
  kind : AgentIdentityKind
  registrationSha256 : Option DigestText := none
  publicKey : Option KeyText := none
  deriving DecidableEq

structure UpdateAgent where
  identity : AgentIdentity
  labels : Labels := ∅
  hold : Bool := false
  cordon : Bool := false

structure UpdateGroup where
  labels : Labels := ∅
  matchLabels : Labels
  dependsOn : List String := []
  inputs : BTreeMap String GroupOutputReference := ∅
  deployment : DeploymentSpec
  maxUnavailable : Option Nat := none
  emergencyCorrection : Bool := false

/-- What the operator declares: the specs of one repository. -/
structure Cluster where
  repository : UpdateRepositorySpec
  groups : BTreeMap String UpdateGroup
  sets : List UpdateGroupSet
  agents : BTreeMap String UpdateAgent

/-- The rollout state that survives the process. -/
structure DurableRolloutState where
  admitted : Admitted := ∅
  vetoed : BTreeMap Sha256 VetoedDeployment := ∅
  routing : BTreeMap String String := ∅
  assignments : BTreeMap String Sha256 := ∅

/-- Everything else a pass depends on. -/
structure Surroundings where
  reports : BTreeMap String Envelope
  outputs : BTreeMap String ExactOutputPublication := ∅
  dataflowKey : Bytes := []
  /-- The identities the external admission policy blocks. -/
  blockedDeployments : Finset Sha256 := ∅
  now : DateTime
  /-- The process has just started. -/
  restarted : Bool := false
  /-- The plan, if there is one, was published and recorded. -/
  committed : Bool := true

structure Pass where
  cluster : Cluster
  surroundings : Surroundings

variable [Crates]

/-! ## What can be planned -/

/-- Whether the identity has the one valid shape for its kind and node name. -/
def AgentIdentity.isWellFormedFor (self : AgentIdentity) (node : String) : Bool :=
  let publicKeyIsValid := (self.publicKey.bind KeyText.parseHex).isSome
  match self.kind with
  | .manual => self.registrationSha256.isNone && publicKeyIsValid
  | .reserved => self.registrationSha256.isNone && self.publicKey.isNone
  | .enrolled =>
    self.registrationSha256 == some (.canonical (sha256 node.toUTF8.data.toList))
      && publicKeyIsValid

/-- Why a group cannot be planned. -/
inductive Quarantine where
  | reservedName
  | emptySelector
  | invalidDeployment (error : String)
  | invalidMaxUnavailable
  | invalidDependencies (message : String)
  deriving DecidableEq

/-- One group on its own, before its dependency wiring is looked at. -/
def UpdateGroup.resolve (self : UpdateGroup) (name : String) :
    Except Quarantine ResolvedGroup :=
  if name = defaultGroup then .error .reservedName
  else if self.matchLabels.isEmpty then .error .emptySelector
  else do
    let deployment ← (DesiredDeployment.tryFrom self.deployment).mapError .invalidDeployment
    if self.maxUnavailable = some 0 then .error .invalidMaxUnavailable
    else return {
      name
      matchLabels := self.matchLabels
      dependsOn := self.dependsOn
      inputs := self.inputs
      deployment
      maxUnavailable := self.maxUnavailable.getD 1
      emergencyCorrection := self.emergencyCorrection }

variable {group : ResolvedGroup}

/-- A resolved group carries the name it was resolved under. -/
theorem UpdateGroup.name_of_resolve {self : UpdateGroup} {name : String}
    (ok : self.resolve name = .ok group) : group.name = name := by
  unfold UpdateGroup.resolve at ok
  split_ifs at ok
  all_goals obtain ⟨deployment, -, ok⟩ := Except.bind_ok_iff.mp ok
  · cases ok
  · cases ok
    rfl

namespace Cluster

variable (self : Cluster)

/-- The groups valid on their own. -/
def valid : BTreeMap String ResolvedGroup :=
  self.groups.filterMap fun name group => (group.resolve name).toOption

/-- Every group that cannot be planned, with the reason: its own spec, or its wiring. -/
def quarantines : BTreeMap String Quarantine :=
  let broken := self.groups.filter fun name _ => !self.valid.contains name
  let violations := dependencyViolations self.valid broken.keys.toFinset
  self.groups.filterMap fun name group =>
    match group.resolve name with
    | .error reason => some reason
    | .ok _ => violations[name]?.map .invalidDependencies

/-- The groups this pass plans. -/
def planned : BTreeMap String ResolvedGroup :=
  self.valid.filter fun name _ => !self.quarantines.contains name

theorem getElem?_planned {name : String} (planned : self.planned[name]? = some group) :
    self.valid[name]? = some group ∧ self.quarantines.contains name = false := by
  rw [Cluster.planned, BTreeMap.getElem?_filter_key] at planned
  split_ifs at planned with free
  exact ⟨planned, by simpa using free⟩

theorem name_of_planned {name : String} (planned : self.planned[name]? = some group) :
    group.name = name := by
  have valid := (self.getElem?_planned planned).1
  rw [Cluster.valid, Std.ExtTreeMap.getElem?_filterMap'] at valid
  obtain ⟨spec, -, resolved⟩ := Option.bind_eq_some_iff.mp valid
  exact UpdateGroup.name_of_resolve (Except.toOption_eq_some_iff.mp resolved)

/-- The agents whose name and identity can be used; the rest are left out of the pass. -/
def wellFormedAgents : BTreeMap String UpdateAgent :=
  self.agents.filter fun node agent =>
    agent.identity.isWellFormedFor node && (ResourceName.new? node).isSome

/-- The planner's desired state, with the pins of quarantined groups from the durable state. -/
def desired (durable : DurableRolloutState) (blockedDeployments : Finset Sha256) :
    DesiredState where
  repository := self.repository
  groups := self.planned
  groupLabels := (self.groups.filter fun name _ => self.planned.contains name).map fun _ group =>
    group.labels
  sets := self.sets
  nodes := self.wellFormedAgents.toList.map fun (name, agent) => { name, labels := agent.labels }
  quarantined := (self.groups.filter fun name _ => self.quarantines.contains name).map
    fun _ group => group.matchLabels
  holds := (self.wellFormedAgents.filter fun _ agent => agent.hold).keys.toFinset
  -- Collected before agents are dropped: a malformed one is still benched.
  cordons := (self.agents.filter fun _ agent => agent.cordon).keys.toFinset
  blockedDeployments
  held := durable.admitted.filter fun name _ => self.quarantines.contains name
  named _ planned := self.name_of_planned
    (Std.ExtTreeMap.mem_toList_iff_getElem?_eq_some.mp planned)

/-- The key pinned for each agent. -/
def publicKeys : BTreeMap String P256PublicKey :=
  self.wellFormedAgents.filterMap fun _ agent => agent.identity.publicKey.bind KeyText.parseHex

end Cluster

/-! ## Passes and runs -/

/-- The planner's observed state. -/
def Pass.observed (self : Pass) (durable : DurableRolloutState) : ObservedState where
  reports := self.surroundings.reports
  outputs := self.surroundings.outputs
  dataflowKey := self.surroundings.dataflowKey
  publicKeys := self.cluster.publicKeys
  admitted := durable.admitted
  vetoed := durable.vetoed
  routing := durable.routing
  assignments := durable.assignments
  now := self.surroundings.now

/-- What the plan makes durable. -/
def ReconcilePlan.durable (self : ReconcilePlan) : DurableRolloutState :=
  { admitted := self.admitted
    vetoed := self.vetoed
    routing := self.routing
    assignments := self.assignments }

def Memory.empty : Memory := ⟨{}, .empty⟩

/-- Forget the nodes that left the fleet. -/
def Memory.prune (self : Memory) (fleet : String → Bool) : Memory :=
  ⟨self.log.pruneNodes fleet, self.verified.pruneNodes fleet⟩

structure Controller where
  durable : DurableRolloutState
  memory : Memory

def Controller.initial : Controller := ⟨{}, .empty⟩

namespace Controller

variable (self : Controller)

/-- What the process remembers when the pass's planner starts. -/
def remembered (pass : Pass) : Memory :=
  let memory := if pass.surroundings.restarted then .empty else self.memory
  memory.prune pass.cluster.agents.contains

/-- The pure planner on one pass. -/
def plan (pass : Pass) : Except PlanError ReconcilePlan × Memory :=
  planReconcile (pass.cluster.desired self.durable pass.surroundings.blockedDeployments)
    (pass.observed self.durable) (self.remembered pass)

/-- One pass. A plan that fails, or that is never recorded, leaves the durable state alone. -/
def step (pass : Pass) : Controller :=
  let (result, memory) := self.plan pass
  match result with
  | .ok plan =>
    { durable := if pass.surroundings.committed then plan.durable else self.durable, memory }
  | .error _ => { durable := self.durable, memory }

/-- The controller after a run of passes. -/
def run (passes : List Pass) : Controller := passes.foldl step self

end Controller

end Updatedc

namespace Updatedc.Sample

open Contracts

def labelled (value : String) : Labels := table [("r", value)]

/-- An agent that can report, with this label. -/
def agent (value : String) : UpdateAgent :=
  { identity := { kind := .manual, publicKey := some (.point ⟨[1]⟩) }
    labels := labelled value }

/-- A group over the agents with this label that asks for the sample deployment `body`. -/
def updateGroup (value body : String) (dependsOn : List String) : UpdateGroup :=
  { matchLabels := labelled value, dependsOn, deployment := spec body }

/-- A repository whose default deployment is `default`. -/
def cluster (default : String) (sets : List UpdateGroupSet) (groups : List (String × UpdateGroup))
    (agents : List (String × UpdateAgent)) : Cluster where
  repository := { defaultDeployment := spec default, assignmentPrefix := "p" }
  groups := table groups
  sets
  agents := table agents

/-- A pass with these reports, at the first second. -/
def reporting (cluster : Cluster) (reports : List (String × Envelope)) : Pass :=
  ⟨cluster, { reports := table reports, now := 1000000000 }⟩

end Updatedc.Sample
