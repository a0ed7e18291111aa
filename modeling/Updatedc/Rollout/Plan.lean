import Updatedc.Rollout.Admission
import Updatedc.Rollout.Assign

/-!
# Planning one pass (`updatec/src/rollout.rs:324–400, 813–1114, 1885–1995`)

`planRollouts` runs in the order of the source: retirement, evidence, verdict and rollback
response (`judge`), then admission, then the assignment and the projections of the outcome. What
it decides before admission is one record, `Judgement`, so that a property of the pass can speak
of the state admission started from.
-/

namespace Updatedc

open Contracts

/-! ## Inputs and results -/

structure RolloutInputs where
  groups : BTreeMap String ResolvedGroup
  groupLabels : BTreeMap String Labels
  /-- The group each planned node is routed to. -/
  nodeGroups : BTreeMap String String
  reports : BTreeMap String Envelope
  publicKeys : BTreeMap String P256PublicKey
  /-- The identity each node was last published. -/
  published : BTreeMap String Sha256
  /-- The admitted state of quarantined groups. -/
  held : Admitted
  holds : Finset String
  cordons : Finset String
  blockedDeployments : Finset Sha256
  defaultDeployment : DesiredDeployment

/-- The deployment each planned group asks for. -/
def RolloutInputs.desired (self : RolloutInputs) : BTreeMap String DesiredDeployment :=
  self.groups.map fun _ group => group.deployment

structure SetStatus where
  name : String
  memberCount : Nat
  maxConcurrent : Nat
  rolling : List String
  settled : List String
  failed : List String
  unobservable : List String
  shared : List String
  emergency : List String
  frozen : Bool
  calendarExhausted : Bool
  halted : List HaltedDeployment
  deriving DecidableEq

structure GroupNodes where
  total : Nat
  onTarget : Nat
  fresh : Nat
  observable : Nat
  held : Nat
  target : Option Sha256
  deriving DecidableEq

structure RolloutPlan where
  sets : List SetStatus
  nodeDeployments : BTreeMap String DesiredDeployment
  groups : BTreeMap String GroupProgress
  nodeCounts : BTreeMap String GroupNodes
  haltedGroups : BTreeMap String HaltedDeployment
  /-- Every identity movement was refused onto. -/
  blocked : Finset Sha256

variable [Crates]

/-! ## Before admission -/

/-- What the pass has decided when admission starts. -/
structure Judgement where
  observations : Observations
  /-- The evidence memory, with this pass's claims folded in and bounded to live identities. -/
  log : ObservationLog
  /-- The admitted state after retirement, which the verdict reads. -/
  retained : Admitted
  /-- The vetoes the verdict reads: those of live identities. -/
  standing : BTreeMap Sha256 VetoedDeployment
  regressions : Regressions
  movement : MovementVerdict
  /-- The admitted state after the rollback response. -/
  admitted : Admitted
  vetoed : BTreeMap Sha256 VetoedDeployment

/-- Milliseconds since the epoch, none before it. -/
def DateTime.timestampMillis (now : DateTime) : Nat := (now / 1000000).toNat

/-- The pass's one reading of the fleet, over the freshly warmed cache. -/
def RolloutInputs.observations (self : RolloutInputs) (verified : VerifiedReports)
    (now : DateTime) : Observations where
  nodeGroups := self.nodeGroups
  reports := self.reports
  publicKeys := self.publicKeys
  published := self.published
  cordons := self.cordons
  nowMs := now.timestampMillis
  verified := verified.verifyFleet self.reports self.publicKeys
  warm _ _ _ := verified.authentic_verifyFleet self.reports self.publicKeys

/-- Retire what deleted groups and finished rollouts no longer need. -/
def retain (admitted : Admitted) (desired : BTreeMap String DesiredDeployment)
    (observations : Observations) : Admitted :=
  finishStagedRollouts (retireDeletedGroups admitted desired observations) desired observations

/-- The identities some generation still names. -/
def liveIdentities (admitted : Admitted) (desired : BTreeMap String DesiredDeployment) :
    Finset Sha256 :=
  ((admitted.values.flatMap AdmittedDeployment.bodies ++ desired.values).filterMap
    deploymentIdentity).toFinset

/-- Fold each planned node's own standing claim into the memory. -/
def noteClaims (observations : Observations) (log : ObservationLog) : ObservationLog :=
  observations.nodeGroups.keys.foldl
    (fun log node =>
      match observations.claimsRejection node with
      | some identity => log.noteRejection node identity
      | none => log)
    log

def judge (sets : List UpdateGroupSet) (inputs : RolloutInputs) (admitted : Admitted)
    (vetoed : BTreeMap Sha256 VetoedDeployment) (log : ObservationLog)
    (verified : VerifiedReports) (now : DateTime) : Judgement :=
  let desired := inputs.desired
  let observations := inputs.observations verified now
  let retained := retain admitted desired observations
  let live := liveIdentities retained desired
  let log := (noteClaims observations (log.noteReported inputs.reports.keys)).pruneIdentities live
  let standing := vetoed.filter fun identity _ => identity ∈ live
  let regressions := regressionVerdict sets desired inputs.groupLabels retained log standing
  let blocked := inputs.blockedDeployments ∪ regressions.halts.keys.toFinset
  let response := rollbackResponse sets desired inputs.groupLabels observations regressions blocked
    retained standing
  { observations, log, retained, standing, regressions
    movement := { proofs := regressions.proofs, blocked }
    admitted := response.1
    vetoed := response.2 }

/-! ## Projections of the outcome -/

/-- A halted identity as a status reports it. -/
def haltedDeployment (regressions : Regressions) (vetoed : BTreeMap Sha256 VetoedDeployment)
    (identity : Sha256) : Option HaltedDeployment :=
  regressions.halts[identity]?.map fun (deployment, evidence) =>
    { deployment, evidence := asU32 evidence, rolledBack := vetoed.contains identity }

/-- The groups a halted identity binds, the default cohort under its reserved name. -/
def haltedGroups (inputs : RolloutInputs) (regressions : Regressions) (admitted : Admitted)
    (vetoed : BTreeMap Sha256 VetoedDeployment) : BTreeMap String HaltedDeployment :=
  let named := inputs.desired.keys.map fun name =>
    (name, namedIdentities name inputs.desired admitted)
  let cohort := (defaultGroup, (deploymentIdentity inputs.defaultDeployment).toList)
  .ofList ((named ++ [cohort]).filterMap fun (name, identities) =>
    (identities.findSome? (haltedDeployment regressions vetoed)).map (name, ·))

/-- One set's projection of the fleet-wide verdict. -/
def setHalts (inputs : RolloutInputs) (regressions : Regressions) (admitted : Admitted)
    (vetoed : BTreeMap Sha256 VetoedDeployment) (plan : SetPlan) : List HaltedDeployment :=
  let named := plan.members.flatMap fun member => namedIdentities member inputs.desired admitted
  (regressions.halts.keys.filter named.contains).filterMap (haltedDeployment regressions vetoed)

structure SetStatusContext where
  plans : List SetPlan
  groupProgress : BTreeMap String GroupProgress
  slotHolders : List String
  emergency : List String
  now : DateTime

def buildStatus (context : SetStatusContext) (set : UpdateGroupSet) (plan : SetPlan)
    (halted : List HaltedDeployment) : SetStatus :=
  let verdict (name : String) := context.groupProgress[name]?
  { name := set.name
    memberCount := plan.members.length
    maxConcurrent := plan.maxConcurrent
    -- Listed by the slot it occupies, not by its verdict: the two disagree in both directions.
    rolling := plan.members.filter fun name =>
      (verdict name = some .held || verdict name = some .rolling || verdict name = some .blocked)
        && context.slotHolders.contains name
    settled := plan.members.filter (verdict · = some .settled)
    failed := plan.members.filter (verdict · = some .failed)
    unobservable := plan.members.filter (verdict · = some .unobservable)
    shared := plan.members.filter (governing context.plans · > 1)
    emergency := plan.members.filter context.emergency.contains
    frozen := plan.frozen
    calendarExhausted := calendarExhausted set.calendar context.now
    halted }

def buildStatuses (context : SetStatusContext) (sets : List UpdateGroupSet)
    (halts : List (List HaltedDeployment)) : List SetStatus :=
  (sets.zip (context.plans.zip halts)).map fun (set, plan, halted) =>
    buildStatus context set plan halted

/-- The counts of one group; cordoned nodes are absent from the freshness accounting. -/
def groupNodes (judged : Judgement) (holds : Finset String) (admitted : Admitted)
    (name : String) : GroupNodes :=
  let observations := judged.observations
  let nodes := observations.nodes name
  let present := nodes.filter (· ∉ observations.cordons)
  let target := admitted[name]?.bind fun state => deploymentIdentity state.current
  { total := nodes.length
    onTarget := target.elim 0 fun identity => nodes.countP (observations.advanced · identity)
    fresh := present.countP fun node => (observations.report node).isSome
    observable := present.countP fun node =>
      observations.publicKeys.contains node && judged.log.hasReported node
    held := nodes.countP (· ∈ holds)
    target }

/-! ## The pass -/

/-- The plan together with the state the pass leaves behind. -/
structure RolloutOutcome where
  plan : RolloutPlan
  admitted : Admitted
  vetoed : BTreeMap Sha256 VetoedDeployment
  log : ObservationLog
  verified : VerifiedReports

/-- Admission from a judgement. -/
def Judgement.sweep (self : Judgement) (sets : List UpdateGroupSet) (inputs : RolloutInputs)
    (now : DateTime) : Sweep :=
  admitPending inputs.groups inputs.desired
    (buildSetPlans sets inputs.desired inputs.groupLabels self.admitted self.observations
      self.movement now)
    self.admitted self.observations self.movement

/-- Everything the pass reports, from the judgement and the state after admission. -/
def Judgement.plan (self : Judgement) (sets : List UpdateGroupSet) (inputs : RolloutInputs)
    (sweep : Sweep) (now : DateTime) : RolloutPlan :=
  let desired := inputs.desired
  let groups := desired.map fun name _ =>
    classify name desired sweep.admitted self.observations self.movement
  let context : SetStatusContext :=
    { plans := sweep.plans
      groupProgress := groups
      slotHolders := desired.keys.filter
        (self.observations.holdsSlot sweep.admitted self.movement)
      emergency := (inputs.groups.filter fun _ group => group.emergencyCorrection).keys
      now }
  let halts := sweep.plans.map (setHalts inputs self.regressions sweep.admitted self.vetoed)
  { sets := buildStatuses context sets halts
    nodeDeployments := assignNodes inputs.groups sweep.admitted inputs.held self.observations
      inputs.holds self.movement.blocked
    groups
    nodeCounts := .ofList ((desired.keys ++ [defaultGroup]).map fun name =>
      (name, groupNodes self inputs.holds sweep.admitted name))
    haltedGroups := haltedGroups inputs self.regressions sweep.admitted self.vetoed
    blocked := self.movement.blocked }

def planRollouts (sets : List UpdateGroupSet) (inputs : RolloutInputs) (admitted : Admitted)
    (vetoed : BTreeMap Sha256 VetoedDeployment) (log : ObservationLog)
    (verified : VerifiedReports) (now : DateTime) : RolloutOutcome :=
  let judged := judge sets inputs admitted vetoed log verified now
  let sweep := judged.sweep sets inputs now
  { plan := judged.plan sets inputs sweep now
    admitted := sweep.admitted
    vetoed := judged.vetoed
    log := judged.log
    verified := judged.observations.verified }

end Updatedc
