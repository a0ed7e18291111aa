import Updatedc.Evidence

/-!
# What one pass can say about nodes and groups (`updatec/src/rollout.rs:38–779`)

Every gate of the planner reads the fleet through `Observations`: what was published to a node,
what its fresh authentic report says, and how far a group's rollout has come. An `Observations`
carries the proof that its report cache is warm, so that its `report` is simply the fresh
authentic report of the node (`report_eq_freshReport`).
-/

namespace Updatedc

open Contracts

/-- Durable group rollout state: what the group is rolling toward, and every deployment its nodes
may still be held on, most recent first. -/
structure AdmittedDeployment where
  current : DesiredDeployment
  previous : List DesiredDeployment := []
  deriving DecidableEq

/-- Every body this entry stores. -/
def AdmittedDeployment.bodies (self : AdmittedDeployment) : List DesiredDeployment :=
  self.current :: self.previous

abbrev Admitted := BTreeMap String AdmittedDeployment

/-- What the control plane can say about one group relative to what the operator asked for. -/
inductive GroupProgress where
  | held | rolling | blocked | settled | failed | unobservable
  deriving DecidableEq

/-- Only a rollout that actually landed opens a gate. -/
def GroupProgress.satisfiesDependency : GroupProgress → Bool
  | settled => true
  | _ => false

/-- What is known about one node's state relative to one deployment identity. -/
inductive NodeEvidence where
  /-- A fresh report says it acts on this exact assignment and is healthy. -/
  | healthy
  /-- A fresh report says it acts on this exact assignment and is not. -/
  | broken
  /-- Its reports can be verified and none places it here. -/
  | silent
  /-- No pinned key: no report of it is evidence of anything. -/
  | blind
  deriving DecidableEq

/-- Whether this node counts against the group's `maxUnavailable` budget. -/
def NodeEvidence.unavailable : NodeEvidence → Bool
  | broken | silent => true
  | healthy | blind => false

/-- The one movement verdict: the standing rejection proofs, and every identity movement may not
enter. -/
structure MovementVerdict where
  proofs : BTreeMap Sha256 (Finset String)
  blocked : Finset Sha256

/-! ## Group observations -/

/-- What one walk of a group's nodes saw, before it is collapsed into a verdict. -/
structure GroupObservation where
  /-- Some node is still moving, or can still be moved, toward the admitted deployment. -/
  moving : Bool := false
  /-- Some node durably rejected it. -/
  failed : Bool := false
  /-- Some node has not been handed it and never will be while the halt stands. -/
  blocked : Bool := false
  /-- Some node can produce evidence at all. -/
  observable : Bool := false
  /-- Its identity is refused movement this pass. -/
  halted : Bool := false
  deriving DecidableEq

namespace GroupObservation

variable (self : GroupObservation)

def verdict : GroupProgress :=
  match self.moving, self.failed, self.blocked, self.observable with
  | true, _, _, _ => .rolling
  | false, true, _, _ => .failed
  | false, false, true, _ => .blocked
  | false, false, false, true => .settled
  | false, false, false, false => .unobservable

/-- Whether this group occupies one of its set's concurrency slots. -/
def holdsSlot : Bool :=
  !self.halted && self.verdict == .rolling

theorem verdict_settled_iff :
    self.verdict = .settled ↔
      self.moving = false ∧ self.failed = false ∧ self.blocked = false ∧
        self.observable = true := by
  obtain ⟨moving, failed, blocked, observable, halted⟩ := self
  cases moving <;> cases failed <;> cases blocked <;> cases observable <;> decide +revert

end GroupObservation

/-- Where the walk of `observe` files one node. -/
inductive NodeSight where
  /-- Cordoned: absent from the verdict. -/
  | absent
  /-- It durably rejected the deployment. -/
  | rejected
  /-- Not handed it, and movement onto it is refused. -/
  | refused
  /-- Not handed it yet. -/
  | pending
  /-- Healthy on it and running what it installs. -/
  | committed
  /-- Handed it and not there yet. -/
  | inFlight
  /-- Handed it, and blind. -/
  | unseen
  deriving DecidableEq

/-! ## Observations -/

/-- The node's fresh authentic report, read without any cache. -/
def freshReport [Crates] (reports : BTreeMap String Envelope)
    (publicKeys : BTreeMap String P256PublicKey) (now : Nat) (node : String) :
    Option NodeReport := do
  let envelope ← reports[node]?
  let key ← publicKeys[node]?
  let report ← authenticateReport envelope node key
  report.fresh now

structure Observations [Crates] where
  nodeGroups : BTreeMap String String
  reports : BTreeMap String Envelope
  publicKeys : BTreeMap String P256PublicKey
  /-- The deployment identity the last signed generation handed each node. -/
  published : BTreeMap String Sha256
  cordons : Finset String
  nowMs : Nat
  verified : VerifiedReports
  warm : ∀ (node : String) (envelope : Envelope) (key : P256PublicKey),
    reports[node]? = some envelope → publicKeys[node]? = some key →
      verified.authentic node envelope key = authenticateReport envelope node key

namespace Observations

variable [Crates] (self : Observations)

/-- This node's report, or nothing when there is nothing trustworthy to read right now. -/
def report (node : String) : Option NodeReport := do
  let envelope ← self.reports[node]?
  let key ← self.publicKeys[node]?
  self.verified.fresh node envelope key self.nowMs

theorem report_eq_freshReport (node : String) :
    self.report node = freshReport self.reports self.publicKeys self.nowMs node := by
  unfold report freshReport
  cases envelope : self.reports[node]? with
  | none => rfl
  | some e =>
    cases key : self.publicKeys[node]? with
    | none => rfl
    | some k => simp [VerifiedReports.fresh, self.warm node e k envelope key]

/-- What is known about `node` relative to the assignment `identity` names. -/
def evidence (node : String) (identity : DigestText) : NodeEvidence :=
  if !self.publicKeys.contains node then .blind
  else
    match self.report node with
    | some report =>
      if report.assignmentSha256 = identity then
        if report.healthy then .healthy else .broken
      else .silent
    | none => .silent

/-- Only a node without a pinned key is blind. -/
theorem evidence_eq_blind_iff {node : String} {identity : DigestText} :
    self.evidence node identity = .blind ↔ self.publicKeys.contains node = false := by
  unfold evidence
  cases keyed : self.publicKeys.contains node with
  | false => simp
  | true =>
    simp only [Bool.not_true, Bool.false_eq_true, if_false, Bool.true_eq_false, iff_false]
    cases self.report node with
    | none => exact nofun
    | some report =>
      by_cases here : report.assignmentSha256 = identity <;>
        cases well : report.healthy <;> simp [here, well]

variable (group : String)

/-- The nodes this group selects, in a stable order. -/
def nodes : List String :=
  self.nodeGroups.toList.filterMap fun (node, selected) =>
    if selected = group then some node else none

theorem mem_nodes {group node : String} :
    node ∈ self.nodes group ↔ self.nodeGroups[node]? = some group := by
  simp only [nodes, List.mem_filterMap, Prod.exists,
    Std.ExtTreeMap.mem_toList_iff_getElem?_eq_some]
  constructor
  · rintro ⟨name, selected, routed, found⟩
    split at found
    · next same => cases found; exact same ▸ routed
    · cases found
  · intro routed
    exact ⟨node, group, routed, by simp⟩

/-- Whether any node this group selects is already published. -/
def anyNodePublished : Bool :=
  (self.nodes group).any self.published.contains

/-- What the last generation handed this node, or failing that what it reports acting on. -/
def placement (node : String) : Option DigestText :=
  match self.published[node]? with
  | some identity => some (.canonical identity)
  | none => (self.report node).map (·.assignmentSha256)

/-- Whether the last generation already handed `identity` to this node, or the node itself reports
acting on it. -/
def advanced (node : String) (identity : Sha256) : Bool :=
  self.published[node]? = some identity
    || (self.report node).any (·.assignmentSha256 = .canonical identity)

/-- Whether this node proves it has converged on exactly `deployment`. -/
def converged (node : String) (identity : Sha256) (deployment : DesiredDeployment) : Bool :=
  (self.report node).any fun report =>
    match deployment.application.targetReference with
    | .ok reference => report.isConvergedTo (.canonical identity) reference.sha256
    | .error _ => false

/-- File one node against the admitted `current`. -/
def sight (current : DesiredDeployment) (identity : Sha256) (halted : Bool)
    (rejected : Finset String) (node : String) : NodeSight :=
  if node ∈ self.cordons then .absent
  else if node ∈ rejected then .rejected
  else if !self.advanced node identity then if halted then .refused else .pending
  else
    match self.evidence node (.canonical identity) with
    | .healthy => if self.converged node identity current then .committed else .inFlight
    | .broken | .silent => .inFlight
    | .blind => .unseen

/-- What each way of filing a node says about it. -/
inductive SightCase (current : DesiredDeployment) (identity : Sha256) (rejected : Finset String)
    (node : String) : NodeSight → Prop
  | absent (out : node ∈ self.cordons) : SightCase current identity rejected node .absent
  | rejected (proven : node ∈ rejected) : SightCase current identity rejected node .rejected
  | refused (elsewhere : self.advanced node identity = false) :
    SightCase current identity rejected node .refused
  | pending (elsewhere : self.advanced node identity = false) :
    SightCase current identity rejected node .pending
  | committed (present : node ∉ self.cordons) (unproven : node ∉ rejected)
      (handed : self.advanced node identity = true)
      (keyed : self.publicKeys.contains node = true)
      (converged : self.converged node identity current = true) :
    SightCase current identity rejected node .committed
  | inFlight (handed : self.advanced node identity = true)
      (keyed : self.publicKeys.contains node = true) :
    SightCase current identity rejected node .inFlight
  | unseen (present : node ∉ self.cordons) (handed : self.advanced node identity = true)
      (blind : self.publicKeys.contains node = false) :
    SightCase current identity rejected node .unseen

theorem sight_cases (current : DesiredDeployment) (identity : Sha256) (halted : Bool)
    (rejected : Finset String) (node : String) :
    self.SightCase current identity rejected node
      (self.sight current identity halted rejected node) := by
  unfold sight
  by_cases out : node ∈ self.cordons
  · rw [if_pos out]
    exact .absent out
  by_cases proven : node ∈ rejected
  · rw [if_neg out, if_pos proven]
    exact .rejected proven
  rw [if_neg out, if_neg proven]
  cases handed : self.advanced node identity with
  | false =>
    cases halted with
    | true => exact .refused handed
    | false => exact .pending handed
  | true =>
    have keyed : self.evidence node (.canonical identity) ≠ .blind →
        self.publicKeys.contains node = true := fun sees =>
      Bool.eq_true_of_not_eq_false fun blind => sees (self.evidence_eq_blind_iff.mpr blind)
    simp only [Bool.not_true, Bool.false_eq_true, if_false]
    cases evidence : self.evidence node (.canonical identity) with
    | healthy =>
      dsimp only
      split
      · next converged => exact .committed out proven handed (keyed (by simp [evidence])) converged
      · exact .inFlight handed (keyed (by simp [evidence]))
    | broken | silent => exact .inFlight handed (keyed (by simp [evidence]))
    | blind => exact .unseen out handed (self.evidence_eq_blind_iff.mp evidence)

/-- Walk this group's nodes once and record what was seen. -/
def observe (state : AdmittedDeployment) (movement : MovementVerdict) : GroupObservation :=
  match deploymentIdentity state.current with
  | none => {}
  | some identity =>
    let halted := decide (identity ∈ movement.blocked)
    let rejected := movement.proofs[identity]?.getD ∅
    let sights := (self.nodes group).map (self.sight state.current identity halted rejected)
    { moving := sights.any fun sight => sight = .pending || sight = .inFlight
      failed := sights.any fun sight => sight = .rejected
      blocked := sights.any fun sight => sight = .refused
      observable := sights.any fun sight =>
        sight = .rejected || sight = .committed || sight = .inFlight
      halted }

def progress (state : AdmittedDeployment) (movement : MovementVerdict) : GroupProgress :=
  (self.observe group state movement).verdict

/-- Whether every uncordoned node of this group has already been handed `deployment`. -/
def fullyHanded (deployment : DesiredDeployment) : Bool :=
  match deploymentIdentity deployment with
  | none => false
  | some identity =>
    ((self.nodes group).filter (· ∉ self.cordons)).all (self.advanced · identity)

/-- The assignment this node's own signed report says it has durably rejected, at any age. -/
def claimsRejection (node : String) : Option DigestText := do
  let envelope ← self.reports[node]?
  let key ← self.publicKeys[node]?
  self.verified.rejectedAssignment node envelope key

/-- Whether any node in the fleet is still placed on `deployment`, whatever group it is in. -/
def placedAnywhere (deployment : DesiredDeployment) : Bool :=
  match deploymentIdentity deployment with
  | none => false
  | some identity => self.nodeGroups.keys.any (self.advanced · identity)

/-- Whether this group occupies a concurrency slot (`holds_slot`). -/
def holdsSlot (admitted : Admitted) (movement : MovementVerdict) (name : String) : Bool :=
  admitted[name]?.any fun state => (self.observe name state movement).holdsSlot

end Observations

/-- The one place a group's verdict is decided. -/
def classify [Crates] (name : String) (desired : BTreeMap String DesiredDeployment)
    (admitted : Admitted) (observations : Observations) (movement : MovementVerdict) :
    GroupProgress :=
  match admitted[name]? with
  | some state =>
    if desired[name]? = some state.current then observations.progress name state movement
    else .held
  | none => .held

end Updatedc
