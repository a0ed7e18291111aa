import Updatedc.Preflight.Landings

/-!
# Release preflight: packages (`updatec/src/preflight.rs:243–324`, `admission.rs:304–410`)

After the routes, the packages: every version a prepared rollout passes through must be allowed by
the admission policy and signed by its repository. The preflight is one for the whole generation,
so a single refusal withholds every assignment.

An admission verdict also blocks movement, deployment by deployment, in the planner. The two do
not agree on what a block concerns: a body a group asks for is prepared as soon as one free node
is not recorded on it, whether or not the plan may move anything onto it.
`packages_freezes_only_blocked_iff` says when a blocked body holds up everybody else: exactly when
a free node waits for it and admission refuses one of the versions prepared for it.
-/

namespace Updatedc

open Contracts

/-! ## Admission verdicts -/

inductive AdmissionVerdict where
  | compliant
  | nonCompliant
  | noInformation
  | pending
  deriving DecidableEq

inductive AdmissionAction where
  | allow
  | block
  deriving DecidableEq

structure AdmissionActions where
  nonCompliant : AdmissionAction
  noInformation : AdmissionAction

/-- The verdict of a pass. A package's subject is its digest and nothing else. -/
structure AdmissionEvaluation where
  policyName : Option String
  actions : Option AdmissionActions
  decisions : DigestText → Option AdmissionVerdict

/-- What a verdict comes to. -/
structure AdmissionStatus where
  allowed : Bool
  reason : String

namespace AdmissionEvaluation

def disabled : AdmissionEvaluation := ⟨none, none, fun _ => none⟩

/-- The one interpretation of a policy verdict. -/
def packageStatus (self : AdmissionEvaluation) (sha256 : DigestText) : Option AdmissionStatus :=
  self.policyName.map fun _ =>
    match self.actions, self.decisions sha256 with
    | some actions, some verdict =>
      match verdict with
      | .compliant => ⟨true, "Compliant"⟩
      | .nonCompliant =>
        if actions.nonCompliant = .allow then ⟨true, "NonCompliantAllowed"⟩
        else ⟨false, "NonCompliantBlocked"⟩
      | .noInformation =>
        if actions.noInformation = .allow then ⟨true, "NoInformationAllowed"⟩
        else ⟨false, "NoInformationBlocked"⟩
      | .pending => ⟨false, "DecisionPending"⟩
    | _, _ => ⟨false, "AdmissionUnavailable"⟩

/-- The reason a package is refused. -/
def refusal (self : AdmissionEvaluation) (sha256 : DigestText) : Option String :=
  ((self.packageStatus sha256).filter (!·.allowed)).map (·.reason)

end AdmissionEvaluation

/-! ## Repositories -/

/-- A target of authenticated metadata, with the platform its custom fields state. -/
structure VerifiedTarget where
  path : String
  sha256 : Sha256
  os : Option String
  arch : Option String

structure DefaultPolicy where
  product : String
  channel : String
  os : String
  arch : String

structure TrustedRepository where
  exactTarget : TargetReference → Except String VerifiedTarget
  verifyRelease : DefaultPolicy → (version : String) → TargetReference →
    Except String VerifiedTarget

/-- Everything `packages` asks the repositories' servers, and whether they answer in time. -/
structure ReleaseServers where
  /-- The digest of a deployment's repository locations, root and limits. -/
  repositoryKey : DesiredDeployment → Sha256
  loadReleaseRepository : DesiredDeployment → Except String TrustedRepository
  checkTargetsAvailable : List (Sha256 × VerifiedTarget) → Except String Unit
  withinBudget : Bool

/-! ## The preflight -/

inductive PackageError where
  /-- Admission refuses a version of this rollout. -/
  | refused (rollout : PreparedRollout) (error : PlanError)
  | failed (error : String)

/-- What the loop over the rollouts carries along: one repository per key, one target per object. -/
structure PackageChecks where
  repositories : BTreeMap Sha256 TrustedRepository := ∅
  targets : List (Sha256 × VerifiedTarget) := []

/-- One version: allowed, and signed as this version of this package. -/
def checkVersion (admission : AdmissionEvaluation) (repository : TrustedRepository)
    (policy : DefaultPolicy) (rollout : PreparedRollout) (version : String) :
    Except PackageError VerifiedTarget :=
  match rollout.deployment.application.releases[version]? with
  | none => .error (.failed s!"release {version} is not declared")
  | some release =>
    match admission.refusal release.package.sha256 with
    | some reason => .error (.refused rollout (.releasePreflight
        s!"deployment {rollout.deployment.deployment}"
        s!"release {version} is blocked by admission ({reason})"))
    | none => (repository.verifyRelease policy version release.package).mapError .failed

/-- The platform a target states, as the policy that selects releases for it. -/
def platformPolicy (deployment : DesiredDeployment) (target : VerifiedTarget) :
    Except PackageError DefaultPolicy :=
  match target.os, target.arch with
  | some os, some arch =>
    .ok { product := deployment.runtime.product, channel := deployment.runtime.channel, os, arch }
  | _, _ => .error (.failed "package platform metadata is missing")

/-- The versions to check: also the target's, which resolving a changed assignment needs even
where nobody has to move. -/
def PreparedRollout.allVersions (self : PreparedRollout) : List String :=
  (self.versions.insert self.deployment.application.target).toList

/-- The deployment's repository, loaded once per key. -/
def repositoryOf (servers : ReleaseServers) (checks : PackageChecks)
    (deployment : DesiredDeployment) : Except PackageError TrustedRepository :=
  match checks.repositories[servers.repositoryKey deployment]? with
  | some repository => .ok repository
  | none => (servers.loadReleaseRepository deployment).mapError .failed

/-- Keep one target per object. -/
def addTarget (key : Sha256) (targets : List (Sha256 × VerifiedTarget))
    (selected : VerifiedTarget) : List (Sha256 × VerifiedTarget) :=
  if targets.any fun (other, target) =>
      other = key && target.path = selected.path && target.sha256 = selected.sha256 then targets
  else targets ++ [(key, selected)]

def checkRollout (servers : ReleaseServers) (admission : AdmissionEvaluation)
    (checks : PackageChecks) (rollout : PreparedRollout) : Except PackageError PackageChecks := do
  let deployment := rollout.deployment
  let key := servers.repositoryKey deployment
  let repository ← repositoryOf servers checks deployment
  let reference ← deployment.application.targetReference.mapError .failed
  let target ← (repository.exactTarget reference).mapError .failed
  let policy ← platformPolicy deployment target
  let targets ← rollout.allVersions.foldlM
    (fun targets version => do
      let selected ← checkVersion admission repository policy rollout version
      return addTarget key targets selected)
    checks.targets
  return { repositories := checks.repositories.insert key repository, targets }

/-- Authenticate signed metadata and check required objects, without downloading bundles. -/
def packages (servers : ReleaseServers) (admission : AdmissionEvaluation)
    (plans : List PreparedRollout) : Except PackageError Unit :=
  if !servers.withinBudget then
    .error (.failed <| "release preflight exceeded its health-report freshness budget; " ++
      "no assignments published")
  else do
    let checks ← plans.foldlM (checkRollout servers admission) {}
    (servers.checkTargetsAvailable checks.targets).mapError .failed

/-! ## What a refusal says -/

section
variable {servers : ReleaseServers} {admission : AdmissionEvaluation}
  {checks after : PackageChecks} {rollout refused : PreparedRollout} {error : PlanError}
  {plans : List PreparedRollout}

/-- Admission refuses none of a rollout's versions. -/
def PreparedRollout.Allowed (rollout : PreparedRollout) (admission : AdmissionEvaluation) : Prop :=
  ∀ version ∈ rollout.allVersions, ∀ release,
    rollout.deployment.application.releases[version]? = some release →
      admission.refusal release.package.sha256 = none

/-- A check refuses nothing but the rollout it is about, and only if admission does. -/
def RefusesOnly (admission : AdmissionEvaluation) (rollout : PreparedRollout)
    (error : PackageError) : Prop :=
  ∀ refused reason, error = .refused refused reason →
    refused = rollout ∧ ¬ rollout.Allowed admission

theorem refusesOnly_checkVersion (repository : TrustedRepository) (policy : DefaultPolicy)
    {version : String} (listed : version ∈ rollout.allVersions) :
    Except.FailsOnly (RefusesOnly admission rollout)
      (checkVersion admission repository policy rollout version) := by
  unfold checkVersion
  split
  · exact .error fun _ _ same => nomatch same
  · next release found =>
    split
    · next reason refuses =>
      refine .error fun refused error same => ?_
      cases same
      refine ⟨rfl, fun allowed => ?_⟩
      rw [allowed version listed release found] at refuses
      cases refuses
    · exact .mapError fun _ _ _ same => nomatch same

theorem refusesOnly_failed {α : Type} {x : Except String α} :
    Except.FailsOnly (RefusesOnly admission rollout) (x.mapError .failed) :=
  .mapError fun _ _ _ same => nomatch same

theorem refusesOnly_checkRollout :
    Except.FailsOnly (RefusesOnly admission rollout)
      (checkRollout servers admission checks rollout) := by
  unfold checkRollout
  refine Except.FailsOnly.bind ?_ fun repository => ?_
  · unfold repositoryOf
    split
    · exact .ok _
    · exact refusesOnly_failed
  refine refusesOnly_failed.bind fun reference => refusesOnly_failed.bind fun target => ?_
  refine Except.FailsOnly.bind ?_ fun policy => ?_
  · unfold platformPolicy
    split
    · exact .ok _
    · exact .error fun _ _ same => nomatch same
  refine Except.FailsOnly.bind ?_ fun _ => .ok _
  exact .foldlM _ _ fun version listed targets =>
    (refusesOnly_checkVersion repository policy listed).bind fun _ => .ok _

/-- A refusal is about one of the rollouts, and admission refuses one of its versions. -/
theorem mem_of_refused
    (fails : packages servers admission plans = .error (.refused refused error)) :
    refused ∈ plans ∧ ¬ refused.Allowed admission := by
  have only : Except.FailsOnly (fun error => ∀ refused reason, error = .refused refused reason →
      refused ∈ plans ∧ ¬ refused.Allowed admission) (packages servers admission plans) := by
    unfold packages
    split_ifs
    · exact .error fun _ _ same => nomatch same
    · refine Except.FailsOnly.bind (.foldlM _ _ fun rollout member checks => ?_) fun _ =>
        .mapError fun _ _ _ same => nomatch same
      intro error failed refused reason same
      obtain ⟨rfl, forbidden⟩ := refusesOnly_checkRollout error failed refused reason same
      exact ⟨member, forbidden⟩
  exact only _ fails _ _ rfl

/-- The error is a refusal. -/
def IsRefusal (error : PackageError) : Prop := ∃ refused reason, error = .refused refused reason

/-- A policy changes nothing about the checks but what it refuses. -/
theorem sameUnless_checkRollout :
    Except.SameUnless IsRefusal (checkRollout servers admission checks rollout)
      (checkRollout servers .disabled checks rollout) := by
  have versions : ∀ repository policy version,
      Except.SameUnless IsRefusal (checkVersion admission repository policy rollout version)
        (checkVersion .disabled repository policy rollout version) := by
    intro repository policy version
    unfold checkVersion
    split
    · exact .refl _
    · next release found =>
      cases admission.refusal release.package.sha256 with
      | none => exact .refl _
      | some reason => exact .inr ⟨_, rfl, _, _, rfl⟩
  unfold checkRollout
  refine (Except.SameUnless.refl _).bind fun repository => (Except.SameUnless.refl _).bind
    fun reference => (Except.SameUnless.refl _).bind fun target =>
      (Except.SameUnless.refl _).bind fun policy => ?_
  refine Except.SameUnless.bind (.foldlM _ fun version targets => ?_) fun _ => .refl _
  exact (versions repository policy version).bind fun _ => .refl _

theorem sameUnless_packages :
    Except.SameUnless IsRefusal (packages servers admission plans)
      (packages servers .disabled plans) := by
  unfold packages
  split_ifs
  · exact .refl _
  · exact Except.SameUnless.bind (.foldlM _ fun rollout checks => sameUnless_checkRollout)
      fun _ => .refl _

/-- A rollout with a refused version fails the preflight of every rollout. -/
theorem packages_ne_ok_of_refused (member : rollout ∈ plans)
    (forbidden : ¬ rollout.Allowed admission) : packages servers admission plans ≠ .ok () := by
  intro ok
  unfold packages at ok
  split_ifs at ok
  obtain ⟨checks, checked, -⟩ := Except.bind_ok_iff.mp ok
  obtain ⟨before, after, turn⟩ := Except.ok_of_mem_foldlM checked member
  unfold checkRollout at turn
  obtain ⟨repository, -, turn⟩ := Except.bind_ok_iff.mp turn
  obtain ⟨reference, -, turn⟩ := Except.bind_ok_iff.mp turn
  obtain ⟨target, -, turn⟩ := Except.bind_ok_iff.mp turn
  obtain ⟨policy, -, turn⟩ := Except.bind_ok_iff.mp turn
  obtain ⟨targets, versions, -⟩ := Except.bind_ok_iff.mp turn
  refine forbidden fun version listed release found => ?_
  obtain ⟨_, _, passed⟩ := Except.ok_of_mem_foldlM versions listed
  obtain ⟨selected, passes, -⟩ := Except.bind_ok_iff.mp passed
  unfold checkVersion at passes
  rw [found] at passes
  cases refusal : admission.refusal release.package.sha256 with
  | none => rfl
  | some reason =>
    simp only [refusal] at passes
    cases passes

end

/-! ## What a block holds up -/

variable [Crates]

/-- A free node is meant to run a body of this identity, which is not the one recorded for it. -/
def Waits (desired : DesiredState) (observed : ObservedState) (plan : ReconcilePlan)
    (nodeGroups : BTreeMap String String) (default : DesiredDeployment) (identity : Sha256) :
    Prop :=
  ∃ node ∈ desired.nodes, desired.isFree nodeGroups node = true ∧
    deploymentIdentity (intendedDeployment plan default
      (nodeGroups[node.name]?.getD defaultGroup)) = some identity ∧
    observed.assignments[node.name]? ≠ some identity

/-- The publication moves a node onto a body of this identity. -/
def NewlyAssigned (observed : ObservedState) (plan : ReconcilePlan) (identity : Sha256) : Prop :=
  ∃ (node : String) (assigned : Sha256) (target : PublicationTarget)
    (deployment : DesiredDeployment), plan.publication.nodeAssignments[node]? = some assigned ∧
    observed.assignments[node]? ≠ some assigned ∧
    plan.publication.target? assigned = some target ∧
    RepositoryAssignment.fromBoundedJson target.bytes = .ok deployment ∧
    deploymentIdentity deployment = some identity

/-- The plan blocks the body, and moves nobody onto it. -/
def Frozen (observed : ObservedState) (plan : ReconcilePlan) (identity : Sha256) : Prop :=
  identity ∈ plan.blocked ∧ ¬ NewlyAssigned observed plan identity

/-- Admission refuses a version of this rollout, which the plan freezes and a free node waits
for. -/
def HoldsUp (desired : DesiredState) (observed : ObservedState) (plan : ReconcilePlan)
    (nodeGroups : BTreeMap String String) (default : DesiredDeployment)
    (admission : AdmissionEvaluation) (rollout : PreparedRollout) : Prop :=
  ∃ identity, deploymentIdentity rollout.deployment = some identity ∧
    Frozen observed plan identity ∧ Waits desired observed plan nodeGroups default identity ∧
    ¬ rollout.Allowed admission

section
variable {desired : DesiredState} {observed : ObservedState} {plan : ReconcilePlan}
  {verified : VerifiedReports} {nodeGroups : BTreeMap String String}
  {default : DesiredDeployment} {cohorts returns final : Pending} {identity : Sha256}

/-- Why a deployment is prepared: a node waits for it, it is a permitted restoration, or the
publication moves a node onto it. -/
theorem Routed.origin
    (routed : Routed desired observed plan verified nodeGroups default cohorts returns final)
    (member : identity ∈ final) :
    Waits desired observed plan nodeGroups default identity ∨ identity ∉ plan.blocked ∨
      NewlyAssigned observed plan identity := by
  let Known (pending : Pending) : Prop := ∀ identity ∈ pending,
    Waits desired observed plan nodeGroups default identity ∨ identity ∉ plan.blocked ∨
      NewlyAssigned observed plan identity
  have start : Known ∅ := fun identity member => by simp at member
  have moved : Known cohorts := by
    refine Except.keeps_foldlM routed.moves (fun node listed s t turn known => ?_) start
    unfold cohortStep at turn
    split_ifs at turn with free
    · obtain ⟨id, found, ⟨-, rfl⟩ | ⟨changes, _, _, rfl⟩⟩ := checkNode_cases turn
      · exact known
      · intro identity member
        rcases Pending.mem_prepare.mp member with rfl | before
        · exact .inl ⟨node, listed, free, found, changes⟩
        · exact known identity before
    · cases turn
      exact known
  have returned : Known returns := by
    refine Except.keeps_foldlM routed.restores (fun group _ s t turn known => ?_) moved
    rcases checkRollback_cases turn with rfl | ⟨_, id, _, -, unblocked, rfl⟩
    · exact known
    · intro identity member
      rcases Pending.mem_prepare.mp member with rfl | before
      · exact .inr (.inl unblocked)
      · exact known identity before
  have published : Known final := by
    refine Except.keeps_foldlM routed.publishes (fun entry listed s t turn known => ?_) returned
    rcases checkPublished_cases turn with ⟨-, rfl⟩ | ⟨changes, target, deployment, found, decodes,
      checked⟩
    · exact known
    · obtain ⟨id, identified, ⟨-, rfl⟩ | ⟨-, _, _, rfl⟩⟩ := checkNode_cases checked
      · exact known
      · intro identity member
        rcases Pending.mem_prepare.mp member with rfl | before
        · exact .inr (.inr ⟨entry.1, entry.2, target, deployment,
            Std.ExtTreeMap.mem_toList_iff_getElem?_eq_some.mp listed, changes, found, decodes,
            identified⟩)
        · exact known identity before
  exact published identity member

/-- **A block freezes only what it blocks, unless a node waits for it and admission refuses it.** A
refusal is about a frozen body only if some prepared rollout holds up the generation. And where the
servers serve everything and the policy allows every prepared rollout that is not frozen, this is
exact: if one holds it up the generation fails with such a refusal, and otherwise it passes. -/
theorem packages_freezes_only_blocked_iff {prepared : List PreparedRollout}
    (grouped : resolveNodeGroups desired.groups.values desired.nodes = .ok nodeGroups)
    (standard : DesiredDeployment.tryFrom desired.repository.defaultDeployment = .ok default)
    (ok : (routes desired observed plan verified).1 = .ok prepared) (servers : ReleaseServers)
    (admission : AdmissionEvaluation) :
    (∀ refused error identity,
      packages servers admission prepared = .error (.refused refused error) →
      deploymentIdentity refused.deployment = some identity → Frozen observed plan identity →
        ∃ rollout ∈ prepared,
          HoldsUp desired observed plan nodeGroups default admission rollout) ∧
    (packages servers .disabled prepared = .ok () →
      (∀ rollout ∈ prepared, ∀ identity, deploymentIdentity rollout.deployment = some identity →
        ¬ Frozen observed plan identity → rollout.Allowed admission) →
      ((∃ refused error identity,
          packages servers admission prepared = .error (.refused refused error) ∧
          deploymentIdentity refused.deployment = some identity ∧ Frozen observed plan identity) ↔
        ∃ rollout ∈ prepared,
          HoldsUp desired observed plan nodeGroups default admission rollout) ∧
      (packages servers admission prepared = .ok () ↔ ∀ rollout ∈ prepared,
        ¬ HoldsUp desired observed plan nodeGroups default admission rollout)) := by
  obtain ⟨cohorts, returns, final, routed, rfl⟩ := routes_ok grouped standard ok
  have keyed : ∀ rollout ∈ final.values, ∃ identity ∈ final,
      deploymentIdentity rollout.deployment = some identity := by
    intro rollout member
    obtain ⟨key, found⟩ := BTreeMap.mem_values_iff.mp member
    exact ⟨key, Std.ExtTreeMap.mem_iff_isSome_getElem?.mpr (by simp [found]),
      routed.keyed key rollout found⟩
  -- what is frozen is prepared only because a node waits for it
  have holdsUp : ∀ rollout ∈ final.values, ∀ identity,
      deploymentIdentity rollout.deployment = some identity → Frozen observed plan identity →
        ¬ rollout.Allowed admission →
          HoldsUp desired observed plan nodeGroups default admission rollout := by
    intro rollout member identity id frozen forbidden
    obtain ⟨key, present, same⟩ := keyed rollout member
    cases same.symm.trans id
    rcases routed.origin present with waits | unblocked | assigned
    · exact ⟨identity, id, frozen, waits, forbidden⟩
    · exact absurd frozen.1 unblocked
    · exact absurd assigned frozen.2
  have blames : ∀ refused error identity,
      packages servers admission final.values = .error (.refused refused error) →
        deploymentIdentity refused.deployment = some identity → Frozen observed plan identity →
          ∃ rollout ∈ final.values,
            HoldsUp desired observed plan nodeGroups default admission rollout := by
    intro refused error identity fails id frozen
    obtain ⟨member, forbidden⟩ := mem_of_refused fails
    exact ⟨refused, member, holdsUp refused member identity id frozen forbidden⟩
  refine ⟨blames, fun served allowed => ?_⟩
  -- with everything served, the preflight passes or refuses a frozen rollout
  have outcome : packages servers admission final.values = .ok () ∨ ∃ refused error identity,
      packages servers admission final.values = .error (.refused refused error) ∧
        deploymentIdentity refused.deployment = some identity ∧ Frozen observed plan identity := by
    rcases sameUnless_packages with same | ⟨_, fails, refused, error, rfl⟩
    · exact .inl (same.trans served)
    · obtain ⟨member, forbidden⟩ := mem_of_refused fails
      obtain ⟨identity, -, id⟩ := keyed refused member
      by_contra neither
      exact forbidden (allowed refused member identity id fun frozen =>
        neither (.inr ⟨refused, error, identity, fails, id, frozen⟩))
  have fails_of_holdsUp : (∃ rollout ∈ final.values,
      HoldsUp desired observed plan nodeGroups default admission rollout) →
        packages servers admission final.values ≠ .ok () := by
    rintro ⟨rollout, member, _, -, -, -, forbidden⟩
    exact packages_ne_ok_of_refused member forbidden
  constructor
  · constructor
    · rintro ⟨refused, error, identity, fails, id, frozen⟩
      exact blames refused error identity fails id frozen
    · exact fun holds => outcome.resolve_left (fails_of_holdsUp holds)
  · constructor
    · exact fun passes rollout member holds => fails_of_holdsUp ⟨rollout, member, holds⟩ passes
    · intro none
      refine outcome.resolve_right ?_
      rintro ⟨refused, error, identity, fails, id, frozen⟩
      obtain ⟨rollout, member, holds⟩ := blames refused error identity fails id frozen
      exact none rollout member holds

end

end Updatedc

namespace Updatedc.Sample.Hops

open Contracts

/-- Another document that asks for 3. -/
def asked : RepositoryAssignment := document "b" (catalog 3 [(1, []), (2, [1]), (3, [1, 2])])

/-- Node `n` is to be moved to `next`. Another group asks for `asked`, which is blocked. -/
def blocking (holds : Finset String) : DesiredState where
  repository := { defaultDeployment := spec "d", assignmentPrefix := "p" }
  groups := table [
    ("g", { name := "g", matchLabels := edge, deployment := next, maxUnavailable := 2 }),
    ("h", { name := "h", matchLabels := table [("r", "h")], deployment := asked,
            maxUnavailable := 2 })]
  groupLabels := table [("g", ∅), ("h", ∅)]
  sets := []
  nodes := [⟨"m", table [("r", "h")]⟩, ⟨"n", edge⟩]
  quarantined := ∅
  holds
  cordons := ∅
  blockedDeployments := {98}
  held := ∅
  named := by decide

def blockingObserved : ObservedState :=
  { observed 99 with
    reports := table [("m", envelope 109 114 0 1), ("n", envelope 110 99 0 1)]
    publicKeys := table [("m", ⟨[2]⟩), ("n", ⟨[1]⟩)]
    admitted := table [("g", { current := recorded }), ("h", { current := reported })]
    routing := table [("m", "h"), ("n", "g")]
    assignments := table [("m", 114), ("n", 99)] }

/-- The policy blocks package 3 and allows every other. -/
def policy : AdmissionEvaluation where
  policyName := some "policy"
  actions := some ⟨.block, .block⟩
  decisions digest := some (if digest = .canonical 3 then .nonCompliant else .compliant)

/-- Servers that have everything. -/
def servers : ReleaseServers where
  repositoryKey _ := 0
  loadReleaseRepository _ := .ok
    { exactTarget := fun reference => .ok ⟨reference.path, 0, some "os", some "arch"⟩
      verifyRelease := fun _ _ reference => .ok ⟨reference.path, 0, some "os", some "arch"⟩ }
  checkTargetsAvailable _ := .ok ()
  withinBudget := true

/-- What the package checks say about a plan, once its routes pass. -/
def verdict (holds : Finset String) (plan : ReconcilePlan) : Option (Except PackageError Unit) :=
  (routes (blocking holds) blockingObserved plan .empty).1.toOption.map (packages servers policy)

/-- A policy that allows every package. -/
def permissive : AdmissionEvaluation := { policy with decisions := fun _ => some .compliant }

/-- Node `m` waits for the blocked document. As long as admission allows its packages, it holds up
nobody. -/
theorem packages_freezes_only_blocked_iff_allowed :
    ∃ plan prepared,
      (planReconcile (blocking ∅) blockingObserved ⟨{}, .empty⟩).1 = .ok plan ∧
      (routes (blocking ∅) blockingObserved plan .empty).1 = .ok prepared ∧
      98 ∈ plan.blocked ∧ packages servers permissive prepared = .ok () := by
  obtain ⟨plan, ok, facts⟩ := Except.exists_of_any
    (x := (planReconcile (blocking ∅) blockingObserved ⟨{}, .empty⟩).1)
    (p := fun plan => 98 ∈ plan.blocked &&
      (routes (blocking ∅) blockingObserved plan .empty).1.toOption.any fun prepared =>
        (packages servers .disabled prepared).isOk)
    (by decide +kernel)
  simp only [Bool.and_eq_true, decide_eq_true_eq] at facts
  obtain ⟨prepared, routed, served⟩ := Except.exists_of_any facts.2
  have allowed : ∀ rollout : PreparedRollout, rollout.Allowed permissive :=
    fun _ _ _ _ _ => rfl
  have exactly := packages_freezes_only_blocked_iff
    (show _ = Except.ok (table [("m", "h"), ("n", "g")]) by decide)
    (show _ = Except.ok (deployment "d" {}) by decide) routed servers permissive
  refine ⟨plan, prepared, ok, routed, facts.1, (exactly.2 ?_ ?_).2.mpr ?_⟩
  · cases result : packages servers .disabled prepared with
    | ok _ => rfl
    | error _ =>
      rw [result] at served
      cases served
  · exact fun rollout _ _ _ _ => allowed rollout
  · rintro rollout - ⟨_, -, -, -, forbidden⟩
    exact forbidden (allowed rollout)

/-- Only `next` can be read back. -/
theorem eq_next_of_decoded {bytes : Bytes} {document : RepositoryAssignment}
    (decodes : RepositoryAssignment.fromBoundedJson bytes = .ok document) : document = next := by
  obtain ⟨read, decoded, done⟩ := Except.bind_ok_iff.mp decodes
  obtain ⟨_, -, done⟩ := Except.bind_ok_iff.mp done
  cases done
  obtain ⟨_, -, decoded⟩ := Except.bind_ok_iff.mp decoded
  by_cases known : bytes = chars "g"
  · have slice : Json.fromSlice bytes = (.ok next : Except String RepositoryAssignment) :=
      if_pos known
    rw [slice] at decoded
    cases decoded
    rfl
  · have slice : Json.fromSlice bytes =
        (.error "assignment" : Except String RepositoryAssignment) := if_neg known
    rw [slice] at decoded
    cases decoded

/-- The identity a result refuses, and how. -/
def refusal (result : Except PackageError Unit) : Option (Sha256 × PlanError) :=
  match result with
  | .error (.refused rollout error) => (deploymentIdentity rollout.deployment).map (·, error)
  | _ => none

theorem refused_of_refusal {result : Except PackageError Unit} {identity : Sha256}
    {error : PlanError} (h : refusal result = some (identity, error)) :
    ∃ rollout, deploymentIdentity rollout.deployment = some identity ∧
      result = .error (.refused rollout error) := by
  unfold refusal at h
  split at h
  · next rollout _ =>
    obtain ⟨_, id, pair⟩ := Option.map_eq_some_iff.mp h
    cases pair
    exact ⟨rollout, id, rfl⟩
  · cases h

/-- **A blocked document holds up everybody.** Node `m` waits for a document that admission blocks
and the plan moves nobody onto. The policy allows what node `n` is moved to, and the preflight of
the whole generation fails on the other group's package. -/
theorem packages_fails_on_frozen :
    ∃ plan plans refused,
      (planReconcile (blocking ∅) blockingObserved ⟨{}, .empty⟩).1 = .ok plan ∧
      (routes (blocking ∅) blockingObserved plan .empty).1 = .ok plans ∧
      deploymentIdentity refused.deployment = some 98 ∧ Frozen blockingObserved plan 98 ∧
      plan.assignments["n"]? = some 103 ∧ blockingObserved.assignments["n"]? = some 99 ∧
      packages servers policy plans = .error (.refused refused
        (.releasePreflight "deployment b"
          "release 3.0.0 is blocked by admission (NonCompliantBlocked)")) := by
  obtain ⟨plan, ok, facts⟩ := Except.exists_of_any
    (x := (planReconcile (blocking ∅) blockingObserved ⟨{}, .empty⟩).1)
    (p := fun plan => 98 ∈ plan.blocked && plan.assignments["n"]? = some 103 &&
      (verdict ∅ plan).bind refusal = some (98, .releasePreflight "deployment b"
        "release 3.0.0 is blocked by admission (NonCompliantBlocked)"))
    (by decide +kernel)
  simp only [Bool.and_eq_true, decide_eq_true_eq] at facts
  obtain ⟨⟨blocked, published⟩, refused⟩ := facts
  obtain ⟨result, checked, refused⟩ := Option.bind_eq_some_iff.mp refused
  obtain ⟨plans, routed, rfl⟩ := Option.map_eq_some_iff.mp checked
  obtain ⟨rollout, id, fails⟩ := refused_of_refusal refused
  refine ⟨plan, plans, rollout, ok, Except.toOption_eq_some_iff.mp routed, id, ⟨blocked, ?_⟩,
    published, by decide, fails⟩
  rintro ⟨node, assigned, target, document, entry, changes, -, decodes, id⟩
  cases eq_next_of_decoded decodes
  exact absurd id (by decide)

end Updatedc.Sample.Hops
