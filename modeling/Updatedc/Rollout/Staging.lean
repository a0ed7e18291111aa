import Updatedc.Rollout.Judgement
import Updatedc.Rollout.Renaming

/-!
# A staged rollout, pass after pass

A group is retargeted and its nodes behave: before every pass each of them reports fresh, healthy
and converged on what it was last assigned. `Retarget.step_progress` says what **one** pass then
makes of the group: every node keeps or gets the new body within the budget, and a pass that finds
the whole group on the new body drops the predecessor. The number of nodes on the new body after
`p` passes is therefore `min N (p * m)` (`Retarget.onNew_run`), from which the length of the whole
rollout follows.
-/

namespace Updatedc

open Contracts

variable [Crates]

/-! ## What a converged report says -/

namespace Observations

variable {observations : Observations} {node : String} {identity : Sha256}
  {deployment : DesiredDeployment}

theorem report_of_converged
    (converged : observations.converged node identity deployment = true) :
    ∃ report, observations.report node = some report ∧ report.healthy = true ∧
      report.rejected = false ∧ report.assignmentSha256 = .canonical identity := by
  obtain ⟨report, found, accepted⟩ := (Option.any_eq_true _ _).mp converged
  cases reference : deployment.application.targetReference with
  | error message => simp [reference] at accepted
  | ok target =>
    simp only [reference, NodeReport.isConvergedTo, Bool.and_eq_true, Bool.not_eq_true',
      beq_iff_eq] at accepted
    obtain ⟨⟨⟨⟨-, healthy⟩, kept⟩, here⟩, -⟩ := accepted
    exact ⟨report, found, healthy, kept, here⟩

/-- A node with a report has a pinned key. -/
theorem keyed_of_report {report : NodeReport} (found : observations.report node = some report) :
    observations.publicKeys.contains node = true := by
  unfold Observations.report at found
  obtain ⟨envelope, -, rest⟩ := Option.bind_eq_some_iff.mp found
  obtain ⟨key, pinned, -⟩ := Option.bind_eq_some_iff.mp rest
  rw [Std.ExtTreeMap.contains_eq_isSome_getElem?, pinned]
  rfl

theorem evidence_of_converged
    (converged : observations.converged node identity deployment = true) :
    observations.evidence node (.canonical identity) = .healthy := by
  obtain ⟨report, found, healthy, -, here⟩ := report_of_converged converged
  simp [evidence, keyed_of_report found, found, healthy, here]

/-- A report that was not rejected is no claim of a rejection. -/
theorem claimsRejection_of_report {report : NodeReport}
    (found : observations.report node = some report) (kept : report.rejected = false) :
    observations.claimsRejection node = none := by
  unfold Observations.report at found
  obtain ⟨envelope, stored, rest⟩ := Option.bind_eq_some_iff.mp found
  obtain ⟨key, pinned, fresh⟩ := Option.bind_eq_some_iff.mp rest
  obtain ⟨authentic, known, current⟩ := Option.bind_eq_some_iff.mp fresh
  have same : authentic.report = report := by
    unfold AuthenticReport.fresh at current
    split at current
    · exact Option.some.inj current
    · cases current
  simp [claimsRejection, stored, pinned, VerifiedReports.rejectedAssignment, known,
    AuthenticReport.rejectedAssignment, same, kept]

end Observations

/-- A log in which nobody rejected an identity stays so through a pass in which nobody does. -/
theorem provers_noteClaims_eq_empty {observations : Observations} {log : ObservationLog}
    {identity : Sha256} (unproven : log.provers identity = ∅)
    (silent : ∀ node ∈ observations.nodeGroups,
      observations.claimsRejection node ≠ some (.canonical identity)) :
    (noteClaims observations log).provers identity = ∅ := by
  unfold noteClaims
  have quiet : ∀ node ∈ observations.nodeGroups.keys,
      observations.claimsRejection node ≠ some (.canonical identity) :=
    fun node member => silent node (Std.ExtTreeMap.mem_keys.mp member)
  generalize observations.nodeGroups.keys = nodes at quiet
  induction nodes generalizing log with
  | nil => exact unproven
  | cons node rest ih =>
    refine ih ?_ fun later member => quiet later (List.mem_cons_of_mem _ member)
    cases claim : observations.claimsRejection node with
    | none => simpa only [claim] using unproven
    | some claimed =>
      simp only [claim]
      have other : claimed ≠ .canonical identity := by
        rintro rfl
        exact quiet node List.mem_cons_self claim
      rw [Finset.eq_empty_iff_forall_notMem] at unproven ⊢
      intro prover member
      rcases Finset.mem_insert.mp ((ObservationLog.mem_provers _ _ _).mp member) with
        same | known
      · exact other (congrArg Prod.snd same).symm
      · exact unproven prover ((ObservationLog.mem_provers _ _ _).mpr known)

/-! ## Predecessors of a single retarget -/

section
variable {admitted : Admitted} {desired : BTreeMap String DesiredDeployment}
  {observations : Observations} {name : String} {current old : DesiredDeployment}

theorem finishStaged_of_settled :
    finishStaged admitted desired observations name ⟨current, []⟩ = ⟨current, []⟩ := by
  simp [finishStaged]

/-- While some node waits, the one predecessor is kept, needed or not. -/
theorem finishStaged_of_staging (staging : observations.fullyHanded name current = false) :
    finishStaged admitted desired observations name ⟨current, [old]⟩ = ⟨current, [old]⟩ := by
  unfold finishStaged
  by_cases planned : desired.contains name = true
  · cases need : needed admitted observations old <;> simp [planned, staging, need]
  · simp [planned]

/-- Once everyone was handed `current` and nobody is on the predecessor, it is dropped. -/
theorem finishStaged_of_handed (planned : desired.contains name = true)
    (handed : observations.fullyHanded name current = true)
    (left : observations.placedAnywhere old = false) :
    finishStaged admitted desired observations name ⟨current, [old]⟩ = ⟨current, []⟩ := by
  simp [finishStaged, planned, handed, needed, left]

end

/-! ## Admission without sets -/

section
variable {groups : BTreeMap String ResolvedGroup} {desired : BTreeMap String DesiredDeployment}
  {observations : Observations} {movement : MovementVerdict} {admitted : Admitted}
  {name : String} {target : DesiredDeployment} {group : ResolvedGroup}
  {state : AdmittedDeployment}

/-- A group that stands at what it asks for is not touched. -/
theorem getElem?_admitPending_of_current (plans : List SetPlan)
    (asked : desired[name]? = some state.current) (entry : admitted[name]? = some state) :
    (admitPending groups desired plans admitted observations movement).admitted[name]? =
      some state := by
  refine (admitted_foldl_of_not_mem fun pending => ?_).trans entry
  have behind := (mem_pendingGroups.mp pending).2
  simp [isPending, entry, asked] at behind

/-- **Without sets, a pending group that passes the common gates is admitted.** -/
theorem getElem?_admitPending_of_pending (planned : groups[name]? = some group)
    (asked : desired[name]? = some target) (ready : group.inputsReady = true)
    (independent : group.dependsOn = [])
    (unblocked : ∀ identity, deploymentIdentity target = some identity →
      identity ∉ movement.blocked)
    (entry : admitted[name]? = some state) (behind : state.current ≠ target) :
    (admitPending groups desired [] admitted observations movement).admitted[name]? =
      some ⟨target, stagedFrom target (some state)⟩ := by
  have pending : name ∈ pendingGroups desired [] admitted := by
    refine mem_pendingGroups.mpr ⟨?_, ?_⟩
    · exact Std.ExtTreeMap.mem_iff_isSome_getElem?.mpr (by simp [asked])
    · simp [isPending, entry, asked, Ne.symm behind]
  obtain ⟨mid, turn⟩ : ∃ mid, TurnAt groups desired observations movement ⟨[], admitted⟩
      (pendingGroups desired [] admitted) name mid :=
    exists_turnAt nodup_pendingGroups pending
  have plans : mid.plans = [] := by simpa using turn.shape
  have open_ : (deploymentIdentity target).any (· ∈ movement.blocked) = false := by
    cases id : deploymentIdentity target with
    | none => rfl
    | some identity => simpa using unblocked identity id
  have admits : admitStep groups desired observations movement mid name =
      mid.admission name target := by
    simp [admitStep, governedStep, planned, asked, ready, independent, open_, governing, plans]
  refine turn.last.trans ?_
  rw [admits, Sweep.admission, turn.first, entry, BTreeMap.getElem?_insert, if_pos rfl]

end

/-! ## A group of which nobody is unavailable -/

section
variable (p : String → Bool) (hold : DesiredDeployment)

/-- The turns of a group whose nodes are all healthy: those that pass are handed `current`, the
others are staged. -/
def healthyTurns (nodes : List String) : List (String × Turn × Bool) :=
  nodes.map fun node =>
    (node, if p node then .current else .staged .healthy (some hold), false)

omit [Crates] in
theorem immediateNodes_healthyTurns (nodes : List String) :
    immediateNodes (healthyTurns p hold nodes) = nodes.filter p := by
  induction nodes with
  | nil => rfl
  | cons node rest ih =>
    have later : immediateNodes (rest.map fun node =>
        (node, if p node then Turn.current else .staged .healthy (some hold), false)) =
        rest.filter p := ih
    unfold immediateNodes at later ⊢
    cases here : p node <;> simp [healthyTurns, here, later]

omit [Crates] in
theorem stagedNodes_healthyTurns (nodes : List String) :
    stagedNodes (healthyTurns p hold nodes) =
      (nodes.filter (!p ·)).map fun node => ⟨node, .healthy, some hold⟩ := by
  induction nodes with
  | nil => rfl
  | cons node rest ih =>
    have later : stagedNodes (rest.map fun node =>
        (node, if p node then Turn.current else .staged .healthy (some hold), false)) =
        (rest.filter (!p ·)).map fun node => ⟨node, .healthy, some hold⟩ := ih
    unfold stagedNodes at later ⊢
    cases here : p node <;> simp [healthyTurns, here, later]

omit [Crates] in
/-- Nobody is charged and nobody is rescued: the whole budget goes to the staged nodes. -/
theorem groupMoves_healthyTurns (maxUnavailable : Nat) (nodes : List String) :
    groupMoves maxUnavailable false (healthyTurns p hold nodes) =
      Budget.grant maxUnavailable 0
        ((nodes.filter (!p ·)).map fun node => ⟨node, .healthy, some hold⟩) := by
  have uncharged : (healthyTurns p hold nodes).countP (·.2.2) = 0 := by
    simp [healthyTurns, List.countP_eq_zero]
  have none_broken : ((nodes.filter (!p ·)).map fun node =>
      (⟨node, .healthy, some hold⟩ : Staged)).filter (·.evidence = .broken) = [] := by
    simp [List.filter_map, Function.comp_def]
  have all_staged : ((nodes.filter (!p ·)).map fun node =>
      (⟨node, .healthy, some hold⟩ : Staged)).filter (·.evidence ≠ .broken) =
        (nodes.filter (!p ·)).map fun node => ⟨node, .healthy, some hold⟩ := by
    simp [List.filter_map, Function.comp_def]
  unfold groupMoves grantMoves
  rw [uncharged, stagedNodes_healthyTurns, none_broken, all_staged]
  simp [Budget.grant, Budget.spent]

end

/-! ## The run -/

/-- A group asked to move from one body to another. -/
structure Retarget where
  name : String
  /-- The group, already asking for the new body. -/
  group : ResolvedGroup
  old : DesiredDeployment
  oldId : Sha256
  newId : Sha256
  /-- The group every node of the fleet is routed to. -/
  fleet : BTreeMap String String

/-- What a pass leaves to the next one. -/
structure Planned where
  admitted : Admitted
  vetoed : BTreeMap Sha256 VetoedDeployment
  log : ObservationLog
  verified : VerifiedReports
  /-- What every node was last assigned. -/
  assigned : BTreeMap String DesiredDeployment

/-- What a pass reads: the inputs of its moment. -/
structure PassInputs where
  inputs : RolloutInputs
  now : DateTime

namespace Planned

variable (self : Planned)

/-- Plan one pass, without any set. -/
def outcome (pass : PassInputs) : RolloutOutcome :=
  planRollouts [] pass.inputs self.admitted self.vetoed self.log self.verified pass.now

def step (pass : PassInputs) : Planned :=
  let outcome := self.outcome pass
  { admitted := outcome.admitted
    vetoed := outcome.vetoed
    log := outcome.log
    verified := outcome.verified
    assigned := outcome.plan.nodeDeployments }

def run (passes : List PassInputs) : Planned := passes.foldl step self

/-- What the pass has decided when admission starts. -/
def judged (pass : PassInputs) : Judgement :=
  judge [] pass.inputs self.admitted self.vetoed self.log self.verified pass.now

/-- The pass's one reading of the fleet. -/
def sees (pass : PassInputs) : Observations :=
  pass.inputs.observations self.verified pass.now

end Planned

namespace Retarget

variable (retarget : Retarget)

def new : DesiredDeployment := retarget.group.deployment

/-- The nodes of the group. -/
def nodes : List String :=
  retarget.fleet.toList.filterMap fun (node, selected) =>
    if selected = retarget.name then some node else none

/-- Whether a node was last assigned the new body. -/
def onNew (planned : Planned) (node : String) : Bool := planned.assigned[node]? = some retarget.new

/-- The nodes that wait for the budget. -/
def waiting (planned : Planned) : List Staged :=
  (retarget.nodes.filter (!retarget.onNew planned ·)).map fun node =>
    ⟨node, .healthy, some retarget.old⟩

/-- What an attended pass lists: the new body for the nodes that had it and for as many of the
others as the budget allows. -/
def listing (planned : Planned) : List (String × DesiredDeployment) :=
  (retarget.nodes.filter (retarget.onNew planned)).map (·, retarget.new) ++
    (Budget.grant retarget.group.maxUnavailable 0 (retarget.waiting planned)).map
      fun (staged, granted) => (staged.node, if granted then retarget.new else retarget.old)

/-- The two bodies can be published and told apart, and nothing but the nodes holds the group
back: its inputs are ready, it waits for no other group, and its budget is not empty. -/
structure Possible : Prop where
  oldIdentity : deploymentIdentity retarget.old = some retarget.oldId
  newIdentity : deploymentIdentity retarget.new = some retarget.newId
  different : retarget.oldId ≠ retarget.newId
  ready : retarget.group.inputsReady = true
  independent : retarget.group.dependsOn = []
  budget : 1 ≤ retarget.group.maxUnavailable

/-- The state the retarget meets: the group stands at the old body, every node was assigned it,
and the new one was never refused. -/
structure Starts (planned : Planned) : Prop where
  entry : planned.admitted[retarget.name]? = some ⟨retarget.old, []⟩
  assigned : ∀ node ∈ retarget.nodes, planned.assigned[node]? = some retarget.old
  unvetoed : retarget.newId ∉ planned.vetoed
  unproven : planned.log.provers retarget.newId = ∅

/-- **Every node reports fresh, healthy and converged on what it was last assigned**, there are no
blocks, cordons or holds, and the nodes of other groups take no part: none of them is on the old
body, and none claims to have rejected the new one. -/
structure Attended (planned : Planned) (pass : PassInputs) : Prop where
  asks : pass.inputs.groups[retarget.name]? = some retarget.group
  fleet : pass.inputs.nodeGroups = retarget.fleet
  holds : pass.inputs.holds = ∅
  cordons : pass.inputs.cordons = ∅
  blocked : pass.inputs.blockedDeployments = ∅
  published : ∀ node ∈ retarget.nodes,
    pass.inputs.published[node]? = planned.assigned[node]?.bind deploymentIdentity
  converged : ∀ node ∈ retarget.nodes, ∀ (body : DesiredDeployment) (identity : Sha256),
    planned.assigned[node]? = some body → deploymentIdentity body = some identity →
      (planned.sees pass).converged node identity body = true
  others : ∀ node ∈ retarget.fleet, node ∉ retarget.nodes →
    (planned.sees pass).advanced node retarget.oldId = false ∧
      (planned.sees pass).claimsRejection node ≠ some (.canonical retarget.newId)

/-- Every pass of a run is attended. -/
def AttendedRun : Planned → List PassInputs → Prop
  | _, [] => True
  | planned, pass :: rest =>
    retarget.Attended planned pass ∧ AttendedRun (planned.step pass) rest

/-- Where the rollout stands; one constructor for each of its phases. -/
inductive Phase (planned : Planned) : Prop
  /-- The retarget has not been admitted yet. -/
  | asked (entry : planned.admitted[retarget.name]? = some ⟨retarget.old, []⟩)
      (assigned : ∀ node ∈ retarget.nodes, planned.assigned[node]? = some retarget.old)
  /-- The nodes move, and the old body is kept for those that wait. -/
  | staging (entry : planned.admitted[retarget.name]? = some ⟨retarget.new, [retarget.old]⟩)
      (assigned : ∀ node ∈ retarget.nodes, planned.assigned[node]? = some retarget.new ∨
        planned.assigned[node]? = some retarget.old)
  /-- Nothing is left of the old body. -/
  | finished (entry : planned.admitted[retarget.name]? = some ⟨retarget.new, []⟩)
      (assigned : ∀ node ∈ retarget.nodes, planned.assigned[node]? = some retarget.new)

/-- What every pass of the rollout finds. -/
structure Underway (planned : Planned) : Prop where
  phase : retarget.Phase planned
  unvetoed : retarget.newId ∉ planned.vetoed
  unproven : planned.log.provers retarget.newId = ∅

/-! ## What a pass sees -/

section
variable {retarget} {planned : Planned} {pass : PassInputs} {node : String}
  {body : DesiredDeployment} {identity : Sha256}

theorem Attended.nodes_eq (attended : retarget.Attended planned pass) :
    (planned.sees pass).nodes retarget.name = retarget.nodes := by
  unfold Observations.nodes
  change pass.inputs.nodeGroups.toList.filterMap _ = _
  rw [attended.fleet]
  rfl

/-- A node is where it was last assigned to be, and nowhere else. -/
theorem Attended.advanced_iff (attended : retarget.Attended planned pass)
    (member : node ∈ retarget.nodes)
    (assigned : planned.assigned[node]? = some body)
    (id : deploymentIdentity body = some identity) (other : Sha256) :
    (planned.sees pass).advanced node other = true ↔ identity = other := by
  obtain ⟨report, found, -, -, here⟩ :=
    Observations.report_of_converged (attended.converged node member body identity assigned id)
  have published : (planned.sees pass).published[node]? = some identity := by
    refine (attended.published node member).trans ?_
    rw [assigned, Option.bind_some, id]
  simp [Observations.advanced, published, found, here]

theorem Attended.silent (attended : retarget.Attended planned pass)
    (placed : ∀ node ∈ retarget.nodes, ∃ body identity, planned.assigned[node]? = some body ∧
      deploymentIdentity body = some identity)
    (fleet : node ∈ (planned.sees pass).nodeGroups) :
    (planned.sees pass).claimsRejection node ≠ some (.canonical retarget.newId) := by
  by_cases member : node ∈ retarget.nodes
  · obtain ⟨body, identity, assigned, id⟩ := placed node member
    obtain ⟨report, found, -, kept, -⟩ :=
      Observations.report_of_converged (attended.converged node member body identity assigned id)
    rw [Observations.claimsRejection_of_report found kept]
    exact nofun
  · have there : node ∈ retarget.fleet := attended.fleet ▸ fleet
    exact (attended.others node there member).2

/-! ## What a pass decides -/

theorem Phase.new_or_old (phase : retarget.Phase planned) (member : node ∈ retarget.nodes) :
    planned.assigned[node]? = some retarget.new ∨ planned.assigned[node]? = some retarget.old := by
  cases phase with
  | asked entry assigned => exact .inr (assigned node member)
  | staging entry assigned => exact assigned node member
  | finished entry assigned => exact .inl (assigned node member)

theorem Phase.placed (possible : retarget.Possible) (phase : retarget.Phase planned)
    (member : node ∈ retarget.nodes) :
    ∃ body identity, planned.assigned[node]? = some body ∧
      deploymentIdentity body = some identity := by
  rcases phase.new_or_old member with new | old
  · exact ⟨_, _, new, possible.newIdentity⟩
  · exact ⟨_, _, old, possible.oldIdentity⟩

theorem Possible.new_ne_old (possible : retarget.Possible) : retarget.new ≠ retarget.old := by
  intro same
  have ids := possible.oldIdentity
  rw [← same, possible.newIdentity] at ids
  exact possible.different (Option.some.inj ids).symm

theorem Attended.desired (attended : retarget.Attended planned pass) :
    pass.inputs.desired[retarget.name]? = some retarget.new := by
  rw [RolloutInputs.desired, Std.ExtTreeMap.getElem?_map, attended.asks]
  rfl

theorem Attended.contains (attended : retarget.Attended planned pass) :
    pass.inputs.desired.contains retarget.name = true := by
  rw [Std.ExtTreeMap.contains_eq_isSome_getElem?, attended.desired]
  rfl

variable (possible : retarget.Possible) (attended : retarget.Attended planned pass)
  (underway : retarget.Underway planned)

include possible attended underway

/-- Nobody is remembered to have rejected the new body. -/
theorem provers_eq_empty :
    pass.inputs.provers planned.log planned.verified pass.now retarget.newId = ∅ := by
  refine provers_noteClaims_eq_empty ?_ fun node fleet => ?_
  · exact underway.unproven
  · exact attended.silent (fun node member => underway.phase.placed possible member) fleet

/-- Movement onto the new body is not refused. -/
theorem new_not_blocked : retarget.newId ∉ (planned.judged pass).movement.blocked := by
  intro blocked
  rcases mem_blocked_iff.mp blocked with policy | ⟨vetoed, -⟩ | ⟨-, proven⟩
  · rw [attended.blocked] at policy
    simp at policy
  · exact underway.unvetoed vetoed
  · rw [provers_eq_empty possible attended underway, Finset.card_empty] at proven
    have positive : 1 ≤ threshold [] pass.inputs.desired pass.inputs.groupLabels planned.admitted
      retarget.newId := one_le_threshold
    omega

omit possible attended in
/-- Without sets nothing is rebased, so nothing is vetoed. -/
theorem new_not_vetoed : retarget.newId ∉ (planned.step pass).vetoed := by
  intro vetoed
  rcases mem_rollbackResponse_vetoed.mp vetoed with standing | ⟨name, state, rebase, -, found, -⟩
  · exact underway.unvetoed (BTreeMap.mem_filter_key.mp standing).1
  · have unanimous := (rebase?_gates found).unanimous
    simp [rollbackGroups] at unanimous

theorem provers_step : (planned.step pass).log.provers retarget.newId = ∅ := by
  change (ObservationLog.pruneIdentities _ _).provers retarget.newId = ∅
  rw [ObservationLog.provers_pruneIdentities]
  split
  · exact provers_eq_empty possible attended underway
  · rfl

/-! ### The entry -/

omit underway in
theorem fullyHanded_iff (phase : retarget.Phase planned) :
    (planned.sees pass).fullyHanded retarget.name retarget.new = true ↔
      ∀ node ∈ retarget.nodes, planned.assigned[node]? = some retarget.new := by
  have inRotation : ((planned.sees pass).nodes retarget.name).filter
      (fun node => decide (node ∉ (planned.sees pass).cordons)) = retarget.nodes := by
    rw [attended.nodes_eq, List.filter_eq_self]
    intro node _
    have none_cordoned : (planned.sees pass).cordons = ∅ := attended.cordons
    simp [none_cordoned]
  unfold Observations.fullyHanded
  rw [possible.newIdentity]
  dsimp only
  rw [inRotation, List.all_eq_true]
  refine forall₂_congr fun node member => ?_
  rcases phase.new_or_old member with new | old
  · simp [attended.advanced_iff member new possible.newIdentity, new]
  · rw [attended.advanced_iff member old possible.oldIdentity, old]
    simp [possible.different, possible.new_ne_old.symm]

omit underway in
theorem old_not_placed
    (handed : ∀ node ∈ retarget.nodes, planned.assigned[node]? = some retarget.new) :
    (planned.sees pass).placedAnywhere retarget.old = false := by
  unfold Observations.placedAnywhere
  rw [possible.oldIdentity]
  refine List.any_eq_false.mpr fun node listed there => ?_
  by_cases member : node ∈ retarget.nodes
  · exact possible.different
      ((attended.advanced_iff member (handed node member) possible.newIdentity _).mp there).symm
  · have fleet : node ∈ retarget.fleet := attended.fleet ▸ Std.ExtTreeMap.mem_keys.mp listed
    rw [(attended.others node fleet member).1] at there
    cases there

omit possible underway in
/-- Retirement decides the group's own entry. -/
theorem getElem?_retained {state : AdmittedDeployment}
    (entry : planned.admitted[retarget.name]? = some state) :
    (pass.inputs.retained planned.admitted planned.verified pass.now)[retarget.name]? =
      some (finishStaged
        (retireDeletedGroups planned.admitted pass.inputs.desired (planned.sees pass))
        pass.inputs.desired (planned.sees pass) retarget.name state) := by
  rw [RolloutInputs.retained, retain, getElem?_finishStagedRollouts,
    getElem?_retireDeletedGroups_of_desired attended.contains, entry]
  rfl

omit possible attended underway in
/-- Without sets admission starts from what retirement leaves. -/
theorem getElem?_judged (name : String) :
    (planned.judged pass).admitted[name]? =
      (pass.inputs.retained planned.admitted planned.verified pass.now)[name]? := by
  refine (getElem?_judge name).trans ?_
  cases (pass.inputs.retained planned.admitted planned.verified pass.now)[name]? with
  | none => rfl
  | some state => simp [rollbackGroups, rebase?]

omit possible underway in
/-- An entry that stands at the new body after retirement is what the pass leaves. -/
theorem entry_of_current {state : AdmittedDeployment}
    (retained : (pass.inputs.retained planned.admitted planned.verified
      pass.now)[retarget.name]? = some state) (current : state.current = retarget.new) :
    (planned.step pass).admitted[retarget.name]? = some state := by
  refine getElem?_admitPending_of_current _ (attended.desired.trans ?_)
    ((getElem?_judged retarget.name).trans retained)
  rw [current]

/-- **What a pass makes of the group's entry**: the retarget is admitted, and the predecessor stays
until a pass finds everyone on the new body. -/
theorem entry_step :
    (planned.step pass).admitted[retarget.name]? = some ⟨retarget.new, [retarget.old]⟩ ∨
      (planned.step pass).admitted[retarget.name]? = some ⟨retarget.new, []⟩ ∧
        ∀ node ∈ retarget.nodes, planned.assigned[node]? = some retarget.new := by
  have phase := underway.phase
  cases phase with
  | asked entry assigned =>
    left
    have retained := getElem?_retained attended entry
    rw [finishStaged_of_settled] at retained
    have became : (planned.step pass).admitted[retarget.name]? =
        some ⟨retarget.new, stagedFrom retarget.new (some ⟨retarget.old, []⟩)⟩ :=
      getElem?_admitPending_of_pending attended.asks attended.desired possible.ready
      possible.independent
      (fun identity id => by
        obtain rfl := Option.some.inj (possible.newIdentity.symm.trans id)
        exact new_not_blocked possible attended underway)
      ((getElem?_judged retarget.name).trans retained) possible.new_ne_old.symm
    have staged : stagedFrom retarget.new (some ⟨retarget.old, []⟩) = [retarget.old] := by
      simp [stagedFrom, AdmittedDeployment.bodies, possible.new_ne_old.symm]
    rw [staged] at became
    exact became
  | staging entry assigned =>
    have retained := getElem?_retained attended entry
    by_cases handed : ∀ node ∈ retarget.nodes, planned.assigned[node]? = some retarget.new
    · rw [finishStaged_of_handed attended.contains
        ((fullyHanded_iff possible attended underway.phase).mpr handed)
        (old_not_placed possible attended handed)] at retained
      exact .inr ⟨entry_of_current attended retained rfl, handed⟩
    · rw [finishStaged_of_staging (Bool.eq_false_iff.mpr fun full =>
        handed ((fullyHanded_iff possible attended underway.phase).mp full))] at retained
      exact .inl (entry_of_current attended retained rfl)
  | finished entry assigned =>
    have retained := getElem?_retained attended entry
    rw [finishStaged_of_settled] at retained
    exact .inr ⟨entry_of_current attended retained rfl, assigned⟩

/-- A pass that finds a group with nodes on the new body drops the predecessor. -/
theorem entry_of_handed (inhabited : retarget.nodes ≠ [])
    (handed : ∀ node ∈ retarget.nodes, planned.assigned[node]? = some retarget.new) :
    (planned.step pass).admitted[retarget.name]? = some ⟨retarget.new, []⟩ := by
  have phase := underway.phase
  cases phase with
  | asked entry assigned =>
    obtain ⟨node, member⟩ := List.exists_mem_of_ne_nil _ inhabited
    have same := (handed node member).symm.trans (assigned node member)
    exact absurd (Option.some.inj same) possible.new_ne_old
  | staging entry assigned =>
    have retained := getElem?_retained attended entry
    rw [finishStaged_of_handed attended.contains
      ((fullyHanded_iff possible attended underway.phase).mpr handed)
      (old_not_placed possible attended handed)] at retained
    exact entry_of_current attended retained rfl
  | finished entry assigned =>
    have retained := getElem?_retained attended entry
    rw [finishStaged_of_settled] at retained
    exact entry_of_current attended retained rfl

/-! ### The assignment -/

omit underway in
/-- A node on the new body is handed it again; a node on the old one is staged, healthy. -/
theorem nodeTurn_eq (phase : retarget.Phase planned) {previous : List DesiredDeployment}
    (kept : previous = [retarget.old] ∨ previous = [] ∧
      ∀ node ∈ retarget.nodes, planned.assigned[node]? = some retarget.new)
    (running : BTreeMap Sha256 DesiredDeployment) (blocks : Finset Sha256)
    (member : node ∈ retarget.nodes) :
    nodeTurn (planned.sees pass) running pass.inputs.holds
        (AdmittedDeployment.movement ⟨retarget.new, previous⟩ retarget.newId blocks) node =
      (if retarget.onNew planned node then .current else .staged .healthy (some retarget.old),
        false) := by
  have none_cordoned : (planned.sees pass).cordons = ∅ := attended.cordons
  unfold nodeTurn
  rw [attended.holds, none_cordoned]
  simp only [Finset.notMem_empty, if_false, false_and]
  rcases phase.new_or_old member with new | old
  · have converged := attended.converged node member _ _ new possible.newIdentity
    have there := (attended.advanced_iff member new possible.newIdentity retarget.newId).mpr rfl
    have healthy := Observations.evidence_of_converged converged
    simp [AdmittedDeployment.movement, there, healthy, NodeEvidence.unavailable, onNew, new]
  · have converged := attended.converged node member _ _ old possible.oldIdentity
    have there := (attended.advanced_iff member old possible.oldIdentity retarget.oldId).mpr rfl
    have elsewhere : (planned.sees pass).advanced node retarget.newId = false :=
      Bool.eq_false_iff.mpr fun here => possible.different
        ((attended.advanced_iff member old possible.oldIdentity retarget.newId).mp here)
    have healthy := Observations.evidence_of_converged converged
    have staging : previous = [retarget.old] := by
      rcases kept with staging | ⟨-, handed⟩
      · exact staging
      · exact absurd (Option.some.inj ((handed node member).symm.trans old)) possible.new_ne_old
    simp [AdmittedDeployment.movement, elsewhere, staging, possible.oldIdentity, there, healthy,
      NodeEvidence.unavailable, onNew, old, possible.new_ne_old.symm]

/-- What the group lists for its nodes. -/
theorem assignGroup_eq {previous : List DesiredDeployment}
    (kept : previous = [retarget.old] ∨ previous = [] ∧
      ∀ node ∈ retarget.nodes, planned.assigned[node]? = some retarget.new)
    (running : BTreeMap Sha256 DesiredDeployment) :
    assignGroup retarget.group ⟨retarget.new, previous⟩ running (planned.sees pass)
        pass.inputs.holds (planned.judged pass).movement.blocked retarget.name =
      retarget.listing planned := by
  have open_ : (AdmittedDeployment.movement ⟨retarget.new, previous⟩ retarget.newId
      (planned.judged pass).movement.blocked).blockedNow = false :=
    decide_eq_false (new_not_blocked possible attended underway)
  have turns : groupTurns (planned.sees pass) running pass.inputs.holds
      (AdmittedDeployment.movement ⟨retarget.new, previous⟩ retarget.newId
        (planned.judged pass).movement.blocked) retarget.name =
      healthyTurns (retarget.onNew planned) retarget.old retarget.nodes := by
    unfold groupTurns healthyTurns
    rw [attended.nodes_eq]
    refine List.map_congr_left fun node member => ?_
    rw [nodeTurn_eq possible attended underway.phase kept running _ member]
  unfold assignGroup
  rw [possible.newIdentity]
  dsimp only
  rw [turns, open_, immediateNodes_healthyTurns, groupMoves_healthyTurns]
  congr 1
  refine .trans ?_ (congrFun List.filterMap_eq_map _)
  refine List.filterMap_congr fun entry listed => ?_
  obtain ⟨staged, granted⟩ := entry
  obtain ⟨node, -, rfl⟩ := List.mem_map.mp (Budget.mem_of_mem_grant listed)
  cases granted <;> rfl

/-- What is listed is what the pass assigns. -/
theorem assigned_step (listed : (node, body) ∈ retarget.listing planned) :
    (planned.step pass).assigned[node]? = some body := by
  obtain ⟨previous, entry, kept⟩ : ∃ previous,
      (planned.step pass).admitted[retarget.name]? = some ⟨retarget.new, previous⟩ ∧
      (previous = [retarget.old] ∨ previous = [] ∧
        ∀ node ∈ retarget.nodes, planned.assigned[node]? = some retarget.new) := by
    rcases entry_step possible attended underway with staging | ⟨settled, handed⟩
    · exact ⟨_, staging, .inl rfl⟩
    · exact ⟨_, settled, .inr ⟨rfl, handed⟩⟩
  have shape := assignGroup_eq possible attended underway kept
    (bodiesByIdentity ((planned.step pass).admitted.values ++ pass.inputs.held.values))
  rw [← shape] at listed
  exact getElem?_assignNodes_of_mem attended.asks entry listed

omit possible attended underway in
/-- Each of the group's nodes is listed once. -/
theorem map_fst_listing : ((retarget.listing planned).map Prod.fst).Perm retarget.nodes := by
  have moved : ((Budget.grant retarget.group.maxUnavailable 0 (retarget.waiting planned)).map
      fun (staged, granted) =>
        (staged.node, if granted then retarget.new else retarget.old)).map Prod.fst =
      retarget.nodes.filter (!retarget.onNew planned ·) := by
    have nodes := congrArg (List.map Staged.node)
      (Budget.map_fst_grant retarget.group.maxUnavailable 0 (retarget.waiting planned))
    rw [List.map_map, waiting, List.map_map] at nodes
    rw [List.map_map]
    exact nodes.trans (List.map_id _)
  rw [listing, List.map_append, moved, List.map_map]
  refine .trans ?_ (List.filter_append_perm (retarget.onNew planned) retarget.nodes)
  rw [show (Prod.fst ∘ fun node : String => (node, retarget.new)) = id from rfl, List.map_id]

omit possible attended underway in
theorem exists_listed (member : node ∈ retarget.nodes) :
    ∃ body, (node, body) ∈ retarget.listing planned := by
  have key : node ∈ (retarget.listing planned).map Prod.fst := map_fst_listing.symm.subset member
  obtain ⟨⟨_, body⟩, listed, rfl⟩ := List.mem_map.mp key
  exact ⟨body, listed⟩

omit possible attended underway in
theorem new_or_old_of_listed (listed : (node, body) ∈ retarget.listing planned) :
    body = retarget.new ∨ body = retarget.old := by
  rcases List.mem_append.mp listed with had | answered
  · obtain ⟨_, -, same⟩ := List.mem_map.mp had
    cases same
    exact .inl rfl
  · obtain ⟨⟨staged, granted⟩, -, same⟩ := List.mem_map.mp answered
    cases granted <;> cases same
    · exact .inr rfl
    · exact .inl rfl

omit possible attended underway in
/-- A node on the new body is listed with it. -/
theorem listed_of_onNew (member : node ∈ retarget.nodes)
    (on : planned.assigned[node]? = some retarget.new) :
    (node, retarget.new) ∈ retarget.listing planned :=
  List.mem_append_left _ (List.mem_map_of_mem
    (List.mem_filter.mpr ⟨member, decide_eq_true on⟩))

omit attended underway in
/-- How many nodes are listed with the new body. -/
theorem countP_listing :
    (retarget.listing planned).countP (·.2 = retarget.new) =
      min retarget.nodes.length (retarget.nodes.countP (retarget.onNew planned) +
        retarget.group.maxUnavailable) := by
  have had : ((retarget.nodes.filter (retarget.onNew planned)).map (·, retarget.new)).countP
      (·.2 = retarget.new) = retarget.nodes.countP (retarget.onNew planned) := by
    rw [List.countP_map, List.countP_eq_length_filter (l := retarget.nodes)]
    exact List.countP_eq_length.mpr fun _ _ => decide_eq_true rfl
  have moved : ((Budget.grant retarget.group.maxUnavailable 0 (retarget.waiting planned)).map
      fun (staged, granted) => (staged.node, if granted then retarget.new else retarget.old)).countP
        (·.2 = retarget.new) =
      min (retarget.nodes.countP (!retarget.onNew planned ·)) retarget.group.maxUnavailable := by
    have granted : ∀ entry ∈ Budget.grant retarget.group.maxUnavailable 0
        (retarget.waiting planned),
        (((fun entry : String × DesiredDeployment => decide (entry.2 = retarget.new)) ∘
          fun (staged, granted) =>
            (Staged.node staged, if granted then retarget.new else retarget.old)) entry = true ↔
          entry.2 = true) := by
      rintro ⟨staged, granted⟩ -
      cases granted <;> simp [possible.new_ne_old.symm]
    rw [List.countP_map, List.countP_congr granted, Budget.countP_grant, waiting, List.length_map,
      ← List.countP_eq_length_filter, Nat.sub_zero]
  have total := List.length_eq_countP_add_countP (retarget.onNew planned) (l := retarget.nodes)
  have others : retarget.nodes.countP (fun node => decide ¬retarget.onNew planned node = true) =
      retarget.nodes.countP (!retarget.onNew planned ·) :=
    List.countP_congr fun node _ => by simp
  rw [listing, List.countP_append, had, moved]
  omega

/-- **One pass brings as many nodes to the new body as the budget allows.** -/
theorem onNew_step :
    retarget.nodes.countP (retarget.onNew (planned.step pass)) =
      min retarget.nodes.length (retarget.nodes.countP (retarget.onNew planned) +
        retarget.group.maxUnavailable) := by
  have nodes : ((retarget.listing planned).map Prod.fst).Perm retarget.nodes := map_fst_listing
  rw [← countP_listing possible, ← nodes.countP_eq, List.countP_map]
  refine List.countP_congr fun entry member => ?_
  have assigned : (planned.step pass).assigned[entry.1]? = some entry.2 :=
    assigned_step possible attended underway member
  simp [onNew, assigned]

/-- Nobody leaves the new body. -/
theorem onNew_kept (member : node ∈ retarget.nodes)
    (on : retarget.onNew planned node = true) :
    retarget.onNew (planned.step pass) node = true :=
  decide_eq_true (assigned_step possible attended underway
    (listed_of_onNew member (of_decide_eq_true on)))

/-- **No pass changes what more than `maxUnavailable` nodes are assigned.** -/
theorem changed_le :
    retarget.nodes.countP (fun node =>
      (planned.step pass).assigned[node]? ≠ planned.assigned[node]?) ≤
        retarget.group.maxUnavailable := by
  have changed : retarget.nodes.countP (fun node =>
      (planned.step pass).assigned[node]? ≠ planned.assigned[node]?) ≤
      retarget.nodes.countP fun node =>
        retarget.onNew (planned.step pass) node && !retarget.onNew planned node := by
    refine List.countP_mono_left fun node member differs => ?_
    obtain ⟨body, listed⟩ : ∃ body, (node, body) ∈ retarget.listing planned :=
      exists_listed member
    have assigned := assigned_step possible attended underway listed
    rcases underway.phase.new_or_old member with new | old
    · have same := assigned_step possible attended underway (listed_of_onNew member new)
      simp [same, new] at differs
    · rcases new_or_old_of_listed listed with rfl | rfl
      · simp [onNew, assigned, old, possible.new_ne_old.symm]
      · simp [assigned, old] at differs
  have split : retarget.nodes.countP (fun node =>
        retarget.onNew (planned.step pass) node && !retarget.onNew planned node) +
      retarget.nodes.countP (retarget.onNew planned) =
      retarget.nodes.countP (retarget.onNew (planned.step pass)) := by
    have kept : retarget.nodes.countP (fun node =>
        retarget.onNew (planned.step pass) node && retarget.onNew planned node) =
        retarget.nodes.countP (retarget.onNew planned) := by
      refine List.countP_congr fun node member => ?_
      rw [Bool.and_eq_true, and_iff_right_iff_imp]
      exact onNew_kept possible attended underway member
    rw [← kept, Nat.add_comm, ← List.countP_filter, ← List.countP_filter]
    exact (List.countP_eq_countP_filter_add _ _ _).symm
  have step := onNew_step possible attended underway
  omega

/-- **Every pass leaves the rollout in one of its phases.** -/
theorem Underway.step : retarget.Underway (planned.step pass) := by
  refine ⟨?_, new_not_vetoed underway, provers_step possible attended underway⟩
  rcases entry_step possible attended underway with staging | ⟨settled, handed⟩
  · refine .staging staging fun node member => ?_
    obtain ⟨body, listed⟩ : ∃ body, (node, body) ∈ retarget.listing planned :=
      exists_listed member
    have assigned := assigned_step possible attended underway listed
    rcases new_or_old_of_listed listed with rfl | rfl
    · exact .inl assigned
    · exact .inr assigned
  · exact .finished settled fun node member =>
      assigned_step possible attended underway (listed_of_onNew member (handed node member))

/-! ### The verdict -/

/-- **A pass that finds a group with nodes on the new body calls it settled.** -/
theorem settled_of_handed (inhabited : retarget.nodes ≠ [])
    (handed : ∀ node ∈ retarget.nodes, planned.assigned[node]? = some retarget.new) :
    (planned.outcome pass).plan.groups[retarget.name]? = some .settled := by
  have entry : (planned.outcome pass).admitted[retarget.name]? = some ⟨retarget.new, []⟩ :=
    entry_of_handed possible attended underway inhabited handed
  have candidate : IsCandidate
      (pass.inputs.retained planned.admitted planned.verified pass.now) pass.inputs.desired
      retarget.newId :=
    isCandidate_iff.mpr (.inr ⟨_, _, attended.desired, possible.newIdentity⟩)
  have unproven : (planned.judged pass).movement.proofs[retarget.newId]?.getD ∅ = ∅ :=
    (proofs_judge candidate).trans (provers_eq_empty possible attended underway)
  have committed : ∀ node ∈ retarget.nodes,
      (planned.sees pass).sight retarget.new retarget.newId
        (decide (retarget.newId ∈ (planned.judged pass).movement.blocked))
        ((planned.judged pass).movement.proofs[retarget.newId]?.getD ∅) node = .committed := by
    intro node member
    have none_cordoned : (planned.sees pass).cordons = ∅ := attended.cordons
    have converged :=
      attended.converged node member _ _ (handed node member) possible.newIdentity
    have there := (attended.advanced_iff member (handed node member) possible.newIdentity
      retarget.newId).mpr rfl
    have healthy := Observations.evidence_of_converged converged
    simp [Observations.sight, none_cordoned, unproven, there, healthy, converged]
  have verdict : (planned.sees pass).progress retarget.name ⟨retarget.new, []⟩
      (planned.judged pass).movement = .settled := by
    have sights : ((planned.sees pass).nodes retarget.name).map
        ((planned.sees pass).sight retarget.new retarget.newId
          (decide (retarget.newId ∈ (planned.judged pass).movement.blocked))
          ((planned.judged pass).movement.proofs[retarget.newId]?.getD ∅)) =
        retarget.nodes.map fun _ => .committed := by
      rw [attended.nodes_eq]
      exact List.map_congr_left committed
    unfold Observations.progress
    rw [GroupObservation.verdict_settled_iff]
    unfold Observations.observe
    rw [possible.newIdentity]
    dsimp only
    rw [sights]
    obtain ⟨node, member⟩ := List.exists_mem_of_ne_nil _ inhabited
    have seen : (retarget.nodes.map fun _ => NodeSight.committed).any (fun sight =>
        sight = .rejected || sight = .committed || sight = .inFlight) = true :=
      List.any_eq_true.mpr ⟨.committed, List.mem_map.mpr ⟨node, member, rfl⟩, by decide⟩
    refine ⟨?_, ?_, ?_, seen⟩ <;> simp
  change (pass.inputs.desired.map fun name _ => classify name pass.inputs.desired
    (planned.outcome pass).admitted (planned.sees pass)
    (planned.judged pass).movement)[retarget.name]? = _
  rw [Std.ExtTreeMap.getElem?_map, attended.desired]
  simp [classify, entry, attended.desired, verdict]

end

/-! ## The whole rollout -/

section
variable {retarget} {planned : Planned}

theorem Starts.underway (starts : retarget.Starts planned) : retarget.Underway planned :=
  ⟨.asked starts.entry starts.assigned, starts.unvetoed, starts.unproven⟩

theorem Underway.run (possible : retarget.Possible) (underway : retarget.Underway planned)
    {passes : List PassInputs} (attended : retarget.AttendedRun planned passes) :
    retarget.Underway (planned.run passes) := by
  induction passes generalizing planned with
  | nil => exact underway
  | cons pass rest ih =>
    exact ih (Underway.step possible attended.1 underway) attended.2

/-- **The nodes on the new body after so many passes.** -/
theorem onNew_run (possible : retarget.Possible) (underway : retarget.Underway planned)
    {passes : List PassInputs} (attended : retarget.AttendedRun planned passes) :
    retarget.nodes.countP (retarget.onNew (planned.run passes)) =
      min retarget.nodes.length (retarget.nodes.countP (retarget.onNew planned) +
        passes.length * retarget.group.maxUnavailable) := by
  induction passes generalizing planned with
  | nil =>
    have most : retarget.nodes.countP (retarget.onNew planned) ≤ retarget.nodes.length :=
      List.countP_le_length
    simpa [Planned.run] using most
  | cons pass rest ih =>
    have later : retarget.nodes.countP (retarget.onNew (planned.run (pass :: rest))) =
        min retarget.nodes.length (retarget.nodes.countP (retarget.onNew (planned.step pass)) +
          rest.length * retarget.group.maxUnavailable) :=
      ih (Underway.step possible attended.1 underway) attended.2
    rw [later, onNew_step possible attended.1 underway, List.length_cons, Nat.succ_mul]
    omega

theorem all_onNew_iff :
    (∀ node ∈ retarget.nodes, planned.assigned[node]? = some retarget.new) ↔
      retarget.nodes.countP (retarget.onNew planned) = retarget.nodes.length := by
  rw [List.countP_eq_length]
  exact forall₂_congr fun node _ => decide_eq_true_iff.symm

theorem Starts.countP_onNew (possible : retarget.Possible) (starts : retarget.Starts planned) :
    retarget.nodes.countP (retarget.onNew planned) = 0 := by
  refine List.countP_eq_zero.mpr fun node member => ?_
  simp [onNew, starts.assigned node member, possible.new_ne_old.symm]

end

end Retarget

omit [Crates] in
private theorem le_mul_iff_ceil_le {total passes budget : Nat} (positive : 1 ≤ budget) :
    total ≤ passes * budget ↔ (total + budget - 1) / budget ≤ passes := by
  rw [Nat.div_le_iff_le_mul_add_pred positive, Nat.mul_comm budget]
  omega

/-- **A staged rollout completes at full speed.** A group of `N` nodes is retargeted under a budget
of `m`, and before every pass each node reports fresh, healthy and converged on what it was last
assigned. The pass that hands the last node the new body is the `⌈N / m⌉`-th, no pass changes what
more than `m` nodes are assigned, and, as soon as there is a node, the pass after the last move
calls the group settled and drops the predecessor. -/
theorem staged_rollout_completes (retarget : Retarget) (possible : retarget.Possible)
    (start : Planned) (starts : retarget.Starts start) (passes : List PassInputs)
    (attended : retarget.AttendedRun start passes) :
    let nodes := retarget.nodes
    let m := retarget.group.maxUnavailable
    let reached := start.run passes
    ((∀ node ∈ nodes, reached.assigned[node]? = some retarget.new) ↔
      (nodes.length + m - 1) / m ≤ passes.length) ∧
    ∀ pass, retarget.Attended reached pass →
      nodes.countP (fun node =>
        (reached.step pass).assigned[node]? ≠ reached.assigned[node]?) ≤ m ∧
      (1 ≤ nodes.length → (nodes.length + m - 1) / m ≤ passes.length →
        (reached.outcome pass).plan.groups[retarget.name]? = some .settled ∧
        (reached.outcome pass).admitted[retarget.name]? = some ⟨retarget.new, []⟩) := by
  intro nodes m reached
  have underway : retarget.Underway reached :=
    Retarget.Underway.run possible starts.underway attended
  have count : nodes.countP (retarget.onNew reached) = min nodes.length (passes.length * m) := by
    have run := Retarget.onNew_run possible starts.underway attended
    rwa [starts.countP_onNew possible, Nat.zero_add] at run
  have complete : (∀ node ∈ nodes, reached.assigned[node]? = some retarget.new) ↔
      (nodes.length + m - 1) / m ≤ passes.length := by
    rw [Retarget.all_onNew_iff, ← le_mul_iff_ceil_le possible.budget]
    change nodes.countP (retarget.onNew reached) = nodes.length ↔ nodes.length ≤ passes.length * m
    rw [count]
    omega
  refine ⟨complete, fun pass next =>
    ⟨Retarget.changed_le possible next underway, fun inhabited enough => ?_⟩⟩
  have some_node : retarget.nodes ≠ [] := List.ne_nil_of_length_pos inhabited
  have handed := complete.mpr enough
  exact ⟨Retarget.settled_of_handed possible next underway some_node handed,
    Retarget.entry_of_handed possible next underway some_node handed⟩

end Updatedc

namespace Updatedc.Sample.Staging

open Contracts

/-- The two nodes of the group `g`, asked to move from `a` to `b` one at a time. -/
def move : Retarget where
  name := "g"
  group := { name := "g", matchLabels := ∅, deployment := deployment "b" {}, maxUnavailable := 1 }
  old := deployment "a" {}
  oldId := 97
  newId := 98
  fleet := table [("m", "g"), ("n", "g")]

theorem move_possible : move.Possible :=
  ⟨by decide, by decide, by decide, by decide, rfl, by decide⟩

def atStart : Planned where
  admitted := retargetAdmitted
  vetoed := ∅
  log := {}
  verified := .empty
  assigned := table [("m", deployment "a" {}), ("n", deployment "a" {})]

theorem move_starts : move.Starts atStart :=
  ⟨by decide, by decide, by decide, by decide⟩

/-- A pass before which `m` is on the first and `n` on the second of two bodies. -/
def passOn (m n : UInt8) : PassInputs where
  inputs := { retarget with
    reports := table [("m", envelope 109 m 0 1), ("n", envelope 110 n 0 1)]
    published := table [("m", m.toNat), ("n", n.toNat)] }
  now := 1000000000

/-- The tests by which a pass is attended. -/
theorem attended_of_tests {planned : Planned} {pass : PassInputs}
    (asks : pass.inputs.groups["g"]? = some move.group)
    (fleet : pass.inputs.nodeGroups = move.fleet) (holds : pass.inputs.holds = ∅)
    (cordons : pass.inputs.cordons = ∅) (blocked : pass.inputs.blockedDeployments = ∅)
    (published : ∀ node ∈ move.nodes,
      pass.inputs.published[node]? = planned.assigned[node]?.bind deploymentIdentity)
    (converged : ∀ node ∈ move.nodes, (planned.assigned[node]?.all fun body =>
      (deploymentIdentity body).all fun identity =>
        (planned.sees pass).converged node identity body) = true) :
    move.Attended planned pass where
  asks := asks
  fleet := fleet
  holds := holds
  cordons := cordons
  blocked := blocked
  published := published
  converged node member body identity assigned id := by
    simpa [assigned, id] using converged node member
  others node fleet outside := by
    have routed : ∀ node ∈ move.fleet.keys, node ∈ move.nodes := by decide
    exact absurd (routed node (Std.ExtTreeMap.mem_keys.mpr fleet)) outside

theorem first_attended : move.Attended atStart (passOn 97 97) :=
  attended_of_tests (by decide) rfl rfl rfl rfl (by decide) (by decide)

theorem second_attended : move.Attended (atStart.step (passOn 97 97)) (passOn 98 97) :=
  attended_of_tests (by decide) rfl rfl rfl rfl (by decide +kernel) (by decide +kernel)

theorem last_attended :
    move.Attended (atStart.run [passOn 97 97, passOn 98 97]) (passOn 98 98) :=
  attended_of_tests (by decide) rfl rfl rfl rfl (by decide +kernel) (by decide +kernel)

/-- The two nodes move in two passes, and the third calls the group settled. -/
theorem staged_rollout_completes_two :
    let reached := atStart.run [passOn 97 97, passOn 98 97]
    (∀ node ∈ move.nodes, reached.assigned[node]? = some (deployment "b" {})) ∧
      (reached.outcome (passOn 98 98)).plan.groups["g"]? = some .settled ∧
      (reached.outcome (passOn 98 98)).admitted["g"]? = some ⟨deployment "b" {}, []⟩ := by
  have completes := staged_rollout_completes move move_possible atStart move_starts
    [passOn 97 97, passOn 98 97] ⟨first_attended, second_attended, trivial⟩
  exact ⟨completes.1.mpr (by decide),
    (completes.2 _ last_attended).2 (by decide) (by decide)⟩

/-- The same retarget of a group that has no nodes. -/
def empty : Retarget := { move with fleet := ∅ }

def emptyPass : PassInputs where
  inputs := { retarget with nodeGroups := ∅, reports := ∅, published := ∅ }
  now := 1000000000

/-- **A group without nodes never settles**: no pass is needed to hand its nodes the new body, and
the next pass calls it unobservable, with the predecessor still there. -/
theorem empty_group_not_settled :
    empty.Possible ∧ empty.Starts atStart ∧ empty.Attended atStart emptyPass ∧
      empty.nodes.length = 0 ∧
        (0 + empty.group.maxUnavailable - 1) / empty.group.maxUnavailable = 0 ∧
      (atStart.outcome emptyPass).plan.groups["g"]? = some .unobservable ∧
      (atStart.outcome emptyPass).admitted["g"]? =
        some ⟨deployment "b" {}, [deployment "a" {}]⟩ := by
  refine ⟨⟨by decide, by decide, by decide, by decide, rfl,
    by decide⟩, ⟨by decide, by decide, by decide, by decide⟩,
    ?_, by decide, by decide, by decide +kernel, by decide +kernel⟩
  have nobody : ∀ node, node ∉ empty.nodes := by
    have none : empty.nodes = [] := by decide
    simp [none]
  exact
    { asks := by decide
      fleet := rfl
      holds := rfl
      cordons := rfl
      blocked := rfl
      published := fun node member => absurd member (nobody node)
      converged := fun node member => absurd member (nobody node)
      others := fun node fleet => absurd fleet (by simp [empty]) }

end Updatedc.Sample.Staging
