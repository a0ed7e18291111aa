import Updatedc.Rollout.Judgement

/-!
# What admission guarantees

The gates of one sweep, as properties of the whole pass: a newly admitted group found its inputs
ready, its target unblocked, its prerequisites settled, and, unless there was nothing to protect,
every governing set open and with a slot to spare. Slots are shared counters and admissions change
what later gates read; the statements compare only the state before admission with the state after
it.
-/

namespace Updatedc

open Contracts

variable [Crates]

/-! ## One admission -/

section
variable {groups : BTreeMap String ResolvedGroup} {desired : BTreeMap String DesiredDeployment}
  {observations : Observations} {movement : MovementVerdict} {plans : List SetPlan}
  {admitted : Admitted} {name : String}

omit [Crates] in
/-- What was newly admitted was pending. -/
theorem mem_pendingGroups_of_newlyAdmitted {after : Admitted}
    (new : newlyAdmitted desired admitted after name = true) :
    name ∈ pendingGroups desired plans admitted := by
  obtain ⟨target, asked, moved⟩ := (Option.any_eq_true _ _).mp new
  refine mem_pendingGroups.mpr
    ⟨Std.ExtTreeMap.mem_iff_isSome_getElem?.mpr (by simp [asked]), ?_⟩
  unfold isPending
  cases entry : admitted[name]? with
  | none => rfl
  | some state =>
    simp only [entry, Option.any_some, Bool.and_eq_true, Bool.not_eq_true',
      decide_eq_false_iff_not] at moved
    simpa [asked] using fun same => moved.2 same.symm

/-- A newly admitted group passed the common gates in its turn, and was greenfield, ungoverned, or
on schedule. -/
theorem gates_of_newlyAdmitted
    (new : newlyAdmitted desired admitted
      (admitPending groups desired plans admitted observations movement).admitted name = true) :
    ∃ mid group target,
      TurnAt groups desired observations movement ⟨plans, admitted⟩
        (pendingGroups desired plans admitted) name mid ∧
      CommonGates groups desired observations movement mid.admitted name group target ∧
      (isGreenfield observations mid.admitted name = true ∨
        (∀ plan ∈ mid.plans, plan.governs name = false) ∨ Scheduled mid.plans group name) := by
  obtain ⟨mid, turn⟩ : ∃ mid, TurnAt groups desired observations movement ⟨plans, admitted⟩
      (pendingGroups desired plans admitted) name mid :=
    exists_turnAt nodup_pendingGroups (mem_pendingGroups_of_newlyAdmitted new)
  have reason := admitStep_cases groups desired observations movement mid name
  have last := turn.last
  generalize admitStep groups desired observations movement mid name = next at reason last
  cases reason with
  | refused =>
    have unchanged : (admitPending groups desired plans admitted observations
        movement).admitted[name]? = admitted[name]? := last.trans turn.first
    simp [newlyAdmitted, unchanged] at new
  | greenfield group target gates fresh => exact ⟨mid, group, target, turn, gates, .inl fresh⟩
  | ungoverned group target gates free =>
    exact ⟨mid, group, target, turn, gates, .inr (.inl free)⟩
  | rolling group target gates scheduled | slot group target gates scheduled =>
    exact ⟨mid, group, target, turn, gates, .inr (.inr scheduled)⟩

/-- Whether a group is greenfield is read off its own entry. -/
theorem isGreenfield_congr {before before' : Admitted} (same : before[name]? = before'[name]?) :
    isGreenfield observations before name = isGreenfield observations before' name := by
  simp only [isGreenfield, Std.ExtTreeMap.contains_eq_isSome_getElem?, same]

/-- The members of a set that take a slot are no more than the slots its plan starts with. -/
theorem countP_members_le {i : Nat} {plan : SetPlan} (listed : plans[i]? = some plan)
    (distinct : plan.members.Nodup) :
    plan.members.countP (takesSlot desired observations movement admitted
      (admitPending groups desired plans admitted observations movement).admitted) ≤
      plan.slots := by
  let after := (admitPending groups desired plans admitted observations movement).admitted
  let takes := takesSlot desired observations movement admitted after
  have covered : plan.members.filter takes ⊆
      (pendingGroups desired plans admitted).filter fun name =>
        plan.governs name && takes name := by
    intro name member
    obtain ⟨governed, taken⟩ := List.mem_filter.mp member
    have new : newlyAdmitted desired admitted after name = true := by
      simp only [takes, takesSlot, Bool.and_eq_true] at taken
      exact taken.1.1
    refine List.mem_filter.mpr ⟨mem_pendingGroups_of_newlyAdmitted new, ?_⟩
    simp [SetPlan.governs, governed, taken]
  calc plan.members.countP takes
      = (plan.members.filter takes).length := List.countP_eq_length_filter
    _ ≤ ((pendingGroups desired plans admitted).filter fun name =>
          plan.governs name && takes name).length :=
        ((distinct.filter _).subperm covered).length_le
    _ = (pendingGroups desired plans admitted).countP fun name =>
          plan.governs name && takes name := List.countP_eq_length_filter.symm
    _ ≤ plan.slots := countP_takesSlot_le nodup_pendingGroups listed

end

/-! ## Sets -/

section
variable {sets : List UpdateGroupSet} {desired : BTreeMap String DesiredDeployment}
  {groupLabels : BTreeMap String Labels} {admitted : Admitted} {observations : Observations}
  {movement : MovementVerdict} {now : DateTime} {set : UpdateGroupSet}

theorem exists_buildSetPlans (governing : set ∈ sets) :
    ∃ i : Nat, (buildSetPlans sets desired groupLabels admitted observations movement now)[i]? =
      some (buildSetPlan desired groupLabels admitted observations movement now set) := by
  obtain ⟨i, listed⟩ := List.mem_iff_getElem?.mp governing
  exact ⟨i, by simp [buildSetPlans, listed]⟩

omit [Crates] in
theorem nodup_setMembers : (setMembers set desired groupLabels).Nodup :=
  Std.ExtTreeMap.nodup_keys.filter _

/-- The slots a set offers, and those already held, stay within its concurrency, unless more are
held to begin with. -/
theorem held_add_slots_le :
    let members := setMembers set desired groupLabels
    let plan := buildSetPlan desired groupLabels admitted observations movement now set
    members.countP (observations.holdsSlot admitted movement) + plan.slots ≤
      max (set.effectiveMaxConcurrent members.length)
        (members.countP (observations.holdsSlot admitted movement)) := by
  intro members plan
  have slots : plan.slots =
      set.concurrency members - members.countP (observations.holdsSlot admitted movement) := rfl
  have within : set.concurrency members ≤ set.effectiveMaxConcurrent members.length := by
    unfold UpdateGroupSet.concurrency
    split
    · exact Nat.zero_le _
    · exact le_rfl
  omega

/-- Through the whole sweep, a set's plan still says what it governs and whether it is frozen. -/
theorem exists_governing_plan {plans : List SetPlan} {name : String}
    (same : plans.map SetPlan.shape = (buildSetPlans sets desired groupLabels admitted
      observations movement now).map SetPlan.shape)
    (governing : set ∈ sets) (member : name ∈ setMembers set desired groupLabels) :
    ∃ plan ∈ plans, plan.governs name = true ∧ plan.frozen = !set.isOpen now := by
  have shape : (buildSetPlan desired groupLabels admitted observations movement now set).shape ∈
      plans.map SetPlan.shape := by
    rw [same]
    exact List.mem_map_of_mem (List.mem_map_of_mem governing)
  obtain ⟨plan, listed, equal⟩ := List.mem_map.mp shape
  obtain ⟨members, frozen⟩ := Prod.mk.inj equal
  refine ⟨plan, listed, ?_, frozen⟩
  rw [SetPlan.governs, members]
  exact List.contains_iff_mem.mpr member

end

/-! ## Admission respects every governing set -/

/-- **Admission respects every governing set.** However the sets overlap: the slots held before
admission and those newly taken stay within each set's concurrency, unless more were held already;
a newly admitted group over published machines finds each of its sets open, or declares an
emergency correction; and every newly admitted group has its inputs, and a target the verdict does
not block. -/
theorem planRollouts_admission_respects_sets (sets : List UpdateGroupSet) (inputs : RolloutInputs)
    (admitted : Admitted) (vetoed : BTreeMap Sha256 VetoedDeployment) (log : ObservationLog)
    (verified : VerifiedReports) (now : DateTime) :
    let judged := judge sets inputs admitted vetoed log verified now
    let outcome := planRollouts sets inputs admitted vetoed log verified now
    let isNew := newlyAdmitted inputs.desired judged.admitted outcome.admitted
    let holdsSlot := judged.observations.holdsSlot judged.admitted judged.movement
    let greenfield := isGreenfield judged.observations judged.admitted
    let members := fun set => setMembers set inputs.desired inputs.groupLabels
    (∀ set ∈ sets,
      (members set).countP holdsSlot +
          (members set).countP (fun name => isNew name && !holdsSlot name && !greenfield name) ≤
        max (set.effectiveMaxConcurrent (members set).length)
          ((members set).countP holdsSlot)) ∧
    (∀ set ∈ sets, ∀ name ∈ members set, isNew name = true → greenfield name = false →
      set.isOpen now = true ∨ ∃ group,
        inputs.groups[name]? = some group ∧ group.emergencyCorrection = true) ∧
    (∀ name, isNew name = true → ∃ group, inputs.groups[name]? = some group ∧
      group.inputsReady = true ∧ ∀ identity, deploymentIdentity group.deployment = some identity →
        identity ∉ outcome.plan.blocked) := by
  intro judged outcome isNew holdsSlot greenfield members
  refine ⟨fun set governing => ?_, fun set governing name member new published => ?_,
    fun name new => ?_⟩
  · let plan := buildSetPlan inputs.desired inputs.groupLabels judged.admitted
      judged.observations judged.movement now set
    obtain ⟨i, listed⟩ : ∃ i : Nat, (buildSetPlans sets inputs.desired inputs.groupLabels
        judged.admitted judged.observations judged.movement now)[i]? = some plan :=
      exists_buildSetPlans governing
    have taken : (members set).countP
        (fun name => isNew name && !holdsSlot name && !greenfield name) ≤ plan.slots :=
      countP_members_le listed nodup_setMembers
    calc _ ≤ (members set).countP holdsSlot + plan.slots := Nat.add_le_add_left taken _
      _ ≤ _ := held_add_slots_le
  · obtain ⟨mid, group, target, turn, gates, fresh | free | scheduled⟩ :=
      gates_of_newlyAdmitted new
    · rw [isGreenfield_congr turn.first] at fresh
      exact Bool.noConfusion (fresh.symm.trans published)
    · obtain ⟨plan, listed, governs, -⟩ := exists_governing_plan turn.shape governing member
      exact Bool.noConfusion (governs.symm.trans (free plan listed))
    · obtain ⟨plan, listed, governs, frozen⟩ := exists_governing_plan turn.shape governing member
      rcases scheduled with unfrozen | emergency
      · rw [unfrozen plan listed governs] at frozen
        exact .inl (by simpa using frozen)
      · exact .inr ⟨group, gates.planned, emergency⟩
  · obtain ⟨mid, group, target, turn, gates, -⟩ := gates_of_newlyAdmitted new
    refine ⟨group, gates.planned, gates.ready, fun identity id => gates.unblocked identity ?_⟩
    have asked : inputs.desired[name]? = some group.deployment := by
      simp [RolloutInputs.desired, gates.planned]
    rwa [Option.some.inj (gates.asked.symm.trans asked)]

/-! ## Settled groups -/

section
variable {observations : Observations} {group node : String} {state : AdmittedDeployment}
  {movement : MovementVerdict} {current : DesiredDeployment} {identity : Sha256} {halted : Bool}
  {rejected : Finset String}

/-- What a settled group's walk saw of one node. -/
theorem sight_of_settled (id : deploymentIdentity state.current = some identity)
    (settled : observations.progress group state movement = .settled)
    (member : node ∈ observations.nodes group) :
    let sight := observations.sight state.current identity (decide (identity ∈ movement.blocked))
      (movement.proofs[identity]?.getD ∅) node
    sight = .absent ∨ sight = .committed ∨ sight = .unseen := by
  intro sight
  obtain ⟨still, unfailed, unblocked, -⟩ := (GroupObservation.verdict_settled_iff _).mp settled
  simp only [Observations.observe, id, List.any_map, List.any_eq_false, Function.comp_apply]
    at still unfailed unblocked
  have notMoving := still node member
  have notRejected := unfailed node member
  have notRefused := unblocked node member
  change ¬(decide (sight = _) || decide (sight = _)) = true at notMoving
  change ¬decide (sight = _) = true at notRejected notRefused
  cases found : sight <;> simp_all

/-- Some node of a settled group is committed. -/
theorem exists_committed (id : deploymentIdentity state.current = some identity)
    (settled : observations.progress group state movement = .settled) :
    ∃ node ∈ observations.nodes group,
      observations.sight state.current identity (decide (identity ∈ movement.blocked))
        (movement.proofs[identity]?.getD ∅) node = .committed := by
  obtain ⟨still, unfailed, -, seen⟩ := (GroupObservation.verdict_settled_iff _).mp settled
  simp only [Observations.observe, id, List.any_map, List.any_eq_true, Function.comp_apply]
    at seen
  obtain ⟨node, member, sight⟩ := seen
  refine ⟨node, member, ?_⟩
  have possible := sight_of_settled id settled member
  rcases possible with absent | committed | unseen
  · simp [absent] at sight
  · exact committed
  · simp [unseen] at sight

/-- A group is settled only once its current has an identity. -/
theorem identity_of_settled
    (settled : observations.progress group state movement = .settled) :
    ∃ identity, deploymentIdentity state.current = some identity := by
  cases id : deploymentIdentity state.current with
  | some identity => exact ⟨identity, rfl⟩
  | none =>
    have unobservable : observations.progress group state movement = .unobservable := by
      simp only [Observations.progress, Observations.observe, id]
      rfl
    cases unobservable.symm.trans settled

/-- **What a settled group proves.** Each of its nodes in rotation was handed its `current` and,
if it can report, has converged to it without ever rejecting it; and there is such a node. -/
theorem settled_spec (id : deploymentIdentity state.current = some identity)
    (settled : observations.progress group state movement = .settled) :
    (∀ node ∈ observations.nodes group, node ∉ observations.cordons →
      observations.advanced node identity = true ∧
      (observations.publicKeys.contains node = true →
        node ∉ movement.proofs[identity]?.getD ∅ ∧
          observations.converged node identity state.current = true)) ∧
    ∃ node ∈ observations.nodes group, node ∉ observations.cordons ∧
      observations.publicKeys.contains node = true ∧
      node ∉ movement.proofs[identity]?.getD ∅ ∧
      observations.converged node identity state.current = true := by
  constructor
  · intro node member present
    have possible := sight_of_settled id settled member
    have reason := observations.sight_cases state.current identity
      (decide (identity ∈ movement.blocked)) (movement.proofs[identity]?.getD ∅) node
    dsimp only at possible
    generalize observations.sight _ _ _ _ node = sight at possible reason
    rcases possible with rfl | rfl | rfl
    · cases reason with
      | absent out => exact absurd out present
    · cases reason with
      | committed _ unproven handed _ converged => exact ⟨handed, fun _ => ⟨unproven, converged⟩⟩
    · cases reason with
      | unseen _ handed blind =>
        exact ⟨handed, fun keyed => Bool.noConfusion (keyed.symm.trans blind)⟩
  · obtain ⟨node, member, found⟩ := exists_committed id settled
    have reason := observations.sight_cases state.current identity
      (decide (identity ∈ movement.blocked)) (movement.proofs[identity]?.getD ∅) node
    rw [found] at reason
    cases reason with
    | committed present unproven _ keyed converged =>
      exact ⟨node, member, present, keyed, unproven, converged⟩

end

/-! ## The dependency gate -/

section
variable {inputs : RolloutInputs} {admitted : Admitted} {verified : VerifiedReports}
  {now : DateTime}

/-- The deployment has landed on the node: its fresh authentic report is healthy and converged to
exactly this identity and target package, and no rejection of it is on record. -/
def RolloutInputs.HasLanded (inputs : RolloutInputs) (log : ObservationLog)
    (verified : VerifiedReports) (now : DateTime) (deployment : DesiredDeployment)
    (identity : Sha256) (node : String) : Prop :=
  node ∉ inputs.provers log verified now identity ∧
    ∃ report reference, inputs.report now node = some report ∧
      deployment.application.targetReference = .ok reference ∧ report.healthy = true ∧
      report.isConvergedTo (.canonical identity) reference.sha256 = true

/-- A convergence the planner reads is one the node reports. -/
theorem report_of_converged {node : String} {identity : Sha256} {current : DesiredDeployment}
    (converged : (inputs.observations verified now).converged node identity current = true) :
    ∃ report reference, inputs.report now node = some report ∧
      current.application.targetReference = .ok reference ∧ report.healthy = true ∧
      report.isConvergedTo (.canonical identity) reference.sha256 = true := by
  obtain ⟨report, found, there⟩ := (Option.any_eq_true _ _).mp converged
  rw [report_observations] at found
  cases target : current.application.targetReference with
  | error => simp [target] at there
  | ok reference =>
    rw [target] at there
    have well : report.healthy = true := by
      simp only [NodeReport.isConvergedTo, Bool.and_eq_true] at there
      exact there.1.1.1.2
    exact ⟨report, reference, found, rfl, well, there⟩

/-- A gate that reads a group settled reads an entry that is what the operator asks for. -/
theorem classify_settled {name : String} {desired : BTreeMap String DesiredDeployment}
    {observations : Observations} {movement : MovementVerdict}
    (settled : classify name desired admitted observations movement = .settled) :
    ∃ state, admitted[name]? = some state ∧ desired[name]? = some state.current ∧
      observations.progress name state movement = .settled := by
  unfold classify at settled
  split at settled
  · next state entry =>
    split at settled
    · next asked => exact ⟨state, entry, asked, settled⟩
    · cases settled
  · cases settled

/-- What a turn reads as settled is still so when the sweep ends: a group that has yet to take its
own turn is pending, and no pending group is settled. -/
theorem TurnAt.settled_last {groups : BTreeMap String ResolvedGroup}
    {desired : BTreeMap String DesiredDeployment} {observations : Observations}
    {movement : MovementVerdict} {plans : List SetPlan} {name dependency : String} {mid : Sweep}
    {state : AdmittedDeployment}
    (turn : TurnAt groups desired observations movement ⟨plans, admitted⟩
      (pendingGroups desired plans admitted) name mid)
    (entry : mid.admitted[dependency]? = some state)
    (asked : desired[dependency]? = some state.current) :
    (admitPending groups desired plans admitted observations movement).admitted[dependency]? =
      some state := by
  rcases turn.others dependency with final | ⟨waiting, first⟩
  · exact final.symm.trans entry
  · have entry' : admitted[dependency]? = some state := first.symm.trans entry
    have pending := (mem_pendingGroups.mp waiting).2
    simp [isPending, entry', asked] at pending

end

/-- **The dependency gate.** When a group is newly admitted, each of its dependencies is, at the
end of admission, admitted to what it asks for; every node of it in rotation has been handed that
deployment; on every one of them that can report it has landed; and there is one. -/
theorem planRollouts_dependencies_landed (sets : List UpdateGroupSet) (inputs : RolloutInputs)
    (admitted : Admitted) (vetoed : BTreeMap Sha256 VetoedDeployment) (log : ObservationLog)
    (verified : VerifiedReports) (now : DateTime) (name dependency : String)
    (group : ResolvedGroup) (planned : inputs.groups[name]? = some group)
    (listed : dependency ∈ group.dependsOn)
    (new : newlyAdmitted inputs.desired
      (judge sets inputs admitted vetoed log verified now).admitted
      (planRollouts sets inputs admitted vetoed log verified now).admitted name = true) :
    ∃ state identity,
      (planRollouts sets inputs admitted vetoed log verified now).admitted[dependency]? =
        some state ∧
      inputs.desired[dependency]? = some state.current ∧
      deploymentIdentity state.current = some identity ∧
      (∀ node ∈ inputs.members dependency, node ∉ inputs.cordons →
        inputs.isOn now node identity = true ∧ (inputs.publicKeys.contains node = true →
          inputs.HasLanded log verified now state.current identity node)) ∧
      ∃ node ∈ inputs.members dependency, node ∉ inputs.cordons ∧
        inputs.publicKeys.contains node = true ∧
        inputs.HasLanded log verified now state.current identity node := by
  obtain ⟨mid, ownGroup, target, turn, gates, -⟩ := gates_of_newlyAdmitted new
  obtain rfl : ownGroup = group := Option.some.inj (gates.planned.symm.trans planned)
  obtain ⟨state, entry, asked, settled⟩ := classify_settled (gates.settled dependency listed)
  obtain ⟨identity, id⟩ := identity_of_settled settled
  -- The dependency asks for it, so the walk saw every remembered rejection of it.
  have candidate : IsCandidate (inputs.retained admitted verified now) inputs.desired identity :=
    isCandidate_iff.mpr (.inr ⟨dependency, state.current, asked, id⟩)
  obtain ⟨everywhere, node, routed, present, keyed, unproven, converged⟩ :=
    settled_spec id settled
  rw [proofs_judge candidate] at everywhere unproven
  refine ⟨state, identity, turn.settled_last entry asked, asked, id, ?_, node,
    mem_members.mpr ((inputs.observations verified now).mem_nodes.mp routed), present, keyed,
    unproven, report_of_converged converged⟩
  intro node member present
  obtain ⟨handed, landed⟩ := everywhere node
    ((inputs.observations verified now).mem_nodes.mpr (mem_members.mp member)) present
  refine ⟨(advanced_observations identity).symm.trans handed, fun keyed => ?_⟩
  exact ⟨(landed keyed).1, report_of_converged (landed keyed).2⟩

end Updatedc

namespace Updatedc.Sample

open Contracts

/-- Two groups over one node each, both asked from `a` to `b`, the second after the first. -/
def orderedGroups : BTreeMap String ResolvedGroup :=
  table [
    ("g", { name := "g", matchLabels := ∅, deployment := deployment "b" {}, maxUnavailable := 1 }),
    ("h", { name := "h", matchLabels := ∅, dependsOn := ["g"], deployment := deployment "b" {},
            maxUnavailable := 1 })]

/-- The first group has landed: node `m` is healthy on `b`. -/
def ordered : RolloutInputs :=
  { retarget with
    groups := orderedGroups
    groupLabels := table [("g", ∅), ("h", ∅)]
    nodeGroups := table [("m", "g"), ("n", "h")]
    reports := table [("m", envelope 109 98 0 1), ("n", envelope 110 97 0 1)]
    published := table [("m", 98), ("n", 97)] }

def orderedAdmitted : Admitted :=
  table [("g", { current := deployment "b" {} }), ("h", { current := deployment "a" {} })]

/-- The one set over both groups. -/
def orderedSet : UpdateGroupSet := { name := "s", matchLabels := ∅, maxConcurrent := some 1 }

/-- The second group is admitted, and its set was open. -/
theorem planRollouts_admission_respects_sets_second :
    newlyAdmitted ordered.desired
        (judge [orderedSet] ordered orderedAdmitted ∅ {} .empty 1000000000).admitted
        (planRollouts [orderedSet] ordered orderedAdmitted ∅ {} .empty 1000000000).admitted "h" =
      true ∧
    ∃ group, ordered.groups["h"]? = some group ∧ group.inputsReady = true := by
  have new : newlyAdmitted ordered.desired
      (judge [orderedSet] ordered orderedAdmitted ∅ {} .empty 1000000000).admitted
      (planRollouts [orderedSet] ordered orderedAdmitted ∅ {} .empty 1000000000).admitted "h" =
        true := by decide +kernel
  obtain ⟨group, planned, ready, -⟩ := (planRollouts_admission_respects_sets [orderedSet] ordered
    orderedAdmitted ∅ {} .empty 1000000000).2.2 "h" new
  exact ⟨new, group, planned, ready⟩

/-- The second group is admitted, so the first has landed on a node. -/
theorem planRollouts_dependencies_landed_second :
    ∃ identity, ∃ node ∈ ordered.members "g",
      ordered.HasLanded {} .empty 1000000000 (deployment "b" {}) identity node := by
  obtain ⟨state, identity, -, asked, -, -, node, member, -, -, landed⟩ :=
    planRollouts_dependencies_landed [orderedSet] ordered orderedAdmitted ∅ {} .empty 1000000000
      "h" "g"
      { name := "h", matchLabels := ∅, dependsOn := ["g"], deployment := deployment "b" {},
        maxUnavailable := 1 }
      (by decide) (by decide) (by decide +kernel)
  have target : ordered.desired["g"]? = some (deployment "b" {}) := by decide
  rw [← Option.some.inj (target.symm.trans asked)] at landed
  exact ⟨identity, node, member, landed⟩

end Updatedc.Sample
