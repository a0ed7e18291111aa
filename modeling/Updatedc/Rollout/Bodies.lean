import Updatedc.Rollout.Judgement

/-!
# Bodies through a pass

What a pass of the planner keeps of the bodies its entries store. Retirement gives up only what no
node of the fleet is placed on; the rollback response and admission only rearrange an entry; and
whatever the assignment hands a node is stored when the pass ends (`resolves_of_assigned`). The
entry of a group nobody plans is never anything but retired (`getElem?_planRollouts_of_unplanned`).
-/

namespace Updatedc

open Contracts

variable [Crates]

/-! ## Admission -/

section
variable {groups : BTreeMap String ResolvedGroup} {desired : BTreeMap String DesiredDeployment}
  {observations : Observations} {movement : MovementVerdict} {sweep : Sweep} {name : String}
  {identity : Sha256}

/-- A turn of the sweep drops no body. -/
theorem resolves_admitStep (h : sweep.admitted.Resolves identity) :
    (admitStep groups desired observations movement sweep name).admitted.Resolves identity := by
  obtain ⟨owner, state, deployment, entry, body, id⟩ := h
  rcases eq_or_ne owner name with rfl | different
  · rcases admitted_admitStep groups desired observations movement sweep owner with
      kept | ⟨group, target, -, became⟩
    · exact ⟨owner, state, deployment, kept.trans entry, body, id⟩
    · by_cases same : deployment = target
      · exact ⟨owner, _, target, became, List.mem_cons_self, same ▸ id⟩
      · exact ⟨owner, _, deployment, became,
          List.mem_cons_of_mem _ (mem_stagedFrom.mpr ⟨⟨state, entry, body⟩, same⟩), id⟩
  · exact ⟨owner, state, deployment, (admitted_admitStep_of_ne different).trans entry, body, id⟩

theorem resolves_foldl_admitStep (names : List String) (h : sweep.admitted.Resolves identity) :
    (names.foldl (admitStep groups desired observations movement) sweep).admitted.Resolves
      identity := by
  induction names generalizing sweep with
  | nil => exact h
  | cons first rest ih => exact ih (resolves_admitStep h)

end

/-! ## The whole pass -/

section
variable {sets : List UpdateGroupSet} {inputs : RolloutInputs} {admitted : Admitted}
  {vetoed : BTreeMap Sha256 VetoedDeployment} {log : ObservationLog}
  {verified : VerifiedReports} {now : DateTime} {name node : String} {identity : Sha256}

/-- A pass keeps every body some node of the fleet is placed on. -/
theorem resolves_planRollouts (fleet : node ∈ inputs.nodeGroups)
    (placed : (inputs.observations verified now).advanced node identity = true)
    (h : admitted.Resolves identity) :
    (planRollouts sets inputs admitted vetoed log verified now).admitted.Resolves identity :=
  resolves_foldl_admitStep _ <|
    resolves_rollbackResponse (judge sets inputs admitted vetoed log verified now).standing <|
      resolves_finishStagedRollouts fleet placed <| resolves_retireDeletedGroups fleet placed h

/-- What a pass assigns, it stores. -/
theorem resolves_of_assigned {deployment : DesiredDeployment}
    (pinned : ∀ (name : String) (state : AdmittedDeployment), inputs.held[name]? = some state →
      admitted[name]? = some state)
    (found : (planRollouts sets inputs admitted vetoed log verified
      now).plan.nodeDeployments[node]? = some deployment) :
    ∃ identity, deploymentIdentity deployment = some identity ∧
      (planRollouts sets inputs admitted vetoed log verified now).admitted.Resolves identity := by
  obtain ⟨name, group, state, currentId, routed, -, entry, id, assigned⟩ := exists_assigned found
  have fleet : node ∈ inputs.nodeGroups :=
    Std.ExtTreeMap.mem_iff_isSome_getElem?.mpr (Option.isSome_iff_exists.mpr ⟨name, routed⟩)
  cases assigned with
  | immediate | granted =>
    exact ⟨currentId, id, name, state, state.current, entry, List.mem_cons_self, id⟩
  | left evidence _ turn =>
    obtain ⟨identity, there, ⟨predecessor, known⟩ | running⟩ := left_cases turn
    · exact ⟨identity, known, name, state, deployment, entry,
        List.mem_cons_of_mem _ predecessor, known⟩
    · have known := deploymentIdentity_of_bodiesByIdentity running
      refine ⟨identity, known, ?_⟩
      obtain ⟨owner, listed, body⟩ := mem_of_bodiesByIdentity running
      rcases List.mem_append.mp listed with stored | pin
      · obtain ⟨other, found⟩ := BTreeMap.mem_values_iff.mp stored
        exact ⟨other, owner, deployment, found, body, known⟩
      · -- A pinned body survives the pass because this node is placed on it.
        obtain ⟨other, found⟩ := BTreeMap.mem_values_iff.mp pin
        exact resolves_planRollouts fleet there
          ⟨other, owner, deployment, pinned other owner found, body, known⟩

/-- **Where a `current` comes from**: the group asks for it, stood at it before the pass, or the
response rebased the group onto it. -/
theorem current_planRollouts {state : AdmittedDeployment}
    (found : (planRollouts sets inputs admitted vetoed log verified now).admitted[name]? =
      some state) :
    inputs.desired[name]? = some state.current ∨
      ∃ before, (inputs.retained admitted verified now)[name]? = some before ∧
        (state.current = before.current ∨
          let judged := judge sets inputs admitted vetoed log verified now
          ∃ rebase, rebase? (rollbackGroups sets inputs.desired inputs.groupLabels) inputs.desired
            judged.observations judged.regressions judged.movement.blocked name before =
              some rebase ∧ state.current = rebase.restored) := by
  let judged := judge sets inputs admitted vetoed log verified now
  rcases getElem?_admitPending inputs.groups inputs.desired judged.observations judged.movement
      name (buildSetPlans sets inputs.desired inputs.groupLabels judged.admitted
        judged.observations judged.movement now) judged.admitted with
    kept | ⟨target, asked, became⟩
  · have entry : judged.admitted[name]? = some state := kept.symm.trans found
    rw [getElem?_judge] at entry
    obtain ⟨before, retained, same⟩ := Option.map_eq_some_iff.mp entry
    refine .inr ⟨before, retained, ?_⟩
    cases rebased : rebase? (rollbackGroups sets inputs.desired inputs.groupLabels) inputs.desired
        judged.observations judged.regressions judged.movement.blocked name before with
    | none =>
      rw [rebased] at same
      exact .inl (congrArg AdmittedDeployment.current same.symm)
    | some rebase =>
      rw [rebased] at same
      exact .inr ⟨rebase, rebased, congrArg AdmittedDeployment.current same.symm⟩
  · have same := Option.some.inj (found.symm.trans became)
    exact .inl (asked.trans (congrArg some (congrArg AdmittedDeployment.current same.symm)))

/-- A planned group keeps its entry. -/
theorem mem_planRollouts (planned : name ∈ inputs.desired) (entry : name ∈ admitted) :
    name ∈ (planRollouts sets inputs admitted vetoed log verified now).admitted := by
  let judged := judge sets inputs admitted vetoed log verified now
  have before : judged.admitted[name]?.isSome = true := by
    rw [getElem?_judge, Option.isSome_map, ← Option.isSome_map (f := (·.current)),
      RolloutInputs.retained, current_retain planned, Option.isSome_map]
    exact Std.ExtTreeMap.mem_iff_isSome_getElem?.mp entry
  rw [Std.ExtTreeMap.mem_iff_isSome_getElem?]
  rcases getElem?_admitPending inputs.groups inputs.desired judged.observations judged.movement
      name (buildSetPlans sets inputs.desired inputs.groupLabels judged.admitted
        judged.observations judged.movement now) judged.admitted with
    kept | ⟨target, -, became⟩
  · exact (congrArg Option.isSome kept).trans before
  · exact congrArg Option.isSome became

/-- A planned group ends up standing at something it can publish, if it stood at such a deployment
before and asks for one. -/
theorem publishable_planRollouts {state : AdmittedDeployment} {target : DesiredDeployment}
    (asked : inputs.desired[name]? = some target) (entry : admitted[name]? = some state)
    (current : deploymentIdentity state.current ≠ none)
    (publishable : deploymentIdentity target ≠ none) :
    ∃ after identity,
      (planRollouts sets inputs admitted vetoed log verified now).admitted[name]? = some after ∧
        deploymentIdentity after.current = some identity := by
  have planned : name ∈ inputs.desired :=
    Std.ExtTreeMap.mem_iff_isSome_getElem?.mpr (Option.isSome_iff_exists.mpr ⟨target, asked⟩)
  have kept : name ∈ (planRollouts sets inputs admitted vetoed log verified now).admitted :=
    mem_planRollouts planned
      (Std.ExtTreeMap.mem_iff_isSome_getElem?.mpr (Option.isSome_iff_exists.mpr ⟨state, entry⟩))
  obtain ⟨after, found⟩ := Option.isSome_iff_exists.mp
    (Std.ExtTreeMap.mem_iff_isSome_getElem?.mp kept)
  suffices known : deploymentIdentity after.current ≠ none by
    obtain ⟨identity, id⟩ := Option.ne_none_iff_exists'.mp known
    exact ⟨after, identity, found, id⟩
  rcases current_planRollouts found with same | ⟨before, retained, same | ⟨_, rebased, same⟩⟩
  · rwa [← Option.some.inj (asked.symm.trans same)]
  · rwa [same, current_retained planned retained entry]
  · obtain ⟨_, -, restores⟩ := exists_restoration (rebase?_gates rebased).target
    obtain ⟨identity, known, -⟩ := restoration_permitted restores
    rw [same, known]
    exact Option.some_ne_none identity

/-- The entry of a group nobody plans is only retired. -/
theorem getElem?_planRollouts_of_unplanned (unplanned : inputs.groups[name]? = none) :
    (planRollouts sets inputs admitted vetoed log verified now).admitted[name]? =
      (retireDeletedGroups admitted inputs.desired
        (inputs.observations verified now))[name]? := by
  have undesired : name ∉ inputs.desired := by
    simp [RolloutInputs.desired, Std.ExtTreeMap.mem_iff_isSome_getElem?, unplanned]
  have notPending : ∀ plans before,
      name ∉ pendingGroups inputs.desired plans before := by
    intro plans before pending
    rw [pendingGroups, List.mem_insertionSort, List.mem_filter, Std.ExtTreeMap.mem_keys] at pending
    exact undesired pending.1
  have absent : inputs.desired.contains name = false :=
    Bool.eq_false_iff.mpr fun present => undesired (Std.ExtTreeMap.contains_iff_mem.mp present)
  refine (admitted_foldl_of_not_mem (notPending _ _)).trans (getElem?_judge name |>.trans ?_)
  rw [RolloutInputs.retained, retain, getElem?_finishStagedRollouts]
  cases (retireDeletedGroups admitted inputs.desired (inputs.observations verified now))[name]?
    <;> simp [rebase?, finishStaged, absent]

/-- It stays for as long as some node of the fleet is placed on one of its bodies. -/
theorem mem_planRollouts_of_placed {state : AdmittedDeployment} {deployment : DesiredDeployment}
    (unplanned : inputs.groups[name]? = none) (entry : admitted[name]? = some state)
    (body : deployment ∈ state.bodies) (id : deploymentIdentity deployment = some identity)
    (fleet : node ∈ inputs.nodeGroups)
    (placed : (inputs.observations verified now).advanced node identity = true) :
    name ∈ (planRollouts sets inputs admitted vetoed log verified now).admitted := by
  rw [Std.ExtTreeMap.mem_iff_isSome_getElem?, getElem?_planRollouts_of_unplanned unplanned,
    getElem?_retireDeletedGroups, entry, Option.bind_some]
  have live : deployment ∈
      state.bodies.filter (inputs.observations verified now).placedAnywhere :=
    List.mem_filter.mpr ⟨body, Observations.placedAnywhere_of_advanced fleet id placed⟩
  split_ifs
  · rfl
  · split
    · next none => rw [none] at live; cases live
    · rfl

end

end Updatedc
