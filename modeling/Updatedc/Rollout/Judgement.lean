import Updatedc.Rollout.Availability

/-!
# What a pass refuses

The movement verdict of a pass, read back to its inputs (`RolloutInputs.Refuses`,
`mem_blocked_iff`). Judged are the bodies groups ask for and the
bodies entries stand at; a veto stands for as long as its identity is live (`mem_standing_iff`).
-/

namespace Updatedc

open Contracts

variable [Crates]

section
variable {admitted : Admitted} {desired : BTreeMap String DesiredDeployment} {identity : Sha256}

theorem mem_liveIdentities :
    identity ∈ liveIdentities admitted desired ↔
      admitted.Resolves identity ∨ ∃ (name : String) (target : DesiredDeployment),
        desired[name]? = some target ∧ deploymentIdentity target = some identity := by
  simp only [liveIdentities, List.mem_toFinset, List.mem_filterMap, List.mem_append,
    List.mem_flatMap, BTreeMap.mem_values_iff, Admitted.Resolves]
  constructor
  · rintro ⟨deployment, ⟨state, ⟨name, entry⟩, body⟩ | ⟨name, asked⟩, id⟩
    · exact .inl ⟨name, state, deployment, entry, body, id⟩
    · exact .inr ⟨name, deployment, asked, id⟩
  · rintro (⟨name, state, deployment, entry, body, id⟩ | ⟨name, deployment, asked, id⟩)
    · exact ⟨deployment, .inl ⟨state, ⟨name, entry⟩, body⟩, id⟩
    · exact ⟨deployment, .inr ⟨name, asked⟩, id⟩

theorem isCandidate_iff :
    IsCandidate admitted desired identity ↔
      (∃ (name : String) (state : AdmittedDeployment), admitted[name]? = some state ∧
        deploymentIdentity state.current = some identity) ∨
      ∃ (name : String) (target : DesiredDeployment), desired[name]? = some target ∧
        deploymentIdentity target = some identity := by
  simp only [IsCandidate, candidates, List.mem_append, List.mem_map, BTreeMap.mem_values_iff]
  constructor
  · rintro ⟨target, ⟨state, ⟨name, entry⟩, rfl⟩ | ⟨name, asked⟩, id⟩
    · exact .inl ⟨name, state, entry, id⟩
    · exact .inr ⟨name, target, asked, id⟩
  · rintro (⟨name, state, entry, id⟩ | ⟨name, target, asked, id⟩)
    · exact ⟨state.current, .inl ⟨state, ⟨name, entry⟩, rfl⟩, id⟩
    · exact ⟨target, .inr ⟨name, asked⟩, id⟩

/-- What is judged is live. -/
theorem IsCandidate.live (candidate : IsCandidate admitted desired identity) :
    identity ∈ liveIdentities admitted desired := by
  rw [mem_liveIdentities]
  rcases isCandidate_iff.mp candidate with ⟨name, state, entry, id⟩ | asked
  · exact .inl ⟨name, state, state.current, entry, List.mem_cons_self, id⟩
  · exact .inr asked

variable {observations : Observations}

/-- Retention leaves what a planned group stands at alone. -/
theorem current_retain {name : String} (planned : name ∈ desired) :
    (retain admitted desired observations)[name]?.map (·.current) =
      admitted[name]?.map (·.current) := by
  unfold retain
  rw [getElem?_finishStagedRollouts, getElem?_retireDeletedGroups_of_desired
    (Std.ExtTreeMap.contains_iff_mem.mpr planned)]
  cases admitted[name]? <;> simp

theorem namedIdentities_retain {name : String} (planned : name ∈ desired) :
    namedIdentities name desired (retain admitted desired observations) =
      namedIdentities name desired admitted := by
  unfold namedIdentities
  rw [current_retain planned]

/-- Thresholds are the same before and after retention. -/
theorem threshold_retain (sets : List UpdateGroupSet) (groupLabels : BTreeMap String Labels) :
    threshold sets desired groupLabels (retain admitted desired observations) identity =
      threshold sets desired groupLabels admitted identity := by
  have same : ∀ set : UpdateGroupSet,
      ((setMembers set desired groupLabels).any fun member =>
        (namedIdentities member desired (retain admitted desired observations)).contains
          identity) =
      (setMembers set desired groupLabels).any fun member =>
        (namedIdentities member desired admitted).contains identity := by
    intro set
    rw [Bool.eq_iff_iff, List.any_eq_true, List.any_eq_true]
    refine exists_congr fun member => and_congr_right fun listed => ?_
    rw [namedIdentities_retain (Std.ExtTreeMap.mem_keys.mp (List.mem_of_mem_filter listed))]
  unfold threshold
  simp only [same]

end

/-! ## The judgement -/

section
variable {sets : List UpdateGroupSet} {inputs : RolloutInputs} {admitted : Admitted}
  {vetoed : BTreeMap Sha256 VetoedDeployment} {log : ObservationLog}
  {verified : VerifiedReports} {now : DateTime} {identity : Sha256}

/-- The nodes remembered to have rejected an identity, with this pass's claims folded in. -/
def RolloutInputs.provers (inputs : RolloutInputs) (log : ObservationLog)
    (verified : VerifiedReports) (now : DateTime) (identity : Sha256) : Finset String :=
  (noteClaims (inputs.observations verified now)
    (log.noteReported inputs.reports.keys)).provers identity

/-- The admitted state of a pass once retirement has run. -/
def RolloutInputs.retained (inputs : RolloutInputs) (admitted : Admitted)
    (verified : VerifiedReports) (now : DateTime) : Admitted :=
  retain admitted inputs.desired (inputs.observations verified now)

/-- Retirement leaves what a planned group stands at alone. -/
theorem current_retained {name : String} {before state : AdmittedDeployment}
    (planned : name ∈ inputs.desired)
    (retained : (inputs.retained admitted verified now)[name]? = some before)
    (entry : admitted[name]? = some state) : before.current = state.current := by
  have same : (inputs.retained admitted verified now)[name]?.map (·.current) =
      admitted[name]?.map (·.current) := current_retain planned
  rw [retained, entry] at same
  exact Option.some.inj same

/-- A pass finds the identity named: a group asks for it, a planned group stands at it, or an entry
stores it and some node of the fleet is on it. -/
def RolloutInputs.Names (inputs : RolloutInputs) (admitted : Admitted) (now : DateTime)
    (identity : Sha256) : Prop :=
  (∃ (name : String) (target : DesiredDeployment), inputs.desired[name]? = some target ∧
    deploymentIdentity target = some identity) ∨
  (∃ (name : String) (state : AdmittedDeployment), name ∈ inputs.desired ∧
    admitted[name]? = some state ∧ deploymentIdentity state.current = some identity) ∨
  (admitted.Resolves identity ∧
    ∃ node ∈ inputs.nodeGroups, inputs.isOn now node identity = true)

/-- What a pass finds named survives its retirement. -/
theorem RolloutInputs.Names.live (names : inputs.Names admitted now identity) :
    identity ∈ liveIdentities (inputs.retained admitted verified now) inputs.desired := by
  rw [mem_liveIdentities]
  rcases names with asked | ⟨name, state, planned, entry, id⟩ | ⟨stored, node, fleet, there⟩
  · exact .inr asked
  · obtain ⟨before, retained⟩ : ∃ before,
        (inputs.retained admitted verified now)[name]? = some before := by
      have same : (inputs.retained admitted verified now)[name]?.map (·.current) =
          admitted[name]?.map (·.current) := current_retain planned
      rw [entry] at same
      obtain ⟨before, found, -⟩ := Option.map_eq_some_iff.mp same
      exact ⟨before, found⟩
    exact .inl ⟨name, before, before.current, retained, List.mem_cons_self,
      (current_retained planned retained entry).symm ▸ id⟩
  · have placed : (inputs.observations verified now).advanced node identity = true :=
      (advanced_observations identity).trans there
    exact .inl (resolves_finishStagedRollouts fleet placed
      (resolves_retireDeletedGroups fleet placed stored))

/-- The state admission starts from: what retirement leaves, rebased where the response says. -/
theorem getElem?_judge (name : String) :
    let judged := judge sets inputs admitted vetoed log verified now
    judged.admitted[name]? =
      (inputs.retained admitted verified now)[name]?.map fun state =>
        (rebase? (rollbackGroups sets inputs.desired inputs.groupLabels) inputs.desired
          judged.observations judged.regressions judged.movement.blocked name state).elim
          state state.rebased :=
  getElem?_rollbackResponse (judge sets inputs admitted vetoed log verified now).standing name

/-- A veto stands for as long as its identity is live. -/
theorem mem_standing_iff :
    identity ∈ (judge sets inputs admitted vetoed log verified now).standing ↔
      identity ∈ vetoed ∧
        identity ∈ liveIdentities (inputs.retained admitted verified now) inputs.desired :=
  BTreeMap.mem_filter_key.trans (and_congr_right fun _ => decide_eq_true_iff)

/-- The response forgets no standing veto. -/
theorem mem_vetoed_judge
    (standing : identity ∈ (judge sets inputs admitted vetoed log verified now).standing) :
    identity ∈ (judge sets inputs admitted vetoed log verified now).vetoed :=
  mem_rollbackResponse_vetoed.mpr (.inl standing)

/-- The whole evidence about a live identity reaches the verdict. -/
theorem provers_judge
    (live : identity ∈
      liveIdentities (inputs.retained admitted verified now) inputs.desired) :
    (judge sets inputs admitted vetoed log verified now).log.provers identity =
      inputs.provers log verified now identity := by
  change (ObservationLog.pruneIdentities _ (liveIdentities _ _)).provers identity = _
  rw [ObservationLog.provers_pruneIdentities]
  exact if_pos live

/-- The walks of a pass see every remembered rejection of what it judges. -/
theorem proofs_judge
    (candidate : IsCandidate (inputs.retained admitted verified now) inputs.desired identity) :
    (judge sets inputs admitted vetoed log verified now).movement.proofs[identity]?.getD ∅ =
      inputs.provers log verified now identity := by
  let judged := judge sets inputs admitted vetoed log verified now
  have gathered : (regressionVerdict sets inputs.desired inputs.groupLabels judged.retained
      judged.log judged.standing).proofs[identity]?.getD ∅ = judged.log.provers identity :=
    proofs_of_candidate candidate
  exact gathered.trans (provers_judge candidate.live)

/-- The pass refuses movement onto the identity: the external policy blocks it, a veto of it
stands, or it is judged and enough nodes are remembered to have rejected it. -/
def RolloutInputs.Refuses (inputs : RolloutInputs) (sets : List UpdateGroupSet)
    (admitted : Admitted) (vetoed : BTreeMap Sha256 VetoedDeployment) (log : ObservationLog)
    (verified : VerifiedReports) (now : DateTime) (identity : Sha256) : Prop :=
  identity ∈ inputs.blockedDeployments ∨
    (identity ∈ vetoed ∧
      identity ∈ liveIdentities (inputs.retained admitted verified now) inputs.desired) ∨
    (IsCandidate (inputs.retained admitted verified now) inputs.desired identity ∧
      threshold sets inputs.desired inputs.groupLabels admitted identity ≤
        (inputs.provers log verified now identity).card)

/-- **What a pass refuses movement onto.** -/
theorem mem_blocked_iff :
    identity ∈ (judge sets inputs admitted vetoed log verified now).movement.blocked ↔
      inputs.Refuses sets admitted vetoed log verified now identity := by
  have halted : identity ∈
      (judge sets inputs admitted vetoed log verified now).regressions.halts ↔
        identity ∈ (judge sets inputs admitted vetoed log verified now).standing ∨
        (IsCandidate (inputs.retained admitted verified now) inputs.desired identity ∧
          threshold sets inputs.desired inputs.groupLabels
              (inputs.retained admitted verified now) identity ≤
            ((judge sets inputs admitted vetoed log verified now).log.provers identity).card) :=
    mem_halts_iff
  change identity ∈ inputs.blockedDeployments ∪ List.toFinset _ ↔ _
  rw [Finset.mem_union, List.mem_toFinset, Std.ExtTreeMap.mem_keys]
  refine or_congr_right (halted.trans (or_congr mem_standing_iff (and_congr_right ?_)))
  intro candidate
  rw [provers_judge candidate.live, RolloutInputs.retained, threshold_retain]

end

end Updatedc
