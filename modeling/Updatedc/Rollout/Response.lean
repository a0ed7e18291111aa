import Updatedc.Rollout.Judgement

/-!
# What the rollback response does to a group

`rebase?` decides, `rebased` rearranges the entry and `recordVeto` remembers why. Here the three are
put together over a whole pass: an entry comes out as it went in, or it `Responds`, with
**everything that had to hold before and everything that holds after** in one place.
-/

namespace Updatedc

open Contracts

variable [Crates]

/-- A group all of whose governing sets ask for a rollback, and there is one. -/
structure Unanimous (sets : List UpdateGroupSet) (desired : BTreeMap String DesiredDeployment)
    (groupLabels : BTreeMap String Labels) (name : String) : Prop where
  governed : ∃ set ∈ sets, name ∈ setMembers set desired groupLabels
  rollback : ∀ set ∈ sets, name ∈ setMembers set desired groupLabels → set.onRegression = .rollback

omit [Crates] in
theorem unanimous_of_mem_rollbackGroups {sets : List UpdateGroupSet}
    {desired : BTreeMap String DesiredDeployment} {groupLabels : BTreeMap String Labels}
    {name : String} (member : name ∈ rollbackGroups sets desired groupLabels) :
    Unanimous sets desired groupLabels name := by
  have asks := (List.mem_filter.mp member).2
  simp only [Bool.and_eq_true, Bool.not_eq_true', List.isEmpty_eq_false_iff_exists_mem,
    List.mem_filter, List.contains_iff_mem, List.all_eq_true, decide_eq_true_eq] at asks
  obtain ⟨⟨set, listed, governs⟩, all⟩ := asks
  exact ⟨⟨set, listed, governs⟩, fun set listed governs => all set ⟨listed, governs⟩⟩

/-- A restored body: the predecessor's configuration over the current catalog, aimed at the
package the predecessor aimed at. -/
structure Restores (current predecessor restored : DesiredDeployment) : Prop where
  configuration : restored = { predecessor with
    application := { current.application with target := predecessor.application.target } }
  package : ∃ before after, predecessor.application.targetReference = .ok before ∧
    restored.application.targetReference = .ok after ∧ after.sha256 = before.sha256

theorem restores_of_rollbackTo {current predecessor restored : DesiredDeployment}
    (ok : current.rollbackTo predecessor = .ok restored) :
    Restores current predecessor restored := by
  obtain ⟨reference, targets, rest⟩ := Except.bind_ok_iff.mp ok
  obtain ⟨_, declared, rest⟩ := Except.bind_ok_iff.mp rest
  obtain ⟨_, _, rest⟩ := Except.bind_ok_iff.mp rest
  obtain ⟨_, _, rest⟩ := Except.bind_ok_iff.mp rest
  cases rest
  refine ⟨rfl, reference, ?_⟩
  -- the current catalog declares the version with the same package
  unfold ReleaseGraph.checkSource at declared
  split at declared
  · cases declared
  · rename_i source found
    split_ifs at declared with differs
    refine ⟨source.package, targets, ?_, ?_⟩
    · simp only [ReleaseGraph.targetReference, found]
    · simp only [Bool.not_eq_true, Bool.not_eq_false', digestsMatch, Bool.and_eq_true,
        beq_iff_eq] at differs
      exact differs.2

/-- A prover has moved off the identity, or serves again and still states its rejection. -/
def Recovered (inputs : RolloutInputs) (now : DateTime) (identity : Sha256) (node : String) :
    Prop :=
  ∃ report, freshReport inputs.reports inputs.publicKeys now.timestampMillis node = some report ∧
    (report.assignmentSha256 ≠ .canonical identity ∨
      report.healthy = true ∧ report.rejected = true)

theorem recovered_of {inputs : RolloutInputs} {verified : VerifiedReports} {now : DateTime}
    {identity : Sha256} {node : String}
    (settled : recovered (inputs.observations verified now) identity node = true) :
    Recovered inputs now identity node := by
  unfold recovered at settled
  rw [Observations.report_eq_freshReport] at settled
  split at settled
  · rename_i report found
    refine ⟨report, found, ?_⟩
    split_ifs at settled with moved
    · exact .inl moved
    · exact .inr (Bool.and_eq_true_iff.mp settled)
  · cases settled

/-- What the response found and left at a group it rebased. -/
structure Responds (sets : List UpdateGroupSet) (inputs : RolloutInputs) (now : DateTime)
    (judged : Judgement) (name : String) (before after : AdmittedDeployment) (identity : Sha256) :
    Prop where
  planned : name ∈ inputs.desired
  unanimous : Unanimous sets inputs.desired inputs.groupLabels name
  left : deploymentIdentity before.current = some identity
  halted : identity ∈ judged.regressions.halts
  /-- Only the group's own provers are waited for. -/
  recovered : ∀ node, inputs.nodeGroups[node]? = some name →
    node ∈ judged.regressions.proofs[identity]?.getD ∅ → Recovered inputs now identity node
  permitted : ∃ restored, deploymentIdentity after.current = some restored ∧
    restored ∉ judged.movement.blocked
  restores : ∃ predecessor ∈ before.previous, Restores before.current predecessor after.current
  kept : ∀ body ∈ before.bodies, body ∈ after.bodies
  vetoed : identity ∈ judged.vetoed

/-- Everything there is to a rebase. -/
theorem responds_of_rebase {sets : List UpdateGroupSet} {inputs : RolloutInputs}
    {admitted : Admitted} {vetoed : BTreeMap Sha256 VetoedDeployment} {log : ObservationLog}
    {verified : VerifiedReports} {now : DateTime} {name : String} {before : AdmittedDeployment}
    {rebase : Rebase} {judged : Judgement}
    (isJudged : judged = judge sets inputs admitted vetoed log verified now)
    (entry : judged.retained[name]? = some before)
    (decided : rebase? (rollbackGroups sets inputs.desired inputs.groupLabels) inputs.desired
      judged.observations judged.regressions judged.movement.blocked name before = some rebase) :
    Responds sets inputs now judged name before (before.rebased rebase) rebase.identity := by
  subst isJudged
  have gates := rebase?_gates decided
  obtain ⟨predecessor, member, restores⟩ := exists_restoration gates.target
  exact
    { planned := gates.planned
      unanimous := unanimous_of_mem_rollbackGroups gates.unanimous
      left := gates.left
      halted := gates.halted
      recovered := fun node routed proven => recovered_of (gates.recovered node
        ((judge sets inputs admitted vetoed log verified now).observations.mem_nodes.mpr routed)
        proven)
      permitted := restoration_permitted restores
      restores := ⟨predecessor, member, restores_of_rollbackTo (rollbackTo_of_restoration restores)⟩
      kept := fun body => mem_bodies_rebased rebase
      vetoed := mem_rollbackResponse_vetoed.mpr
        (.inr ⟨name, before, rebase, entry, decided, rfl⟩) }

/-- **The rollback response** of every pass: each entry comes out as it went in, or it was rebased
with all that this takes and leaves. -/
theorem judge_responds (sets : List UpdateGroupSet) (inputs : RolloutInputs) (admitted : Admitted)
    (vetoed : BTreeMap Sha256 VetoedDeployment) (log : ObservationLog)
    (verified : VerifiedReports) (now : DateTime) (name : String) :
    let judged := judge sets inputs admitted vetoed log verified now
    judged.admitted[name]? = judged.retained[name]? ∨
      ∃ before after identity, judged.retained[name]? = some before ∧
        judged.admitted[name]? = some after ∧
        Responds sets inputs now judged name before after identity := by
  intro judged
  have response : judged.admitted[name]? = judged.retained[name]?.map fun state =>
      (rebase? (rollbackGroups sets inputs.desired inputs.groupLabels) inputs.desired
        judged.observations judged.regressions judged.movement.blocked name state).elim
        state state.rebased :=
    getElem?_judge name
  rw [response]
  cases entry : judged.retained[name]? with
  | none => exact .inl rfl
  | some before =>
    cases decided : rebase? (rollbackGroups sets inputs.desired inputs.groupLabels) inputs.desired
        judged.observations judged.regressions judged.movement.blocked name before with
    | none =>
      refine .inl ?_
      simp only [Option.map_some, decided, Option.elim_none]
    | some rebase =>
      refine .inr ⟨before, before.rebased rebase, rebase.identity, rfl, ?_,
        responds_of_rebase rfl entry decided⟩
      simp only [Option.map_some, decided, Option.elim_some]

end Updatedc
