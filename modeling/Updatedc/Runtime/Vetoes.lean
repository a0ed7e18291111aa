import Updatedc.Lib.Run
import Updatedc.Runtime.Retention

/-!
# How long a veto lasts

A veto is durable, but only while the planner finds its identity *live*: asked for by a group, or
stored by an entry after retirement. The repository default is in neither place, and what a group
asks for depends on its producers' outputs, so a veto can lapse while something may still hand the
body out. What does hold is that a veto stands through every stretch of passes that find its
identity named (`Controller.run_keeps_veto`), and that the vetoed body does not come back unless a
pass finds it named again after one that did not (`Controller.run_never_reassigns`).
-/

namespace Updatedc

open Contracts

variable [Crates]

/-- Nothing the pass could newly hand out has this identity: no deployment a group asks for or
stands at, no restoration of a predecessor it retains, and not the default. -/
structure RolloutInputs.Lacks (inputs : RolloutInputs) (admitted : Admitted)
    (verified : VerifiedReports) (now : DateTime) (identity : Sha256) : Prop where
  asked : ∀ (name : String) (target : DesiredDeployment), inputs.desired[name]? = some target →
    deploymentIdentity target ≠ some identity
  current : ∀ (name : String) (state : AdmittedDeployment), name ∈ inputs.desired →
    (inputs.retained admitted verified now)[name]? = some state →
      deploymentIdentity state.current ≠ some identity
  restored : ∀ (name : String) (state : AdmittedDeployment), name ∈ inputs.desired →
    (inputs.retained admitted verified now)[name]? = some state →
      ∀ previous ∈ state.previous, ∀ restored, state.current.rollbackTo previous = .ok restored →
        deploymentIdentity restored ≠ some identity
  default : deploymentIdentity inputs.defaultDeployment ≠ some identity

/-! ## One pass -/

section
variable {desired : DesiredState} {observed : ObservedState} {memory : Memory}
  {plan : ReconcilePlan} {nodeGroups : BTreeMap String String} {default : DesiredDeployment}
  {deployments : BTreeMap String DesiredDeployment} {identity : Sha256}

/-- A veto the pass finds named stays in force. -/
theorem PlannedBy.veto_stands
    (planned : PlannedBy desired observed memory plan nodeGroups default deployments)
    (vetoed : identity ∈ observed.vetoed)
    (names : (rolloutInputs desired observed memory.verified nodeGroups default).Names
      observed.admitted observed.now identity) :
    identity ∈ plan.blocked ∧ identity ∈ plan.vetoed := by
  rw [planned.blocked, planned.vetoed]
  exact ⟨mem_blocked_iff.mpr (.inr (.inl ⟨vetoed, names.live⟩)),
    mem_vetoed_judge (mem_standing_iff.mpr ⟨vetoed, names.live⟩)⟩

/-- A pass that lacks an identity assigns it to nobody who is not on it. -/
theorem PlannedBy.isOn_of_lacks
    (planned : PlannedBy desired observed memory plan nodeGroups default deployments)
    (lacks : (rolloutInputs desired observed memory.verified nodeGroups default).Lacks
      observed.admitted (memory.verified.verifyFleet observed.reports observed.publicKeys)
      observed.now identity)
    {node : String} (assigned : plan.assignments[node]? = some identity) :
    observed.isOn node identity = true := by
  rcases planned.newly_cases assigned with
    there | ⟨-, isDefault | ⟨name, group, state, listed, entry, id⟩⟩
  · exact there
  · exact absurd isDefault lacks.default
  · have isDesired : name ∈
        (rolloutInputs desired observed memory.verified nodeGroups default).desired :=
      Std.ExtTreeMap.mem_map.mpr (Std.ExtTreeMap.mem_iff_isSome_getElem?.mpr
        (Option.isSome_iff_exists.mpr ⟨group, listed⟩))
    -- What the entry stands at is asked for, was stood at before, or was restored.
    rcases current_planRollouts entry with
      asked | ⟨before, retained, same | ⟨rebase, rebased, same⟩⟩
    · exact absurd id (lacks.asked name state.current asked)
    · exact absurd (same ▸ id) (lacks.current name before isDesired retained)
    · obtain ⟨previous, member, restores⟩ := exists_restoration (rebase?_gates rebased).target
      exact absurd (same ▸ id) (lacks.restored name before isDesired retained previous member _
        (rollbackTo_of_restoration restores))

end

/-! ## Runs -/

namespace Controller

/-- The planner's inputs in this pass, once its nodes are routed. -/
def inputs (self : Controller) (pass : Pass) (nodeGroups : BTreeMap String String)
    (default : DesiredDeployment) : RolloutInputs :=
  rolloutInputs (pass.cluster.desired self.durable pass.surroundings.blockedDeployments)
    (pass.observed self.durable) (self.remembered pass).verified nodeGroups default

/-- A condition on the planner's inputs, in a pass that gets to plan. -/
def WhenPlanned (self : Controller) (pass : Pass) (cond : RolloutInputs → Prop) : Prop :=
  ∀ nodeGroups default,
    (pass.cluster.desired self.durable pass.surroundings.blockedDeployments).route =
      .ok nodeGroups →
    DesiredDeployment.tryFrom pass.cluster.repository.defaultDeployment = .ok default →
      cond (self.inputs pass nodeGroups default)

/-- The pass finds the identity named. -/
def Names (identity : Sha256) (self : Controller) (pass : Pass) : Prop :=
  self.WhenPlanned pass fun inputs =>
    inputs.Names self.durable.admitted pass.surroundings.now identity

/-- Nothing the pass could newly hand out has this identity. -/
def Lacks (identity : Sha256) (self : Controller) (pass : Pass) : Prop :=
  self.WhenPlanned pass fun inputs => inputs.Lacks self.durable.admitted
    ((self.remembered pass).verified.verifyFleet pass.surroundings.reports
      pass.cluster.publicKeys) pass.surroundings.now identity

variable {identity : Sha256}

theorem veto_stands (self : Controller) {pass : Pass} {plan : ReconcilePlan}
    (names : self.Names identity pass) (vetoed : identity ∈ self.durable.vetoed)
    (ok : (self.plan pass).1 = .ok plan) : identity ∈ plan.blocked ∧ identity ∈ plan.vetoed := by
  obtain ⟨nodeGroups, default, deployments, planned⟩ := planReconcile_ok ok
  exact planned.veto_stands vetoed (names nodeGroups default planned.route planned.parsed)

/-- A pass that finds a vetoed identity named leaves the veto durable. -/
theorem vetoed_step (self : Controller) (pass : Pass) (names : self.Names identity pass)
    (vetoed : identity ∈ self.durable.vetoed) : identity ∈ (self.step pass).durable.vetoed := by
  rcases self.durable_step pass with same | ⟨plan, ok, same⟩
  · exact same ▸ vetoed
  · rw [same]
    exact (self.veto_stands names vetoed ok).2

theorem vetoed_run (self : Controller) {passes : List Pass}
    (names : Run.Along step (Names identity) self passes)
    (vetoed : identity ∈ self.durable.vetoed) : identity ∈ (self.run passes).durable.vetoed :=
  names.invariant (fun controller => identity ∈ controller.durable.vetoed) vetoed_step vetoed

/-- **A veto stands while its identity is named.** From whatever state it is recorded in, through
any run of passes each of which finds the identity named, and in every plan of the next such
pass, the identity stays blocked. -/
theorem run_keeps_veto (self : Controller) (identity : Sha256)
    (vetoed : identity ∈ self.durable.vetoed) (passes : List Pass) (pass : Pass)
    (names : Run.Along step (Names identity) self (passes ++ [pass])) (plan : ReconcilePlan)
    (ok : ((self.run passes).plan pass).1 = .ok plan) : identity ∈ plan.blocked := by
  obtain ⟨before, now, -⟩ := Run.along_append.mp names
  exact ((self.run passes).veto_stands now (self.vetoed_run before vetoed) ok).1

/-- **A vetoed body does not come back unless it is named again.** Take a run whose passes first
find the vetoed identity named and from some point on have nothing with that identity to hand out:
no pass of it assigns the identity to a node that was not already on it. -/
theorem run_never_reassigns (self : Controller) (identity : Sha256)
    (vetoed : identity ∈ self.durable.vetoed) (named unnamed : List Pass)
    (names : Run.Along step (Names identity) self named)
    (lacks : Run.Along step (Lacks identity) (self.run named) unnamed)
    (before after : List Pass) (pass : Pass) (split : named ++ unnamed = before ++ pass :: after)
    (plan : ReconcilePlan) (ok : ((self.run before).plan pass).1 = .ok plan) (node : String)
    (assigned : plan.assignments[node]? = some identity) :
    (pass.observed (self.run before).durable).isOn node identity = true := by
  obtain ⟨nodeGroups, default, deployments, planned⟩ := planReconcile_ok ok
  rcases List.append_eq_append_iff.mp split with
    ⟨middle, rfl, rest⟩ | ⟨middle, rfl, rest⟩
  · -- The pass is one of the later ones, which have nothing to hand out.
    rw [rest] at lacks
    have now := lacks.at_step
    rw [Controller.run, ← List.foldl_append] at now
    exact planned.isOn_of_lacks (now nodeGroups default planned.route planned.parsed) assigned
  · cases middle with
    | nil =>
      rw [List.nil_append] at rest
      rw [List.append_nil, ← rest] at lacks
      exact planned.isOn_of_lacks
        (lacks.1 nodeGroups default planned.route planned.parsed) assigned
    | cons first others =>
      -- It is one of the earlier ones: the veto still stands in it.
      obtain ⟨rfl, -⟩ := List.cons.inj rest
      obtain ⟨earlier, now, -⟩ := Run.along_append.mp names
      have blocked := ((self.run before).veto_stands now (self.vetoed_run earlier vetoed) ok).1
      exact planned.isOn_of_blocked assigned blocked

end Controller

end Updatedc

namespace Updatedc.Sample

open Contracts

def rollingBack (labels : Labels) : UpdateGroupSet :=
  { name := "s", matchLabels := labels, onRegression := .rollback }

/-- One group of two nodes that asks for `body`, in a set that rolls regressions back. -/
def pair (body : String) : Cluster :=
  cluster "d" [rollingBack ∅] [("g", updateGroup "g" body [])]
    [("m", agent "g"), ("n", agent "g")]

/-- The group is gone, and the default is `body`. -/
def ungrouped (body : String) : Cluster :=
  cluster body [rollingBack ∅] [] [("m", agent "g"), ("n", agent "g")]

/-- Both nodes are on `x`, which is vetoed, and there is nothing to roll back to. -/
def vetoing : Controller :=
  { durable :=
      { admitted := table [("g", { current := deployment "x" {} })]
        vetoed := Std.ExtTreeMap.empty.insert 120 ⟨"x", 1⟩
        routing := table [("m", "g"), ("n", "g")]
        assignments := table [("m", 120), ("n", 120)] }
    memory := .empty }

/-- The group asks for the vetoed body. -/
def asking : Pass := reporting (pair "x") []

theorem route_asking :
    (asking.cluster.desired vetoing.durable asking.surroundings.blockedDeployments).route =
      .ok rejectedNodes := by
  decide +kernel

theorem names_asking : vetoing.Names 120 asking := by
  intro nodeGroups default route parsed
  obtain rfl := Except.ok.inj (route_asking.symm.trans route)
  have tryFrom : DesiredDeployment.tryFrom asking.cluster.repository.defaultDeployment =
      .ok (deployment "d" {}) := by
    decide
  obtain rfl := Except.ok.inj (tryFrom.symm.trans parsed)
  exact .inl ⟨"g", deployment "x" {}, by decide +kernel, by decide⟩

/-- While the group asks for it, the vetoed body stays blocked. -/
theorem run_keeps_veto_asked :
    ∃ plan, (vetoing.plan asking).1 = .ok plan ∧ 120 ∈ plan.blocked := by
  obtain ⟨plan, ok, -⟩ := Except.exists_of_any (x := (vetoing.plan asking).1)
    (p := fun _ => true) (by decide +kernel)
  exact ⟨plan, ok, vetoing.run_keeps_veto 120 (by decide) [] asking
    (Run.along_singleton.mpr names_asking) plan ok⟩

/-- The group goes from `a` to `x`; node `m` moves first, and rejects `x`. -/
def regressed : List Pass :=
  [reporting (pair "a") [],
    reporting (pair "x") [("m", envelope 109 97 0 1), ("n", envelope 110 97 0 1)],
    reporting (pair "x") [("m", envelope 109 120 2 1), ("n", envelope 110 97 0 1)]]

/-- The next pass: the group is gone, and `x` is the repository default. -/
def byDefault : Pass :=
  reporting (ungrouped "x") [("m", envelope 109 97 0 1), ("n", envelope 110 97 0 1)]

/-! A history is evaluated pass by pass: what the controller holds after a pass is written out, and
the next pass starts from there. -/

/-- Controllers are compared by what they hold. -/
theorem controller_eq {left right : Controller}
    (same : left.durable.admitted = right.durable.admitted ∧
      left.durable.vetoed = right.durable.vetoed ∧
      left.durable.routing = right.durable.routing ∧
      left.durable.assignments = right.durable.assignments ∧
      left.memory.log.reported = right.memory.log.reported ∧
      left.memory.log.rejections = right.memory.log.rejections ∧
      left.memory.verified.entries = right.memory.verified.entries ∧
      left.memory.verified.verifications = right.memory.verified.verifications) : left = right := by
  rcases left with ⟨⟨_, _, _, _⟩, ⟨⟨_, _⟩, ⟨_, _, _⟩⟩⟩
  rcases right with ⟨⟨_, _, _, _⟩, ⟨⟨_, _⟩, ⟨_, _, _⟩⟩⟩
  obtain ⟨rfl, rfl, rfl, rfl, rfl, rfl, rfl, rfl⟩ := same
  rfl

/-- A process that saw these reports last, after so many verifications in all. -/
def remembering (keys : BTreeMap String P256PublicKey) (log : ObservationLog)
    (reports : List (String × Envelope)) (verifications : Nat) : Memory :=
  ⟨log, { VerifiedReports.empty.verifyFleet (table reports) keys with verifications }⟩

/-- The controller of the two nodes `m` and `n` of one group, with this entry. -/
def grouped (entry : AdmittedDeployment) (vetoed : BTreeMap Sha256 VetoedDeployment) (m : Sha256)
    (memory : Memory) : Controller :=
  { durable :=
      { admitted := table [("default", { current := deployment "d" {} }), ("g", entry)]
        vetoed
        routing := table [("m", "g"), ("n", "g")]
        assignments := table [("m", m), ("n", 97)] }
    memory }

/-- What the three passes leave: `m` is rolled back, and `x` is vetoed. -/
def regretting : { controller : Controller // Controller.initial.run regressed = controller } where
  val := grouped ⟨deployment "a" {}, [deployment "x" {}]⟩
    (Std.ExtTreeMap.empty.insert 120 ⟨"x", 1⟩) 97
    (remembering (pair "x").publicKeys ⟨{"m", "n"}, {("m", .canonical 120)}⟩
      [("m", envelope 109 120 2 1), ("n", envelope 110 97 0 1)] 3)
  property := by
    let settled := grouped ⟨deployment "a" {}, []⟩ ∅ 97 .empty
    let moved := grouped ⟨deployment "x" {}, [deployment "a" {}]⟩ ∅ 120
      (remembering (pair "x").publicKeys ⟨{"m", "n"}, ∅⟩
        [("m", envelope 109 97 0 1), ("n", envelope 110 97 0 1)] 2)
    have first : Controller.initial.step (reporting (pair "a") []) = settled :=
      controller_eq (by decide +kernel)
    have second : settled.step (reporting (pair "x")
        [("m", envelope 109 97 0 1), ("n", envelope 110 97 0 1)]) = moved :=
      controller_eq (by decide +kernel)
    rw [Controller.run, regressed, List.foldl_cons, first, List.foldl_cons, second,
      List.foldl_cons, List.foldl_nil]
    exact controller_eq (by decide +kernel)

/-- **A veto does not outlive its group.** The default deployment names the vetoed identity, and
the pass neither blocks it nor withholds it. -/
theorem run_forgets_veto :
    DesiredDeployment.tryFrom byDefault.cluster.repository.defaultDeployment =
      .ok (deployment "x" {}) ∧
    deploymentIdentity (deployment "x" {}) = some 120 ∧
    120 ∈ (Controller.initial.run regressed).durable.vetoed ∧
    ((Controller.initial.run regressed).plan byDefault).1.toOption.any (fun plan =>
      120 ∉ plan.blocked && plan.assignments["n"]? = some 120) = true := by
  rw [regretting.property]
  decide +kernel

/-- Nothing asks for the vetoed body any more. -/
def dropping : Pass := reporting (ungrouped "d") []

theorem lacks_dropping (self : Controller) : self.Lacks 120 dropping := by
  intro nodeGroups default _ parsed
  have tryFrom : DesiredDeployment.tryFrom dropping.cluster.repository.defaultDeployment =
      .ok (deployment "d" {}) := by
    decide
  obtain rfl := Except.ok.inj (tryFrom.symm.trans parsed)
  have none : dropping.cluster.planned = ∅ := by decide
  have absent : ∀ name, name ∉ (self.inputs dropping nodeGroups (deployment "d" {})).desired := by
    intro name planned
    have listed := Std.ExtTreeMap.mem_iff_isSome_getElem?.mp (Std.ExtTreeMap.mem_map.mp planned)
    obtain ⟨group, resolved⟩ := Option.isSome_iff_exists.mp listed
    obtain ⟨declared, -, -, found, -⟩ := getElem?_resolveGroupInputs resolved
    have here : dropping.cluster.planned[name]? = some declared := found
    simp [none] at here
  refine ⟨fun name target found => ?_, fun name state planned => absurd planned (absent name),
    fun name state planned => absurd planned (absent name), ?_⟩
  · exact absurd (Std.ExtTreeMap.mem_iff_isSome_getElem?.mpr (by rw [found]; rfl)) (absent name)
  · exact (by decide : deploymentIdentity (deployment "d" {}) ≠ some 120)

/-- The nodes already on the vetoed body may stay there. -/
theorem run_never_reassigns_kept :
    ∃ plan, (vetoing.plan asking).1 = .ok plan ∧ plan.assignments["m"]? = some 120 ∧
      (asking.observed vetoing.durable).isOn "m" 120 = true := by
  obtain ⟨plan, ok, assigned⟩ := Except.exists_of_any (x := (vetoing.plan asking).1)
    (p := fun plan => plan.assignments["m"]? = some 120) (by decide +kernel)
  exact ⟨plan, ok, of_decide_eq_true assigned,
    vetoing.run_never_reassigns 120 (by decide) [asking] [dropping]
      (Run.along_singleton.mpr names_asking) (Run.along_singleton.mpr (lacks_dropping _))
      [] [dropping] asking rfl plan ok "m" (of_decide_eq_true assigned)⟩

/-! A consumer of another group's output asks for the body that output makes, and only while the
output is fresh: between two passes that ask for a vetoed body, one may not. -/

/-- Group `c` takes input `i` from output `o` of group `p`. -/
def piped : Cluster :=
  cluster "d" [rollingBack (labelled "c")]
    [("p", updateGroup "p" "q" []),
      ("c", { updateGroup "c" "a" ["p"] with
        labels := labelled "c", inputs := table [("i", ⟨"p", "o"⟩)] })]
    [("m", agent "p"), ("n", agent "c"), ("k", agent "c")]

/-- What the producer's node publishes. -/
def output (value : String) : ExactOutputPublication :=
  { sha256 := 5
    publication :=
      { schema := 2, node := ⟨"m", isDnsSubdomain_m⟩, deployment := "q"
        assignmentSha256 := .canonical 113, archiveSha256 := .canonical 1
        snapshot := { files := table [("o", ⟨value⟩)] } } }

/-- A pass over the two groups with these reports, while the output is `value`. -/
def piping (value : String) (reports : List (String × Envelope)) : Pass :=
  ⟨piped,
    { reports := table reports, outputs := table [("m", output value)]
      dataflowKey := List.replicate 32 0, now := 1000000000 }⟩

/-- The consumer goes from output `u` to output `x`; node `k` moves first, and rejects it. -/
def refusing : List Pass :=
  [piping "u" [],
    piping "u" [("m", envelope 109 113 3 1)],
    piping "x" [("m", envelope 109 113 3 1), ("n", envelope 110 117 0 1),
      ("k", envelope 107 117 0 1)],
    piping "x" [("m", envelope 109 113 3 1), ("n", envelope 110 117 0 1),
      ("k", envelope 107 120 2 1)]]

/-- The producer's node misses a report. -/
def silent : Pass :=
  piping "x" [("n", envelope 110 117 0 1), ("k", envelope 107 117 0 1)]

/-- It reports again. -/
def resumed : Pass :=
  piping "x" [("m", envelope 109 113 3 1), ("n", envelope 110 117 0 1),
    ("k", envelope 107 117 0 1)]

/-- The consumer's body, fed with this output. -/
def fed (value : UInt8) : DesiredDeployment :=
  deployment "a"
    { generation := .canonical (number [value]), objectSha256 := .canonical 0,
      files := .ofList ["i"] }

/-- The controller of the two groups, with this entry for the consumer. -/
def fedWith (entry : AdmittedDeployment) (vetoed : BTreeMap Sha256 VetoedDeployment) (k : Sha256)
    (memory : Memory) : Controller :=
  { durable :=
      { admitted := table [("c", entry), ("default", { current := deployment "d" {} }),
          ("p", { current := deployment "q" {} })]
        vetoed
        routing := table [("k", "c"), ("m", "p"), ("n", "c")]
        assignments := table [("k", k), ("m", 113), ("n", 117)] }
    memory }

/-- What the four passes leave: `k` is rolled back, and output `x` is vetoed. -/
def refused : { controller : Controller // Controller.initial.run refusing = controller } where
  val := fedWith ⟨fed 117, [fed 120]⟩ (Std.ExtTreeMap.empty.insert 120 ⟨"a", 1⟩) 117
    (remembering piped.publicKeys ⟨{"m", "n", "k"}, {("k", .canonical 120)}⟩
      [("m", envelope 109 113 3 1), ("n", envelope 110 117 0 1), ("k", envelope 107 120 2 1)] 4)
  property := by
    let producing : Controller :=
      { durable :=
          { admitted := table [("default", { current := deployment "d" {} }),
              ("p", { current := deployment "q" {} })]
            routing := table [("m", "p")]
            assignments := table [("m", 113)] }
        memory := .empty }
    let consuming := fedWith ⟨fed 117, []⟩ ∅ 117
      (remembering piped.publicKeys ⟨{"m"}, ∅⟩ [("m", envelope 109 113 3 1)] 1)
    let moved := fedWith ⟨fed 120, [fed 117]⟩ ∅ 120
      (remembering piped.publicKeys ⟨{"m", "n", "k"}, ∅⟩
        [("m", envelope 109 113 3 1), ("n", envelope 110 117 0 1), ("k", envelope 107 117 0 1)] 3)
    have first : Controller.initial.step (piping "u" []) = producing :=
      controller_eq (by decide +kernel)
    have second : producing.step (piping "u" [("m", envelope 109 113 3 1)]) = consuming :=
      controller_eq (by decide +kernel)
    have third : consuming.step (piping "x" [("m", envelope 109 113 3 1),
        ("n", envelope 110 117 0 1), ("k", envelope 107 117 0 1)]) = moved :=
      controller_eq (by decide +kernel)
    rw [Controller.run, refusing, List.foldl_cons, first, List.foldl_cons, second, List.foldl_cons,
      third, List.foldl_cons, List.foldl_nil]
    exact controller_eq (by decide +kernel)

/-- One pass without the producer's report drops the veto. -/
def silenced : { controller : Controller // refused.val.step silent = controller } where
  val := fedWith ⟨fed 117, []⟩ ∅ 117
    (remembering piped.publicKeys ⟨{"m", "n", "k"}, ∅⟩
      [("m", envelope 109 113 3 1), ("n", envelope 110 117 0 1), ("k", envelope 107 117 0 1)] 5)
  property := controller_eq (by decide +kernel)

/-- **A vetoed body comes back.** Nothing is edited: the producer's node misses one report, the
consumer's target is not the vetoed body for one pass, and the pass after newly assigns it. -/
theorem run_reassigns_vetoed :
    let refused := Controller.initial.run refusing
    120 ∈ refused.durable.vetoed ∧
    (resumed.observed (refused.step silent).durable).isOn "k" 120 = false ∧
    ((refused.step silent).plan resumed).1.toOption.any (fun plan =>
      plan.assignments["k"]? = some 120) = true := by
  rw [refused.property]
  dsimp only
  rw [silenced.property]
  decide +kernel

end Updatedc.Sample
