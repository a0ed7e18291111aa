import Updatedc.Domain.Stored
import Updatedc.Runtime.Pass

/-!
# Runs keep the bodies they publish

The invariant of the durable state: every recorded assignment has its body in the recorded
admitted map, and every routed node has an assignment. It holds of the empty state, every pass
keeps it (`Controller.sound_step`), and from it no pass can fail to resolve a placement. Nothing is
assumed of the passes: specs, labels, holds, reports and blocks change at will between them, and a
pass may fail or go unrecorded.
-/

namespace Updatedc

open Contracts

variable [Crates]

/-! ## Passes -/

variable (self : Controller)

/-- The pins a pass plans with are the durable entries of its quarantined groups. -/
theorem Controller.pinned (pass : Pass) :
    Pinned (pass.cluster.desired self.durable pass.surroundings.blockedDeployments)
      (pass.observed self.durable) := by
  have pin : ∀ {name : String} {state : AdmittedDeployment},
      (pass.cluster.desired self.durable pass.surroundings.blockedDeployments).held[name]? =
        some state →
      pass.cluster.quarantines.contains name = true ∧
        self.durable.admitted[name]? = some state := by
    intro name state held
    change (self.durable.admitted.filter fun name _ =>
      pass.cluster.quarantines.contains name)[name]? = some state at held
    rw [BTreeMap.getElem?_filter_key] at held
    split_ifs at held with quarantined
    exact ⟨quarantined, held⟩
  refine ⟨fun name state held => (pin held).2, fun name state held => ?_⟩
  by_contra planned
  obtain ⟨group, found⟩ := Option.ne_none_iff_exists'.mp planned
  exact Bool.noConfusion ((pin held).1.symm.trans (pass.cluster.getElem?_planned found).2)

/-- What a pass leaves durable: what its plan records, or what was there. -/
theorem Controller.durable_step (pass : Pass) :
    (self.step pass).durable = self.durable ∨
      ∃ plan, (self.plan pass).1 = .ok plan ∧ (self.step pass).durable = plan.durable := by
  unfold Controller.step
  cases planned : self.plan pass with
  | mk result memory =>
    cases result with
    | error error => exact .inl rfl
    | ok plan =>
      dsimp only
      split_ifs
      · exact .inr ⟨plan, rfl, rfl⟩
      · exact .inl rfl

/-- A recorded plan is what is durable after its pass. -/
theorem Controller.durable_step_of_ok {self : Controller} {pass : Pass} {plan : ReconcilePlan}
    (ok : (self.plan pass).1 = .ok plan) (committed : pass.surroundings.committed = true) :
    (self.step pass).durable = plan.durable := by
  unfold Controller.step
  cases planned : self.plan pass with
  | mk result memory =>
    rw [planned] at ok
    obtain rfl : result = .ok plan := ok
    dsimp only
    rw [if_pos committed]

/-! ## The invariant -/

/-- Every routed node has an assignment, and every assignment its body. -/
structure DurableRolloutState.Sound (durable : DurableRolloutState) : Prop where
  recorded : ∀ (node group : String), durable.routing[node]? = some group →
    ∃ identity, durable.assignments[node]? = some identity
  stored : ∀ (node : String) (identity : Sha256), durable.assignments[node]? = some identity →
    durable.admitted.Resolves identity

namespace Controller

theorem sound_initial : initial.durable.Sound :=
  ⟨fun node group routed => by simp [initial] at routed,
    fun node identity assigned => by simp [initial] at assigned⟩

/-- A plan records a sound state, whatever state it was made from. -/
theorem sound_plan {pass : Pass} {plan : ReconcilePlan} (ok : (self.plan pass).1 = .ok plan) :
    plan.durable.Sound := by
  obtain ⟨nodeGroups, default, deployments, planned⟩ := planReconcile_ok ok
  refine ⟨fun node group routed => ?_, fun node identity assigned =>
    planned.resolves (self.pinned pass) assigned⟩
  -- A routed node is published with a deployment, and a published deployment has an identity.
  have member : node ∈ plan.routing :=
    Std.ExtTreeMap.mem_iff_isSome_getElem?.mpr (Option.isSome_iff_exists.mpr ⟨group, routed⟩)
  obtain ⟨deployment, found⟩ := planned.mem_routing_iff.mp member
  obtain ⟨identity, id⟩ :=
    Option.ne_none_iff_exists'.mp (planned.identities node deployment found)
  exact ⟨identity, by rw [ReconcilePlan.durable, planned.assignments, found]; exact id⟩

theorem sound_step (pass : Pass) (sound : self.durable.Sound) : (self.step pass).durable.Sound := by
  rcases self.durable_step pass with same | ⟨plan, ok, same⟩
  · exact same ▸ sound
  · exact same ▸ self.sound_plan ok

theorem sound_run (passes : List Pass) (sound : self.durable.Sound) :
    (self.run passes).durable.Sound :=
  List.foldlRecOn passes step sound fun controller sound pass _ => controller.sound_step pass sound

/-- **Runs keep the bodies they publish.** After any run from the empty state, every recorded
assignment resolves to a body the durable state stores, and no pass fails to resolve one. -/
theorem run_retains_bodies (passes : List Pass) :
    (∀ (node : String) (identity : Sha256),
      (initial.run passes).durable.assignments[node]? = some identity →
        (initial.run passes).durable.admitted.Resolves identity) ∧
    ∀ (pass : Pass) (node group : String),
      ((initial.run passes).plan pass).1 ≠ .error (.unknownPlacement node group) := by
  have sound := initial.sound_run passes sound_initial
  exact ⟨sound.stored, fun pass => planReconcile_no_unknownPlacement
    ((initial.run passes).pinned pass) sound.recorded sound.stored⟩

end Controller

end Updatedc
