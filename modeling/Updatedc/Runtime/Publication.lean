import Updatedc.Domain.Kept
import Updatedc.Runtime.Retention

/-!
# Runs that keep publishing

Over a run, a node can end up routed to a group it is not yet running anything of: it was
relabelled, and the new group holds it on its old body until the budget lets it move. If that group
is then deleted, its entry goes, for nobody runs its bodies; and if the node's next group is not
admitted yet, nothing is left to publish the node with, and every further pass refuses to publish.
`Controller.KeepsRouting` is what rules this out pass by pass.
-/

namespace Updatedc

open Contracts

variable [Crates]

namespace Controller

/-- Every node routed by the pass and recorded before it has something that keeps it. A pass that
never gets to plan says nothing. -/
def KeepsRouting (self : Controller) (pass : Pass) : Prop :=
  let desired := pass.cluster.desired self.durable pass.surroundings.blockedDeployments
  ∀ nodeGroups default, desired.route = .ok nodeGroups →
    DesiredDeployment.tryFrom desired.repository.defaultDeployment = .ok default →
    ∀ node group last : String, nodeGroups[node]? = some group →
      self.durable.routing[node]? = some last →
        Keeps desired (pass.observed self.durable) (self.remembered pass) nodeGroups default node
          group last

/-- A plan publishes every planned node that was published before. -/
theorem mem_routing_of_recorded (self : Controller) {pass : Pass} {plan : ReconcilePlan}
    (ok : (self.plan pass).1 = .ok plan) {node : ResolvedNode}
    (listed : node ∈
      (pass.cluster.desired self.durable pass.surroundings.blockedDeployments).nodes)
    (recorded : node.name ∈ self.durable.routing) : node.name ∈ plan.routing := by
  obtain ⟨nodeGroups, default, deployments, planned⟩ := planReconcile_ok ok
  obtain ⟨selected, routed⟩ := (DesiredState.route_ok planned.route).node node listed
  obtain ⟨last, before⟩ := Option.isSome_iff_exists.mp
    (Std.ExtTreeMap.mem_iff_isSome_getElem?.mp recorded)
  exact planned.mem_routing routed before

/-- **A pass that finds every routed node kept loses no routing**, in whatever state a run from the
empty one has reached: it does not refuse to publish for that reason, and its plan publishes every
planned node that was published before. -/
theorem run_keeps_routing (passes : List Pass) (pass : Pass)
    (keeps : (initial.run passes).KeepsRouting pass) :
    (∀ nodes, ((initial.run passes).plan pass).1 ≠ .error (.routingLoss nodes)) ∧
    ∀ plan, ((initial.run passes).plan pass).1 = .ok plan →
      ∀ node ∈ (pass.cluster.desired (initial.run passes).durable
          pass.surroundings.blockedDeployments).nodes,
        node.name ∈ (initial.run passes).durable.routing → node.name ∈ plan.routing := by
  have sound := initial.sound_run passes sound_initial
  exact ⟨planReconcile_no_routingLoss sound.recorded
      sound.stored keeps,
    fun plan ok node listed recorded =>
      (initial.run passes).mem_routing_of_recorded ok listed recorded⟩

end Controller

end Updatedc

namespace Updatedc.Sample

open Contracts

/-- A node of group `g` is relabelled into group `h`, which holds it on its old body `a`. -/
def relabelled : List Pass :=
  let groups := [("g", updateGroup "g" "a" []), ("h", updateGroup "h" "b" [])]
  [reporting (cluster "d" [] groups [("n", agent "g")]) [],
    reporting (cluster "d" [] groups [("n", agent "h")]) []]

/-- Group `h` is deleted, and the node is relabelled into a new group that waits for `g`. -/
def wedge : Pass :=
  reporting (cluster "d" [] [("g", updateGroup "g" "a" []), ("k", updateGroup "k" "c" ["g"])]
    [("n", agent "k")]) []

/-- While group `h` is there, the node is kept. -/
theorem run_keeps_routing_relabelled :
    let again := reporting (cluster "d" []
      [("g", updateGroup "g" "a" []), ("h", updateGroup "h" "b" [])] [("n", agent "h")]) []
    ∀ nodes, ((Controller.initial.run relabelled).plan again).1 ≠ .error (.routingLoss nodes) := by
  intro again
  refine (Controller.run_keeps_routing relabelled again ?_).1
  intro nodeGroups default route parsed node group last routed recorded
  have before : (Controller.initial.run relabelled).durable.routing = table [("n", "h")] := by
    decide +kernel
  rw [before] at recorded
  obtain ⟨-, rfl⟩ : node = "n" ∧ last = "h" := by
    simpa using BTreeMap.mem_of_getElem?_ofList recorded
  exact .standing (by decide +kernel) (by decide +kernel)

/-- **A reachable state wedges publication.** Nothing is left to publish the node with: group `h`
had no node on a body of its own and is gone, and group `k` is not admitted before `g`, which no
node reports on, has settled. -/
theorem run_wedges :
    ((Controller.initial.run relabelled).plan wedge).1 = .error (.routingLoss ["n"]) :=
  Except.error?_eq_some_iff.mp (by decide +kernel)

end Updatedc.Sample
