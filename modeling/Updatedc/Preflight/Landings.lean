import Updatedc.Contracts.Routes
import Updatedc.Preflight.Routes

/-!
# No node is stranded by a retarget

A report is a snapshot: until a node reads its next assignment, it goes on following the routes of
the ones it already has, and each hop is whatever route its own package availability leaves. A
*landing* is what it may have installed by then. Preflight computes, for each assignment alone,
the versions on its routes from the reported version. Within one assignment that is every landing
(`Follows.onRoute`), so each of them is covered by the graph the node is moved to
(`covers_of_landsOnce`).

It is not every landing of a node that finishes a hop under its reported assignment and then reads
the recorded one: `routes_strands_nobody_iff` says what has to hold of these crossings, and
`Sample.Hops.routes_strands` is one that breaks it.
-/

namespace Updatedc

open Contracts

open Relation (ReflTransGen)

/-- What a node has installed: a version and the digest of its package, or nothing. -/
abbrev Installed := Option (String × DigestText)

def Installed.version (installed : Installed) : Option String := installed.map (·.1)

/-- What a report says is installed. -/
def installedOf (report : Option NodeReport) : Installed :=
  report.bind fun report =>
    if report.version.isEmpty then none else some (report.version, report.archiveSha256)

theorem version_installedOf (report : Option NodeReport) :
    (installedOf report).version = installedVersion report := by
  cases report with
  | none => rfl
  | some report =>
    change (if report.version.isEmpty then none else _ : Installed).map _ =
      if !report.version.isEmpty then some report.version else none
    cases report.version.isEmpty <;> rfl

/-- The body of an assignment. -/
def priorOf (published : BTreeMap Sha256 DesiredDeployment) (assignment : DigestText) :
    Option DesiredDeployment :=
  assignment.digest?.bind (published[·]?)

section
variable [Semver]

/-! ## Hops -/

/-- One hop under a graph that knows what is installed: the first version of a route, whatever
packages were available. -/
structure Takes (graph : ReleaseGraph) (installed next : Installed) : Prop where
  known : ∀ version digest, installed = some (version, digest) →
    graph.checkSource version digest = .ok ()
  hop : ∃ available version hops release,
    graph.route installed.version available = .ok (version :: hops) ∧
      graph.releases[version]? = some release ∧ next = some (version, release.package.sha256)

/-- Any number of hops under an assignment's graph, none if its body is unknown. -/
def Follows (prior : Option DesiredDeployment) (installed next : Installed) : Prop :=
  match prior with
  | none => next = installed
  | some prior => ReflTransGen (Takes prior.application) installed next

section
variable {graph : ReleaseGraph} {start installed next : Installed}

/-- **However a node hops under one graph, it stays on that graph's routes.** -/
theorem onRoute_of_hops (path : ReflTransGen (Takes graph) start installed) :
    installed = start ∨ ∃ version release,
      installed = some (version, release.package.sha256) ∧
        graph.releases[version]? = some release ∧ graph.OnRoute start.version version := by
  induction path with
  | refl => exact .inl rfl
  | tail _ hop before =>
    obtain ⟨available, version, hops, release, routed, found, rfl⟩ := hop.hop
    refine .inr ⟨version, release, rfl, found, ?_⟩
    rcases before with rfl | ⟨last, package, rfl, -, onRoute⟩
    · exact ReleaseGraph.onRoute_of_mem_route routed List.mem_cons_self
    · exact onRoute.of_hop routed List.mem_cons_self

/-- A graph that moves a node knows what it runs, and can list its routes. -/
theorem listed_of_hops (path : ReflTransGen (Takes graph) start installed)
    (moved : installed ≠ start) :
    (∀ version digest, start = some (version, digest) →
      graph.checkSource version digest = .ok ()) ∧
    ∃ versions, graph.routeVersions start.version = .ok versions := by
  rcases Relation.ReflTransGen.cases_head path with same | ⟨first, hop, -⟩
  · exact absurd same.symm moved
  · refine ⟨hop.known, ?_⟩
    obtain ⟨available, version, hops, release, routed, -, -⟩ := hop.hop
    exact (ReleaseGraph.routable_of_route routed).routeVersions_of_onRoute
      (ReleaseGraph.onRoute_of_mem_route routed List.mem_cons_self)

end

/-! ## What a graph accepts -/

/-- The graph declares what is installed, with the same package, and has a complete route from
it. -/
structure Accepts (graph : ReleaseGraph) (installed : Installed) : Prop where
  declares : ∀ version digest, installed = some (version, digest) →
    ∃ release, graph.releases[version]? = some release ∧ release.package.sha256 = digest
  routes : ∃ hops, graph.route installed.version (fun _ _ => true) = .ok hops

omit [Semver] in
theorem declares_of_checkSource {graph : ReleaseGraph} {version : String} {digest : DigestText}
    (ok : graph.checkSource version digest = .ok ()) :
    ∃ release, graph.releases[version]? = some release ∧ release.package.sha256 = digest := by
  unfold ReleaseGraph.checkSource at ok
  split at ok
  · cases ok
  · next release found =>
    split_ifs at ok with differs
    refine ⟨release, found, ?_⟩
    have same : digestsMatch release.package.sha256 digest = true := by simpa using differs
    simp only [digestsMatch, Bool.and_eq_true, beq_iff_eq] at same
    exact same.2

theorem accepts_of_routeVersions {graph : ReleaseGraph} {installed : Installed}
    {versions : List String}
    (known : ∀ version digest, installed = some (version, digest) →
      graph.checkSource version digest = .ok ())
    (ok : graph.routeVersions installed.version = .ok versions) : Accepts graph installed := by
  obtain ⟨hops, routed, -⟩ := Except.bind_ok_iff.mp ok
  exact ⟨fun version digest here => declares_of_checkSource (known version digest here),
    hops, routed⟩

end

variable [Crates]

/-! ## What the check of one node establishes -/

section
variable {node : String} {graph prior : ReleaseGraph} {found after : List String × List String}
  {landing version : String} {report : Option NodeReport} {recorded : Option Sha256}
  {published : BTreeMap Sha256 DesiredDeployment} {assignment : DigestText}
  {installed : Installed}

/-- What the node may have installed after following at most one of its assignments. -/
def LandsOnce (published : BTreeMap Sha256 DesiredDeployment) (recorded : Option Sha256)
    (report : Option NodeReport) (installed : Installed) : Prop :=
  installed = installedOf report ∨ ∃ assignment ∈ activeAssignments recorded report,
    Follows (priorOf published assignment) (installedOf report) installed

theorem checkLanding_ok (ok : checkLanding node graph prior found landing = .ok after) :
    ∃ route, graph.checkSource landing
        ((prior.releases[landing]?).elim .empty (·.package.sha256)) = .ok () ∧
      graph.routeVersions (some landing) = .ok route ∧
      after = (landing :: found.1, route ++ found.2) := by
  obtain ⟨route, checked, done⟩ := Except.bind_ok_iff.mp ok
  cases done
  have both := Except.mapError_ok_iff.mp checked
  obtain ⟨_, known, listed⟩ := Except.bind_ok_iff.mp both
  exact ⟨route, known, listed, rfl⟩

theorem checkLanding_grows (ok : checkLanding node graph prior found landing = .ok after)
    (before : version ∈ found.2) : version ∈ after.2 := by
  obtain ⟨route, -, -, rfl⟩ := checkLanding_ok ok
  exact List.mem_append_right _ before

theorem checkPrior_ok (ok : checkPrior node graph report published found assignment = .ok after) :
    ∃ prior, priorOf published assignment = some prior ∧
      (isStranded prior.application report = true ∧ after = found ∨
        isStranded prior.application report = false ∧
          ((prior.application.routeVersions (installedVersion report)).toOption.getD []).foldlM
            (checkLanding node graph prior.application) found = .ok after) := by
  unfold checkPrior at ok
  split at ok
  · cases ok
  · next prior known =>
    refine ⟨prior, known, ?_⟩
    split_ifs at ok with stranded
    · cases ok
      exact .inl ⟨stranded, rfl⟩
    · exact .inr ⟨by simpa using stranded, ok⟩

theorem checkPrior_grows
    (ok : checkPrior node graph report published found assignment = .ok after)
    (before : version ∈ found.2) : version ∈ after.2 := by
  obtain ⟨prior, -, ⟨-, rfl⟩ | ⟨-, checked⟩⟩ := checkPrior_ok ok
  · exact before
  · exact Except.keeps_foldlM (p := fun found => version ∈ found.2) checked
      (fun _ _ _ _ turn => checkLanding_grows turn) before

/-- A graph that does not know what the node runs takes it nowhere. -/
theorem not_isStranded_of_hops (path : Relation.ReflTransGen (Takes prior) (installedOf report)
    installed) (moved : installed ≠ installedOf report) : isStranded prior report = false := by
  have known := (listed_of_hops path moved).1
  cases report with
  | none => rfl
  | some r =>
    change (!r.version.isEmpty && _) = false
    cases empty : r.version.isEmpty with
    | true => rfl
    | false =>
      have here : installedOf (some r) = some (r.version, r.archiveSha256) := by
        change (if r.version.isEmpty then none else _) = _
        rw [empty]
        rfl
      rw [known _ _ here]
      rfl

/-- After one assignment is checked, every landing of it has been. -/
theorem checkPrior_covers
    (ok : checkPrior node graph report published found assignment = .ok after)
    (follows : Follows (priorOf published assignment) (installedOf report) installed)
    (moved : installed ≠ installedOf report) :
    Accepts graph installed ∧ ∀ version, graph.OnRoute installed.version version →
      version ∈ after.2 := by
  obtain ⟨prior, known, outcome⟩ := checkPrior_ok ok
  rw [known] at follows
  have afoot := not_isStranded_of_hops follows moved
  rcases outcome with ⟨stranded, -⟩ | ⟨-, checked⟩
  · rw [afoot] at stranded
    cases stranded
  rcases onRoute_of_hops follows with same | ⟨landing, release, rfl, declared, onRoute⟩
  · exact absurd same moved
  obtain ⟨versions, listed⟩ := (listed_of_hops follows moved).2
  have remaining : landing ∈ versions := (ReleaseGraph.mem_routeVersions_iff listed).mpr onRoute
  rw [version_installedOf] at listed
  rw [listed] at checked
  obtain ⟨before, next, turn⟩ := Except.ok_of_mem_foldlM checked remaining
  obtain ⟨route, source, routed, -⟩ := checkLanding_ok turn
  rw [declared] at source
  refine ⟨accepts_of_routeVersions (fun _ _ here => by cases here; exact source) routed,
    fun version ahead => ?_⟩
  have member : version ∈ route := (ReleaseGraph.mem_routeVersions_iff routed).mpr ahead
  refine Except.of_mem_foldlM (p := fun found => version ∈ found.2) checked
    (fun _ _ _ _ turn => checkLanding_grows turn) remaining fun s t turn => ?_
  obtain ⟨again, -, routed', rfl⟩ := checkLanding_ok turn
  cases routed.symm.trans routed'
  exact List.mem_append_left _ member

/-- What the node reports is covered. -/
theorem directVersions_covers {assigned : Bool} {versions : List String}
    (ok : directVersions graph assigned report = .ok versions) :
    Accepts graph (installedOf report) ∧
      ∀ version, graph.OnRoute (installedOf report).version version → version ∈ versions := by
  have listed : graph.routeVersions (installedOf report).version = .ok versions ∧
      ∀ version digest, installedOf report = some (version, digest) →
        graph.checkSource version digest = .ok () := by
    cases report with
    | none =>
      unfold directVersions at ok
      split_ifs at ok
      exact ⟨ok, nofun⟩
    | some r =>
      simp only [directVersions] at ok
      have given : installedOf (some r) =
        if r.version.isEmpty then none else some (r.version, r.archiveSha256) := rfl
      split_ifs at ok with empty
      · rw [given, if_pos empty]
        exact ⟨ok, nofun⟩
      · rw [given, if_neg empty]
        obtain ⟨_, source, routed⟩ := Except.bind_ok_iff.mp ok
        exact ⟨routed, fun _ _ here => by cases here; exact source⟩
  exact ⟨accepts_of_routeVersions listed.2 listed.1,
    fun version ahead => (ReleaseGraph.mem_routeVersions_iff listed.1).mpr ahead⟩

/-- **Every landing of a node under one of its assignments is covered**: the graph accepts it, and
the versions on its routes are prepared. -/
theorem checkReported_covers {deployment : DesiredDeployment} {identity : Sha256}
    {pending next : Pending}
    (ok : checkReported node deployment identity recorded report published pending = .ok next) :
    ∃ sources versions, next = pending.prepare identity deployment sources versions ∧
      ∀ installed, LandsOnce published recorded report installed →
        Accepts deployment.application installed ∧
          ∀ version, deployment.application.OnRoute installed.version version →
            version ∈ versions := by
  obtain ⟨direct, directly, ok⟩ := Except.bind_ok_iff.mp ok
  obtain ⟨⟨sources, versions⟩, checked, done⟩ := Except.bind_ok_iff.mp ok
  cases done
  refine ⟨sources, versions, rfl, fun installed lands => ?_⟩
  have keeps : ∀ version, ∀ assignment ∈ activeAssignments recorded report, ∀ found after,
      checkPrior node deployment.application report published found assignment = .ok after →
        version ∈ found.2 → version ∈ after.2 :=
    fun version _ _ _ _ turn => checkPrior_grows turn
  have reported := directVersions_covers (Except.mapError_ok_iff.mp directly)
  by_cases moved : installed = installedOf report
  · subst moved
    refine ⟨reported.1, fun version ahead => ?_⟩
    exact Except.keeps_foldlM (p := fun found => version ∈ found.2) checked (keeps version)
      (reported.2 version ahead)
  · obtain ⟨assignment, active, follows⟩ := lands.resolve_left moved
    obtain ⟨s, t, turn⟩ := Except.ok_of_mem_foldlM checked active
    refine ⟨(checkPrior_covers turn follows moved).1, fun version ahead => ?_⟩
    exact Except.of_mem_foldlM (p := fun found => version ∈ found.2) checked (keeps version)
      active fun _ _ turn => (checkPrior_covers turn follows moved).2 version ahead

end

/-! ## What is prepared -/

/-- A version is prepared for a deployment. -/
def Pending.Has (pending : Pending) (identity : Sha256) (version : String) : Prop :=
  ∃ prepared, pending[identity]? = some prepared ∧ version ∈ prepared.versions

/-- Every entry stands under its deployment's identity. -/
def Pending.Keyed (pending : Pending) : Prop :=
  ∀ identity prepared, pending[identity]? = some prepared →
    deploymentIdentity prepared.deployment = some identity

section
variable {pending next : Pending} {identity : Sha256} {deployment : DesiredDeployment}
  {sources versions : List String} {version : String}

omit [Crates] in
theorem Pending.has_prepare (member : version ∈ versions) :
    (pending.prepare identity deployment sources versions).Has identity version := by
  refine ⟨_, by rw [prepare, BTreeMap.getElem?_insert, if_pos rfl], ?_⟩
  exact Std.ExtTreeSet.mem_insertMany_list.mpr (.inr (by simpa using member))

omit [Crates] in
theorem Pending.Has.prepare {other : Sha256} (has : pending.Has other version) :
    (pending.prepare identity deployment sources versions).Has other version := by
  obtain ⟨prepared, found, member⟩ := has
  by_cases same : identity = other
  · subst same
    refine ⟨_, by rw [Pending.prepare, BTreeMap.getElem?_insert, if_pos rfl, found], ?_⟩
    exact Std.ExtTreeSet.mem_insertMany_list.mpr (.inl member)
  · exact ⟨prepared, by rw [Pending.prepare, BTreeMap.getElem?_insert, if_neg same, found], member⟩

omit [Crates] in
theorem Pending.mem_prepare {other : Sha256} :
    other ∈ pending.prepare identity deployment sources versions ↔
      other = identity ∨ other ∈ pending := by
  rw [prepare, Std.ExtTreeMap.mem_insert, Std.LawfulEqCmp.compare_eq_iff_eq, eq_comm]

theorem Pending.Keyed.prepare (keyed : pending.Keyed)
    (id : deploymentIdentity deployment = some identity) :
    (pending.prepare identity deployment sources versions).Keyed := by
  intro other prepared found
  rw [Pending.prepare, BTreeMap.getElem?_insert] at found
  split_ifs at found with same
  · subst same
    cases found
    cases before : pending[identity]? with
    | none => exact id
    | some old => exact keyed identity old before
  · exact keyed other prepared found

/-- A step of preflight only adds to what is prepared. -/
structure Extends (pending next : Pending) : Prop where
  mem : ∀ identity ∈ pending, identity ∈ next
  keyed : pending.Keyed → next.Keyed
  has : ∀ identity version, pending.Has identity version → next.Has identity version

theorem Extends.refl (pending : Pending) : Extends pending pending :=
  ⟨fun _ => id, id, fun _ _ => id⟩

theorem extends_prepare (id : deploymentIdentity deployment = some identity) :
    Extends pending (pending.prepare identity deployment sources versions) :=
  ⟨fun _ member => Pending.mem_prepare.mpr (.inr member), fun keyed => keyed.prepare id,
    fun _ _ has => has.prepare⟩

section
variable {observed : ObservedState} {verified : VerifiedReports}
  {published : BTreeMap Sha256 DesiredDeployment} {node : String}

/-- The check of a node that would not be moved prepares nothing. -/
theorem checkNode_cases
    (ok : checkNode observed verified published node deployment pending = .ok next) :
    ∃ identity, deploymentIdentity deployment = some identity ∧
      (observed.assignments[node]? = some identity ∧ next = pending ∨
        observed.assignments[node]? ≠ some identity ∧ ∃ sources versions,
          next = pending.prepare identity deployment sources versions) := by
  unfold checkNode at ok
  split at ok
  · cases ok
  · next identity id =>
    refine ⟨identity, id, ?_⟩
    split_ifs at ok with there
    · cases ok
      exact .inl ⟨there, rfl⟩
    · obtain ⟨sources, versions, prepared, -⟩ := checkReported_covers ok
      exact .inr ⟨there, sources, versions, prepared⟩

theorem checkNode_extends
    (ok : checkNode observed verified published node deployment pending = .ok next) :
    Extends pending next := by
  obtain ⟨identity, id, ⟨-, rfl⟩ | ⟨-, sources, versions, rfl⟩⟩ := checkNode_cases ok
  · exact .refl _
  · exact extends_prepare id

/-- A node that would be moved is covered wherever one of its assignments may have taken it. -/
theorem checkNode_covers
    (ok : checkNode observed verified published node deployment pending = .ok next)
    (id : deploymentIdentity deployment = some identity)
    (changes : observed.assignments[node]? ≠ some identity) {installed : Installed}
    (lands : LandsOnce published observed.assignments[node]? (verified.reportOf observed node)
      installed) :
    Accepts deployment.application installed ∧
      ∀ version, deployment.application.OnRoute installed.version version →
        next.Has identity version := by
  unfold checkNode at ok
  rw [id] at ok
  obtain ⟨sources, versions, rfl, covers⟩ := checkReported_covers ((if_neg changes).symm.trans ok)
  obtain ⟨accepts, listed⟩ := covers installed lands
  exact ⟨accepts, fun version ahead => Pending.has_prepare (listed version ahead)⟩

end

end

/-! ## The whole generation -/

section
variable {desired : DesiredState} {observed : ObservedState} {plan : ReconcilePlan}
  {verified : VerifiedReports} {nodeGroups : BTreeMap String String}
  {default deployment : DesiredDeployment} {pending next : Pending} {group node : String}

theorem cohortStep_extends {resolved : ResolvedNode}
    (ok : cohortStep desired observed plan verified nodeGroups default pending resolved =
      .ok next) : Extends pending next := by
  unfold cohortStep at ok
  split_ifs at ok
  · exact checkNode_extends ok
  · cases ok
    exact .refl _

/-- A rollback check prepares a permitted restoration, or nothing. -/
theorem checkRollback_cases (ok : checkRollback observed plan pending group = .ok next) :
    next = pending ∨ ∃ restored identity versions,
      deploymentIdentity restored = some identity ∧ identity ∉ plan.blocked ∧
        next = pending.prepare identity restored [] versions := by
  unfold checkRollback at ok
  split at ok
  · split at ok
    · cases ok
      exact .inl rfl
    · extract_lets previous at ok
      split_ifs at ok
      · cases ok
        exact .inl rfl
      · split at ok
        · cases ok
        · next target =>
          obtain ⟨versions, -, ok⟩ := Except.bind_ok_iff.mp ok
          split at ok
          · cases ok
            exact .inl rfl
          · next identity id =>
            cases ok
            obtain ⟨_, -, restores⟩ := exists_restoration target
            obtain ⟨_, same, unblocked⟩ := restoration_permitted restores
            cases id.symm.trans same
            exact .inr ⟨_, identity, versions, id, unblocked, rfl⟩
  · cases ok
    exact .inl rfl

theorem checkRollback_extends (ok : checkRollback observed plan pending group = .ok next) :
    Extends pending next := by
  rcases checkRollback_cases ok with rfl | ⟨_, _, _, id, -, rfl⟩
  · exact .refl _
  · exact extends_prepare id

/-- The check of an entry of the publication is the check of its node. -/
theorem checkPublished_cases {entry : String × Sha256}
    (ok : checkPublished desired observed plan verified pending entry = .ok next) :
    observed.assignments[entry.1]? = some entry.2 ∧ next = pending ∨
      observed.assignments[entry.1]? ≠ some entry.2 ∧ ∃ target deployment,
        plan.publication.target? entry.2 = some target ∧
        RepositoryAssignment.fromBoundedJson target.bytes = .ok deployment ∧
        checkNode observed verified (publishedBodies desired observed) entry.1 deployment
          pending = .ok next := by
  unfold checkPublished at ok
  split_ifs at ok with there
  · cases ok
    exact .inl ⟨there, rfl⟩
  · split at ok
    · cases ok
    · next target found =>
      obtain ⟨deployment, decoded, ok⟩ := Except.bind_ok_iff.mp ok
      exact .inr ⟨there, target, deployment, found, Except.mapError_ok_iff.mp decoded, ok⟩

theorem checkPublished_extends {entry : String × Sha256}
    (ok : checkPublished desired observed plan verified pending entry = .ok next) :
    Extends pending next := by
  rcases checkPublished_cases ok with ⟨-, rfl⟩ | ⟨-, _, _, -, -, checked⟩
  · exact .refl _
  · exact checkNode_extends checked

/-- A node whose assignment would change to this deployment: a free node its group means to move,
or one the publication moves. -/
inductive Retargets (desired : DesiredState) (observed : ObservedState) (plan : ReconcilePlan)
    (nodeGroups : BTreeMap String String) (default : DesiredDeployment) :
    (node : String) → (deployment : DesiredDeployment) → Prop where
  | cohort (node : ResolvedNode) (listed : node ∈ desired.nodes)
      (free : desired.isFree nodeGroups node = true) :
      Retargets desired observed plan nodeGroups default node.name
        (intendedDeployment plan default (nodeGroups[node.name]?.getD defaultGroup))
  | published (node : String) (identity : Sha256) (target : PublicationTarget)
      (deployment : DesiredDeployment)
      (assigned : plan.publication.nodeAssignments[node]? = some identity)
      (changes : observed.assignments[node]? ≠ some identity)
      (found : plan.publication.target? identity = some target)
      (decodes : RepositoryAssignment.fromBoundedJson target.bytes = .ok deployment) :
      Retargets desired observed plan nodeGroups default node deployment

/-- What `routes` went through when it succeeded. -/
structure Routed (desired : DesiredState) (observed : ObservedState) (plan : ReconcilePlan)
    (verified : VerifiedReports) (nodeGroups : BTreeMap String String)
    (default : DesiredDeployment) (cohorts returns final : Pending) : Prop where
  moves : checkCohorts desired observed plan verified nodeGroups default ∅ = .ok cohorts
  restores : (rollbackGroups desired.sets plan.desiredDeployments desired.groupLabels).foldlM
    (checkRollback observed plan) cohorts = .ok returns
  publishes : plan.publication.nodeAssignments.toList.foldlM
    (checkPublished desired observed plan verified) returns = .ok final

theorem routes_ok {prepared : List PreparedRollout}
    (grouped : resolveNodeGroups desired.groups.values desired.nodes = .ok nodeGroups)
    (standard : DesiredDeployment.tryFrom desired.repository.defaultDeployment = .ok default)
    (ok : (routes desired observed plan verified).1 = .ok prepared) :
    ∃ cohorts returns final, Routed desired observed plan
        (verified.verifyFleet observed.reports observed.publicKeys) nodeGroups default cohorts
        returns final ∧ prepared = final.values := by
  unfold routes at ok
  rw [grouped] at ok
  simp only [standard] at ok
  obtain ⟨final, checked, rfl⟩ := Except.map_ok_iff.mp ok
  obtain ⟨cohorts, cohort, checked⟩ := Except.bind_ok_iff.mp checked
  obtain ⟨returns, rollbacks, publication⟩ := Except.bind_ok_iff.mp checked
  exact ⟨cohorts, returns, final, ⟨cohort, rollbacks, publication⟩, rfl⟩

/-- A retargeted node was checked, and what its check prepared stayed prepared. -/
theorem Routed.covers {cohorts returns final : Pending}
    (routed : Routed desired observed plan verified nodeGroups default cohorts returns final)
    (retargets : Retargets desired observed plan nodeGroups default node deployment)
    {identity : Sha256} (id : deploymentIdentity deployment = some identity)
    (changes : observed.assignments[node]? ≠ some identity) {installed : Installed}
    (lands : LandsOnce (publishedBodies desired observed) observed.assignments[node]?
      (verified.reportOf observed node) installed) :
    Accepts deployment.application installed ∧
      ∀ version, deployment.application.OnRoute installed.version version →
        final.Has identity version := by
  have late : ∀ version, returns.Has identity version → final.Has identity version :=
    fun version => Except.keeps_foldlM routed.publishes fun _ _ _ _ turn =>
      (checkPublished_extends turn).has identity version
  have middle : ∀ version, cohorts.Has identity version → returns.Has identity version :=
    fun version => Except.keeps_foldlM routed.restores fun _ _ _ _ turn =>
      (checkRollback_extends turn).has identity version
  cases retargets with
  | cohort resolved listed free =>
    obtain ⟨s, t, turn⟩ := Except.ok_of_mem_foldlM routed.moves listed
    rw [cohortStep, if_pos free] at turn
    refine ⟨(checkNode_covers turn id changes lands).1, fun version ahead => ?_⟩
    refine late version (middle version ?_)
    refine Except.of_mem_foldlM (p := fun pending => pending.Has identity version)
      routed.moves (fun _ _ _ _ turn => (cohortStep_extends turn).has identity version) listed ?_
    intro s t turn
    rw [cohortStep, if_pos free] at turn
    exact (checkNode_covers turn id changes lands).2 version ahead
  | published _ published target _ assigned moves found decodes =>
    have listed := Std.ExtTreeMap.mem_toList_iff_getElem?_eq_some.mpr assigned
    have entry : ∀ s t, checkPublished desired observed plan verified s (node, published) = .ok t →
        checkNode observed verified (publishedBodies desired observed) node
          deployment s = .ok t := by
      intro s t turn
      rcases checkPublished_cases turn with ⟨there, -⟩ | ⟨-, _, _, found', decodes', checked⟩
      · exact absurd there moves
      · cases found.symm.trans found'
        cases decodes.symm.trans decodes'
        exact checked
    obtain ⟨s, t, turn⟩ := Except.ok_of_mem_foldlM routed.publishes listed
    refine ⟨(checkNode_covers (entry s t turn) id changes lands).1, fun version ahead => ?_⟩
    refine Except.of_mem_foldlM (p := fun pending => pending.Has identity version)
      routed.publishes (fun _ _ _ _ turn => (checkPublished_extends turn).has identity version)
      listed fun s t turn => (checkNode_covers (entry s t turn) id changes lands).2 version ahead

theorem Routed.keyed {cohorts returns final : Pending}
    (routed : Routed desired observed plan verified nodeGroups default cohorts returns final) :
    final.Keyed := by
  refine Except.keeps_foldlM routed.publishes (fun _ _ _ _ turn =>
    (checkPublished_extends turn).keyed) ?_
  refine Except.keeps_foldlM routed.restores (fun _ _ _ _ turn =>
    (checkRollback_extends turn).keyed) ?_
  refine Except.keeps_foldlM routed.moves (fun _ _ _ _ turn => (cohortStep_extends turn).keyed) ?_
  intro identity prepared found
  simp at found

/-- After `verifyFleet` the cache answers with the node's own fresh report. -/
theorem reportOf_verifyFleet (verified : VerifiedReports) (observed : ObservedState)
    (node : String) :
    (verified.verifyFleet observed.reports observed.publicKeys).reportOf observed node =
      observed.report node := by
  unfold VerifiedReports.reportOf ObservedState.report freshReport
  cases envelope : observed.reports[node]? with
  | none => rfl
  | some e =>
    cases key : observed.publicKeys[node]? with
    | none => rfl
    | some k =>
      simp [VerifiedReports.fresh, verified.authentic_verifyFleet _ _ envelope key]

/-! ## Landings -/

variable (self : ObservedState)

/-- What a node may have installed when it first reads its next assignment: it follows the one it
reports, and then the one recorded for it, whose documents are `bodies`. -/
def ObservedState.MayInstall (bodies : DigestText → Option DesiredDeployment) (node : String)
    (installed : Installed) : Prop :=
  ∃ between,
    Follows ((self.report node).bind fun report => bodies report.assignmentSha256)
      (installedOf (self.report node)) between ∧
    Follows (self.assignments[node]?.bind fun recorded => bodies (.canonical recorded))
      between installed

/-- What it may have installed after following at most one of the two, as far as the control plane
has recorded one for it and stores their documents. -/
def ObservedState.LandsOnce (desired : DesiredState) (node : String) (installed : Installed) :
    Prop :=
  Updatedc.LandsOnce (publishedBodies desired self) self.assignments[node]? (self.report node)
    installed

/-- A landing that takes both. -/
def ObservedState.Crosses (desired : DesiredState) (bodies : DigestText → Option DesiredDeployment)
    (node : String) (installed : Installed) : Prop :=
  self.MayInstall bodies node installed ∧ ¬ self.LandsOnce desired node installed

/-- **A retarget strands nobody, as far as no landing takes both assignments.** The graph a node
is moved to accepts all its landings exactly if it accepts those that take both; and if their
routes run through versions that are on routes from the others, every version on a route from any
landing is prepared for the package checks. -/
theorem routes_strands_nobody_iff {prepared : List PreparedRollout}
    {bodies : DigestText → Option DesiredDeployment} {identity : Sha256}
    (grouped : resolveNodeGroups desired.groups.values desired.nodes = .ok nodeGroups)
    (standard : DesiredDeployment.tryFrom desired.repository.defaultDeployment = .ok default)
    (ok : (routes desired observed plan verified).1 = .ok prepared)
    (retargets : Retargets desired observed plan nodeGroups default node deployment)
    (id : deploymentIdentity deployment = some identity)
    (changes : observed.assignments[node]? ≠ some identity) :
    ((∀ installed, observed.MayInstall bodies node installed →
        Accepts deployment.application installed) ↔
      ∀ installed, observed.Crosses desired bodies node installed →
        Accepts deployment.application installed) ∧
    ((∀ installed, observed.Crosses desired bodies node installed →
        Accepts deployment.application installed ∧
          ∀ version, deployment.application.OnRoute installed.version version →
            ∃ landed, observed.LandsOnce desired node landed ∧
              deployment.application.OnRoute landed.version version) →
      ∀ installed, observed.MayInstall bodies node installed →
        Accepts deployment.application installed ∧
          ∀ version, deployment.application.OnRoute installed.version version →
            ∃ rollout ∈ prepared, deploymentIdentity rollout.deployment = some identity ∧
              version ∈ rollout.versions) := by
  obtain ⟨cohorts, returns, final, routed, rfl⟩ := routes_ok grouped standard ok
  have covers : ∀ installed, observed.LandsOnce desired node installed →
      Accepts deployment.application installed ∧
        ∀ version, deployment.application.OnRoute installed.version version →
          final.Has identity version := by
    intro installed lands
    refine routed.covers retargets id changes ?_
    rw [reportOf_verifyFleet]
    exact lands
  have listed : ∀ version, final.Has identity version → ∃ rollout ∈ final.values,
      deploymentIdentity rollout.deployment = some identity ∧ version ∈ rollout.versions := by
    rintro version ⟨rollout, found, member⟩
    exact ⟨rollout, BTreeMap.mem_values_iff.mpr ⟨identity, found⟩,
      routed.keyed identity rollout found, member⟩
  refine ⟨⟨fun all installed crosses => all installed crosses.1, fun crossing installed may => ?_⟩,
    fun crossing installed may => ?_⟩
  · by_cases once : observed.LandsOnce desired node installed
    · exact (covers installed once).1
    · exact crossing installed ⟨may, once⟩
  · by_cases once : observed.LandsOnce desired node installed
    · obtain ⟨accepts, prepares⟩ := covers installed once
      exact ⟨accepts, fun version ahead => listed version (prepares version ahead)⟩
    · obtain ⟨accepts, within⟩ := crossing installed ⟨may, once⟩
      refine ⟨accepts, fun version ahead => ?_⟩
      obtain ⟨landed, once, onRoute⟩ := within version ahead
      exact listed version ((covers landed once).2 version onRoute)

/-- A node whose report names the assignment recorded for it crosses nothing. -/
theorem not_crosses_of_current {recorded : Sha256} {report : NodeReport} {installed : Installed}
    (there : observed.assignments[node]? = some recorded)
    (reports : observed.report node = some report)
    (current : report.assignmentSha256 = .canonical recorded) :
    ¬ observed.Crosses desired (priorOf (publishedBodies desired observed)) node installed := by
  rintro ⟨⟨between, first, second⟩, twice⟩
  refine twice (.inr ⟨.canonical recorded, ?_, ?_⟩)
  · rw [there, reports]
    simp [activeAssignments, current]
  · rw [reports] at first ⊢
    simp only [Option.bind_some, current] at first
    rw [there, Option.bind_some] at second
    cases body : priorOf (publishedBodies desired observed) (.canonical recorded) with
    | none =>
      rw [body] at first second
      exact second.trans first
    | some prior =>
      rw [body] at first second
      exact Relation.ReflTransGen.trans first second

end

end Updatedc

namespace Updatedc.Sample.Hops

open Contracts

/-- The version `n.0.0`. -/
def release (n : Nat) : String := s!"{n}.0.0"

def parse (text : String) : Option Nat :=
  (List.range 6).findSome? fun n => if text = release n then some n else none

/-- A release graph over these versions, each with the predecessors it upgrades from. -/
def catalog (target : Nat) (releases : List (Nat × List Nat)) : ReleaseGraph where
  target := release target
  releases := table (releases.map fun (n, sources) =>
    (release n, { package := ⟨"p", .canonical (BitVec.ofNat 256 n)⟩, installable := n = 1
                  upgradeFrom := .ofList (sources.map release) }))

def document (name : String) (application : ReleaseGraph) : RepositoryAssignment :=
  { deployment name {} with application }

/-- The assignment the node reports: from 1 to 2. -/
def reported : RepositoryAssignment := document "r" (catalog 2 [(1, []), (2, [1])])

/-- The assignment recorded for it: from 1 straight to 4, and from 2 over 3. -/
def recorded : RepositoryAssignment :=
  document "c" (catalog 4 [(1, []), (2, []), (3, [2]), (4, [1, 3])])

/-- The next assignment: from 1, 2 and 4 to 5. -/
def next : RepositoryAssignment :=
  document "g" (catalog 5 [(1, []), (2, []), (4, []), (5, [1, 2, 4])])

/-- The stand-ins, with more versions and a document that can be read back. -/
scoped instance hopping : Crates :=
  { crates with
    semver := ⟨Nat, parse, release, compare, Nat.instTransOrd⟩
    assignment := ⟨crates.assignment.toVec, fun bytes =>
      if bytes = chars "g" then .ok next else .error "assignment"⟩ }

def desired : DesiredState where
  repository := { defaultDeployment := spec "d", assignmentPrefix := "p" }
  groups := table [("g",
    { name := "g", matchLabels := edge, deployment := next, maxUnavailable := 2 })]
  groupLabels := table [("g", ∅)]
  sets := []
  nodes := [⟨"n", edge⟩]
  quarantined := ∅
  holds := ∅
  cordons := ∅
  blockedDeployments := ∅
  held := ∅
  named := by decide

variable (assignment : UInt8)

/-- The node runs 1, reports this assignment, and `recorded` is recorded for it. -/
def observed : ObservedState where
  reports := table [("n", envelope 110 assignment 0 1)]
  outputs := ∅
  dataflowKey := []
  publicKeys := table [("n", ⟨[1]⟩)]
  admitted := table [("g", { current := recorded, previous := [reported] })]
  vetoed := ∅
  routing := table [("n", "g")]
  assignments := table [("n", 99)]
  now := 1000000000

/-- A plan that publishes `next` for the node and passes preflight. -/
def moves (plan : ReconcilePlan) : Bool :=
  (routes desired (observed assignment) plan .empty).1.toOption.isSome &&
    plan.assignments["n"]? = some 103 &&
    intendedDeployment plan (deployment "d" {}) "g" = next

theorem exists_moves
    (computed : (planReconcile desired (observed assignment) ⟨{}, .empty⟩).1.toOption.any
      (moves assignment) = true) :
    ∃ plan prepared, (planReconcile desired (observed assignment) ⟨{}, .empty⟩).1 = .ok plan ∧
      (routes desired (observed assignment) plan .empty).1 = .ok prepared ∧
      plan.assignments["n"]? = some 103 ∧
      Retargets desired (observed assignment) plan (table [("n", "g")]) (deployment "d" {})
        "n" next := by
  obtain ⟨plan, ok, facts⟩ := Except.exists_of_any computed
  simp only [moves, Bool.and_eq_true, decide_eq_true_eq] at facts
  obtain ⟨prepared, routed⟩ := Option.isSome_iff_exists.mp facts.1.1
  refine ⟨plan, prepared, ok, Except.toOption_eq_some_iff.mp routed, facts.1.2, ?_⟩
  have cohort : Retargets desired (observed assignment) plan (table [("n", "g")])
      (deployment "d" {}) "n" (intendedDeployment plan (deployment "d" {}) "g") :=
    .cohort ⟨"n", edge⟩ (by decide) (by decide)
  rwa [facts.2] at cohort

/-- A node that reports what is recorded for it is covered wherever its hops take it. -/
theorem routes_strands_nobody_iff_current :
    ∃ plan prepared, (planReconcile desired (observed 99) ⟨{}, .empty⟩).1 = .ok plan ∧
      (routes desired (observed 99) plan .empty).1 = .ok prepared ∧
      ∀ installed, (observed 99).MayInstall (priorOf (publishedBodies desired (observed 99))) "n"
          installed →
        Accepts next.application installed ∧
          ∀ version, next.application.OnRoute installed.version version →
            ∃ rollout ∈ prepared, deploymentIdentity rollout.deployment = some 103 ∧
              version ∈ rollout.versions := by
  obtain ⟨plan, prepared, ok, routed, -, retargets⟩ := exists_moves 99 (by decide +kernel)
  refine ⟨plan, prepared, ok, routed, ?_⟩
  refine (routes_strands_nobody_iff (by decide) (by decide) routed retargets
    (by decide) (by decide)).2 fun installed crosses => ?_
  have stated : ((observed 99).report "n").any (·.assignmentSha256 = .canonical 99) = true := by
    decide
  obtain ⟨report, reports, current⟩ := (Option.any_eq_true _ _).mp stated
  exact absurd crosses
    (not_crosses_of_current (by decide) reports (of_decide_eq_true current))

/-- **A node is stranded.** It finishes its hop from 1 to 2 under the assignment it reports, reads
the recorded one and hops to 3. The next assignment, which preflight lets through and the plan
publishes for it, does not declare 3. -/
theorem routes_strands :
    ∃ plan prepared, (planReconcile desired (observed 114) ⟨{}, .empty⟩).1 = .ok plan ∧
      (routes desired (observed 114) plan .empty).1 = .ok prepared ∧
      plan.assignments["n"]? = some 103 ∧
      Retargets desired (observed 114) plan (table [("n", "g")]) (deployment "d" {}) "n" next ∧
      deploymentIdentity next = some 103 ∧ (observed 114).assignments["n"]? = some 99 ∧
      (observed 114).MayInstall (priorOf (publishedBodies desired (observed 114))) "n"
        (some ("3.0.0", .canonical 3)) ∧
      next.application.releases["3.0.0"]? = none := by
  obtain ⟨plan, prepared, ok, routed, published, retargets⟩ :=
    exists_moves 114 (by decide +kernel)
  refine ⟨plan, prepared, ok, routed, published, retargets, by decide, by decide,
    ⟨some ("2.0.0", .canonical 2), ?_, ?_⟩, by decide⟩
  · have prior : ((observed 114).report "n").bind (fun report =>
        priorOf (publishedBodies desired (observed 114)) report.assignmentSha256) =
        some reported := by decide
    have here : installedOf ((observed 114).report "n") = some ("1.0.0", .canonical 1) := by
      decide
    rw [prior, here]
    refine .single ⟨fun _ _ here => by cases here; decide, fun _ _ => true, "2.0.0", [],
      { package := ⟨"p", .canonical 2⟩, upgradeFrom := .ofList ["1.0.0"] }, ?_, ?_, rfl⟩
    · decide
    · decide
  · have prior : (observed 114).assignments["n"]?.bind (fun recorded =>
        priorOf (publishedBodies desired (observed 114)) (.canonical recorded)) =
        some recorded := by decide
    rw [prior]
    refine .single ⟨fun _ _ here => by cases here; decide, fun _ _ => true, "3.0.0",
      ["4.0.0"], { package := ⟨"p", .canonical 3⟩, upgradeFrom := .ofList ["2.0.0"] }, ?_, ?_, rfl⟩
    · decide
    · decide

end Updatedc.Sample.Hops
