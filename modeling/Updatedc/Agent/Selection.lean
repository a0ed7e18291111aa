import Updatedc.Agent.Store
import Updatedc.Contracts.Planning
import Updatedc.Crates

/-!
# Selecting the assigned application
(`updated-tuf/src/select.rs`, `policy.rs`, `agent/src/acquire.rs`, `heartbeat.rs`)

A node plans with the packages that verify and that it has not rejected (`assignedApplication`).
Its report says in one bit whether rejections block the assignment (`rejectsRelease`), and finds
that out by two searches of its own. `rejectsRelease_iff` compares the two.

They differ on purpose where the assigned release is already installed: **a proven installation is
not undone by an older rejection**, so the report does not count it, while selection still refuses
the package (`Sample.settled_rejection_unreported`).
-/

namespace Updatedc.Agent.Selection

open Contracts

/-! ## Verified targets -/

/-- A target of authenticated metadata, with the text fields of its signed custom metadata. -/
structure VerifiedTarget where
  path : String
  sha256 : Sha256
  custom : BTreeMap String String

structure SelectedRelease where
  target : VerifiedTarget
  version : String
  sha256 : DigestText

/-- The identities authenticated together when a node's assignment is resolved. The lineage is the
digest of the repository's canonical location. -/
structure AssignmentContext where
  document : RepositoryAssignment
  repositoryLineage : RepositoryLineage
  canonical : repositoryLineage.validate = true

structure TrustedRepository where
  /-- What the top-level targets role signs, by path. -/
  targets : BTreeMap String (Sha256 × BTreeMap String String)
  assignmentContext : Option AssignmentContext

structure DefaultPolicy where
  product : String
  channel : String
  os : String
  arch : String

def targetSha (target : VerifiedTarget) : DigestText := .canonical target.sha256

namespace DefaultPolicy

/-- A field of the signed custom metadata. -/
def field (candidate : VerifiedTarget) (key : String) : Except String String :=
  match candidate.custom[key]? with
  | some value => .ok value
  | none => .error s!"candidate custom metadata missing `{key}`"

def checkField (candidate : VerifiedTarget) (key want : String) : Except String Unit := do
  let got ← field candidate key
  if got ≠ want then throw s!"{key} is `{got}`, expected `{want}`"

def checkSegment (candidate : VerifiedTarget) (want what got : String) : Except String Unit :=
  if got ≠ want then
    .error (s!"path {what} segment `{got}` disagrees with signed `{want}` in " ++
      s!"`{candidate.path}`")
  else .ok ()

/-- The signed identity of a runnable release: every field matches this installation, and the path
spells the same identity. -/
def candidateVersion [Semver] (self : DefaultPolicy) (candidate : VerifiedTarget) :
    Except String Semver.Version := do
  checkField candidate "product" self.product
  checkField candidate "channel" self.channel
  checkField candidate "os" self.os
  checkField candidate "arch" self.arch
  let version ← field candidate "version"
  match (candidate.path.toList.splitOn '/').map String.ofList with
  | [root, product, channel, release, platform, _] => do
    checkSegment candidate "products" "products" root
    checkSegment candidate self.product "product" product
    checkSegment candidate self.channel "channel" channel
    checkSegment candidate version "version" release
    checkSegment candidate s!"{self.os}-{self.arch}" "os-arch" platform
    match Identity.parseReleaseVersion version with
    | some parsed => return parsed
    | none => throw s!"invalid or oversized version `{version}`"
  | _ =>
    throw (s!"runnable target path `{candidate.path}` is not the canonical " ++
      "products/<product>/<channel>/<version>/<os>-<arch>/<file> layout")

end DefaultPolicy

namespace TrustedRepository

variable (self : TrustedRepository)

def target (path : String) : Option VerifiedTarget :=
  self.targets[path]?.map fun (sha256, custom) => { path, sha256, custom }

/-- In the order of their paths. -/
def allTargets : List VerifiedTarget :=
  self.targets.toList.map fun (path, sha256, custom) => { path, sha256, custom }

def exactTarget (reference : TargetReference) : Except String VerifiedTarget :=
  match self.target reference.path with
  | none => .error s!"desired target {reference.path} is absent from verified metadata"
  | some target =>
    if !digestsMatch (targetSha target) reference.sha256 then
      .error (s!"desired target {target.path} has sha256 {(targetSha target).text}, expected " ++
        reference.sha256.text)
    else .ok target

variable [Semver]

/-- The one package verifier, for preflight, installation, upgrades and exact repair. -/
def verifyRelease (policy : DefaultPolicy) (version : String) (package : TargetReference) :
    Except String SelectedRelease := do
  let target ← self.exactTarget package
  let signed ← (policy.candidateVersion target).mapError ("policy rejected candidate: " ++ ·)
  if Semver.print signed ≠ version then
    throw (s!"release {version} disagrees with its signed package version " ++
      Semver.print signed)
  return { target, version, sha256 := targetSha target }

end TrustedRepository

/-! ## Selection -/

/-- The selected releases of a route, each taken out once. -/
def takeRoute : BTreeMap String SelectedRelease → List String → Option (List SelectedRelease)
  | _, [] => some []
  | candidates, version :: rest => do
    let selected ← candidates[version]?
    return selected :: (← takeRoute (candidates.erase version) rest)

namespace TrustedRepository

variable [Semver] (self : TrustedRepository) (policy : DefaultPolicy)
  (rejected : VerifiedTarget → String → Bool)

def candidate (version : String) (release : Release) : Except String SelectedRelease := do
  let candidate ← self.verifyRelease policy version release.package
  if rejected candidate.target version then throw s!"release {version} was rejected"
  return candidate

/-- One turn of the loop over the declared releases. -/
def consider (known : BTreeMap String SelectedRelease × List String) (entry : String × Release) :
    BTreeMap String SelectedRelease × List String :=
  match self.candidate policy rejected entry.1 entry.2 with
  | .ok candidate => (known.1.insert entry.1 candidate, known.2)
  | .error error => (known.1, known.2 ++ [s!"{entry.1}: {error}"])

/-- The releases that may be used, and why the others may not. -/
def candidates (graph : ReleaseGraph) : BTreeMap String SelectedRelease × List String :=
  graph.releases.toList.foldl (self.consider policy rejected) (∅, [])

/-- Rebuild exactly the committed bytes, if some target still has them. -/
def reacquire (version : String) (sha256 : DigestText) : List SelectedRelease :=
  (self.allTargets.findSome? fun target =>
    if targetSha target ≠ sha256 then none
    else
      match self.verifyRelease policy version { path := target.path, sha256 } with
      | .ok candidate => if rejected candidate.target version then none else some candidate
      | .error _ => none).toList

/-- Resolve the complete route before anything is acquired. -/
def planRoute (graph : ReleaseGraph) (installed : Option String) :
    Except String (List SelectedRelease) := do
  let (candidates, failures) := self.candidates policy rejected graph
  let reasons := String.intercalate "; " failures
  if installed = some graph.target && !candidates.contains graph.target then
    throw s!"current target package is unavailable: {reasons}"
  let route ← (graph.route installed fun version _ => candidates.contains version).mapError
    fun error => s!"{error}; {reasons}"
  match takeRoute candidates route with
  | some selected => return selected
  -- The source panics here. A route has each version once, and only available ones
  -- (`planRoute_isOk`), so it never does.
  | none => throw "planner only returns authenticated available releases"

def assignedApplication (stance : Stance) : Except String (List SelectedRelease) :=
  match stance with
  | .reacquire version sha256 => .ok (self.reacquire policy rejected version sha256)
  | _ =>
    match self.assignmentContext with
    | none => .error "release repository has no desired deployment"
    | some context => do
      let graph := context.document.application
      graph.validate
      if let .installed version sha256 := stance then graph.checkSource version sha256
      self.planRoute policy rejected graph stance.installedVersion

end TrustedRepository

/-- The route to the assigned release, where there is anything to do. -/
def selectAssignedApplication [Semver] (repository : TrustedRepository) (policy : DefaultPolicy)
    (stance : Stance) (isRejected : DigestText → Bool) :
    Except String (Option (List SelectedRelease)) :=
  (repository.assignedApplication policy (fun target _ => isRejected (targetSha target))
    stance).map fun route => if route.isEmpty then none else some route

/-! ## The reported bit -/

section
variable [Crypto] [Semver]

/-- Whether rejections block every route of this assignment. `installed` is what reading the record
gave. -/
def rejectsRelease (store : Store) (installed : IoResult Installed) (lineage : RepositoryLineage)
    (assignment : RepositoryAssignment) : Bool :=
  let graph := assignment.application
  let verdict (installed : Option String) (provisionalRejected : Bool) : Bool :=
    (graph.route installed fun _ _ => true).isOk &&
      (provisionalRejected ||
        !(graph.route installed fun _ release =>
          !store.rejectsDeployment lineage release.package.sha256).isOk)
  match installed with
  | .ok (.present state) =>
    -- A version string alone cannot anchor a route or attribute its failures.
    if !(graph.checkSource state.release.version state.archiveSha256).isOk then false
    else
      -- An empty route to a provisional first install must not hide its boot rejection.
      verdict (some state.release.version)
        (!state.isProven && store.rejectsDeployment state.repositoryLineage state.archiveSha256)
  | .ok .missing => verdict none false
  | _ => false

def rejectsAssignedRelease (store : Store) (installed : IoResult Installed)
    (assignment : AssignmentContext) : Bool :=
  rejectsRelease store installed assignment.repositoryLineage assignment.document

end

/-! ## What selection uses -/

section
variable [Semver] {repository : TrustedRepository} {policy : DefaultPolicy}
  {graph : ReleaseGraph} {installed : Option String} {version : String} {release : Release}

/-- What verifies has the pinned digest. -/
theorem targetSha_of_verifyRelease {selected : SelectedRelease}
    (verified : repository.verifyRelease policy version release.package = .ok selected) :
    targetSha selected.target = release.package.sha256 := by
  obtain ⟨target, found, verified⟩ := Except.bind_ok_iff.mp verified
  obtain ⟨signed, _, verified⟩ := Except.bind_ok_iff.mp verified
  have same : selected.target = target := by
    split_ifs at verified
    · cases verified
    · cases verified
      rfl
  unfold TrustedRepository.exactTarget at found
  split at found
  · cases found
  · split_ifs at found with match'
    cases found
    simp only [digestsMatch, Bool.not_eq_true', Bool.not_eq_false, Bool.and_eq_true,
      beq_iff_eq] at match'
    rw [same]
    exact match'.2

/-- Every package the graph declares verifies. -/
def Verifies (repository : TrustedRepository) (policy : DefaultPolicy) (graph : ReleaseGraph) :
    Prop :=
  ∀ version release, graph.releases[version]? = some release →
    ∃ selected, repository.verifyRelease policy version release.package = .ok selected

/-- A release can be used where its package verifies and is not rejected. -/
theorem candidate_isOk {isRejected : DigestText → Bool} {selected : SelectedRelease}
    (verified : repository.verifyRelease policy version release.package = .ok selected) :
    (repository.candidate policy (fun target _ => isRejected (targetSha target)) version
      release).isOk = !isRejected release.package.sha256 := by
  unfold TrustedRepository.candidate
  rw [verified]
  change Except.isOk (if isRejected (targetSha selected.target) then _ else _) = _
  rw [targetSha_of_verifyRelease verified]
  cases isRejected release.package.sha256 <;> rfl

theorem contains_candidates {rejected : VerifiedTarget → String → Bool} :
    (repository.candidates policy rejected graph).1.contains version = true ↔
      ∃ release, graph.releases[version]? = some release ∧
        (repository.candidate policy rejected version release).isOk = true := by
  have loop (entries : List (String × Release))
      (known : BTreeMap String SelectedRelease × List String) :
      (entries.foldl (repository.consider policy rejected) known).1.contains version = true ↔
        known.1.contains version = true ∨ ∃ release, (version, release) ∈ entries ∧
          (repository.candidate policy rejected version release).isOk = true := by
    induction entries generalizing known with
    | nil => simp
    | cons entry rest ih =>
      obtain ⟨name, release⟩ := entry
      rw [List.foldl_cons, ih, TrustedRepository.consider]
      cases checked : repository.candidate policy rejected name release with
      | ok candidate =>
        have found : (known.1.insert name candidate).contains version = true ↔
            name = version ∨ known.1.contains version = true := by
          simp
        dsimp only
        rw [found]
        constructor
        · rintro ((rfl | before) | ⟨release, member, ok⟩)
          · exact .inr ⟨release, List.mem_cons_self, by rw [checked]; rfl⟩
          · exact .inl before
          · exact .inr ⟨release, List.mem_cons_of_mem _ member, ok⟩
        · rintro (before | ⟨other, member, ok⟩)
          · exact .inl (.inr before)
          · rcases List.mem_cons.mp member with same | later
            · exact .inl (.inl (Prod.mk.inj same).1.symm)
            · exact .inr ⟨other, later, ok⟩
      | error error =>
        constructor
        · rintro (before | ⟨release, member, ok⟩)
          · exact .inl before
          · exact .inr ⟨release, List.mem_cons_of_mem _ member, ok⟩
        · rintro (before | ⟨other, member, ok⟩)
          · exact .inl before
          · rcases List.mem_cons.mp member with same | later
            · obtain ⟨rfl, rfl⟩ := Prod.mk.inj same
              rw [checked] at ok
              cases ok
            · exact .inr ⟨other, later, ok⟩
  unfold TrustedRepository.candidates
  rw [loop]
  simp [Std.ExtTreeMap.mem_toList_iff_getElem?_eq_some]

omit [Semver] in
/-- A route whose versions are all at hand is taken out completely. -/
theorem takeRoute_isSome {route : List String} (distinct : route.Nodup) :
    ∀ {candidates : BTreeMap String SelectedRelease}, (∀ version ∈ route, version ∈ candidates) →
      (takeRoute candidates route).isSome = true := by
  induction route with
  | nil => exact fun _ => rfl
  | cons version rest ih =>
    intro candidates hand
    obtain ⟨fresh, distinct⟩ := List.nodup_cons.mp distinct
    obtain ⟨selected, found⟩ := Option.isSome_iff_exists.mp
      (Std.ExtTreeMap.mem_iff_isSome_getElem?.mp (hand version List.mem_cons_self))
    have others : ∀ other ∈ rest, other ∈ candidates.erase version := by
      intro other member
      rw [Std.ExtTreeMap.mem_erase]
      refine ⟨?_, hand other (List.mem_cons_of_mem _ member)⟩
      rw [compare_eq_iff_eq.ne]
      rintro rfl
      exact fresh member
    obtain ⟨taken, rest⟩ := Option.isSome_iff_exists.mp (ih distinct others)
    simp [takeRoute, found, rest]

variable {available : String → Release → Bool}

/-- Edges advance strictly, so no version is on a route twice. -/
theorem nodup_of_route {route : List String} (ok : graph.route installed available = .ok route) :
    route.Nodup := by
  have valid := ReleaseGraph.validate_ok (ReleaseGraph.routable_of_route ok).validated
  have leads := (ReleaseGraph.least_of_route ok).1.leads
  have ordered := (leads.imp fun _ _ => Relation.TransGen.single).pairwise
  exact ((ordered.imp fun path => valid.acyclic path).sublist (List.sublist_append_right _ _))

/-- **Selection succeeds** where an installed target can itself be used and a route is left. -/
theorem planRoute_isOk {rejected : VerifiedTarget → String → Bool} :
    (repository.planRoute policy rejected graph installed).isOk = true ↔
      (installed = some graph.target →
        (repository.candidates policy rejected graph).1.contains graph.target = true) ∧
      (graph.route installed fun version _ =>
        (repository.candidates policy rejected graph).1.contains version).isOk = true := by
  unfold TrustedRepository.planRoute
  generalize repository.candidates policy rejected graph = known
  obtain ⟨candidates, failures⟩ := known
  dsimp only
  by_cases stuck : (installed = some graph.target && !candidates.contains graph.target) = true
  · rw [if_pos stuck]
    simp only [Bool.and_eq_true, decide_eq_true_eq, Bool.not_eq_true'] at stuck
    constructor
    · exact fun ok => nomatch ok
    · rintro ⟨usable, -⟩
      exact absurd (usable stuck.1) (by rw [stuck.2]; nofun)
  · rw [if_neg stuck]
    have usable : installed = some graph.target → candidates.contains graph.target = true :=
      fun there => by simpa [there] using stuck
    cases routed : graph.route installed fun version _ => candidates.contains version with
    | error error => exact ⟨(fun ok => nomatch ok), fun ⟨_, ok⟩ => nomatch ok⟩
    | ok route =>
      refine ⟨fun _ => ⟨usable, rfl⟩, fun _ => ?_⟩
      have hand : ∀ version ∈ route, version ∈ candidates := fun version member => by
        obtain ⟨_, _, available⟩ := (ReleaseGraph.least_of_route routed).1.available version member
        exact Std.ExtTreeMap.contains_iff_mem.mp available
      obtain ⟨selected, taken⟩ := Option.isSome_iff_exists.mp
        (takeRoute_isSome (nodup_of_route routed) hand)
      change Except.isOk (match takeRoute candidates route with
        | some selected => pure selected
        | none => throw _) = true
      rw [taken]
      rfl

theorem routable_of_isOk (routed : (graph.route installed available).isOk = true) :
    graph.Routable installed := by
  cases found : graph.route installed available with
  | error error =>
    rw [found] at routed
    cases routed
  | ok route => exact ReleaseGraph.routable_of_route found

/-- A route depends on what is available of the declared releases. -/
theorem route_congr {other : String → Release → Bool}
    (same : ∀ version release, graph.releases[version]? = some release →
      available version release = other version release) :
    graph.route installed available = graph.route installed other := by
  have allowed (version : String) : (graph.releases[version]?).any (available version) =
      (graph.releases[version]?).any (other version) := by
    cases found : graph.releases[version]? with
    | none => rfl
    | some release => exact same version release found
  unfold ReleaseGraph.route
  simp only [allowed]

/-- Where every package verifies, only rejections matter to selection. -/
theorem planRoute_isOk_of_verifies {isRejected : DigestText → Bool}
    (verified : Verifies repository policy graph) :
    (repository.planRoute policy (fun target _ => isRejected (targetSha target)) graph
        installed).isOk = true ↔
      (∀ release, installed = some graph.target → graph.releases[graph.target]? = some release →
        isRejected release.package.sha256 = false) ∧
      (graph.route installed fun _ release => !isRejected release.package.sha256).isOk = true := by
  have usable {version : String} {release : Release}
      (declared : graph.releases[version]? = some release) :
      (repository.candidates policy (fun target _ => isRejected (targetSha target))
        graph).1.contains version = !isRejected release.package.sha256 := by
    obtain ⟨selected, verified⟩ := verified version release declared
    rw [Bool.eq_iff_iff, contains_candidates, ← candidate_isOk verified]
    simp [declared]
  rw [planRoute_isOk, route_congr fun version release declared => usable declared]
  refine and_congr_left fun routed => ?_
  have valid := ReleaseGraph.validate_ok (routable_of_isOk routed).validated
  obtain ⟨release, declared⟩ := Option.isSome_iff_exists.mp
    (Std.ExtTreeMap.mem_iff_isSome_getElem?.mp valid.target)
  rw [usable declared, Bool.not_eq_true']
  constructor
  · rintro free other there found
    cases declared.symm.trans found
    exact free there
  · exact fun free there => free release there declared

end

/-! ## The report and selection -/

/-- What reading the record gives. -/
def readOf : Option InstalledState → Installed
  | none => .missing
  | some state => .present state

/-- Where selection starts, over this record. -/
def stanceOf : Option InstalledState → Stance
  | none => .nothing
  | some state => .installed state.release.version state.archiveSha256

section
variable [Crypto] [Semver]

/-- Selecting the assigned application succeeds over this record and this ledger. -/
def Selects (repository : TrustedRepository) (policy : DefaultPolicy) (context : AssignmentContext)
    (installed : Option InstalledState) (store : Store) : Prop :=
  (selectAssignedApplication repository policy (stanceOf installed)
    (store.rejectsDeployment context.repositoryLineage)).isOk = true

instance {repository : TrustedRepository} {policy : DefaultPolicy} {context : AssignmentContext}
    {installed : Option InstalledState} {store : Store} :
    Decidable (Selects repository policy context installed store) :=
  inferInstanceAs (Decidable (_ = true))

/-- The same store with nothing rejected. -/
def withoutRejections (store : Store) : Store := { store with rejected := ⟨∅, false⟩ }

variable {repository : TrustedRepository} {policy : DefaultPolicy} {context : AssignmentContext}
  {installed : Option InstalledState} {store : Store}

omit [Semver] in
theorem rejectsDeployment_withoutRejections (digest : Sha256) :
    (withoutRejections store).rejectsDeployment context.repositoryLineage (.canonical digest) =
      false := by
  obtain ⟨lineage, named⟩ : ∃ lineage, context.repositoryLineage = ⟨.canonical lineage⟩ := by
    obtain ⟨-, ⟨digest⟩, canonical⟩ := context
    cases digest with
    | canonical lineage => exact ⟨lineage, rfl⟩
    | other text malformed => cases canonical
  rw [named]
  simp [Store.rejectsDeployment, Store.isRejected, Store.rejectionKey, withoutRejections,
    Rejections.isRejected, deploymentRejectionSha256]

theorem selects_iff (assigned : repository.assignmentContext = some context)
    (valid : context.document.application.validate = .ok ())
    (source : ∀ state, installed = some state → context.document.application.checkSource
      state.release.version state.archiveSha256 = .ok ()) :
    Selects repository policy context installed store ↔
      (repository.planRoute policy
        (fun target _ => store.rejectsDeployment context.repositoryLineage (targetSha target))
        context.document.application (installed.map (·.release.version))).isOk = true := by
  have mapped {α β : Type} (f : α → β) (result : Except String α) :
      (result.map f).isOk = result.isOk := by
    cases result <;> rfl
  unfold Selects selectAssignedApplication
  rw [mapped]
  cases installed with
  | none =>
    simp only [TrustedRepository.assignedApplication, stanceOf, assigned, valid]
    rfl
  | some state =>
    simp only [TrustedRepository.assignedApplication, stanceOf, assigned, valid, source state rfl]
    rfl

/-- With nothing rejected, selection succeeds wherever there is a route. -/
theorem selects_withoutRejections (assigned : repository.assignmentContext = some context)
    (valid : context.document.application.validate = .ok ())
    (verified : Verifies repository policy context.document.application)
    (source : ∀ state, installed = some state → context.document.application.checkSource
      state.release.version state.archiveSha256 = .ok ()) :
    Selects repository policy context installed (withoutRejections store) ↔
      (context.document.application.route (installed.map (·.release.version))
        fun _ _ => true).isOk = true := by
  have free {version : String} {release : Release}
      (declared : context.document.application.releases[version]? = some release) :
      (withoutRejections store).rejectsDeployment context.repositoryLineage
        release.package.sha256 = false := by
    obtain ⟨selected, verified⟩ := verified version release declared
    rw [← targetSha_of_verifyRelease verified]
    exact rejectsDeployment_withoutRejections _
  rw [selects_iff assigned valid source, planRoute_isOk_of_verifies verified,
    route_congr fun version release declared => congrArg (! ·) (free declared)]
  exact ⟨fun selects => selects.2, fun routed => ⟨fun release _ declared => free declared, routed⟩⟩

/-- The bit, over a record whose package is the declared one. -/
theorem rejectsAssignedRelease_eq
    (source : ∀ state, installed = some state → context.document.application.checkSource
      state.release.version state.archiveSha256 = .ok ()) :
    rejectsAssignedRelease store (.ok (readOf installed)) context =
      ((context.document.application.route (installed.map (·.release.version))
          fun _ _ => true).isOk &&
        (installed.any (fun state => !state.isProven &&
            store.rejectsDeployment state.repositoryLineage state.archiveSha256) ||
          !(context.document.application.route (installed.map (·.release.version))
            fun _ release => !store.rejectsDeployment context.repositoryLineage
              release.package.sha256).isOk)) := by
  unfold rejectsAssignedRelease rejectsRelease
  cases installed with
  | none => rfl
  | some state =>
    simp only [readOf, source state rfl]
    rfl

/-- **When the report says that the assignment is rejected**: for every ledger, every record or
none and every valid graph whose packages verify, exactly when selection would succeed with nothing
rejected and either the assigned release is not the installed one and selection fails, or the
installed one is unproven and its own deployment is rejected. -/
theorem rejectsRelease_iff (assigned : repository.assignmentContext = some context)
    (valid : context.document.application.validate = .ok ())
    (verified : Verifies repository policy context.document.application)
    (source : ∀ state, installed = some state → context.document.application.checkSource
      state.release.version state.archiveSha256 = .ok ()) :
    rejectsAssignedRelease store (.ok (readOf installed)) context = true ↔
      Selects repository policy context installed (withoutRejections store) ∧
        ((installed.map (·.release.version) ≠ some context.document.application.target ∧
            ¬Selects repository policy context installed store) ∨
          ∃ state, installed = some state ∧ state.isProven = false ∧
            store.rejectsDeployment state.repositoryLineage state.archiveSha256 = true) := by
  rw [rejectsAssignedRelease_eq source, selects_withoutRejections assigned valid verified source,
    selects_iff assigned valid source, planRoute_isOk_of_verifies verified, Bool.and_eq_true,
    Bool.or_eq_true, Option.any_eq_true]
  refine and_congr_right fun routed => ?_
  rw [or_comm]
  refine or_congr ?_ (exists_congr fun state => and_congr_right fun _ => by simp)
  by_cases there : installed.map (·.release.version) = some context.document.application.target
  · -- An installed target has the empty route, whatever is rejected.
    rw [there] at routed ⊢
    rw [(routable_of_isOk routed).route_target]
    exact ⟨(fun failed => nomatch failed), fun ⟨apart, _⟩ => absurd rfl apart⟩
  · simp [there]

end

end Updatedc.Agent.Selection

namespace Updatedc.Agent.Selection.Sample

open Contracts Updatedc.Sample

def path : String := "products/p/c/1.0.0/o-a/f"

/-- One release, which can be installed. -/
def application : ReleaseGraph where
  target := version
  releases := table [(version, { package := ⟨path, .canonical 1⟩, installable := true })]

def context : AssignmentContext :=
  ⟨{ deployment "d" {} with application }, ⟨.canonical 7⟩, rfl⟩

def repository : TrustedRepository where
  targets := table [(path, 1, table [("product", "p"), ("channel", "c"), ("os", "o"),
    ("arch", "a"), ("version", version)])]
  assignmentContext := some context

def policy : DefaultPolicy := ⟨"p", "c", "o", "a"⟩

/-- The release is installed. -/
def state (maturity : Maturity) : InstalledState where
  repositoryLineage := ⟨.canonical 7⟩
  release := ⟨version, .canonical 2⟩
  archiveSha256 := .canonical 1
  reconciler := ⟨.canonical 3, "p", 1, 1⟩
  rollbackGuard := none
  maturity

/-- Its package is rejected. -/
def store : Store where
  disk := ⟨none, none, none, none, {⟨7, 1⟩}⟩
  rejected := ⟨{⟨7, 1⟩}, false⟩

/-- **A proven installation of the assigned release is not reported as rejected**, although
selection refuses its package and would not with nothing rejected. -/
theorem settled_rejection_unreported :
    rejectsAssignedRelease store (.ok (readOf (some (state .proven)))) context = false ∧
      Selects repository policy context (some (state .proven)) (withoutRejections store) ∧
      ¬Selects repository policy context (some (state .proven)) store := by
  decide

theorem verifies_application : Verifies repository policy application := by
  intro version release declared
  have member := Std.ExtTreeMap.mem_toList_iff_getElem?_eq_some.mpr declared
  have only : application.releases.toList =
      [(Updatedc.Sample.version, { package := ⟨path, .canonical 1⟩, installable := true })] := by
    decide
  rw [only, List.mem_singleton] at member
  cases member
  exact ⟨_, rfl⟩

/-- An unproven one is. -/
theorem rejectsRelease_iff_provisional :
    rejectsAssignedRelease store (.ok (readOf (some (state .provisional)))) context = true := by
  have assigned : repository.assignmentContext = some context := rfl
  refine (rejectsRelease_iff assigned (by decide) verifies_application ?_).mpr
    ⟨by decide, .inr ⟨_, rfl, rfl, by decide⟩⟩
  rintro _ ⟨⟩
  decide

end Updatedc.Agent.Selection.Sample
