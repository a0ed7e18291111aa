import Updatedc.Contracts.Identity
import Updatedc.Lib.Worklist

/-!
# The release graph (`updated-contracts/src/releases.rs`, `artifact.rs`)

One application's releases, with the exact predecessors each one accepts. `route` is the
breadth-first search a node and the control plane both plan with. Its loop is fuelled by the
number of releases: every version enters the queue at most once.
-/

namespace Updatedc.Contracts

/-- An immutable package by path and digest. -/
structure TargetReference where
  path : String
  sha256 : DigestText
  deriving DecidableEq

namespace TargetReference

def maxPathBytes : Nat := 1024

def isValid (self : TargetReference) : Bool :=
  self.path.utf8ByteSize ≤ maxPathBytes && Path.isConfinedRelative self.path
    && self.sha256.isCanonical

end TargetReference

/-- A node's routing document: the exact deployment document it points at. -/
structure AgentDocument where
  schema : Nat
  config : TargetReference
  deriving DecidableEq

namespace AgentDocument

def maxDocumentBytes : Nat := 4 * 1024

def validate (self : AgentDocument) : Except String Unit :=
  if self.schema != 1 then .error s!"unsupported agent document schema {self.schema}"
  else if !self.config.isValid then .error "agent document config reference is invalid"
  else .ok ()

def toBoundedJson [Json AgentDocument] (self : AgentDocument) : Except String Bytes := do
  self.validate
  Bounded.encode self "agent document" maxDocumentBytes

end AgentDocument

structure Release where
  package : TargetReference
  /-- Exact predecessor versions accepted by this release. -/
  upgradeFrom : BTreeSet String := ∅
  /-- Exact higher versions this release can restore from. -/
  rollbackFrom : BTreeSet String := ∅
  installable : Bool := false
  deriving DecidableEq

structure ReleaseGraph where
  target : String
  releases : BTreeMap String Release
  deriving DecidableEq

inductive Direction where
  | upgrade
  | rollback
  deriving DecidableEq

namespace Direction

def predecessors (self : Direction) (release : Release) : BTreeSet String :=
  match self with
  | upgrade => release.upgradeFrom
  | rollback => release.rollbackFrom

/-- An upgrade moves up in precedence and a rollback down. -/
def permits [Semver] (self : Direction) (source destination : Semver.Version) : Bool :=
  match self with
  | upgrade => Semver.cmpPrecedence source destination == .lt
  | rollback => Semver.cmpPrecedence source destination == .gt

end Direction

namespace ReleaseGraph

def maxReleases : Nat := 128

def targetReference (self : ReleaseGraph) : Except String TargetReference :=
  match self.releases[self.target]? with
  | some release => .ok release.package
  | none => .error s!"target release {self.target} is not declared"

section
variable [Semver]

/-- One declared edge: its source is declared, and it moves in its direction. -/
def checkEdge (self : ReleaseGraph) (version : String) (parsed : Semver.Version)
    (direction : Direction) (source : String) : Except String Unit :=
  match Identity.parseReleaseVersion source with
  | some sourceVersion =>
    if !self.releases.contains source then
      .error s!"release {version} names an undeclared predecessor {source}"
    else if !direction.permits sourceVersion parsed then
      .error (s!"edge {source} -> {version} must advance for upgradeFrom or descend " ++
        "for rollbackFrom")
    else .ok ()
  | none => .error s!"release {version} names an undeclared predecessor {source}"

/-- One release, given the packages of the releases before it. -/
def checkRelease (self : ReleaseGraph) (packages : List DigestText) (version : String)
    (release : Release) : Except String (List DigestText) := do
  let some parsed := (Identity.parseReleaseVersion version).filter (Semver.print · == version)
    | throw s!"invalid exact release version {version.quote}"
  if !release.package.isValid || packages.contains release.package.sha256 then
    throw s!"release {version} has an invalid or duplicate package identity"
  (Direction.upgrade.predecessors release).toList.forM (self.checkEdge version parsed .upgrade)
  (Direction.rollback.predecessors release).toList.forM
    (self.checkEdge version parsed .rollback)
  return release.package.sha256 :: packages

def validate (self : ReleaseGraph) : Except String Unit := do
  if self.releases.isEmpty || self.releases.size > maxReleases then
    throw s!"application must declare 1..={maxReleases} releases"
  let _ ← self.targetReference
  let _ ← self.releases.toList.foldlM
    (fun packages (version, release) => self.checkRelease packages version release) []

end

/-- Bind a claimed starting version to its immutable package before using any edge. -/
def checkSource (self : ReleaseGraph) (version : String) (sha256 : DigestText) :
    Except String Unit :=
  match self.releases[version]? with
  | none =>
    .error (s!"no supported route from installed {version} to {self.target}: " ++
      "source is not declared")
  | some source =>
    if !digestsMatch source.package.sha256 sha256 then
      .error (s!"no supported route from installed {version} to {self.target}: " ++
        "source package bytes differ")
    else .ok ()

/-- Which edges a route from `installed` follows. Called only on a validated graph, where both
versions parse. -/
def direction [Semver] (self : ReleaseGraph) (installed : Option String) : Direction :=
  match installed with
  | some version =>
    match Identity.parseReleaseVersion version, Identity.parseReleaseVersion self.target with
    | some source, some target =>
      if Direction.rollback.permits source target then .rollback else .upgrade
    | _, _ => .upgrade
  | none => .upgrade

/-- The breadth-first search: pop a version, and queue every allowed release that accepts it and
has no parent yet. Returns the parents once the target is popped. -/
def search (self : ReleaseGraph) (direction : Direction) (allowed : String → Bool) :
    (fuel : Nat) → (parents : BTreeMap String (Option String)) → (queue : List String) →
      Option (BTreeMap String (Option String))
  | 0, _, _ => none
  | _ + 1, _, [] => none
  | fuel + 1, parents, version :: queue =>
    if version = self.target then some parents
    else
      let found := self.releases.toList.filter fun (next, release) =>
        allowed next && !parents.contains next &&
          (direction.predecessors release).contains version
      self.search direction allowed fuel
        (found.foldl (fun parents (next, _) => parents.insert next (some version)) parents)
        (queue ++ found.map (·.1))

/-- Follow the parents back from `current`, newest hop first, leaving out the installed release. -/
def walkBack (parents : BTreeMap String (Option String)) (installed : Option String) :
    (fuel : Nat) → (current : Option String) → List String
  | 0, _ | _, none => []
  | fuel + 1, some current =>
    let rest := walkBack parents installed fuel (parents[current]?.join)
    if some current = installed then rest else current :: rest

/-- The shortest permitted route, excluding an installed starting release. -/
def route [Semver] (self : ReleaseGraph) (installed : Option String)
    (available : String → Release → Bool) : Except String (List String) := do
  self.validate
  if let some version := installed then
    if !self.releases.contains version then
      throw s!"installed version {version} has no declared upgrade path"
    if version = self.target then return []
  let direction := self.direction installed
  let allowed (version : String) : Bool :=
    (self.releases[version]?).any (available version)
  let starts := match installed with
    | some version => [version]
    | none => (self.releases.toList.filter fun (version, release) =>
        release.installable && allowed version).map (·.1)
  let parents := starts.foldl (fun parents start => parents.insert start none) ∅
  match self.search direction allowed (self.releases.size + 1) parents starts with
  | some parents =>
    return (walkBack parents installed (self.releases.size + 1) (some self.target)).reverse
  | none =>
    let source := installed.getD "a fresh installation"
    throw s!"no supported route from {source} to {self.target}"

/-- The releases that accept this version. -/
def successorsOf (self : ReleaseGraph) (direction : Direction) (version : String) : List String :=
  (self.releases.toList.filter fun (_, release) =>
    (direction.predecessors release).contains version).map (·.1)

/-- The versions this one accepts. -/
def predecessorsOf (self : ReleaseGraph) (direction : Direction) (version : String) :
    List String :=
  (self.releases[version]?).elim [] fun release => (direction.predecessors release).toList

/-- Every version on a complete route from this source, in order; the installed source is not one
of them, and dead ends are left out. -/
def routeVersions [Semver] (self : ReleaseGraph) (installed : Option String) :
    Except String (List String) := do
  let _ ← self.route installed fun _ _ => true
  let direction := self.direction installed
  if installed = some self.target then return []
  let reachesTarget := Worklist.explore (self.predecessorsOf direction) (self.releases.size + 1)
    {self.target} [self.target]
  let starts := match installed with
    | some version => [version]
    | none => (self.releases.toList.filter fun (_, release) => release.installable).map (·.1)
  let reachable := Worklist.explore (self.successorsOf direction) (self.releases.size + 1)
    starts.toFinset starts
  return self.releases.keys.filter fun version =>
    version ∈ reachable && version ∈ reachesTarget && some version ≠ installed

end ReleaseGraph

end Updatedc.Contracts
