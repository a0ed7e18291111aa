import Updatedc.Contracts.Identity

/-!
# The installed record (`updated/src/state.rs`, `updated/src/bundle.rs`)

What a node has committed to run: the release, the archive it came from, the reconciler that
drives it and the repository lineage it was authenticated in. These four are **one deployed unit**
and are compared as one everywhere. A record may also carry a rollback guard, the durable authority
to return to the predecessor while an update is still proving itself.

Records are JSON files. Only a decoded record that passes its own `validate` is ever acted on, so a
file is modelled by the record it decodes to.
-/

namespace Updatedc.Agent

open Contracts

/-! ## Errors -/

inductive ErrorKind where
  | invalidInput | invalidData | notFound | alreadyExists | other
  deriving DecidableEq

/-- `io::Error`: raised by the code itself, or a failure of the operating system, which may be one
of the node-local faults that clear on their own. -/
inductive IoError where
  | raised (kind : ErrorKind) (message : String)
  | os (transient : Bool)
  deriving DecidableEq

namespace IoError

def invalidInput (message : String) : IoError := .raised .invalidInput message

def invalidData (message : String) : IoError := .raised .invalidData message

end IoError

abbrev IoResult := Except IoError

/-- Pass, or fail with the given error. -/
def require (condition : Bool) (error : IoError) : IoResult Unit :=
  if condition then .ok () else .error error

theorem require_ok_iff {condition : Bool} {error : IoError} :
    require condition error = .ok () ↔ condition = true := by
  cases condition <;> simp [require]

/-! ## Identities -/

structure ReleaseId where
  version : String
  manifestSha256 : DigestText
  deriving DecidableEq

def ReleaseId.validate [Semver] (self : ReleaseId) : IoResult Unit := do
  require (Identity.isReleaseVersion self.version)
    (.invalidData "release version is not a bounded semantic version")
  require self.manifestSha256.isCanonical (.invalidData "invalid SHA-256 digest")

/-- Identity of the repository whose rollback floor and rejection policy apply: the digest of its
canonical metadata base. -/
structure RepositoryLineage where
  digest : DigestText
  deriving DecidableEq

def RepositoryLineage.validate (self : RepositoryLineage) : Bool := self.digest.isCanonical

def maxCommandSeconds : Nat := 3600

def maxHealthSeconds : Nat := 20

def maxInvocationMillis : Nat := (2 * maxCommandSeconds + maxHealthSeconds + 5) * 1000

/-- Execution derived from a verified package, persisted with its transaction. -/
structure ReconcilerRelease where
  definitionSha256 : DigestText
  product : String
  api : Nat
  timeoutMillis : Nat
  deriving DecidableEq

namespace ReconcilerRelease

def isValid (self : ReconcilerRelease) : Bool :=
  self.definitionSha256.isCanonical && Identity.isSegment self.product && 0 < self.api &&
    (1 ≤ self.timeoutMillis && self.timeoutMillis ≤ maxInvocationMillis)

end ReconcilerRelease

/-- Attempt identities are tokens, spelled like a digest. -/
def isToken (value : DigestText) : Bool := value.isCanonical

/-! ## Rejection identities -/

/-- The runtime rejection identity of a package, if its digest is one. -/
def deploymentRejectionSha256 [Crypto] (applicationSha256 : DigestText) : Option DigestText :=
  applicationSha256.digest?.map fun digest =>
    .canonical (sha256 ("updated-package-rejection:" ++ digest.hex).toUTF8.data.toList)

/-- The rejection identity an executable replacement may carry: none when nothing is replaced. -/
def candidateRejectionSha256 [Crypto] (previousRelease : ReleaseId)
    (previousArchiveSha256 : DigestText) (candidateRelease : ReleaseId)
    (candidateArchiveSha256 : DigestText) : Option DigestText :=
  if previousRelease = candidateRelease ∧ previousArchiveSha256 = candidateArchiveSha256 then none
  else deploymentRejectionSha256 candidateArchiveSha256

/-! ## The record -/

inductive Maturity where
  | provisional
  | proven
  deriving DecidableEq

/-- The rollback authority retained during an update's confirmation window. -/
structure RollbackGuard where
  attemptId : DigestText
  candidateRejectionSha256 : DigestText
  previousRelease : ReleaseId
  previousArchiveSha256 : DigestText
  previousRepositoryLineage : RepositoryLineage
  reconciler : ReconcilerRelease
  /-- Unix seconds when the update committed. -/
  committedAt : Nat
  deriving DecidableEq

structure InstalledState where
  repositoryLineage : RepositoryLineage
  release : ReleaseId
  archiveSha256 : DigestText
  reconciler : ReconcilerRelease
  rollbackGuard : Option RollbackGuard
  maturity : Maturity
  deriving DecidableEq

namespace InstalledState

variable (self : InstalledState)

def isProven : Bool := self.maturity = .proven

section Validate

variable [Crypto] [Semver]

def validateGuard (guard : RollbackGuard) : IoResult Unit := do
  require (guard.committedAt ≠ 0) (.invalidData "rollback guard timestamp is invalid")
  require guard.previousRepositoryLineage.validate
    (.invalidData "rollback guard predecessor repository lineage is invalid")
  require (isToken guard.attemptId) (.invalidData "rollback guard attempt id is invalid")
  let expectedRejection := Agent.candidateRejectionSha256 guard.previousRelease
    guard.previousArchiveSha256 self.release self.archiveSha256
  require (guard.candidateRejectionSha256.isCanonical &&
      expectedRejection = some guard.candidateRejectionSha256)
    (.invalidData "rollback guard rejection identity does not match the executable replacement")
  require guard.reconciler.isValid
    (.invalidData "rollback guard reconciler identity is invalid")
  guard.previousRelease.validate
  require guard.previousArchiveSha256.isCanonical
    (.invalidData "rollback guard predecessor archive identity is invalid")

def validate : IoResult Unit := do
  require self.repositoryLineage.validate (.invalidData "invalid repository lineage")
  require self.reconciler.isValid (.invalidData "installed reconciler identity is invalid")
  self.release.validate
  require self.archiveSha256.isCanonical
    (.invalidData "installed archive identity is invalid")
  require (!(self.maturity = .provisional && self.rollbackGuard.isSome))
    (.invalidData "a provisional install must not carry a rollback guard")
  self.rollbackGuard.forM self.validateGuard

end Validate

/-- A health-proven install with no rollback guard. -/
def proven (repositoryLineage : RepositoryLineage) (release : ReleaseId)
    (archiveSha256 : DigestText) (reconciler : ReconcilerRelease) : InstalledState :=
  { repositoryLineage, release, archiveSha256, reconciler, rollbackGuard := none,
    maturity := .proven }

/-- A cold install that has not passed a health gate yet. -/
def provisional (repositoryLineage : RepositoryLineage) (release : ReleaseId)
    (archiveSha256 : DigestText) (reconciler : ReconcilerRelease) : InstalledState :=
  { proven repositoryLineage release archiveSha256 reconciler with maturity := .provisional }

/-- Promote a provisional install, with whether anything changed. -/
def proveProvisional : InstalledState × Bool :=
  ({ self with maturity := .proven }, self.maturity = .provisional)

end InstalledState

/-- The outcome of reading the record: absent is a first install, corrupt never is. -/
inductive Installed where
  | present (state : InstalledState)
  | missing
  | invalid
  deriving DecidableEq

/-! ## Where selection starts from -/

/-- What the node is looking for when it selects an application. -/
inductive Stance where
  | nothing
  | installed (version : String) (sha256 : DigestText)
  /-- Repair reconstructs committed bytes, and never selects another release. -/
  | reacquire (version : String) (sha256 : DigestText)
  deriving DecidableEq

/-- The version to plan a route from. -/
def Stance.installedVersion : Stance → Option String
  | nothing => none
  | installed version _ | reacquire version _ => some version

end Updatedc.Agent
