import Updatedc.Agent.Records

/-!
# Durable transactions (`updated/src/transaction.rs`, `updated/src/install.rs`)

An update journals its intent before every step and a first install does the same. The update's
phases run forward to `committed`, or from any uncommitted phase along the rollback path to
`rolledBack`; the first install only runs forward. `permitsReplacement` says which rewrite of a
journal is one step of its own machine, so that a stored journal's history can be checked from the
two records alone.
-/

namespace Updatedc.Agent

open Contracts

/-! ## The update transaction -/

inductive Phase where
  /-- Candidate payload and reconciler bytes are staged; live state is untouched. -/
  | prepared
  /-- The active pointer names the candidate. -/
  | activated
  /-- The candidate reconciler completed `converge`. -/
  | converged
  /-- The candidate passed its immediate health gate. -/
  | verified
  /-- Candidate installed state, with its rollback guard, was committed. -/
  | committed
  /-- Intent to compensate the candidate and restore the exact predecessor. -/
  | rollbackPlanned
  /-- The candidate's reconciler completed `rollback`. -/
  | candidateCompensated
  /-- The predecessor pointer was restored and its reconciler completed `converge`. -/
  | restored
  /-- The restored predecessor passed its health gate. -/
  | rollbackVerified
  /-- Predecessor installed state was committed. -/
  | rolledBack
  deriving DecidableEq

namespace Phase

/-- `{:?}`. -/
def debug : Phase → String
  | prepared => "Prepared"
  | activated => "Activated"
  | converged => "Converged"
  | verified => "Verified"
  | committed => "Committed"
  | rollbackPlanned => "RollbackPlanned"
  | candidateCompensated => "CandidateCompensated"
  | restored => "Restored"
  | rollbackVerified => "RollbackVerified"
  | rolledBack => "RolledBack"

/-- The position on the recovery path, for the phases on it. -/
def rollbackRank : Phase → Option Nat
  | rollbackPlanned => some 0
  | candidateCompensated => some 1
  | restored => some 2
  | rollbackVerified => some 3
  | rolledBack => some 4
  | prepared | activated | converged | verified | committed => none

/-- The edges of the update's state machine. -/
def advances : Phase → Phase → Bool
  | prepared, activated | activated, converged | converged, verified | verified, committed
  -- A converge may require a reboot before health means anything.
  | converged, committed => true
  | prepared, rollbackPlanned | activated, rollbackPlanned | converged, rollbackPlanned
  | verified, rollbackPlanned => true
  | rollbackPlanned, candidateCompensated | candidateCompensated, restored
  | restored, rollbackVerified | rollbackVerified, rolledBack
  -- A bounded unhealthy rollback settles without passing its gate.
  | restored, rolledBack => true
  | _, _ => false

/-- The phases before the commit. -/
def isForward : Phase → Bool
  | prepared | activated | converged | verified => true
  | _ => false

/-- Nothing leads back into the forward phases. -/
theorem isForward_of_advances {phase next : Phase} (edge : phase.advances next = true)
    (forward : next.isForward = true) : phase.isForward = true := by
  revert edge forward
  cases phase <;> cases next <;> decide

end Phase

/-- Durable intent for an in-flight executable replacement. -/
structure Transaction where
  id : DigestText
  previousRelease : ReleaseId
  previousArchiveSha256 : DigestText
  previousRepositoryLineage : RepositoryLineage
  candidateRelease : ReleaseId
  candidateArchiveSha256 : DigestText
  candidateRejectionSha256 : DigestText
  candidateRepositoryLineage : RepositoryLineage
  /-- Recovery must durably reject the candidate before this transaction may be cleared. -/
  candidateRejectionRequired : Bool
  previousReconciler : ReconcilerRelease
  candidateReconciler : ReconcilerRelease
  /-- Consecutive boots that failed to health-gate the restored predecessor. -/
  rollbackHealthFailures : Nat
  phase : Phase
  deriving DecidableEq

namespace Transaction

variable (self : Transaction)

/-- Whether the evidence carried by this record could have been observed at its phase. -/
def phaseEvidenceIsValid : Bool :=
  let rejectionIsPossible := !self.candidateRejectionRequired ||
    match self.phase with
    | .activated | .converged | .rollbackPlanned | .candidateCompensated | .restored
    | .rollbackVerified | .rolledBack => true
    | _ => false
  let rollbackHealthIsPossible := self.rollbackHealthFailures == 0 ||
    match self.phase with
    | .restored | .rollbackVerified | .rolledBack => true
    | _ => false
  rejectionIsPossible && rollbackHealthIsPossible

def validate [Crypto] [Semver] (self : Transaction) : IoResult Unit := do
  require (isToken self.id) (.invalidData "transaction id is invalid")
  self.previousRelease.validate
  self.candidateRelease.validate
  require (self.previousArchiveSha256.isCanonical && self.candidateArchiveSha256.isCanonical)
    (.invalidData "transaction archive identity is invalid")
  require (self.previousRepositoryLineage.validate && self.candidateRepositoryLineage.validate)
    (.invalidData "transaction repository lineage is invalid")
  let expectedRejection := Agent.candidateRejectionSha256 self.previousRelease
    self.previousArchiveSha256 self.candidateRelease self.candidateArchiveSha256
  require expectedRejection.isSome
    (.invalidData "update transaction must change the package")
  require (self.candidateRejectionSha256.isCanonical &&
      expectedRejection = some self.candidateRejectionSha256)
    (.invalidData "transaction rejection identity does not match the executable replacement")
  require (self.previousReconciler.isValid && self.candidateReconciler.isValid)
    (.invalidData "transaction reconciler identity is invalid")
  require self.phaseEvidenceIsValid
    (.invalidData "transaction phase contradicts its durable evidence")

/-- Whether `state` is the exact deployed predecessor this transaction names. -/
def matchesPrevious (state : InstalledState) : Bool :=
  self.previousRepositoryLineage = state.repositoryLineage &&
    self.previousRelease = state.release &&
    self.previousArchiveSha256 = state.archiveSha256 &&
    self.previousReconciler = state.reconciler

/-- Whether `state` is the exact deployed candidate this transaction names. -/
def matchesCandidate (state : InstalledState) : Bool :=
  self.candidateRepositoryLineage = state.repositoryLineage &&
    self.candidateRelease = state.release &&
    self.candidateArchiveSha256 = state.archiveSha256 &&
    self.candidateReconciler = state.reconciler

/-- Whether a committed candidate's guard is the predecessor half of this transaction. -/
def matchesRollbackGuard (rollbackGuard : RollbackGuard) : Bool :=
  self.id = rollbackGuard.attemptId &&
    self.candidateRejectionSha256 = rollbackGuard.candidateRejectionSha256 &&
    self.previousRepositoryLineage = rollbackGuard.previousRepositoryLineage &&
    self.previousRelease = rollbackGuard.previousRelease &&
    self.previousArchiveSha256 = rollbackGuard.previousArchiveSha256 &&
    self.previousReconciler = rollbackGuard.reconciler

/-- On the rollback path and not yet advanced into `target`. -/
def recoveryPending (target : Phase) : Bool :=
  match self.phase.rollbackRank, target.rollbackRank with
  | some current, some boundary => current < boundary
  | _, _ => false

def advance (next : Phase) : IoResult Transaction :=
  let advanced := { self with phase := next }
  if !self.phase.advances next then
    .error (.invalidInput s!"invalid transaction phase {self.phase.debug} -> {next.debug}")
  else if !advanced.phaseEvidenceIsValid then
    .error (.invalidInput
      s!"transaction evidence cannot advance from {self.phase.debug} to {next.debug}")
  else
    .ok advanced

/-- `u32::MAX`. -/
def maxHealthFailures : Nat := 2 ^ 32 - 1

/-- Count one failed authoritative boot gate while a rollback is waiting to settle. -/
def recordRollbackHealthFailure : IoResult Transaction :=
  if !(!self.recoveryPending .restored && self.recoveryPending .rolledBack) then
    .error (.invalidInput
      s!"cannot record a rollback health failure at phase {self.phase.debug}")
  else if self.rollbackHealthFailures ≥ maxHealthFailures then
    .error (.invalidData "rollback health failure count overflow")
  else
    .ok { self with rollbackHealthFailures := self.rollbackHealthFailures + 1 }

/-- The one terminal same-id restart: the record's guard resumes a spent `committed` journal. -/
def resumesCommittedPending (self next : Transaction) : Bool :=
  self.phase = .committed && next.phase = .rollbackPlanned &&
    self.candidateRejectionRequired = next.candidateRejectionRequired &&
    self.rollbackHealthFailures = next.rollbackHealthFailures

/-- The one-way verdict, learned at activation or at the immediate health gate. -/
def recordsRejection (self next : Transaction) : Bool :=
  (self.phase = .activated || self.phase = .converged) &&
    !self.candidateRejectionRequired && next.candidateRejectionRequired &&
    self.rollbackHealthFailures = next.rollbackHealthFailures

/-- Whether `next` is a legitimate durable rewrite of this transaction: a replay, one edge of the
machine, the rejection verdict, or one failed health observation. -/
def permitsReplacement (self next : Transaction) : Bool :=
  let identity := { next with
    phase := self.phase
    candidateRejectionRequired := self.candidateRejectionRequired
    rollbackHealthFailures := self.rollbackHealthFailures }
  if identity ≠ self then false
  else if self = next then true
  else if self.phase ≠ next.phase then
    self.resumesCommittedPending next || self.advance next.phase = .ok next
  else
    self.recordsRejection next ||
      (self.candidateRejectionRequired = next.candidateRejectionRequired &&
        self.recordRollbackHealthFailure = .ok next)

/-! ### What a rewrite keeps -/

variable {self next : Transaction}

/-- A rewrite changes the phase and the two pieces of evidence, and nothing else. -/
theorem eq_of_permitsReplacement (permits : self.permitsReplacement next = true) :
    next = { self with
      phase := next.phase
      candidateRejectionRequired := next.candidateRejectionRequired
      rollbackHealthFailures := next.rollbackHealthFailures } := by
  unfold permitsReplacement at permits
  dsimp only at permits
  split_ifs at permits with changed
  all_goals
    have same := not_not.mp changed
    rw [← same]

theorem advance_ok (ok : self.advance next.phase = .ok next) :
    self.phase.advances next.phase = true ∧ next = { self with phase := next.phase } := by
  unfold advance at ok
  dsimp only at ok
  split_ifs at ok with refused
  exact ⟨by simpa using refused, (Except.ok.inj ok).symm⟩

/-- The phases of a rewrite: the same, one edge, or the restart of a spent journal. -/
theorem phase_of_permitsReplacement (permits : self.permitsReplacement next = true) :
    self.phase = next.phase ∨ self.phase.advances next.phase = true ∨
      (self.phase = .committed ∧ next.phase = .rollbackPlanned) := by
  by_cases same : self.phase = next.phase
  · exact .inl same
  unfold permitsReplacement at permits
  dsimp only at permits
  split_ifs at permits with changed equal
  · exact absurd (congrArg phase equal) same
  · rcases Bool.or_eq_true_iff.mp permits with resumes | advances
    · simp only [resumesCommittedPending, Bool.and_eq_true, decide_eq_true_eq] at resumes
      exact .inr (.inr resumes.1.1)
    · exact .inr (.inl (advance_ok (of_decide_eq_true advances)).1)

end Transaction

/-! ## The first install -/

inductive InstallPhase where
  /-- Intent is durable; nothing on disk has changed yet. -/
  | started
  /-- The bundle is staged into the versioned store. -/
  | prepared
  /-- The active pointer references the release and the placement hook has run. -/
  | placed
  /-- Enrollment and the installed record are written. -/
  | committed
  deriving DecidableEq

def InstallPhase.debug : InstallPhase → String
  | started => "Started"
  | prepared => "Prepared"
  | placed => "Placed"
  | committed => "Committed"

/-- Durable intent for an in-flight first install of a single release. -/
structure InstallTransaction where
  id : DigestText
  release : ReleaseId
  archiveSha256 : DigestText
  repositoryLineage : RepositoryLineage
  reconciler : ReconcilerRelease
  phase : InstallPhase
  deriving DecidableEq

namespace InstallTransaction

variable (self : InstallTransaction)

def validate [Semver] (self : InstallTransaction) : IoResult Unit := do
  require (isToken self.id) (.invalidData "install transaction id is invalid")
  self.release.validate
  require self.archiveSha256.isCanonical
    (.invalidData "install transaction archive identity is invalid")
  require self.repositoryLineage.validate
    (.invalidData "install transaction repository lineage is invalid")
  require self.reconciler.isValid
    (.invalidData "install transaction reconciler identity is invalid")

def advance (next : InstallPhase) : IoResult InstallTransaction :=
  match self.phase, next with
  | .started, .prepared | .prepared, .placed | .placed, .committed =>
    .ok { self with phase := next }
  | _, _ => .error (.invalidInput
      s!"invalid install phase {self.phase.debug} -> {next.debug}")

/-- A replay, or exactly one edge. -/
def permitsReplacement (self next : InstallTransaction) : Bool :=
  self = next || self.advance next.phase = .ok next

/-- Whether the committed record names the exact deployed unit this install staged. -/
def matchesInstalled (installed : InstalledState) : Bool :=
  self.release = installed.release && self.archiveSha256 = installed.archiveSha256 &&
    self.repositoryLineage = installed.repositoryLineage && self.reconciler = installed.reconciler

end InstallTransaction

inductive InstallRecovery where
  | committed
  | resume
  deriving DecidableEq

def classifyInstallRecovery (tx : InstallTransaction) (installed : Option InstalledState) :
    InstallRecovery :=
  if installed.any tx.matchesInstalled then .committed else .resume

end Updatedc.Agent
