import Updatedc.Agent.Transaction

/-!
# The durable-state boundary (`agent/src/store.rs`, `updated/src/reject.rs`)

Every durable change of a node goes through one facade over five files: the installed record, the
update journal, the first-install journal, the active pointer and the rejection record. Each
operation reads what it needs, decides, and makes **at most one atomic whole-file write**; so an
operation is a function of the store and of what that one write did. A write that reports a failure
may still have landed (`WriteOutcome.unsynced`: the rename happened and syncing the directory
failed).

The rejection record is also held in memory. A live process keeps suppressing what it has seen
rejected even when the write failed, and remembers that the file may lag (`Rejections.dirty`).
-/

namespace Updatedc.Agent

open Contracts

/-! ## Writes -/

/-- What one atomic write or removal of a file did. -/
inductive WriteOutcome where
  | written
  /-- The write failed and the file is as before. -/
  | lost (transient : Bool)
  /-- The file was replaced, and the caller was told that the write failed. -/
  | unsynced (transient : Bool)
  deriving DecidableEq

namespace WriteOutcome

def lands : WriteOutcome → Bool
  | written | unsynced _ => true
  | lost _ => false

def result : WriteOutcome → IoResult Unit
  | written => .ok ()
  | lost transient | unsynced transient => .error (.os transient)

end WriteOutcome

/-! ## Rejections -/

/-- A key of the rejection record, `lineage:digest`. -/
structure RejectionKey where
  lineage : Sha256
  digest : Sha256
  deriving DecidableEq

def maxRejectionKeys : Nat := 4096

def maxRejectionRecordBytes : Nat := 2 ^ 20

/-- One line of the file: two digests, a colon and a newline. -/
def rejectionLineBytes : Nat := 64 + 1 + 64 + 1

structure Rejections where
  hashes : Finset RejectionKey
  dirty : Bool

namespace Rejections

def load (file : Finset RejectionKey) : IoResult Rejections :=
  if file.card > maxRejectionKeys then
    .error (.invalidData "rejection record exceeds its key limit")
  else
    .ok { hashes := file, dirty := false }

def isRejected (self : Rejections) (key : RejectionKey) : Bool := key ∈ self.hashes

/-- Evidence that may discharge a journal's obligation: a failed write withholds it. -/
def isDurablyRejected (self : Rejections) (key : RejectionKey) : Bool :=
  !self.dirty && self.isRejected key

/-- Write the whole set, with what the file then holds. -/
def persist (self : Rejections) (file : Finset RejectionKey) (outcome : WriteOutcome) :
    IoResult Unit × Rejections × Finset RejectionKey :=
  if self.hashes.card * rejectionLineBytes > maxRejectionRecordBytes then
    (.error (.invalidInput "rejection record exceeds its byte limit"),
      { self with dirty := true }, file)
  else
    (outcome.result, { self with dirty := outcome ≠ .written },
      if outcome.lands then self.hashes else file)

/-- Record `key`. The live process suppresses it from here on, written or not. -/
def reject (self : Rejections) (key : RejectionKey) (file : Finset RejectionKey)
    (outcome : WriteOutcome) : IoResult Unit × Rejections × Finset RejectionKey :=
  if key ∈ self.hashes then
    if self.dirty then self.persist file outcome else (.ok (), self, file)
  else if self.hashes.card ≥ maxRejectionKeys then
    (.error (.invalidInput "rejection record has reached its key limit"), self, file)
  else
    { self with hashes := insert key self.hashes }.persist file outcome

end Rejections

/-! ## The store -/

/-- The files. -/
structure Disk where
  installed : Option InstalledState
  journal : Option Transaction
  installJournal : Option InstallTransaction
  active : Option ReleaseId
  rejected : Finset RejectionKey

structure Store where
  disk : Disk
  rejected : Rejections

variable (self : Store)

namespace Store

variable [Crypto] [Semver]

/-- Open the files in a new process. -/
def «open» (disk : Disk) : IoResult Store := do
  let rejected ← Rejections.load disk.rejected
  return { disk, rejected }

/-! ### Reads -/

def installed : Installed :=
  match self.disk.installed with
  | none => .missing
  | some state => if state.validate = .ok () then .present state else .invalid

def journal : IoResult (Option Transaction) := do
  self.disk.journal.forM Transaction.validate
  return self.disk.journal

def installJournal : IoResult (Option InstallTransaction) := do
  self.disk.installJournal.forM InstallTransaction.validate
  return self.disk.installJournal

def activeRelease : IoResult (Option ReleaseId) := do
  self.disk.active.forM ReleaseId.validate
  return self.disk.active

/-! ### Rejections -/

def rejectionKey (lineage : RepositoryLineage) (digest : DigestText) : IoResult RejectionKey :=
  match lineage.digest, digest with
  | .canonical lineage, .canonical digest => .ok { lineage, digest }
  | _, _ => .error (.invalidInput
      "a rejection requires a canonical repository lineage and digest")

def isRejected (lineage : RepositoryLineage) (digest : DigestText) : Bool :=
  match rejectionKey lineage digest with
  -- What the rejection record cannot even name is ineligible.
  | .error _ => true
  | .ok key => self.rejected.isRejected key

def rejectionIsDurable (lineage : RepositoryLineage) (digest : DigestText) : Bool :=
  match rejectionKey lineage digest with
  | .error _ => false
  | .ok key => self.rejected.isDurablyRejected key

/-- Whether any verdict excludes this deployed unit: malformed bytes, or a runtime failure. -/
def rejectsDeployment (lineage : RepositoryLineage) (applicationSha256 : DigestText) : Bool :=
  self.isRejected lineage applicationSha256 ||
    (deploymentRejectionSha256 applicationSha256).all (self.isRejected lineage)

def recordRejection (lineage : RepositoryLineage) (digest : DigestText) (outcome : WriteOutcome) :
    IoResult Unit × Store :=
  match rejectionKey lineage digest with
  | .error error => (.error error, self)
  | .ok key =>
    let (result, rejected, file) := self.rejected.reject key self.disk.rejected outcome
    (result, { disk := { self.disk with rejected := file }, rejected })

/-- Record evidence against one structurally invalid artifact. -/
def rejectArtifact (lineage : RepositoryLineage) (digest : DigestText) (outcome : WriteOutcome) :
    IoResult Unit × Store :=
  self.recordRejection lineage digest outcome

/-- Record runtime evidence against the exact signed package that failed. -/
def rejectDeployment (lineage : RepositoryLineage) (applicationSha256 : DigestText)
    (outcome : WriteOutcome) : IoResult Unit × Store :=
  match deploymentRejectionSha256 applicationSha256 with
  | none => (.error (.invalidInput
      "cannot reject a deployment with an invalid artifact identity"), self)
  | some digest => self.recordRejection lineage digest outcome

/-! ### Checked writes -/

/-- Once the checks pass, replace the files by `disk`, which differs in one of them. -/
def write (checked : IoResult Unit) (disk : Disk) (outcome : WriteOutcome) :
    IoResult Unit × Store :=
  match checked with
  | .error error => (.error error, self)
  | .ok () => (outcome.result, if outcome.lands then { self with disk } else self)

/-! ### The installed record -/

def installCommitIsAuthorized (next : InstalledState) : IoResult Bool := do
  match ← self.installJournal with
  | none => return false
  | some tx => return (tx.phase = .placed || tx.phase = .committed) && tx.matchesInstalled next &&
      next.rollbackGuard.isNone && !next.isProven

/-- The journal-free rewrites of an existing record: exact replay, a lineage-only rebind,
confirmation of a provisional install, or settling a guard. Exactly one fact may change. -/
def metadataTransitionIsAuthorized (current next : InstalledState) : Bool :=
  if current = next then true
  else if current.release ≠ next.release || current.archiveSha256 ≠ next.archiveSha256 ||
      current.reconciler ≠ next.reconciler then
    false
  else
    let lineageChanged := current.repositoryLineage ≠ next.repositoryLineage
    let pendingChanged := current.rollbackGuard ≠ next.rollbackGuard
    let confirmedChanged := current.isProven ≠ next.isProven
    match decide lineageChanged, decide pendingChanged, decide confirmedChanged with
    | true, false, false => true
    | false, false, true => !current.isProven && next.isProven && current.rollbackGuard.isNone
    | false, true, false => current.rollbackGuard.isSome && next.rollbackGuard.isNone
    | _, _, _ => false

/-- A guard is itself authority to finish the rollback it names, once its verdict is durable. -/
def pendingRollbackIsAuthorized (current next : InstalledState) : Bool :=
  match current.rollbackGuard with
  | none => false
  | some pending =>
    self.rejectionIsDurable current.repositoryLineage pending.candidateRejectionSha256 &&
      next.repositoryLineage = pending.previousRepositoryLineage &&
      next.release = pending.previousRelease &&
      next.archiveSha256 = pending.previousArchiveSha256 &&
      next.reconciler = pending.reconciler && next.rollbackGuard.isNone && next.isProven

/-- The forward commit: from the predecessor to the candidate with this transaction's guard. -/
def commitsCandidate (tx : Transaction) (current next : InstalledState) : Bool :=
  (tx.phase = .converged || tx.phase = .verified) && !tx.candidateRejectionRequired &&
    tx.matchesPrevious current && tx.matchesCandidate next &&
    next.rollbackGuard.any tx.matchesRollbackGuard && next.isProven

/-- The settled rollback: from the candidate back to the predecessor. -/
def commitsPredecessor (tx : Transaction) (current next : InstalledState) : Bool :=
  tx.phase = .rolledBack && tx.matchesCandidate current &&
    (tx.matchesPrevious next && next.rollbackGuard.isNone) &&
    (next.isProven ||
      self.rejectsDeployment tx.previousRepositoryLineage tx.previousArchiveSha256)

def journalTransitionIsAuthorized (current next : InstalledState) :
    IoResult Bool := do
  match ← self.journal with
  | none => return false
  | some tx => return commitsCandidate tx current next || self.commitsPredecessor tx current next

def validateInstalledTransition (next : InstalledState) : IoResult Unit := do
  match self.installed with
  | .missing =>
    require (← self.installCommitIsAuthorized next) (.invalidInput
      "refusing to create installed state without matching first-install intent")
  | .invalid => throw (.invalidData "refusing to overwrite corrupt installed state")
  | .present current =>
    if metadataTransitionIsAuthorized current next ||
        self.pendingRollbackIsAuthorized current next then
      return ()
    require (← self.journalTransitionIsAuthorized current next) (.invalidInput
      "refusing an installed-state transition without matching durable intent")

def checkInstalled (state : InstalledState) : IoResult Unit := do
  state.validate
  match ← self.activeRelease with
  | some active =>
    require (active = state.release) (.invalidInput
      (s!"refusing to commit installed release {state.release.version} while active release is " ++
      s!"{active.version}"))
  | none => throw (.invalidInput
      s!"refusing to commit installed release {state.release.version} without an active release")
  self.validateInstalledTransition state

/-- Commit installed metadata, only for the release this machine is pointing at. -/
def commitInstalled (state : InstalledState) (outcome : WriteOutcome) : IoResult Unit × Store :=
  self.write (self.checkInstalled state) { self.disk with installed := some state } outcome

/-- Promote the active provisional head, with whether there was one. -/
def proveProvisional (outcome : WriteOutcome) : IoResult Bool × Store :=
  match self.installed with
  | .missing => (.error (.raised .notFound "cannot confirm a missing installed state"), self)
  | .invalid => (.error (.invalidData "cannot confirm a corrupt installed state"), self)
  | .present state =>
    let (promoted, changed) := state.proveProvisional
    if !changed then (.ok false, self)
    else
      let (result, store) := self.commitInstalled promoted outcome
      (result.map fun _ => true, store)

/-! ### The active pointer -/

/-- Re-verify the bytes, then point at them. `verified` is what re-hashing the tree found. -/
def activate (release : ReleaseId) (verified : IoResult Unit) (outcome : WriteOutcome) :
    IoResult Unit × Store :=
  self.write (do release.validate; verified) { self.disk with active := some release } outcome

/-! ### The update journal -/

/-- The forward obligation has been transferred to the installed record. -/
def forwardCommitIsDurable (tx : Transaction) (installed : InstalledState) : Bool :=
  !tx.candidateRejectionRequired && tx.matchesCandidate installed &&
    installed.rollbackGuard.any tx.matchesRollbackGuard

/-- The one rule for every operation that would erase a transaction. -/
def journalMayDiscard (tx : Transaction) : IoResult Bool := do
  if tx.candidateRejectionRequired &&
      !self.rejectionIsDurable tx.candidateRepositoryLineage tx.candidateRejectionSha256 then
    return false
  if tx.phase = .prepared then
    return true
  let active ← self.activeRelease
  match self.installed with
  | .missing | .invalid => return false
  | .present installed =>
    match tx.phase with
    | .converged | .verified | .committed => return forwardCommitIsDurable tx installed
    | .rolledBack =>
      return active = some tx.previousRelease && tx.matchesPrevious installed
    | .prepared | .activated | .rollbackPlanned | .candidateCompensated | .restored
    | .rollbackVerified => return false

def checkClearJournal : IoResult Unit := do
  match ← self.journal with
  | none => return ()
  | some tx =>
    require (← self.journalMayDiscard tx) (.invalidInput
      (s!"refusing to discard a journal at {tx.phase.debug}: the transaction still owes a " ++
      "commit or a settled rollback"))

/-- Destroy the journal, only when its transaction no longer owes the machine anything. -/
def clearJournal (outcome : WriteOutcome) : IoResult Unit × Store :=
  self.write self.checkClearJournal { self.disk with journal := none } outcome

def forwardCommitIsAuthorized (tx : Transaction) : IoResult Bool := do
  match self.installed with
  | .missing | .invalid => return false
  | .present installed =>
    return (← self.activeRelease) = some tx.candidateRelease && forwardCommitIsDurable tx installed

/-- The one start past `prepared`: the rollback the record's own guard names. -/
def pendingAuthorizesRollbackJournal (tx : Transaction) : Bool :=
  match self.installed with
  | .missing | .invalid => false
  | .present installed =>
    match installed.rollbackGuard with
    | none => false
    | some pending =>
      tx.phase = .rollbackPlanned && tx.rollbackHealthFailures = 0 &&
        tx.matchesRollbackGuard pending && tx.matchesCandidate installed

def journalStartIsAuthorized (tx : Transaction) : IoResult Bool := do
  if self.pendingAuthorizesRollbackJournal tx then
    return true
  match self.installed with
  | .missing | .invalid => return false
  | .present installed =>
    return tx.phase = .prepared && !tx.candidateRejectionRequired &&
      tx.rollbackHealthFailures = 0 && installed.isProven && installed.rollbackGuard.isNone &&
      tx.matchesPrevious installed && (← self.activeRelease) = some installed.release

/-- Update and first install are mutually exclusive machines. -/
def ensureExclusiveUpdate : IoResult Unit := do
  match ← self.installJournal with
  | none => return ()
  | some tx => throw (.invalidInput ("refusing to write update journal while first-install " ++
      s!"transaction {tx.id.text} is durable"))

def ensureExclusiveInstall : IoResult Unit := do
  match ← self.journal with
  | none => return ()
  | some tx => throw (.invalidInput ("refusing to write first-install journal while update " ++
      s!"transaction {tx.id.text} is durable"))

def checkStart (tx : Transaction) : IoResult Unit := do
  require (← self.journalStartIsAuthorized tx) (.invalidInput
    s!"refusing to start transaction {tx.id.text} at {tx.phase.debug} without initial intent")

/-- What a journal may become. -/
def checkSuccessor (existing tx : Transaction) : IoResult Unit := do
  if existing.id ≠ tx.id then
    require (← self.journalMayDiscard existing) (.invalidInput
      (s!"refusing to bury the journal of transaction {existing.id.text} at " ++
      s!"{existing.phase.debug} under transaction {tx.id.text}: the existing transaction still " ++
      "owes a commit or a settled rollback"))
    self.checkStart tx
  else
    require (existing.permitsReplacement tx) (.invalidInput
      (s!"refusing an invalid rewrite of transaction {existing.id.text} from " ++
      s!"{existing.phase.debug} to {tx.phase.debug}"))
    require (!(existing.phase = .committed && tx.phase = .rollbackPlanned &&
        !self.pendingAuthorizesRollbackJournal tx)) (.invalidInput
      "refusing to restart a committed transaction without matching pending rollback intent")

/-- Nothing is recorded as committed before the record says so. -/
def checkCommitted (tx : Transaction) : IoResult Unit :=
  if tx.phase = .committed then do
    require (← self.forwardCommitIsAuthorized tx) (.invalidInput
      ("refusing to record a committed transaction before its exact deployed unit and rollback " ++
      "intent are durable"))
  else
    return ()

def checkJournal (tx : Transaction) : IoResult Unit := do
  tx.validate
  self.ensureExclusiveUpdate
  self.checkCommitted tx
  match ← self.journal with
  | some existing => self.checkSuccessor existing tx
  | none => self.checkStart tx

/-- Persist a transaction without rewriting its identity or its history. -/
def writeJournal (tx : Transaction) (outcome : WriteOutcome) : IoResult Unit × Store :=
  self.write (self.checkJournal tx) { self.disk with journal := some tx } outcome

/-! ### The first-install journal -/

/-- Only on an empty installation, and never for what was rejected. -/
def installStartIsAuthorized (tx : InstallTransaction) : IoResult Bool := do
  if tx.phase ≠ .started || self.rejectsDeployment tx.repositoryLineage tx.archiveSha256 then
    return false
  let active ← self.activeRelease
  match self.installed with
  | .missing => return active.isNone
  | .present _ | .invalid => return false

/-- The machine evidence behind the phases the store can observe. -/
def installPhaseIsAuthorized (tx : InstallTransaction) : IoResult Bool := do
  match tx.phase with
  | .started | .prepared => return true
  | .placed => return (← self.activeRelease) = some tx.release
  | .committed =>
    match self.installed with
    | .missing | .invalid => return false
    | .present installed =>
      return (← self.activeRelease) = some tx.release && tx.matchesInstalled installed

def checkInstallSuccessor (existing tx : InstallTransaction) : IoResult Unit := do
  require (existing.id = tx.id) (.invalidInput
    (s!"refusing to bury first-install transaction {existing.id.text} at {existing.phase.debug} " ++
    s!"under transaction {tx.id.text}"))
  require (existing.permitsReplacement tx) (.invalidInput
    (s!"refusing an invalid rewrite of first-install transaction {existing.id.text} from " ++
    s!"{existing.phase.debug} to {tx.phase.debug}"))

def checkInstallJournal (tx : InstallTransaction) : IoResult Unit := do
  tx.validate
  self.ensureExclusiveInstall
  require (← self.installPhaseIsAuthorized tx) (.invalidInput
    (s!"refusing to record first-install phase {tx.phase.debug} before its machine barrier is " ++
    "durable"))
  match ← self.installJournal with
  | some existing => checkInstallSuccessor existing tx
  | none =>
    require (← self.installStartIsAuthorized tx) (.invalidInput
      s!"refusing to start first-install transaction {tx.id.text} at {tx.phase.debug}")

/-- Persist first-install intent without burying a different interrupted install. -/
def writeInstallJournal (tx : InstallTransaction) (outcome : WriteOutcome) :
    IoResult Unit × Store :=
  self.write (self.checkInstallJournal tx) { self.disk with installJournal := some tx } outcome

def committedState : Option InstalledState :=
  match self.installed with
  | .present state => some state
  | .missing | .invalid => none

def checkClearInstallJournal : IoResult Unit := do
  match ← self.installJournal with
  | none => return ()
  | some tx =>
    require (classifyInstallRecovery tx self.committedState = .committed) (.invalidInput
      (s!"refusing to discard first-install transaction {tx.id.text} at {tx.phase.debug}: its " ++
      "exact deployed unit is not committed"))

/-- Destroy first-install intent only after the record proves the exact release committed. -/
def clearInstallJournal (outcome : WriteOutcome) : IoResult Unit × Store :=
  self.write self.checkClearInstallJournal { self.disk with installJournal := none } outcome

end Store

/-! ## Histories -/

/-- The operations of the facade. -/
inductive Operation where
  /-- The process ended and a new one opened the files. -/
  | reopen
  | commitInstalled (state : InstalledState)
  | proveProvisional
  | activate (release : ReleaseId) (verified : IoResult Unit)
  | writeJournal (tx : Transaction)
  | clearJournal
  | writeInstallJournal (tx : InstallTransaction)
  | clearInstallJournal
  | rejectDeployment (lineage : RepositoryLineage) (applicationSha256 : DigestText)
  | rejectArtifact (lineage : RepositoryLineage) (digest : DigestText)

namespace Store

variable [Crypto] [Semver]

/-- One operation, given what its write did. A process that cannot open the files does nothing. -/
def apply (outcome : WriteOutcome) : Operation → Store
  | .reopen => (Store.open self.disk).toOption.getD self
  | .commitInstalled state => (self.commitInstalled state outcome).2
  | .proveProvisional => (self.proveProvisional outcome).2
  | .activate release verified => (self.activate release verified outcome).2
  | .writeJournal tx => (self.writeJournal tx outcome).2
  | .clearJournal => (self.clearJournal outcome).2
  | .writeInstallJournal tx => (self.writeInstallJournal tx outcome).2
  | .clearInstallJournal => (self.clearInstallJournal outcome).2
  | .rejectDeployment lineage sha256 => (self.rejectDeployment lineage sha256 outcome).2
  | .rejectArtifact lineage digest => (self.rejectArtifact lineage digest outcome).2

def run (history : List (Operation × WriteOutcome)) : Store :=
  history.foldl (fun store entry => store.apply entry.2 entry.1) self

end Store

end Updatedc.Agent
