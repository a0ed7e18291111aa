import Updatedc.Lib.Except
import Updatedc.Agent.Store

/-!
# What the store lets happen

Each write boundary decides with its own predicate. This file reads every decision once, as the
inductive `Authorized` for the installed record and `Journals` for the update journal, and derives
from these two what holds over **every history of operations, with any arguments and any failed
writes**:

- `Store.Consistent`: records on disk are valid, the two journals exclude each other and the
  rejection record in memory is on disk unless it is known to lag;
- `Store.Unarmed`: while an update runs forward, its predecessor carries no guard;
- a journal past `prepared` is erased only once its transaction is settled;
- the executable identity of the installed record changes only under evidence, and a guard is never
  dropped along with anything else.
-/

namespace Updatedc.Agent

open Contracts

/-! ## Reading a decision back -/

namespace InstalledState

/-- The executable identity of a record. -/
def unit (self : InstalledState) : ReleaseId × DigestText × ReconcilerRelease :=
  (self.release, self.archiveSha256, self.reconciler)

end InstalledState

/-- The unit a guard returns to. -/
structure RollbackGuard.Names (guard : RollbackGuard) (state : InstalledState) : Prop where
  lineage : state.repositoryLineage = guard.previousRepositoryLineage
  release : state.release = guard.previousRelease
  archive : state.archiveSha256 = guard.previousArchiveSha256
  reconciler : state.reconciler = guard.reconciler

/-- The rewrites of a record that need no journal: one fact changes, or none. -/
inductive Rewrites (current : InstalledState) : InstalledState → Prop
  | same : Rewrites current current
  | rebound (lineage : RepositoryLineage) :
      Rewrites current { current with repositoryLineage := lineage }
  | confirmed (unguarded : current.rollbackGuard = none) :
      Rewrites current { current with maturity := .proven }
  | settled : Rewrites current { current with rollbackGuard := none }

theorem Rewrites.unit_eq {current next : InstalledState} (rewrites : Rewrites current next) :
    next.unit = current.unit := by
  cases rewrites <;> rfl

namespace Store

variable {store : Store}

theorem rewrites_of_metadata {current next : InstalledState}
    (authorized : metadataTransitionIsAuthorized current next = true) : Rewrites current next := by
  unfold metadataTransitionIsAuthorized at authorized
  split_ifs at authorized with same different
  · exact same ▸ .same
  · obtain ⟨lineage, release, archive, reconciler, guard, maturity⟩ := current
    obtain ⟨lineage', release', archive', reconciler', guard', maturity'⟩ := next
    simp only [ne_eq, Bool.or_eq_true, decide_eq_true_eq, not_or, not_not] at different
    obtain ⟨⟨rfl, rfl⟩, rfl⟩ := different
    dsimp only at authorized
    split at authorized
    case h_1 rebinds keeps unconfirmed =>
      simp only [ne_eq, decide_eq_false_iff_not, not_not] at keeps unconfirmed
      have mature : maturity = maturity' := by
        cases maturity <;> cases maturity' <;> simp_all [InstalledState.isProven]
      rw [← keeps, ← mature]
      exact .rebound lineage'
    case h_2 keepsLineage keeps _ =>
      simp only [ne_eq, decide_eq_false_iff_not, not_not] at keepsLineage keeps
      simp only [InstalledState.isProven, Bool.and_eq_true, decide_eq_true_eq,
        Option.isNone_iff_eq_none] at authorized
      rw [← keepsLineage, ← keeps, authorized.1.2]
      exact .confirmed authorized.2
    case h_3 keepsLineage _ unconfirmed =>
      simp only [ne_eq, decide_eq_false_iff_not, not_not] at keepsLineage unconfirmed
      have mature : maturity = maturity' := by
        cases maturity <;> cases maturity' <;> simp_all [InstalledState.isProven]
      simp only [Bool.and_eq_true, Option.isNone_iff_eq_none] at authorized
      rw [← keepsLineage, ← mature, authorized.2]
      exact .settled
    case h_4 => cases authorized

section Reads

variable [Semver]

theorem eq_of_installJournal_ok {found : Option InstallTransaction}
    (ok : store.installJournal = .ok found) : found = store.disk.installJournal := by
  obtain ⟨_, -, same⟩ := Except.bind_ok_iff.mp ok
  exact (Except.ok.inj same).symm

theorem eq_of_activeRelease_ok {found : Option ReleaseId}
    (ok : store.activeRelease = .ok found) : found = store.disk.active := by
  obtain ⟨_, -, same⟩ := Except.bind_ok_iff.mp ok
  exact (Except.ok.inj same).symm

variable [Crypto]

theorem eq_of_journal_ok {found : Option Transaction} (ok : store.journal = .ok found) :
    found = store.disk.journal := by
  obtain ⟨_, -, same⟩ := Except.bind_ok_iff.mp ok
  exact (Except.ok.inj same).symm

theorem installed_eq_present {state : InstalledState} (read : store.installed = .present state) :
    store.disk.installed = some state := by
  unfold installed at read
  split at read
  · cases read
  · next found =>
    split_ifs at read
    cases read
    exact found

theorem installed_eq_missing (read : store.installed = .missing) :
    store.disk.installed = none := by
  unfold installed at read
  split at read
  · assumption
  · split_ifs at read

end Reads

/-! ## The rejection record -/

/-- The rejection record in memory is on disk, unless it is known to lag. -/
def Recorded (rejected : Rejections) (file : Finset RejectionKey) : Prop :=
  rejected.dirty = false → rejected.hashes = file

theorem recorded_persist {rejected : Rejections} {file : Finset RejectionKey}
    {outcome : WriteOutcome} :
    Recorded (rejected.persist file outcome).2.1 (rejected.persist file outcome).2.2 := by
  unfold Rejections.persist
  split
  · nofun
  · cases outcome with
    | written => exact fun _ => rfl
    | lost _ => nofun
    | unsynced _ => nofun

theorem recorded_reject {rejected : Rejections} {key : RejectionKey} {file : Finset RejectionKey}
    {outcome : WriteOutcome} (recorded : Recorded rejected file) :
    Recorded (rejected.reject key file outcome).2.1 (rejected.reject key file outcome).2.2 := by
  unfold Rejections.reject
  split_ifs
  · exact recorded_persist
  · exact recorded
  · exact recorded
  · exact recorded_persist

/-! ## The installed record -/

section Installed

variable [Crypto]

/-- What the transition check accepts as the next record. -/
inductive Authorized (store : Store) (next : InstalledState) : Prop
  /-- The first record, named by a first install that has placed it. -/
  | install {tx : InstallTransaction} (absent : store.disk.installed = none)
      (journalled : store.disk.installJournal = some tx)
      (phase : tx.phase = .placed ∨ tx.phase = .committed)
      (names : tx.matchesInstalled next = true) (unguarded : next.rollbackGuard = none)
  | metadata {current : InstalledState} (present : store.disk.installed = some current)
      (rewrites : Rewrites current next)
  /-- The rollback the record's own guard names. -/
  | pending {current : InstalledState} {guard : RollbackGuard}
      (present : store.disk.installed = some current)
      (guarded : current.rollbackGuard = some guard)
      (durable : store.rejectionIsDurable current.repositoryLineage
        guard.candidateRejectionSha256 = true)
      (names : guard.Names next) (unguarded : next.rollbackGuard = none)
  | candidate {current : InstalledState} {tx : Transaction}
      (present : store.disk.installed = some current)
      (journalled : store.disk.journal = some tx)
      (commits : commitsCandidate tx current next = true)
  | predecessor {current : InstalledState} {tx : Transaction}
      (present : store.disk.installed = some current)
      (journalled : store.disk.journal = some tx)
      (commits : store.commitsPredecessor tx current next = true)

theorem Authorized.of_pending {current next : InstalledState}
    (present : store.disk.installed = some current)
    (ok : store.pendingRollbackIsAuthorized current next = true) : store.Authorized next := by
  unfold pendingRollbackIsAuthorized at ok
  cases guarded : current.rollbackGuard with
  | none => simp [guarded] at ok
  | some guard =>
    simp only [guarded, Bool.and_eq_true, decide_eq_true_eq, Option.isNone_iff_eq_none] at ok
    obtain ⟨⟨⟨⟨⟨⟨durable, lineage⟩, release⟩, archive⟩, reconciler⟩, unguarded⟩, -⟩ := ok
    exact .pending present guarded durable ⟨lineage, release, archive, reconciler⟩ unguarded

variable [Semver]

theorem Authorized.of_install {next : InstalledState} (absent : store.disk.installed = none)
    (ok : store.installCommitIsAuthorized next = .ok true) : store.Authorized next := by
  obtain ⟨found, read, ok⟩ := Except.bind_ok_iff.mp ok
  rw [eq_of_installJournal_ok read] at ok
  cases journalled : store.disk.installJournal with
  | none =>
    rw [journalled] at ok
    cases ok
  | some tx =>
    rw [journalled] at ok
    have accepted := Except.ok.inj ok
    simp only [Bool.and_eq_true, Bool.or_eq_true, decide_eq_true_eq,
      Option.isNone_iff_eq_none] at accepted
    exact .install absent journalled accepted.1.1.1 accepted.1.1.2 accepted.1.2

theorem Authorized.of_journal {current next : InstalledState}
    (present : store.disk.installed = some current)
    (ok : store.journalTransitionIsAuthorized current next = .ok true) :
    store.Authorized next := by
  obtain ⟨found, read, ok⟩ := Except.bind_ok_iff.mp ok
  rw [eq_of_journal_ok read] at ok
  cases journalled : store.disk.journal with
  | none =>
    rw [journalled] at ok
    cases ok
  | some tx =>
    rw [journalled] at ok
    rcases Bool.or_eq_true_iff.mp (Except.ok.inj ok) with forward | back
    · exact .candidate present journalled forward
    · exact .predecessor present journalled back

theorem authorized_of_transition {next : InstalledState}
    (ok : store.validateInstalledTransition next = .ok ()) : store.Authorized next := by
  unfold validateInstalledTransition at ok
  split at ok
  · next read =>
    obtain ⟨accepted, authorized, ok⟩ := Except.bind_ok_iff.mp ok
    rw [require_ok_iff.mp ok] at authorized
    exact .of_install (installed_eq_missing read) authorized
  · cases ok
  · next current read =>
    have present := installed_eq_present read
    split_ifs at ok with journalFree
    · rcases Bool.or_eq_true_iff.mp journalFree with metadata | pending
      · exact .metadata present (rewrites_of_metadata metadata)
      · exact .of_pending present pending
    · obtain ⟨accepted, authorized, ok⟩ := Except.bind_ok_iff.mp ok
      rw [require_ok_iff.mp ok] at authorized
      exact .of_journal present authorized

/-- What a committed record meets: it is valid, it is the active release, and the transition is
authorized. -/
structure Commits (store : Store) (next : InstalledState) : Prop where
  valid : next.validate = .ok ()
  active : store.disk.active = some next.release
  authorized : store.Authorized next

theorem commits_of_check {next : InstalledState} (ok : store.checkInstalled next = .ok ()) :
    store.Commits next := by
  obtain ⟨_, valid, ok⟩ := Except.bind_ok_iff.mp ok
  obtain ⟨found, read, ok⟩ := Except.bind_ok_iff.mp ok
  rw [eq_of_activeRelease_ok read] at ok
  cases active : store.disk.active with
  | none =>
    rw [active] at ok
    cases ok
  | some release =>
    rw [active] at ok
    obtain ⟨_, same, ok⟩ := Except.bind_ok_iff.mp ok
    have named : release = next.release := by simpa using require_ok_iff.mp same
    exact ⟨valid, named ▸ active, authorized_of_transition ok⟩

end Installed

/-! ## The update journal -/

/-- The rejection a transaction demands is in the record. -/
def Discharged (store : Store) (tx : Transaction) : Prop :=
  tx.candidateRejectionRequired = true → store.rejectionIsDurable tx.candidateRepositoryLineage
    tx.candidateRejectionSha256 = true

/-- **A settled transaction**: the record holds its candidate with its guard, or pointer and record
hold its predecessor after the rollback. -/
inductive Settled (disk : Disk) (tx : Transaction) : Prop
  | forward {installed : InstalledState} {guard : RollbackGuard}
      (present : disk.installed = some installed) (candidate : tx.matchesCandidate installed = true)
      (guarded : installed.rollbackGuard = some guard)
      (own : tx.matchesRollbackGuard guard = true)
  | back {installed : InstalledState} (phase : tx.phase = .rolledBack)
      (active : disk.active = some tx.previousRelease)
      (present : disk.installed = some installed)
      (predecessor : tx.matchesPrevious installed = true)

variable {tx : Transaction}

theorem Settled.of_forwardCommit {installed : InstalledState}
    (present : store.disk.installed = some installed)
    (durable : forwardCommitIsDurable tx installed = true) : Settled store.disk tx := by
  simp only [forwardCommitIsDurable, Bool.and_eq_true, Option.any_eq_true] at durable
  obtain ⟨⟨-, candidate⟩, guard, guarded, own⟩ := durable
  exact .forward present candidate guarded own

/-- The rejection is in the file. -/
def OnDisk (disk : Disk) (lineage : RepositoryLineage) (digest : DigestText) : Prop :=
  ∃ key, rejectionKey lineage digest = .ok key ∧ key ∈ disk.rejected

/-- **A transaction that owes nothing**: it is settled, and the rejection it required is on disk. -/
structure OwesNothing (disk : Disk) (tx : Transaction) : Prop where
  settled : Settled disk tx
  rejected : tx.candidateRejectionRequired = true →
    OnDisk disk tx.candidateRepositoryLineage tx.candidateRejectionSha256

/-- Whether a transaction owes anything does not depend on the journal. -/
theorem OwesNothing.withJournal {disk : Disk} (owes : OwesNothing disk tx)
    (journal : Option Transaction) : OwesNothing { disk with journal } tx := by
  refine ⟨?_, owes.rejected⟩
  cases owes.settled with
  | forward present candidate guarded own => exact .forward present candidate guarded own
  | back phase active present predecessor => exact .back phase active present predecessor

/-! ## Evidence for a change of identity -/

/-- A rollback the store has evidence for: settled by the journal, or named by the record's own
guard whose verdict is on disk. -/
inductive RollsBack (store : Store) (next : InstalledState) : Prop
  | journal {tx : Transaction} (journalled : store.disk.journal = some tx)
      (phase : tx.phase = .rolledBack) (predecessor : tx.matchesPrevious next = true)
  | guard {current : InstalledState} {guard : RollbackGuard}
      (present : store.disk.installed = some current)
      (guarded : current.rollbackGuard = some guard) (names : guard.Names next)
      (rejected : OnDisk store.disk current.repositoryLineage guard.candidateRejectionSha256)

/-- The evidence under which the executable identity may change. -/
inductive Evidence (store : Store) (next : InstalledState) : Prop
  | candidate {tx : Transaction} {guard : RollbackGuard}
      (journalled : store.disk.journal = some tx)
      (phase : tx.phase = .converged ∨ tx.phase = .verified)
      (unrejected : tx.candidateRejectionRequired = false)
      (candidate : tx.matchesCandidate next = true) (guarded : next.rollbackGuard = some guard)
      (own : tx.matchesRollbackGuard guard = true)
  | rollback (rollsBack : store.RollsBack next)
  | install {tx : InstallTransaction} (first : store.disk.installed = none)
      (journalled : store.disk.installJournal = some tx)
      (phase : tx.phase = .placed ∨ tx.phase = .committed)
      (names : tx.matchesInstalled next = true)

theorem Evidence.of_candidate {current next : InstalledState}
    (journalled : store.disk.journal = some tx) (commits : commitsCandidate tx current next = true)
    : store.Evidence next := by
  simp only [commitsCandidate, Bool.and_eq_true, Bool.or_eq_true, decide_eq_true_eq,
    Bool.not_eq_true', Option.any_eq_true] at commits
  obtain ⟨⟨⟨⟨⟨phase, unrejected⟩, -⟩, candidate⟩, guard, guarded, own⟩, -⟩ := commits
  exact .candidate journalled phase unrejected candidate guarded own

/-- What an operation may do to the installed record: it never disappears, a new executable identity
has evidence, and a guard stays, is dropped with nothing else, or goes with a rollback. -/
structure UnderEvidence (before after : Store) : Prop where
  identity : ∀ next, after.disk.installed = some next →
    before.disk.installed.map InstalledState.unit ≠ some next.unit → before.Evidence next
  present : ∀ current, before.disk.installed = some current →
    ∃ next, after.disk.installed = some next ∧ ∀ guard, current.rollbackGuard = some guard →
      next.rollbackGuard = some guard ∨ next = { current with rollbackGuard := none } ∨
        before.RollsBack next

theorem UnderEvidence.of_same {before after : Store}
    (same : after.disk.installed = before.disk.installed) : UnderEvidence before after where
  identity next found changes := absurd (by rw [← same, found]; rfl) changes
  present current found := ⟨current, same.trans found, fun _ guarded => .inl guarded⟩

section

variable [Crypto]

theorem RollsBack.of_predecessor {current next : InstalledState}
    (journalled : store.disk.journal = some tx)
    (commits : store.commitsPredecessor tx current next = true) : store.RollsBack next := by
  simp only [commitsPredecessor, Bool.and_eq_true, decide_eq_true_eq] at commits
  exact .journal journalled commits.1.1.1 commits.1.2.1

end

/-! ## The journal checks -/

variable [Semver]

theorem installJournal_none_of_exclusive (ok : store.ensureExclusiveUpdate = .ok ()) :
    store.disk.installJournal = none := by
  obtain ⟨found, read, ok⟩ := Except.bind_ok_iff.mp ok
  cases found with
  | none => exact (eq_of_installJournal_ok read).symm
  | some tx => cases ok

variable [Crypto]

theorem settled_of_mayDiscard (ok : store.journalMayDiscard tx = .ok true) :
    store.Discharged tx ∧ (tx.phase = .prepared ∨ Settled store.disk tx) := by
  unfold journalMayDiscard at ok
  split_ifs at ok with owed prepared
  · cases ok
  · have discharged : store.Discharged tx := fun required => by simpa [required] using owed
    exact ⟨discharged, .inl prepared⟩
  · have discharged : store.Discharged tx := fun required => by simpa [required] using owed
    refine ⟨discharged, .inr ?_⟩
    obtain ⟨active, read, ok⟩ := Except.bind_ok_iff.mp ok
    rw [eq_of_activeRelease_ok read] at ok
    split at ok
    · cases ok
    · cases ok
    · next installed found =>
      have present := installed_eq_present found
      split at ok
      · exact .of_forwardCommit present (Except.ok.inj ok)
      · exact .of_forwardCommit present (Except.ok.inj ok)
      · exact .of_forwardCommit present (Except.ok.inj ok)
      · next phase =>
        have accepted := Except.ok.inj ok
        simp only [Bool.and_eq_true, decide_eq_true_eq] at accepted
        exact .back phase accepted.1 present accepted.2
      all_goals cases ok

/-- How a transaction may start: prepared, over a settled predecessor that is the active release,
or as the rollback the record's guard names. -/
inductive Starts (store : Store) (tx : Transaction) : Prop
  | prepared {installed : InstalledState} (phase : tx.phase = .prepared)
      (present : store.disk.installed = some installed)
      (unguarded : installed.rollbackGuard = none) (proven : installed.isProven = true)
      (predecessor : tx.matchesPrevious installed = true)
      (active : store.disk.active = some installed.release)
  | pending {installed : InstalledState} {guard : RollbackGuard}
      (phase : tx.phase = .rollbackPlanned) (present : store.disk.installed = some installed)
      (guarded : installed.rollbackGuard = some guard)
      (own : tx.matchesRollbackGuard guard = true)
      (candidate : tx.matchesCandidate installed = true)

theorem Starts.of_pending (ok : store.pendingAuthorizesRollbackJournal tx = true) :
    store.Starts tx := by
  unfold pendingAuthorizesRollbackJournal at ok
  split at ok
  · cases ok
  · cases ok
  · next installed found =>
    split at ok
    · cases ok
    · next guard guarded =>
      simp only [Bool.and_eq_true, decide_eq_true_eq] at ok
      exact .pending ok.1.1.1 (installed_eq_present found) guarded ok.1.2 ok.2

theorem starts_of_authorized (ok : store.journalStartIsAuthorized tx = .ok true) :
    store.Starts tx := by
  unfold journalStartIsAuthorized at ok
  split_ifs at ok with pending
  · exact .of_pending pending
  · split at ok
    · cases ok
    · cases ok
    · next installed found =>
      obtain ⟨active, read, ok⟩ := Except.bind_ok_iff.mp ok
      rw [eq_of_activeRelease_ok read] at ok
      have accepted := Except.ok.inj ok
      simp only [Bool.and_eq_true, decide_eq_true_eq, Option.isNone_iff_eq_none] at accepted
      obtain ⟨⟨⟨⟨⟨⟨phase, -⟩, -⟩, proven⟩, unguarded⟩, predecessor⟩, active⟩ := accepted
      exact .prepared phase (installed_eq_present found) unguarded proven predecessor active

theorem starts_of_check (ok : store.checkStart tx = .ok ()) : store.Starts tx := by
  obtain ⟨accepted, authorized, ok⟩ := Except.bind_ok_iff.mp ok
  rw [require_ok_iff.mp ok] at authorized
  exact starts_of_authorized authorized

/-- What the journal check accepts as the next transaction. -/
inductive Journals (store : Store) (tx : Transaction) : Prop
  | starts (absent : store.disk.journal = none) (starts : store.Starts tx)
  | buries {existing : Transaction} (journalled : store.disk.journal = some existing)
      (other : existing.id ≠ tx.id) (discharged : store.Discharged existing)
      (settled : existing.phase = .prepared ∨ Settled store.disk existing)
      (starts : store.Starts tx)
  | continues {existing : Transaction} (journalled : store.disk.journal = some existing)
      (same : existing.id = tx.id) (permits : existing.permitsReplacement tx = true)

theorem journals_of_successor {existing : Transaction}
    (journalled : store.disk.journal = some existing)
    (ok : store.checkSuccessor existing tx = .ok ()) : store.Journals tx := by
  unfold checkSuccessor at ok
  split_ifs at ok with other
  · obtain ⟨accepted, discard, ok⟩ := Except.bind_ok_iff.mp ok
    obtain ⟨_, required, ok⟩ := Except.bind_ok_iff.mp ok
    rw [require_ok_iff.mp required] at discard
    obtain ⟨discharged, settled⟩ := settled_of_mayDiscard discard
    exact .buries journalled other discharged settled (starts_of_check ok)
  · obtain ⟨_, permits, -⟩ := Except.bind_ok_iff.mp ok
    exact .continues journalled (not_not.mp other) (require_ok_iff.mp permits)

/-- What a journalled transaction meets. -/
structure Records (store : Store) (tx : Transaction) : Prop where
  valid : tx.validate = .ok ()
  exclusive : store.disk.installJournal = none
  journals : store.Journals tx

theorem journal_none_of_exclusive (ok : store.ensureExclusiveInstall = .ok ()) :
    store.disk.journal = none := by
  obtain ⟨found, read, ok⟩ := Except.bind_ok_iff.mp ok
  cases found with
  | none => exact (eq_of_journal_ok read).symm
  | some tx => cases ok

theorem records_of_check (ok : store.checkJournal tx = .ok ()) : store.Records tx := by
  obtain ⟨_, valid, ok⟩ := Except.bind_ok_iff.mp ok
  obtain ⟨_, exclusive, ok⟩ := Except.bind_ok_iff.mp ok
  obtain ⟨_, -, ok⟩ := Except.bind_ok_iff.mp ok
  obtain ⟨found, read, ok⟩ := Except.bind_ok_iff.mp ok
  have journalled := eq_of_journal_ok read
  refine ⟨valid, installJournal_none_of_exclusive exclusive, ?_⟩
  cases found with
  | none => exact .starts journalled.symm (starts_of_check ok)
  | some existing => exact journals_of_successor journalled.symm ok

/-! ## One operation -/

/-- **Everything an operation can do to the store**, with what it had to pass. -/
inductive Moves (store : Store) : Store → Prop
  | stays : Moves store store
  | reopens : Moves store { store with rejected := ⟨store.disk.rejected, false⟩ }
  | commits {next : InstalledState} (commits : store.Commits next) :
      Moves store { store with disk := { store.disk with installed := some next } }
  | points {release : ReleaseId} (valid : release.validate = .ok ()) :
      Moves store { store with disk := { store.disk with active := some release } }
  | records {tx : Transaction} (records : store.Records tx) :
      Moves store { store with disk := { store.disk with journal := some tx } }
  | clears (settled : ∀ tx, store.disk.journal = some tx →
      store.Discharged tx ∧ (tx.phase = .prepared ∨ Settled store.disk tx)) :
      Moves store { store with disk := { store.disk with journal := none } }
  | recordsInstall {tx : InstallTransaction} (valid : tx.validate = .ok ())
      (exclusive : store.disk.journal = none) :
      Moves store { store with disk := { store.disk with installJournal := some tx } }
  | clearsInstall : Moves store { store with disk := { store.disk with installJournal := none } }
  | rejects {rejected : Rejections} {file : Finset RejectionKey}
      (keeps : Recorded store.rejected store.disk.rejected → Recorded rejected file) :
      Moves store { disk := { store.disk with rejected := file }, rejected }

theorem Moves.write {checked : IoResult Unit} {disk : Disk} {outcome : WriteOutcome}
    (moves : checked = .ok () → store.Moves { store with disk }) :
    store.Moves (store.write checked disk outcome).2 := by
  cases checked with
  | error error => exact .stays
  | ok done =>
    unfold Store.write
    dsimp only
    split_ifs
    · exact moves rfl
    · exact .stays

theorem moves_recordRejection (lineage : RepositoryLineage) (digest : DigestText)
    (outcome : WriteOutcome) : store.Moves (store.recordRejection lineage digest outcome).2 := by
  unfold recordRejection
  split
  · exact .stays
  · exact .rejects recorded_reject

theorem moves_commitInstalled (state : InstalledState) (outcome : WriteOutcome) :
    store.Moves (store.commitInstalled state outcome).2 :=
  .write fun ok => .commits (commits_of_check ok)

theorem moves_proveProvisional (outcome : WriteOutcome) :
    store.Moves (store.proveProvisional outcome).2 := by
  unfold proveProvisional
  split
  · exact .stays
  · exact .stays
  · dsimp only
    split_ifs
    · exact .stays
    · exact moves_commitInstalled _ outcome

theorem moves_clearJournal (outcome : WriteOutcome) :
    store.Moves (store.clearJournal outcome).2 := by
  refine .write fun ok => .clears fun tx journalled => ?_
  obtain ⟨found, read, ok⟩ := Except.bind_ok_iff.mp ok
  rw [eq_of_journal_ok read, journalled] at ok
  obtain ⟨accepted, discard, ok⟩ := Except.bind_ok_iff.mp ok
  rw [require_ok_iff.mp ok] at discard
  exact settled_of_mayDiscard discard

theorem moves_writeInstallJournal (tx : InstallTransaction) (outcome : WriteOutcome) :
    store.Moves (store.writeInstallJournal tx outcome).2 := by
  refine .write fun ok => ?_
  obtain ⟨_, valid, ok⟩ := Except.bind_ok_iff.mp ok
  obtain ⟨_, exclusive, -⟩ := Except.bind_ok_iff.mp ok
  exact .recordsInstall valid (journal_none_of_exclusive exclusive)

/-- Every operation moves the store in one of these ways, whatever its write does. -/
theorem moves_apply (operation : Operation) (outcome : WriteOutcome) :
    store.Moves (store.apply outcome operation) := by
  cases operation with
  | reopen =>
    unfold apply Store.open Rejections.load
    split_ifs
    · exact .stays
    · exact .reopens
  | commitInstalled state => exact moves_commitInstalled state outcome
  | proveProvisional => exact moves_proveProvisional outcome
  | activate release verified =>
    refine .write fun ok => ?_
    obtain ⟨_, valid, -⟩ := Except.bind_ok_iff.mp ok
    exact .points valid
  | writeJournal tx => exact .write fun ok => .records (records_of_check ok)
  | clearJournal => exact moves_clearJournal outcome
  | writeInstallJournal tx => exact moves_writeInstallJournal tx outcome
  | clearInstallJournal => exact .write fun _ => .clearsInstall
  | rejectDeployment lineage sha256 =>
    unfold apply rejectDeployment
    dsimp only
    split
    · exact .stays
    · exact moves_recordRejection lineage _ outcome
  | rejectArtifact lineage digest => exact moves_recordRejection lineage digest outcome

/-! ## Consistency -/

/-- **A consistent store.** -/
structure Consistent (store : Store) : Prop where
  installedValid : ∀ state, store.disk.installed = some state → state.validate = .ok ()
  journalValid : ∀ tx, store.disk.journal = some tx → tx.validate = .ok ()
  installJournalValid : ∀ tx, store.disk.installJournal = some tx → tx.validate = .ok ()
  activeValid : ∀ release, store.disk.active = some release → release.validate = .ok ()
  /-- Update and first install exclude each other. -/
  exclusive : store.disk.journal = none ∨ store.disk.installJournal = none
  recorded : Recorded store.rejected store.disk.rejected

/-- While an update runs forward, its predecessor carries no guard. -/
def Unarmed (store : Store) : Prop :=
  ∀ tx state, store.disk.journal = some tx → tx.phase.isForward = true →
    store.disk.installed = some state → state.release = tx.previousRelease →
      state.archiveSha256 = tx.previousArchiveSha256 → state.rollbackGuard = none

theorem changes_of_validate (valid : tx.validate = .ok ()) :
    ¬(tx.previousRelease = tx.candidateRelease ∧
      tx.previousArchiveSha256 = tx.candidateArchiveSha256) := by
  intro same
  obtain ⟨_, -, valid⟩ := Except.bind_ok_iff.mp valid
  obtain ⟨_, -, valid⟩ := Except.bind_ok_iff.mp valid
  obtain ⟨_, -, valid⟩ := Except.bind_ok_iff.mp valid
  obtain ⟨_, -, valid⟩ := Except.bind_ok_iff.mp valid
  obtain ⟨_, -, valid⟩ := Except.bind_ok_iff.mp valid
  obtain ⟨_, changes, -⟩ := Except.bind_ok_iff.mp valid
  simp [require, candidateRejectionSha256, same] at changes

/-- A committed record carries no guard while it is the predecessor of a running update. -/
theorem Authorized.unarmed {next : InstalledState} (authorized : store.Authorized next)
    (consistent : store.Consistent) (unarmed : store.Unarmed)
    (journalled : store.disk.journal = some tx) (forward : tx.phase.isForward = true)
    (release : next.release = tx.previousRelease)
    (archive : next.archiveSha256 = tx.previousArchiveSha256) : next.rollbackGuard = none := by
  cases authorized with
  | install absent _ _ _ unguarded => exact unguarded
  | @metadata current present rewrites =>
    have unguarded := unarmed tx current journalled forward present
    cases rewrites with
    | same => exact unguarded release archive
    | rebound lineage => exact unguarded release archive
    | confirmed unguarded => exact unguarded
    | settled => rfl
  | pending _ _ _ _ unguarded => exact unguarded
  | candidate _ found commits =>
    cases found.symm.trans journalled
    simp only [commitsCandidate, Transaction.matchesCandidate, Bool.and_eq_true,
      decide_eq_true_eq] at commits
    obtain ⟨⟨⟨-, ⟨⟨-, sameRelease⟩, sameArchive⟩, -⟩, -⟩, -⟩ := commits
    exact absurd ⟨(sameRelease.trans release).symm, (sameArchive.trans archive).symm⟩
      (changes_of_validate (consistent.journalValid _ journalled))
  | predecessor _ found commits =>
    cases found.symm.trans journalled
    simp only [commitsPredecessor, Bool.and_eq_true, decide_eq_true_eq] at commits
    rw [commits.1.1.1] at forward
    cases forward

/-- A journalled transaction that runs forward has an unarmed predecessor. -/
theorem Records.unarmed {state : InstalledState} (records : store.Records tx)
    (unarmed : store.Unarmed) (forward : tx.phase.isForward = true)
    (present : store.disk.installed = some state) (release : state.release = tx.previousRelease)
    (archive : state.archiveSha256 = tx.previousArchiveSha256) : state.rollbackGuard = none := by
  have started : store.Starts tx → state.rollbackGuard = none := by
    rintro (⟨-, found, unguarded, -⟩ | ⟨phase, -⟩)
    · cases found.symm.trans present
      exact unguarded
    · rw [phase] at forward
      cases forward
  cases records.journals with
  | starts _ starts => exact started starts
  | buries _ _ _ _ starts => exact started starts
  | @continues existing journalled _ permits =>
    have same := Transaction.eq_of_permitsReplacement permits
    have forwardBefore : existing.phase.isForward = true := by
      rcases Transaction.phase_of_permitsReplacement permits with equal | edge | ⟨-, planned⟩
      · rwa [equal]
      · exact Phase.isForward_of_advances edge forward
      · rw [planned] at forward
        cases forward
    refine unarmed existing state journalled forwardBefore present ?_ ?_
    · rw [release, same]
    · rw [archive, same]

theorem Moves.consistent {next : Store} (moves : store.Moves next)
    (consistent : store.Consistent) : next.Consistent := by
  cases moves with
  | stays => exact consistent
  | reopens => exact { consistent with recorded := fun _ => rfl }
  | commits commits =>
    refine { consistent with installedValid := ?_ }
    rintro _ ⟨⟩
    exact commits.valid
  | points valid =>
    refine { consistent with activeValid := ?_ }
    rintro _ ⟨⟩
    exact valid
  | records records =>
    refine { consistent with journalValid := ?_, exclusive := .inr records.exclusive }
    rintro _ ⟨⟩
    exact records.valid
  | clears _ =>
    refine { consistent with journalValid := ?_, exclusive := .inl rfl }
    rintro _ ⟨⟩
  | recordsInstall valid exclusive =>
    refine { consistent with installJournalValid := ?_, exclusive := .inl exclusive }
    rintro _ ⟨⟩
    exact valid
  | clearsInstall =>
    refine { consistent with installJournalValid := ?_, exclusive := .inr rfl }
    rintro _ ⟨⟩
  | rejects keeps => exact { consistent with recorded := keeps consistent.recorded }

theorem Moves.unarmed {next : Store} (moves : store.Moves next) (consistent : store.Consistent)
    (unarmed : store.Unarmed) : next.Unarmed := by
  cases moves with
  | commits commits =>
    rintro tx _ journalled forward ⟨⟩ release archive
    exact commits.authorized.unarmed consistent unarmed journalled forward release archive
  | records records =>
    rintro _ state ⟨⟩ forward present release archive
    exact records.unarmed unarmed forward present release archive
  | clears _ => rintro _ _ ⟨⟩
  -- Nothing else touches the update journal or the installed record.
  | _ => exact unarmed

theorem run_consistent (consistent : store.Consistent)
    (history : List (Operation × WriteOutcome)) : (store.run history).Consistent := by
  induction history generalizing store with
  | nil => exact consistent
  | cons entry rest ih => exact ih ((moves_apply entry.1 entry.2).consistent consistent)

theorem run_unarmed (consistent : store.Consistent) (unarmed : store.Unarmed)
    (history : List (Operation × WriteOutcome)) : (store.run history).Unarmed := by
  induction history generalizing store with
  | nil => exact unarmed
  | cons entry rest ih =>
    have moves : store.Moves (store.apply entry.2 entry.1) := moves_apply entry.1 entry.2
    exact ih (moves.consistent consistent) (moves.unarmed consistent unarmed)

/-- **A fresh store starts a history**: opened over no files, it is consistent and unarmed. -/
theorem open_fresh {fresh : Store} (opened : Store.open ⟨none, none, none, none, ∅⟩ = .ok fresh) :
    fresh.Consistent ∧ fresh.Unarmed := by
  have loaded : Rejections.load ∅ = .ok ⟨∅, false⟩ := if_neg (by simp)
  rw [Store.open, loaded] at opened
  obtain rfl := Except.ok.inj opened
  refine ⟨⟨?_, ?_, ?_, ?_, .inl rfl, fun _ => rfl⟩, ?_⟩
  iterate 4 rintro _ ⟨⟩
  rintro _ _ ⟨⟩

/-! ## No obligation is buried -/

theorem Consistent.onDisk (consistent : store.Consistent) {lineage : RepositoryLineage}
    {digest : DigestText} (durable : store.rejectionIsDurable lineage digest = true) :
    OnDisk store.disk lineage digest := by
  unfold rejectionIsDurable at durable
  split at durable
  · cases durable
  · next key named =>
    simp only [Rejections.isDurablyRejected, Rejections.isRejected, Bool.and_eq_true,
      Bool.not_eq_true', decide_eq_true_eq] at durable
    exact ⟨key, named, consistent.recorded durable.1 ▸ durable.2⟩

theorem Consistent.owesNothing (consistent : store.Consistent) (past : tx.phase ≠ .prepared)
    (discharged : store.Discharged tx) (settled : tx.phase = .prepared ∨ Settled store.disk tx) :
    OwesNothing store.disk tx :=
  ⟨settled.resolve_left past, fun required => consistent.onDisk (discharged required)⟩

/-- One operation erases a journal past `prepared` only when its transaction owes nothing, before
and after. -/
theorem Moves.owesNothing {next : Store} (moves : store.Moves next) (consistent : store.Consistent)
    (journalled : store.disk.journal = some tx) (past : tx.phase ≠ .prepared)
    (erased : ∀ other, next.disk.journal = some other → other.id ≠ tx.id) :
    OwesNothing store.disk tx ∧ OwesNothing next.disk tx := by
  cases moves with
  | clears settled =>
    obtain ⟨discharged, settled⟩ := settled tx journalled
    have owes := consistent.owesNothing past discharged settled
    exact ⟨owes, owes.withJournal none⟩
  | @records after records =>
    cases records.journals with
    | starts absent _ => cases absent.symm.trans journalled
    | buries found _ discharged settled _ =>
      cases found.symm.trans journalled
      have owes := consistent.owesNothing past discharged settled
      exact ⟨owes, owes.withJournal (some after)⟩
    | continues found same _ =>
      cases found.symm.trans journalled
      exact absurd same.symm (erased after rfl)
  -- Nothing else touches the update journal.
  | stays => exact absurd rfl (erased tx journalled)
  | reopens => exact absurd rfl (erased tx journalled)
  | commits _ => exact absurd rfl (erased tx journalled)
  | points _ => exact absurd rfl (erased tx journalled)
  | recordsInstall _ _ => exact absurd rfl (erased tx journalled)
  | clearsInstall => exact absurd rfl (erased tx journalled)
  | rejects _ => exact absurd rfl (erased tx journalled)

/-- **No obligation is buried**: over every history of operations with any arguments and failed
writes, the two journals are never both present, and the next operation erases an update journal
past `prepared` only when its transaction is settled and its rejection is on disk. -/
theorem run_buries_nothing (consistent : store.Consistent)
    (history : List (Operation × WriteOutcome)) :
    ¬((store.run history).disk.journal.isSome ∧ (store.run history).disk.installJournal.isSome) ∧
    ∀ (operation : Operation) (outcome : WriteOutcome) (tx : Transaction),
      (store.run history).disk.journal = some tx → tx.phase ≠ .prepared →
      (∀ other, ((store.run history).apply outcome operation).disk.journal = some other →
        other.id ≠ tx.id) →
      OwesNothing (store.run history).disk tx ∧
        OwesNothing ((store.run history).apply outcome operation).disk tx := by
  have now := run_consistent consistent history
  refine ⟨?_, fun operation outcome tx journalled past erased =>
    (moves_apply operation outcome).owesNothing now journalled past erased⟩
  rintro ⟨update, install⟩
  rcases now.exclusive with none | none
  · simp [none] at update
  · simp [none] at install

/-! ## Identity changes only under evidence -/

theorem Authorized.evidence {next : InstalledState} (authorized : store.Authorized next)
    (consistent : store.Consistent)
    (changes : store.disk.installed.map InstalledState.unit ≠ some next.unit) :
    store.Evidence next := by
  cases authorized with
  | install absent journalled phase names _ => exact .install absent journalled phase names
  | metadata present rewrites =>
    rw [present, rewrites.unit_eq] at changes
    exact absurd rfl changes
  | pending present guarded durable names _ =>
    exact .rollback (.guard present guarded names (consistent.onDisk durable))
  | candidate _ journalled commits => exact .of_candidate journalled commits
  | predecessor _ journalled commits => exact .rollback (.of_predecessor journalled commits)

/-- What may become of a guard. -/
theorem Authorized.guard_kept {current next : InstalledState} {guard : RollbackGuard}
    (authorized : store.Authorized next) (consistent : store.Consistent)
    (unarmed : store.Unarmed) (present : store.disk.installed = some current)
    (guarded : current.rollbackGuard = some guard) :
    next.rollbackGuard = some guard ∨ next = { current with rollbackGuard := none } ∨
      store.RollsBack next := by
  cases authorized with
  | install absent => cases absent.symm.trans present
  | metadata found rewrites =>
    cases found.symm.trans present
    cases rewrites with
    | same => exact .inl guarded
    | rebound lineage => exact .inl guarded
    | confirmed unguarded => exact .inl guarded
    | settled => exact .inr (.inl rfl)
  | pending found armed durable names _ =>
    exact .inr (.inr (.guard found armed names (consistent.onDisk durable)))
  | candidate found journalled commits =>
    cases found.symm.trans present
    simp only [commitsCandidate, Transaction.matchesPrevious, Bool.and_eq_true, Bool.or_eq_true,
      decide_eq_true_eq] at commits
    obtain ⟨⟨⟨⟨⟨phase, -⟩, ⟨⟨-, release⟩, archive⟩, -⟩, -⟩, -⟩, -⟩ := commits
    have forward := unarmed _ current journalled
      (by rcases phase with phase | phase <;> rw [phase] <;> rfl) present release.symm archive.symm
    cases guarded.symm.trans forward
  | predecessor _ journalled commits => exact .inr (.inr (.of_predecessor journalled commits))

theorem Moves.underEvidence {next : Store} (moves : store.Moves next)
    (consistent : store.Consistent) (unarmed : store.Unarmed) : UnderEvidence store next := by
  cases moves with
  | @commits state commits =>
    constructor
    · rintro _ ⟨⟩ changes
      exact commits.authorized.evidence consistent changes
    · exact fun current found => ⟨state, rfl, fun guard guarded =>
        commits.authorized.guard_kept consistent unarmed found guarded⟩
  -- Nothing else touches the installed record.
  | _ => exact .of_same rfl

/-- **Executable identity changes only under evidence**, over every history of operations with any
arguments and failed writes. -/
theorem run_identity_under_evidence (consistent : store.Consistent) (unarmed : store.Unarmed)
    (history : List (Operation × WriteOutcome)) (operation : Operation) (outcome : WriteOutcome) :
    UnderEvidence (store.run history) ((store.run history).apply outcome operation) :=
  (moves_apply operation outcome).underEvidence (run_consistent consistent history)
    (run_unarmed consistent unarmed history)

end Store

end Updatedc.Agent

/-! ## A node to run the model with -/

namespace Updatedc.Agent.Sample

open Contracts

scoped instance crypto : Crypto := ⟨fun _ => 7, fun _ _ => 7, fun _ _ _ => true⟩

scoped instance semver : Semver :=
  ⟨Nat, fun _ => some 1, fun _ => "1.0.0", compare, Nat.instTransOrd⟩

def lineage : RepositoryLineage := ⟨.canonical 1⟩

def reconciler : ReconcilerRelease := ⟨.canonical 5, "app", 1, 1000⟩

def release (manifest : Sha256) : ReleaseId := ⟨"1.0.0", .canonical manifest⟩

/-- A settled node that runs release 2 from archive 12. -/
def settled : InstalledState := .proven lineage (release 2) (.canonical 12) reconciler

/-- Its update to release 3 from archive 13. -/
def update (phase : Phase) : Transaction :=
  { id := .canonical 100
    previousRelease := release 2
    previousArchiveSha256 := .canonical 12
    previousRepositoryLineage := lineage
    candidateRelease := release 3
    candidateArchiveSha256 := .canonical 13
    candidateRejectionSha256 := .canonical 7
    candidateRepositoryLineage := lineage
    candidateRejectionRequired := false
    previousReconciler := reconciler
    candidateReconciler := reconciler
    rollbackHealthFailures := 0
    phase }

def guard : RollbackGuard :=
  { attemptId := .canonical 100
    candidateRejectionSha256 := .canonical 7
    previousRelease := release 2
    previousArchiveSha256 := .canonical 12
    previousRepositoryLineage := lineage
    reconciler
    committedAt := 1 }

/-- The updated node, still in its confirmation window. -/
def updated : InstalledState :=
  { InstalledState.proven lineage (release 3) (.canonical 13) reconciler with
    rollbackGuard := some guard }

def node : Store :=
  { disk := ⟨some settled, none, none, some (release 2), ∅⟩
    rejected := ⟨∅, false⟩ }

theorem node_consistent : node.Consistent where
  installedValid := by
    rintro _ ⟨⟩
    decide
  journalValid := by rintro _ ⟨⟩
  installJournalValid := by rintro _ ⟨⟩
  activeValid := by
    rintro _ ⟨⟩
    decide
  exclusive := .inl rfl
  recorded := fun _ => rfl

theorem node_unarmed : node.Unarmed := by rintro _ _ ⟨⟩

/-- The update, up to the point where only its journal is left to delete. -/
def updating : List (Operation × WriteOutcome) :=
  [(.writeJournal (update .prepared), .written),
    (.activate (release 3) (.ok ()), .written),
    (.writeJournal (update .activated), .written),
    (.writeJournal (update .converged), .unsynced true),
    (.commitInstalled updated, .written),
    (.writeJournal (update .committed), .written)]

theorem run_buries_nothing_updating :
    (node.run updating).disk.journal = some (update .committed) ∧
    ((node.run updating).apply .written .clearJournal).disk.journal = none ∧
    Store.OwesNothing (node.run updating).disk (update .committed) := by
  have journalled : (node.run updating).disk.journal = some (update .committed) := by
    decide
  have erased : ((node.run updating).apply .written .clearJournal).disk.journal = none := by
    decide
  exact ⟨journalled, erased, ((Store.run_buries_nothing node_consistent updating).2 .clearJournal
    .written _ journalled (by decide) (by simp [erased])).1⟩

/-- The commit of the candidate, seen from the history before it. -/
theorem run_identity_under_evidence_updating :
    ((node.run (updating.take 4)).apply .written (.commitInstalled updated)).disk.installed =
      some updated ∧
    (node.run (updating.take 4)).Evidence updated := by
  have committed : ((node.run (updating.take 4)).apply .written
      (.commitInstalled updated)).disk.installed = some updated := by decide
  exact ⟨committed, (Store.run_identity_under_evidence node_consistent node_unarmed
    (updating.take 4) _ .written).identity updated committed (by decide)⟩

end Updatedc.Agent.Sample
