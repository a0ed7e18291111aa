import Updatedc.Agent.Node

/-!
# The first install (`agent/src/install.rs`)

A cold install is `prepare → place → commit`, driven through its own journal, so that a crash at any
boundary is completed by the next boot. Three files besides the journal change on the way, in a
fixed order: the active pointer, the once-only enrollment marker and the installed record.

`Underway` is the invariant of every state between the first journal write and the removal of the
journal. It names the one transaction the node is installing: whatever boot resumes it, the pointer
and the record can only come to name that transaction's release. `Enrolled` is what is left of it
once an install committed; nothing the rest of the agent does to the store can lead back from it.
-/

namespace Updatedc.Agent

open Contracts

/-! ## The code -/

variable (tx : InstallTransaction)

def advanceInstall (next : InstallPhase) : Prog InstallTransaction := do
  let tx ← io (tx.advance next)
  perform (.writeInstallJournal tx)
  return tx

/-- Advance from `phase`, where the journal is still there. -/
def advanceInstallFrom (phase next : InstallPhase) (tx : InstallTransaction) :
    Prog InstallTransaction :=
  if tx.phase = phase then advanceInstall tx next else return tx

/-- Enrollment is one-way; a resume that already consumed it skips this. -/
def consumeEnrollment : Prog Unit := do
  if (← ask .readInstallHistory) = .missing then
    io (← ask .recordFirstInstall)

/-- The record of a head that has never launched. -/
def InstallTransaction.installed : InstalledState :=
  .provisional tx.repositoryLineage tx.release tx.archiveSha256 tx.reconciler

/-- Drive an install from its journaled phase to a committed, cleared state. -/
def placeAndCommit : Prog Unit := do
  let tx ← advanceInstallFrom .started .prepared tx
  activate tx.release
  let tx ← advanceInstallFrom .prepared .placed tx
  consumeEnrollment
  perform (.commitInstalled tx.installed)
  let _ ← advanceInstallFrom .placed .committed tx
  perform .clearInstallJournal

/-- Select and stage the application, rejecting every malformed archive on the way. Each round
rejects one archive more, and the rejection record is bounded. -/
def acquireFirst (lineage : RepositoryLineage) :
    Nat → Prog (ReleaseId × DigestText × ReconcilerRelease)
  | 0 => throw (.message "preparing the first application")
  | rounds + 1 => do
    match ← ask (.prepareAssigned .nothing) with
    | .nothing =>
      throw (.message "the assignment has no supported installation route to its target")
    | .failed => throw (.message "preparing the first application")
    | .malformed archiveSha256 =>
      perform (.rejectArtifact lineage archiveSha256)
      acquireFirst lineage rounds
    | .prepared release archiveSha256 reconciler => return (release, archiveSha256, reconciler)

/-- Resolve the first assignment, stage it, then drive the durable install. -/
def applyInstall : Prog Unit := do
  let repositoryLineage ← io (← ask .assigned)
  let (release, archiveSha256, reconciler) ← acquireFirst repositoryLineage (maxRejectionKeys + 1)
  let id ← io (← ask .token)
  let tx : InstallTransaction :=
    { id, release, archiveSha256, repositoryLineage, reconciler, phase := .started }
  perform (.writeInstallJournal tx)
  let tx ← advanceInstall tx .prepared
  placeAndCommit tx

/-- Ensure a committed application exists, with whether this boot installed it. -/
def ensureInstalled : Prog Bool := do
  match ← io (← ask .installJournal) with
  | some tx =>
    let committed ← readInstalled
    let committed := match committed with
      | .present state => some state
      | .missing | .invalid => none
    match classifyInstallRecovery tx committed with
    | .committed =>
      perform .clearInstallJournal
      return true
    | .resume =>
      placeAndCommit tx
      return true
  | none =>
    match ← readInstalled, ← ask .readInstallHistory with
    | .missing, .missing =>
      applyInstall
      return true
    | .missing, _ =>
      throw (.message ("installed state is missing after a previous installation with no " ++
        "recoverable install journal; refusing to cold-install"))
    | .present state, .present =>
      if !state.isProven then
        if (← readJournal).isNone then
          if ← ask (.rejectsDeployment state.repositoryLineage state.archiveSha256) then
            throw (.message (s!"rejected installation {state.release.version} requires explicit " ++
              "recovery; refusing to reinstall through another graph root"))
      return false
    | .present _, _ => throw (.message "installed state exists without a valid enrollment record")
    | .invalid, _ => throw (.message "installed state is invalid; refusing to cold-install")

/-! ## What an install journal says -/

/-- The first-install journals ever started on this node, the latest first. -/
def Node.started (node : Node) : List InstallTransaction :=
  node.trace.filterMap fun event => match event with
    | .installing tx => if tx.phase = .started then some tx else none
    | _ => none

/-- The transaction as it was first journaled. -/
def InstallTransaction.first : InstallTransaction :=
  { tx with phase := .started }

theorem InstallTransaction.advance_ok {tx advanced : InstallTransaction} {next : InstallPhase}
    (ok : tx.advance next = .ok advanced) : advanced = { tx with phase := next } ∧
      next ≠ .started := by
  unfold advance at ok
  split at ok
  all_goals first
    | exact ⟨(Except.ok.inj ok).symm, by simp⟩
    | cases ok

@[simp] theorem InstallTransaction.first_withPhase (phase : InstallPhase) :
    ({ tx with phase } : InstallTransaction).first = tx.first := rfl

/-! ## The states of an install -/

/-- **An install is underway**: `tx` is journaled, no other install was ever started, and a record
can only be its own, committed after the pointer and the marker. -/
structure Underway (tx : InstallTransaction) (node : Node) : Prop where
  journal : node.disk.installJournal = some tx
  started : node.started = [tx.first]
  marker : node.history ≠ .invalid
  record : ∀ state, node.disk.installed = some state → state = tx.installed ∧
    node.history = .present ∧ node.disk.active = some tx.release

/-- **An install committed**, at some time in the past. -/
structure Enrolled (tx : InstallTransaction) (node : Node) : Prop where
  journal : node.disk.installJournal = none
  started : node.started = [tx.first]
  marker : node.history = .present
  record : node.disk.installed ≠ none

/-- Just committed: the pointer, the record and the marker are those of `tx`. -/
structure Installs (tx : InstallTransaction) (node : Node) : Prop extends Enrolled tx node where
  installed : node.disk.installed = some tx.installed
  active : node.disk.active = some tx.release

/-- Nothing was installed yet. -/
structure Unenrolled (node : Node) : Prop where
  journal : node.disk.installJournal = none
  started : node.started = []
  marker : node.history = .missing
  record : node.disk.installed = none

inductive Enrollment (node : Node) : Prop
  | unenrolled (fresh : Unenrolled node)
  | underway (tx : InstallTransaction) (underway : Underway tx node)
  | enrolled (tx : InstallTransaction) (enrolled : Enrolled tx node)


@[simp] theorem Node.started_installing (node : Node) (tx : InstallTransaction) :
    (node.installing tx).started =
      if tx.phase = .started then tx :: node.started else node.started := by
  unfold started installing
  by_cases begins : tx.phase = .started <;> simp [begins]

section Steps

variable {node : Node} {tx : InstallTransaction}

theorem Underway.installing {phase : InstallPhase} (underway : Underway tx node)
    (later : phase ≠ .started) :
      Underway { tx with phase } (node.installing { tx with phase }) where
  journal := rfl
  started := by simp [later, underway.started]
  marker := underway.marker
  record := underway.record

theorem Underway.pointing (underway : Underway tx node) :
    Underway tx (node.pointing tx.release) where
  journal := underway.journal
  started := underway.started
  marker := underway.marker
  record state present :=
    have ⟨own, marked, _⟩ := underway.record state present
    ⟨own, marked, rfl⟩

theorem Underway.marking (underway : Underway tx node) :
    Underway tx { node with history := .present } where
  journal := underway.journal
  started := underway.started
  marker := by simp
  record state present :=
    have ⟨own, _, active⟩ := underway.record state present
    ⟨own, rfl, active⟩

theorem Underway.committing (underway : Underway tx node) (marked : node.history = .present)
    (active : node.disk.active = some tx.release) : Underway tx (node.committing tx.installed) where
  journal := underway.journal
  started := underway.started
  marker := underway.marker
  record := by
    rintro _ ⟨⟩
    exact ⟨rfl, marked, active⟩

variable [Crypto] [Semver]

/-- The install journal is removed only once its own unit is committed. -/
theorem Underway.clearing (underway : Underway tx node)
    (ok : node.store.checkClearInstallJournal = .ok ()) : Installs tx node.clearingInstall := by
  obtain ⟨found, read, ok⟩ := Except.bind_ok_iff.mp ok
  rw [Store.eq_of_installJournal_ok read, underway.journal] at ok
  have committed := require_ok_iff.mp ok
  unfold classifyInstallRecovery Store.committedState at committed
  cases read : node.store.installed with
  | missing => simp [read] at committed
  | invalid => simp [read] at committed
  | present state =>
    have present := Store.installed_eq_present read
    obtain ⟨own, marked, active⟩ := underway.record state present
    have installed : node.disk.installed = some tx.installed := own ▸ present
    exact
      { journal := rfl
        started := underway.started
        marker := marked
        record := by
          change node.disk.installed ≠ none
          simp [installed]
        installed
        active }

/-- Nothing starts an install on a node that has an installed record. -/
theorem Enrolled.refuses (enrolled : Enrolled tx node) (other : InstallTransaction) :
    node.store.checkInstallJournal other ≠ .ok () := by
  intro ok
  obtain ⟨_, -, ok⟩ := Except.bind_ok_iff.mp ok
  obtain ⟨_, -, ok⟩ := Except.bind_ok_iff.mp ok
  obtain ⟨_, -, ok⟩ := Except.bind_ok_iff.mp ok
  obtain ⟨_, -, ok⟩ := Except.bind_ok_iff.mp ok
  obtain ⟨found, read, ok⟩ := Except.bind_ok_iff.mp ok
  rw [Store.eq_of_installJournal_ok read, enrolled.journal] at ok
  obtain ⟨accepted, authorized, ok⟩ := Except.bind_ok_iff.mp ok
  rw [require_ok_iff.mp ok] at authorized
  unfold Store.installStartIsAuthorized at authorized
  split_ifs at authorized
  · cases authorized
  · obtain ⟨_, -, authorized⟩ := Except.bind_ok_iff.mp authorized
    split at authorized
    · next missing => exact enrolled.record (Store.installed_eq_missing missing)
    all_goals cases authorized

end Steps

/-! ## The run of one boot -/

/-- The enrollment marker can be read. (A marker that is there but unreadable counts as a corrupt
one, and a resume takes it for consumed.) -/
def MarkerReadable (_ : Node) : Call → Choice → Prop
  | .readInstallHistory, choice | .recordFirstInstall, choice => choice.io = .ok ()
  | _, _ => True

section Runs

variable [Crypto] [Semver] {node : Node} {tx : InstallTransaction}

theorem ensures_advanceInstall {phase : InstallPhase} (underway : Underway tx node) :
    (advanceInstall tx phase).Ensures (surroundings MarkerReadable) Enrollment
      (fun next after => Underway next after ∧ next.first = tx.first ∧
        after.disk.active = node.disk.active ∧ after.history = node.history)
      (fun _ _ => True) node := by
  have here : Enrollment node := .underway tx underway
  refine Program.ensures_bind.mpr (ensures_io here (fun advanced ok => ?_) fun _ _ => trivial)
  obtain ⟨rfl, later⟩ := InstallTransaction.advance_ok ok
  have next := underway.installing later
  refine Program.ensures_bind.mpr
    ((Node.writes_writeInstallJournal _).ensures here fun _ => ⟨.underway _ next, ?_⟩)
  exact ⟨.underway _ next, next, rfl, rfl, rfl⟩

theorem ensures_advanceInstallFrom {phase next : InstallPhase} (underway : Underway tx node) :
    (advanceInstallFrom phase next tx).Ensures (surroundings MarkerReadable) Enrollment
      (fun advanced after => Underway advanced after ∧ advanced.first = tx.first ∧
        after.disk.active = node.disk.active ∧ after.history = node.history)
      (fun _ _ => True) node := by
  unfold advanceInstallFrom
  split_ifs
  · exact ensures_advanceInstall underway
  · exact ⟨.underway tx underway, underway, rfl, rfl, rfl⟩

theorem ensures_consumeEnrollment (underway : Underway tx node) :
    consumeEnrollment.Ensures (surroundings MarkerReadable) Enrollment
      (fun _ after => Underway tx after ∧ after.disk.active = node.disk.active ∧
        after.history = .present) (fun _ _ => True) node := by
  have here : Enrollment node := .underway tx underway
  refine Program.ensures_bind.mpr (ensures_reads rfl here fun choice readable => ?_)
  have read : node.readInstallHistory choice = node.history := if_pos readable
  change (ite (node.readInstallHistory choice = .missing) _ _ : Prog Unit).Ensures _ _ _ _ _
  rw [read]
  split_ifs with unconsumed
  · refine Program.ensures_bind.mpr ⟨here, ?_⟩
    rintro after answer ⟨choice, readable, served⟩
    have marked := underway.marking
    have missing : node.readInstallHistory choice = .missing := (if_pos readable).trans unconsumed
    simp only [Node.serve, Node.recordFirstInstall, missing, ne_eq, not_true_eq_false, if_false]
      at served
    cases written : choice.write with
    | lost transient =>
      rw [written] at served
      obtain ⟨rfl, rfl⟩ := Prod.mk.inj served
      exact ⟨here, here, trivial⟩
    | written =>
      rw [written] at served
      obtain ⟨rfl, rfl⟩ := Prod.mk.inj served
      exact ⟨.underway tx marked, .underway tx marked, marked, rfl, rfl⟩
    | unsynced transient =>
      rw [written] at served
      obtain ⟨rfl, rfl⟩ := Prod.mk.inj served
      exact ⟨.underway tx marked, .underway tx marked, trivial⟩
  · refine ⟨here, underway, rfl, ?_⟩
    cases marker : node.history with
    | present => rfl
    | missing => exact absurd marker unconsumed
    | invalid => exact absurd marker underway.marker

/-- **A resumed install, from whatever phase it was left in**, only passes through states the next
boot resumes, and ends with everything naming its own release. -/
theorem ensures_placeAndCommit (underway : Underway tx node) :
    (placeAndCommit tx).Ensures (surroundings MarkerReadable) Enrollment
      (fun _ after => ∃ tx, Installs tx after) (fun _ _ => True) node := by
  unfold placeAndCommit
  refine Program.ensures_bind.mpr ((ensures_advanceInstallFrom underway).imp (fun _ h => h) ?_
    fun _ _ _ h => h)
  rintro prepared node - ⟨underway, -, -, -⟩
  refine Program.ensures_bind.mpr (ensures_activate (.underway _ underway) fun _ => ?_)
  have pointed := underway.pointing
  refine ⟨.underway _ pointed, Program.ensures_bind.mpr
    ((ensures_advanceInstallFrom pointed).imp (fun _ h => h) ?_ fun _ _ _ h => h)⟩
  rintro placed node' - ⟨underway, same, active, -⟩
  have release : prepared.first.release = placed.first.release := by rw [same]
  replace active : node'.disk.active = some placed.release := active.trans (congrArg _ release)
  refine Program.ensures_bind.mpr ((ensures_consumeEnrollment underway).imp (fun _ h => h) ?_
    fun _ _ _ h => h)
  rintro - marked - ⟨underway, kept, present⟩
  refine Program.ensures_bind.mpr ((Node.writes_commitInstalled _).ensures (.underway _ underway)
    fun _ => ?_)
  have committed := underway.committing present (kept.trans active)
  refine ⟨.underway _ committed, Program.ensures_bind.mpr
    ((ensures_advanceInstallFrom committed).imp (fun _ h => h) ?_ fun _ _ _ h => h)⟩
  rintro final node'' - ⟨underway, -, -, -⟩
  refine Node.writes_clearInstallJournal.ensures (.underway _ underway) fun ok => ?_
  have installs := underway.clearing ok
  exact ⟨.enrolled _ installs.toEnrolled, _, installs⟩

omit [Crypto] [Semver] in
theorem Unenrolled.withRejections (fresh : Unenrolled node) (file : Finset RejectionKey)
    (rejected : Rejections) : Unenrolled (node.withRejections file rejected) :=
  ⟨fresh.journal, fresh.started, fresh.marker, fresh.record⟩

omit [Crypto] [Semver] in
theorem Unenrolled.installing (fresh : Unenrolled node) (started : tx.phase = .started) :
    Underway tx (node.installing tx) where
  journal := rfl
  started := by
    have same : tx.first = tx := by
      unfold InstallTransaction.first
      rw [← started]
    simp [started, fresh.started, same]
  marker := by
    change node.history ≠ .invalid
    simp [fresh.marker]
  record state present := by
    rw [show (node.installing tx).disk.installed = none from fresh.record] at present
    cases present

theorem ensures_acquireFirst (lineage : RepositoryLineage) (rounds : Nat)
    (fresh : Unenrolled node) :
    (acquireFirst lineage rounds).Ensures (surroundings MarkerReadable) Enrollment
      (fun _ after => Unenrolled after) (fun _ _ => True) node := by
  induction rounds generalizing node with
  | zero => exact ⟨.unenrolled fresh, trivial⟩
  | succ rounds ih =>
    refine Program.ensures_bind.mpr (ensures_reads rfl (.unenrolled fresh) fun choice _ => ?_)
    change (match choice.acquisition with
      | .nothing => _ | .failed => _ | .malformed _ => _ | .prepared _ _ _ => _ :
        Prog _).Ensures _ _ _ _ _
    cases choice.acquisition with
    | nothing => exact ⟨.unenrolled fresh, trivial⟩
    | failed => exact ⟨.unenrolled fresh, trivial⟩
    | malformed archiveSha256 =>
      refine Program.ensures_bind.mpr (ensures_reject (.artifact _ _) (.unenrolled fresh)
        fun file rejected => ?_)
      have fresh := fresh.withRejections file rejected
      exact ⟨.unenrolled fresh, ih fresh⟩
    | prepared release archiveSha256 reconciler => exact ⟨.unenrolled fresh, fresh⟩

theorem ensures_applyInstall (fresh : Unenrolled node) :
    applyInstall.Ensures (surroundings MarkerReadable) Enrollment
      (fun _ after => ∃ tx, Installs tx after) (fun _ _ => True) node := by
  unfold applyInstall
  refine Program.ensures_bind.mpr (ensures_reads rfl (.unenrolled fresh) fun _ _ => ?_)
  refine Program.ensures_bind.mpr (ensures_io (.unenrolled fresh) (fun lineage _ => ?_)
    fun _ _ => trivial)
  refine Program.ensures_bind.mpr ((ensures_acquireFirst lineage _ fresh).imp (fun _ h => h) ?_
    fun _ _ _ h => h)
  rintro ⟨release, archiveSha256, reconciler⟩ node - fresh
  refine Program.ensures_bind.mpr (ensures_reads rfl (.unenrolled fresh) fun _ _ => ?_)
  refine Program.ensures_bind.mpr (ensures_io (.unenrolled fresh) (fun id _ => ?_)
    fun _ _ => trivial)
  refine Program.ensures_bind.mpr ((Node.writes_writeInstallJournal _).ensures (.unenrolled fresh)
    fun _ => ?_)
  have underway : Underway ⟨id, release, archiveSha256, lineage, reconciler, .started⟩ _ :=
    fresh.installing rfl
  refine ⟨.underway _ underway, Program.ensures_bind.mpr ((ensures_advanceInstall underway).imp
    (fun _ h => h) ?_ fun _ _ _ h => h)⟩
  rintro prepared node - ⟨underway, -⟩
  exact ensures_placeAndCommit underway

theorem ensures_ensureInstalled (enrollment : Enrollment node) :
    ensureInstalled.Ensures (surroundings MarkerReadable) Enrollment
      (fun installs after => if installs then ∃ tx, Installs tx after else ∃ tx, Enrolled tx after)
      (fun _ _ => True) node := by
  unfold ensureInstalled
  have here := enrollment
  refine Program.ensures_bind.mpr (ensures_reads rfl here fun _ _ => ?_)
  refine Program.ensures_bind.mpr (ensures_io here (fun found ok => ?_) fun _ _ => trivial)
  have journal : found = node.disk.installJournal := Store.eq_of_installJournal_ok (read_ok ok)
  subst journal
  cases enrollment with
  | underway tx underway =>
    rw [underway.journal]
    refine Program.ensures_bind.mpr (ensures_readInstalled here ?_ fun _ => trivial)
    dsimp only
    split
    · refine Program.ensures_bind.mpr (Node.writes_clearInstallJournal.ensures here fun ok => ?_)
      have installs := underway.clearing ok
      exact ⟨.enrolled _ installs.toEnrolled, .enrolled _ installs.toEnrolled, _, installs⟩
    · refine Program.ensures_bind.mpr ((ensures_placeAndCommit underway).imp (fun _ h => h) ?_
        fun _ _ _ h => h)
      exact fun _ _ kept installs => ⟨kept, installs⟩
  | unenrolled fresh =>
    rw [fresh.journal]
    refine Program.ensures_bind.mpr (ensures_readInstalled here ?_ fun _ => trivial)
    refine Program.ensures_bind.mpr (ensures_reads rfl here fun choice readable => ?_)
    have missing : node.store.installed = .missing := by
      unfold Store.installed
      rw [fresh.record]
    have unmarked : (node.serve .readInstallHistory choice).2 = .missing :=
      (if_pos readable).trans fresh.marker
    rw [missing, unmarked]
    refine Program.ensures_bind.mpr ((ensures_applyInstall fresh).imp (fun _ h => h) ?_
      fun _ _ _ h => h)
    exact fun _ _ kept installs => ⟨kept, installs⟩
  | enrolled tx enrolled =>
    rw [enrolled.journal]
    refine Program.ensures_bind.mpr (ensures_readInstalled here ?_ fun _ => trivial)
    refine Program.ensures_bind.mpr (ensures_reads rfl here fun choice readable => ?_)
    have marked : (node.serve .readInstallHistory choice).2 = .present :=
      (if_pos readable).trans enrolled.marker
    rw [marked]
    cases read : node.store.installed with
    | missing => exact absurd (Store.installed_eq_missing read) enrolled.record
    | invalid => exact ⟨here, trivial⟩
    | present state =>
      dsimp only
      split_ifs
      · refine Program.ensures_bind.mpr (ensures_readJournal here ?_ fun _ => trivial)
        split_ifs
        · refine Program.ensures_bind.mpr (ensures_reads rfl here fun _ _ => ?_)
          split_ifs
          · exact ⟨here, trivial⟩
          · exact ⟨here, tx, enrolled⟩
        · exact ⟨here, tx, enrolled⟩
      · exact ⟨here, tx, enrolled⟩

/-- The start of every process of the agent, up to the point where an application is installed. -/
def startup : Prog Bool := do
  perform .reopen
  ensureInstalled

omit [Crypto] [Semver] in
theorem Enrollment.withRejected (enrollment : Enrollment node) (rejected : Rejections) :
    Enrollment (node.withRejected rejected) := by
  cases enrollment with
  | unenrolled fresh =>
    exact .unenrolled ⟨fresh.journal, fresh.started, fresh.marker, fresh.record⟩
  | underway tx underway =>
    exact .underway tx ⟨underway.journal, underway.started, underway.marker, underway.record⟩
  | enrolled tx enrolled =>
    exact .enrolled tx ⟨enrolled.journal, enrolled.started, enrolled.marker, enrolled.record⟩

theorem ensures_startup (enrollment : Enrollment node) :
    startup.Ensures (surroundings MarkerReadable) Enrollment
      (fun installs after => if installs then ∃ tx, Installs tx after else ∃ tx, Enrolled tx after)
      (fun _ _ => True) node := by
  refine Program.ensures_bind.mpr (ensures_reopen enrollment fun rejected => ?_)
  have reopened := enrollment.withRejected rejected
  exact ⟨reopened, ensures_ensureInstalled reopened⟩

/-! ## What the rest of the agent can do -/

theorem Enrolled.perform (enrolled : Enrolled tx node) (outcome : WriteOutcome)
    (operation : Operation) : Enrolled tx (node.perform outcome operation).1 := by
  -- A checked write either left the node alone or left what it writes.
  have wrote : ∀ {checked : IoResult Unit} {next : Node}, node.Writes operation checked next →
      (checked = .ok () → Enrolled tx next) → Enrolled tx (node.perform outcome operation).1 := by
    intro checked next writes landed
    rcases writes outcome with ⟨error, performed⟩ | ⟨ok, -, performed⟩
    · rw [performed]
      exact enrolled
    · rw [performed]
      exact landed ok
  have committed : ∀ state, Enrolled tx (node.committing state) := fun state =>
    ⟨enrolled.journal, enrolled.started, enrolled.marker, Option.some_ne_none state⟩
  cases operation with
  | reopen =>
    obtain ⟨rejected, same⟩ := node.perform_reopen outcome
    rw [same]
    exact ⟨enrolled.journal, enrolled.started, enrolled.marker, enrolled.record⟩
  | commitInstalled state =>
    exact wrote (Node.writes_commitInstalled state) fun _ => committed state
  | proveProvisional =>
    change Enrolled tx { node with store := (node.store.proveProvisional outcome).2 }
    unfold Store.proveProvisional
    split
    · exact enrolled
    · exact enrolled
    · dsimp only
      split_ifs
      · exact enrolled
      · unfold Store.commitInstalled
        rcases node.store.write_snd with same | same
        all_goals rw [same]
        · exact enrolled
        · exact ⟨enrolled.journal, enrolled.started, enrolled.marker, Option.some_ne_none _⟩
  | activate release verified =>
    exact wrote (Node.writes_activate release verified) fun _ =>
      ⟨enrolled.journal, enrolled.started, enrolled.marker, enrolled.record⟩
  | writeJournal journal =>
    exact wrote (Node.writes_writeJournal journal) fun _ =>
      ⟨enrolled.journal, enrolled.started, enrolled.marker, enrolled.record⟩
  | clearJournal =>
    exact wrote Node.writes_clearJournal fun _ =>
      ⟨enrolled.journal, enrolled.started, enrolled.marker, enrolled.record⟩
  | writeInstallJournal other =>
    exact wrote (Node.writes_writeInstallJournal other) fun ok => absurd ok (enrolled.refuses other)
  | clearInstallJournal =>
    exact wrote Node.writes_clearInstallJournal fun _ =>
      ⟨rfl, enrolled.started, enrolled.marker, enrolled.record⟩
  | rejectDeployment lineage sha256 =>
    obtain ⟨file, rejected, same⟩ := node.perform_of_rejects (.deployment lineage sha256) outcome
    rw [same]
    exact ⟨enrolled.journal, enrolled.started, enrolled.marker, enrolled.record⟩
  | rejectArtifact lineage digest =>
    obtain ⟨file, rejected, same⟩ := node.perform_of_rejects (.artifact lineage digest) outcome
    rw [same]
    exact ⟨enrolled.journal, enrolled.started, enrolled.marker, enrolled.record⟩

/-- **No call of the rest of the agent leads back**: an enrolled node stays enrolled. -/
theorem Enrolled.serve (enrolled : Enrolled tx node) (call : Call) (choice : Choice) :
    Enrolled tx (node.serve call choice).1 := by
  by_cases reads : call.reads = true
  · rw [serve_of_reads reads]
    exact enrolled
  cases call with
  | recordFirstInstall =>
    change Enrolled tx (node.recordFirstInstall choice).1
    unfold Node.recordFirstInstall
    split_ifs
    · exact enrolled
    · exact ⟨enrolled.journal, enrolled.started, rfl, enrolled.record⟩
    · exact enrolled
  | activate release => exact enrolled.perform _ _
  | store operation => exact enrolled.perform _ _
  | pin attemptId inputs =>
    change Enrolled tx (node.pin attemptId inputs choice.write).1
    unfold Node.pin
    split_ifs
    · exact enrolled
    · exact ⟨enrolled.journal, enrolled.started, enrolled.marker, enrolled.record⟩
    · exact enrolled
  | removeRecoveryInputs =>
    change Enrolled tx (if choice.write.lands then _ else _)
    split_ifs
    · exact ⟨enrolled.journal, enrolled.started, enrolled.marker, enrolled.record⟩
    · exact enrolled
  | mutate operation invocation =>
    exact ⟨enrolled.journal, enrolled.started, enrolled.marker, enrolled.record⟩
  | becameHealthy invocation =>
    exact ⟨enrolled.journal, enrolled.started, enrolled.marker, enrolled.record⟩
  | _ => exact absurd rfl reads

/-! ## Every process of the agent -/

/-- One process: what its start met, and, if that returned, every call the rest of the agent made
before the process ended. -/
structure Process where
  script : List Choice
  rest : List (Call × Choice)

def Process.run (node : Node) (process : Process) : Node :=
  match startup.play Node.serve node process.script with
  | (.returned _, node) => process.rest.foldl (fun node made => (node.serve made.1 made.2).1) node
  | (_, node) => node

def runProcesses (node : Node) (processes : List Process) : Node :=
  processes.foldl Process.run node

/-- Every start in the run could read the enrollment marker. -/
def StartsReadable (node : Node) : List Process → Prop
  | [] => True
  | process :: rest =>
    startup.Admissible Node.serve MarkerReadable node process.script ∧
      StartsReadable (process.run node) rest

theorem Enrolled.calls (enrolled : Enrolled tx node) (calls : List (Call × Choice)) :
    Enrolled tx (calls.foldl (fun node made => (node.serve made.1 made.2).1) node) := by
  induction calls generalizing node with
  | nil => exact enrolled
  | cons made rest ih => exact ih (enrolled.serve made.1 made.2)

/-- What a process leaves is again a state every start can go on from. -/
theorem Enrollment.run (enrollment : Enrollment node) (process : Process)
    (readable : startup.Admissible Node.serve MarkerReadable node process.script) :
    Enrollment (process.run node) := by
  have ⟨kept, ended⟩ := (ensures_startup enrollment).play process.script readable
  unfold Process.run
  split
  · next installs after played =>
    rw [played] at ended
    have enrolled : ∃ tx, Enrolled tx after := by
      cases installs with
      | true =>
        obtain ⟨tx, installs⟩ := ended
        exact ⟨tx, installs.toEnrolled⟩
      | false => exact ended
    obtain ⟨tx, enrolled⟩ := enrolled
    exact .enrolled tx (enrolled.calls process.rest)
  · next after _ played =>
    rw [played] at kept
    exact kept

theorem Enrollment.runProcesses {processes : List Process} (enrollment : Enrollment node)
    (readable : StartsReadable node processes) : Enrollment (runProcesses node processes) := by
  induction processes generalizing node with
  | nil => exact enrollment
  | cons process rest ih => exact ih (enrollment.run process readable.1) readable.2

omit [Crypto] [Semver] in
theorem Enrollment.started_le (enrollment : Enrollment node) : node.started.length ≤ 1 := by
  cases enrollment with
  | unenrolled fresh => simp [fresh.started]
  | underway tx underway => simp [underway.started]
  | enrolled tx enrolled => simp [enrolled.started]

/-- **The first install is crash-safe.** On a node that starts empty, at every moment of every run
of processes, cut and failing anywhere: the enrollment marker is never consumed without an install
journal or an installed record; a start that installed ends with the pointer, the provisional record
and the marker all of the one transaction that was ever started, and no journal; and no second
install is ever started, whatever the rest of the agent does, rejections included. -/
theorem first_install_crash_safe (fresh : Unenrolled node) (processes : List Process)
    (readable : StartsReadable node processes) (script : List Choice)
    (readableNow : startup.Admissible Node.serve MarkerReadable
      (Agent.runProcesses node processes) script)
    {ending : Program.Ending Exit Bool} {now : Node}
    (played : startup.play Node.serve (Agent.runProcesses node processes) script =
      (ending, now)) :
    (now.history ≠ .missing → now.disk.installJournal ≠ none ∨ now.disk.installed ≠ none) ∧
      (ending = .returned true → ∃ tx, Installs tx now) ∧ now.started.length ≤ 1 := by
  have enrollment := (Enrollment.unenrolled fresh).runProcesses readable
  have ⟨kept, ended⟩ := (ensures_startup enrollment).play script readableNow
  rw [played] at kept ended
  replace kept : Enrollment now := kept
  refine ⟨fun consumed => ?_, fun installs => ?_, kept.started_le⟩
  · cases kept with
    | unenrolled fresh => exact absurd fresh.marker consumed
    | underway tx underway => exact .inl (by simp [underway.journal])
    | enrolled tx enrolled => exact .inr enrolled.record
  · rw [installs] at ended
    exact ended

end Runs

end Updatedc.Agent

namespace Updatedc.Agent.Sample

open Contracts

/-- A node on which nothing was ever installed. -/
def empty : Node :=
  { store := { disk := ⟨none, none, none, none, ∅⟩, rejected := ⟨∅, false⟩ }
    history := .missing
    recoveryInputs := none
    trace := [] }

theorem empty_unenrolled : Unenrolled empty := ⟨rfl, rfl, rfl, rfl⟩

/-- Everything works, and the assignment is release 2. -/
def installing : Choice :=
  { token := .canonical 50, lineage
    acquisition := .prepared (release 2) (.canonical 12) reconciler }

theorem installing_readable {count : Nat} {choice : Choice}
    (member : choice ∈ List.replicate count installing) (node : Node) (call : Call) :
    MarkerReadable node call choice := by
  rw [List.eq_of_mem_replicate member]
  cases call <;> first | rfl | trivial

/-- A process that dies right after it consumed the enrollment, before it committed the record. -/
def cutAfterEnrollment : Process := ⟨List.replicate 13 installing, []⟩

/-- The state that process leaves, and what the next one finds when it has resumed. -/
def interrupted : Node := runProcesses empty [cutAfterEnrollment]

def resumed : Program.Ending Exit Bool × Node :=
  startup.play Node.serve interrupted (List.replicate 8 installing)

theorem first_install_crash_safe_resumed :
    interrupted.history = .present ∧ interrupted.disk.installed = none ∧
      ∃ tx, Installs tx resumed.2 := by
  refine ⟨by decide, by decide, ?_⟩
  have returned : resumed.1 = .returned true := by decide
  have readable : StartsReadable empty [cutAfterEnrollment] :=
    ⟨Program.admissible_of_script _ _ fun _ => installing_readable, trivial⟩
  exact (first_install_crash_safe empty_unenrolled [cutAfterEnrollment] readable _
    (Program.admissible_of_script _ _ fun _ => installing_readable)
    (rfl : resumed = (resumed.1, resumed.2))).2.1 returned

end Updatedc.Agent.Sample
