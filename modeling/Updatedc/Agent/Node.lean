import Updatedc.Lib.Script
import Updatedc.Agent.Evidence

/-!
# The node an agent runs on

The agent is one process that holds the installation lock. Everything it does to its surroundings is
a `Call`: reading and writing the durable files, re-hashing a release tree, invoking the signed
reconciler of a release, asking the control plane for an assignment. A `Node` is what outlives the
process: the files, and (for the theorems) the **trace** of what was done to the machine.

What the surroundings answer is settled by one `Choice` at every call, so that every failed write,
damaged tree, failing hook and changed assignment is a choice, and so is the moment the process
dies (`Program.play`).
-/

namespace Updatedc.Agent

open Contracts

/-! ## Hooks -/

/-- What a successful hook asks of the host. -/
inductive HostAction where
  | none
  | reboot
  deriving DecidableEq

inductive MutationOperation where
  | converge
  | rollback
  deriving DecidableEq

inductive Reason where
  | install
  | restart
  | update
  deriving DecidableEq

structure ReleaseTarget where
  release : ReleaseId
  archiveSha256 : DigestText
  deriving DecidableEq

/-- The authenticated inputs of an assignment: the signed selection and the exact body it commits
to. -/
structure CachedInputs where
  selection : String
  body : String
  deriving DecidableEq

/-- The input files an update pinned before it touched the host. -/
structure RecoveryInputs where
  attemptId : DigestText
  inputs : CachedInputs
  deriving DecidableEq

/-- Which attempt an invocation belongs to: a direction of one transaction, or none. -/
inductive Attempt where
  | boot
  | converge
  | periodic
  | transaction (id : DigestText)
  | compensation (id : DigestText)
  deriving DecidableEq

/-- One invocation of a release's reconciler. -/
structure Invocation where
  reconciler : ReconcilerRelease
  reason : Reason
  attempt : Attempt
  candidate : ReleaseTarget
  predecessor : ReleaseTarget
  inputs : CachedInputs
  deriving DecidableEq

/-- A hook that failed: by the release's own fault, or without a verdict on the release. -/
inductive InvocationFailure where
  | releaseFault (error : IoError)
  | inconclusive (error : IoError)
  deriving DecidableEq

/-- The verdict of a readiness gate. -/
inductive Health where
  | ready
  | unhealthy
  | inconclusive
  deriving DecidableEq

/-! ## Files outside the store -/

/-- The marker that consumes bootstrap eligibility, as read. -/
inductive InstallHistory where
  | present
  | missing
  | invalid
  deriving DecidableEq

/-- What was done to the machine. -/
inductive Event where
  /-- A hook was asked for, and whether it completed. -/
  | mutated (operation : MutationOperation) (invocation : Invocation) (completed : Bool)
  | gated (invocation : Invocation) (health : Health)
  /-- The active pointer was written. -/
  | pointed (before : Option ReleaseId) (release : ReleaseId)
  /-- The update journal was written. -/
  | journaled (before : Option Transaction) (tx : Transaction)
  /-- The first-install journal was written. -/
  | installing (tx : InstallTransaction)
  /-- The installed record was written. -/
  | committed (before : Option InstalledState) (state : InstalledState)
  /-- The inputs of an update were pinned. -/
  | pinned (attemptId : DigestText) (inputs : CachedInputs)
  deriving DecidableEq

structure Node where
  store : Store
  history : InstallHistory
  recoveryInputs : Option RecoveryInputs
  /-- The latest event first. -/
  trace : List Event

namespace Node

abbrev disk (self : Node) : Disk := self.store.disk

/-- The node with other files. -/
def withDisk (self : Node) (disk : Disk) : Node := { self with store := { self.store with disk } }

def log (self : Node) (event : Event) : Node := { self with trace := event :: self.trace }

@[simp] theorem trace_withDisk (self : Node) (disk : Disk) :
    (self.withDisk disk).trace = self.trace := rfl

@[simp] theorem trace_log (self : Node) (event : Event) :
    (self.log event).trace = event :: self.trace := rfl

end Node

/-! ## Calls -/

/-- What re-acquiring or selecting the assigned application came to. -/
inductive Acquisition where
  /-- The assignment holds nothing for this stance. -/
  | nothing
  | failed
  /-- An archive that authenticated but does not expand to a release. -/
  | malformed (archiveSha256 : DigestText)
  | prepared (release : ReleaseId) (archiveSha256 : DigestText) (reconciler : ReconcilerRelease)
  deriving DecidableEq

/-- What the agent asks of its surroundings. -/
inductive Call where
  | readAttention
  | clearStaleInvocationData
  | rebootPending
  | installed
  | journal
  | installJournal
  | activeRelease
  | readInstallHistory
  | recordFirstInstall
  | rejectsDeployment (lineage : RepositoryLineage) (applicationSha256 : DigestText)
  /-- Re-hash a release tree. -/
  | verifyRelease (release : ReleaseId)
  | activate (release : ReleaseId)
  /-- Any other operation of the store. -/
  | store (operation : Operation)
  | pin (attemptId : DigestText) (inputs : CachedInputs)
  | restorePin (attemptId : DigestText)
  | removeRecoveryInputs
  | mutate (operation : MutationOperation) (invocation : Invocation)
  /-- The bounded readiness gate. -/
  | becameHealthy (invocation : Invocation)
  /-- Load the trusted repository of the assignment. -/
  | assigned
  | prepareAssigned (stance : Stance)
  /-- Fetch the inputs of the assignment, or give up on a shutdown. -/
  | acquireInputs (selection : String)
  /-- The assignment's inputs, where they could be resolved. -/
  | reconcileInputs
  /-- Whether a step that failed transiently is retried: time is left and no stop requested. -/
  | retry
  | nowUnix
  | token
  /-- Whether a periodic action of the loop is due. -/
  | due

/-- What each call is answered with. -/
@[reducible] def Call.Answer : Call → Type
  | readAttention => IoResult Bool
  | clearStaleInvocationData => IoResult Unit
  | rebootPending => IoResult Bool
  | installed => IoResult Installed
  | journal => IoResult (Option Transaction)
  | installJournal => IoResult (Option InstallTransaction)
  | activeRelease => IoResult (Option ReleaseId)
  | readInstallHistory => InstallHistory
  | recordFirstInstall => IoResult Unit
  | rejectsDeployment _ _ => Bool
  | verifyRelease _ => IoResult Unit
  | activate _ => IoResult Unit
  | store _ => IoResult Unit
  | pin _ _ => IoResult Unit
  | restorePin _ => IoResult (Option CachedInputs)
  | removeRecoveryInputs => IoResult Unit
  | mutate _ _ => Except InvocationFailure HostAction
  | becameHealthy _ => Health
  | assigned => IoResult RepositoryLineage
  | prepareAssigned _ => Acquisition
  | acquireInputs _ => IoResult (Option CachedInputs)
  | reconcileInputs => IoResult CachedInputs
  | retry => Bool
  | nowUnix => Nat
  | token => IoResult DigestText
  | due => Bool

/-- One choice of the surroundings. A call reads the parts that concern it. -/
structure Choice where
  /-- What the one write of the call does. -/
  write : WriteOutcome := .written
  /-- Whether reading the file, re-hashing the tree or reaching the control plane succeeds. -/
  io : IoResult Unit := .ok ()
  yes : Bool := true
  now : Nat := 1
  token : DigestText := .canonical 0
  lineage : RepositoryLineage := ⟨.canonical 0⟩
  acquisition : Acquisition := .nothing
  inputs : CachedInputs := ⟨"", ""⟩
  mutation : Except InvocationFailure HostAction := .ok .none
  health : Health := .ready

variable {checked : IoResult Unit}

namespace Store

variable [Crypto] [Semver]

/-- An operation with its result. -/
def perform (self : Store) (outcome : WriteOutcome) : Operation → IoResult Unit × Store
  | .reopen =>
    match Store.open self.disk with
    | .ok store => (.ok (), store)
    | .error error => (.error error, self)
  | .commitInstalled state => self.commitInstalled state outcome
  | .proveProvisional =>
    let (result, store) := self.proveProvisional outcome
    (result.map fun _ => (), store)
  | .activate release verified => self.activate release verified outcome
  | .writeJournal tx => self.writeJournal tx outcome
  | .clearJournal => self.clearJournal outcome
  | .writeInstallJournal tx => self.writeInstallJournal tx outcome
  | .clearInstallJournal => self.clearInstallJournal outcome
  | .rejectDeployment lineage sha256 => self.rejectDeployment lineage sha256 outcome
  | .rejectArtifact lineage digest => self.rejectArtifact lineage digest outcome

omit [Crypto] [Semver] in
theorem write_snd (self : Store) {disk : Disk} {outcome : WriteOutcome} :
    (self.write checked disk outcome).2 = self ∨
      (self.write checked disk outcome).2 = { self with disk } := by
  unfold write
  cases checked with
  | error error => exact .inl rfl
  | ok done =>
    cases outcome with
    | lost transient => exact .inl rfl
    | _ => exact .inr rfl

/-- What an operation that wrote its file leaves in the trace. -/
def event? (self : Store) (outcome : WriteOutcome) : Operation → Option Event
  | .commitInstalled state =>
    if self.checkInstalled state = .ok () ∧ outcome.lands = true then
      some (.committed self.disk.installed state)
    else none
  | .activate release verified =>
    if (do release.validate; verified) = .ok () ∧ outcome.lands = true then
      some (.pointed self.disk.active release)
    else none
  | .writeJournal tx =>
    if self.checkJournal tx = .ok () ∧ outcome.lands = true then
      some (.journaled self.disk.journal tx)
    else none
  | .writeInstallJournal tx =>
    if self.checkInstallJournal tx = .ok () ∧ outcome.lands = true then some (.installing tx)
    else none
  | _ => none

end Store

namespace Node

variable [Crypto] [Semver]

def perform (self : Node) (outcome : WriteOutcome) (operation : Operation) :
    Node × IoResult Unit :=
  ({ self with
      store := (self.store.perform outcome operation).2
      trace := (self.store.event? outcome operation).toList ++ self.trace },
    (self.store.perform outcome operation).1)

/-- A read of a file, which may fail. -/
def read {α : Type} (self : Node) (choice : Choice) (result : IoResult α) : Node × IoResult α :=
  (self, do choice.io; result)

def readInstallHistory (self : Node) (choice : Choice) : InstallHistory :=
  if choice.io = .ok () then self.history else .invalid

/-- Consume bootstrap eligibility, once. -/
def recordFirstInstall (self : Node) (choice : Choice) : Node × IoResult Unit :=
  if self.readInstallHistory choice ≠ .missing then
    (self, .error (.raised .alreadyExists
      "this installation has already consumed its bootstrap enrollment"))
  else
    (if choice.write.lands then { self with history := .present } else self, choice.write.result)

/-- Pin the exact files before an update journal can authorize its first mutation. -/
def pin (self : Node) (attemptId : DigestText) (inputs : CachedInputs) (outcome : WriteOutcome) :
    Node × IoResult Unit :=
  if !isToken attemptId then
    (self, .error (.invalidInput "invalid input recovery attempt"))
  else if outcome.lands then
    ({ self with recoveryInputs := some ⟨attemptId, inputs⟩ }.log (.pinned attemptId inputs),
      outcome.result)
  else
    (self, outcome.result)

def restorePin (self : Node) (attemptId : DigestText) : Option CachedInputs :=
  match self.recoveryInputs with
  | none => none
  -- A crash before the journal can leave an unused pin.
  | some record => if record.attemptId ≠ attemptId then none else some record.inputs

def completed (result : Except InvocationFailure HostAction) : Bool :=
  match result with
  | .ok _ => true
  | .error _ => false

/-- **What each call does**, given the choice made. -/
def serve (self : Node) : (call : Call) → Choice → Node × call.Answer
  | .readAttention, choice => self.read choice (.ok choice.yes)
  | .clearStaleInvocationData, choice => self.read choice (.ok ())
  | .rebootPending, choice => self.read choice (.ok choice.yes)
  | .installed, choice => self.read choice (.ok self.store.installed)
  | .journal, choice => self.read choice self.store.journal
  | .installJournal, choice => self.read choice self.store.installJournal
  | .activeRelease, choice => self.read choice self.store.activeRelease
  | .readInstallHistory, choice => (self, self.readInstallHistory choice)
  | .recordFirstInstall, choice => self.recordFirstInstall choice
  | .rejectsDeployment lineage sha256, _ => (self, self.store.rejectsDeployment lineage sha256)
  | .verifyRelease _, choice => (self, choice.io)
  | .activate release, choice => self.perform choice.write (.activate release choice.io)
  | .store operation, choice => self.perform choice.write operation
  | .pin attemptId inputs, choice => self.pin attemptId inputs choice.write
  | .restorePin attemptId, choice => self.read choice (.ok (self.restorePin attemptId))
  | .removeRecoveryInputs, choice =>
    (if choice.write.lands then { self with recoveryInputs := none } else self, choice.write.result)
  | .mutate operation invocation, choice =>
    (self.log (.mutated operation invocation (completed choice.mutation)), choice.mutation)
  | .becameHealthy invocation, choice =>
    (self.log (.gated invocation choice.health), choice.health)
  | .assigned, choice => self.read choice (.ok choice.lineage)
  | .prepareAssigned _, choice => (self, choice.acquisition)
  | .acquireInputs _, choice =>
    self.read choice (.ok (if choice.yes then some choice.inputs else none))
  | .reconcileInputs, choice => self.read choice (.ok choice.inputs)
  | .retry, choice => (self, choice.yes)
  | .nowUnix, choice => (self, choice.now)
  | .token, choice => self.read choice (.ok choice.token)
  | .due, choice => (self, choice.yes)

end Node

/-! ## Programs of the agent -/

/-- Why the process ends with an error. -/
inductive Exit where
  | io (error : IoError)
  | message (text : String)
  /-- `exit_for_relaunch`: the recovery evidence is intact and the service manager restarts boot. -/
  | relaunch (what : String) (cause : Exit)
  deriving DecidableEq

abbrev Prog := Program Call.Answer Exit

def ask (call : Call) : Prog call.Answer := Program.request call

/-- `?` on an `io::Result`. -/
def io {α : Type} (result : IoResult α) : Prog α := Program.ofExcept (result.mapError .io)

/-- One call of the store, its failure propagated. -/
def perform (operation : Operation) : Prog Unit := do
  io (← ask (.store operation))

def activate (release : ReleaseId) : Prog Unit := do
  io (← ask (.activate release))

def readInstalled : Prog Installed := do
  io (← ask .installed)

def readJournal : Prog (Option Transaction) := do
  io (← ask .journal)

/-! ## Rules -/

section Rules

variable [Crypto] [Semver] {allowed : Node → Call → Choice → Prop} {crash : Node → Prop}
  {node : Node}

/-- The surroundings of an agent. -/
abbrev surroundings (allowed : Node → Call → Choice → Prop) : Env Node Call.Answer :=
  Program.chosen Node.serve allowed

/-- A call that leaves the node as it is. -/
def Call.reads : Call → Bool
  | recordFirstInstall | activate _ | store _ | pin _ _ | removeRecoveryInputs | mutate _ _
  | becameHealthy _ => false
  | _ => true

theorem serve_of_reads {call : Call} (reads : call.reads = true) (choice : Choice) :
    (node.serve call choice).1 = node := by
  cases call <;> first | rfl | cases reads

variable {fail : Exit → Node → Prop} {post : Unit → Node → Prop}

theorem ensures_io {α : Type} {result : IoResult α} {post : α → Node → Prop} (here : crash node)
    (ok : ∀ a, result = .ok a → post a node) (failed : ∀ e, result = .error e → fail (.io e) node) :
    (io result).Ensures (surroundings allowed) crash post fail node := by
  unfold io
  cases result with
  | ok a => exact ⟨here, ok a rfl⟩
  | error e => exact ⟨here, failed e rfl⟩

/-- A call that only reads goes on with any answer it may get. -/
theorem ensures_reads {call : Call} {post : call.Answer → Node → Prop} (reads : call.reads = true)
    (here : crash node)
    (answered : ∀ choice, allowed node call choice → post (node.serve call choice).2 node) :
    (ask call).Ensures (surroundings allowed) crash post fail node := by
  refine ⟨here, ?_⟩
  rintro next answer ⟨choice, fine, served⟩
  have same : next = node := (congrArg Prod.fst served).symm.trans (serve_of_reads reads choice)
  subst same
  refine ⟨here, ?_⟩
  rw [show answer = (next.serve call choice).2 from (congrArg Prod.snd served).symm]
  exact answered choice fine

omit [Crypto] [Semver] in
theorem read_ok {α : Type} {choice : Choice} {result : IoResult α} {a : α}
    (ok : (node.read choice result).2 = .ok a) : result = .ok a := by
  obtain ⟨_, -, ok⟩ := Except.bind_ok_iff.mp ok
  exact ok

/-- A read whose failure is propagated goes on with what is on disk. -/
theorem ensures_readInstalled {post : Installed → Node → Prop} (here : crash node)
    (found : post node.store.installed node) (failed : ∀ e, fail e node) :
    readInstalled.Ensures (surroundings allowed) crash post fail node := by
  refine Program.ensures_bind.mpr (ensures_reads rfl here fun choice _ => ?_)
  refine ensures_io here (fun a ok => ?_) fun e _ => failed _
  rw [← Except.ok.inj (read_ok ok)]
  exact found

theorem ensures_readJournal {post : Option Transaction → Node → Prop} (here : crash node)
    (found : post node.disk.journal node) (failed : ∀ e, fail e node) :
    readJournal.Ensures (surroundings allowed) crash post fail node := by
  refine Program.ensures_bind.mpr (ensures_reads rfl here fun choice _ => ?_)
  refine ensures_io here (fun a ok => ?_) fun e _ => failed _
  rw [Store.eq_of_journal_ok (read_ok ok)]
  exact found

/-! ### Writes -/

namespace Node

def committing (self : Node) (state : InstalledState) : Node :=
  (self.withDisk { self.disk with installed := some state }).log
    (.committed self.disk.installed state)

def pointing (self : Node) (release : ReleaseId) : Node :=
  (self.withDisk { self.disk with active := some release }).log (.pointed self.disk.active release)

def journaling (self : Node) (tx : Transaction) : Node :=
  (self.withDisk { self.disk with journal := some tx }).log (.journaled self.disk.journal tx)

def clearing (self : Node) : Node := self.withDisk { self.disk with journal := none }

def installing (self : Node) (tx : InstallTransaction) : Node :=
  (self.withDisk { self.disk with installJournal := some tx }).log (.installing tx)

def clearingInstall (self : Node) : Node :=
  self.withDisk { self.disk with installJournal := none }

/-- What a checked write of one file can do: nothing, or leave `next`. It reports success only when
it left `next`. -/
def Writes (self : Node) (operation : Operation) (checked : IoResult Unit) (next : Node) : Prop :=
  ∀ outcome, (∃ error, self.perform outcome operation = (self, .error error)) ∨
    checked = .ok () ∧ outcome.lands = true ∧
      self.perform outcome operation = (next, outcome.result)

/-- One argument for every checked write: the store and the trace change together. -/
theorem writes_of (self : Node) {operation : Operation} {disk : Disk} (events : List Event)
    (performs : ∀ outcome, self.store.perform outcome operation =
      self.store.write checked disk outcome)
    (traced : ∀ outcome, (self.store.event? outcome operation).toList =
      if checked = .ok () ∧ outcome.lands = true then events else []) :
    Writes self operation checked
      { self with store := { self.store with disk }, trace := events ++ self.trace } := by
  intro outcome
  unfold perform
  rw [performs, traced]
  unfold Store.write
  cases checked with
  | error e => exact .inl ⟨e, rfl⟩
  | ok done =>
    cases outcome with
    | written => exact .inr ⟨rfl, rfl, rfl⟩
    | lost transient => exact .inl ⟨.os transient, rfl⟩
    | unsynced transient => exact .inr ⟨rfl, rfl, rfl⟩

variable {self : Node}

theorem writes_commitInstalled (state : InstalledState) :
    self.Writes (.commitInstalled state) (self.store.checkInstalled state)
      (self.committing state) :=
  writes_of self [.committed self.disk.installed state] (fun _ => rfl) fun outcome => by
    simp only [Store.event?]
    split_ifs <;> rfl

theorem writes_activate (release : ReleaseId) (verified : IoResult Unit) :
    self.Writes (.activate release verified) (do release.validate; verified)
      (self.pointing release) :=
  writes_of self [.pointed self.disk.active release] (fun _ => rfl) fun outcome => by
    simp only [Store.event?]
    split_ifs <;> rfl

theorem writes_writeJournal (tx : Transaction) :
    self.Writes (.writeJournal tx) (self.store.checkJournal tx) (self.journaling tx) :=
  writes_of self [.journaled self.disk.journal tx] (fun _ => rfl) fun outcome => by
    simp only [Store.event?]
    split_ifs <;> rfl

theorem writes_clearJournal :
    self.Writes .clearJournal self.store.checkClearJournal self.clearing :=
  writes_of self [] (fun _ => rfl) fun outcome => by
    simp only [Store.event?]
    split_ifs <;> rfl

theorem writes_writeInstallJournal (tx : InstallTransaction) :
    self.Writes (.writeInstallJournal tx) (self.store.checkInstallJournal tx)
      (self.installing tx) :=
  writes_of self [.installing tx] (fun _ => rfl) fun outcome => by
    simp only [Store.event?]
    split_ifs <;> rfl

theorem writes_clearInstallJournal :
    self.Writes .clearInstallJournal self.store.checkClearInstallJournal self.clearingInstall :=
  writes_of self [] (fun _ => rfl) fun outcome => by
    simp only [Store.event?]
    split_ifs <;> rfl

end Node

/-- The rule of a checked write whose failure ends the process. -/
theorem Node.Writes.ensures {operation : Operation} {next : Node}
    (writes : node.Writes operation checked next) (here : crash node)
    (landed : checked = .ok () → crash next ∧ post () next) :
    (Agent.perform operation).Ensures (surroundings allowed) crash post (fun _ _ => True) node := by
  refine Program.ensures_bind.mpr ⟨here, ?_⟩
  rintro after answer ⟨choice, -, served⟩
  rcases writes choice.write with ⟨error, performed⟩ | ⟨ok, -, performed⟩
  · obtain ⟨rfl, rfl⟩ := Prod.mk.inj (performed.symm.trans served)
    exact ⟨here, here, trivial⟩
  · obtain ⟨rfl, rfl⟩ := Prod.mk.inj (performed.symm.trans served)
    exact ⟨(landed ok).1, ensures_io (landed ok).1 (fun _ _ => (landed ok).2) fun _ _ => trivial⟩

/-- The two operations that record a rejection. -/
inductive Operation.Rejects : Operation → Prop
  | deployment (lineage : RepositoryLineage) (applicationSha256 : DigestText) :
      Rejects (.rejectDeployment lineage applicationSha256)
  | artifact (lineage : RepositoryLineage) (digest : DigestText) :
      Rejects (.rejectArtifact lineage digest)

/-- The same node with other rejections. -/
def Node.withRejections (self : Node) (file : Finset RejectionKey) (rejected : Rejections) : Node :=
  { self with store := { disk := { self.disk with rejected := file }, rejected } }

theorem Node.perform_of_rejects (node : Node) {operation : Operation} (rejects : operation.Rejects)
    (outcome : WriteOutcome) :
    ∃ file rejected, (node.perform outcome operation).1 = node.withRejections file rejected := by
  have recorded : ∀ lineage digest, ∃ file rejected,
      (node.store.recordRejection lineage digest outcome).2 =
        { disk := { node.disk with rejected := file }, rejected } := by
    intro lineage digest
    unfold Store.recordRejection
    split
    · exact ⟨_, _, rfl⟩
    · exact ⟨_, _, rfl⟩
  have lifted : ∀ {store : Store} {file rejected}, store =
      { disk := { node.disk with rejected := file }, rejected } →
        ({ node with store } : Node) = node.withRejections file rejected := by
    rintro _ _ _ rfl
    rfl
  cases rejects with
  | artifact lineage digest =>
    obtain ⟨file, rejected, same⟩ := recorded lineage digest
    exact ⟨file, rejected, lifted same⟩
  | deployment lineage sha256 =>
    cases named : deploymentRejectionSha256 sha256 with
    | none =>
      refine ⟨node.disk.rejected, node.store.rejected, lifted ?_⟩
      change (node.store.rejectDeployment lineage sha256 outcome).2 = node.store
      simp only [Store.rejectDeployment, named]
    | some digest =>
      obtain ⟨file, rejected, same⟩ := recorded lineage digest
      refine ⟨file, rejected, lifted ?_⟩
      change (node.store.rejectDeployment lineage sha256 outcome).2 = _
      simpa only [Store.rejectDeployment, named] using same

/-- Recording a rejection changes nothing but the rejections. -/
theorem ensures_reject {operation : Operation} (rejects : operation.Rejects) (here : crash node)
    (recorded : ∀ file rejected, crash (node.withRejections file rejected) ∧
      post () (node.withRejections file rejected)) :
    (Agent.perform operation).Ensures (surroundings allowed) crash post (fun _ _ => True) node := by
  refine Program.ensures_bind.mpr ⟨here, ?_⟩
  rintro after answer ⟨choice, -, served⟩
  obtain ⟨file, rejected, same⟩ := node.perform_of_rejects rejects choice.write
  have next : after = node.withRejections file rejected :=
    (congrArg Prod.fst served).symm.trans same
  rw [next]
  have ⟨kept, done⟩ := recorded file rejected
  exact ⟨kept, ensures_io kept (fun _ _ => done) fun _ _ => trivial⟩

/-- The same node with other rejections in memory. -/
def Node.withRejected (self : Node) (rejected : Rejections) : Node :=
  { self with store := { self.store with rejected } }

theorem Node.perform_reopen (node : Node) (outcome : WriteOutcome) :
    ∃ rejected, (node.perform outcome .reopen).1 = node.withRejected rejected := by
  unfold Node.perform Store.perform Store.open
  cases Rejections.load node.store.disk.rejected with
  | ok rejected => exact ⟨rejected, rfl⟩
  | error error => exact ⟨node.store.rejected, rfl⟩

/-- A new process reads the rejections anew. -/
theorem ensures_reopen (here : crash node)
    (reopened : ∀ rejected, crash (node.withRejected rejected) ∧
      post () (node.withRejected rejected)) :
    (Agent.perform .reopen).Ensures (surroundings allowed) crash post (fun _ _ => True) node := by
  refine Program.ensures_bind.mpr ⟨here, ?_⟩
  rintro after answer ⟨choice, -, served⟩
  obtain ⟨rejected, same⟩ := node.perform_reopen choice.write
  have next : after = node.withRejected rejected := (congrArg Prod.fst served).symm.trans same
  rw [next]
  have ⟨kept, done⟩ := reopened rejected
  exact ⟨kept, ensures_io kept (fun _ _ => done) fun _ _ => trivial⟩

/-- Pointing at a release whose tree was re-hashed. -/
theorem ensures_activate {release : ReleaseId} (here : crash node)
    (landed : release.validate = .ok () →
      crash (node.pointing release) ∧ post () (node.pointing release)) :
    (Agent.activate release).Ensures (surroundings allowed) crash post (fun _ _ => True) node := by
  refine Program.ensures_bind.mpr ⟨here, ?_⟩
  rintro after answer ⟨choice, -, served⟩
  rcases Node.writes_activate release choice.io choice.write with
    ⟨error, performed⟩ | ⟨ok, -, performed⟩
  · obtain ⟨rfl, rfl⟩ := Prod.mk.inj (performed.symm.trans served)
    exact ⟨here, here, trivial⟩
  · obtain ⟨rfl, rfl⟩ := Prod.mk.inj (performed.symm.trans served)
    obtain ⟨_, valid, -⟩ := Except.bind_ok_iff.mp ok
    exact ⟨(landed valid).1,
      ensures_io (landed valid).1 (fun _ _ => (landed valid).2) fun _ _ => trivial⟩

end Rules

end Updatedc.Agent
