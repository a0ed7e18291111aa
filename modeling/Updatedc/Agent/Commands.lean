import Updatedc.Crates
import Updatedc.Agent.Node

/-!
# The command adapter (`updated/src/command_adapter.rs`)

A package may wrap an existing deployment procedure: a command that deploys, one that recovers, and
how far either may be repeated. Each invocation of the adapter for a payload is one process. What
outlives it is one **receipt** per operation, rewritten by launches, by holds that ask for an
operator, by completion checks and by the operator's decisions (`resolve`).

As for the agent, everything a process does is a `Call`, answered by one `Choice`, and the trace
records what was done. The payload's configuration and its digest never change, so they are
parameters; the result and output files of one invocation are only its answer to the agent.
-/

namespace Updatedc.Agent.Command

open Contracts

/-! ## Configuration -/

structure Procedure where
  argv : List String
  timeoutSeconds : Nat
  deriving DecidableEq

/-- How far a command may be repeated when its outcome is in doubt. -/
inductive Replay where
  | safe
  | check (command : Procedure)
  | manual
  deriving DecidableEq

inductive Recovery where
  | manual
  | command (command : Procedure) (replay : Replay)
  deriving DecidableEq

structure Config where
  deploy : Procedure
  health : Option Procedure
  inspect : Option Procedure
  replay : Replay
  recovery : Recovery
  deriving DecidableEq

/-- The replay policy of an operation's command, where it has one. -/
def Config.replayOf (self : Config) : MutationOperation → Option Replay
  | .converge => some self.replay
  | .rollback =>
    match self.recovery with
    | .manual => none
    | .command _ replay => some replay

/-! ## Attempts -/

/-- `str::strip_suffix('r')`. -/
def stripSuffix (id : String) : Option String :=
  if id.toList.getLast? = some 'r' then some (String.ofList id.toList.dropLast) else none

/-- `str::trim_end_matches('r')`. -/
def trimEnd (id : String) : String :=
  String.ofList (id.toList.reverse.dropWhile (· == 'r')).reverse

def validateMutation (operation : MutationOperation) (reason : Reason) (id : String) :
    Except String Unit :=
  let accepted := match operation, reason with
    | .converge, .install => id == "boot"
    | .converge, .restart => id == "boot" || id == "converge"
    | .converge, .update => Contracts.Attempt.isTransactionInvocation id
    | .rollback, .update => Contracts.Attempt.isCompensation id
    | .rollback, .install | .rollback, .restart => false
  if accepted then .ok ()
  else .error "invalid mutation operation, reason, and attempt combination"

/-! ## Receipts -/

inductive Phase where
  | ready
  | running
  | complete
  | failed
  | needsAttention
  deriving DecidableEq

/-- `MutationResolution`: what a command's result document says. -/
inductive Resolution where
  | succeeded (changed : Bool) (hostAction : HostAction) (message : Option String)
  | retry (afterSeconds : Nat) (message : Option String)
  | needsAttention (message : String)
  deriving DecidableEq

def Resolution.isSucceeded : Resolution → Bool
  | succeeded _ _ _ => true
  | retry _ _ | needsAttention _ => false

/-- What a completed command left: its result, its outputs and the boot it ran in. -/
structure Completion where
  result : Resolution
  outputs : FileSnapshot
  bootId : DigestText
  deriving DecidableEq

structure Receipt where
  definition : DigestText
  inputsSha256 : DigestText
  attempt : String
  transaction : Option String
  phase : Phase
  message : String
  exitCode : Option Int
  completion : Option Completion
  deriving DecidableEq

/-- A routine repair must not erase the transaction still protected by its confirmation window. -/
def transactionIdentity (prior : Option Receipt) (attempt : String) : Option String :=
  if Contracts.Attempt.isReserved attempt then prior.bind (·.transaction)
  else some (trimEnd attempt)

/-- The hold an operator decides about. -/
structure Hold where
  operation : MutationOperation
  attempt : String
  deriving DecidableEq

inductive Decision where
  | retry
  | complete
  | recovered
  deriving DecidableEq

def Decision.text : Decision → String
  | retry => "retry"
  | complete => "complete"
  | recovered => "recovered"

def Decision.phase : Decision → Phase
  | retry => .ready
  | complete | recovered => .complete

section
variable [Crates]

def Receipt.validateRecord (self : Receipt) : IoResult Unit :=
  if !self.definition.isCanonical || !self.inputsSha256.isCanonical
      || !(Contracts.Attempt.isReserved self.attempt
        || Contracts.Attempt.isTransactionInvocation self.attempt)
      || self.transaction.any (!isCanonicalSha256 ·)
      || (!Contracts.Attempt.isReserved self.attempt
        && self.transaction != some (trimEnd self.attempt))
      || self.message.utf8ByteSize > maxResultMessageBytes then
    .error (.invalidData "invalid execution receipt identity")
  else
    match self.completion with
    | none => .ok ()
    | some completion =>
      if self.phase ≠ .complete || !completion.result.isSucceeded
          || !completion.bootId.isCanonical then
        .error (.invalidData "invalid completed execution evidence")
      else completion.outputs.validate.mapError .invalidData

end

/-! ## What outlives a process -/

/-- What was done, for one payload. -/
inductive Event where
  /-- An invocation took the lock. -/
  | invoked (operation : MutationOperation) (attempt : String)
  /-- A receipt was written. -/
  | wrote (operation : MutationOperation) (receipt : Receipt)
  /-- A command was started, with these inputs. -/
  | launched (operation : MutationOperation) (attempt : String) (inputs : DigestText)
  /-- A started command exited with code 0 and left this result. -/
  | finished (operation : MutationOperation) (attempt : String) (result : Resolution)
  /-- The completion check of a command ran and exited. -/
  | checked (operation : MutationOperation) (attempt : String) (exit : Option Int)
  /-- An operator's decision was recorded in a receipt. -/
  | decided (operation : MutationOperation) (receipt : Receipt) (decision : Decision)
  /-- A result was published to the agent. -/
  | reported (operation : MutationOperation) (attempt : String) (result : Resolution)
  deriving DecidableEq

structure Records where
  converge : Option Receipt := none
  rollback : Option Receipt := none
  /-- The latest event first. -/
  trace : List Event := []

namespace Records

def receipt (self : Records) : MutationOperation → Option Receipt
  | .converge => self.converge
  | .rollback => self.rollback

def set (self : Records) (operation : MutationOperation) (receipt : Receipt) : Records :=
  match operation with
  | .converge => { self with converge := some receipt }
  | .rollback => { self with rollback := some receipt }

def log (self : Records) (event : Event) : Records := { self with trace := event :: self.trace }

end Records

/-! ## Calls -/

inductive Observation where
  | healthcheck
  | inspect
  deriving DecidableEq

/-- Taking the lock on the application's commands. -/
inductive Lock where
  | acquired
  | wouldBlock
  | failed (error : IoError)
  deriving DecidableEq

/-- How a started command ended. -/
inductive Outcome where
  | exited (code : Option Int)
  | timedOut
  | failed (error : String)
  deriving DecidableEq

inductive Call where
  | lock (operation : MutationOperation) (attempt : String)
  | read (operation : MutationOperation)
  | write (operation : MutationOperation) (receipt : Receipt)
  | inputsDigest
  | bootIdentity
  /-- Run an observing command. -/
  | observeCommand (command : Procedure) (observation : Observation)
  /-- Run the completion check of an operation's command. -/
  | check (command : Procedure) (operation : MutationOperation) (attempt : String)
  | launch (command : Procedure) (operation : MutationOperation) (attempt : String)
      (inputs : DigestText)
  /-- Read back what a command that exited with code 0 left. -/
  | capture (operation : MutationOperation) (attempt : String)
  | writeOutput (name : String) (value : FileValue)
  | publish (operation : MutationOperation) (attempt : String) (result : Resolution)
  | readHold
  /-- Write a receipt with an operator's decision. -/
  | decide (operation : MutationOperation) (receipt : Receipt) (decision : Decision)
  | removeHold

@[reducible] def Call.Answer : Call → Type
  | lock _ _ => Lock
  | read _ => IoResult (Option Receipt)
  | write _ _ => IoResult Unit
  | inputsDigest => IoResult DigestText
  | bootIdentity => IoResult DigestText
  | observeCommand _ _ => IoResult (Option Int)
  | check _ _ _ => IoResult (Option Int)
  | launch _ _ _ _ => Outcome
  | capture _ _ => IoResult Completion
  | writeOutput _ _ => IoResult Unit
  | publish _ _ _ => IoResult Unit
  | readHold => IoResult (Option Hold)
  | decide _ _ _ => IoResult Unit
  | removeHold => IoResult Unit

/-- One choice of the surroundings. A call reads the parts that concern it. -/
structure Choice where
  lock : Lock := .acquired
  io : IoResult Unit := .ok ()
  write : WriteOutcome := .written
  inputs : DigestText := .canonical 0
  bootId : DigestText := .canonical 0
  exit : Option Int := some 0
  outcome : Outcome := .exited (some 0)
  completion : Completion := ⟨.succeeded true .none none, {}, .canonical 0⟩
  hold : Option Hold := none

namespace Records

variable [Crates]

/-- A durable write of a checked receipt, and what it leaves in the trace. -/
def store (self : Records) (operation : MutationOperation) (receipt : Receipt) (event : Event)
    (outcome : WriteOutcome) : Records × IoResult Unit :=
  match receipt.validateRecord with
  | .error error => (self, .error error)
  | .ok () =>
    (if outcome.lands then (self.set operation receipt).log event else self, outcome.result)

/-- What is read back is checked again. -/
def load (self : Records) (operation : MutationOperation) : IoResult (Option Receipt) :=
  match self.receipt operation with
  | none => .ok none
  | some receipt => receipt.validateRecord.map fun _ => some receipt

/-- **What each call does**, given the choice made. -/
def serve (self : Records) : (call : Call) → Choice → Records × call.Answer
  | .lock operation attempt, choice =>
    (if choice.lock = .acquired then self.log (.invoked operation attempt) else self, choice.lock)
  | .read operation, choice => (self, do choice.io; self.load operation)
  | .write operation receipt, choice =>
    self.store operation receipt (.wrote operation receipt) choice.write
  | .inputsDigest, choice => (self, do choice.io; return choice.inputs)
  | .bootIdentity, choice => (self, do choice.io; return choice.bootId)
  | .observeCommand _ _, choice => (self, do choice.io; return choice.exit)
  | .check _ operation attempt, choice =>
    match choice.io with
    | .error error => (self, .error error)
    | .ok () => (self.log (.checked operation attempt choice.exit), .ok choice.exit)
  | .launch _ operation attempt inputs, choice =>
    (self.log (.launched operation attempt inputs), choice.outcome)
  | .capture operation attempt, choice =>
    match choice.io with
    | .error error => (self, .error error)
    | .ok () =>
      (self.log (.finished operation attempt choice.completion.result), .ok choice.completion)
  | .writeOutput _ _, choice => (self, choice.io)
  | .publish operation attempt result, choice =>
    (if choice.write.lands then self.log (.reported operation attempt result) else self,
      choice.write.result)
  | .readHold, choice => (self, do choice.io; return choice.hold)
  | .decide operation receipt decision, choice =>
    self.store operation receipt (.decided operation receipt decision) choice.write
  | .removeHold, choice => (self, choice.write.result)

end Records

/-! ## One invocation -/

abbrev Prog := Program Call.Answer IoError

def ask (call : Call) : Prog call.Answer := Program.request call

/-- `?` on an `io::Result`. -/
def io {α : Type} (result : IoResult α) : Prog α := Program.ofExcept result

def read (operation : MutationOperation) : Prog (Option Receipt) := do
  io (← ask (.read operation))

def write (operation : MutationOperation) (receipt : Receipt) : Prog Unit := do
  io (← ask (.write operation receipt))

def inputsDigest : Prog DigestText := do
  io (← ask .inputsDigest)

section
variable (config : Config) (definition : DigestText) (operation : MutationOperation)
  (attempt : String)

def publish (result : Resolution) : Prog Unit := do
  io (← ask (.publish operation attempt result))

def success (changed : Bool) : Prog Unit :=
  publish operation attempt (.succeeded changed .none none)

/-- Hold the command for an operator. -/
def attention (message : String) : Prog Unit := do
  let previous ← read operation
  let exitCode := previous.bind (·.exitCode)
  let transaction := transactionIdentity previous attempt
  let inputsSha256 ← match previous with
    | some receipt => pure receipt.inputsSha256
    | none => inputsDigest
  write operation
    { transaction, definition, inputsSha256, attempt, phase := .needsAttention, message, exitCode
      completion := none }
  publish operation attempt (.needsAttention message)

/-- A probe of the application, or the receipt where there is none. -/
def observe : Prog Bool :=
  match config.health with
  | some health => do
    return (← io (← ask (.observeCommand health .healthcheck))) == some 0
  | none => do
    let receipt ← read .converge
    return receipt.any fun receipt =>
      receipt.phase == .complete && receipt.definition == definition

section
variable [Crates]

def Completion.replay (self : Completion) : Prog Unit := do
  io (self.outputs.validate.mapError .invalidData)
  self.outputs.files.toList.forM fun (name, value) => do
    let _ ← io (value.bytes.mapError .invalidData)
    io (← ask (.writeOutput name value))
  match self.result with
  | .succeeded _ hostAction message => do
    let bootId ← io (← ask .bootIdentity)
    publish operation attempt
      (.succeeded false (if self.bootId = bootId then hostAction else .none) message)
  | _ => throw (.invalidData "completed execution has a non-successful result")

/-- An operator-verified completion has no invented outputs. -/
def replayCompletion (receipt : Option Receipt) : Prog Unit :=
  match receipt.bind (·.completion) with
  | some completion => completion.replay operation attempt
  | none => success operation attempt false

end

/-- What a finished command asked for. -/
def settle (receipt : Receipt) : Outcome → Prog Unit
  | .exited (some 0) => do
    let completion ← io (← ask (.capture operation attempt))
    match completion.result with
    | .succeeded _ _ _ => do
      write operation
        { receipt with
          phase := .complete, exitCode := some 0, message := "command completed"
          completion := some completion }
      publish operation attempt completion.result
    | .retry _ _ => do
      write operation { receipt with phase := .ready, message := "command requested retry" }
      publish operation attempt completion.result
    | .needsAttention message => attention definition operation attempt message
  | outcome => do
    let exitCode := match outcome with
      | .exited code => code
      | _ => none
    let message := match outcome with
      | .exited _ => "command failed"
      | .timedOut => "command deadline exceeded"
      | .failed error => s!"command failed: {error}"
    write operation { receipt with phase := .failed, exitCode, message }
    match operation with
    | .rollback =>
      attention definition operation attempt s!"recovery {message}; operator attention required"
    | .converge =>
      let detail := match exitCode with
        | some code => s!"{message} (exit {code})"
        | none => message
      throw (.raised .other s!"deployment {detail}")

/-- Authorize the command durably, then start it. -/
def execute (prior : Option Receipt) (inputsSha256 : DigestText) (command : Procedure) :
    Prog Unit := do
  let receipt : Receipt :=
    { transaction := transactionIdentity prior attempt, definition, inputsSha256, attempt
      phase := .running, message := "command started", exitCode := none, completion := none }
  -- Must survive a kill between spawn and command completion.
  write operation receipt
  let outcome ← ask (.launch command operation attempt inputsSha256)
  settle definition operation attempt receipt outcome

/-- Whether running the command might repeat it without authority. -/
def uncertain (prior : Option Receipt) (inputsSha256 : DigestText) : Bool :=
  let inputsChanged := prior.any fun receipt => receipt.inputsSha256 != inputsSha256
  prior.any (fun receipt =>
      receipt.phase != .ready && !(receipt.phase == .complete && inputsChanged))
    && (prior.any (fun receipt => receipt.attempt == attempt)
      || Contracts.Attempt.isReserved attempt
      || prior.any fun receipt => receipt.phase != .complete)

/-- Run the command, or find out whether it may be run. -/
def authorize (prior : Option Receipt) (inputsSha256 : DigestText) (command : Procedure)
    (replay : Replay) : Prog Unit :=
  if uncertain attempt prior inputsSha256 then
    match replay with
    | .safe => execute definition operation attempt prior inputsSha256 command
    | .manual =>
      attention definition operation attempt "repeating the deployment command is not authorized"
    | .check check => do
      match ← ask (.check check operation attempt) with
      | .ok (some 0) => do
        write operation
          { transaction := transactionIdentity prior attempt, definition, inputsSha256, attempt
            phase := .complete, message := "completion verified", exitCode := some 0
            completion := none }
        success operation attempt false
      -- The application explicitly proves repeating is safe.
      | .ok (some 10) => execute definition operation attempt prior inputsSha256 command
      | _ =>
        attention definition operation attempt
          "completion check could not prove completion or safe repetition"
  else execute definition operation attempt prior inputsSha256 command

variable [Crates]

def runConverge (prior : Option Receipt) (inputsSha256 : DigestText) : Prog Unit := do
  let settled := prior.any fun receipt =>
    receipt.phase == .complete && receipt.inputsSha256 == inputsSha256
      && (receipt.attempt == attempt || Contracts.Attempt.isReserved attempt)
  -- A receipt is evidence of a finished command, not proof of current application health.
  let ready ← if settled then observe config definition else pure false
  if ready then replayCompletion .converge attempt prior
  else authorize definition .converge attempt prior inputsSha256 config.deploy config.replay

def runRollback (prior : Option Receipt) (inputsSha256 : DigestText) : Prog Unit :=
  if prior.any fun receipt => receipt.attempt == attempt && receipt.phase == .complete then
    replayCompletion .rollback attempt prior
  else do
    let forward ← read .converge
    if forward.any fun receipt => receipt.definition != definition then
      throw (.invalidData "recovery receipt does not match its immutable definition")
    else if forward.all fun receipt => receipt.transaction != stripSuffix attempt then
      -- This transaction never authorized a deployment command.
      success .rollback attempt false
    else if forward.any fun receipt => receipt.phase == .needsAttention then
      attention definition .rollback attempt
        "deployment outcome is unknown; automatic recovery is paused"
    else
      match config.recovery with
      | .command command replay =>
        authorize definition .rollback attempt prior inputsSha256 command replay
      | .manual =>
        attention definition .rollback attempt "deployment requires operator-managed recovery"

/-- `run`, once it holds the lock. -/
def runLocked : Prog Unit := do
  let prior ← read operation
  if prior.any fun receipt => receipt.definition != definition then
    throw (.invalidData "deployment receipt does not match its immutable definition")
  else if operation = .converge && Contracts.Attempt.isCompensation attempt then
    -- The candidate's recovery command owns restoration; the predecessor's evidence is replayed.
    replayCompletion operation attempt prior
  else do
    let inputsSha256 ← inputsDigest
    if prior.any fun receipt => receipt.inputsSha256 != inputsSha256
        && !(receipt.phase == .complete || receipt.phase == .ready) then
      attention definition operation attempt
        "assigned inputs changed while command completion is uncertain"
    else if prior.any fun receipt => receipt.phase == .needsAttention then
      attention definition operation attempt "this command requires an explicit operator decision"
    else
      match operation with
      | .converge => runConverge config definition attempt prior inputsSha256
      | .rollback => runRollback config definition attempt prior inputsSha256

/-- A mutating invocation. -/
def run : Prog Unit := do
  match ← ask (.lock operation attempt) with
  | .wouldBlock =>
    publish operation attempt (.retry 1 (some "another command owns this application"))
  | .failed error => throw error
  | .acquired => runLocked config definition operation attempt

end

/-- An observing invocation, which takes no lock and writes no receipt. -/
def runObservation (config : Config) (definition : DigestText) (observation : Observation) :
    Prog Unit := do
  if !(← observe config definition) then throw (.raised .other "health command failed")
  else
    match observation, config.inspect with
    | .inspect, some inspect => do
      if (← io (← ask (.observeCommand inspect .inspect))) == some 0 then return ()
      else throw (.raised .other "inspection failed")
    | _, _ => return ()

/-! ## The operator -/

/-- Let recovery go on where the operator decided about it. -/
def releaseForward (forward : String) : Prog Unit := do
  match ← read .converge with
  | some receipt =>
    if receipt.attempt == forward && receipt.phase == .needsAttention then
      write .converge
        { receipt with phase := .failed, message := "operator authorized recovery decision" }
    else return ()
  | none => return ()

/-- Record a decision. Everything is validated before the first write, and repeating the decision
after a crash completes the remaining writes and clears the hold last. -/
def resolve (decision : Decision) : Prog Unit := do
  match ← io (← ask .readHold) with
  | none => throw (.invalidData "this installation has no attention hold")
  | some hold => do
    match ← read hold.operation with
    | none => throw (.invalidData "this hold has no command adapter receipt")
    | some receipt => do
      let message := s!"operator decision: {decision.text}"
      if receipt.attempt != hold.attempt || !(receipt.phase == .needsAttention
          || (receipt.phase == decision.phase && receipt.message == message)) then
        throw (.invalidData
          "attention hold does not match the command receipt or recorded decision")
      else
        let forward := (stripSuffix hold.attempt).getD hold.attempt
        if decision = .recovered && !isCanonicalSha256 forward then
          throw (.invalidData "recovered applies only to a transaction")
        else do
          let receipt := { receipt with message, phase := decision.phase }
          io (← ask (.decide hold.operation receipt decision))
          if decision = .recovered then
            io (← ask (.decide .rollback { receipt with attempt := forward ++ "r" } decision))
          else if hold.operation = .rollback then releaseForward forward
          else pure ()
          io (← ask .removeHold)

/-! ## Histories -/

/-- What is run against the records: an invocation that dispatch accepts, or the operator. -/
inductive Action where
  | mutate (operation : MutationOperation) (reason : Reason) (attempt : String)
  | observe (observation : Observation)
  | resolve (decision : Decision)

section
variable [Crates] (config : Config) (definition : DigestText)

/-- `dispatch`, with the definition the transaction expects already compared. -/
def Action.program : Action → Prog Unit
  | mutate operation reason attempt => do
    io ((validateMutation operation reason attempt).mapError .invalidData)
    run config definition operation attempt
  | observe observation => runObservation config definition observation
  | resolve decision => Command.resolve decision

/-- A history of processes, each along its own script and dead where that ends. -/
def history (records : Records) : List (Action × List Choice) → Records
  | [] => records
  | (action, script) :: rest =>
    history ((action.program config definition).play Records.serve records script).2 rest

/-- Every choice of a history is allowed. -/
def HistoryAdmissible (allowed : Records → Call → Choice → Prop) (records : Records) :
    List (Action × List Choice) → Prop
  | [] => True
  | (action, script) :: rest =>
    (action.program config definition).Admissible Records.serve allowed records script ∧
      HistoryAdmissible allowed
        ((action.program config definition).play Records.serve records script).2 rest

instance HistoryAdmissible.decidable {allowed : Records → Call → Choice → Prop}
    [∀ records call choice, Decidable (allowed records call choice)] :
    ∀ (records : Records) (actions : List (Action × List Choice)),
      Decidable (HistoryAdmissible config definition allowed records actions)
  | _, [] => .isTrue trivial
  | _, _ :: rest => @instDecidableAnd _ _ _ (decidable _ rest)

variable {config definition} {allowed : Records → Call → Choice → Prop}

/-- Where every choice is free, so is every history. -/
theorem historyAdmissible_of_free (free : ∀ records call choice, allowed records call choice) :
    ∀ {records : Records} {actions : List (Action × List Choice)},
      HistoryAdmissible config definition allowed records actions
  | _, [] => trivial
  | _, _ :: _ => ⟨Program.admissible_of_script _ _ fun choice _ records call =>
      free records call choice, historyAdmissible_of_free free⟩

/-- **What every process keeps holds through every history.** -/
theorem keeps_history {inv : Records → Prop}
    (keeps : ∀ action records, inv records → (Action.program config definition action).Ensures
      (Program.chosen Records.serve allowed) inv (fun _ _ => True) (fun _ _ => True) records) :
    ∀ (actions : List (Action × List Choice)) {records : Records}, inv records →
      HistoryAdmissible config definition allowed records actions →
        inv (history config definition records actions)
  | [], _, start, _ => start
  | (action, script) :: rest, _, start, admissible =>
    keeps_history keeps rest ((keeps action _ start).play script admissible.1).1 admissible.2

end

end Updatedc.Agent.Command
