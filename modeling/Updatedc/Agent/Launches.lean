import Updatedc.Agent.Commands

/-!
# When the adapter starts a command

An invocation writes its receipt at several places, and which of them it comes to depends on what it
read first. `Permitted` says once what each call of an invocation can be: what a written receipt
keeps of the one before, and what the records and the trace look like when a command is started.
`Decides` says the same of an operator's decision. That the programs follow these rules is shown
here (`runLocked_follows`, `resolve_follows`); what histories keep is then derived from the rules
alone.
-/

namespace Updatedc.Agent.Command

open Contracts Program

/-! ## The rules -/

/-- A command may be started over `prior` with these inputs: under the manual policy only over a
receipt that asks for it, or a completed one of another transaction attempt or with other inputs;
and recovery is never repeated under the attempt it completed in. -/
structure Cleared (config : Config) (operation : MutationOperation) (attempt : String)
    (inputs : DigestText) (prior : Option Receipt) : Prop where
  manual : config.replayOf operation = some .manual → ∀ receipt, prior = some receipt →
    receipt.phase = .ready ∨ (receipt.phase = .complete ∧ (receipt.inputsSha256 ≠ inputs ∨
      (receipt.attempt ≠ attempt ∧ Contracts.Attempt.isReserved attempt = false)))
  recovery : operation = .rollback → ∀ receipt, prior = some receipt →
    receipt.phase = .complete → receipt.attempt ≠ attempt

/-- What a written receipt can be, given the records it replaces. -/
inductive Writes (config : Config) (operation : MutationOperation) (attempt : String)
    (records : Records) (receipt : Receipt) : Prop
  | attention (phase : receipt.phase = .needsAttention)
  | start (phase : receipt.phase = .running)
      (cleared : Cleared config operation attempt receipt.inputsSha256 (records.receipt operation))
  | verified (phase : receipt.phase = .complete) {rest : List Event}
      (checked : records.trace = .checked operation attempt (some 0) :: rest)
      (policy : config.replayOf operation ≠ some .manual)
  | completed (phase : receipt.phase = .complete) {result : Resolution} {rest : List Event}
      (ran : records.trace = .finished operation attempt result ::
        .launched operation attempt receipt.inputsSha256 :: rest)
      (succeeded : result.isSucceeded = true)
  | asked (phase : receipt.phase = .ready) {seconds : Nat} {message : Option String}
      {rest : List Event}
      (ran : records.trace = .finished operation attempt (.retry seconds message) :: rest)
  | failed (phase : receipt.phase = .failed)

/-- **What a call of an invocation that holds the lock can be.** -/
def Permitted (config : Config) (definition : DigestText) (operation : MutationOperation)
    (attempt : String) (records : Records) : Call → Prop
  | .write written receipt =>
    written = operation ∧ receipt.attempt = attempt ∧ receipt.definition = definition ∧
      receipt.transaction = transactionIdentity (records.receipt operation) attempt ∧
      (operation = .converge → Contracts.Attempt.isCompensation attempt = false) ∧
      Writes config operation attempt records receipt
  | .launch _ started under inputs =>
    started = operation ∧ under = attempt ∧ ∃ receipt rest,
      records.trace = .wrote operation receipt :: rest ∧
        records.receipt operation = some receipt ∧ receipt.phase = .running ∧
        receipt.attempt = attempt ∧ receipt.inputsSha256 = inputs
  | .capture captured under => captured = operation ∧ under = attempt
  | .check _ checked under => checked = operation ∧ under = attempt
  | .publish published under result =>
    published = operation ∧ under = attempt ∧
      (operation = .rollback → result.isSucceeded = true →
        (∃ receipt, records.rollback = some receipt ∧ receipt.phase = .complete ∧
          receipt.attempt = attempt) ∨
        ∀ receipt, records.converge = some receipt →
          receipt.transaction ≠ stripSuffix attempt)
  | .lock _ _ | .readHold | .decide _ _ _ | .removeHold => False
  | .read _ | .inputsDigest | .bootIdentity | .observeCommand _ _ | .writeOutput _ _ => True

variable (records : Records)

/-- **What a call of the operator can be.** A decision changes the phase of a held receipt; one that
declares a transaction recovered is recorded as its recovery's as well. -/
def Decides : Call → Prop
  | .decide operation receipt decision =>
    receipt.phase = decision.phase ∧
      (operation = .converge → ∃ prior, records.converge = some prior ∧
        receipt.transaction = prior.transaction ∧ receipt.attempt = prior.attempt) ∧
      ∃ which prior, records.receipt which = some prior ∧ receipt.definition = prior.definition
  | .write operation receipt =>
    operation = .converge ∧ receipt.phase = .failed ∧ ∃ prior, records.converge = some prior ∧
      receipt.transaction = prior.transaction ∧ receipt.attempt = prior.attempt ∧
      receipt.definition = prior.definition
  | .read _ | .readHold | .removeHold => True
  | _ => False

/-- What a call can do to the records. -/
inductive Effect (records : Records) : Call → Records → Prop
  | nothing (call : Call) : Effect records call records
  | invoked (operation : MutationOperation) (attempt : String) :
    Effect records (.lock operation attempt) (records.log (.invoked operation attempt))
  | wrote (operation : MutationOperation) (receipt : Receipt) :
    Effect records (.write operation receipt)
      ((records.set operation receipt).log (.wrote operation receipt))
  | checked (command : Procedure) (operation : MutationOperation) (attempt : String)
      (exit : Option Int) :
    Effect records (.check command operation attempt)
      (records.log (.checked operation attempt exit))
  | launched (command : Procedure) (operation : MutationOperation) (attempt : String)
      (inputs : DigestText) :
    Effect records (.launch command operation attempt inputs)
      (records.log (.launched operation attempt inputs))
  | finished (operation : MutationOperation) (attempt : String) (result : Resolution) :
    Effect records (.capture operation attempt) (records.log (.finished operation attempt result))
  | reported (operation : MutationOperation) (attempt : String) (result : Resolution) :
    Effect records (.publish operation attempt result)
      (records.log (.reported operation attempt result))
  | decided (operation : MutationOperation) (receipt : Receipt) (decision : Decision) :
    Effect records (.decide operation receipt decision)
      ((records.set operation receipt).log (.decided operation receipt decision))

theorem store_cases [Crates] (operation : MutationOperation) (receipt : Receipt) (event : Event)
    (outcome : WriteOutcome) :
    (records.store operation receipt event outcome).1 = records ∨
      (records.store operation receipt event outcome).1 =
        (records.set operation receipt).log event := by
  unfold Records.store
  split
  · exact .inl rfl
  · dsimp only
    split_ifs
    · exact .inr rfl
    · exact .inl rfl

/-- **Every call does one of these things**, whatever the choice. -/
theorem serve_effect [Crates] (call : Call) (choice : Choice) :
    Effect records call (records.serve call choice).1 := by
  cases call with
  | lock operation attempt =>
    simp only [Records.serve]
    split_ifs
    · exact .invoked operation attempt
    · exact .nothing _
  | write operation receipt =>
    rcases store_cases records operation receipt (.wrote operation receipt) choice.write with
      same | landed
    · exact (congrArg (Effect records _) same).mpr (.nothing _)
    · exact (congrArg (Effect records _) landed).mpr (.wrote operation receipt)
  | check command operation attempt =>
    simp only [Records.serve]
    split
    · exact .nothing _
    · exact .checked command operation attempt _
  | launch command operation attempt inputs => exact .launched command operation attempt inputs
  | capture operation attempt =>
    simp only [Records.serve]
    split
    · exact .nothing _
    · exact .finished operation attempt _
  | publish operation attempt result =>
    simp only [Records.serve]
    split_ifs
    · exact .reported operation attempt result
    · exact .nothing _
  | decide operation receipt decision =>
    rcases store_cases records operation receipt (.decided operation receipt decision)
      choice.write with same | landed
    · exact (congrArg (Effect records _) same).mpr (.nothing _)
    · exact (congrArg (Effect records _) landed).mpr (.decided operation receipt decision)
  | read _ | inputsDigest | bootIdentity | observeCommand _ _ | writeOutput _ _ | readHold
    | removeHold => exact .nothing _

/-! ## Single calls -/

section
variable [Crates] {allowed : Records → Call → Choice → Prop} {rule : Records → Call → Prop}
  {records : Records} {operation : MutationOperation}

/-- From these records, every call of the program is one the rule permits. -/
abbrev Obeys (allowed : Records → Call → Choice → Prop) (rule : Records → Call → Prop) {α : Type}
    (program : Prog α) (post : α → Records → Prop) (records : Records) : Prop :=
  program.Follows (chosen Records.serve allowed) (fun _ => True) rule post (fun _ _ => True) records

theorem obeys_io {α : Type} {result : IoResult α} {post : α → Records → Prop}
    (next : ∀ value, result = .ok value → post value records) :
    Obeys allowed rule (io result) post records := by
  cases result with
  | error error => exact fun _ => trivial
  | ok value => exact fun _ => next value rfl

theorem obeys_ask {call : Call} {post : call.Answer → Records → Prop} (may : rule records call)
    (next : ∀ choice, post (records.serve call choice).2 (records.serve call choice).1) :
    Obeys allowed rule (ask call) post records := by
  refine fun _ => ⟨may, ?_⟩
  rintro records' response ⟨choice, -, answer⟩ -
  have here := next choice
  rw [answer] at here
  exact here

theorem obeys_read {post : Option Receipt → Records → Prop} (may : rule records (.read operation))
    (next : post (records.receipt operation) records) :
    Obeys allowed rule (read operation) post records := by
  refine follows_bind.mpr (obeys_ask may fun choice => obeys_io fun found loaded => ?_)
  obtain ⟨_, _, loaded⟩ := Except.bind_ok_iff.mp loaded
  have same : found = records.receipt operation := by
    unfold Records.load at loaded
    cases stored : records.receipt operation with
    | none =>
      rw [stored] at loaded
      cases loaded
      rfl
    | some receipt =>
      rw [stored] at loaded
      obtain ⟨_, _, rfl⟩ := Except.map_ok_iff.mp loaded
      rfl
  exact same ▸ next

theorem obeys_inputsDigest {post : DigestText → Records → Prop}
    (may : rule records .inputsDigest) (next : ∀ inputs, post inputs records) :
    Obeys allowed rule inputsDigest post records :=
  follows_bind.mpr (obeys_ask may fun _ => obeys_io fun inputs _ => next inputs)

theorem store_eq_ok {receipt : Receipt} {event : Event} {outcome : WriteOutcome}
    (done : (records.store operation receipt event outcome).2 = .ok ()) :
    (records.store operation receipt event outcome).1 =
      (records.set operation receipt).log event := by
  unfold Records.store at done ⊢
  cases checked : receipt.validateRecord with
  | error error =>
    rw [checked] at done
    cases done
  | ok =>
    rw [checked] at done
    cases outcome with
    | written => rfl
    | lost transient => cases done
    | unsynced transient => cases done

theorem obeys_write {receipt : Receipt} {post : Unit → Records → Prop}
    (may : rule records (.write operation receipt))
    (next : post () ((records.set operation receipt).log (.wrote operation receipt))) :
    Obeys allowed rule (write operation receipt) post records := by
  refine follows_bind.mpr (obeys_ask may fun choice => obeys_io fun _ done => ?_)
  have landed : (records.store operation receipt (.wrote operation receipt) choice.write).1 = _ :=
    store_eq_ok done
  exact landed ▸ next

theorem serve_capture {attempt : String} {choice : Choice} {completion : Completion}
    (captured : (records.serve (.capture operation attempt) choice).2 = .ok completion) :
    (records.serve (.capture operation attempt) choice).1 =
      records.log (.finished operation attempt completion.result) := by
  cases read : choice.io with
  | error error =>
    simp only [Records.serve, read] at captured
    cases captured
  | ok =>
    simp only [Records.serve, read] at captured ⊢
    cases captured
    rfl

theorem serve_check {command : Procedure} {attempt : String} {choice : Choice}
    {exit : Option Int}
    (ran : (records.serve (.check command operation attempt) choice).2 = .ok exit) :
    (records.serve (.check command operation attempt) choice).1 =
      records.log (.checked operation attempt exit) := by
  cases read : choice.io with
  | error error =>
    simp only [Records.serve, read] at ran
    cases ran
  | ok =>
    simp only [Records.serve, read] at ran ⊢
    cases ran
    rfl

theorem obeys_publish {attempt : String} {result : Resolution}
    (may : rule records (.publish operation attempt result)) :
    Obeys allowed rule (publish operation attempt result) (fun _ _ => True) records :=
  follows_bind.mpr (obeys_ask may fun _ => obeys_io fun _ _ => trivial)

end

/-! ## The programs follow the rules -/

namespace Records

variable {records : Records} {operation : MutationOperation} {receipt : Receipt} {event : Event}

@[simp] theorem receipt_log :
    (records.log event).receipt operation = records.receipt operation := by
  cases operation <;> rfl

@[simp] theorem receipt_set : (records.set operation receipt).receipt operation = some receipt := by
  cases operation <;> rfl

theorem receipt_set_of_ne {which : MutationOperation} (other : which ≠ operation) :
    (records.set operation receipt).receipt which = records.receipt which := by
  cases operation <;> cases which <;> first | rfl | exact absurd rfl other

@[simp] theorem converge_log : (records.log event).converge = records.converge := rfl

@[simp] theorem trace_log : (records.log event).trace = event :: records.trace := rfl

@[simp] theorem trace_set : (records.set operation receipt).trace = records.trace := by
  cases operation <;> rfl

end Records

/-- Rewriting a receipt of the same attempt keeps its transaction. -/
theorem transactionIdentity_own {receipt : Receipt} {prior : Option Receipt} {attempt : String}
    (own : receipt.transaction = transactionIdentity prior attempt) :
    transactionIdentity (some receipt) attempt = receipt.transaction := by
  unfold transactionIdentity at own ⊢
  split_ifs at own ⊢ with reserved
  · rfl
  · exact own.symm

/-- A check changes no receipt, whether it ran or not. -/
theorem receipt_serve_check [Crates] {records : Records} {command : Procedure}
    {operation which : MutationOperation} {attempt : String} (choice : Choice) :
    (records.serve (.check command operation attempt) choice).1.receipt which =
      records.receipt which := by
  cases read : choice.io <;> simp [Records.serve, read]

section
variable [Crates] {allowed : Records → Call → Choice → Prop} {config : Config}
  {definition : DigestText} {operation : MutationOperation} {attempt : String} {records : Records}
  {receipt : Receipt} {prior : Option Receipt} {inputs : DigestText}

theorem attention_obeys
    (forward : operation = .converge → Contracts.Attempt.isCompensation attempt = false)
    (message : String) :
    Obeys allowed (Permitted config definition operation attempt)
      (attention definition operation attempt message) (fun _ _ => True) records := by
  unfold attention
  refine follows_bind.mpr (obeys_read trivial ?_)
  have finish (inputsSha256 : DigestText) :
      Obeys allowed (Permitted config definition operation attempt)
      (do
        write operation
          { transaction := transactionIdentity (records.receipt operation) attempt
            definition, inputsSha256, attempt, phase := .needsAttention, message
            exitCode := (records.receipt operation).bind (·.exitCode), completion := none }
        publish operation attempt (.needsAttention message)) (fun _ _ => True) records :=
    follows_bind.mpr (obeys_write ⟨rfl, rfl, rfl, rfl, forward, .attention rfl⟩
      (obeys_publish ⟨rfl, rfl, nofun⟩))
  cases previous : records.receipt operation with
  | some receipt =>
    rw [previous] at finish
    exact finish receipt.inputsSha256
  | none =>
    rw [previous] at finish
    exact follows_bind.mpr (obeys_inputsDigest trivial finish)

theorem settle_obeys
    (forward : operation = .converge → Contracts.Attempt.isCompensation attempt = false)
    {rest : List Event} (own : receipt.transaction = transactionIdentity prior attempt)
    (under : receipt.attempt = attempt) (marked : receipt.definition = definition)
    (stored : records.receipt operation = some receipt)
    (launched : records.trace = .launched operation attempt receipt.inputsSha256 :: rest)
    (outcome : Outcome) :
    Obeys allowed (Permitted config definition operation attempt)
      (settle definition operation attempt receipt outcome) (fun _ _ => True) records := by
  have kept : receipt.transaction = transactionIdentity (records.receipt operation) attempt := by
    rw [stored, transactionIdentity_own own]
  unfold settle
  split
  · refine follows_bind.mpr (obeys_ask ⟨rfl, rfl⟩ fun choice =>
      follows_bind.mpr (obeys_io fun completion captured => ?_))
    rw [serve_capture captured]
    split
    · rename_i result
      have ran : (records.log (.finished operation attempt completion.result)).trace =
          .finished operation attempt completion.result ::
            .launched operation attempt receipt.inputsSha256 :: rest := by
        rw [Records.trace_log, launched]
      refine follows_bind.mpr (obeys_write
        ⟨rfl, under, marked, ?_, forward, .completed rfl ran ?_⟩ ?_)
      · rw [Records.receipt_log]
        exact kept
      · rw [result]
        rfl
      · refine obeys_publish ⟨rfl, rfl, fun recovering _ => .inl ?_⟩
        subst recovering
        exact ⟨_, rfl, rfl, under⟩
    · rename_i seconds message result
      have ran : (records.log (.finished operation attempt completion.result)).trace =
          .finished operation attempt (.retry seconds message) :: records.trace := by
        rw [Records.trace_log, result]
      refine follows_bind.mpr (obeys_write ⟨rfl, under, marked, ?_, forward, .asked rfl ran⟩ ?_)
      · rw [Records.receipt_log]
        exact kept
      · refine obeys_publish ⟨rfl, rfl, fun _ succeeded => ?_⟩
        rw [result] at succeeded
        cases succeeded
    · exact attention_obeys forward _
  · refine follows_bind.mpr (obeys_write ⟨rfl, under, marked, kept, forward, .failed rfl⟩ ?_)
    cases operation with
    | rollback => exact attention_obeys forward _
    | converge => exact fun _ => trivial

theorem execute_obeys
    (forward : operation = .converge → Contracts.Attempt.isCompensation attempt = false)
    (cleared : Cleared config operation attempt inputs (records.receipt operation))
    (command : Procedure) :
    Obeys allowed (Permitted config definition operation attempt)
      (execute definition operation attempt (records.receipt operation) inputs command)
      (fun _ _ => True) records := by
  unfold execute
  refine follows_bind.mpr (obeys_write ⟨rfl, rfl, rfl, rfl, forward, .start rfl cleared⟩ ?_)
  refine follows_bind.mpr (obeys_ask ⟨rfl, rfl, _, _, rfl, ?_, rfl, rfl, rfl⟩ fun choice => ?_)
  · rw [Records.receipt_log, Records.receipt_set]
  · apply settle_obeys forward rfl
    · rfl
    · rfl
    · exact (Records.receipt_log).trans ((Records.receipt_log).trans Records.receipt_set)
    · rfl

omit [Crates] in
/-- What keeps a command from being in doubt. -/
theorem cleared_of_certain (certain : uncertain attempt prior inputs = false)
    (recovery : operation = .rollback → ∀ receipt, prior = some receipt →
      receipt.phase = .complete → receipt.attempt ≠ attempt) :
    Cleared config operation attempt inputs prior := by
  refine ⟨fun _ receipt found => ?_, recovery⟩
  subst found
  simp only [uncertain, Option.any_some, Bool.and_eq_false_iff, Bool.or_eq_false_iff] at certain
  rcases certain with settled | ⟨⟨other, transactional⟩, complete⟩
  · by_cases ready : receipt.phase = .ready
    · exact .inl ready
    · simp only [bne_iff_ne.mpr ready, Bool.true_eq_false, Bool.not_eq_false', Bool.and_eq_true,
        beq_iff_eq, bne_iff_ne, false_or] at settled
      exact .inr ⟨settled.1, .inl settled.2⟩
  · exact .inr ⟨by simpa using complete, .inr ⟨by simpa using other, transactional⟩⟩

theorem authorize_obeys
    (forward : operation = .converge → Contracts.Attempt.isCompensation attempt = false)
    (recovery : operation = .rollback → ∀ receipt, records.receipt operation = some receipt →
      receipt.phase = .complete → receipt.attempt ≠ attempt)
    {replay : Replay} (policy : config.replayOf operation = some replay) (command : Procedure) :
    Obeys allowed (Permitted config definition operation attempt)
      (authorize definition operation attempt (records.receipt operation) inputs command replay)
      (fun _ _ => True) records := by
  unfold authorize
  split_ifs with doubt
  · have repeatable (lenient : replay ≠ .manual) :
        Cleared config operation attempt inputs (records.receipt operation) :=
      ⟨fun manual => absurd (Option.some.inj (policy.symm.trans manual)) lenient, recovery⟩
    cases replay with
    | safe => exact execute_obeys forward (repeatable nofun) command
    | manual => exact attention_obeys forward _
    | check check =>
      refine follows_bind.mpr (obeys_ask ⟨rfl, rfl⟩ fun choice => ?_)
      have unchanged : (records.serve (.check check operation attempt) choice).1.receipt operation =
          records.receipt operation := receipt_serve_check choice
      split
      · rename_i exited
        rw [serve_check exited]
        refine follows_bind.mpr (obeys_write
          ⟨rfl, rfl, rfl, ?_, forward, .verified rfl rfl (by rw [policy]; nofun)⟩ ?_)
        · rw [Records.receipt_log]
        · refine obeys_publish ⟨rfl, rfl, fun recovering _ => .inl ?_⟩
          subst recovering
          exact ⟨_, rfl, rfl, rfl⟩
      · rw [← unchanged]
        exact execute_obeys forward (unchanged ▸ repeatable nofun) command
      · exact attention_obeys forward _
  · exact execute_obeys forward
      (cleared_of_certain (Bool.eq_false_iff.mpr doubt) recovery) command

/-- A loop whose turns leave the records alone. -/
theorem obeys_forM {α : Type} {rule : Records → Call → Prop} {turn : α → Prog Unit}
    (turns : ∀ a, Obeys allowed rule (turn a) (fun _ after => after = records) records) :
    ∀ l : List α, Obeys allowed rule (l.forM turn) (fun _ after => after = records) records
  | [] => fun _ => rfl
  | a :: rest => follows_bind.mpr ((turns a).imp
      (fun _ _ _ same => same ▸ obeys_forM turns rest) fun _ _ _ h => h)

theorem replayCompletion_obeys
    (done : operation = .rollback → ∃ receipt, records.rollback = some receipt ∧
      receipt.phase = .complete ∧ receipt.attempt = attempt) (receipt : Option Receipt) :
    Obeys allowed (Permitted config definition operation attempt)
      (replayCompletion operation attempt receipt) (fun _ _ => True) records := by
  have publishes (result : Resolution) :
      Obeys allowed (Permitted config definition operation attempt)
      (publish operation attempt result) (fun _ _ => True) records :=
    obeys_publish ⟨rfl, rfl, fun recovering _ => .inl (done recovering)⟩
  unfold replayCompletion
  split
  · unfold Completion.replay
    refine follows_bind.mpr (obeys_io fun _ _ => follows_bind.mpr ?_)
    refine (obeys_forM (fun entry => ?_) _).imp (fun _ _ _ same => ?_) fun _ _ _ h => h
    · exact follows_bind.mpr (obeys_io fun _ _ =>
        follows_bind.mpr (obeys_ask trivial fun _ => obeys_io fun _ _ => rfl))
    · subst same
      split
      · exact follows_bind.mpr (obeys_ask trivial fun _ =>
          follows_bind.mpr (obeys_io fun _ _ => publishes _))
      · exact fun _ => trivial
  · exact publishes _

theorem observe_obeys {rule : Records → Call → Prop}
    (may : (∀ operation, rule records (.read operation)) ∧
      ∀ command observation, rule records (.observeCommand command observation))
    {post : Bool → Records → Prop} (next : ∀ ready, post ready records) :
    Obeys allowed rule (observe config definition) post records := by
  unfold observe
  split
  · exact follows_bind.mpr (obeys_ask (may.2 _ _) fun _ =>
      follows_bind.mpr (obeys_io fun _ _ _ => next _))
  · exact follows_bind.mpr (obeys_read (may.1 _) fun _ => next _)

theorem runConverge_obeys (forward : Contracts.Attempt.isCompensation attempt = false) :
    Obeys allowed (Permitted config definition .converge attempt)
      (runConverge config definition attempt (records.receipt .converge) inputs)
      (fun _ _ => True) records := by
  have goes (ready : Bool) : Obeys allowed (Permitted config definition .converge attempt)
      (if ready then replayCompletion .converge attempt (records.receipt .converge)
        else authorize definition .converge attempt (records.receipt .converge) inputs
          config.deploy config.replay) (fun _ _ => True) records := by
    split_ifs
    · exact replayCompletion_obeys (by nofun) _
    · exact authorize_obeys (fun _ => forward) (by nofun) rfl _
  unfold runConverge
  dsimp only
  split_ifs
  · exact follows_bind.mpr (observe_obeys ⟨fun _ => trivial, fun _ _ => trivial⟩ goes)
  · exact goes false

theorem runRollback_obeys :
    Obeys allowed (Permitted config definition .rollback attempt)
      (runRollback config definition attempt (records.receipt .rollback) inputs)
      (fun _ _ => True) records := by
  unfold runRollback
  split_ifs with done
  · obtain ⟨receipt, stored, settled⟩ := (Option.any_eq_true _ _).mp done
    simp only [Bool.and_eq_true, beq_iff_eq] at settled
    exact replayCompletion_obeys (fun _ => ⟨receipt, stored, settled.2, settled.1⟩) _
  · have recovery : MutationOperation.rollback = .rollback → ∀ receipt,
        records.receipt .rollback = some receipt → receipt.phase = .complete →
          receipt.attempt ≠ attempt := fun _ receipt stored complete same => done (by
      rw [stored]
      simp [complete, same])
    refine follows_bind.mpr (obeys_read trivial ?_)
    split_ifs with foreign unauthorized paused
    · exact fun _ => trivial
    · refine obeys_publish ⟨rfl, rfl, fun _ _ => .inr fun receipt stored => ?_⟩
      change (records.converge).all _ = true at unauthorized
      rw [stored] at unauthorized
      simpa using unauthorized
    · exact attention_obeys (by nofun) _
    · split
      · rename_i command replay policy
        exact authorize_obeys (by nofun) recovery (by simp [Config.replayOf, policy]) _
      · exact attention_obeys (by nofun) _

/-- **An invocation that holds the lock follows the rule.** -/
theorem runLocked_follows (records : Records) :
    Obeys allowed (Permitted config definition operation attempt)
      (runLocked config definition operation attempt) (fun _ _ => True) records := by
  unfold runLocked
  refine follows_bind.mpr (obeys_read trivial ?_)
  split
  · exact fun _ => trivial
  split
  · rename_i compensating
    simp only [Bool.and_eq_true, decide_eq_true_eq] at compensating
    obtain ⟨rfl, -⟩ := compensating
    exact replayCompletion_obeys (by nofun) _
  · rename_i compensating
    have forward : operation = .converge → Contracts.Attempt.isCompensation attempt = false :=
      fun converging => by simpa [converging] using compensating
    refine follows_bind.mpr (obeys_inputsDigest trivial fun inputs => ?_)
    split_ifs
    · exact attention_obeys forward _
    · exact attention_obeys forward _
    · cases operation with
      | converge => exact runConverge_obeys (forward rfl)
      | rollback => exact runRollback_obeys

/-- What an observing invocation may do. -/
def Observes (_ : Records) : Call → Prop
  | .read _ | .observeCommand _ _ => True
  | _ => False

theorem runObservation_obeys {observation : Observation} (records : Records) :
    Obeys allowed Observes (runObservation config definition observation) (fun _ _ => True)
      records := by
  unfold runObservation
  refine follows_bind.mpr (observe_obeys ⟨fun _ => trivial, fun _ _ => trivial⟩ fun ready => ?_)
  split_ifs
  · exact fun _ => trivial
  split
  · refine follows_bind.mpr (obeys_ask trivial fun _ => follows_bind.mpr (obeys_io fun _ _ => ?_))
    split_ifs <;> exact fun _ => trivial
  · exact fun _ => trivial

theorem releaseForward_obeys (forward : String) (records : Records) :
    Obeys allowed Decides (releaseForward forward) (fun _ _ => True) records := by
  unfold releaseForward
  refine follows_bind.mpr (obeys_read trivial ?_)
  split
  · rename_i receipt stored
    split
    · exact obeys_write ⟨rfl, rfl, receipt, stored, rfl, rfl, rfl⟩ trivial
    · exact fun _ => trivial
  · exact fun _ => trivial

/-- **The operator follows the rule.** -/
theorem resolve_follows (decision : Decision) (records : Records) :
    Obeys allowed Decides (resolve decision) (fun _ _ => True) records := by
  have finish (records : Records) : Obeys allowed Decides (do io (← ask .removeHold))
      (fun _ _ => True) records :=
    follows_bind.mpr (obeys_ask trivial fun _ => obeys_io fun _ _ => trivial)
  unfold resolve
  refine follows_bind.mpr (obeys_ask trivial fun choice => follows_bind.mpr (obeys_io ?_))
  intro found given
  split
  · exact fun _ => trivial
  · rename_i hold
    refine follows_bind.mpr (obeys_read trivial ?_)
    split
    · exact fun _ => trivial
    · rename_i receipt stored
      dsimp only
      split
      · exact fun _ => trivial
      split
      · exact fun _ => trivial
      refine follows_bind.mpr (obeys_ask
        ⟨rfl, fun converging => ⟨receipt, ?_, rfl, rfl⟩, hold.operation, receipt, stored, rfl⟩
        fun choice => follows_bind.mpr (obeys_io fun _ done => ?_))
      · rw [converging] at stored
        exact stored
      · have landed : (records.store hold.operation _ _ choice.write).1 = _ := store_eq_ok done
        split
        · have written := (congrArg (·.receipt hold.operation) landed).trans
            (Records.receipt_log.trans Records.receipt_set)
          exact follows_bind.mpr (obeys_ask ⟨rfl, nofun, hold.operation, _, written, rfl⟩
            fun _ => follows_bind.mpr (obeys_io fun _ _ => finish _))
        split
        · exact follows_bind.mpr ((releaseForward_obeys _ _).imp (fun _ _ _ _ => finish _)
            fun _ _ _ h => h)
        · exact finish _

end

/-! ## From the rules to histories -/

/-- A compensating attempt is no routine one. -/
theorem not_isReserved_of_isCompensation {attempt : String}
    (compensation : Contracts.Attempt.isCompensation attempt = true) :
    Contracts.Attempt.isReserved attempt = false := by
  rw [Bool.eq_false_iff]
  intro reserved
  simp only [Contracts.Attempt.isReserved, Contracts.Attempt.all, List.contains_eq_mem,
    List.mem_cons, List.not_mem_nil, or_false, decide_eq_true_eq] at reserved
  rcases reserved with rfl | rfl | rfl | rfl <;> exact absurd compensation (by decide)

/-- Which attempts dispatch accepts for an operation. -/
def Accepted (attempt : String) : MutationOperation → Prop
  | .converge => Contracts.Attempt.isReserved attempt = true ∨
      Contracts.Attempt.isTransactionInvocation attempt = true
  | .rollback => Contracts.Attempt.isCompensation attempt = true

theorem accepted_of_validateMutation {operation : MutationOperation} {reason : Reason}
    {attempt : String} (valid : validateMutation operation reason attempt = .ok ()) :
    Accepted attempt operation := by
  unfold validateMutation at valid
  dsimp only at valid
  split_ifs at valid with accepted
  cases operation with
  | converge =>
    cases reason with
    | install =>
      rw [beq_iff_eq.mp accepted]
      exact .inl rfl
    | restart =>
      simp only [Bool.or_eq_true, beq_iff_eq] at accepted
      rcases accepted with rfl | rfl <;> exact .inl rfl
    | update => exact .inr accepted
  | rollback =>
    cases reason with
    | install | restart => cases accepted
    | update => exact accepted

/-- What the rules keep, every process keeps. `locked` is what holds while an invocation has the
lock. -/
theorem action_ensures [Crates] {allowed : Records → Call → Choice → Prop} {config : Config}
    {definition : DigestText} {inv : Records → Prop}
    (locked : MutationOperation → String → Records → Prop)
    (enter : ∀ operation attempt records, Accepted attempt operation → inv records →
      locked operation attempt (records.log (.invoked operation attempt)))
    (leave : ∀ operation attempt records, locked operation attempt records → inv records)
    (permitted : ∀ operation attempt records call choice, allowed records call choice →
      locked operation attempt records →
        Permitted config definition operation attempt records call →
        locked operation attempt (records.serve call choice).1)
    (decides : ∀ records call choice, allowed records call choice → inv records →
      Decides records call → inv (records.serve call choice).1)
    (blocked : ∀ operation attempt seconds message records, inv records →
      inv (records.log (.reported operation attempt (.retry seconds message))))
    (action : Action) {records : Records} (start : inv records) :
    (action.program config definition).Ensures (chosen Records.serve allowed) inv
      (fun _ _ => True) (fun _ _ => True) records := by
  have keeps {rule : Records → Call → Prop} {kept : Records → Prop}
      (keeps : ∀ records call choice, allowed records call choice → kept records →
        rule records call → kept (records.serve call choice).1)
      (before : Records) (call : Call) (after : Records) (response : call.Answer)
      (held : kept before) (fine : rule before call)
      (answer : chosen Records.serve allowed before call after response) : kept after := by
    obtain ⟨choice, free, answer⟩ := answer
    have next := keeps before call choice free held fine
    rw [answer] at next
    exact next
  cases action with
  | mutate operation reason attempt =>
    refine ensures_bind.mpr ?_
    cases valid : validateMutation operation reason attempt with
    | error error => exact ⟨start, trivial⟩
    | ok =>
      refine ⟨start, ensures_bind.mpr ⟨start, ?_⟩⟩
      rintro _ _ ⟨choice, -, answer⟩
      cases answer
      cases taken : choice.lock with
      | acquired =>
        rw [if_pos rfl]
        have entered := enter operation attempt records (accepted_of_validateMutation valid) start
        have goes : (runLocked config definition operation attempt).Ensures _
            (locked operation attempt) _ _ _ :=
          (runLocked_follows _).under.ensures (keeps (permitted operation attempt)) entered
        have ends := goes.imp (leave operation attempt) (fun _ _ _ h => h) fun _ _ _ h => h
        exact ⟨ends.here, ends⟩
      | wouldBlock =>
        rw [if_neg (by nofun)]
        refine ⟨start, start, ?_⟩
        rintro _ _ ⟨choice, -, answer⟩
        cases answer
        have logged : inv (records.serve (.publish operation attempt
            (.retry 1 (some "another command owns this application"))) choice).1 := by
          simp only [Records.serve]
          split_ifs
          · exact blocked _ _ _ _ _ start
          · exact start
        exact (ensures_ofExcept).mpr ⟨logged, by split <;> trivial⟩
      | failed error =>
        rw [if_neg (by nofun)]
        exact ⟨start, start, trivial⟩
  | observe observation =>
    refine (runObservation_obeys records).under.ensures (keeps ?_) start
    rintro before call choice - held fine
    cases call with
    | read _ | observeCommand _ _ => exact held
    | _ => exact fine.elim
  | resolve decision =>
    exact (resolve_follows decision records).under.ensures (keeps decides) start

end Updatedc.Agent.Command
