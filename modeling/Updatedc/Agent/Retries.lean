import Updatedc.Agent.Compensation

/-!
# What an operator's retry leads to

An operator who answers a hold with **retry** expects the next invocation of the held operation and
attempt to start its command. For a deployment it does. A rollback also reads the deployment
receipt, which the decision rewrites only where that receipt is still under the transaction's own
attempt: a routine repair that was held in between has put its own attempt there, and then the next
rollback is paused again (`Sample.retry_paused_again`). `retry_launches_iff` says exactly when the
command is started.
-/

namespace Updatedc.Agent.Command

open Contracts Program

/-! ## Receipts that later invocations accept -/

/-- The receipts on disk are well formed and of this payload, and a deployment receipt is never
under a compensating attempt. -/
structure Legible [Crates] (definition : DigestText) (records : Records) : Prop where
  valid : ∀ {operation : MutationOperation} {receipt : Receipt},
    records.receipt operation = some receipt → receipt.validateRecord = .ok ()
  own : ∀ {operation : MutationOperation} {receipt : Receipt},
    records.receipt operation = some receipt → receipt.definition = definition
  forward : ∀ {receipt : Receipt}, records.converge = some receipt →
    Contracts.Attempt.isCompensation receipt.attempt = false

/-- What a call may put into a receipt. -/
def Marks (definition : DigestText) : Call → Prop
  | .write operation receipt | .decide operation receipt _ => receipt.definition = definition ∧
      (operation = .converge → Contracts.Attempt.isCompensation receipt.attempt = false)
  | _ => True

section
variable [Crates] {definition : DigestText} {records : Records}

theorem legible_empty : Legible definition {} where
  valid {operation _} stored := by cases operation <;> cases stored
  own {operation _} stored := by cases operation <;> cases stored
  forward stored := by cases stored

theorem Legible.log (kept : Legible definition records) (event : Event) :
    Legible definition (records.log event) where
  valid stored := kept.valid (by simpa using stored)
  own stored := kept.own (by simpa using stored)
  forward stored := kept.forward stored

theorem Legible.set (kept : Legible definition records) {operation : MutationOperation}
    {receipt : Receipt} (valid : receipt.validateRecord = .ok ())
    (own : receipt.definition = definition)
    (forward : operation = .converge → Contracts.Attempt.isCompensation receipt.attempt = false) :
    Legible definition (records.set operation receipt) := by
  have same (which : MutationOperation) {found : Receipt}
      (stored : (records.set operation receipt).receipt which = some found) :
      found = receipt ∧ which = operation ∨ records.receipt which = some found := by
    by_cases here : which = operation
    · subst here
      rw [Records.receipt_set] at stored
      exact .inl ⟨(Option.some.inj stored).symm, rfl⟩
    · rw [Records.receipt_set_of_ne here] at stored
      exact .inr stored
  refine ⟨fun stored => ?_, fun stored => ?_, fun stored => ?_⟩
  · rcases same _ stored with ⟨rfl, -⟩ | before
    · exact valid
    · exact kept.valid before
  · rcases same _ stored with ⟨rfl, -⟩ | before
    · exact own
    · exact kept.own before
  · rcases same .converge stored with ⟨rfl, here⟩ | before
    · exact forward here.symm
    · exact kept.forward before

/-- A receipt that is stored has been checked. -/
theorem Legible.store (kept : Legible definition records) {operation : MutationOperation}
    {receipt : Receipt} (own : receipt.definition = definition)
    (forward : operation = .converge → Contracts.Attempt.isCompensation receipt.attempt = false)
    (event : Event) (outcome : WriteOutcome) :
    Legible definition (records.store operation receipt event outcome).1 := by
  unfold Records.store
  split
  · exact kept
  · rename_i checked
    dsimp only
    split_ifs
    · exact (kept.set checked own forward).log event
    · exact kept

theorem Legible.serve (kept : Legible definition records) {call : Call}
    (marks : Marks definition call) (choice : Choice) :
    Legible definition (records.serve call choice).1 := by
  cases call with
  | write operation receipt => exact kept.store marks.1 marks.2 _ _
  | decide operation receipt decision => exact kept.store marks.1 marks.2 _ _
  | lock operation attempt =>
    simp only [Records.serve]
    split_ifs
    · exact kept.log _
    · exact kept
  | check command operation attempt =>
    simp only [Records.serve]
    split
    · exact kept
    · exact kept.log _
  | launch command operation attempt inputs => exact kept.log _
  | capture operation attempt =>
    simp only [Records.serve]
    split
    · exact kept
    · exact kept.log _
  | publish operation attempt result =>
    simp only [Records.serve]
    split_ifs
    · exact kept.log _
    · exact kept
  | read _ | inputsDigest | bootIdentity | observeCommand _ _ | writeOutput _ _ | readHold
    | removeHold => exact kept

end

/-! ## Every process leaves such receipts -/

variable {reason : Reason}

section
variable {config : Config} {definition : DigestText} {operation : MutationOperation}
  {attempt : String} {receipt : Receipt} {prior : Option Receipt} {inputs : DigestText}
  {records : Records} {call : Call}

/-- What an invocation writes is of this payload. -/
theorem marks_of_permitted (may : Permitted config definition operation attempt records call) :
    Marks definition call := by
  cases call with
  | write written receipt =>
    obtain ⟨rfl, rfl, marked, -, forward, -⟩ := may
    exact ⟨marked, forward⟩
  | decide => exact may.elim
  | _ => trivial

variable [Crates]

/-- What the operator writes comes from what is stored. -/
theorem Legible.marks (kept : Legible definition records) (may : Decides records call) :
    Marks definition call := by
  cases call with
  | write written receipt =>
    obtain ⟨-, -, prior, stored, -, under, marked⟩ := may
    have own : prior.definition = definition := @Legible.own _ _ _ kept .converge prior stored
    exact ⟨marked.trans own, fun _ => under ▸ kept.forward stored⟩
  | decide decided receipt decision =>
    obtain ⟨-, held, which, prior, stored, marked⟩ := may
    refine ⟨marked.trans (kept.own stored), fun converging => ?_⟩
    obtain ⟨prior, stored, -, under⟩ := held converging
    exact under ▸ kept.forward stored
  | _ => trivial

variable {allowed : Records → Call → Choice → Prop}

/-- **Every process keeps the receipts legible.** -/
theorem legible_program (action : Action) (start : Legible definition records) :
    (action.program config definition).Ensures (chosen Records.serve allowed)
      (Legible definition) (fun _ _ => True) (fun _ _ => True) records := by
  refine action_ensures (fun _ _ => Legible definition) ?_ ?_ ?_ ?_ ?_ action start
  · exact fun _ _ _ _ kept => kept.log _
  · exact fun _ _ _ kept => kept
  · exact fun _ _ _ _ choice _ kept may => kept.serve (marks_of_permitted may) choice
  · exact fun _ _ choice _ kept may => kept.serve (kept.marks may) choice
  · exact fun _ _ _ _ _ kept => kept.log _

theorem legible_history (actions : List (Action × List Choice)) :
    Legible definition (history config definition {} actions) :=
  keeps_history (fun action _ start => legible_program action start) actions legible_empty
    (historyAdmissible_of_free fun _ _ _ => trivial)

end

/-! ## Runs without a fault -/

/-- A choice that lets every call go through. The inputs may be any. -/
structure Choice.Faultless (choice : Choice) : Prop where
  lock : choice.lock = .acquired
  io : choice.io = .ok ()
  write : choice.write = .written
  inputs : choice.inputs.isCanonical = true

section
variable [Crates] {α : Type} {records : Records} {operation : MutationOperation}
  {attempt : String} {choice : Choice} {script : List Choice} {receipt : Receipt}

theorem play_lock {next : Lock → Prog α} (faultless : choice.Faultless) :
    (ask (.lock operation attempt) >>= next).play Records.serve records (choice :: script) =
      (next .acquired).play Records.serve (records.log (.invoked operation attempt)) script := by
  change (next choice.lock).play Records.serve
    (if choice.lock = .acquired then records.log (.invoked operation attempt) else records)
    script = _
  rw [faultless.lock, if_pos rfl]

theorem play_read {next : Option Receipt → Prog α} (faultless : choice.Faultless)
    (valid : ∀ receipt, records.receipt operation = some receipt →
      receipt.validateRecord = .ok ()) :
    (read operation >>= next).play Records.serve records (choice :: script) =
      (next (records.receipt operation)).play Records.serve records script := by
  have loaded : (records.serve (.read operation) choice).2 = .ok (records.receipt operation) := by
    simp only [Records.serve, faultless.io, Records.load]
    cases stored : records.receipt operation with
    | none => rfl
    | some receipt =>
      dsimp only
      rw [valid receipt stored]
      rfl
  change (io (records.serve (.read operation) choice).2 >>= next).play Records.serve records
    script = _
  rw [loaded]
  rfl

theorem play_inputsDigest {next : DigestText → Prog α} (faultless : choice.Faultless) :
    (inputsDigest >>= next).play Records.serve records (choice :: script) =
      (next choice.inputs).play Records.serve records script := by
  change (io (do choice.io; return choice.inputs) >>= next).play Records.serve records script = _
  rw [faultless.io]
  rfl

theorem play_write {next : Unit → Prog α} (faultless : choice.Faultless)
    (valid : receipt.validateRecord = .ok ()) :
    (write operation receipt >>= next).play Records.serve records (choice :: script) =
      (next ()).play Records.serve
        ((records.set operation receipt).log (.wrote operation receipt)) script := by
  change (io (records.store operation receipt (.wrote operation receipt) choice.write).2 >>=
    next).play Records.serve
      (records.store operation receipt (.wrote operation receipt) choice.write).1 script = _
  simp only [Records.store, valid, faultless.write]
  rfl

theorem play_pure {β : Type} {value : β} {next : β → Prog α} :
    (Pure.pure value >>= next).play Records.serve records script =
      (next value).play Records.serve records script := rfl

theorem play_publish {result : Resolution} (faultless : choice.Faultless) :
    (publish operation attempt result).play Records.serve records (choice :: script) =
      (.returned (), records.log (.reported operation attempt result)) := by
  change (io choice.write.result).play Records.serve
    (if choice.write.lands then records.log (.reported operation attempt result) else records)
    script = _
  rw [faultless.write]
  rfl

/-- What was done stays in the trace. -/
theorem trace_play (program : Prog α) (records : Records) (script : List Choice) :
    records.trace <:+ (program.play Records.serve records script).2.trace := by
  induction program generalizing records script with
  | pure a => exact List.suffix_rfl
  | throw error => exact List.suffix_rfl
  | call request next ih =>
    cases script with
    | nil => exact List.suffix_rfl
    | cons choice rest =>
      refine .trans ?_ (ih _ (records.serve request choice).1 rest)
      generalize (records.serve request choice).1 = after,
        serve_effect records request choice = effect
      cases effect with
      | nothing => exact List.suffix_rfl
      | wrote | decided =>
        rw [Records.trace_log, Records.trace_set]
        exact List.suffix_cons _ _
      | invoked | checked | launched | finished | reported => exact List.suffix_cons _ _

theorem inputs_isCanonical (valid : receipt.validateRecord = .ok ()) :
    receipt.inputsSha256.isCanonical = true := by
  unfold Receipt.validateRecord at valid
  split_ifs at valid with wrong
  simp only [Bool.not_eq_true, Bool.or_eq_false_iff, Bool.not_eq_false'] at wrong
  exact wrong.1.1.1.1.2

/-- A receipt that only its identity matters in. -/
theorem validateRecord_identity {prior : Receipt} (valid : prior.validateRecord = .ok ())
    (definition : receipt.definition = prior.definition)
    (inputs : receipt.inputsSha256.isCanonical = true)
    (attempt : receipt.attempt = prior.attempt)
    (transaction : receipt.transaction = transactionIdentity (some prior) prior.attempt)
    (message : receipt.message.utf8ByteSize ≤ maxResultMessageBytes)
    (completion : receipt.completion = none) : receipt.validateRecord = .ok () := by
  unfold Receipt.validateRecord at valid ⊢
  split_ifs at valid with wrong
  simp only [Bool.not_eq_true, Bool.or_eq_false_iff, Bool.not_eq_false'] at wrong
  obtain ⟨⟨⟨⟨⟨canonical, -⟩, accepted⟩, recorded⟩, own⟩, -⟩ := wrong
  have same : transactionIdentity (some prior) prior.attempt = prior.transaction := by
    unfold transactionIdentity
    split_ifs with reserved
    · rfl
    · rw [Bool.not_eq_true] at reserved
      simp only [reserved, Bool.not_false, Bool.true_and, bne_eq_false_iff_eq] at own
      exact own.symm
  rw [definition, attempt, transaction, same, completion, inputs, canonical,
    accepted, recorded, own,
    decide_eq_false (Nat.not_lt.mpr message)]
  rfl

end

/-! ## The operator's retry -/

/-- The hold the operator reads is this one. -/
def HoldIs (hold : Hold) (_ : Records) : Call → Choice → Prop
  | .readHold, choice => choice.hold = some hold
  | _, _ => True

/-- What the decision makes of the deployment receipt. -/
def releasedForward (forward : String) (receipt : Receipt) : Receipt :=
  if receipt.attempt == forward && receipt.phase == .needsAttention then
    { receipt with phase := .failed, message := "operator authorized recovery decision" }
  else receipt

/-- The records once a retry was recorded for the hold. -/
structure Readied (records : Records) (hold : Hold) (after : Records) : Prop where
  ready : ∃ receipt, after.receipt hold.operation = some receipt ∧
    receipt.attempt = hold.attempt ∧ receipt.phase = .ready
  forward : hold.operation = .rollback → after.converge =
    records.converge.map (releasedForward ((stripSuffix hold.attempt).getD hold.attempt))

section
variable [Crates] {hold : Hold} {records : Records}

theorem releaseForward_readied {allowed : Records → Call → Choice → Prop} {forward : String}
    {post : Unit → Records → Prop}
    (next : ∀ after : Records, after.rollback = records.rollback →
      after.converge = records.converge.map (releasedForward forward) → post () after) :
    Obeys allowed (fun _ _ => True) (releaseForward forward) post records := by
  unfold releaseForward
  refine follows_bind.mpr (obeys_read trivial ?_)
  cases stored : records.converge with
  | none =>
    rw [show records.receipt .converge = none from stored]
    exact fun _ => next records rfl (by rw [stored]; rfl)
  | some receipt =>
    rw [show records.receipt .converge = some receipt from stored]
    dsimp only
    split
    · rename_i held
      refine obeys_write trivial (next _ rfl ?_)
      rw [stored, Option.map_some, releasedForward, if_pos held]
      rfl
    · rename_i free
      refine fun _ => next records rfl ?_
      rw [stored, Option.map_some, releasedForward, if_neg free]

/-- **What a retry that succeeds leaves.** -/
theorem resolve_readied :
    Obeys (HoldIs hold) (fun _ _ => True) (resolve .retry)
      (fun _ after => Readied records hold after) records := by
  have finish {after : Records} (readied : Readied records hold after) :
      Obeys (HoldIs hold) (fun _ _ => True) (do io (← ask .removeHold))
        (fun _ after => Readied records hold after) after :=
    follows_bind.mpr (obeys_ask trivial fun _ => obeys_io fun _ _ => readied)
  unfold resolve
  refine follows_bind.mpr fun _ => ⟨trivial, ?_⟩
  rintro _ _ ⟨choice, held, answer⟩ _
  cases answer
  refine follows_bind.mpr (obeys_io fun found given => ?_)
  obtain ⟨_, _, given⟩ := Except.bind_ok_iff.mp given
  cases (given : Except.ok choice.hold = Except.ok found)
  rw [show choice.hold = some hold from held]
  refine follows_bind.mpr (obeys_read trivial ?_)
  split
  · exact fun _ => trivial
  rename_i receipt stored
  dsimp only
  split
  · exact fun _ => trivial
  rename_i mismatch
  have under : receipt.attempt = hold.attempt := by
    simp only [Bool.or_eq_true, bne_iff_ne, not_or, not_not] at mismatch
    exact mismatch.1
  split
  · exact fun _ => trivial
  refine follows_bind.mpr (obeys_ask trivial fun choice =>
    follows_bind.mpr (obeys_io fun _ done => ?_))
  have landed : (records.store hold.operation _ _ choice.write).1 = _ := store_eq_ok done
  change Follows _ _ _ _ _ _ (records.store hold.operation _ _ choice.write).1
  rw [landed, if_neg (by nofun)]
  split
  · rename_i recovering
    refine follows_bind.mpr (releaseForward_readied fun after rollback converge => ?_)
    rw [recovering] at rollback converge
    exact finish ⟨⟨_, (congrArg after.receipt recovering).trans rollback, under, rfl⟩,
      fun _ => converge⟩
  · rename_i deploying
    exact finish ⟨⟨_, (Records.receipt_log).trans Records.receipt_set, under, rfl⟩,
      fun recovering => absurd recovering deploying⟩

end

/-! ## The next invocation -/

/-- The next invocation, where it meets no fault, starts the command, and does so first. -/
def Launches [Crates] (config : Config) (definition : DigestText) (operation : MutationOperation)
    (reason : Reason) (attempt : String) (records : Records) : Prop :=
  ∀ script : List Choice, 6 ≤ script.length → (∀ choice ∈ script, choice.Faultless) →
    ∃ receipt inputs,
      .launched operation attempt inputs :: .wrote operation receipt ::
          .invoked operation attempt :: records.trace <:+
        (((Action.mutate operation reason attempt).program config definition).play Records.serve
          records script).2.trace

/-- Recovery can go on over the deployment receipt: it is of the transaction, and where it is held
it is under the transaction's own attempt, so that the decision releases it. -/
def Resumable (records : Records) (hold : Hold) : Prop :=
  hold.operation = .rollback → ∃ forward, records.converge = some forward ∧
    forward.transaction = stripSuffix hold.attempt ∧
      (forward.phase = .needsAttention → some forward.attempt = stripSuffix hold.attempt)

section
variable [Crates] {config : Config} {definition : DigestText} {operation : MutationOperation}
  {attempt : String} {records : Records} {receipt : Receipt} {inputs : DigestText}
  {choice : Choice} {rest : List Choice}

/-- Over a receipt that asks for it the command is started, whatever the policy. -/
theorem play_authorize (stored : records.receipt operation = some receipt)
    (valid : receipt.validateRecord = .ok ()) (own : receipt.definition = definition)
    (under : receipt.attempt = attempt) (ready : receipt.phase = .ready)
    (canonical : inputs.isCanonical = true) (faultless : choice.Faultless) (command : Procedure)
    (replay : Replay) (after : Choice) (rest : List Choice) :
    ∃ started, .launched operation attempt inputs :: .wrote operation started :: records.trace <:+
      ((authorize definition operation attempt (records.receipt operation) inputs command
        replay).play Records.serve records (choice :: after :: rest)).2.trace := by
  have certain : uncertain attempt (records.receipt operation) inputs = false := by
    rw [stored]
    simp [uncertain, ready]
  unfold authorize execute
  rw [certain, if_neg Bool.false_ne_true, stored]
  dsimp only
  rw [play_write faultless (validateRecord_identity valid own.symm canonical under.symm
    (by rw [under]) (show "command started".utf8ByteSize ≤ maxResultMessageBytes by decide) rfl)]
  refine ⟨?started, List.IsSuffix.trans ?suffix (trace_play _ _ rest)⟩
  case suffix =>
    change _ <:+ .launched operation attempt inputs :: .wrote operation _ ::
      (records.set operation _).trace
    rw [Records.trace_set]
    exact List.suffix_rfl

/-- What an invocation does once it holds the lock and has read a receipt that asks for it. -/
theorem play_mutate (kept : Legible definition records)
    (valid : validateMutation operation reason attempt = .ok ())
    (stored : records.receipt operation = some receipt) (under : receipt.attempt = attempt)
    (ready : receipt.phase = .ready) {first second third : Choice} (lock : first.Faultless)
    (load : second.Faultless) (digest : third.Faultless) :
    ((Action.mutate operation reason attempt).program config definition).play Records.serve records
        (first :: second :: third :: rest) =
      (match operation with
        | .converge => runConverge config definition attempt (some receipt) third.inputs
        | .rollback => runRollback config definition attempt (some receipt) third.inputs).play
          Records.serve (records.log (.invoked operation attempt)) rest := by
  have legible := kept.log (.invoked operation attempt)
  have found : (records.log (.invoked operation attempt)).receipt operation = some receipt :=
    (Records.receipt_log).trans stored
  have deploying : (operation = .converge && Contracts.Attempt.isCompensation attempt) = false := by
    cases operation with
    | converge =>
      rw [← under, kept.forward stored]
      rfl
    | rollback => rfl
  change (io ((validateMutation operation reason attempt).mapError .invalidData) >>= fun _ =>
    run config definition operation attempt).play Records.serve records _ = _
  rw [valid]
  change (run config definition operation attempt).play Records.serve records _ = _
  unfold run
  rw [play_lock lock]
  change (runLocked config definition operation attempt).play Records.serve _ _ = _
  unfold runLocked
  rw [play_read load fun _ => legible.valid, found]
  simp only [Option.any_some, kept.own stored, bne_self_eq_false, Bool.false_eq_true, if_false,
    deploying]
  rw [play_inputsDigest digest]
  simp only [ready]
  cases operation <;> simp

/-- A deployment that is asked for is started. -/
theorem launches_converge (kept : Legible definition records)
    (valid : validateMutation .converge reason attempt = .ok ())
    (stored : records.receipt .converge = some receipt) (under : receipt.attempt = attempt)
    (ready : receipt.phase = .ready) :
    Launches config definition .converge reason attempt records := by
  intro script long faultless
  match script, long with
  | first :: second :: third :: fourth :: fifth :: rest, _ =>
    rw [play_mutate kept valid stored under ready (faultless _ (by simp)) (faultless _ (by simp))
      (faultless _ (by simp))]
    have found : (records.log (.invoked .converge attempt)).receipt .converge = some receipt :=
      stored
    obtain ⟨started, grown⟩ :=
      play_authorize found (kept.valid stored) (kept.own stored) under ready
      (faultless third (by simp)).inputs (faultless fourth (by simp)) config.deploy config.replay
      fifth rest
    have unsettled : (some receipt).any (fun receipt => receipt.phase == .complete &&
        receipt.inputsSha256 == third.inputs &&
          (receipt.attempt == attempt || Contracts.Attempt.isReserved attempt)) = false := by
      simp [ready]
    refine ⟨started, third.inputs, ?_⟩
    rw [found] at grown
    dsimp only [runConverge]
    rw [unsettled]
    exact grown

/-- What recovery does over a receipt that asks for it, by what the deployment left. -/
theorem play_runRollback (kept : Legible definition records) (ready : receipt.phase = .ready)
    (faultless : choice.Faultless) :
    (runRollback config definition attempt (some receipt) inputs).play Records.serve records
        (choice :: rest) =
      (if records.converge.all fun receipt => receipt.transaction != stripSuffix attempt then
          success .rollback attempt false
        else if records.converge.any fun receipt => receipt.phase == .needsAttention then
          attention definition .rollback attempt
            "deployment outcome is unknown; automatic recovery is paused"
        else
          match config.recovery with
          | .command command replay =>
            authorize definition .rollback attempt (some receipt) inputs command replay
          | .manual =>
            attention definition .rollback attempt
              "deployment requires operator-managed recovery").play Records.serve records rest := by
  have unfinished : (some receipt).any (fun receipt =>
      receipt.attempt == attempt && receipt.phase == .complete) = false := by
    simp [ready]
  have own : (records.receipt .converge).any (fun receipt => receipt.definition != definition) =
      false := by
    cases stored : records.receipt .converge with
    | none => rfl
    | some forward => simp [kept.own stored]
  unfold runRollback
  rw [unfinished, if_neg Bool.false_ne_true, play_read faultless fun _ => kept.valid, own]
  rfl

/-- A recovery that is asked for is started over a deployment receipt that is of its transaction
and is not held. -/
theorem launches_rollback (kept : Legible definition records)
    (valid : validateMutation .rollback reason attempt = .ok ())
    (configured : (config.replayOf .rollback).isSome = true)
    (stored : records.receipt .rollback = some receipt) (under : receipt.attempt = attempt)
    (ready : receipt.phase = .ready) {forward : Receipt}
    (deployed : records.converge = some forward) (named : forward.transaction = stripSuffix attempt)
    (free : forward.phase ≠ .needsAttention) :
    Launches config definition .rollback reason attempt records := by
  intro script long faultless
  match script, long with
  | first :: second :: third :: fourth :: fifth :: sixth :: rest, _ =>
    rw [play_mutate kept valid stored under ready (faultless _ (by simp)) (faultless _ (by simp))
      (faultless _ (by simp))]
    dsimp only
    rw [play_runRollback (kept.log _) ready (faultless _ (by simp)), Records.converge_log, deployed]
    have found : (records.log (.invoked .rollback attempt)).receipt .rollback = some receipt :=
      stored
    cases recovery : config.recovery with
    | manual => simp [Config.replayOf, recovery] at configured
    | command command replay =>
      obtain ⟨started, grown⟩ := play_authorize found (kept.valid stored) (kept.own stored) under
        ready (faultless third (by simp)).inputs (faultless fifth (by simp)) command
          replay sixth rest
      refine ⟨started, third.inputs, ?_⟩
      rw [found] at grown
      simpa [named, free] using grown

/-- A recovery that is held again does nothing else. -/
theorem trace_play_attention (kept : Legible definition records)
    (stored : records.receipt operation = some receipt) (under : receipt.attempt = attempt)
    (message : String) (short : message.utf8ByteSize ≤ maxResultMessageBytes)
    {first second third : Choice} (load : first.Faultless) (save : second.Faultless)
    (answer : third.Faultless) (rest : List Choice) :
    ∃ held, ((attention definition operation attempt message).play Records.serve records
        (first :: second :: third :: rest)).2.trace =
      .reported operation attempt (.needsAttention message) :: .wrote operation held ::
        records.trace := by
  have valid := kept.valid stored
  have canonical := inputs_isCanonical valid
  unfold attention
  rw [play_read load fun _ => kept.valid, stored]
  dsimp only
  rw [play_pure, play_write save, play_publish answer]
  · exact ⟨_, by rw [Records.trace_log, Records.trace_log, Records.trace_set]⟩
  · exact validateRecord_identity valid (kept.own stored).symm canonical under.symm
      (by rw [under]) short rfl

/-- A trace with as many events that ends otherwise shows that nothing was started. -/
theorem not_launches_of_trace {script : List Choice} (long : 6 ≤ script.length)
    (faultless : ∀ choice ∈ script, choice.Faultless) (events : List Event) {attempted : Event}
    (trace : (((Action.mutate operation reason attempt).program config definition).play
      Records.serve records script).2.trace = attempted :: events ++ records.trace)
    (few : events.length ≤ 2) (other : ∀ inputs, attempted ≠ .launched operation attempt inputs) :
    ¬Launches config definition operation reason attempt records := by
  intro launches
  obtain ⟨started, inputs, later, grown⟩ := launches script long faultless
  rw [trace] at grown
  have lengths := congrArg List.length grown
  simp only [List.length_append, List.length_cons] at lengths
  obtain rfl : later = [] := List.eq_nil_of_length_eq_zero (by omega)
  simp only [List.nil_append, List.cons_append, List.cons.injEq] at grown
  exact other inputs grown.1.symm

omit [Crates] in
theorem faultless_default : ({} : Choice).Faultless := ⟨rfl, rfl, rfl, rfl⟩

/-- Three more choices without a fault. -/
def calm : List Choice := [{}, {}, {}]

/-- **Recovery over any other deployment receipt starts nothing.** -/
theorem not_launches_rollback (kept : Legible definition records)
    (valid : validateMutation .rollback reason attempt = .ok ())
    (stored : records.receipt .rollback = some receipt) (under : receipt.attempt = attempt)
    (ready : receipt.phase = .ready) (stopped : ∀ forward, records.converge = some forward →
      forward.transaction = stripSuffix attempt → forward.phase = .needsAttention) :
    ¬Launches config definition .rollback reason attempt records := by
  have legible := kept.log (.invoked .rollback attempt)
  have plays : ((Action.mutate .rollback reason attempt).program config definition).play
      Records.serve records ({} :: {} :: {} :: {} :: calm) = _ :=
    (play_mutate kept valid stored under ready faultless_default faultless_default
      faultless_default).trans (play_runRollback legible ready faultless_default)
  have fine (choice : Choice) (member : choice ∈ {} :: {} :: {} :: {} :: calm) :
      choice.Faultless := by
    rw [List.eq_of_mem_replicate (n := 7) member]
    exact faultless_default
  rw [Records.converge_log] at plays
  split_ifs at plays with foreign paused
  · exact not_launches_of_trace (by simp [calm]) fine [.invoked .rollback attempt]
      ((congrArg (·.2.trace) plays).trans (congrArg (·.2.trace) (play_publish faultless_default)))
      (by simp) (fun _ => nofun)
  · obtain ⟨held, trace⟩ := trace_play_attention legible (Records.receipt_log.trans stored) under
      "deployment outcome is unknown; automatic recovery is paused" (by decide)
      faultless_default faultless_default faultless_default []
    exact not_launches_of_trace (by simp [calm]) fine
      [.wrote .rollback held, .invoked .rollback attempt]
      ((congrArg (·.2.trace) plays).trans trace) (by simp) (fun _ => nofun)
  · -- The deployment receipt is of the transaction, so it is held, and recovery was paused.
    exfalso
    cases deployed : records.converge with
    | none => exact foreign (by rw [deployed]; rfl)
    | some forward =>
      rw [deployed] at foreign paused
      exact paused (by simp [stopped forward deployed (by simpa using foreign)])

omit [Crates] in
/-- The deployment receipt after the decision lets recovery go on exactly where it could be
resumed. -/
theorem resumable_iff {hold : Hold} (recovering : hold.operation = .rollback)
    (compensating : Contracts.Attempt.isCompensation hold.attempt = true) :
    Resumable records hold ↔ ∃ forward,
      records.converge.map (releasedForward ((stripSuffix hold.attempt).getD hold.attempt)) =
          some forward ∧
        forward.transaction = stripSuffix hold.attempt ∧ forward.phase ≠ .needsAttention := by
  obtain ⟨forward, named⟩ : ∃ forward, stripSuffix hold.attempt = some forward := by
    simp only [Contracts.Attempt.isCompensation, Bool.and_eq_true, beq_iff_eq] at compensating
    exact ⟨_, if_pos compensating.1⟩
  simp only [Resumable, recovering, true_implies, named, Option.getD_some, Option.map_eq_some_iff]
  constructor
  · rintro ⟨receipt, deployed, transaction, own⟩
    refine ⟨_, ⟨receipt, deployed, rfl⟩, ?_⟩
    unfold releasedForward
    split_ifs with held
    · exact ⟨transaction, by simp⟩
    · refine ⟨transaction, fun attention => held ?_⟩
      simp [Option.some.inj (own attention), attention]
  · rintro ⟨_, ⟨receipt, deployed, rfl⟩, transaction, free⟩
    refine ⟨receipt, deployed, ?_, fun attention => ?_⟩
    · unfold releasedForward at transaction
      split_ifs at transaction <;> exact transaction
    · by_contra other
      have apart : receipt.attempt ≠ forward := fun same => other (congrArg some same)
      refine free ?_
      rw [releasedForward, if_neg (by simp [apart])]
      exact attention

end

/-- **When an operator's retry is honoured**: in every history, after a retry was recorded for a
hold, the next invocation of the held operation and attempt starts the command exactly where the
deployment receipt lets it. A deployment's retry always does. -/
theorem retry_launches_iff [Crates] {config : Config} {definition : DigestText}
    {actions : List (Action × List Choice)} {hold : Hold} {reason : Reason} {script : List Choice}
    (configured : (config.replayOf hold.operation).isSome = true)
    (valid : validateMutation hold.operation reason hold.attempt = .ok ())
    (held : (resolve .retry).Admissible Records.serve (HoldIs hold)
      (history config definition {} actions) script)
    (resolved : ((resolve .retry).play Records.serve (history config definition {} actions)
      script).1 = .returned ()) :
    Launches config definition hold.operation reason hold.attempt
        ((resolve .retry).play Records.serve (history config definition {} actions) script).2 ↔
      Resumable (history config definition {} actions) hold := by
  have kept : Legible definition (history config definition {} actions) := legible_history actions
  generalize history config definition {} actions = records at *
  have legible : Legible definition ((resolve .retry).play Records.serve records script).2 :=
    ((legible_program (.resolve .retry) kept :
      ((Action.resolve .retry).program config definition).Ensures _ _ _ _ _).play script held).1
  have readied := ((resolve_readied.ensures (fun _ _ _ _ _ _ _ => trivial) trivial).play script
    held).2
  rw [resolved] at readied
  obtain ⟨⟨receipt, stored, under, ready⟩, forward⟩ := readied
  obtain ⟨operation, attempt⟩ := hold
  cases operation with
  | converge =>
    exact ⟨fun _ => nofun, fun _ => launches_converge legible valid stored under ready⟩
  | rollback =>
    rw [resumable_iff rfl (accepted_of_validateMutation valid), ← forward rfl]
    constructor
    · intro launches
      by_contra stopped
      refine not_launches_rollback legible valid stored under ready ?_ launches
      intro forward deployed named
      by_contra free
      exact stopped ⟨forward, deployed, named, free⟩
    · rintro ⟨forward, deployed, named, free⟩
      exact launches_rollback legible valid configured stored under ready deployed named free

end Updatedc.Agent.Command

namespace Updatedc.Agent.Command.Sample

open Contracts Updatedc.Sample

/-- The hold of the transaction's recovery. -/
def recoveryHold : Hold := ⟨.rollback, compensation (transaction 'a')⟩

/-- The operator's choices over it. -/
def answered : List Choice := List.replicate 6 { hold := some recoveryHold }

/-- The transaction's recovery, where it meets no fault. -/
def recover : Action × List Choice :=
  (.mutate .rollback .update (compensation (transaction 'a')), calls 8)

/-- A launch whose outcome is not known, another converge that is held for it, and the
transaction's recovery, which is paused because the deployment is held. -/
def paused (reason : Reason) (attempt : String) : List (Action × List Choice) :=
  [(converge 'a', calls 5), (.mutate .converge reason attempt, calls 6), recover]

/-- **Recovery is paused again after the operator's retry**: the deployment receipt is under the
attempt of the repair that was held last, so the decision does not release it. The last three events
are all that the recovery then does. -/
theorem retry_paused_again :
    ((resolve .retry).play Records.serve
        (history recoverable (.canonical 0) {} (paused .restart "boot")) answered).1 =
          .returned () ∧
      (history recoverable (.canonical 0) {}
        (paused .restart "boot" ++ [(.resolve .retry, answered), recover])).trace.take 4 =
        [.reported .rollback (compensation (transaction 'a'))
          (.needsAttention "deployment outcome is unknown; automatic recovery is paused"),
        .wrote .rollback (receipt 'a' (compensation (transaction 'a')) .needsAttention
          "deployment outcome is unknown; automatic recovery is paused"),
        .invoked .rollback (compensation (transaction 'a')),
        .decided .rollback (receipt 'a' (compensation (transaction 'a')) .ready
          "operator decision: retry") .retry] := by
  decide

/-- Where the transaction's own attempt was held last, recovery goes on. -/
theorem retry_launches_iff_own :
    Launches recoverable (.canonical 0) .rollback .update (compensation (transaction 'a'))
      ((resolve .retry).play Records.serve
        (history recoverable (.canonical 0) {} (paused .update (transaction 'a'))) answered).2 := by
  have resolved : ((resolve .retry).play Records.serve
        (history recoverable (.canonical 0) {} (paused .update (transaction 'a'))) answered).1 =
          .returned () ∧
      (history recoverable (.canonical 0) {} (paused .update (transaction 'a'))).converge =
        some (receipt 'a' (transaction 'a') .needsAttention
          "repeating the deployment command is not authorized") := by
    decide
  have held : (resolve .retry).Admissible Records.serve (HoldIs recoveryHold)
      (history recoverable (.canonical 0) {} (paused .update (transaction 'a'))) answered := by
    refine Program.admissible_of_script _ _ fun choice member records call => ?_
    rw [List.eq_of_mem_replicate member]
    cases call <;> first | rfl | trivial
  exact (retry_launches_iff rfl (by decide) held resolved.1).mpr fun _ =>
    ⟨_, resolved.2, stripSuffix_compensation.symm, fun _ => stripSuffix_compensation.symm⟩

end Updatedc.Agent.Command.Sample
