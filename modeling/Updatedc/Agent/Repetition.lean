import Updatedc.Agent.Launches

/-!
# No command is repeated without authority

Under the manual policy a command that was started is not started again on the adapter's own
judgement. What may authorize a second launch is named by `Excused`, over the events since the
launch before it; `Controlled` is what the records keep so that every launch is excused.

**The adapter does not keep it in every history.** A hold rewrites the receipt under the attempt of
the invocation that met it, so an operator who declares that command complete completes a receipt
that no longer names the attempt it was launched under, and the launched attempt then counts as a
new one (`Sample.relaunched_unexcused`). Where the operator only completes receipts that still name
the last launch (`DecisionsMatch`), every launch is excused (`manual_relaunch_excused`).
-/

namespace Updatedc.Agent.Command

open Contracts Program

/-! ## What authorizes a second launch -/

/-- The last launch of the operation's command is this one, and `events` came after it. -/
def Since (operation : MutationOperation) (trace : List Event) (attempt : String)
    (inputs : DigestText) (events : List Event) : Prop :=
  (∃ before, trace = events ++ .launched operation attempt inputs :: before) ∧
    ∀ other with', .launched operation other with' ∉ events

/-- The operator recorded retry, or the command itself asked for it. -/
def Retried (operation : MutationOperation) (events : List Event) : Prop :=
  (∃ receipt, .decided operation receipt .retry ∈ events) ∨
    ∃ attempt seconds message, .finished operation attempt (.retry seconds message) ∈ events

/-- The operation's receipt became complete. -/
def Completed (operation : MutationOperation) (events : List Event) : Prop :=
  ∃ receipt, receipt.phase = .complete ∧
    (.wrote operation receipt ∈ events ∨ ∃ decision, .decided operation receipt decision ∈ events)

/-- `attempt` is a transaction's, and another one than the launch before. -/
def OtherAttempt (launched attempt : String) : Prop :=
  Contracts.Attempt.isReserved attempt = false ∧ attempt ≠ launched

/-- **What authorizes a launch** after one under `launched` with inputs `given`. -/
def Excused (operation : MutationOperation) (launched : String) (given : DigestText)
    (attempt : String) (inputs : DigestText) (events : List Event) : Prop :=
  Retried operation events ∨
    (Completed operation events ∧ (OtherAttempt launched attempt ∨ inputs ≠ given))

section
variable {operation : MutationOperation} {trace events later : List Event} {event : Event}
  {launched attempt : String} {given inputs : DigestText}

theorem Retried.mono (retried : Retried operation events) (more : events ⊆ later) :
    Retried operation later := by
  rcases retried with ⟨receipt, decided⟩ | ⟨attempt, seconds, message, asked⟩
  · exact .inl ⟨receipt, more decided⟩
  · exact .inr ⟨attempt, seconds, message, more asked⟩

theorem Completed.mono (completed : Completed operation events) (more : events ⊆ later) :
    Completed operation later := by
  obtain ⟨receipt, complete, wrote | ⟨decision, decided⟩⟩ := completed
  · exact ⟨receipt, complete, .inl (more wrote)⟩
  · exact ⟨receipt, complete, .inr ⟨decision, more decided⟩⟩

theorem Excused.mono (excused : Excused operation launched given attempt inputs events)
    (more : events ⊆ later) : Excused operation launched given attempt inputs later := by
  rcases excused with retried | ⟨completed, other⟩
  · exact .inl (retried.mono more)
  · exact .inr ⟨completed.mono more, other⟩

/-- What happened since the last launch, with one event more. -/
theorem since_cons :
    Since operation (event :: trace) attempt inputs events ↔
      (event = .launched operation attempt inputs ∧ events = []) ∨
        ((∀ other with', event ≠ .launched operation other with') ∧
          ∃ rest, events = event :: rest ∧ Since operation trace attempt inputs rest) := by
  constructor
  · rintro ⟨⟨before, split⟩, none⟩
    cases events with
    | nil => exact .inl ⟨(List.cons.inj split).1, rfl⟩
    | cons first rest =>
      obtain ⟨rfl, tail⟩ := List.cons.inj split
      refine .inr ⟨fun other with' same => none other with' (same ▸ List.mem_cons_self), rest, rfl,
        ⟨before, tail⟩, fun other with' here => none other with' (List.mem_cons_of_mem _ here)⟩
  · rintro (⟨rfl, rfl⟩ | ⟨quiet, rest, rfl, ⟨before, rfl⟩, none⟩)
    · exact ⟨⟨trace, rfl⟩, by simp⟩
    · refine ⟨⟨before, rfl⟩, fun other with' here => ?_⟩
      rcases List.mem_cons.mp here with same | here
      · exact quiet other with' same.symm
      · exact none other with' here

theorem since_head (h : Since operation (.launched operation attempt inputs :: trace) launched given
    events) : launched = attempt ∧ given = inputs ∧ events = [] := by
  rcases since_cons.mp h with ⟨same, rfl⟩ | ⟨quiet, -⟩
  · cases same
    exact ⟨rfl, rfl, rfl⟩
  · exact absurd rfl (quiet attempt inputs)

theorem since_tail (h : Since operation (event :: trace) launched given events)
    (quiet : ∀ other with', event ≠ .launched operation other with') :
    ∃ rest, events = event :: rest ∧ Since operation trace launched given rest := by
  rcases since_cons.mp h with ⟨same, -⟩ | ⟨-, rest⟩
  · exact absurd same (quiet _ _)
  · exact rest

end

/-! ## The invariant -/

/-- **Every launch is excused**, and a receipt that would let the next one through is.

What stands in the receipt is judged against the last launch: without a retry it is in doubt, or
complete and still that launch's. A rollback's inputs need not be compared, since recovery is not
repeated under the attempt it completed in. -/
structure Controlled (operation : MutationOperation) (records : Records) : Prop where
  excused : ∀ {later before events : List Event} {attempt launched : String}
      {inputs given : DigestText},
    records.trace = later ++ .launched operation attempt inputs :: before →
      Since operation before launched given events →
        Excused operation launched given attempt inputs events
  /-- The receipt of a launch that is about to happen. -/
  pending : ∀ {receipt : Receipt} {rest events : List Event} {launched : String}
      {given : DigestText},
    records.trace = .wrote operation receipt :: rest → receipt.phase = .running →
      Since operation rest launched given events →
        Excused operation launched given receipt.attempt receipt.inputsSha256 events
  standing : ∀ {events : List Event} {launched : String} {given : DigestText},
    Since operation records.trace launched given events → Retried operation events ∨
      ∃ receipt, records.receipt operation = some receipt ∧ receipt.phase ≠ .ready ∧
        (receipt.phase = .complete → Completed operation events ∧ receipt.attempt = launched ∧
          (operation = .converge → receipt.inputsSha256 = given))

theorem controlled_empty (operation : MutationOperation) : Controlled operation {} where
  excused split := by simp at split
  pending split := by simp at split
  standing since := by
    obtain ⟨⟨before, split⟩, -⟩ := since
    simp at split

section
variable {operation : MutationOperation} {records after : Records} {event : Event}

/-- An event that starts nothing adds no launch to excuse. -/
theorem Controlled.excused_cons (kept : Controlled operation records)
    (logged : after.trace = event :: records.trace)
    (quiet : ∀ other with', event ≠ .launched operation other with')
    {later before events : List Event} {attempt launched : String} {inputs given : DigestText}
    (split : after.trace = later ++ .launched operation attempt inputs :: before)
    (since : Since operation before launched given events) :
    Excused operation launched given attempt inputs events := by
  rw [logged] at split
  cases later with
  | nil => exact absurd (List.cons.inj split).1 (quiet _ _)
  | cons _ later => exact kept.excused (List.cons.inj split).2 since

/-- An event that neither starts the command nor rewrites its receipt changes nothing. -/
theorem Controlled.quiet (kept : Controlled operation records)
    (logged : after.trace = event :: records.trace)
    (same : after.receipt operation = records.receipt operation)
    (quiet : ∀ other with', event ≠ .launched operation other with')
    (unwritten : ∀ receipt, event ≠ .wrote operation receipt) : Controlled operation after where
  excused := kept.excused_cons logged quiet
  pending split := by
    rw [logged] at split
    exact absurd (List.cons.inj split).1 (unwritten _)
  standing since := by
    rw [logged] at since
    obtain ⟨rest, rfl, earlier⟩ := since_tail since quiet
    have more : rest ⊆ event :: rest := List.subset_cons_self _ _
    rcases kept.standing earlier with retried | ⟨receipt, stored, unready, complete⟩
    · exact .inl (retried.mono more)
    · refine .inr ⟨receipt, same.trans stored, unready, fun done => ?_⟩
      exact ⟨(complete done).1.mono more, (complete done).2⟩

/-- A receipt rewritten without starting the command. -/
theorem Controlled.rewritten (kept : Controlled operation records) {receipt : Receipt}
    (quiet : ∀ other with', event ≠ .launched operation other with')
    (about : ∀ written, event = .wrote operation written → written = receipt)
    (start : receipt.phase = .running → ∀ {events launched given},
      Since operation records.trace launched given events →
        Excused operation launched given receipt.attempt receipt.inputsSha256 events)
    (stands : ∀ {events launched given}, Since operation records.trace launched given events →
      Retried operation (event :: events) ∨ (receipt.phase ≠ .ready ∧
        (receipt.phase = .complete → Completed operation (event :: events) ∧
          receipt.attempt = launched ∧ (operation = .converge → receipt.inputsSha256 = given)))) :
    Controlled operation ((records.set operation receipt).log event) where
  excused := kept.excused_cons (by simp) quiet
  pending split running since := by
    simp only [Records.trace_log, Records.trace_set] at split
    obtain ⟨head, rfl⟩ := List.cons.inj split
    cases about _ head
    exact start running since
  standing since := by
    simp only [Records.trace_log, Records.trace_set] at since
    obtain ⟨rest, rfl, earlier⟩ := since_tail since quiet
    exact (stands earlier).imp_right fun stood => ⟨receipt, by simp, stood⟩

/-- A cleared launch is excused by what stands. -/
theorem Controlled.cleared (kept : Controlled operation records) {config : Config}
    (manual : config.replayOf operation = some .manual) {attempt : String} {inputs : DigestText}
    (accepted : Accepted attempt operation)
    (cleared : Cleared config operation attempt inputs (records.receipt operation))
    {events : List Event} {launched : String} {given : DigestText}
    (since : Since operation records.trace launched given events) :
    Excused operation launched given attempt inputs events := by
  rcases kept.standing since with retried | ⟨receipt, stored, unready, complete⟩
  · exact .inl retried
  · rcases cleared.manual manual receipt stored with ready | ⟨done, other⟩
    · exact absurd ready unready
    · obtain ⟨completed, rfl, same⟩ := complete done
      refine .inr ⟨completed, ?_⟩
      cases operation with
      | converge =>
        rcases other with changed | ⟨different, transactional⟩
        · exact .inr (same rfl ▸ changed.symm)
        · exact .inl ⟨transactional, different.symm⟩
      | rollback =>
        exact .inl ⟨not_isReserved_of_isCompensation accepted,
          (cleared.recovery rfl receipt stored done).symm⟩

end

/-! ## What each call keeps -/

/-- The attempt and the inputs of the last launch of the operation's command. -/
def lastLaunch (operation : MutationOperation) (trace : List Event) :
    Option (String × DigestText) :=
  trace.findSome? fun
    | .launched started attempt inputs =>
      if started = operation then some (attempt, inputs) else none
    | _ => none

theorem Since.lastLaunch {operation : MutationOperation} {trace events : List Event}
    {launched : String} {given : DigestText} (since : Since operation trace launched given events) :
    lastLaunch operation trace = some (launched, given) := by
  obtain ⟨⟨before, rfl⟩, none⟩ := since
  unfold Command.lastLaunch
  rw [List.findSome?_append, List.findSome?_eq_none_iff.mpr]
  · simp
  · rintro event here
    split
    · rename_i started attempt inputs
      rw [if_neg]
      rintro rfl
      exact none _ _ here
    · rfl

/-- The operator completes only a receipt that still names the last launch of its command. -/
def DecisionsMatch (operation : MutationOperation) (records : Records) : Call → Choice → Prop
  | .decide decided receipt decision, _ => decided = operation → decision ≠ .retry →
      ∀ launch ∈ lastLaunch operation records.trace, receipt.attempt = launch.1 ∧
        (operation = .converge → receipt.inputsSha256 = launch.2)
  | _, _ => True

instance (operation : MutationOperation) (records : Records) :
    ∀ (call : Call) (choice : Choice), Decidable (DecisionsMatch operation records call choice)
  | .decide _ _ _, _ => inferInstanceAs (Decidable (_ → _ → _))
  | .lock _ _, _ | .read _, _ | .write _ _, _ | .inputsDigest, _ | .bootIdentity, _
  | .observeCommand _ _, _ | .check _ _ _, _ | .launch _ _ _ _, _ | .capture _ _, _
  | .writeOutput _ _, _ | .publish _ _ _, _ | .readHold, _ | .removeHold, _ => .isTrue trivial

section
variable {config : Config} {operation : MutationOperation} {records : Records}

/-- A receipt written by an invocation. -/
theorem Controlled.wrote (kept : Controlled operation records)
    (manual : config.replayOf operation = some .manual) {attempt : String}
    (accepted : Accepted attempt operation) {receipt : Receipt} (under : receipt.attempt = attempt)
    (writes : Writes config operation attempt records receipt) :
    Controlled operation ((records.set operation receipt).log (.wrote operation receipt)) := by
  refine kept.rewritten (fun _ _ => nofun) (fun _ same => by cases same; rfl) (fun running => ?_) ?_
  · intro events launched given since
    cases writes with
    | start _ cleared =>
      subst under
      exact kept.cleared manual accepted cleared since
    | attention phase | verified phase | completed phase | asked phase | failed phase =>
      rw [running] at phase
      cases phase
  · intro events launched given since
    cases writes with
    | attention phase | start phase | failed phase =>
      rw [phase]
      exact .inr ⟨by nofun, by nofun⟩
    | verified _ _ policy => exact absurd manual policy
    | completed phase ran _ =>
      rw [ran] at since
      obtain ⟨rest, rfl, earlier⟩ := since_tail since fun _ _ => nofun
      obtain ⟨rfl, rfl, rfl⟩ := since_head earlier
      refine .inr ⟨by rw [phase]; nofun, fun _ => ⟨?_, under, fun _ => rfl⟩⟩
      exact ⟨receipt, phase, .inl List.mem_cons_self⟩
    | asked phase ran =>
      rw [ran] at since
      obtain ⟨rest, rfl, -⟩ := since_tail since fun _ _ => nofun
      exact .inl (.inr ⟨attempt, _, _, List.mem_cons_of_mem _ List.mem_cons_self⟩)

/-- An operator's decision. -/
theorem Controlled.decided (kept : Controlled operation records) {receipt : Receipt}
    {decision : Decision} (phase : receipt.phase = decision.phase)
    (matched : decision ≠ .retry → ∀ launch ∈ lastLaunch operation records.trace,
      receipt.attempt = launch.1 ∧ (operation = .converge → receipt.inputsSha256 = launch.2)) :
    Controlled operation
      ((records.set operation receipt).log (.decided operation receipt decision)) := by
  refine kept.rewritten (fun _ _ => nofun) (fun _ => nofun) (fun running => ?_) fun since => ?_
  · rw [running] at phase
    cases decision <;> cases phase
  · by_cases retry : decision = .retry
    · subst retry
      exact .inl (.inl ⟨receipt, List.mem_cons_self⟩)
    · have complete : receipt.phase = .complete := by
        rw [phase]
        cases decision with
        | retry => exact absurd rfl retry
        | complete | recovered => rfl
      refine .inr ⟨by rw [complete]; nofun, fun _ => ⟨?_, matched retry _ since.lastLaunch⟩⟩
      exact ⟨receipt, complete, .inr ⟨decision, List.mem_cons_self⟩⟩

/-- A launch under the receipt just written. -/
theorem Controlled.launched (kept : Controlled operation records) {receipt : Receipt}
    {rest : List Event} (written : records.trace = .wrote operation receipt :: rest)
    (stored : records.receipt operation = some receipt) (running : receipt.phase = .running) :
    Controlled operation
      (records.log (.launched operation receipt.attempt receipt.inputsSha256)) where
  excused := by
    intro later before events attempt launched inputs given split since
    rw [Records.trace_log] at split
    cases later with
    | nil =>
      obtain ⟨head, rfl⟩ := List.cons.inj split
      cases head
      rw [written] at since
      obtain ⟨rest, rfl, earlier⟩ := since_tail since fun _ _ => nofun
      exact (kept.pending written running earlier).mono (List.subset_cons_self _ _)
    | cons _ later => exact kept.excused (List.cons.inj split).2 since
  pending split := by
    cases split
  standing since := by
    obtain ⟨rfl, rfl, rfl⟩ := since_head since
    refine .inr ⟨receipt, by simpa using stored, ?_, ?_⟩ <;> rw [running] <;> nofun

/-- What happens to the other operation's receipt. -/
theorem Controlled.other (kept : Controlled operation records) {which : MutationOperation}
    (other : which ≠ operation) {receipt : Receipt} {event : Event}
    (quiet : ∀ attempt inputs, event ≠ .launched operation attempt inputs)
    (unwritten : ∀ receipt, event ≠ .wrote operation receipt) :
    Controlled operation ((records.set which receipt).log event) :=
  kept.quiet (by simp) (by rw [Records.receipt_log, Records.receipt_set_of_ne other.symm]) quiet
    unwritten

/-- **No call of an invocation breaks it.** -/
theorem Controlled.permitted [Crates] (kept : Controlled operation records)
    (manual : config.replayOf operation = some .manual) {invoked : MutationOperation}
    {attempt : String} {definition : DigestText} (accepted : Accepted attempt invoked) {call : Call}
    (may : Permitted config definition invoked attempt records call) (choice : Choice) :
    Controlled operation (records.serve call choice).1 := by
  generalize (records.serve call choice).1 = after, serve_effect records call choice = effect
  cases effect with
  | nothing => exact kept
  | invoked | decided => exact may.elim
  | checked | finished | reported =>
    exact kept.quiet rfl (by simp) (fun _ _ => nofun) (fun _ => nofun)
  | wrote which receipt =>
    obtain ⟨rfl, under, -, -, -, writes⟩ := may
    by_cases same : which = operation
    · subst same
      exact kept.wrote manual accepted under writes
    · refine kept.other same (fun _ _ => nofun) fun _ here => ?_
      cases here
      exact same rfl
  | launched command which under inputs =>
    obtain ⟨rfl, rfl, receipt, rest, written, stored, running, rfl, rfl⟩ := may
    by_cases same : which = operation
    · subst same
      exact kept.launched written stored running
    · refine kept.quiet rfl (by simp) (fun _ _ here => ?_) (fun _ => nofun)
      cases here
      exact same rfl

/-- **No call of the operator breaks it**, where decisions match. -/
theorem Controlled.decides [Crates] (kept : Controlled operation records) {call : Call}
    {choice : Choice} (matched : DecisionsMatch operation records call choice)
    (may : Decides records call) : Controlled operation (records.serve call choice).1 := by
  generalize (records.serve call choice).1 = after, serve_effect records call choice = effect
  cases effect with
  | nothing => exact kept
  | invoked | checked | launched | finished | reported => exact may.elim
  | wrote which receipt =>
    obtain ⟨rfl, failed, -⟩ := may
    by_cases same : MutationOperation.converge = operation
    · subst same
      refine kept.rewritten (fun _ _ => nofun) (fun _ same => by cases same; rfl)
        (fun running => ?_) ?_
      · rw [failed] at running
        cases running
      · intro events launched given _
        rw [failed]
        exact .inr ⟨by nofun, by nofun⟩
    · refine kept.other same (fun _ _ => nofun) fun _ here => ?_
      cases here
      exact same rfl
  | decided which receipt decision =>
    by_cases same : which = operation
    · subst same
      exact kept.decided may.1 (matched rfl)
    · exact kept.other same (fun _ _ => nofun) (fun _ => nofun)

end

/-- **Where operators complete only what the last launch left, every launch is authorized**: in
every history, under the manual policy, a launch after another one comes after a retry, or after the
receipt became complete and for another transaction attempt or other inputs. -/
theorem manual_relaunch_excused [Crates] {config : Config} {definition : DigestText}
    {operation : MutationOperation} (manual : config.replayOf operation = some .manual)
    {actions : List (Action × List Choice)}
    (matched : HistoryAdmissible config definition (DecisionsMatch operation) {} actions)
    {later before events : List Event} {attempt launched : String} {inputs given : DigestText}
    (relaunched : (history config definition {} actions).trace =
      later ++ .launched operation attempt inputs :: before)
    (since : Since operation before launched given events) :
    Excused operation launched given attempt inputs events := by
  have kept : Controlled operation (history config definition {} actions) := by
    refine keeps_history (fun action records start => action_ensures
      (fun invoked attempt records => Accepted attempt invoked ∧ Controlled operation records)
      ?_ ?_ ?_ ?_ ?_ action start) actions (controlled_empty operation) matched
    · exact fun invoked attempt records accepted kept =>
        ⟨accepted, kept.quiet rfl (by simp) (fun _ _ => nofun) (fun _ => nofun)⟩
    · exact fun _ _ _ held => held.2
    · exact fun invoked attempt records call choice _ held may =>
        ⟨held.1, held.2.permitted manual held.1 may choice⟩
    · exact fun records call choice free kept may => kept.decides free may
    · exact fun _ _ _ _ _ kept => kept.quiet rfl (by simp) (fun _ _ => nofun) (fun _ => nofun)
  exact kept.excused relaunched since

end Updatedc.Agent.Command

namespace Updatedc.Agent.Command.Sample

open Contracts Updatedc.Sample

/-- A deployment procedure that may not be repeated, and no recovery command. -/
def config : Config :=
  { deploy := ⟨["deploy"], 60⟩, health := none, inspect := none, replay := .manual
    recovery := .manual }

variable (digit : Char)

/-- A transaction's identity. -/
def transaction : String := String.ofList (List.replicate 64 digit)

def converge : Action := .mutate .converge .update (transaction digit)

/-- A process that meets no fault and dies after this many calls. -/
def calls (count : Nat) : List Choice := List.replicate count {}

/-- The operator's choices, over the hold of this attempt. -/
def held (attempt : String) : List Choice :=
  { hold := some ⟨.converge, attempt⟩ } :: calls 3

/-- A receipt of a transaction, as written under this attempt. -/
def receipt (attempt : String) (phase : Phase) (message : String) : Receipt :=
  { definition := .canonical 0, inputsSha256 := .canonical 0, attempt
    transaction := some (transaction digit), phase, message, exitCode := none, completion := none }

/-- A launch of transaction `a` whose outcome is not known, an invocation that is held for it, the
operator's word that the held command is complete, and a transaction after that. -/
def completed (attempt : String) (reason : Reason) (next : Char) : List (Action × List Choice) :=
  [(converge 'a', calls 5), (.mutate .converge reason attempt, calls 6),
    (.resolve .complete, held attempt), (converge next, calls 5)]

/-- The start of a transaction's command, up to the launch. -/
def authorized : List Event :=
  [.wrote .converge (receipt digit (transaction digit) .running "command started"),
    .invoked .converge (transaction digit)]

/-- What happened between the two launches, the latest first. -/
def between (attempt : String) (next : Char) : List Event :=
  authorized next ++
    [.decided .converge (receipt 'a' attempt .complete "operator decision: complete") .complete,
      .reported .converge attempt
        (.needsAttention "repeating the deployment command is not authorized"),
      .wrote .converge (receipt 'a' attempt .needsAttention
        "repeating the deployment command is not authorized"),
      .invoked .converge attempt]

/-- The first launch and what came after it. -/
def first (attempt : String) (next : Char) : List Event :=
  between attempt next ++ .launched .converge (transaction 'a') (.canonical 0) :: authorized 'a'

theorem since_first (attempt : String) (next : Char) :
    Since .converge (first attempt next) (transaction 'a') (.canonical 0)
      (between attempt next) :=
  ⟨⟨_, rfl⟩, by simp [between, authorized]⟩

/-- **The same transaction is launched twice with the same inputs**, without a retry: the repair
that was held in between put its own attempt into the receipt the operator completed. -/
theorem relaunched_unexcused :
    (history config (.canonical 0) {} (completed "boot" .restart 'a')).trace =
        .launched .converge (transaction 'a') (.canonical 0) :: first "boot" 'a' ∧
      Since .converge (first "boot" 'a') (transaction 'a') (.canonical 0) (between "boot" 'a') ∧
      ¬Excused .converge (transaction 'a') (.canonical 0) (transaction 'a') (.canonical 0)
        (between "boot" 'a') := by
  refine ⟨by decide, since_first _ _, ?_⟩
  simp [Excused, Retried, OtherAttempt, between, authorized]

/-- Where the hold names the launch, another transaction goes ahead. -/
theorem manual_relaunch_excused_completed :
    (history config (.canonical 0) {} (completed (transaction 'a') .update 'b')).trace =
        .launched .converge (transaction 'b') (.canonical 0) :: first (transaction 'a') 'b' ∧
      Excused .converge (transaction 'a') (.canonical 0) (transaction 'b') (.canonical 0)
        (between (transaction 'a') 'b') := by
  have launched :
      (history config (.canonical 0) {} (completed (transaction 'a') .update 'b')).trace =
        [] ++ .launched .converge (transaction 'b') (.canonical 0) ::
          first (transaction 'a') 'b' := by
    decide
  exact ⟨launched, manual_relaunch_excused rfl (by decide) launched (since_first _ _)⟩

end Updatedc.Agent.Command.Sample
