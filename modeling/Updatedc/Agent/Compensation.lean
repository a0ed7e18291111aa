import Updatedc.Agent.Repetition

/-!
# Compensation is never skipped

Deployments, routine repairs and holds share one receipt, and recovery share another. A rollback
reports success without running anything where the deployment receipt names another transaction, so
the receipt must go on naming the transaction whose effects are outstanding, whatever repairs run in
between. `Tracked` is that invariant. It holds in every history; what it needs to be of use is only
that **no other transaction converges** the payload once the transaction was authorized
(`Undisturbed`).
-/

namespace Updatedc.Agent.Command

open Contracts Program

/-! ## Transaction identities -/

/-- A transaction's compensating attempt. -/
def compensation (transaction : String) : String := transaction ++ "r"

section
variable {transaction : String}

theorem r_notMem_of_isCanonicalSha256 (canonical : isCanonicalSha256 transaction = true) :
    'r' ∉ transaction.toList := by
  intro member
  simp only [isCanonicalSha256, Bool.and_eq_true, List.all_eq_true] at canonical
  exact absurd (canonical.2 'r' member) (by decide)

theorem trimEnd_of_isCanonicalSha256 (canonical : isCanonicalSha256 transaction = true) :
    trimEnd transaction = transaction := by
  have kept : transaction.toList.reverse.dropWhile (· == 'r') = transaction.toList.reverse := by
    rw [List.dropWhile_eq_self_iff]
    intro nonempty
    have member := List.mem_reverse.mp (List.getElem_mem nonempty)
    rw [beq_iff_eq]
    intro same
    exact r_notMem_of_isCanonicalSha256 canonical (same ▸ member)
  rw [trimEnd, kept, List.reverse_reverse, String.ofList_toList]

theorem not_isReserved_of_isCanonicalSha256 (canonical : isCanonicalSha256 transaction = true) :
    Contracts.Attempt.isReserved transaction = false := by
  rw [Bool.eq_false_iff]
  intro reserved
  simp only [Contracts.Attempt.isReserved, Contracts.Attempt.all, List.contains_eq_mem,
    List.mem_cons, List.not_mem_nil, or_false, decide_eq_true_eq] at reserved
  rcases reserved with rfl | rfl | rfl | rfl <;> exact absurd canonical (by decide)

theorem stripSuffix_compensation : stripSuffix (compensation transaction) = some transaction := by
  simp [stripSuffix, compensation]

theorem isCompensation_compensation :
    Contracts.Attempt.isCompensation (compensation transaction) =
      isCanonicalSha256 transaction := by
  simp [Contracts.Attempt.isCompensation, compensation]

end

/-! ## What the trace says of a transaction -/

/-- A deployment launch under the transaction was durably authorized. -/
def Authorized (transaction : String) (trace : List Event) : Prop :=
  ∃ receipt, .wrote .converge receipt ∈ trace ∧ receipt.phase = .running ∧
    receipt.attempt = transaction

/-- Once the transaction was authorized, no other one converged the payload. -/
def Undisturbed (transaction : String) (trace : List Event) : Prop :=
  ∀ {later early : List Event} {other : String},
    trace = later ++ .invoked .converge other :: early → isCanonicalSha256 other = true →
      other ≠ transaction → ¬Authorized transaction early

/-- Recovery was completed under this attempt: by the recovery command, by its completion check, or
by an operator's word. -/
def Settled (attempt : String) (trace : List Event) : Prop :=
  (∃ result, result.isSucceeded = true ∧ .finished .rollback attempt result ∈ trace) ∨
    .checked .rollback attempt (some 0) ∈ trace ∨
    ∃ receipt decision, decision ≠ .retry ∧ receipt.attempt = attempt ∧
      .decided .rollback receipt decision ∈ trace

section
variable {transaction attempt : String} {trace later : List Event} {event : Event}

theorem Settled.mono (settled : Settled attempt trace) (more : trace ⊆ later) :
    Settled attempt later := by
  rcases settled with ⟨result, succeeded, finished⟩ | checked |
    ⟨receipt, decision, no, same, decided⟩
  · exact .inl ⟨result, succeeded, more finished⟩
  · exact .inr (.inl (more checked))
  · exact .inr (.inr ⟨receipt, decision, no, same, more decided⟩)

theorem Undisturbed.tail (alone : Undisturbed transaction (event :: trace)) :
    Undisturbed transaction trace := by
  intro later early other split
  exact alone (show event :: trace = (event :: later) ++ _ :: early by rw [split]; rfl)

/-- Only the receipt of a deployment launch authorizes one. -/
theorem Authorized.of_cons (authorized : Authorized transaction (event :: trace))
    (quiet : ∀ receipt, event = .wrote .converge receipt → receipt.phase = .running →
      receipt.attempt ≠ transaction) : Authorized transaction trace := by
  obtain ⟨receipt, wrote, running, same⟩ := authorized
  rcases List.mem_cons.mp wrote with rfl | wrote
  · exact absurd same (quiet receipt rfl running)
  · exact ⟨receipt, wrote, running, same⟩

end

/-! ## The invariant -/

/-- **The receipts know what is owed.** -/
structure Tracked (records : Records) : Prop where
  /-- The deployment receipt names the transaction whose launch was authorized. -/
  owned : ∀ {transaction : String}, isCanonicalSha256 transaction = true →
    Authorized transaction records.trace → Undisturbed transaction records.trace →
      ∃ receipt, records.converge = some receipt ∧ receipt.transaction = some transaction
  /-- A completed recovery receipt is backed. -/
  completed : ∀ {receipt : Receipt}, records.rollback = some receipt →
    receipt.phase = .complete → Settled receipt.attempt records.trace
  reported : ∀ {later before : List Event} {transaction : String} {result : Resolution},
    records.trace = later ++ .reported .rollback (compensation transaction) result :: before →
      result.isSucceeded = true → Undisturbed transaction before →
        ¬Authorized transaction before ∨ Settled (compensation transaction) before

theorem tracked_empty : Tracked {} where
  owned _ authorized := by
    obtain ⟨_, wrote, _⟩ := authorized
    cases wrote
  completed stored := by cases stored
  reported split := by simp at split

/-- While an invocation holds the lock, the deployment receipts it wrote are under its attempt. -/
def Current (attempt : String) (trace : List Event) : Prop :=
  ∃ own early, trace = own ++ .invoked .converge attempt :: early ∧
    ∀ receipt, .wrote .converge receipt ∈ own → receipt.attempt = attempt

/-- A transaction that holds the lock disturbs every other one. -/
theorem Current.disturbs {attempt transaction : String} {trace : List Event}
    (current : Current attempt trace) (canonical : isCanonicalSha256 attempt = true)
    (other : attempt ≠ transaction) (authorized : Authorized transaction trace) :
    ¬Undisturbed transaction trace := by
  obtain ⟨own, early, rfl, under⟩ := current
  intro alone
  obtain ⟨receipt, wrote, running, same⟩ := authorized
  rcases List.mem_append.mp wrote with wrote | wrote
  · exact other ((under receipt wrote).symm.trans same)
  · rcases List.mem_cons.mp wrote with same | wrote
    · cases same
    · exact alone rfl canonical other ⟨receipt, wrote, running, same⟩

section
variable {records after : Records} {event : Event}

/-- An event that is no report of a recovery adds nothing to justify. -/
theorem Tracked.reported_cons (kept : Tracked records)
    (logged : after.trace = event :: records.trace)
    (quiet : ∀ attempt result, event = .reported .rollback attempt result →
      result.isSucceeded = false)
    {later before : List Event} {transaction : String} {result : Resolution}
    (split : after.trace = later ++ .reported .rollback (compensation transaction) result :: before)
    (succeeded : result.isSucceeded = true) (alone : Undisturbed transaction before) :
    ¬Authorized transaction before ∨ Settled (compensation transaction) before := by
  rw [logged] at split
  cases later with
  | nil =>
    have none := quiet _ _ (List.cons.inj split).1
    rw [succeeded] at none
    cases none
  | cons _ later => exact kept.reported (List.cons.inj split).2 succeeded alone

/-- An event that writes no receipt. -/
theorem Tracked.log (kept : Tracked records)
    (unwritten : ∀ operation receipt, event ≠ .wrote operation receipt)
    (quiet : ∀ attempt result, event = .reported .rollback attempt result →
      result.isSucceeded = false) : Tracked (records.log event) where
  owned canonical authorized alone :=
    kept.owned canonical (authorized.of_cons fun _ same => absurd same (unwritten _ _)) alone.tail
  completed stored complete := (kept.completed stored complete).mono (List.subset_cons_self _ _)
  reported := kept.reported_cons rfl quiet

/-- A deployment receipt that keeps its transaction and starts nothing. -/
theorem Tracked.converge_kept (kept : Tracked records) {prior receipt : Receipt}
    (stored : records.converge = some prior) (same : receipt.transaction = prior.transaction)
    (silent : ∀ written, event = .wrote .converge written → written.phase ≠ .running)
    (unreported : ∀ attempt result, event ≠ .reported .rollback attempt result) :
    Tracked ((records.set .converge receipt).log event) where
  owned canonical authorized alone := by
    obtain ⟨found, here, named⟩ := kept.owned canonical
      (authorized.of_cons fun _ here running => absurd running (silent _ here)) alone.tail
    cases stored.symm.trans here
    exact ⟨receipt, rfl, same.trans named⟩
  completed stored complete := (kept.completed stored complete).mono (List.subset_cons_self _ _)
  reported := kept.reported_cons rfl fun _ _ here => absurd here (unreported _ _)

/-- A recovery receipt. -/
theorem Tracked.rollback_set (kept : Tracked records) {receipt : Receipt}
    (silent : ∀ written, event ≠ .wrote .converge written)
    (unreported : ∀ attempt result, event ≠ .reported .rollback attempt result)
    (backed : receipt.phase = .complete → Settled receipt.attempt (event :: records.trace)) :
    Tracked ((records.set .rollback receipt).log event) where
  owned canonical authorized alone :=
    kept.owned canonical (authorized.of_cons fun _ here => absurd here (silent _)) alone.tail
  completed stored complete := by
    cases stored
    exact backed complete
  reported := kept.reported_cons rfl fun _ _ here => absurd here (unreported _ _)

/-- A deployment receipt written by the invocation that holds the lock: a repair leaves the
transaction as it finds it, and a transaction's own receipt names it. -/
theorem Tracked.converge_wrote (kept : Tracked records) {attempt : String}
    (accepted : Accepted attempt .converge)
    (forward : Contracts.Attempt.isCompensation attempt = false)
    (current : Current attempt records.trace) {receipt : Receipt}
    (under : receipt.attempt = attempt)
    (named : receipt.transaction = transactionIdentity records.converge attempt) :
    Tracked ((records.set .converge receipt).log (.wrote .converge receipt)) where
  owned := by
    intro transaction canonical authorized alone
    refine ⟨receipt, rfl, ?_⟩
    have earlier (other : attempt ≠ transaction) : Authorized transaction records.trace :=
      authorized.of_cons fun _ here _ same => by
        cases here
        exact other (under.symm.trans same)
    unfold transactionIdentity at named
    split_ifs at named with reserved
    · have other : attempt ≠ transaction := by
        rintro rfl
        rw [not_isReserved_of_isCanonicalSha256 canonical] at reserved
        cases reserved
      obtain ⟨prior, stored, owns⟩ := kept.owned canonical (earlier other) alone.tail
      rw [named, stored]
      exact owns
    · have transactional : isCanonicalSha256 attempt = true := by
        rcases accepted with routine | transactional
        · exact absurd routine reserved
        · simpa [Contracts.Attempt.isTransactionInvocation, forward] using transactional
      rw [named, trimEnd_of_isCanonicalSha256 transactional]
      by_contra other
      have other : attempt ≠ transaction := fun same => other (congrArg some same)
      exact current.disturbs transactional other (earlier other) alone.tail
  completed stored complete := (kept.completed stored complete).mono (List.subset_cons_self _ _)
  reported := kept.reported_cons rfl fun _ _ here => by cases here

/-- A report of a recovery. -/
theorem Tracked.rollback_reported (kept : Tracked records) {attempt : String} {result : Resolution}
    (accepted : Contracts.Attempt.isCompensation attempt = true)
    (justified : result.isSucceeded = true →
      (∃ receipt, records.rollback = some receipt ∧ receipt.phase = .complete ∧
        receipt.attempt = attempt) ∨
      ∀ receipt, records.converge = some receipt → receipt.transaction ≠ stripSuffix attempt) :
    Tracked (records.log (.reported .rollback attempt result)) where
  owned canonical authorized alone :=
    kept.owned canonical (authorized.of_cons fun _ => nofun) alone.tail
  completed stored complete := (kept.completed stored complete).mono (List.subset_cons_self _ _)
  reported := by
    intro later before transaction answer split succeeded alone
    rw [Records.trace_log] at split
    cases later with
    | cons _ later => exact kept.reported (List.cons.inj split).2 succeeded alone
    | nil =>
      obtain ⟨head, rfl⟩ := List.cons.inj split
      cases head
      rw [isCompensation_compensation] at accepted
      rcases justified succeeded with ⟨receipt, stored, complete, same⟩ | unnamed
      · exact .inr (same ▸ kept.completed stored complete)
      · refine .inl fun authorized => ?_
        obtain ⟨receipt, stored, named⟩ := kept.owned accepted authorized alone
        exact unnamed receipt stored (named.trans stripSuffix_compensation.symm)

end

/-! ## What each call keeps -/

/-- What holds while an invocation has the lock. -/
structure Held (operation : MutationOperation) (attempt : String) (records : Records) : Prop where
  accepted : Accepted attempt operation
  tracked : Tracked records
  current : operation = .converge → Current attempt records.trace

section
variable {config : Config} {operation : MutationOperation} {attempt : String} {records : Records}

theorem Current.cons {trace : List Event} {event : Event} (current : Current attempt trace)
    (under : ∀ receipt, event = .wrote .converge receipt → receipt.attempt = attempt) :
    Current attempt (event :: trace) := by
  obtain ⟨own, early, rfl, kept⟩ := current
  refine ⟨event :: own, early, rfl, fun receipt wrote => ?_⟩
  rcases List.mem_cons.mp wrote with same | wrote
  · exact under receipt same.symm
  · exact kept receipt wrote

/-- A completed recovery receipt is written for what was seen to complete. -/
theorem settled_of_writes {receipt : Receipt} (under : receipt.attempt = attempt)
    (writes : Writes config .rollback attempt records receipt)
    (complete : receipt.phase = .complete) :
    Settled receipt.attempt records.trace := by
  cases writes with
  | verified _ checked _ =>
    rw [checked, under]
    exact .inr (.inl List.mem_cons_self)
  | completed _ ran succeeded =>
    rw [ran, under]
    exact .inl ⟨_, succeeded, List.mem_cons_self⟩
  | attention phase | start phase | asked phase | failed phase =>
    rw [complete] at phase
    cases phase

/-- **No call of an invocation breaks it.** -/
theorem Held.permitted [Crates] {definition : DigestText} (held : Held operation attempt records)
    {call : Call} (may : Permitted config definition operation attempt records call)
    (choice : Choice) :
    Held operation attempt (records.serve call choice).1 := by
  generalize (records.serve call choice).1 = after, serve_effect records call choice = effect
  cases effect with
  | nothing => exact held
  | invoked | decided => exact may.elim
  | checked | finished | launched =>
    exact ⟨held.accepted, held.tracked.log (fun _ _ here => nomatch here)
      (fun _ _ here => nomatch here),
      fun converging => (held.current converging).cons fun _ here => nomatch here⟩
  | wrote written receipt =>
    obtain ⟨rfl, under, -, named, forward, writes⟩ := may
    refine ⟨held.accepted, ?_, fun converging => ?_⟩
    · cases written with
      | converge =>
        exact held.tracked.converge_wrote held.accepted (forward rfl) (held.current rfl) under named
      | rollback =>
        refine held.tracked.rollback_set (fun _ here => nomatch here) (fun _ _ here => nomatch here)
          fun complete => ?_
        exact (settled_of_writes under writes complete).mono (List.subset_cons_self _ _)
    · rw [Records.trace_log, Records.trace_set]
      refine (held.current converging).cons fun other here => ?_
      cases here
      exact under
  | reported published under result =>
    obtain ⟨rfl, rfl, justified⟩ := may
    refine ⟨held.accepted, ?_, fun converging =>
      (held.current converging).cons fun _ here => nomatch here⟩
    cases published with
    | converge => exact held.tracked.log (fun _ _ here => nomatch here) fun _ _ here => nomatch here
    | rollback => exact held.tracked.rollback_reported held.accepted (justified rfl)

/-- **No call of the operator breaks it.** -/
theorem Tracked.decides [Crates] (kept : Tracked records) {call : Call}
    (may : Decides records call) (choice : Choice) : Tracked (records.serve call choice).1 := by
  generalize (records.serve call choice).1 = after, serve_effect records call choice = effect
  cases effect with
  | nothing => exact kept
  | invoked | checked | launched | finished | reported => exact may.elim
  | wrote written receipt =>
    obtain ⟨rfl, failed, prior, stored, same, -⟩ := may
    refine kept.converge_kept stored same (fun _ here => ?_) fun _ _ here => nomatch here
    cases here
    rw [failed]
    nofun
  | decided operation receipt decision =>
    obtain ⟨phase, found, -⟩ := may
    cases operation with
    | converge =>
      obtain ⟨prior, stored, same, -⟩ := found rfl
      exact kept.converge_kept stored same (fun _ here => nomatch here)
        fun _ _ here => nomatch here
    | rollback =>
      refine kept.rollback_set (fun _ here => nomatch here) (fun _ _ here => nomatch here)
        fun complete => ?_
      refine .inr (.inr ⟨receipt, decision, ?_, rfl, List.mem_cons_self⟩)
      rintro rfl
      rw [complete] at phase
      cases phase

end

/-- **A recovery reports success only where nothing is owed**: in every history, with any crashes,
failed writes, input changes and operator decisions, a rollback under a transaction's compensating
attempt that reports success comes after the transaction's recovery was completed, or no deployment
launch of the transaction was ever authorized; unless another transaction has converged the payload
since. -/
theorem recovery_success_justified [Crates] {config : Config} {definition : DigestText}
    {actions : List (Action × List Choice)} {later before : List Event} {transaction : String}
    {result : Resolution}
    (reported : (history config definition {} actions).trace =
      later ++ .reported .rollback (compensation transaction) result :: before)
    (succeeded : result.isSucceeded = true) (alone : Undisturbed transaction before) :
    ¬Authorized transaction before ∨ Settled (compensation transaction) before := by
  have kept : Tracked (history config definition {} actions) := by
    refine keeps_history (fun action records start =>
      action_ensures Held ?_ ?_ ?_ ?_ ?_ action start)
      actions tracked_empty (historyAdmissible_of_free fun _ _ _ => trivial)
    · exact fun operation attempt records accepted kept => ⟨accepted,
        kept.log (fun _ _ here => nomatch here) (fun _ _ here => nomatch here),
        fun converging => converging ▸ ⟨[], records.trace, rfl, by simp⟩⟩
    · exact fun _ _ _ held => held.tracked
    · exact fun operation attempt records call choice _ held may => held.permitted may choice
    · exact fun records call choice _ kept may => kept.decides may choice
    · refine fun _ _ _ _ _ kept => kept.log (fun _ _ here => nomatch here) fun _ _ here => ?_
      cases here
      rfl
  exact kept.reported reported succeeded alone

end Updatedc.Agent.Command

namespace Updatedc.Agent.Command.Sample

open Contracts Updatedc.Sample

/-- The same deployment procedure with a recovery command. -/
def recoverable : Config := { config with recovery := .command ⟨["recover"], 60⟩ .manual }

/-- A launch whose outcome is not known, a routine repair that is held for it, the operator's word
to go on, and the transaction's recovery. -/
def recovered : List (Action × List Choice) :=
  [(converge 'a', calls 5), (.mutate .converge .restart "boot", calls 6),
    (.resolve .retry, held "boot"),
    (.mutate .rollback .update (compensation (transaction 'a')), calls 9)]

/-- What the recovery did, up to its report. -/
def recovering : List Event :=
  let running := receipt 'a' (compensation (transaction 'a')) .running "command started"
  let completion : Completion := ⟨.succeeded true .none none, {}, .canonical 0⟩
  [.wrote .rollback { running with
      phase := .complete, message := "command completed", exitCode := some 0
      completion := some completion },
    .finished .rollback (compensation (transaction 'a')) completion.result,
    .launched .rollback (compensation (transaction 'a')) (.canonical 0),
    .wrote .rollback running, .invoked .rollback (compensation (transaction 'a'))]

/-- What came before it. -/
def outstanding : List Event :=
  [.decided .converge (receipt 'a' "boot" .ready "operator decision: retry") .retry,
    .reported .converge "boot"
      (.needsAttention "repeating the deployment command is not authorized"),
    .wrote .converge (receipt 'a' "boot" .needsAttention
      "repeating the deployment command is not authorized"),
    .invoked .converge "boot", .launched .converge (transaction 'a') (.canonical 0)] ++
      authorized 'a'

theorem undisturbed_recovering : Undisturbed (transaction 'a') (recovering ++ outstanding) := by
  intro later early other split canonical different
  have member : Event.invoked .converge other ∈ recovering ++ outstanding := by simp [split]
  simp only [recovering, outstanding, authorized, List.mem_append, List.mem_cons, reduceCtorEq,
    Event.invoked.injEq, List.not_mem_nil, true_and, false_and, false_or, or_false] at member
  rcases member with rfl | rfl
  · exact absurd canonical (by decide)
  · exact absurd rfl different

/-- The repair in between does not hide what the transaction left. -/
theorem recovery_success_justified_repaired :
    Authorized (transaction 'a') (recovering ++ outstanding) ∧
      Settled (compensation (transaction 'a')) (recovering ++ outstanding) := by
  have reported : (history recoverable (.canonical 0) {} recovered).trace =
      [] ++ .reported .rollback (compensation (transaction 'a')) (.succeeded true .none none) ::
        (recovering ++ outstanding) := by
    decide
  have launched : Authorized (transaction 'a') (recovering ++ outstanding) :=
    ⟨receipt 'a' (transaction 'a') .running "command started",
      by simp [outstanding, authorized], rfl, rfl⟩
  have justified := recovery_success_justified reported rfl undisturbed_recovering
  exact ⟨launched, justified.resolve_left fun absent => absent launched⟩

end Updatedc.Agent.Command.Sample
