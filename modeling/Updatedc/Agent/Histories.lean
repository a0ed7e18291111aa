import Updatedc.Agent.Evidence

/-!
# Journal histories

A journal is rewritten many times, and each time the store only compares two records:
`permitsReplacement` accepts the new one as one step of the old one's machine. Since one phase that
ends the machine can start it again (`resumesCommittedPending`), what a **chain** of accepted
rewrites keeps is not read off the edges alone.

- `Rewrites`: the five shapes of an accepted rewrite.
- `Transaction.progress`: grows with every rewrite that changes the record, so no record comes back.
-/

namespace Updatedc.Agent

open Contracts Relation

/-- The place of a phase in every history it is part of: the rollback path comes after the commit
that it may resume. -/
def Phase.rank : Phase → Nat
  | prepared => 0
  | activated => 1
  | converged => 2
  | verified => 3
  | committed => 4
  | rollbackPlanned => 5
  | candidateCompensated => 6
  | restored => 7
  | rollbackVerified => 8
  | rolledBack => 9

theorem Phase.rank_lt_of_advances {phase next : Phase} (edge : phase.advances next = true) :
    phase.rank < next.rank := by
  revert edge
  cases phase <;> cases next <;> decide

namespace Transaction

/-- What an accepted rewrite of a record is. -/
inductive Rewrites (self : Transaction) : Transaction → Prop
  | replay : Rewrites self self
  | edge (phase : Phase) (edge : self.phase.advances phase = true)
      (possible : ({ self with phase } : Transaction).phaseEvidenceIsValid = true) :
      Rewrites self { self with phase }
  | resumed (spent : self.phase = .committed) :
      Rewrites self { self with phase := .rollbackPlanned }
  | rejected (learned : self.phase = .activated ∨ self.phase = .converged)
      (first : self.candidateRejectionRequired = false) :
      Rewrites self { self with candidateRejectionRequired := true }
  | failed (waiting : self.phase = .restored ∨ self.phase = .rollbackVerified) :
      Rewrites self { self with rollbackHealthFailures := self.rollbackHealthFailures + 1 }

variable {self next : Transaction}

theorem advance_possible (ok : self.advance next.phase = .ok next) :
    next.phaseEvidenceIsValid = true := by
  unfold advance at ok
  dsimp only at ok
  split_ifs at ok with refused impossible
  rw [← Except.ok.inj ok]
  simpa using impossible

theorem recordRollbackHealthFailure_ok (ok : self.recordRollbackHealthFailure = .ok next) :
    (self.phase = .restored ∨ self.phase = .rollbackVerified) ∧
      next = { self with rollbackHealthFailures := self.rollbackHealthFailures + 1 } := by
  unfold recordRollbackHealthFailure at ok
  split_ifs at ok with refused
  refine ⟨?_, (Except.ok.inj ok).symm⟩
  revert refused
  unfold recoveryPending
  cases self.phase <;> decide

theorem rewrites_of_permitsReplacement (permits : self.permitsReplacement next = true) :
    self.Rewrites next := by
  have same := eq_of_permitsReplacement permits
  unfold permitsReplacement at permits
  dsimp only at permits
  split_ifs at permits with changed equal moved
  · exact equal ▸ .replay
  · rcases Bool.or_eq_true_iff.mp permits with resumes | advances
    · simp only [resumesCommittedPending, Bool.and_eq_true, decide_eq_true_eq] at resumes
      obtain ⟨⟨⟨spent, planned⟩, flag⟩, count⟩ := resumes
      rw [same, planned, ← flag, ← count]
      exact .resumed spent
    · have ok := of_decide_eq_true advances
      obtain ⟨edge, shape⟩ := advance_ok ok
      have possible := advance_possible ok
      rw [shape] at possible ⊢
      exact .edge next.phase edge possible
  · have phase := not_not.mp moved
    rcases Bool.or_eq_true_iff.mp permits with records | fails
    · simp only [recordsRejection, Bool.and_eq_true, Bool.or_eq_true, decide_eq_true_eq,
        Bool.not_eq_true'] at records
      obtain ⟨⟨⟨learned, first⟩, flag⟩, count⟩ := records
      rw [same, ← phase, flag, ← count]
      exact .rejected learned first
    · obtain ⟨-, fails⟩ := Bool.and_eq_true_iff.mp fails
      obtain ⟨waiting, shape⟩ := recordRollbackHealthFailure_ok (of_decide_eq_true fails)
      rw [shape]
      exact .failed waiting

/-! ## One rewrite -/

/-- A measure that every rewrite but a replay raises. -/
def progress (self : Transaction) : Nat :=
  self.phase.rank + self.candidateRejectionRequired.toNat + self.rollbackHealthFailures

theorem Rewrites.progress (rewrites : self.Rewrites next) :
    next = self ∨ self.progress < next.progress := by
  cases rewrites with
  | replay => exact .inl rfl
  | edge phase edge _ =>
    have := Phase.rank_lt_of_advances edge
    refine .inr ?_
    simp only [Transaction.progress]
    omega
  | resumed spent => simp [Transaction.progress, spent, Phase.rank]
  | rejected _ first => simp [Transaction.progress, first]
  | failed _ => simp [Transaction.progress]

/-- The part of a record that no rewrite changes. -/
def SameIdentity (self next : Transaction) : Prop :=
  next = { self with
    phase := next.phase
    candidateRejectionRequired := next.candidateRejectionRequired
    rollbackHealthFailures := next.rollbackHealthFailures }

theorem SameIdentity.trans {last : Transaction} (first : self.SameIdentity next)
    (second : next.SameIdentity last) : self.SameIdentity last := by
  unfold SameIdentity at *
  rw [first] at second
  exact second

/-- What a rewrite leaves as it is or raises. -/
structure Grows (record next : Transaction) : Prop where
  identity : record.SameIdentity next
  rejection : record.candidateRejectionRequired = true → next.candidateRejectionRequired = true
  failures : record.rollbackHealthFailures ≤ next.rollbackHealthFailures
  progress : next = record ∨ record.progress < next.progress

theorem Rewrites.grows (rewrites : self.Rewrites next) : self.Grows next := by
  refine ⟨?_, ?_, ?_, rewrites.progress⟩ <;> cases rewrites <;> simp [SameIdentity]

theorem Rewrites.failures_le (rewrites : self.Rewrites next) :
    next.rollbackHealthFailures ≤ self.rollbackHealthFailures + 1 := by
  cases rewrites <;> simp

/-- Validation reads the phase and the evidence in one place only. -/
theorem SameIdentity.validate [Crypto] [Semver] (same : self.SameIdentity next)
    (valid : self.validate = .ok ()) (possible : next.phaseEvidenceIsValid = true) :
    next.validate = .ok () := by
  unfold SameIdentity at same
  rw [same] at possible ⊢
  unfold Transaction.validate at valid ⊢
  dsimp only at valid ⊢
  rw [possible]
  simp only [Except.bind_ok_iff] at valid ⊢
  obtain ⟨a, h1, b, h2, c, h3, d, h4, e, h5, f, h6, g, h7, h, h8, -⟩ := valid
  exact ⟨a, h1, b, h2, c, h3, d, h4, e, h5, f, h6, g, h7, h, h8, rfl⟩

theorem possible_of_validate [Crypto] [Semver] (valid : self.validate = .ok ()) :
    self.phaseEvidenceIsValid = true := by
  unfold Transaction.validate at valid
  simp only [Except.bind_ok_iff] at valid
  obtain ⟨-, -, -, -, -, -, -, -, -, -, -, -, -, -, -, -, last⟩ := valid
  by_contra impossible
  simp [require, impossible] at last

theorem Rewrites.validate [Crypto] [Semver] (rewrites : self.Rewrites next)
    (valid : self.validate = .ok ()) : next.validate = .ok () := by
  refine rewrites.grows.identity.validate valid ?_
  have possible := possible_of_validate valid
  cases rewrites with
  | replay => exact possible
  | edge phase _ evidence => exact evidence
  -- a committed record carries no evidence
  | resumed spent => simp_all [phaseEvidenceIsValid]
  | rejected learned _ => rcases learned with phase | phase <;> simp_all [phaseEvidenceIsValid]
  | failed waiting => rcases waiting with phase | phase <;> simp_all [phaseEvidenceIsValid]

/-! ## A chain of rewrites -/

theorem grows_of_chain (chain : ReflTransGen Rewrites self next) : self.Grows next := by
  induction chain with
  | refl => exact Rewrites.replay.grows
  | tail _ last ih =>
    have step := last.grows
    refine ⟨ih.identity.trans step.identity, step.rejection ∘ ih.rejection,
      ih.failures.trans step.failures, ?_⟩
    rcases ih.progress with rfl | before
    · exact step.progress
    · rcases step.progress with rfl | now
      · exact .inr before
      · exact .inr (before.trans now)

theorem validate_of_chain [Crypto] [Semver] (chain : ReflTransGen Rewrites self next)
    (valid : self.validate = .ok ()) : next.validate = .ok () := by
  induction chain with
  | refl => exact valid
  | tail _ last ih => exact last.validate ih

/-- The records of a history, each an accepted replacement of the one before. -/
def History (records : List Transaction) : Prop :=
  records.IsChain fun record next => record.permitsReplacement next = true

instance (records : List Transaction) : Decidable (History records) :=
  inferInstanceAs (Decidable (List.IsChain _ _))

theorem History.chain {records : List Transaction} (history : History records) {i j : Nat}
    (order : i ≤ j) {earlier later : Transaction} (atFirst : records[i]? = some earlier)
    (atSecond : records[j]? = some later) : ReflTransGen Rewrites earlier later := by
  have steps : records.IsChain (ReflTransGen Rewrites) :=
    history.imp fun _ _ permits => .single (rewrites_of_permitsReplacement permits)
  obtain rfl | before := order.eq_or_lt
  · rw [Option.some.inj (atFirst.symm.trans atSecond)]
  · obtain ⟨_, rfl⟩ := List.getElem?_eq_some_iff.mp atFirst
    obtain ⟨_, rfl⟩ := List.getElem?_eq_some_iff.mp atSecond
    exact List.pairwise_iff_getElem.mp steps.pairwise i j _ _ before

/-- **Journal histories are monotone.** In every chain of accepted replacements the identity stays,
the rejection verdict is never taken back, failed gates are counted one at a time, validity is
kept, and a record that was left never comes back. -/
theorem journal_history_monotone [Crypto] [Semver] (records : List Transaction)
    (history : History records) (i j : Nat) (order : i ≤ j) (earlier later : Transaction)
    (atFirst : records[i]? = some earlier) (atSecond : records[j]? = some later) :
    earlier.SameIdentity later ∧
    (earlier.candidateRejectionRequired = true → later.candidateRejectionRequired = true) ∧
    earlier.rollbackHealthFailures ≤ later.rollbackHealthFailures ∧
    (j = i + 1 → later.rollbackHealthFailures ≤ earlier.rollbackHealthFailures + 1) ∧
    (earlier.validate = .ok () → later.validate = .ok ()) ∧
    (later ≠ earlier → ∀ k last, j ≤ k → records[k]? = some last → last ≠ earlier) := by
  have chain := history.chain order atFirst atSecond
  have grows := grows_of_chain chain
  refine ⟨grows.identity, grows.rejection, grows.failures, ?_, validate_of_chain chain, ?_⟩
  · rintro rfl
    obtain ⟨_, rfl⟩ := List.getElem?_eq_some_iff.mp atFirst
    obtain ⟨bound, rfl⟩ := List.getElem?_eq_some_iff.mp atSecond
    exact (rewrites_of_permitsReplacement (history.getElem i bound)).failures_le
  · rintro differs k last order' atThird rfl
    have before := grows.progress.resolve_left differs
    rcases (grows_of_chain (history.chain order' atSecond atThird)).progress with same | after
    · exact differs same.symm
    · omega

end Transaction

end Updatedc.Agent

namespace Updatedc.Agent.Sample

/-- An update that is committed, resumed, and settled on its predecessor after a failed gate. -/
def resumedUpdate : List Transaction :=
  [update .converged, update .committed, update .rollbackPlanned, update .candidateCompensated,
    update .restored, { update .restored with rollbackHealthFailures := 1 },
    { update .rolledBack with rollbackHealthFailures := 1 }]

theorem journal_history_monotone_resumed :
    (update .committed).rollbackHealthFailures ≤ 1 ∧
      { update .rolledBack with rollbackHealthFailures := 1 }.validate = .ok () := by
  have monotone := Transaction.journal_history_monotone resumedUpdate (by decide) 1 6
    (by decide) _ _ rfl rfl
  exact ⟨monotone.2.2.1, monotone.2.2.2.2.1 (by decide)⟩

end Updatedc.Agent.Sample
