import Updatedc.Groups

/-!
# Cross-pass observation memory (`updatec/src/evidence.rs`)

The planner is pure; what it remembers between passes lives here. `ObservationLog` holds two
monotone claims about the past, and `VerifiedReports` the authenticity verdicts already reached.

A `VerifiedReports` carries the proof that **every verdict it holds is the one a fresh
verification of the same bytes under the same key would reach** (`sound`); the only operations on
it keep that. After `verifyFleet` the cache therefore answers, for every node with a report and a
pinned key, exactly what `authenticateReport` answers (`authentic_verifyFleet`).
-/

namespace Updatedc

open Contracts

/-! ## The observation log -/

structure ObservationLog where
  /-- Nodes whose report envelope has been seen at least once. -/
  reported : Finset String := ∅
  /-- `(node, assignment identity)` pairs a node's own authentic report has claimed a durable
  rejection for. -/
  rejections : Finset (String × DigestText) := ∅
  deriving DecidableEq

namespace ObservationLog

variable (self : ObservationLog)

def noteReported (nodes : List String) : ObservationLog :=
  { self with reported := self.reported ∪ nodes.toFinset }

def hasReported (node : String) : Bool := node ∈ self.reported

def noteRejection (node : String) (identity : DigestText) : ObservationLog :=
  { self with rejections := insert (node, identity) self.rejections }

/-- Every node that has claimed a durable rejection of `identity`, now or earlier. -/
def provers (identity : Sha256) : Finset String :=
  (self.rejections.filter fun claim => claim.2 = .canonical identity).image (·.1)

/-- Forget claims about identities no generation still names. -/
def pruneIdentities (live : Finset Sha256) : ObservationLog :=
  { self with rejections := self.rejections.filter fun claim =>
      claim.2.digest?.any (· ∈ live) }

/-- Forget nodes that left the fleet. -/
def pruneNodes (fleet : String → Bool) : ObservationLog :=
  { reported := self.reported.filter fun node => fleet node
    rejections := self.rejections.filter fun claim => fleet claim.1 }

theorem mem_provers (identity : Sha256) (node : String) :
    node ∈ self.provers identity ↔ (node, DigestText.canonical identity) ∈ self.rejections := by
  simp [provers]

/-- Pruning keeps the whole evidence about an identity that is still live. -/
theorem provers_pruneIdentities (live : Finset Sha256) (identity : Sha256) :
    (self.pruneIdentities live).provers identity =
      if identity ∈ live then self.provers identity else ∅ := by
  ext node
  by_cases h : identity ∈ live <;> simp [mem_provers, pruneIdentities, h]

end ObservationLog

/-! ## Authenticity verdicts -/

structure VerifiedEntry where
  key : P256PublicKey
  envelope : Envelope
  report : Option AuthenticReport
  deriving DecidableEq

structure VerifiedReports [Crates] where
  entries : BTreeMap String VerifiedEntry := ∅
  /-- How many verifications have actually been performed. -/
  verifications : Nat := 0
  sound : ∀ (node : String) (entry : VerifiedEntry), entries[node]? = some entry →
    entry.report = authenticateReport entry.envelope node entry.key

namespace VerifiedReports

variable [Crates]

/-- `VerifiedReports::default`. -/
def empty : VerifiedReports where
  sound := by simp

instance : Inhabited VerifiedReports := ⟨empty⟩

variable (self : VerifiedReports) (cores : Nat)

/-- The authenticated capability for this node, under this envelope and key. A pure lookup. -/
def authentic (node : String) (envelope : Envelope) (key : P256PublicKey) :
    Option AuthenticReport :=
  self.entries[node]?.bind fun entry =>
    if entry.envelope = envelope ∧ entry.key = key then entry.report else none

/-- The full report, after both cached authenticity and the freshness gate. -/
def fresh (node : String) (envelope : Envelope) (key : P256PublicKey) (now : Nat) :
    Option NodeReport :=
  (self.authentic node envelope key).bind (·.fresh now)

/-- The one nonperishable claim, without the rest of the report. -/
def rejectedAssignment (node : String) (envelope : Envelope) (key : P256PublicKey) :
    Option DigestText :=
  (self.authentic node envelope key).bind (·.rejectedAssignment)

/-- What this pass does not already know: the nodes with a report and a pinned key whose entry is
missing or was reached from other bytes. -/
def pending (reports : BTreeMap String Envelope) (publicKeys : BTreeMap String P256PublicKey) :
    List (String × Envelope × P256PublicKey) :=
  reports.toList.filterMap fun (node, envelope) =>
    publicKeys[node]?.bind fun key =>
      if self.entries[node]?.any fun entry => entry.envelope = envelope ∧ entry.key = key then none
      else some (node, envelope, key)

/-- Verify each pending report and remember the verdict. -/
def record (entries : BTreeMap String VerifiedEntry)
    (pending : List (String × Envelope × P256PublicKey)) : BTreeMap String VerifiedEntry :=
  pending.foldl
    (fun entries (node, envelope, key) =>
      entries.insert node ⟨key, envelope, authenticateReport envelope node key⟩)
    entries

theorem record_sound (pending : List (String × Envelope × P256PublicKey)) :
    ∀ entries : BTreeMap String VerifiedEntry,
      (∀ node entry, entries[node]? = some entry →
        entry.report = authenticateReport entry.envelope node entry.key) →
      ∀ node entry, (record entries pending)[node]? = some entry →
        entry.report = authenticateReport entry.envelope node entry.key := by
  induction pending with
  | nil => exact fun _ sound => sound
  | cons first rest ih =>
    intro entries sound
    refine ih _ fun node entry h => ?_
    rw [BTreeMap.getElem?_insert] at h
    split at h
    · next same =>
      cases h
      rw [same]
    · exact sound node entry h

/-- Verify the whole fleet up front: the only place a signature is checked. -/
def verifyFleet (reports : BTreeMap String Envelope) (publicKeys : BTreeMap String P256PublicKey) :
    VerifiedReports where
  entries := record self.entries (self.pending reports publicKeys)
  verifications := self.verifications + (self.pending reports publicKeys).length
  sound := record_sound _ _ self.sound

/-- Forget nodes that have left the fleet. -/
def pruneNodes (fleet : String → Bool) : VerifiedReports where
  entries := self.entries.filter fun node _ => fleet node
  verifications := self.verifications
  sound node entry h := by
    rw [Std.ExtTreeMap.getElem?_filter'] at h
    exact self.sound node entry (Option.eq_some_of_filter_eq_some h)

/-- An entry that already answers for `(envelope, key)` still does after recording, as long as
whatever is recorded for its node does too. -/
theorem record_covers {node : String} {envelope : Envelope} {key : P256PublicKey}
    (pending : List (String × Envelope × P256PublicKey)) :
    ∀ entries : BTreeMap String VerifiedEntry,
      (∀ first ∈ pending, first.1 = node → first.2 = (envelope, key)) →
      (node, envelope, key) ∈ pending ∨
        (∃ entry, entries[node]? = some entry ∧ entry.envelope = envelope ∧ entry.key = key) →
      ∃ entry, (record entries pending)[node]? = some entry ∧ entry.envelope = envelope ∧
        entry.key = key := by
  induction pending with
  | nil =>
    rintro entries - (h | h)
    · cases h
    · exact h
  | cons first rest ih =>
    intro entries agree h
    refine ih _ (fun later member => agree later (List.mem_cons_of_mem _ member)) ?_
    rcases eq_or_ne first.1 node with same | other
    · -- This step writes the node's entry, from the one envelope and key recorded for it.
      refine .inr ⟨⟨key, envelope, authenticateReport envelope node key⟩, ?_, rfl, rfl⟩
      have pair := agree first List.mem_cons_self same
      obtain ⟨name, env, k⟩ := first
      cases same
      cases pair
      simp
    · rcases h with member | ⟨entry, found, agrees⟩
      · rcases List.mem_cons.mp member with rfl | member
        · exact absurd rfl other
        · exact .inl member
      · refine .inr ⟨entry, ?_, agrees⟩
        rw [BTreeMap.getElem?_insert, if_neg other]
        exact found

/-- A node of the pass is remembered with what the pass gave for it. -/
theorem entry_verifyFleet {reports : BTreeMap String Envelope}
    {publicKeys : BTreeMap String P256PublicKey} {node : String} {envelope : Envelope}
    {key : P256PublicKey} (report : reports[node]? = some envelope)
    (pinned : publicKeys[node]? = some key) :
    ∃ entry, (self.verifyFleet reports publicKeys).entries[node]? = some entry ∧
      entry.envelope = envelope ∧ entry.key = key := by
  have agree : ∀ first ∈ self.pending reports publicKeys, first.1 = node →
      first.2 = (envelope, key) := by
    intro first member same
    obtain ⟨⟨name, env⟩, stored, h⟩ := List.mem_filterMap.mp member
    rw [Std.ExtTreeMap.mem_toList_iff_getElem?_eq_some] at stored
    obtain ⟨k, pin, h⟩ := Option.bind_eq_some_iff.mp h
    split at h
    · cases h
    · cases h
      cases same
      simp_all
  have covered : (node, envelope, key) ∈ self.pending reports publicKeys ∨
      ∃ entry, self.entries[node]? = some entry ∧ entry.envelope = envelope ∧
        entry.key = key := by
    by_cases known : self.entries[node]?.any
        (fun entry => entry.envelope = envelope ∧ entry.key = key) = true
    · obtain ⟨entry, found, agrees⟩ := (Option.any_eq_true _ _).mp known
      exact .inr ⟨entry, found, of_decide_eq_true agrees⟩
    · refine .inl (List.mem_filterMap.mpr ⟨(node, envelope), ?_, ?_⟩)
      · exact Std.ExtTreeMap.mem_toList_iff_getElem?_eq_some.mpr report
      · simp only [pinned, Option.bind_some]
        rw [if_neg known]
  exact record_covers _ _ agree covered

/-- **The warm cache is transparent**: after `verifyFleet`, the verdict on a node's own report
under its own key is what authenticating it afresh would say. -/
theorem authentic_verifyFleet (reports : BTreeMap String Envelope)
    (publicKeys : BTreeMap String P256PublicKey) {node : String} {envelope : Envelope}
    {key : P256PublicKey} (report : reports[node]? = some envelope)
    (pinned : publicKeys[node]? = some key) :
    (self.verifyFleet reports publicKeys).authentic node envelope key =
      authenticateReport envelope node key := by
  obtain ⟨entry, found, rfl, rfl⟩ := self.entry_verifyFleet report pinned
  have verdict := (self.verifyFleet reports publicKeys).sound node entry found
  unfold authentic
  rw [found]
  simp [verdict]

/-! ### Lanes

The signatures are checked on every core at once: the pending reports are cut into chunks, each
chunk is verified on its own, and the verdicts are joined again in order. -/

/-- `slice::chunks`, for at most `fuel` chunks. -/
def chunks {α : Type} (size : Nat) : (fuel : Nat) → List α → List (List α)
  | 0, _ | _, [] => []
  | fuel + 1, list => list.take size :: chunks size fuel (list.drop size)

omit [Crates] in
theorem flatten_chunks {α : Type} {size : Nat} (positive : 0 < size) (fuel : Nat) (list : List α)
    (enough : list.length ≤ fuel) : (chunks size fuel list).flatten = list := by
  induction fuel generalizing list with
  | zero => simp [chunks, List.length_eq_zero_iff.mp (Nat.le_zero.mp enough)]
  | succ fuel ih =>
    cases list with
    | nil => rfl
    | cons first rest =>
      rw [chunks, List.flatten_cons, ih, List.take_append_drop]
      · rw [List.length_drop]
        rw [List.length_cons] at enough ⊢
        omega
      · exact List.cons_ne_nil _ _

/-- One verification. -/
def verdict (report : String × Envelope × P256PublicKey) : String × Option AuthenticReport :=
  (report.1, authenticateReport report.2.1 report.1 report.2.2)

/-- The verdicts on the pending reports, on so many cores. -/
def verdicts (pending : List (String × Envelope × P256PublicKey)) :
    List (String × Option AuthenticReport) :=
  let lanes := min cores pending.length
  if lanes ≤ 1 then pending.map verdict
  else
    let chunk := (pending.length + lanes - 1) / lanes
    (chunks chunk pending.length pending).flatMap fun lane => lane.map verdict

/-- The verdicts do not depend on how the work is split. -/
theorem verdicts_eq (pending : List (String × Envelope × P256PublicKey)) :
    verdicts cores pending = pending.map verdict := by
  unfold verdicts
  extract_lets lanes chunk
  split_ifs with serial
  · rfl
  · have positive : 0 < chunk := Nat.div_pos (by omega) (by omega)
    rw [List.flatMap_def, ← List.map_flatten, flatten_chunks positive _ _ le_rfl]

/-- Remember each verdict with the envelope and key it was reached from. -/
def recordVerdicts (entries : BTreeMap String VerifiedEntry)
    (verdicts : List (String × Option AuthenticReport))
    (pending : List (String × Envelope × P256PublicKey)) : BTreeMap String VerifiedEntry :=
  (verdicts.zip pending).foldl
    (fun entries (verdict, report) =>
      entries.insert verdict.1 ⟨report.2.2, report.2.1, verdict.2⟩)
    entries

theorem recordVerdicts_verdicts (entries : BTreeMap String VerifiedEntry)
    (pending : List (String × Envelope × P256PublicKey)) :
    recordVerdicts entries (verdicts cores pending) pending = record entries pending := by
  rw [verdicts_eq]
  unfold recordVerdicts record
  induction pending generalizing entries with
  | nil => rfl
  | cons first rest ih => exact ih _

/-- `verify_fleet` on so many cores. -/
def verifyFleetOn (self : VerifiedReports) (reports : BTreeMap String Envelope)
    (publicKeys : BTreeMap String P256PublicKey) : VerifiedReports :=
  let pending := self.pending reports publicKeys
  if pending.isEmpty then self
  else
    { entries := recordVerdicts self.entries (verdicts cores pending) pending
      verifications := self.verifications + (verdicts cores pending).length
      sound := by
        rw [recordVerdicts_verdicts]
        exact record_sound _ _ self.sound }

theorem verifyFleetOn_eq (self : VerifiedReports) (reports : BTreeMap String Envelope)
    (publicKeys : BTreeMap String P256PublicKey) :
    self.verifyFleetOn cores reports publicKeys = self.verifyFleet reports publicKeys := by
  unfold verifyFleetOn verifyFleet
  dsimp only
  split_ifs with quiet
  · simp [List.isEmpty_iff.mp quiet, record]
  · congr 1
    · exact recordVerdicts_verdicts cores self.entries _
    · rw [verdicts_eq, List.length_map]

/-! ### Every sequence of passes -/

/-- What a controller does to its cache: a pass over the fleet, or forgetting who left. -/
inductive Step where
  | verify (cores : Nat) (reports : BTreeMap String Envelope)
      (publicKeys : BTreeMap String P256PublicKey)
  | prune (fleet : String → Bool)

def step : Step → VerifiedReports
  | .verify cores reports publicKeys => self.verifyFleetOn cores reports publicKeys
  | .prune fleet => self.pruneNodes fleet

/-- The cache after these steps of a new controller. -/
def after (steps : List Step) : VerifiedReports := steps.foldl step empty

/-- Whatever a lookup answers is the verdict on the bytes and the key it asks about. -/
theorem authentic_eq_none_or (node : String) (envelope : Envelope) (key : P256PublicKey) :
    self.authentic node envelope key = none ∨
      self.authentic node envelope key = authenticateReport envelope node key := by
  unfold authentic
  cases found : self.entries[node]? with
  | none => exact .inl rfl
  | some entry =>
    rw [Option.bind_some]
    split_ifs with own
    · obtain ⟨rfl, rfl⟩ := own
      exact .inr (self.sound node entry found)
    · exact .inl rfl

/-- **Cached verification is transparent.** After any sequence of passes, on any number of cores and
with any maps, and any pruning in between: on the envelope and key the latest pass was given for a
node the cache answers what authenticating afresh would, and on any other envelope or key nothing.
Of a node the latest pass was given no envelope or no key for, a lookup answers nothing or what
authenticating exactly the bytes and the key of the lookup would. -/
theorem authentic_after_passes (steps : List Step) (cores : Nat)
    (reports : BTreeMap String Envelope) (publicKeys : BTreeMap String P256PublicKey) :
    let cache := (after steps).verifyFleetOn cores reports publicKeys
    (∀ (node : String) (envelope : Envelope) (key : P256PublicKey),
      reports[node]? = some envelope → publicKeys[node]? = some key →
        cache.authentic node envelope key = authenticateReport envelope node key ∧
        ∀ other otherKey, (other, otherKey) ≠ (envelope, key) →
          cache.authentic node other otherKey = none) ∧
    ∀ (node : String) (envelope : Envelope) (key : P256PublicKey),
      cache.authentic node envelope key = none ∨
        cache.authentic node envelope key = authenticateReport envelope node key := by
  intro cache
  have same : cache = (after steps).verifyFleet reports publicKeys := verifyFleetOn_eq _ _ _ _
  refine ⟨fun node envelope key report pinned => ⟨?_, fun other otherKey different => ?_⟩,
    fun node envelope key => cache.authentic_eq_none_or node envelope key⟩
  · rw [same]
    exact (after steps).authentic_verifyFleet reports publicKeys report pinned
  · obtain ⟨entry, found, rfl, rfl⟩ := (after steps).entry_verifyFleet report pinned
    rw [same]
    unfold authentic
    rw [found, Option.bind_some, if_neg]
    rintro ⟨rfl, rfl⟩
    exact different rfl

end VerifiedReports

end Updatedc

namespace Updatedc.Sample

open Contracts

/-- The report of node `n` and its key, as a pass sees them. -/
def reported : BTreeMap String Envelope := table [("n", envelope 110 1 0 1)]

def pinned : BTreeMap String P256PublicKey := table [("n", ⟨[1]⟩)]

theorem authentic_after_passes_rotated :
    let cache := (VerifiedReports.after [.verify 4 reported pinned]).verifyFleetOn 4 reported
      (table [("n", ⟨[2]⟩)])
    cache.authentic "n" (envelope 110 1 0 1) ⟨[1]⟩ = none := by
  intro cache
  exact ((VerifiedReports.authentic_after_passes [.verify 4 reported pinned] 4 reported
    (table [("n", ⟨[2]⟩)])).1 "n" (envelope 110 1 0 1) ⟨[2]⟩ (by decide)
      (by decide)).2 _ _ (by decide)

/-- **The verdict under a removed key is still there**: the latest pass was given no key for the
node, and a lookup with the key it had before is answered from the earlier pass. -/
theorem authentic_answers_removed_key :
    ((VerifiedReports.after [.verify 4 reported pinned]).verifyFleetOn 4 reported ∅).authentic "n"
      (envelope 110 1 0 1) ⟨[1]⟩ ≠ none := by
  decide

end Updatedc.Sample
