import Updatedc.Lib.Run
import Updatedc.HealthProxy.Membership

/-!
# The hostname walk (`updated-healthproxy/src/endpointslice.rs`)

A reconcile replaces every hostname of its inventory by an address. The lookups of one pass run
concurrently, and a pass that runs out of time or of threads leaves some names unattempted. The
next pass starts at the earliest of them in its walk, and at the configured order again if there
is none.

A `Pass` is what the environment contributes: the order in which the lookups come back and what
each of them produced, by rank in the walk. **Measured from where a pass starts, the distance to a
name that the pass does not attempt shrinks by at least the number of names it is sure to
attempt** (`distance_step`). So no name can be missed for `⌈n / k⌉` passes in a row.
-/

namespace Updatedc.HealthProxy

open Contracts Run

/-! ## A pass -/

/-- What one name's lookup produced. -/
inductive Lookup where
  | answered (address : String)
  /-- The lookup ran and produced nothing usable. -/
  | unanswered
  /-- The lookup was never started. -/
  | notAttempted (reason : String)
  deriving DecidableEq

def Lookup.isAttempted : Lookup → Bool
  | .notAttempted _ => false
  | _ => true

/-- What the resolver carries across cycles. -/
structure NameResolver where
  known : LastKnownGood String := {}
  cursor : Nat := 0

/-- One pass over the walk: the ranks in the order their lookups come back, what each produced,
and when the addresses are settled. -/
structure Pass where
  arrival : List Nat
  outcome : Nat → Lookup
  now : Nat

section Walk

variable [IpParser]

def isHostname (member : Member) : Bool := (IpParser.parse member.address).isNone

/-- The positions of the hostname members. -/
def hostnames (members : List Member) : List Nat :=
  (members.zipIdx.filter fun member => isHostname member.1).map Prod.snd

end Walk

/-- Where a walk over `total` hostnames begins. -/
def walkStart (cursor total : Nat) : Nat := if total = 0 then 0 else cursor % total

/-- Where the next one begins: at the earliest name not attempted, or at the configured order. -/
def nextStart (start total : Nat) (stopped : Option Nat) : Nat :=
  match stopped with
  | some rank => if total > 0 then (start + rank) % total else 0
  | none => 0

/-- The configured order, rotated. -/
def walkOrder (names : List Nat) (start : Nat) : List Nat := names.drop start ++ names.take start

/-- The earliest rank not attempted, after one more lookup. -/
def tally (stopped : Option Nat) (rank : Nat) : Lookup → Option Nat
  | .notAttempted _ =>
    match stopped with
    | none => some rank
    | some first => some (if rank < first then rank else first)
  | _ => stopped

namespace Pass

variable (pass : Pass)

def stopped : Option Nat :=
  pass.arrival.foldl (fun stopped rank => tally stopped rank (pass.outcome rank)) none

/-- The addresses that were answered, by position. -/
def fresh (order : List Nat) : BTreeMap Nat String :=
  pass.arrival.foldl (fun fresh rank =>
    match order[rank]?, pass.outcome rank with
    | some index, .answered address => fresh.insert index address
    | _, _ => fresh) ∅

end Pass

section Resolve

variable [IpParser]

/-- One member of the sequential pass: a literal stays, a hostname becomes its fresh or its last
known address, or leaves the rotation. -/
def settleMember (fresh : BTreeMap Nat String) (now : Nat)
    (state : List Member × LastKnownGood String) (member : Member × Nat) :
    List Member × LastKnownGood String :=
  if !isHostname member.1 then (state.1 ++ [member.1], state.2)
  else
    match state.2.resolve member.1.address fresh[member.2]? now with
    | (some address, known) => (state.1 ++ [{ member.1 with address }], known)
    | (none, known) => (state.1, known)

/-- `NameResolver::resolve`. -/
def NameResolver.resolve (self : NameResolver) (members : List Member) (pass : Pass) :
    List Member × NameResolver :=
  let names := hostnames members
  let start := walkStart self.cursor names.length
  let order := walkOrder names start
  let settled := members.zipIdx.foldl (settleMember (pass.fresh order) pass.now) ([], self.known)
  let present := (members.filter isHostname).map Member.address
  (settled.1,
    { known := settled.2.retain (present.contains ·)
      cursor := nextStart start order.length pass.stopped })

/-- The state a pass leaves. -/
def NameResolver.advance (members : List Member) (self : NameResolver) (pass : Pass) :
    NameResolver :=
  (self.resolve members pass).2

/-- A pass that starts in this state attempts the hostname at this position. -/
def NameResolver.Attempts (members : List Member) (self : NameResolver) (pass : Pass)
    (index : Nat) : Prop :=
  let names := hostnames members
  ∃ rank, (walkOrder names (walkStart self.cursor names.length))[rank]? = some index ∧
    (pass.outcome rank).isAttempted = true

/-- Every lookup of the walk comes back, and at least the first `k` were attempted. -/
structure Reaches (members : List Member) (k : Nat) (pass : Pass) : Prop where
  complete : pass.arrival.Perm (List.range (hostnames members).length)
  attempted : ∀ rank < k, rank < (hostnames members).length →
    (pass.outcome rank).isAttempted = true

end Resolve

/-! ## Where a pass stops -/

/-- What the tally keeps: the earliest rank not attempted of those seen. -/
structure Earliest (outcome : Nat → Lookup) (ranks : List Nat) (stopped : Option Nat) : Prop where
  seen : ∀ rank, stopped = some rank → rank ∈ ranks ∧ (outcome rank).isAttempted = false
  least : ∀ rank ∈ ranks, (outcome rank).isAttempted = false →
    ∃ first, stopped = some first ∧ first ≤ rank

theorem Earliest.tally {outcome : Nat → Lookup} {ranks : List Nat} {stopped : Option Nat}
    (earliest : Earliest outcome ranks stopped) (rank : Nat) :
    Earliest outcome (ranks ++ [rank]) (tally stopped rank (outcome rank)) := by
  -- A lookup that was attempted changes nothing.
  have attempted : (outcome rank).isAttempted = true →
      Earliest outcome (ranks ++ [rank]) stopped := by
    intro done
    refine ⟨fun first here => ?_, fun other here skipped => ?_⟩
    · obtain ⟨mem, skipped⟩ := earliest.seen first here
      exact ⟨List.mem_append_left _ mem, skipped⟩
    · rcases List.mem_append.mp here with before | now
      · exact earliest.least other before skipped
      · rw [List.mem_singleton.mp now, done] at skipped
        cases skipped
  cases result : outcome rank with
  | answered address => exact attempted (by rw [result]; rfl)
  | unanswered => exact attempted (by rw [result]; rfl)
  | notAttempted reason =>
    have skippedHere : (outcome rank).isAttempted = false := by rw [result]; rfl
    have last : rank ∈ ranks ++ [rank] := List.mem_append_right _ List.mem_cons_self
    cases stopped with
    | none =>
      refine ⟨?_, fun other here skipped => ?_⟩
      · rintro _ ⟨⟩
        exact ⟨last, skippedHere⟩
      · refine ⟨rank, rfl, ?_⟩
        rcases List.mem_append.mp here with before | now
        · obtain ⟨first, none', -⟩ := earliest.least other before skipped
          cases none'
        · exact (List.mem_singleton.mp now).ge
    | some first =>
      simp only [HealthProxy.tally]
      obtain ⟨mem, skippedFirst⟩ := earliest.seen first rfl
      refine ⟨?_, fun other here skipped => ⟨_, rfl, ?_⟩⟩
      · rintro _ ⟨⟩
        split
        · exact ⟨last, skippedHere⟩
        · exact ⟨List.mem_append_left _ mem, skippedFirst⟩
      · have bound : other = rank ∨ first ≤ other := by
          rcases List.mem_append.mp here with before | now
          · obtain ⟨held, same, le⟩ := earliest.least other before skipped
            cases same
            exact .inr le
          · exact .inl (List.mem_singleton.mp now)
        split <;> omega

theorem earliest_stopped (pass : Pass) : Earliest pass.outcome pass.arrival pass.stopped := by
  have of_ranks : ∀ ranks : List Nat, Earliest pass.outcome ranks
      (ranks.foldl (fun stopped rank => tally stopped rank (pass.outcome rank)) none) := by
    intro ranks
    induction ranks using List.reverseRecOn with
    | nil => exact ⟨nofun, nofun⟩
    | append_singleton ranks rank ih =>
      rw [List.foldl_append]
      exact ih.tally rank
  exact of_ranks pass.arrival

/-! ## The walk -/

theorem getElem?_walkOrder {names : List Nat} {start rank : Nat} (inside : start ≤ names.length)
    (bound : rank < names.length) :
    (walkOrder names start)[rank]? = names[(start + rank) % names.length]? := by
  rw [walkOrder, ← List.rotate_eq_drop_append_take inside, List.getElem?_rotate bound, Nat.add_comm]

theorem length_walkOrder {names : List Nat} {start : Nat} (inside : start ≤ names.length) :
    (walkOrder names start).length = names.length := by
  simp [walkOrder]
  omega

theorem walkStart_le (cursor total : Nat) : walkStart cursor total ≤ total := by
  unfold walkStart
  split
  · omega
  · exact (Nat.mod_lt _ (by omega)).le

section Coverage

variable [IpParser] {members : List Member}

theorem cursor_advance (self : NameResolver) (pass : Pass) :
    (NameResolver.advance members self pass).cursor =
      nextStart (walkStart self.cursor (hostnames members).length) (hostnames members).length
        pass.stopped := by
  have order := length_walkOrder (walkStart_le self.cursor (hostnames members).length)
  simp only [NameResolver.advance, NameResolver.resolve, order]

/-- The name at position `position` of the configured order is `distance` steps into the walk. -/
def NameResolver.Distance (members : List Member) (self : NameResolver)
    (position distance : Nat) : Prop :=
  distance < (hostnames members).length ∧
    (walkStart self.cursor (hostnames members).length + distance) % (hostnames members).length =
      position

/-- **A pass that does not attempt a name brings the next one `k` steps closer to it.** -/
theorem distance_step {self : NameResolver} {pass : Pass} {k position distance index : Nat}
    (reaches : Reaches members k pass) (at_position : (hostnames members)[position]? = some index)
    (away : self.Distance members position distance)
    (missed : ¬ self.Attempts members pass index) :
    ∃ closer, closer + k ≤ distance ∧
      (NameResolver.advance members self pass).Distance members position closer := by
  obtain ⟨bound, lands⟩ := away
  have start := walkStart_le self.cursor (hostnames members).length
  have inWalk : (walkOrder (hostnames members)
      (walkStart self.cursor (hostnames members).length))[distance]? = some index := by
    rw [getElem?_walkOrder start bound, lands, at_position]
  have skipped : (pass.outcome distance).isAttempted = false := by
    rw [← Bool.not_eq_true]
    exact fun attempted => missed ⟨distance, inWalk, attempted⟩
  obtain ⟨first, stopped, le⟩ := (earliest_stopped pass).least distance
    (reaches.complete.mem_iff.mpr (List.mem_range.mpr bound)) skipped
  -- The first name not attempted is past the `k` that were.
  have past : k ≤ first := by
    obtain ⟨-, firstSkipped⟩ := (earliest_stopped pass).seen first stopped
    by_contra early
    have attempted := reaches.attempted first (by omega) (by omega)
    rw [firstSkipped] at attempted
    cases attempted
  refine ⟨distance - first, by omega, by omega, ?_⟩
  have positive : 0 < (hostnames members).length := by omega
  have resumes : walkStart (NameResolver.advance members self pass).cursor
      (hostnames members).length =
      (walkStart self.cursor (hostnames members).length + first) % (hostnames members).length := by
    rw [cursor_advance, stopped, nextStart, if_pos positive]
    rw [walkStart, if_neg positive.ne', Nat.mod_mod]
  rw [resumes, Nat.mod_add_mod, Nat.add_assoc, Nat.add_sub_cancel' le, lands]

/-- A name missed by every pass was far away to begin with. -/
theorem distance_run {self : NameResolver} {passes : List Pass} {k position distance index : Nat}
    (reaches : ∀ pass ∈ passes, Reaches members k pass)
    (at_position : (hostnames members)[position]? = some index)
    (away : self.Distance members position distance)
    (missed : Along (NameResolver.advance members)
      (fun self pass => ¬ self.Attempts members pass index) self passes) :
    passes.length * k ≤ distance := by
  induction passes generalizing self distance with
  | nil => simp
  | cons pass rest ih =>
    obtain ⟨closer, shrunk, next⟩ := distance_step (reaches pass List.mem_cons_self) at_position
      away missed.1
    have later := ih (fun other mem => reaches other (List.mem_cons_of_mem _ mem)) next missed.2
    rw [List.length_cons, Nat.succ_mul]
    omega

/-- **The name walk covers everyone.** From any state the resolver can be in, in any `⌈n / k⌉`
consecutive passes that each attempt at least the first `k` names of their walk, every hostname of
the inventory is attempted. -/
theorem walk_covers {self : NameResolver} {passes : List Pass} {k : Nat} (positive : 0 < k)
    (reaches : ∀ pass ∈ passes, Reaches members k pass)
    (enough : passes.length = ((hostnames members).length + k - 1) / k)
    {index : Nat} (hostname : index ∈ hostnames members) :
    ∃ before pass after, passes = before ++ pass :: after ∧
      (before.foldl (NameResolver.advance members) self).Attempts members pass index := by
  by_contra never
  have missed : Along (NameResolver.advance members)
      (fun self pass => ¬ self.Attempts members pass index) self passes := by
    apply along_of_forall_split
    intro before pass after split attempted
    exact never ⟨before, pass, after, split, attempted⟩
  obtain ⟨position, bound, at_position⟩ := List.getElem_of_mem hostname
  have total : 0 < (hostnames members).length := by omega
  have start := walkStart_le self.cursor (hostnames members).length
  -- The rank of the name in the first walk.
  have away : self.Distance members position
      ((position + ((hostnames members).length -
        walkStart self.cursor (hostnames members).length)) % (hostnames members).length) := by
    refine ⟨Nat.mod_lt _ total, ?_⟩
    rw [Nat.add_mod_mod]
    have whole : walkStart self.cursor (hostnames members).length +
        (position + ((hostnames members).length -
          walkStart self.cursor (hostnames members).length)) =
        position + (hostnames members).length := by omega
    rw [whole, Nat.add_mod_right, Nat.mod_eq_of_lt bound]
  have far := distance_run reaches (List.getElem?_eq_some_iff.mpr ⟨bound, at_position⟩) away missed
  have near := away.1
  have cover : (hostnames members).length ≤ passes.length * k := by
    rw [enough]
    have := Nat.lt_mul_div_succ ((hostnames members).length + k - 1) positive
    have split : k * (((hostnames members).length + k - 1) / k + 1) =
        ((hostnames members).length + k - 1) / k * k + k := by ring
    omega
  omega

end Coverage

end Updatedc.HealthProxy

namespace Updatedc.Sample.HealthProxy.Walk

open Contracts Updatedc.HealthProxy

/-- Every address is a hostname. -/
scoped instance ipParser : IpParser := ⟨fun _ => none⟩

def inventory : List Member := [⟨"a", "x", true⟩, ⟨"b", "y", true⟩, ⟨"c", "z", true⟩]

/-- A pass that reaches two names of its walk. -/
def shortPass : Pass where
  arrival := [2, 0, 1]
  outcome rank := if rank < 2 then .unanswered else .notAttempted "budget"
  now := 0

theorem reaches_shortPass : Reaches inventory 2 shortPass where
  complete := by decide
  attempted := by
    intro rank early _
    show (if rank < 2 then Lookup.unanswered else .notAttempted "budget").isAttempted = true
    rw [if_pos early]
    rfl

/-- Two such passes attempt the third name. -/
theorem walk_covers_third : ∃ before pass after,
    [shortPass, shortPass] = before ++ pass :: after ∧
      (before.foldl (NameResolver.advance inventory) {}).Attempts inventory pass 2 := by
  have two : (0 : Nat) < 2 := by decide
  refine walk_covers two ?_ (by decide) (by decide)
  intro pass here
  simp only [List.mem_cons, List.not_mem_nil, or_false, or_self] at here
  exact here ▸ reaches_shortPass

end Updatedc.Sample.HealthProxy.Walk
