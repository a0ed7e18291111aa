import Updatedc.Lib.Run

/-!
# The single-writer lease (`updatec/src/runtime/lease.rs`)

Each replica of the controller acquires or renews one `Lease` object over and over, and publishes
while it holds it. A call samples its host's clock, reads the object, decides, and writes the
object back under the resource version it read. Calls of any number of replicas interleave freely,
and a call may be abandoned at any point: the server may still apply its write later. Times are
whole microseconds, which is what a stored `MicroTime` keeps of a sample.

Every replica reads a clock of its own. The clocks never go back, and `State.Near` bounds how far
apart two of them are: a replica whose clock is ahead takes a lease over that early, so a term is
safe for its duration less the bound.

- `Fits`: **a write the server would still apply was decided on the object as it is**.
- `Sound.grants`: **while a term is safe, the object is the holder's**.
-/

namespace Updatedc.Lease

open Run

/-! ## One call -/

/-- The fields of a `Lease` that the code reads or writes. -/
structure LeaseSpec where
  holderIdentity : Option String := none
  leaseDurationSeconds : Option Int := none
  acquireTime : Option Int := none
  renewTime : Option Int := none
  leaseTransitions : Option Int := none
  deriving DecidableEq

/-- The stored object, with the version the server gave it. -/
structure Object where
  resourceVersion : Nat
  spec : Option LeaseSpec

/-- `LEASE_SECONDS`. -/
def leaseSeconds : Int := 15

/-- Seconds in the unit of the clocks. -/
def seconds (count : Int) : Int := count * 1000000

/-- What an acquisition at `now` stores. -/
def newLeaseSpec (identity : String) (now transitions : Int) : LeaseSpec where
  holderIdentity := some identity
  leaseDurationSeconds := some leaseSeconds
  acquireTime := some now
  renewTime := some now
  leaseTransitions := some transitions

/-- A lease nobody has renewed is not held. -/
def leaseExpired (spec : LeaseSpec) (now : Int) : Bool :=
  match spec.renewTime with
  | none => true
  | some renewed => renewed + seconds (max (spec.leaseDurationSeconds.getD 0) 0) ≤ now

/-- The read-only check in front of the irreversible part of a publication. -/
def holdsLease (object : Option Object) (identity : String) (now : Int) : Bool :=
  match object.bind (·.spec) with
  | none => false
  | some spec => spec.holderIdentity = some identity && !leaseExpired spec now

/-- A create, or a replacement of the version that was read. -/
structure Write where
  identity : String
  now : Int
  base : Option Nat
  spec : LeaseSpec
  deriving DecidableEq

/-- What `acquire_or_renew_lease` writes, given the object it read; nothing for a follower. -/
def acquireOrRenewLease (identity : String) (now : Int) : Option Object → Option Write
  | none => some ⟨identity, now, none, newLeaseSpec identity now 0⟩
  | some object =>
    let spec := object.spec.getD {}
    let heldByUs := spec.holderIdentity = some identity
    if ¬ heldByUs ∧ leaseExpired spec now = false then none
    else
      let transitions := spec.leaseTransitions.getD 0
      -- A renewal keeps the time at which its holder first acquired; a takeover counts, up to
      -- the largest `i32`.
      some ⟨identity, now, some object.resourceVersion,
        if heldByUs then { newLeaseSpec identity now transitions with
          acquireTime := spec.acquireTime.or (some now) }
        else newLeaseSpec identity now (min (transitions + 1) (2 ^ 31 - 1))⟩

/-! ## Replicas and the server -/

/-- The API server, as far as this object goes. -/
structure Server where
  object : Option Object
  /-- The next resource version. -/
  next : Nat

/-- The server's compare-and-swap. -/
def Server.accepts (server : Server) (write : Write) : Bool :=
  server.object.map (·.resourceVersion) = write.base

/-- An applied write stores its specification under a new version. -/
def Server.store (server : Server) (write : Write) : Server :=
  { server with object := some ⟨server.next, some write.spec⟩, next := server.next + 1 }

/-- The server, and every replica under its identity. -/
structure State where
  server : Server
  /-- What each replica's own clock reads. -/
  clock : String → Int := fun _ => 0
  /-- For each identity, the sample of its call that has not read the object yet. -/
  began : String → Option Int := fun _ => none
  /-- The writes on their way, of calls that wait for them or were abandoned. -/
  writes : List Write := []
  /-- For each identity, the sample of its last write that was applied. A call is answered `true`
  only if its write was. -/
  granted : String → Option Int := fun _ => none

/-- What can happen next. -/
inductive Event where
  /-- Time passes; each clock goes forward at its own pace. -/
  | tick (elapsed : String → Nat)
  /-- A new call; one still under way is abandoned. -/
  | start (identity : String)
  | read (identity : String)
  | land (write : Write)

/-- One event; a write that lands is applied if the object is still the one it was decided on. -/
def step (s : State) : Event → State
  | .tick elapsed => { s with clock := fun identity => s.clock identity + elapsed identity }
  | .start identity =>
    { s with began := Function.update s.began identity (some (s.clock identity)) }
  | .read identity =>
    match s.began identity with
    | none => s
    | some now =>
      { s with
        began := Function.update s.began identity none
        writes := (acquireOrRenewLease identity now s.server.object).toList ++ s.writes }
  | .land write =>
    if write ∈ s.writes then
      let s := { s with writes := s.writes.erase write }
      if s.server.accepts write then
        { s with
          server := s.server.store write
          granted := Function.update s.granted write.identity (some write.now) }
      else s
    else s

/-- No two clocks are further apart than this. -/
def State.Near (skew : Int) (s : State) : Prop :=
  ∀ identity other, s.clock other ≤ s.clock identity + skew

/-! ## The invariant -/

namespace Server

variable (server : Server)

/-- What the stored object says; an absent one says nothing. -/
def spec : LeaseSpec := (server.object.bind (·.spec)).getD {}

/-- The object is this identity's, from the write it sampled at `now`. -/
structure Holds (identity : String) (now : Int) : Prop where
  holder : server.spec.holderIdentity = some identity
  duration : server.spec.leaseDurationSeconds = some leaseSeconds
  renewed : server.spec.renewTime = some now

/-- A write on its way. -/
structure Fits (write : Write) : Prop where
  base : ∀ version, write.base = some version → version < server.next
  current : server.accepts write = true →
    acquireOrRenewLease write.identity write.now server.object = some write

/-- The version stored is one the server has given out. -/
def Valid : Prop := ∀ object, server.object = some object → object.resourceVersion < server.next

end Server

/-- What holds in every run: samples are in the past of the clock they were read from, and **a
granted term that is safe from every other clock is in force**. -/
structure Sound (skew : Int) (s : State) : Prop where
  valid : s.server.Valid
  began : ∀ identity now, s.began identity = some now → now ≤ s.clock identity
  writes : ∀ write ∈ s.writes, s.server.Fits write ∧ write.now ≤ s.clock write.identity
  grants : ∀ identity now, s.granted identity = some now →
    s.clock identity + skew < now + seconds leaseSeconds → s.server.Holds identity now

section Server

variable {server : Server} {identity : String} {write : Write} {now : Int}

theorem acquireOrRenewLease_spec {object : Option Object}
    (decided : acquireOrRenewLease identity now object = some write) :
    write.identity = identity ∧ write.now = now ∧
      write.base = object.map (·.resourceVersion) ∧
      write.spec.holderIdentity = some identity ∧
      write.spec.leaseDurationSeconds = some leaseSeconds ∧
      write.spec.renewTime = some now := by
  unfold acquireOrRenewLease at decided
  split at decided
  · cases decided
    exact ⟨rfl, rfl, rfl, rfl, rfl, rfl⟩
  · dsimp only at decided
    split_ifs at decided <;> cases decided <;> exact ⟨rfl, rfl, rfl, rfl, rfl, rfl⟩

/-- **Only an expired lease is taken over.** -/
theorem expired_of_takeover
    (decided : acquireOrRenewLease identity now server.object = some write)
    (other : server.spec.holderIdentity ≠ some identity) :
    leaseExpired server.spec now = true := by
  unfold Server.spec at other ⊢
  cases found : server.object with
  | none => rfl
  | some object =>
    rw [found] at decided other
    by_contra unexpired
    rw [acquireOrRenewLease, if_pos ⟨other, Bool.eq_false_iff.mpr unexpired⟩] at decided
    cases decided

/-- After a write, nothing that was decided before it is applied. -/
theorem Server.Fits.store {other : Write} (fits : server.Fits other) :
    (server.store write).Fits other where
  base version named := Nat.lt_succ_of_lt (fits.base version named)
  current accepted := by
    have named : some server.next = other.base := of_decide_eq_true accepted
    exact absurd (fits.base server.next named.symm) (Nat.lt_irrefl _)

/-- A write that is applied makes its identity the holder. -/
theorem Server.Fits.holds (fits : server.Fits write) (accepted : server.accepts write = true) :
    (server.store write).Holds write.identity write.now := by
  obtain ⟨-, -, -, holder, duration, renewed⟩ := acquireOrRenewLease_spec (fits.current accepted)
  exact ⟨holder, duration, renewed⟩

/-- **No other identity's write is applied before the term has run out by its own sample.** -/
theorem Server.Holds.ended (holds : server.Holds identity now) (fits : server.Fits write)
    (accepted : server.accepts write = true) (other : identity ≠ write.identity) :
    now + seconds leaseSeconds ≤ write.now := by
  have expired := expired_of_takeover (fits.current accepted) fun same =>
    other (Option.some.inj (holds.holder.symm.trans same))
  simpa [leaseExpired, holds.renewed, holds.duration, leaseSeconds] using expired

/-- The check in front of a publication, in terms of the stored specification. -/
theorem holdsLease_eq : holdsLease server.object identity now =
    (decide (server.spec.holderIdentity = some identity) && !leaseExpired server.spec now) := by
  unfold holdsLease Server.spec
  cases server.object.bind (·.spec) <;> simp

end Server

section Run

variable {skew : Int} {s : State}

theorem Sound.tick (sound : Sound skew s) (elapsed : String → Nat) :
    Sound skew (step s (.tick elapsed)) := by
  have later : ∀ identity, s.clock identity ≤ s.clock identity + elapsed identity := by
    intro identity
    omega
  refine ⟨sound.valid, fun identity now began => ?_, fun write waiting => ?_,
    fun identity now granted term => ?_⟩
  · exact (sound.began identity now began).trans (later identity)
  · exact ⟨(sound.writes write waiting).1, (sound.writes write waiting).2.trans (later _)⟩
  · exact sound.grants identity now granted ((add_le_add_left (later identity) skew).trans_lt term)

theorem Sound.start (sound : Sound skew s) (identity : String) :
    Sound skew (step s (.start identity)) := by
  refine ⟨sound.valid, fun other now began => ?_, sound.writes, sound.grants⟩
  simp only [Lease.step, Function.update_apply, ite_eq_iff] at began
  rcases began with ⟨rfl, ⟨⟩⟩ | ⟨-, began⟩
  · exact le_rfl
  · exact sound.began other now began

theorem Sound.read (sound : Sound skew s) (identity : String) :
    Sound skew (step s (.read identity)) := by
  simp only [Lease.step]
  split
  · exact sound
  · next now sampled =>
    refine ⟨sound.valid, fun other now' began => sound.began other now' ?_,
      fun write waiting => ?_, sound.grants⟩
    · simp only [Function.update_apply, ite_eq_iff] at began
      rcases began with ⟨-, ⟨⟩⟩ | ⟨-, began⟩
      exact began
    rcases List.mem_append.mp waiting with new | old
    · have decided := Option.mem_toList.mp new
      obtain ⟨rfl, rfl, base, -⟩ := acquireOrRenewLease_spec decided
      refine ⟨⟨fun version named => ?_, fun _ => decided⟩, sound.began _ _ sampled⟩
      obtain ⟨object, found, rfl⟩ := Option.map_eq_some_iff.mp (base.symm.trans named)
      exact sound.valid object found
    · exact sound.writes write old

theorem Sound.land (sound : Sound skew s) (near : s.Near skew) (write : Write) :
    Sound skew (step s (.land write)) := by
  simp only [Lease.step]
  split
  · next waiting =>
    have fewer : ∀ other ∈ s.writes.erase write,
        s.server.Fits other ∧ other.now ≤ s.clock other.identity :=
      fun other mem => sound.writes other (List.mem_of_mem_erase mem)
    split
    · next accepted =>
      obtain ⟨fits, past⟩ := sound.writes write waiting
      refine ⟨?_, sound.began, fun other mem => ?_, fun identity now granted term => ?_⟩
      · rintro object ⟨⟩
        exact Nat.lt_succ_self _
      · exact ⟨(fewer other mem).1.store, (fewer other mem).2⟩
      · simp only [Function.update_apply, ite_eq_iff] at granted
        rcases granted with ⟨rfl, ⟨⟩⟩ | ⟨other, granted⟩
        · exact fits.holds accepted
        · -- The writer's clock is not so far ahead that the term is over by it.
          have ended := (sound.grants identity now granted term).ended fits accepted other
          have ahead := near identity write.identity
          exact absurd term (by dsimp only; omega)
    · exact ⟨sound.valid, sound.began, fewer, sound.grants⟩
  · exact sound

theorem Sound.step (sound : Sound skew s) (near : s.Near skew) (event : Event) :
    Sound skew (step s event) := by
  cases event with
  | tick elapsed => exact sound.tick elapsed
  | start identity => exact sound.start identity
  | read identity => exact sound.read identity
  | land write => exact sound.land near write

end Run

/-- **A granted term is exclusive.** The replicas' clocks never go back and are never further apart
than `skew`. However the calls of any number of replicas interleave, and whenever their writes are
applied: until the holder's own clock reads fifteen seconds less `skew` after the sample of its
last write that was applied, the check in front of a publication passes for it, and for no other
identity by whatever clock; and every term that another identity was granted is over, but for at
most `skew`, by that identity's own clock. -/
theorem granted_term_exclusive {server : Server} (valid : server.Valid) {clock : String → Int}
    {skew : Int} {events : List Event}
    (near : Along step (fun s _ => s.Near skew) { server, clock } events) {s : State}
    (reached : events.foldl step { server, clock } = s) {identity : String} {now : Int}
    (granted : s.granted identity = some now)
    (term : s.clock identity + skew < now + seconds leaseSeconds) :
    holdsLease s.server.object identity (s.clock identity) = true ∧
      ∀ other, other ≠ identity → (∀ reading, holdsLease s.server.object other reading = false) ∧
        ∀ sample, s.granted other = some sample →
          sample + seconds leaseSeconds ≤ s.clock other + skew := by
  have sound : Sound skew s := by
    subst reached
    refine near.invariant (Sound skew) (fun s event near sound => sound.step near event) ?_
    exact ⟨valid, by simp, by simp, by simp⟩
  obtain ⟨holder, duration, renews⟩ := sound.grants identity now granted term
  have skewed : 0 ≤ skew := by
    cases events with
    | nil =>
      subst reached
      cases granted
    | cons event rest =>
      have self := near.1 identity identity
      omega
  have live : leaseExpired s.server.spec (s.clock identity) = false := by
    simp only [leaseExpired, renews, duration, Option.getD_some, leaseSeconds, seconds,
      decide_eq_false_iff_not] at term ⊢
    omega
  refine ⟨by simp [holdsLease_eq, holder, live], fun other different =>
    ⟨fun reading => by simp [holdsLease_eq, holder, different.symm], ?_⟩⟩
  intro sample also
  by_contra running
  obtain ⟨holder', -⟩ := sound.grants other sample also (not_le.mp running)
  exact different (Option.some.inj (holder'.symm.trans holder))

end Updatedc.Lease

namespace Updatedc.Lease.Sample

open Run

/-- One replica takes the lease over from another when its own clock, two seconds ahead, says that
the term has run out. -/
def events : List Event :=
  [.start "a", .read "a", .land ⟨"a", 0, none, newLeaseSpec "a" 0 0⟩, .tick fun _ => 13000000,
    .start "b", .read "b", .land ⟨"b", 15000000, some 0, newLeaseSpec "b" 15000000 1⟩]

def start : State where
  server := ⟨none, 0⟩
  clock identity := if identity = "b" then 2000000 else 0

theorem granted_term_exclusive_takeover :
    (events.foldl step start).granted "b" = some 15000000 ∧
      holdsLease (events.foldl step start).server.object "a" 13000000 = false := by
  have granted : (events.foldl step start).granted "b" = some 15000000 := by decide
  have first : start.Near 2000000 := by
    intro identity other
    simp only [start]
    split_ifs <;> omega
  have later : (step start (.tick fun _ => 13000000)).Near 2000000 := by
    intro identity other
    have := first identity other
    simp only [step]
    omega
  have near : Along step (fun s _ => s.Near 2000000) start events :=
    ⟨first, first, first, first, later, later, later, trivial⟩
  refine ⟨granted, ?_⟩
  exact ((granted_term_exclusive (by simp [Server.Valid]) near rfl granted (by decide)).2
    "a" (by decide)).1 _

end Updatedc.Lease.Sample
