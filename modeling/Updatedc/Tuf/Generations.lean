import Updatedc.Tuf.Publish

/-!
# Served generations

Everything a publisher does to the store is one of a few **changes**: it creates a versioned
document, stores a target under its own digest, or swaps one of the two mutable objects against
exactly what it captured there, the timestamp only by a newer one and only once its whole plan is
in the store. Every publisher is judged against these changes alone, whatever the others do and
however late a write is applied, and what is served follows by induction over changes.
-/

namespace Updatedc.Tuf

open Contracts Program Relation

/-! ## What is in the store -/

section

variable [Metadata]

/-- The second document is a later version of the first. -/
def Newer (first second : Bytes) : Prop :=
  ∃ old new, signedVersion first = some old ∧ signedVersion second = some new ∧ old < new

/-- A timestamp that may take the place of what was there. -/
def Advances (previous : Option Bytes) (bytes : Bytes) : Prop :=
  (signedVersion bytes).isSome ∧ ∀ served, previous = some served → Newer served bytes

theorem Newer.trans {first second third : Bytes} (h : Newer first second)
    (h' : Newer second third) : Newer first third := by
  obtain ⟨a, b, ha, hb, lt⟩ := h
  obtain ⟨b', c, hb', hc, lt'⟩ := h'
  obtain rfl := Option.some.inj (hb.symm.trans hb')
  exact ⟨a, c, ha, hc, lt.trans lt'⟩

end

variable [Crypto] [Metadata]

/-- Two different contents with one digest. -/
def Collide (first second : Bytes) : Prop := first ≠ second ∧ sha256 first = sha256 second

/-- A target's object holds its content, short of a collision of the digest that names it. -/
def ObjectStore.Holds (store : ObjectStore) (path : RepositoryPath) (content : Bytes) : Prop :=
  ∃ stored, store.bytes path = some stored ∧ (stored = content ∨ Collide stored content)

/-- Every versioned document and every target of a plan is in the store as planned. -/
structure ObjectStore.Complete (store : ObjectStore) (plan : PublicationPlan) : Prop where
  metadata : ∀ version role bytes, (.versioned version role, bytes) ∈ plan.uploads →
    store.bytes (.versioned version role) = some bytes
  targets : ∀ digest name bytes, (.target digest name, bytes) ∈ plan.uploads →
    digest = .canonical (sha256 bytes) ∧ store.Holds (.target digest name) bytes
  retained : ∀ target ∈ plan.retainedTargets, ∃ name content,
    target.path = .target (.canonical (sha256 content)) name ∧ content.length = target.length ∧
      store.Holds target.path content

/-! ## Changes -/

/-- A write that publishing may make: `extra` is what more is known of the two swaps. -/
def Proper (extra : ObjectStore → Write → Prop) (store : ObjectStore) (write : Write) : Prop :=
  match write.path with
  | .versioned _ _ => write.mode = .create
  | .target digest _ => digest = .canonical (sha256 write.bytes)
  | .root => (∃ previous, write.mode = .fence previous) ∧ extra store write
  | .timestamp =>
    (∃ previous, write.mode = .fence previous ∧ Advances previous write.bytes) ∧
      store.Complete write.plan ∧ extra store write

/-- One change: a proper write is left in flight, or is applied while its precondition holds. -/
inductive Change (extra : ObjectStore → Write → Prop) : ObjectStore → ObjectStore → Prop
  | send {store : ObjectStore} (write : Write) (proper : Proper extra store write) :
      Change extra store (store.send write)
  | land {store : ObjectStore} (write : Write) (proper : Proper extra store write)
      (admitted : store.admits write = true) {inFlight : List Write}
      (fewer : ∀ other ∈ inFlight, other ∈ store.inFlight) :
      Change extra store { store.land write with inFlight }

section Changes

variable {extra : ObjectStore → Write → Prop} {s t : ObjectStore}

/-- What the change did to one path: nothing, or a proper write landed there. -/
theorem Change.at (change : Change extra s t) (path : RepositoryPath) :
    t.bytes path = s.bytes path ∨
      ∃ write, write.path = path ∧ Proper extra s write ∧ s.admits write = true ∧
        t.bytes path = some write.bytes := by
  cases change with
  | send write proper => exact .inl rfl
  | land write proper admitted fewer =>
    by_cases here : write.path = path
    · refine .inr ⟨write, here, proper, admitted, ?_⟩
      exact (s.bytes_land write path).trans (if_pos here.symm)
    · exact .inl ((s.bytes_land write path).trans (if_neg (Ne.symm here)))

/-- A versioned document stays as it is. -/
theorem Change.metadata (change : Change extra s t) {version : Nat} {role : VersionedRole}
    {bytes : Bytes} (stored : s.bytes (.versioned version role) = some bytes) :
    t.bytes (.versioned version role) = some bytes := by
  rcases change.at (.versioned version role) with same | ⟨write, here, proper, admitted, _⟩
  · rw [same, stored]
  · -- a proper write there creates, and there is something there
    rw [Proper, here] at proper
    rw [ObjectStore.admits, proper] at admitted
    simp [here, stored] at admitted

/-- A target stays what its name says. -/
theorem Change.holds (change : Change extra s t) {name : String} {content : Bytes}
    (held : s.Holds (.target (.canonical (sha256 content)) name) content) :
    t.Holds (.target (.canonical (sha256 content)) name) content := by
  obtain ⟨stored, found, same⟩ := held
  rcases change.at (.target (.canonical (sha256 content)) name) with
    unchanged | ⟨write, here, proper, -, landed⟩
  · exact ⟨stored, unchanged.trans found, same⟩
  · rw [Proper, here] at proper
    have digest : sha256 write.bytes = sha256 content := (DigestText.canonical.inj proper).symm
    refine ⟨write.bytes, landed, ?_⟩
    by_cases equal : write.bytes = content
    · exact .inl equal
    · exact .inr ⟨equal, digest⟩

theorem Change.complete (change : Change extra s t) {plan : PublicationPlan}
    (complete : s.Complete plan) : t.Complete plan where
  metadata version role bytes member :=
    change.metadata (complete.metadata version role bytes member)
  targets digest name bytes member := by
    obtain ⟨rfl, held⟩ := complete.targets digest name bytes member
    exact ⟨rfl, change.holds held⟩
  retained target member := by
    obtain ⟨name, content, path, length, held⟩ := complete.retained target member
    rw [path] at held
    exact ⟨name, content, path, length, path ▸ change.holds held⟩

/-- What is served as the timestamp only moves to newer versions. -/
theorem Change.timestamp (change : Change extra s t) {bytes : Bytes}
    (served : s.bytes .timestamp = some bytes) :
    ∃ bytes', t.bytes .timestamp = some bytes' ∧ (bytes' = bytes ∨ Newer bytes bytes') := by
  rcases change.at .timestamp with same | ⟨write, here, proper, admitted, landed⟩
  · exact ⟨bytes, same.trans served, .inl rfl⟩
  · rw [Proper, here] at proper
    obtain ⟨⟨previous, mode, -, newer⟩, -⟩ := proper
    rw [ObjectStore.admits_fence mode, here, served] at admitted
    exact ⟨write.bytes, landed, .inr (newer bytes admitted.symm)⟩

/-- The plan of the served timestamp is in the store. -/
def ObjectStore.Closed (store : ObjectStore) : Prop :=
  ∀ object plan, store.objects .timestamp = some object → object.plan = some plan →
    store.Complete plan

theorem Change.closed (change : Change extra s t) (closed : s.Closed) : t.Closed := by
  intro object plan served label
  have complete : s.Complete plan := by
    cases change with
    | send write proper => exact closed object plan served label
    | land write proper admitted fewer =>
      by_cases here : write.path = .timestamp
      · -- the timestamp was swapped: its own plan had to be complete
        have swapped : (s.land write).objects .timestamp = some object := served
        simp only [ObjectStore.land, here, Function.update_self, Option.some.injEq] at swapped
        subst swapped
        obtain rfl := Option.some.inj label
        rw [Proper, here] at proper
        exact proper.2.1
      · have kept : (s.land write).objects .timestamp = some object := served
        simp only [ObjectStore.land, Function.update_of_ne (Ne.symm here)] at kept
        exact closed object plan kept label
  exact change.complete complete

end Changes

/-! ## Any number of changes -/

section Steps

variable {extra : ObjectStore → Write → Prop} {s t : ObjectStore}

theorem metadata_of_changes (moved : ReflTransGen (Change extra) s t) {version : Nat}
    {role : VersionedRole} {bytes : Bytes}
    (stored : s.bytes (.versioned version role) = some bytes) :
    t.bytes (.versioned version role) = some bytes := by
  induction moved with
  | refl => exact stored
  | tail _ change ih => exact change.metadata ih

theorem holds_of_changes (moved : ReflTransGen (Change extra) s t) {name : String}
    {content : Bytes} (held : s.Holds (.target (.canonical (sha256 content)) name) content) :
    t.Holds (.target (.canonical (sha256 content)) name) content := by
  induction moved with
  | refl => exact held
  | tail _ change ih => exact change.holds ih

theorem complete_of_changes (moved : ReflTransGen (Change extra) s t) {plan : PublicationPlan}
    (complete : s.Complete plan) : t.Complete plan := by
  induction moved with
  | refl => exact complete
  | tail _ change ih => exact change.complete ih

/-- Where each change leaves a path as it is or moves it on, so do any number of changes. -/
theorem pointer_of_changes {path : RepositoryPath} (next : Bytes → Bytes → Prop)
    (trans : ∀ a b c, next a b → next b c → next a c)
    (each : ∀ s t bytes, Change extra s t → s.bytes path = some bytes →
      ∃ bytes', t.bytes path = some bytes' ∧ (bytes' = bytes ∨ next bytes bytes'))
    (moved : ReflTransGen (Change extra) s t) {bytes : Bytes} (served : s.bytes path = some bytes) :
    ∃ bytes', t.bytes path = some bytes' ∧ (bytes' = bytes ∨ next bytes bytes') := by
  induction moved with
  | refl => exact ⟨bytes, served, .inl rfl⟩
  | tail _ change ih =>
    obtain ⟨middle, servedMiddle, first⟩ := ih
    obtain ⟨last, servedLast, second⟩ := each _ _ middle change servedMiddle
    refine ⟨last, servedLast, ?_⟩
    rcases first with rfl | first
    · exact second
    · rcases second with rfl | second
      · exact .inr first
      · exact .inr (trans _ _ _ first second)

theorem closed_of_changes (moved : ReflTransGen (Change extra) s t) (closed : s.Closed) :
    t.Closed := by
  induction moved with
  | refl => exact closed
  | tail _ change ih => exact change.closed ih

end Steps

/-! ## The writes in flight -/

/-- Every write in flight is proper. -/
def Sound (extra : ObjectStore → Write → Prop) (store : ObjectStore) : Prop :=
  ∀ write ∈ store.inFlight, Proper extra store write

section Sound

variable {extra : ObjectStore → Write → Prop}
  (stays : ∀ s t write, Change extra s t → extra s write → extra t write)

include stays

theorem Change.proper {s t : ObjectStore} (change : Change extra s t) {write : Write}
    (proper : Proper extra s write) : Proper extra t write := by
  unfold Proper at proper ⊢
  split at proper
  · exact proper
  · exact proper
  · exact ⟨proper.1, stays s t write change proper.2⟩
  · exact ⟨proper.1, change.complete proper.2.1, stays s t write change proper.2.2⟩

theorem sound_of_changes {s t : ObjectStore} (moved : ReflTransGen (Change extra) s t)
    (sound : Sound extra s) : Sound extra t := by
  induction moved with
  | refl => exact sound
  | tail _ change ih =>
    intro write member
    refine change.proper stays ?_
    cases change with
    | send new proper =>
      rcases List.mem_cons.mp member with rfl | old
      · exact proper
      · exact ih write old
    | land _ _ _ fewer => exact ih write (fewer write member)

omit stays in
/-- A late write is a change like any other. -/
theorem change_of_landLate {s t : ObjectStore} {position : Nat} (sound : Sound extra s)
    (late : landLate position s = some t) : ReflTransGen (Change extra) s t := by
  unfold landLate at late
  cases found : s.inFlight[position]? with
  | none => simp [found] at late
  | some write =>
    simp only [found] at late
    split_ifs at late with admitted
    obtain rfl := Option.some.inj late
    refine .single (.land write (sound write (List.mem_of_getElem? found)) admitted ?_)
    exact fun other member => List.mem_of_mem_eraseIdx member

end Sound

end Updatedc.Tuf
