import Updatedc.Lib.Interleave
import Updatedc.Contracts.Identity

/-!
# The repository's object store

A release repository lives under one prefix of an object store: two objects that are replaced in
place (`metadata/root.json` and `metadata/timestamp.json`), metadata documents published once per
version, and targets named by their content. The store is shared by every publisher, applies each
write atomically, checks a conditional write against the object's current content, and never
deletes.

A write whose caller got no answer is **in flight**: it may still be applied at any later time at
which its precondition holds, or never. Each object remembers the publication plan it came from;
nothing reads that label, it is there to be spoken about.

The TUF documents belong to another crate (`tough`). They are byte strings, and `Metadata` is what
its parser reads off them, with no law assumed.
-/

namespace Updatedc.Tuf

open Contracts

/-! ## Documents -/

/-- The documents published once per version. -/
inductive VersionedRole where
  | root | targets | snapshot
  deriving DecidableEq

def VersionedRole.file : VersionedRole → String
  | root => "root.json"
  | targets => "targets.json"
  | snapshot => "snapshot.json"

/-- An object of the repository, by its relative path: `metadata/root.json`,
`metadata/timestamp.json`, `metadata/<version>.<role>.json` or `targets/<digest>.<name>`. These are
the shapes a publication plan is made of. -/
inductive RepositoryPath where
  | root
  | timestamp
  | versioned (version : Nat) (role : VersionedRole)
  | target (digest : DigestText) (name : String)
  deriving DecidableEq

def RepositoryPath.display : RepositoryPath → String
  | root => "metadata/root.json"
  | timestamp => "metadata/timestamp.json"
  | versioned version role => s!"metadata/{version}.{role.file}"
  | target digest name => s!"targets/{digest.text}.{name}"

/-- One entry of the signed targets document. -/
structure TargetEntry where
  name : String
  digest : DigestText
  length : Nat
  deriving DecidableEq

/-- What the TUF crate reads off a document, and its own checks of a local directory: signatures,
thresholds and the root chain. -/
class Metadata where
  signedVersion : Bytes → Option Nat
  /-- `/signed/meta/<file>/version`. -/
  referencedVersion : (document : Bytes) → (file : VersionedRole) → Option Nat
  consistentSnapshot : Bytes → Bool
  listedTargets : Bytes → Option (List TargetEntry)
  verifies : List (RepositoryPath × Bytes) → Except String Unit

export Metadata (signedVersion referencedVersion consistentSnapshot listedTargets verifies)

/-- An immutable target that a metadata-only checkout leaves where it is. -/
structure RetainedTarget where
  path : RepositoryPath
  length : Nat
  deriving DecidableEq

/-- What one publication uploads, in order, and what it relies on being there. `base` is the
timestamp document its directory was checked out with, if it was; it is a label that no function
reads. -/
structure PublicationPlan where
  uploads : List (RepositoryPath × Bytes)
  retainedTargets : List RetainedTarget
  base : Option Bytes
  deriving DecidableEq

/-! ## Objects and writes -/

structure Object where
  bytes : Bytes
  plan : Option PublicationPlan
  deriving DecidableEq

/-- The precondition of a write. An ETag identifies content, so it is the content. -/
inductive PutMode where
  | create
  | update (etag : Bytes)
  | overwrite
  deriving DecidableEq

/-- The fence against exactly what was seen: nothing, or this content. -/
def PutMode.fence : Option Bytes → PutMode
  | none => create
  | some etag => update etag

structure Write where
  path : RepositoryPath
  mode : PutMode
  bytes : Bytes
  plan : PublicationPlan
  deriving DecidableEq

structure ObjectStore where
  objects : RepositoryPath → Option Object
  inFlight : List Write

namespace ObjectStore

/-- The content served at a path. -/
def bytes (store : ObjectStore) (path : RepositoryPath) : Option Bytes :=
  (store.objects path).map Object.bytes

/-- Whether a write's precondition holds. -/
def admits (store : ObjectStore) (write : Write) : Bool :=
  match write.mode with
  | .create => store.bytes write.path = none
  | .update etag => store.bytes write.path = some etag
  | .overwrite => true

/-- Apply a write. -/
def land (store : ObjectStore) (write : Write) : ObjectStore :=
  { store with
    objects := Function.update store.objects write.path (some ⟨write.bytes, some write.plan⟩) }

/-- Leave a write in flight. -/
def send (store : ObjectStore) (write : Write) : ObjectStore :=
  { store with inFlight := write :: store.inFlight }

@[simp] theorem bytes_land (store : ObjectStore) (write : Write) (path : RepositoryPath) :
    (store.land write).bytes path =
      if path = write.path then some write.bytes else store.bytes path := by
  by_cases same : path = write.path
  · simp [bytes, land, same]
  · simp [bytes, land, same]

theorem admits_fence {store : ObjectStore} {write : Write} {previous : Option Bytes}
    (mode : write.mode = .fence previous) :
    store.admits write = true ↔ store.bytes write.path = previous := by
  cases previous <;> simp [admits, mode, PutMode.fence]

end ObjectStore

/-! ## Calls -/

inductive GetAnswer where
  | found (bytes : Bytes)
  | notFound
  | failed (error : String)

inductive PutAnswer where
  | ok
  | refused (error : String)
  | failed (error : String)

/-- What a release signer is asked for: the documents of one generation. -/
structure ReleaseDraft where
  targetsVersion : Nat
  snapshotVersion : Nat
  timestampVersion : Nat
  targets : List TargetEntry

/-- The signed documents of one generation. -/
structure SignedRelease where
  targets : Bytes
  snapshot : Bytes
  timestamp : Bytes

/-- A publisher's calls: to the store, and to its own signer. A `HEAD` is a `get` whose body is
ignored. The `capture` is the read of an object that is about to be replaced by `bytes`. -/
inductive Request where
  | get (path : RepositoryPath)
  | capture (path : RepositoryPath) (bytes : Bytes) (plan : PublicationPlan)
  | put (write : Write)
  | signRelease (draft : ReleaseDraft)
  | signRoot (version : Nat)

def Answer : Request → Type
  | .get _ | .capture _ _ _ => GetAnswer
  | .put _ => PutAnswer
  | .signRelease _ => Except String SignedRelease
  | .signRoot _ => Except String Bytes

section Calls

variable {ε : Type}

def getObject (path : RepositoryPath) : Program Answer ε GetAnswer :=
  Program.request (Request.get path)

def captureObject (path : RepositoryPath) (bytes : Bytes) (plan : PublicationPlan) :
    Program Answer ε GetAnswer :=
  Program.request (Request.capture path bytes plan)

def putObject (write : Write) : Program Answer ε PutAnswer :=
  Program.request (Request.put write)

def signRelease (draft : ReleaseDraft) : Program Answer ε (Except String SignedRelease) :=
  Program.request (Request.signRelease draft)

def signSuccessor (version : Nat) : Program Answer ε (Except String Bytes) :=
  Program.request (Request.signRoot version)

end Calls

/-- What happens to a call: it is answered, it fails, or the signer answers with these documents,
whose signatures, expiry and layout are its own choice. -/
inductive Choice where
  | answer
  | fail (error : String)
  | signRelease (signed : SignedRelease)
  | signRoot (root : Bytes)

/-- Read an object. -/
def ObjectStore.read (store : ObjectStore) (path : RepositoryPath) : GetAnswer :=
  match store.bytes path with
  | some bytes => .found bytes
  | none => .notFound

theorem read_eq_found {s : ObjectStore} {path : RepositoryPath} {bytes : Bytes}
    (read : s.read path = .found bytes) : s.bytes path = some bytes := by
  unfold ObjectStore.read at read
  split at read
  · cases read
    assumption
  · cases read

theorem read_eq_notFound {s : ObjectStore} {path : RepositoryPath}
    (read : s.read path = .notFound) : s.bytes path = none := by
  unfold ObjectStore.read at read
  split at read
  · cases read
  · assumption

section Serve

variable [Metadata]

/-- The documents that a release signer may answer a draft with. -/
def SignedRelease.matchesDraft (signed : SignedRelease) (draft : ReleaseDraft) : Bool :=
  signedVersion signed.targets = some draft.targetsVersion &&
    listedTargets signed.targets = some draft.targets &&
    signedVersion signed.snapshot = some draft.snapshotVersion &&
    referencedVersion signed.snapshot .targets = some draft.targetsVersion &&
    signedVersion signed.timestamp = some draft.timestampVersion &&
    referencedVersion signed.timestamp .snapshot = some draft.snapshotVersion

/-- Answer one call. A write that fails for its caller is left in flight. -/
def serve (choice : Choice) (store : ObjectStore) :
    (request : Request) → Option (ObjectStore × Answer request)
  | .get path =>
    match choice with
    | .answer => some (store, store.read path)
    | .fail error => some (store, GetAnswer.failed error)
    | _ => none
  | .capture path _ _ =>
    match choice with
    | .answer => some (store, store.read path)
    | .fail error => some (store, GetAnswer.failed error)
    | _ => none
  | .put write =>
    match choice with
    | .answer =>
      if store.admits write then some (store.land write, PutAnswer.ok)
      else some (store, PutAnswer.refused "precondition failed")
    | .fail error => some (store.send write, PutAnswer.failed error)
    | _ => none
  | .signRelease draft =>
    match choice with
    | .signRelease signed =>
      if signed.matchesDraft draft then some (store, Except.ok signed) else none
    | .fail error => some (store, Except.error error)
    | _ => none
  | .signRoot version =>
    match choice with
    | .signRoot root =>
      if signedVersion root = some version then some (store, Except.ok root) else none
    | .fail error => some (store, Except.error error)
    | _ => none

theorem serve_get {choice : Choice} {s t : ObjectStore} {path : RepositoryPath}
    {answer : GetAnswer} (served : serve choice s (.get path) = some (t, answer)) :
    t = s ∧ (answer = s.read path ∨ ∃ error, answer = .failed error) := by
  cases choice with
  | answer =>
    obtain ⟨rfl, rfl⟩ := Prod.mk.inj (Option.some.inj served)
    exact ⟨rfl, .inl rfl⟩
  | fail error =>
    obtain ⟨rfl, rfl⟩ := Prod.mk.inj (Option.some.inj served)
    exact ⟨rfl, .inr ⟨error, rfl⟩⟩
  | signRelease signed => cases served
  | signRoot root => cases served

theorem serve_capture {choice : Choice} {s t : ObjectStore} {path : RepositoryPath} {bytes : Bytes}
    {plan : PublicationPlan} {answer : GetAnswer}
    (served : serve choice s (.capture path bytes plan) = some (t, answer)) :
    t = s ∧ (answer = s.read path ∨ ∃ error, answer = .failed error) :=
  @serve_get _ choice s t path answer served

theorem serve_put {choice : Choice} {s t : ObjectStore} {write : Write} {answer : PutAnswer}
    (served : serve choice s (.put write) = some (t, answer)) :
    (s.admits write = true ∧ t = s.land write ∧ answer = .ok) ∨
      (t = s ∧ ∃ error, answer = .refused error) ∨
      (t = s.send write ∧ ∃ error, answer = .failed error) := by
  cases choice with
  | answer =>
    change (if s.admits write then some (s.land write, PutAnswer.ok)
      else some (s, PutAnswer.refused "precondition failed")) = some (t, answer) at served
    split_ifs at served with admitted
    · obtain ⟨rfl, rfl⟩ := Prod.mk.inj (Option.some.inj served)
      exact .inl ⟨admitted, rfl, rfl⟩
    · obtain ⟨rfl, rfl⟩ := Prod.mk.inj (Option.some.inj served)
      exact .inr (.inl ⟨rfl, _, rfl⟩)
  | fail error =>
    obtain ⟨rfl, rfl⟩ := Prod.mk.inj (Option.some.inj served)
    exact .inr (.inr ⟨rfl, error, rfl⟩)
  | signRelease signed => cases served
  | signRoot root => cases served

/-- The write in flight at a position is applied, if its precondition holds now. -/
def landLate (position : Nat) (store : ObjectStore) : Option ObjectStore :=
  match store.inFlight[position]? with
  | some write =>
    if store.admits write then
      some { store.land write with inFlight := store.inFlight.eraseIdx position }
    else
      none
  | none => none

end Serve

end Updatedc.Tuf
