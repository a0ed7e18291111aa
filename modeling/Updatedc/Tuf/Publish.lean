import Updatedc.Tuf.ObjectStore
import Updatedc.Tuf.Root

/-!
# Publishing a generation (`updated-tuf/src/repo.rs`, `updatec/src/runtime/publish.rs`,
`updatectl/src/publish.rs`, `updatectl/src/repository.rs`)

A publisher checks out the signed metadata of one generation, edits the checkout (adds releases,
renews or rotates the root), and mirrors the result: retained targets are verified, versioned
metadata is created, targets are uploaded by content, and then `root.json` and `timestamp.json` are
swapped in, each fenced by what was there before the first write.

Error texts name an object by its path in the repository; the bucket's key prefix and the local
directory are left out. The local directory belongs to the publisher alone, so reading it back
does not fail; a publisher whose disk fails stops, as one that dies.
-/

namespace Updatedc.Tuf

open Contracts

inductive StorageError where
  | operation (message : String)
  | onlineMetadataConflict (message : String)
  deriving DecidableEq

def StorageError.display : StorageError → String
  | operation message | onlineMetadataConflict message => message

/-! ## The local directory -/

/-- A repository directory: its files, and the timestamp it was checked out with, if it was. -/
structure RepositoryDir where
  files : List (RepositoryPath × Bytes)
  base : Option Bytes

namespace RepositoryDir

def file (dir : RepositoryDir) (path : RepositoryPath) : Option Bytes := dir.files.lookup path

/-- Replace or add one file. -/
def write (dir : RepositoryDir) (path : RepositoryPath) (bytes : Bytes) : RepositoryDir :=
  { dir with files := dir.files.filter (·.1 ≠ path) ++ [(path, bytes)] }

/-- Write files in order. -/
def writeAll (dir : RepositoryDir) (files : List (RepositoryPath × Bytes)) : RepositoryDir :=
  files.foldl (fun dir file => dir.write file.1 file.2) dir

end RepositoryDir

theorem lookup_cons_ite (path other : RepositoryPath) (bytes : Bytes)
    (rest : List (RepositoryPath × Bytes)) :
    ((path, bytes) :: rest).lookup other =
      if other = path then some bytes else rest.lookup other := by
  by_cases same : other = path
  · simp [same]
  · rw [List.lookup_cons, beq_eq_false_iff_ne.mpr same, if_neg same]

theorem lookup_filter_append (files : List (RepositoryPath × Bytes)) (path other : RepositoryPath)
    (bytes : Bytes) :
    (files.filter (·.1 ≠ path) ++ [(path, bytes)]).lookup other =
      if other = path then some bytes else files.lookup other := by
  induction files with
  | nil => rw [List.filter_nil, List.nil_append, lookup_cons_ite]
  | cons entry rest ih =>
    obtain ⟨key, value⟩ := entry
    by_cases skipped : key = path
    · rw [List.filter_cons_of_neg (by simpa using skipped), ih, lookup_cons_ite]
      grind
    · rw [List.filter_cons_of_pos (by simpa using skipped), List.cons_append, lookup_cons_ite,
        lookup_cons_ite, ih]
      grind

theorem RepositoryDir.file_write (dir : RepositoryDir) (path other : RepositoryPath)
    (bytes : Bytes) :
    (dir.write path bytes).file other = if other = path then some bytes else dir.file other :=
  lookup_filter_append dir.files path other bytes

theorem RepositoryDir.base_writeAll (dir : RepositoryDir) (files : List (RepositoryPath × Bytes)) :
    (dir.writeAll files).base = dir.base := by
  induction files generalizing dir with
  | nil => rfl
  | cons file rest ih => exact ih _

/-- The current generation of a local directory, as the TUF crate loads it. -/
structure LoadedRepository where
  root : Bytes
  timestamp : Bytes
  snapshotVersion : Nat
  snapshot : Bytes
  targetsVersion : Nat
  targetsDocument : Bytes
  targets : List TargetEntry

def require {ε α : Type} (found : Option α) (missing : ε) : Except ε α :=
  match found with
  | some a => .ok a
  | none => .error missing

theorem require_ok {ε α : Type} {found : Option α} {missing : ε} {a : α}
    (ok : require found missing = .ok a) : found = some a := by
  cases found with
  | none => cases ok
  | some b => exact congrArg some (Except.ok.inj ok)

/-- Fail unless the condition holds. -/
def ensure {ε : Type} (holds : Bool) (failure : ε) : Except ε Unit :=
  if holds then .ok () else .error failure

section Local

variable [Metadata]

def loadLocal (dir : RepositoryDir) (context : String) : Except String LoadedRepository := do
  let root ← require (dir.file .root) s!"{context}: reading root.json"
  let timestamp ← require (dir.file .timestamp) s!"{context}: no timestamp.json"
  let snapshotVersion ← require (referencedVersion timestamp .snapshot)
    s!"{context}: timestamp.json names no snapshot"
  let snapshot ← require (dir.file (.versioned snapshotVersion .snapshot))
    s!"{context}: no {snapshotVersion}.snapshot.json"
  let targetsVersion ← require (referencedVersion snapshot .targets)
    s!"{context}: snapshot.json names no targets"
  let targetsDocument ← require (dir.file (.versioned targetsVersion .targets))
    s!"{context}: no {targetsVersion}.targets.json"
  let targets ← require (listedTargets targetsDocument) s!"{context}: targets.json is unreadable"
  (verifies dir.files).mapError fun error => s!"{context}: {error}"
  return { root, timestamp, snapshotVersion, snapshot, targetsVersion, targetsDocument, targets }

def hasKnownLayout : List (List Char) → Bool
  | [first, _, _, _, _, _] => first = "products".toList
  | [first, second, third] =>
    first = "assignments".toList &&
      (second = "agents".toList || second = "configs".toList) &&
      ".json".toList.isSuffixOf third
  | _ => false

def validateTargetName (name : String) : Except String Unit :=
  let parts := name.toList.splitOn '/'
  if !hasKnownLayout parts || !parts.all Path.isSafeComponent then
    .error s!"unsafe target path {name.quote}"
  else
    .ok ()

/-- `root.json` and its versioned copies. -/
def RepositoryPath.isRoot : RepositoryPath → Bool
  | root => true
  | versioned version .root => 0 < version
  | _ => false

/-- `root.json` and the 1024 updates a client follows. -/
def maxRootChainFiles : Nat := 1025

/-- Where a listed target is published. -/
def TargetEntry.path (entry : TargetEntry) : RepositoryPath := .target entry.digest entry.name

/-- What publishing this directory takes: the targets it holds, the roots, the current targets and
snapshot documents, and the timestamp last. A listed target it does not hold is retained. -/
def currentPublicationPlan (dir : RepositoryDir) : Except String PublicationPlan := do
  let repository ← loadLocal dir "resolving current publication closure"
  repository.targets.forM fun entry => validateTargetName entry.name
  let targets := repository.targets.filterMap fun entry =>
    (dir.file entry.path).map fun bytes => (entry.path, bytes)
  let retainedTargets := (repository.targets.filter fun entry =>
    (dir.file entry.path).isNone).map fun entry => ⟨entry.path, entry.length⟩
  let roots := dir.files.filter (·.1.isRoot)
  if roots.length > maxRootChainFiles then
    throw s!"root chain contains more than {maxRootChainFiles - 1} files"
  return {
    uploads := targets ++ roots ++
      [(.versioned repository.targetsVersion .targets, repository.targetsDocument),
        (.versioned repository.snapshotVersion .snapshot, repository.snapshot),
        (.timestamp, repository.timestamp)]
    retainedTargets
    base := dir.base }

end Local

/-! ## Mirroring a generation -/

def localTufMetadataMaxBytes : Nat := 16 * 1024 * 1024

def objectBytesLimit : Nat := 8 * 1024 * 1024

/-- A publisher that talks to the store. -/
abbrev Publishing := Program Answer StorageError

def operation {α : Type} (message : String) : Publishing α := throw (.operation message)

/-- Read a local document, refusing one past the limit. -/
def readLocalBounded (path : RepositoryPath) (bytes : Bytes) : Publishing Bytes :=
  if bytes.length > localTufMetadataMaxBytes then
    operation s!"reading {path.display}: past the {localTufMetadataMaxBytes}-byte limit"
  else
    return bytes

/-- Refuse an object past the limit. -/
def collectObjectBounded (path : RepositoryPath) (bytes : Bytes) (limit : Nat) :
    Except String Bytes :=
  if bytes.length > limit then
    .error s!"object {path.display} is {bytes.length} bytes, over the {limit}-byte limit"
  else
    .ok bytes

theorem collectObjectBounded_ok {path : RepositoryPath} {bytes collected : Bytes} {limit : Nat}
    (ok : collectObjectBounded path bytes limit = .ok collected) : collected = bytes := by
  unfold collectObjectBounded at ok
  split at ok
  · cases ok
  · exact (Except.ok.inj ok).symm

def contentAddressedTargetDigest : RepositoryPath → Except StorageError (Option Sha256)
  | .target digest name =>
    match digest.digest? with
    | some digest => .ok (some digest)
    | none =>
      .error (.operation
        (s!"publication target {(RepositoryPath.target digest name).display} has a " ++
        "non-canonical SHA-256 object name"))
  | _ => .ok none

/-- A path with a content digest is a target of that digest. -/
theorem contentAddressedTargetDigest_some {path : RepositoryPath} {digest : Sha256}
    (ok : contentAddressedTargetDigest path = .ok (some digest)) :
    ∃ name, path = .target (.canonical digest) name := by
  cases path with
  | target text name =>
    cases text with
    | canonical d =>
      obtain rfl := Option.some.inj (Except.ok.inj ok)
      exact ⟨name, rfl⟩
    | other text malformed => cases ok
  | root => cases ok
  | timestamp => cases ok
  | versioned version role => cases ok

structure ConditionalPublicationFile where
  path : RepositoryPath
  bytes : Bytes
  previous : Option Bytes

/-- Capture what is served at a path before anything is written. -/
def prepareConditionalPublicationFile (plan : PublicationPlan) (path : RepositoryPath)
    (file : Bytes) : Publishing ConditionalPublicationFile := do
  let bytes ← readLocalBounded path file
  match ← captureObject path bytes plan with
  | .found current =>
    match collectObjectBounded path current localTufMetadataMaxBytes with
    | .ok previous => return { path, bytes, previous := some previous }
    | .error error =>
      operation s!"reading current publication object {path.display}: {error}"
  | .notFound => return { path, bytes, previous := none }
  | .failed error =>
    operation s!"reading current publication object {path.display}: {error}"

/-- Swap a prepared object in, fenced by what was there. One that is already there is left. -/
def commitConditionalPublicationFile (plan : PublicationPlan) (role : String)
    (write : ConditionalPublicationFile) : Publishing Unit := do
  if write.previous = some write.bytes then
    return ()
  match ← putObject ⟨write.path, .fence write.previous, write.bytes, plan⟩ with
  | .ok => return ()
  | .refused error =>
    operation (s!"publication {role} {write.path.display} changed while this generation was " ++
      s!"uploading; another writer won the fence: {error}")
  | .failed error =>
    operation s!"committing publication {role} {write.path.display}: {error}"

/-- The roles a signer can advance past. -/
def RepositoryPath.isOnline : RepositoryPath → Bool
  | versioned _ .targets | versioned _ .snapshot => true
  | _ => false

/-- What a refused creation means: the bytes found must be the ones to publish. -/
def acceptExisting (path : RepositoryPath) (bytes existing : Bytes) : Except StorageError Unit :=
  if existing = bytes then
    .ok ()
  else
    let message := s!"immutable metadata {path.display} already exists with different bytes"
    .error (if path.isOnline then .onlineMetadataConflict message else .operation message)

theorem acceptExisting_ok {path : RepositoryPath} {bytes existing : Bytes}
    (ok : acceptExisting path bytes existing = .ok ()) : existing = bytes := by
  unfold acceptExisting at ok
  split at ok
  · assumption
  · cases ok

/-- Publish versioned metadata exactly once. -/
def publishImmutableMetadata (plan : PublicationPlan) (path : RepositoryPath) (file : Bytes) :
    Publishing Unit := do
  let bytes ← readLocalBounded path file
  match ← putObject ⟨path, .create, bytes, plan⟩ with
  | .ok => return ()
  | .refused _ =>
    match ← getObject path with
    | .found current =>
      match collectObjectBounded path current localTufMetadataMaxBytes with
      | .ok existing => Program.ofExcept (acceptExisting path bytes existing)
      | .error error =>
        operation s!"reading existing immutable metadata {path.display}: {error}"
    | .notFound =>
      operation s!"reading existing immutable metadata {path.display}: not found"
    | .failed error =>
      operation s!"reading existing immutable metadata {path.display}: {error}"
  | .failed error =>
    operation s!"creating immutable metadata {path.display}: {error}"

section Publish

variable [Crypto]

/-- The length and digest check of a stored target. -/
def checkTarget (path : RepositoryPath) (digest : Sha256) (length : Nat) (stored : Bytes) :
    Except StorageError Unit :=
  if stored.length ≠ length then
    .error (.operation (s!"target {path.display} is {stored.length} bytes at the publication " ++
      s!"destination, but its signed/local length is {length} bytes"))
  else if sha256 stored ≠ digest then
    .error (.operation (s!"target {path.display} at the publication destination has SHA-256 " ++
      s!"{(sha256 stored).hex} and length {stored.length}; expected {digest.hex} and {length}"))
  else
    .ok ()

theorem checkTarget_ok {path : RepositoryPath} {digest : Sha256} {length : Nat} {stored : Bytes}
    (ok : checkTarget path digest length stored = .ok ()) :
    stored.length = length ∧ sha256 stored = digest := by
  unfold checkTarget at ok
  split_ifs at ok with size content
  exact ⟨not_not.mp size, not_not.mp content⟩

def verifyRemoteTarget (path : RepositoryPath) (digest : Sha256) (length : Nat) :
    Publishing Unit := do
  match ← getObject path with
  | .found stored => Program.ofExcept (checkTarget path digest length stored)
  | .notFound =>
    operation (s!"content-addressed target {path.display} is absent from the publication " ++
      "destination: not found")
  | .failed error =>
    operation (s!"content-addressed target {path.display} is absent from the publication " ++
      s!"destination: {error}")

/-- Upload a target unless one is there, and verify what is there then. -/
def publishContentAddressedTarget (plan : PublicationPlan) (path : RepositoryPath) (file : Bytes)
    (digest : Sha256) (length : Nat) : Publishing Unit := do
  match ← getObject path with
  | .found _ => verifyRemoteTarget path digest length
  | .notFound =>
    match ← putObject ⟨path, .overwrite, file, plan⟩ with
    | .failed error => operation s!"completing the upload for {path.display}: {error}"
    | _ => verifyRemoteTarget path digest length
  | .failed error =>
    operation s!"probing content-addressed target {path.display}: {error}"

/-- Prove that a retained target is at the destination. -/
def verifyRetainedTarget (target : RetainedTarget) : Publishing Unit := do
  match ← Program.ofExcept (contentAddressedTargetDigest target.path) with
  | none => operation s!"retained repository object {target.path.display} is not below targets/"
  | some digest =>
    match ← (verifyRemoteTarget target.path digest target.length).attempt with
    | .ok () => return ()
    | .error error =>
      operation (s!"retained target {target.path.display} failed its signed length and digest " ++
        s!"check: {error.display}")

/-- Look over one upload before anything is written: find `root.json`, and check a target against
its own name. -/
def scanUpload (root : Option Bytes) (file : RepositoryPath × Bytes) :
    Except StorageError (Option Bytes) :=
  if file.1 = .root then
    if root.isSome then
      .error (.operation "publication plan contains more than one metadata/root.json")
    else
      .ok (some file.2)
  else do
    match ← contentAddressedTargetDigest file.1 with
    | some digest =>
      if sha256 file.2 ≠ digest then
        .error (.operation (s!"publication target {file.1.display} hashes to " ++
          s!"{(sha256 file.2).hex}, not the {digest.hex} encoded in its object name"))
      else
        .ok root
    | none => .ok root

/-- Publish one object that is not `root.json`. -/
def publishUpload (plan : PublicationPlan) (file : RepositoryPath × Bytes) : Publishing Unit := do
  if file.1 = .root then
    return ()
  match ← Program.ofExcept (contentAddressedTargetDigest file.1) with
  | some digest => publishContentAddressedTarget plan file.1 file.2 digest file.2.length
  | none => publishImmutableMetadata plan file.1 file.2

variable [Metadata]

def validateTimestampTransition (write : ConditionalPublicationFile) :
    Except StorageError Unit := do
  let localVersion ← require (signedVersion write.bytes) (StorageError.operation
    s!"local publication timestamp {write.path.display} has no signed.version")
  match write.previous with
  | none => .ok ()
  | some previous =>
    let remoteVersion ← require (signedVersion previous) (StorageError.operation
      s!"current publication timestamp {write.path.display} has no signed.version")
    if remoteVersion > localVersion then
      .error (.operation
        (s!"refusing to replace publication generation {remoteVersion} with older " ++
        s!"local generation {localVersion}"))
    else if remoteVersion = localVersion ∧ previous ≠ write.bytes then
      .error (.operation
        (s!"publication generation {localVersion} already exists with different " ++
        "signed bytes"))
    else
      .ok ()

/-- Write everything in order, between the captures and the two swaps. -/
def publishPlan (plan : PublicationPlan) (uploads : List (RepositoryPath × Bytes))
    (timestamp : Bytes) : Publishing Unit := do
  let root ← Program.ofExcept (uploads.foldlM scanUpload none)
  match root with
  | none => operation "publication plan has no metadata/root.json"
  | some root =>
    let timestampWrite ← prepareConditionalPublicationFile plan .timestamp timestamp
    Program.ofExcept (validateTimestampTransition timestampWrite)
    let rootWrite ← prepareConditionalPublicationFile plan .root root
    forM uploads (publishUpload plan)
    commitConditionalPublicationFile plan "routing root" rootWrite
    commitConditionalPublicationFile plan "timestamp" timestampWrite

/-- Mirror a plan: the final upload must be the timestamp. -/
def publishPlanned (plan : PublicationPlan) : Publishing Unit := do
  forM plan.retainedTargets verifyRetainedTarget
  match plan.uploads.getLast? with
  | none => operation "publication plan has no timestamp commit"
  | some (path, timestamp) =>
    if path ≠ .timestamp then
      operation s!"publication plan's final object is {path.display}, not metadata/timestamp.json"
    else
      publishPlan plan plan.uploads.dropLast timestamp

/-- Mirror a fully signed repository. -/
def publishRepository (dir : RepositoryDir) : Publishing Unit := do
  let plan ← Program.ofExcept ((currentPublicationPlan dir).mapError fun error =>
    .operation s!"resolving current TUF publication closure: {error}")
  publishPlanned plan

end Publish

/-! ## Checkouts -/

/-- The two documents that select the active generation, by digest. -/
structure MetadataGeneration where
  root : Sha256
  timestamp : Sha256
  deriving DecidableEq

/-- `updatectl`'s publishers fail with a text. -/
abbrev Controlling := Program Answer String

/-- Read one bounded object. -/
def readObjectBounded (path : RepositoryPath) : Controlling Bytes := do
  match ← getObject path with
  | .found bytes => Program.ofExcept (collectObjectBounded path bytes objectBytesLimit)
  | .notFound => throw s!"object {path.display} not found"
  | .failed error => throw error

/-- A checked-out generation. -/
structure Checkout where
  dir : RepositoryDir
  generation : MetadataGeneration

section Checkout

variable [Crypto]

def MetadataGeneration.live : Controlling MetadataGeneration := do
  let root ← readObjectBounded .root
  let timestamp ← readObjectBounded .timestamp
  return { root := sha256 root, timestamp := sha256 timestamp }

def MetadataGeneration.changedDocument (self base : MetadataGeneration) : Option String :=
  if self.root ≠ base.root then some "root.json"
  else if self.timestamp ≠ base.timestamp then some "timestamp.json"
  else none

variable [Metadata]

/-- A positive version, or the reason there is none. -/
def positive (version : Option Nat) (missing : String) : Except String Nat :=
  require (version.filter (· ≠ 0)) missing

/-- Fetch the active metadata closure. -/
def downloadMetadata : Controlling RepositoryDir := do
  let root ← readObjectBounded .root
  let rootVersion ← Program.ofExcept (positive (signedVersion root)
    "root.json has no positive signed.version")
  Program.ofExcept (ensure (consistentSnapshot root)
    "root.json does not require consistent snapshots; this repository layout is unsupported")
  let versionedRoot ← readObjectBounded (.versioned rootVersion .root)
  Program.ofExcept (ensure (versionedRoot = root)
    s!"root.json does not match its active versioned copy {rootVersion}.root.json")
  let timestamp ← readObjectBounded .timestamp
  let snapshotVersion ← Program.ofExcept (positive (referencedVersion timestamp .snapshot)
    "timestamp.json has no positive signed.meta[\"snapshot.json\"].version")
  let snapshot ← readObjectBounded (.versioned snapshotVersion .snapshot)
  let targetsVersion ← Program.ofExcept (positive (referencedVersion snapshot .targets)
    s!"{snapshotVersion}.snapshot.json has no positive signed.meta[\"targets.json\"].version")
  let targets ← readObjectBounded (.versioned targetsVersion .targets)
  return {
    files := [(.root, root), (.versioned rootVersion .root, versionedRoot),
      (.timestamp, timestamp), (.versioned snapshotVersion .snapshot, snapshot),
      (.versioned targetsVersion .targets, targets)]
    base := some timestamp }

def checkoutMetadata : Controlling Checkout := do
  let generation ← MetadataGeneration.live
  let dir ← downloadMetadata
  let after ← MetadataGeneration.live
  Program.ofExcept (ensure (after = generation)
    ("release repository changed while its metadata was being checked out; retry after the " ++
    "other publisher has settled"))
  return { dir, generation }

/-- A package to publish. -/
structure PublishTarget where
  name : String
  source : Bytes

/-- How a package is listed: by the digest of the bytes that are published. -/
def PublishTarget.entry (target : PublishTarget) : TargetEntry :=
  ⟨target.name, .canonical (sha256 target.source), target.source.length⟩

/-- List a package, in the place of one of its name. -/
def addTarget (listed : List TargetEntry) (target : PublishTarget) : List TargetEntry :=
  listed.filter (·.name ≠ target.name) ++ [target.entry]

def signedVersionOf (document : Bytes) (role : String) : Except String Nat :=
  require (signedVersion document) s!"{role} has no signed.version"

/-- The documents that add packages to a directory's generation, or that list exactly them. -/
def releaseDraft (dir : RepositoryDir) (targets : List PublishTarget) (replaceTargets : Bool) :
    Except String ReleaseDraft := do
  targets.forM fun target => validateTargetName target.name
  let repository ← loadLocal dir "loading repository to edit"
  let targetsVersion ← nextVersion (← signedVersionOf repository.targetsDocument "targets")
    "targets"
  let snapshotVersion ← nextVersion (← signedVersionOf repository.snapshot "snapshot") "snapshot"
  let timestampVersion ← nextVersion (← signedVersionOf repository.timestamp "timestamp")
    "timestamp"
  return {
    targets := targets.foldl addTarget (if replaceTargets then [] else repository.targets)
    targetsVersion, snapshotVersion, timestampVersion }

/-- The versioned copy of the root that a generation is signed under. -/
def rootCopy (dir : RepositoryDir) : List (RepositoryPath × Bytes) :=
  match dir.file .root with
  | some root => (signedVersion root).toList.map fun version => (.versioned version .root, root)
  | none => []

/-- What committing a signed generation writes, in order: the target bodies, the versioned copy of
the root, the versioned roles, and the timestamp last. -/
def releaseFiles (dir : RepositoryDir) (draft : ReleaseDraft) (targets : List PublishTarget)
    (signed : SignedRelease) : List (RepositoryPath × Bytes) :=
  targets.map (fun target => (target.entry.path, target.source)) ++ rootCopy dir ++
    [(.versioned draft.snapshotVersion .snapshot, signed.snapshot),
      (.versioned draft.targetsVersion .targets, signed.targets), (.timestamp, signed.timestamp)]

def commitRelease (dir : RepositoryDir) (draft : ReleaseDraft) (targets : List PublishTarget)
    (signed : SignedRelease) : RepositoryDir :=
  dir.writeAll (releaseFiles dir draft targets signed)

def addRelease (dir : RepositoryDir) (targets : List PublishTarget) :
    Controlling RepositoryDir := do
  let draft ← Program.ofExcept (releaseDraft dir targets false)
  let signed ← Program.ofExcept (← signRelease draft)
  return commitRelease dir draft targets signed

/-- Renew or rotate the root of a checkout: sign its successor and commit the versioned document
before the anchor. -/
def republishCheckoutRoot (dir : RepositoryDir) : Controlling RepositoryDir := do
  let root ← Program.ofExcept (require (dir.file .root) "reading root.json")
  let version ← Program.ofExcept
    (nextVersion (← Program.ofExcept (signedVersionOf root "root.json")) "root")
  let successor ← Program.ofExcept (← signSuccessor version)
  return (dir.write (.versioned version .root) successor).write .root successor

/-- One attempt to publish the edited checkout: refuse if the served generation is not the one
checked out, publish, and go on with `again` if an online document is in the way. -/
def Checkout.attempt (generation : MetadataGeneration) (dir : RepositoryDir)
    (again : String → Controlling Unit) : Controlling Unit := do
  let live ← MetadataGeneration.live
  match live.changedDocument generation with
  | some document =>
    throw (s!"release repository changed {document} while this publish was building and " ++
      "signing: another publisher is writing the same prefix. Refusing to commit this checkout")
  | none =>
    match ← (publishRepository dir).attempt with
    | .ok () => return ()
    | .error (.onlineMetadataConflict message) => again message
    | .error (.operation message) => throw message

/-- Publish the edited checkout, re-signing it past an online metadata conflict as long as there
are retries left. -/
def Checkout.publish (generation : MetadataGeneration) : Nat → RepositoryDir → Controlling Unit
  | 0, dir => attempt generation dir throw
  | retries + 1, dir => attempt generation dir fun _ => do
    let dir ← addRelease dir []
    publish generation retries dir

def maxRetries : Nat := 8

/-- What a publisher does to its checkout. -/
inductive Edit where
  | release (targets : List PublishTarget)
  | root

/-- The releases an edit adds. -/
def Edit.targets : Edit → List PublishTarget
  | release targets => targets
  | root => []

def Edit.apply (dir : RepositoryDir) : Edit → Controlling RepositoryDir
  | release targets => addRelease dir targets
  | root => republishCheckoutRoot dir

/-- One publisher: check out, edit, publish. -/
def publisher (edits : List Edit) : Controlling Unit := do
  let checkout ← checkoutMetadata
  let dir ← edits.foldlM Edit.apply checkout.dir
  Checkout.publish checkout.generation maxRetries dir

end Checkout

end Updatedc.Tuf
