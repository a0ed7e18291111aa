import Updatedc.Lib.Except
import Updatedc.Contracts.Digest

/-!
# Root ceremonies (`updated-tuf/src/repo.rs`)

The root of a release repository is replaced in two ceremonies that share one function: a
**rotation** keeps some of the current root keys and adds a fresh one, a **renewal** keeps the key
set and only extends the validity. Either signs the successor at the next version, and a client
walks from the root it trusts to the latest one version at a time, each step checked against the
thresholds of both roots.

A key is identified by its key id, the digest of its public half; a key map is the set of ids it
holds. The key files are a parameter, as is the signing crate's rule: it attaches one valid
signature for every supplied key that the new root role lists and succeeds exactly when the new
role's threshold is met. A document's unrecognised extra fields are carried along unread and are
left out.
-/

namespace Updatedc.Tuf

open Contracts

abbrev KeyId := Sha256

inductive RoleType where
  | root | targets | snapshot | timestamp
  deriving DecidableEq

def RoleType.debug : RoleType → String
  | root => "Root"
  | targets => "Targets"
  | snapshot => "Snapshot"
  | timestamp => "Timestamp"

structure RoleKeys where
  keyids : List KeyId
  threshold : Nat
  deriving DecidableEq

structure Root where
  specVersion : String
  consistentSnapshot : Bool
  version : Nat
  /-- Seconds since the epoch. -/
  expires : Int
  keys : Finset KeyId
  roles : RoleType → Option RoleKeys

/-- A signed root, with the ids of the keys whose signatures it carries. -/
structure SignedRoot where
  signed : Root
  signatures : Finset KeyId

/-- One bounded snapshot of a local signing key. -/
structure KeySource where
  keyId : KeyId
  deriving DecidableEq

/-- The signing-key files, read by path. -/
abbrev KeyFiles := String → Except String KeySource

/-! ## Shared checks -/

/-- The slot each public key was first seen in. -/
abbrev DistinctSigningKeys := List (KeyId × String)

def DistinctSigningKeys.insertId (distinct : DistinctSigningKeys) (slot : String) (id : KeyId) :
    Except String DistinctSigningKeys :=
  match distinct.lookup id with
  | some existing =>
    .error s!"signing-key slots {existing} and {slot} contain the same public key"
  | none => .ok ((id, slot) :: distinct)

def maxVersion : Nat := 2 ^ 64 - 1

def nextVersion (current : Nat) (role : String) : Except String Nat :=
  if current + 1 > maxVersion then .error s!"{role} metadata version is exhausted"
  else .ok (current + 1)

/-- The last representable instant, `9999-12-30T22:00:00Z`. -/
def maxTimestamp : Int := 253402207200

def expiry (now days : Int) : Except String Int :=
  if days ≤ 0 then .error "expiry days must be greater than zero"
  else if days * 24 * 3600 > 2 ^ 63 - 1 then .error "expiry days overflow"
  else if now + days * 24 * 3600 > maxTimestamp then
    .error "expiry is outside the supported timestamp range"
  else .ok (now + days * 24 * 3600)

def onlineRoles : List RoleType := [.targets, .snapshot, .timestamp]

/-! ## Plans -/

/-- What a ceremony answers with: the key set, the role map, and the keys that sign. -/
structure Plan where
  keys : Finset KeyId
  roles : RoleType → Option RoleKeys
  sources : List KeySource

/-- A rotation being put together. -/
structure Draft where
  keys : Finset KeyId
  roles : RoleType → Option RoleKeys
  distinct : DistinctSigningKeys
  rootKeyids : List KeyId
  sources : List KeySource

namespace Draft

def empty : Draft := ⟨∅, fun _ => none, [], [], []⟩

/-- Carry one online key over. -/
def carryKey (old : Root) (role : RoleType) (draft : Draft) (entry : KeyId × Nat) :
    Except String Draft := do
  if entry.1 ∉ old.keys then
    throw s!"current root omits a {role.debug} key"
  let distinct ← draft.distinct.insertId s!"current {role.debug}[{entry.2}]" entry.1
  return { draft with distinct, keys := insert entry.1 draft.keys }

/-- Carry one online role over, unchanged. -/
def carryRole (old : Root) (draft : Draft) (role : RoleType) : Except String Draft :=
  match old.roles role with
  | none => .error s!"current root omits the {role.debug} role"
  | some roleKeys => do
    let draft ← roleKeys.keyids.zipIdx.foldlM (carryKey old role) draft
    return { draft with roles := Function.update draft.roles role (some roleKeys) }

/-- Add a key to the new root role and let it sign. -/
def sign (draft : Draft) (source : KeySource) (distinct : DistinctSigningKeys) : Draft :=
  { draft with
    distinct
    keys := insert source.keyId draft.keys
    rootKeyids := draft.rootKeyids ++ [source.keyId]
    sources := draft.sources ++ [source] }

/-- Retain one key of the current root. -/
def retain (files : KeyFiles) (oldRootRole : RoleKeys) (draft : Draft) (path : String) :
    Except String Draft := do
  let source ← files path
  let distinct ← draft.distinct.insertId path source.keyId
  if source.keyId ∉ oldRootRole.keyids then
    throw s!"retained key {path} is not in the current root, so it cannot authorize a rotation"
  return draft.sign source distinct

/-- Add the fresh successor. -/
def introduce (files : KeyFiles) (oldRootRole : RoleKeys) (draft : Draft) (path : String) :
    Except String Draft := do
  let source ← files path
  let distinct ← draft.distinct.insertId path source.keyId
  if source.keyId ∈ oldRootRole.keyids then
    throw "the new root key already belongs to the current root; provide a fresh key"
  return draft.sign source distinct

end Draft

/-- The rotated root: the online roles carried over, and the retained keys with the fresh one as
the root role, under the threshold it had. -/
def rotationPlan (files : KeyFiles) (retained : List String) (newRootKey : String) (old : Root)
    (oldRootRole : RoleKeys) : Except String Plan := do
  let carried ← onlineRoles.foldlM (Draft.carryRole old) Draft.empty
  let draft ← retained.foldlM (Draft.retain files oldRootRole) carried
  let draft ← draft.introduce files oldRootRole newRootKey
  return {
    keys := draft.keys
    roles := Function.update draft.roles .root (some ⟨draft.rootKeyids, oldRootRole.threshold⟩)
    sources := draft.sources }

/-- Note the online keys, so that a root key cannot double as one. -/
def noteRole (old : Root) (distinct : DistinctSigningKeys) (role : RoleType) :
    Except String DistinctSigningKeys :=
  match old.roles role with
  | none => .error s!"current root omits the {role.debug} role"
  | some roleKeys => roleKeys.keyids.zipIdx.foldlM (fun distinct entry =>
      distinct.insertId s!"current {role.debug}[{entry.2}]" entry.1) distinct

/-- Sign with a supplied key only if the current root lists it. -/
def renewWith (files : KeyFiles) (oldRootRole : RoleKeys)
    (found : DistinctSigningKeys × List KeySource) (path : String) :
    Except String (DistinctSigningKeys × List KeySource) := do
  let source ← files path
  if source.keyId ∈ oldRootRole.keyids then
    let distinct ← found.1.insertId path source.keyId
    return (distinct, found.2 ++ [source])
  else
    return found

/-- The renewed root: the same keys under the same roles. -/
def renewalPlan (files : KeyFiles) (rootKeys : List String) (old : Root)
    (oldRootRole : RoleKeys) : Except String Plan := do
  let distinct ← onlineRoles.foldlM (noteRole old) []
  let (_, sources) ← rootKeys.foldlM (renewWith files oldRootRole) (distinct, [])
  if sources.length < oldRootRole.threshold then
    throw (s!"root renewal needs {oldRootRole.threshold} of the current root's keys, but only " ++
      s!"{sources.length} of the {rootKeys.length} supplied are in it")
  return { keys := old.keys, roles := old.roles, sources }

/-! ## Ceremonies -/

/-- One valid signature for every supplied key the root role lists, if they meet its threshold. -/
def signRoot (next : Root) (sources : List KeySource) : Except String SignedRoot :=
  match next.roles .root with
  | none => .error "signing republished root: no root role"
  | some role =>
    let signatures := (sources.map KeySource.keyId).toFinset.filter (· ∈ role.keyids)
    if role.threshold ≤ signatures.card then .ok { signed := next, signatures }
    else .error "signing republished root: not enough keys"

/-- Build the successor of the current root at the next version and sign it. -/
def republishRoot (now expiryDays : Int) (plan : Root → RoleKeys → Except String Plan)
    (old : Root) : Except String SignedRoot :=
  match old.roles .root with
  | none => .error "current root omits the root role"
  | some oldRootRole => do
    let planned ← plan old oldRootRole
    let version ← nextVersion old.version "root"
    let expires ← expiry now expiryDays
    signRoot { old with version, expires, keys := planned.keys, roles := planned.roles }
      planned.sources

def rotateRoot (files : KeyFiles) (retained : List String) (newRootKey : String)
    (now expiryDays : Int) (old : Root) : Except String SignedRoot :=
  if retained.isEmpty then
    .error "root rotation needs at least one retained key for continuity"
  else
    republishRoot now expiryDays (rotationPlan files retained newRootKey) old

def renewRoot (files : KeyFiles) (rootKeys : List String) (now expiryDays : Int) (old : Root) :
    Except String SignedRoot :=
  republishRoot now expiryDays (renewalPlan files rootKeys) old

/-- One call of either ceremony. -/
inductive Ceremony where
  | rotate (retained : List String) (newRootKey : String) (now expiryDays : Int)
  | renew (rootKeys : List String) (now expiryDays : Int)

/-- The key files are read afresh by each call. -/
def Ceremony.perform (files : KeyFiles) (root : Root) : Ceremony → Except String SignedRoot
  | rotate retained newRootKey now expiryDays =>
    rotateRoot files retained newRootKey now expiryDays root
  | renew rootKeys now expiryDays => renewRoot files rootKeys now expiryDays root

/-- A sequence of calls that all succeed, with the roots they publish. -/
def performAll : List (KeyFiles × Ceremony) → Root → Except String (List SignedRoot)
  | [], _ => .ok []
  | (files, ceremony) :: rest, root => do
    let next ← ceremony.perform files root
    let later ← performAll rest next.signed
    return next :: later

/-! ## The client -/

/-- Enough signatures by keys of this root's root role. -/
def Root.meetsThreshold (root : Root) (signatures : Finset KeyId) : Bool :=
  match root.roles .root with
  | none => false
  | some role => role.threshold ≤ (signatures.filter (· ∈ role.keyids)).card

/-- A client that trusts `trusted` takes one step: the next version, signed under both roots. -/
def follow (trusted : Root) (next : SignedRoot) : Option Root :=
  if next.signed.version = trusted.version + 1 ∧ trusted.meetsThreshold next.signatures ∧
      next.signed.meetsThreshold next.signatures then
    some next.signed
  else
    none

/-- Walk a chain of published roots. -/
def walk (trusted : Root) (chain : List SignedRoot) : Option Root := chain.foldlM follow trusted

/-- The newest root of a chain. -/
def latest (root : Root) (chain : List SignedRoot) : Root :=
  chain.foldl (fun _ next => next.signed) root

end Updatedc.Tuf
