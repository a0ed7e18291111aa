import Updatedc.Contracts.Dataflow
import Updatedc.Contracts.Releases

/-!
# The signed deployment document (`updated-contracts/src/assignment.rs`)

A deployment's identity **is** the digest of its published bytes (`publication`): a document that
does not validate is never published and has no identity. `rollbackTo` restores an earlier
document through the current catalog's explicit return edges.
-/

namespace Updatedc.Contracts

/-- A `serde_json::Value`, carried and never looked into: a number, an array and an object keep
their JSON text. -/
inductive JsonValue where
  | null
  | bool (value : Bool)
  | number (text : String)
  | string (text : String)
  | array (text : String)
  | object (text : String)
  deriving DecidableEq

def JsonValue.isObject : JsonValue → Bool
  | object _ => true
  | _ => false

structure ManagedRepositoryLimits where
  metadataLimit : Nat
  targetLimit : Nat
  transportTimeoutSeconds : Nat
  deriving DecidableEq

structure ManagedStorage where
  inactiveReleases : Nat
  inactiveBytes : Nat
  inactiveRepositoryCaches : Nat
  deriving DecidableEq

structure ManagedTimeouts where
  checkIntervalSeconds : Nat
  healthGraceSeconds : Nat
  healthSuccesses : Nat
  healthIntervalSeconds : Nat
  refreshRetrySeconds : Nat
  confirmationWindowSeconds : Nat
  deriving DecidableEq

structure ManagedRuntime where
  product : String
  channel : String
  installRoot : String
  inputs : InputSelection := {}
  repository : ManagedRepositoryLimits
  storage : ManagedStorage
  timeouts : ManagedTimeouts
  deriving DecidableEq

structure RepositoryAssignment where
  schema : Nat
  deployment : String
  metadataUrl : String
  targetsUrl : String
  application : ReleaseGraph
  releaseRoot : JsonValue
  runtime : ManagedRuntime
  deriving DecidableEq

/-! ## Repository locations -/

/-- A parsed URL, as far as the grammar looks at it. -/
structure Url where
  scheme : String
  username : String
  password : Option String
  host : Option String
  path : String
  query : Option String
  fragment : Option String
  cannotBeABase : Bool
  /-- `to_file_path` succeeds. -/
  isFilePath : Bool

/-- The `url` crate's two parsers. -/
class UrlParser where
  parse : String → Except String Url
  fromDirectoryPath : String → Option Url

/-- No credentials, no fragment and no query (`QueryPolicy::Forbidden`). -/
def Url.hasUnambiguousShape (url : Url) : Bool :=
  url.username.isEmpty && url.password.isNone && url.fragment.isNone && url.query.isNone

/-- The one repository-base grammar carried across the wire, on a Unix control plane. -/
def canonicalRepositoryBase [UrlParser] (value : String) : Except String Url := do
  let url ←
    if value.toList.head? = some '/' then
      if value.toList.getLast? ≠ some '/' then
        throw "absolute offline directory must end in a path separator"
      else
        match UrlParser.fromDirectoryPath value with
        | some url => pure url
        | none => throw "absolute offline directory cannot be represented as a file URL"
    else
      match UrlParser.parse value with
      | .ok url => pure url
      | .error error =>
        throw s!"must be an HTTPS/file base URL or absolute directory: {error}"
  if !url.hasUnambiguousShape then
    throw "must not contain credentials, a query, or a fragment"
  if url.cannotBeABase || url.path.toList.getLast? ≠ some '/' then
    throw "must identify a base directory ending with '/'"
  match url.scheme, url.host with
  | "https", some _ => return url
  | "https", none => throw "HTTPS repository base must name a host"
  | "file", some _ => throw "file repository base must not name a remote host"
  | "file", none =>
    if url.isFilePath then return url
    else throw "file repository base is not an absolute directory on this platform"
  | scheme, _ => throw s!"uses unsupported {scheme} scheme"

/-! ## Runtime policy -/

def maxIntervalSeconds : Nat := 30 * 24 * 60 * 60
def maxRepositoryMetadataBytes : Nat := 64 * 1024 * 1024
def maxRepositoryTargetBytes : Nat := 2 * 1024 * 1024 * 1024
def maxU64 : Nat := 2 ^ 64 - 1

/-- How old a report may be before a reader stops trusting it, in seconds
(`REPORT_FRESHNESS`). -/
def reportFreshnessSeconds : Nat := 60
def reportCadenceJitterPercent : Nat := 20

/-- Three report gaps fit inside the freshness window. -/
def maxCheckIntervalSeconds : Nat :=
  reportFreshnessSeconds * 100 / (3 * (100 + reportCadenceJitterPercent))

/-- `^(/|[A-Za-z]:[\\/])`. -/
def isAbsoluteInstallRoot (path : String) : Bool :=
  match path.toList with
  | '/' :: _ => true
  | drive :: ':' :: separator :: _ => drive.isAlpha && (separator == '/' || separator == '\\')
  | _ => false

namespace ManagedRuntime

/-- One interval field against the ceiling it answers to. -/
def checkInterval (field : String) (seconds limit : Nat) (reason : String) :
    Except String Unit :=
  if seconds > limit then .error s!"{field} ({seconds}) exceeds the {limit}s maximum{reason}"
  else .ok ()

def cadenceReason : String :=
  " that keeps a node's reports inside the shared freshness window"

def validate (self : ManagedRuntime) : Except String Unit := do
  if !Identity.isSegment self.product || !Identity.isSegment self.channel then
    throw "managed runtime product/channel identity is invalid"
  if !isAbsoluteInstallRoot self.installRoot then
    throw "managed runtime install_root is not an absolute node path"
  if self.repository.metadataLimit == 0 || self.repository.targetLimit == 0
      || self.repository.transportTimeoutSeconds == 0 || self.storage.inactiveBytes == 0
      || self.timeouts.checkIntervalSeconds == 0 || self.timeouts.healthGraceSeconds == 0
      || self.timeouts.healthSuccesses == 0 || self.timeouts.healthIntervalSeconds == 0
      || self.timeouts.refreshRetrySeconds == 0
      || self.timeouts.confirmationWindowSeconds == 0 then
    throw "managed runtime limits and timeouts must be non-zero"
  if self.repository.metadataLimit > maxRepositoryMetadataBytes
      || self.repository.targetLimit > maxRepositoryTargetBytes then
    throw (s!"managed repository limits exceed the {maxRepositoryMetadataBytes}-byte metadata " ++
      s!"or {maxRepositoryTargetBytes}-byte target ceiling")
  checkInterval "repository.transport_timeout_seconds" self.repository.transportTimeoutSeconds
    maxIntervalSeconds ""
  checkInterval "timeouts.health_grace_seconds" self.timeouts.healthGraceSeconds
    maxIntervalSeconds ""
  checkInterval "timeouts.health_interval_seconds" self.timeouts.healthIntervalSeconds
    maxIntervalSeconds ""
  checkInterval "timeouts.confirmation_window_seconds" self.timeouts.confirmationWindowSeconds
    maxIntervalSeconds ""
  checkInterval "timeouts.check_interval_seconds" self.timeouts.checkIntervalSeconds
    maxCheckIntervalSeconds cadenceReason
  checkInterval "timeouts.refresh_retry_seconds" self.timeouts.refreshRetrySeconds
    maxCheckIntervalSeconds cadenceReason
  match self.inputs.validate with
  | .ok () => pure ()
  | .error error => throw s!"managed runtime inputs: {error}"
  let minGrace :=
    min maxU64 ((self.timeouts.healthSuccesses - 1) * self.timeouts.healthIntervalSeconds)
  if self.timeouts.healthGraceSeconds < minGrace then
    throw (s!"health_grace_seconds ({self.timeouts.healthGraceSeconds}) must be >= " ++
      s!"(health_successes-1)*health_interval_seconds ({minGrace}); otherwise the health " ++
      "streak can never complete within the grace window")

end ManagedRuntime

/-! ## The whole document -/

namespace RepositoryAssignment

def currentSchema : Nat := 6
def maxDocumentBytes : Nat := maxDataflowBodyBytes + 1024 * 1024

variable [Semver] [UrlParser] [Json JsonValue]

/-- One repository location, under the field it is reported as. -/
def checkLocation (name location : String) : Except String Unit :=
  match canonicalRepositoryBase location with
  | .ok _ => .ok ()
  | .error error => .error s!"repository assignment {name} is invalid: {error}"

variable (self : RepositoryAssignment)

/-- The complete signed contract, before a publisher signs it or a node acts on it. -/
def validate : Except String Unit := do
  if self.schema != currentSchema then
    throw s!"unsupported repository assignment schema {self.schema}"
  if !Identity.isSegment self.deployment then
    throw "repository assignment deployment identity is invalid"
  checkLocation "metadataUrl" self.metadataUrl
  checkLocation "targetsUrl" self.targetsUrl
  self.application.validate
  if !self.releaseRoot.isObject then
    throw "repository assignment releaseRoot must be a JSON object"
  self.runtime.validate
  let rootBytes := Json.toVec self.releaseRoot
  if rootBytes.length > self.runtime.repository.metadataLimit then
    throw (s!"repository metadata_limit ({self.runtime.repository.metadataLimit}) is smaller " ++
      s!"than the {rootBytes.length}-byte pinned release root")

/-- Restore an earlier deployment's configuration using the current catalog's explicit return
edges. -/
def rollbackTo (self previous : RepositoryAssignment) :
    Except String RepositoryAssignment := do
  let version := previous.application.target
  let reference ← previous.application.targetReference
  self.application.checkSource version reference.sha256
  let restored :=
    { previous with application := { self.application with target := version } }
  restored.validate
  let _ ← restored.application.route (some self.application.target) fun _ _ => true
  return restored

variable [Json RepositoryAssignment] [Crypto]

def toBoundedJson : Except String Bytes := do
  self.validate
  Bounded.encode self "repository assignment" maxDocumentBytes

def fromBoundedJson (bytes : Bytes) : Except String RepositoryAssignment := do
  let assignment ← Bounded.decode bytes "repository assignment" maxDocumentBytes
  assignment.validate
  return assignment

/-- The bytes to publish and the identity they are known by, together. -/
def publication : Except String (Bytes × Sha256) := do
  let bytes ← self.toBoundedJson
  return (bytes, sha256 bytes)

end RepositoryAssignment

end Updatedc.Contracts
