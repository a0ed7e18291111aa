import Updatedc.Contracts.Assignment

/-!
# Node reports (`updated-contracts/src/telemetry.rs`, `attention.rs`, `helper.rs`)

A report is consumed only through `authenticateReport`: one signature over the pre-authentication
encoding verifies under the node's pinned key, and the payload parses to a well-formed report of
that node. What a reader may then see is sealed in `AuthenticReport`: the whole report while it is
fresh, and its one durable claim, the rejection of an assignment, at any age.
-/

namespace Updatedc.Contracts

/-! ## Optional evidence a report carries -/

/-- The identities reserved for operations that belong to no transaction. -/
def Attempt.all : List String := ["boot", "converge", "periodic", "fingerprint"]

def Attempt.isReserved (id : String) : Bool := all.contains id

/-- The derived compensating direction of one transaction: its token and a final `r`. -/
def Attempt.isCompensation (id : String) : Bool :=
  id.toList.getLast? == some 'r' && isCanonicalSha256 (String.ofList id.toList.dropLast)

def Attempt.isTransactionInvocation (id : String) : Bool :=
  isCanonicalSha256 id || isCompensation id

/-- A durable hold: a request for an operator decision. -/
structure Attention where
  product : String
  receipt : DigestText
  attempt : String
  version : String
  message : String
  deriving DecidableEq

def maxResultMessageBytes : Nat := 4 * 1024

def Attention.validate [Semver] (self : Attention) : Except String Unit :=
  if !Identity.isSegment self.product || !self.receipt.isCanonical
      || !Identity.isReleaseVersion self.version
      || !(Attempt.isReserved self.attempt || Attempt.isTransactionInvocation self.attempt)
      || self.message.isEmpty || self.message.utf8ByteSize > maxResultMessageBytes
      || self.message.toList.any Path.isControl then
    .error "invalid operator attention record"
  else .ok ()

/-- The reconciler-helper protocol a node supports. -/
structure Support where
  apis : List Nat
  capabilities : List String
  deriving DecidableEq

def Support.isValid (self : Support) : Bool :=
  self.apis != [] && self.apis.length ≤ 16
    && self.apis.all (· != 0) && decide self.apis.Nodup
    && self.capabilities.length ≤ 32
    && self.capabilities.all (fun value => value.utf8ByteSize ≤ 64 && Identity.isSegment value)
    && decide self.capabilities.Nodup

structure Fingerprint where
  definitionSha256 : DigestText
  outputSha256 : DigestText
  deriving DecidableEq

def Fingerprint.isWellformed (self : Fingerprint) : Bool :=
  self.definitionSha256.isCanonical && self.outputSha256.isCanonical

/-- The release a reconciler invocation acted on, as far as a report is checked against it. -/
structure ReconciledRelease where
  version : String
  archiveSha256 : Sha256
  deriving DecidableEq

/-- Evidence for the latest successful state-changing invocation: the candidate release, and the
execution definition of its reconciler. -/
structure LastReconciliation where
  candidate : ReconciledRelease
  definitionSha256 : Sha256
  deriving DecidableEq

/-! ## The report -/

structure NodeReport where
  attention : Option Attention := none
  helper : Option Support := none
  schema : Nat
  node : ResourceName
  deployment : String
  /-- Digest of the exact assignment the node is acting on; empty before its first one. -/
  assignmentSha256 : DigestText
  version : String
  archiveSha256 : DigestText
  definitionSha256 : DigestText
  healthy : Bool
  updating : Bool := false
  /-- Durable rejections keep this node from the assigned target. -/
  rejected : Bool := false
  reportedAtMs : Nat
  fingerprint : Option Fingerprint := none
  outputSha256 : Option DigestText := none
  reconciliation : Option LastReconciliation := none
  deriving DecidableEq

def reportMaxSkewSeconds : Nat := 60

namespace NodeReport

def currentSchema : Nat := 12

variable (self : NodeReport)

/-- Why a reader may not act on this report, if it may not. The checks run in the source's
order. -/
def shapeError [Semver] : Option String :=
  if self.attention.any fun record => self.healthy || !record.validate.isOk then
    some "invalid operator attention report"
  else if self.helper.any fun helper => !helper.isValid then
    some "invalid helper capability report"
  else if self.schema != currentSchema then some "unknown schema"
  else if !Identity.isSegment self.deployment then some "invalid deployment identity"
  else if self.reportedAtMs == 0 then some "missing report timestamp"
  else if self.version.isEmpty != self.archiveSha256.isEmpty then
    some "version and archive identity are incomplete"
  else if !self.version.isEmpty && !Identity.isReleaseVersion self.version then
    some "invalid release version"
  else if self.archiveSha256.isEmpty != self.definitionSha256.isEmpty then
    some "archive and execution identity are incomplete"
  else if self.healthy && self.archiveSha256.isEmpty then
    some "healthy report has no installed release"
  else if self.healthy && self.updating then some "report is both healthy and updating"
  else if !self.archiveSha256.isEmpty && !self.archiveSha256.isCanonical then
    some "invalid archive digest"
  else if !self.definitionSha256.isEmpty && !self.definitionSha256.isCanonical then
    some "invalid execution definition digest"
  else if !self.assignmentSha256.isEmpty && !self.assignmentSha256.isCanonical then
    some "invalid assignment digest"
  else if self.fingerprint.any fun fingerprint => !fingerprint.isWellformed then
    some "invalid fingerprint"
  else if self.outputSha256.any fun digest => !digest.isCanonical then
    some "invalid output digest"
  else if !self.healthy && (self.fingerprint.isSome || self.outputSha256.isSome) then
    some "unhealthy report carries healthy-only evidence"
  else
    match self.reconciliation with
    | none =>
      if self.version.isEmpty || self.attention.isSome then none
      else some "installed release has no reconciliation evidence"
    | some record =>
      if self.version.isEmpty then some "reconciliation evidence has no installed release"
      else if record.candidate.version != self.version
          || .canonical record.candidate.archiveSha256 != self.archiveSha256
          || .canonical record.definitionSha256 != self.definitionSha256 then
        some "reconciliation evidence names a different release"
      else none

def isWellformed [Semver] : Bool := self.shapeError.isNone

/-- Inside the shared freshness window as seen from `now`, bounded in both directions. -/
def isFresh (now : Nat) : Bool :=
  now != 0 && self.reportedAtMs ≤ min maxU64 (now + reportMaxSkewSeconds * 1000)
    && now - self.reportedAtMs ≤ reportFreshnessSeconds * 1000

/-- Healthy, unrejected, on this exact assignment and running this exact archive. -/
def isConvergedTo [Semver] (assignmentSha256 archiveSha256 : DigestText) : Bool :=
  self.isWellformed && self.healthy && !self.rejected
    && self.assignmentSha256 == assignmentSha256 && self.archiveSha256 == archiveSha256

end NodeReport

/-! ## The envelope and the one trust gate -/

structure Signature where
  sig : String
  deriving DecidableEq

/-- A DSSE envelope. -/
structure Envelope where
  payload : String
  payloadType : String
  signatures : List Signature
  deriving DecidableEq

def Envelope.maxSignatures : Nat := 4

def reportPayloadType : String := "application/vnd.updated.node-report+json"

/-- A pinned P-256 key, by its SEC1 uncompressed point. -/
structure P256PublicKey where
  point : Bytes
  deriving DecidableEq

/-- The bytes a signature commits to: `DSSEv1 <len(type)> <type> <len(payload)> <payload>`. -/
def pae (payload : Bytes) (payloadType : String) : Bytes :=
  let utf8 (text : String) : Bytes := text.toUTF8.data.toList
  utf8 "DSSEv1 " ++ utf8 (toString payloadType.utf8ByteSize) ++ utf8 " " ++ utf8 payloadType
    ++ utf8 " " ++ utf8 (toString payload.length) ++ utf8 " " ++ payload

def decodeReportPayload [Base64] (envelope : Envelope) : Option Bytes :=
  if envelope.payloadType != reportPayloadType || envelope.signatures.isEmpty
      || envelope.signatures.length > Envelope.maxSignatures then
    none
  else Base64.decode envelope.payload

section
variable [Semver] [Json NodeReport]

def parseAttributedPayload (payload : Bytes) (node : String) : Option NodeReport :=
  match Json.fromSlice payload with
  | .ok (report : NodeReport) =>
    if report.node.asStr == node && report.isWellformed then some report else none
  | .error _ => none

/-- A verified report. Its fields are read through `fresh` and `rejectedAssignment` only. -/
structure AuthenticReport where
  report : NodeReport
  deriving DecidableEq

namespace AuthenticReport

/-- The full report, only while it is inside the freshness window. -/
def fresh (self : AuthenticReport) (now : Nat) : Option NodeReport :=
  if self.report.isFresh now then some self.report else none

/-- The exact signed assignment this node permanently rejected, at any age. -/
def rejectedAssignment (self : AuthenticReport) : Option DigestText :=
  if self.report.rejected then some self.report.assignmentSha256 else none

end AuthenticReport

/-- The one trust gate for consuming a node report. -/
def authenticateReport [Base64] [Crypto] (envelope : Envelope) (expectedNode : String)
    (publicKey : P256PublicKey) : Option AuthenticReport := do
  let payload ← decodeReportPayload envelope
  let message := pae payload reportPayloadType
  let verified := envelope.signatures.any fun signature =>
    (Base64.decode signature.sig).any (verifyAsn1 publicKey.point message ·)
  if !verified then none
  else (parseAttributedPayload payload expectedNode).map .mk

end

end Updatedc.Contracts
