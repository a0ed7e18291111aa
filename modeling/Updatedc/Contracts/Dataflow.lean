import Updatedc.Contracts.Identity

/-!
# File snapshots between groups (`updated-contracts/src/dataflow.rs`)

A producer's nodes publish named files; a consumer is assigned a *selection* of them by
generation and digest. The generation and the blinding are HMACs under the repository's private
key, so the selection is a deterministic function of the snapshot.
-/

namespace Updatedc.Contracts

def maxDataflowBodyBytes : Nat := 512 * 1024

/-- One bounded opaque file at the JSON boundary. -/
structure FileValue where
  base64 : String
  deriving DecidableEq

namespace FileValue

def maxBytes : Nat := 64 * 1024

def fromBytes [Base64] (bytes : Bytes) : Except String FileValue :=
  if bytes.length > maxBytes then
    .error s!"dataflow file is {bytes.length} bytes, past the {maxBytes}-byte limit"
  else .ok ⟨Base64.encode bytes⟩

def bytes [Base64] (self : FileValue) : Except String Bytes :=
  match Base64.decode self.base64 with
  | none => .error "dataflow file is not canonical base64"
  | some bytes =>
    if bytes.length > maxBytes || Base64.encode bytes != self.base64 then
      .error "dataflow file is oversized or not canonical base64"
    else .ok bytes

end FileValue

/-- The complete atomic named-file snapshot. -/
structure FileSnapshot where
  files : BTreeMap String FileValue := ∅
  deriving DecidableEq

/-- The non-secret descriptor of a snapshot carried in a signed assignment. -/
structure InputSelection where
  /-- Empty only when `files` is empty. -/
  generation : DigestText := .empty
  objectSha256 : DigestText := .empty
  files : BTreeSet String := ∅
  deriving DecidableEq

/-- The private object an assigned node downloads. -/
structure InputPublication where
  schema : Nat
  generation : DigestText
  blinding : DigestText
  snapshot : FileSnapshot
  deriving DecidableEq

/-- A healthy node's current output publication. -/
structure OutputPublication where
  schema : Nat
  node : ResourceName
  deployment : String
  assignmentSha256 : DigestText
  archiveSha256 : DigestText
  snapshot : FileSnapshot
  deriving DecidableEq

def boundedJson {α : Type} [Json α] (value : α) (what : String) : Except String Bytes :=
  Bounded.encode value what maxDataflowBodyBytes

namespace FileSnapshot

def maxFiles : Nat := 64

variable (self : FileSnapshot)

def isEmpty : Bool := self.files.isEmpty

def validName (name : String) : Bool := Identity.isSegment name

def checkFile [Base64] (name : String) (value : FileValue) : Except String Unit :=
  if !validName name then .error s!"dataflow file name {name.quote} is invalid"
  else value.bytes.map fun _ => ()

variable [Base64] [Json FileSnapshot]

def validate : Except String Unit := do
  if self.files.size > maxFiles then
    throw s!"dataflow snapshot has {self.files.size} files, past the {maxFiles}-file limit"
  self.files.toList.forM fun (name, value) => checkFile name value
  let _ ← boundedJson self "dataflow snapshot"

/-- Stable public generation under a controller-private key. -/
def opaqueGeneration [Crypto] (key : Bytes) : Except String Sha256 := do
  if key.length < 32 then throw "dataflow generation key must be at least 32 bytes"
  self.validate
  return hmacSha256 key (Json.toVec self)

end FileSnapshot

namespace InputSelection

def isEmpty (self : InputSelection) : Bool := self.files.isEmpty

def validate (self : InputSelection) : Except String Unit :=
  let empty := self.files.isEmpty
  if self.files.size > FileSnapshot.maxFiles
      || self.files.toList.any (fun name => !FileSnapshot.validName name)
      || empty != self.generation.isEmpty
      || empty != self.objectSha256.isEmpty
      || (!empty && (!self.generation.isCanonical || !self.objectSha256.isCanonical)) then
    .error "dataflow input selection is invalid"
  else .ok ()

end InputSelection

namespace InputPublication

variable [Base64] [Json FileSnapshot] [Json InputPublication] [Crypto]

def currentSchema : Nat := 1

/-- `b"updated-input-publication-v1\0"`. -/
def blindingDomain : Bytes := "updated-input-publication-v1".toUTF8.data.toList ++ [0]

variable (self : InputPublication)

def validate : Except String Unit := do
  if self.schema != currentSchema || !self.generation.isCanonical || !self.blinding.isCanonical
      || self.snapshot.isEmpty then
    throw "dataflow input publication identity is invalid"
  self.snapshot.validate
  let _ ← boundedJson self "dataflow input publication"

def fromSnapshot (snapshot : FileSnapshot) (key : Bytes) :
    Except String InputPublication := do
  if snapshot.isEmpty then throw "an empty input snapshot has no private publication"
  if key.length < 32 then throw "dataflow generation key must be at least 32 bytes"
  snapshot.validate
  let encoded := Json.toVec snapshot
  let generation ← snapshot.opaqueGeneration key
  let blinding := hmacSha256 key (blindingDomain ++ encoded)
  let publication : InputPublication :=
    { schema := currentSchema, generation := .canonical generation,
      blinding := .canonical blinding, snapshot }
  publication.validate
  return publication

def toBoundedBody : Except String Bytes := do
  self.validate
  boundedJson self "dataflow input publication"

/-- What the signed assignment says about this object. -/
def selection : Except String InputSelection := do
  let body ← self.toBoundedBody
  return { generation := self.generation, objectSha256 := .canonical (sha256 body),
           files := .ofList self.snapshot.files.keys }

end InputPublication

namespace OutputPublication

def currentSchema : Nat := 2

def validate [Base64] [Json FileSnapshot] [Json OutputPublication] (self : OutputPublication)
    (node : String) : Except String Unit := do
  if self.schema != currentSchema || self.node.asStr != node
      || !Identity.isSegment self.deployment || !self.assignmentSha256.isCanonical
      || !self.archiveSha256.isCanonical then
    throw "dataflow output publication identity is invalid"
  self.snapshot.validate
  let _ ← boundedJson self "dataflow output publication"

end OutputPublication

end Updatedc.Contracts
