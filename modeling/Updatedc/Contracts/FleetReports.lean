import Updatedc.Contracts.Telemetry

/-!
# The fleet's report generation (`updated-contracts/src/telemetry.rs:666–1240`)

Reports travel from the control plane to the load balancers as one *generation*: a small index at a
stable key names it, and every node's SHA-256 identity chooses the bounded shard that carries its
report. The index and the shards are transport; nothing in them is believed before
`authenticateReport` has accepted the envelope under the node's pinned key.
-/

namespace Updatedc.Contracts

/-! ## The index and its shards -/

def maxFleetReportShards : Nat := 64

def maxFleetReportShardBytes : Nat := 16 * 1024 * 1024

def maxFleetIndexBytes : Nat := 4 * 1024

def maxReportEnvelopeBytes : Nat := 64 * 1024

def fleetIndexObjectKey : String := "telemetry/fleet.json"

/-- A shard ceiling that has passed the range check. -/
structure FleetShardLimit where
  get : Nat
  inRange : 1 ≤ get ∧ get ≤ maxFleetReportShards

structure FleetIndex where
  schema : Nat
  generation : String
  maxShards : Nat
  rebalanceTo : Option Nat
  deriving DecidableEq

/-- One shard of a generation: its place, and how many there are. -/
structure FleetShardLocation where
  generation : String
  shard : Nat
  maxShards : Nat
  deriving DecidableEq

/-- One report as it is stored, with the time the object store recorded it. -/
structure StoredReport where
  storedAtMs : Nat
  envelope : Envelope
  deriving DecidableEq

/-- A shard as it is decoded. A value that does not read as a stored report is `none`. -/
structure ShardDocument where
  schema : Nat
  generation : String
  shard : Nat
  reports : BTreeMap String (Option StoredReport)

/-- `serde_json` for the documents of a generation. -/
class FleetJson where
  index : Json FleetIndex
  shard : Json ShardDocument
  stored : Json StoredReport
  envelope : Json Envelope
  text : Json String

attribute [reducible, instance] FleetJson.index FleetJson.shard FleetJson.stored
  FleetJson.envelope FleetJson.text

/-- Four lowercase hexadecimal digits (`{:04x}`). -/
def hex4 (value : Nat) : String :=
  let digit (i : Nat) : Char := Nat.digitChar (value / 16 ^ i % 16)
  String.ofList [digit 3, digit 2, digit 1, digit 0]

def FleetShardLocation.objectKey (self : FleetShardLocation) : String :=
  "telemetry/fleet/" ++ self.generation ++ "/" ++ hex4 self.shard ++ ".json"

/-- The digest that stands for a node wherever its name cannot appear. -/
def nodeObjectDigest [Crypto] (node : String) : Sha256 := sha256 node.toUTF8.data.toList

/-- Where a node's report lives: the leading 64 bits of its digest, modulo the shard count. -/
def shardFor [Crypto] (node : String) (shardCount : Nat) : Nat :=
  (nodeObjectDigest node).toNat / 2 ^ 192 % shardCount

namespace FleetIndex

def currentSchema : Nat := 1

def isHex (c : Char) : Bool := ('0' ≤ c && c ≤ '9') || ('a' ≤ c && c ≤ 'f')

/-- Parse the bounded stable index. -/
def parse [Json FleetIndex] (body : Bytes) : Option FleetIndex :=
  match (Bounded.decode body "fleet report index" maxFleetIndexBytes :
    Except String FleetIndex) with
  | .error _ => none
  | .ok index =>
    if index.schema = currentSchema
        && (index.generation.utf8ByteSize = 32 && index.generation.toList.all isHex)
        && (1 ≤ index.maxShards && index.maxShards ≤ maxFleetReportShards)
        && index.rebalanceTo.all fun target =>
          target ≠ index.maxShards && (1 ≤ target && target ≤ maxFleetReportShards) then
      some index
    else none

/-- The shard locations of this generation, in order. -/
def shardLocations (self : FleetIndex) : List FleetShardLocation :=
  (List.range self.maxShards).map fun shard =>
    { generation := self.generation, shard, maxShards := self.maxShards }

/-- The locations that can contain `nodes`, in order and without repetition. -/
def shardLocationsFor [Crypto] (self : FleetIndex) (nodes : List String) :
    List FleetShardLocation :=
  let wanted := nodes.map (shardFor · self.maxShards)
  self.shardLocations.filter fun location => wanted.contains location.shard

end FleetIndex

/-! ## Reports -/

/-- A report that passed the one gate in front of storage. Its signature was not verified. -/
structure AcceptedReport [Base64] [Semver] [Json NodeReport] where
  node : String
  envelope : Envelope
  storedAtMs : Nat
  /-- The payload reads as a well-formed report of this node. -/
  attributed : ((decodeReportPayload envelope).bind (parseAttributedPayload · node)).isSome = true

/-- Every node's most recently accepted envelope. -/
structure FleetReports where
  reports : BTreeMap String StoredReport := ∅

namespace FleetReports

def shardSchema : Nat := 1

/-- Whether a stored entry could have passed the gate, and lives where it was found. -/
def admits [Crypto] [Base64] [Semver] [Json NodeReport] [Json Envelope]
    (location : FleetShardLocation) (node : String) (stored : StoredReport) : Bool :=
  (Json.toVec stored.envelope).length ≤ maxReportEnvelopeBytes
    && ((decodeReportPayload stored.envelope).bind (parseAttributedPayload · node)).isSome
    && shardFor node location.maxShards = location.shard

/-- Parse one shard. It must be the shard the index names; entries that could not have passed the
gate are dropped one by one. -/
def parseShard [Crypto] [Base64] [Semver] [Json NodeReport] [Json Envelope] [Json ShardDocument]
    (body : Bytes) (location : FleetShardLocation) : Option FleetReports :=
  match (Bounded.decode body "fleet report shard" maxFleetReportShardBytes :
      Except String ShardDocument) with
  | .error _ => none
  | .ok document =>
    if document.schema ≠ shardSchema || document.generation ≠ location.generation
        || document.shard ≠ location.shard then
      none
    else
      some ⟨document.reports.filterMap fun node value =>
        value.bind fun stored => if admits location node stored then some stored else none⟩

/-- Overlay a later accepted or read set onto this one. -/
def overlay (self newer : FleetReports) : FleetReports :=
  ⟨self.reports.insertMany newer.reports.toList⟩

/-- One node's envelope, taken out for consumption. -/
def remove (self : FleetReports) (node : String) : Option Envelope × FleetReports :=
  (self.reports[node]?.map (·.envelope), ⟨self.reports.erase node⟩)

end FleetReports

end Updatedc.Contracts
