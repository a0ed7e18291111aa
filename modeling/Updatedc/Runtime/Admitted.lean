import Updatedc.Lib.Program
import Updatedc.Runtime.Pass

/-!
# The recorded rollout state (`updatec/src/runtime/admitted.rs`)

The durable rollout state lives in ConfigMaps: an index and two slots of shards. A store writes
the slot the index does not name and then moves the index; a load reads the slot the index names
and clears away whatever an interrupted store or clean-up left. Both are programs over the API
server, which applies each write atomically.

The names `base`, `base-a-NN` and `base-b-NN` are distinct for the two-digit indices in use, so an
object is named by what it is. Owner references, labels and the namespace are carried along
unread and are left out.
-/

namespace Updatedc

open Contracts

def maxAdmittedStateShards : Nat := 64

def admittedStateShardMaxBytes : Nat := 768 * 1024

def admittedStateFormat : Nat := 1

def admittedStateRemedy : String :=
  "delete this index and its -a-NN/-b-NN shard ConfigMaps to re-seed every group from its " ++
    "current desired deployment (the rollout is rebaselined: in-flight staging is forgotten and " ++
    "each set's concurrency is counted afresh)"

/-! ## The document -/

/-- The stored shape of the durable state. Assignments are inverted: identity to nodes. -/
structure StoredDurableRolloutState where
  admitted : Admitted
  vetoed : BTreeMap Sha256 VetoedDeployment
  routing : BTreeMap String String
  assignments : BTreeMap Sha256 (List String)

/-- File one node under its identity. -/
def pushAssignment (inverted : BTreeMap Sha256 (List String)) (entry : String × Sha256) :
    BTreeMap Sha256 (List String) :=
  inverted.insert entry.2 (inverted[entry.2]?.getD [] ++ [entry.1])

def encodeAssignments (assignments : BTreeMap String Sha256) : BTreeMap Sha256 (List String) :=
  assignments.toList.foldl pushAssignment ∅

/-- Give one stored node its identity, once. -/
def placeAssignment (identity : Sha256) (assignments : BTreeMap String Sha256) (node : String) :
    Except String (BTreeMap String Sha256) :=
  if (ResourceName.new? node).isNone then
    .error s!"stored assignment node {node.quote} is invalid"
  else if assignments.contains node then
    .error s!"node {node} appears under more than one assignment"
  else
    .ok (assignments.insert node identity)

def decodeAssignments (stored : BTreeMap Sha256 (List String)) :
    Except String (BTreeMap String Sha256) :=
  stored.toList.foldlM (fun assignments entry => entry.2.foldlM (placeAssignment entry.1)
    assignments) ∅

namespace DurableRolloutState

variable [Crates]

def checkAdmitted (entry : String × AdmittedDeployment) : Except String Unit := do
  let group := entry.1
  if (ResourceName.new? group).isNone then
    throw s!"durable admitted-state group {group.quote} is invalid"
  entry.2.current.validate.mapError fun error =>
    s!"durable group {group} current deployment: {error}"
  entry.2.previous.forM fun previous => previous.validate.mapError fun error =>
    s!"durable group {group} previous deployment: {error}"

def checkVeto (entry : Sha256 × VetoedDeployment) : Except String Unit :=
  if !Identity.isSegment entry.2.deployment || entry.2.evidence == 0 then
    throw s!"durable veto {entry.1.hex.quote} is invalid"
  else
    return ()

def checkRoute (entry : String × String) : Except String Unit :=
  if (ResourceName.new? entry.1).isNone || (ResourceName.new? entry.2).isNone then
    throw s!"durable route {entry.1.quote} -> {entry.2.quote} has an invalid identity"
  else
    return ()

def checkAssignment (entry : String × Sha256) : Except String Unit :=
  if (ResourceName.new? entry.1).isNone then
    throw s!"durable assignment for {entry.1.quote} has an invalid identity"
  else
    return ()

/-- The one contract on both sides of persistence. -/
def validate (self : DurableRolloutState) : Except String Unit := do
  self.admitted.toList.forM checkAdmitted
  self.vetoed.toList.forM checkVeto
  self.routing.toList.forM checkRoute
  self.assignments.toList.forM checkAssignment

end DurableRolloutState

def StoredDurableRolloutState.of (state : DurableRolloutState) : StoredDurableRolloutState where
  admitted := state.admitted
  vetoed := state.vetoed
  routing := state.routing
  assignments := encodeAssignments state.assignments

def DurableRolloutState.tryFrom [Crates] (stored : StoredDurableRolloutState) :
    Except String DurableRolloutState := do
  let state : DurableRolloutState :=
    { admitted := stored.admitted
      vetoed := stored.vetoed
      routing := stored.routing
      assignments := ← decodeAssignments stored.assignments }
  state.validate
  return state

/-! ## The index -/

inductive AdmittedStateSlot where
  | a | b
  deriving DecidableEq

def AdmittedStateSlot.other : AdmittedStateSlot → AdmittedStateSlot
  | a => b
  | b => a

variable (slot : AdmittedStateSlot) (self : AdmittedStateIndex)

@[simp] theorem AdmittedStateSlot.other_ne : slot.other ≠ slot := by
  cases slot <;> decide

@[simp] theorem AdmittedStateSlot.ne_other : slot ≠ slot.other :=
  slot.other_ne.symm

structure AdmittedStateIndex where
  format : Nat := admittedStateFormat
  active : Option AdmittedStateSlot := none
  revisionSha256 : Option DigestText := none
  maxShards : Nat := 0
  aShards : Nat := 0
  bShards : Nat := 0

namespace AdmittedStateIndex

def shards : AdmittedStateSlot → Nat
  | .a => self.aShards
  | .b => self.bShards

def setShards (slot : AdmittedStateSlot) (shards : Nat) : AdmittedStateIndex :=
  match slot with
  | .a => { self with aShards := shards }
  | .b => { self with bShards := shards }

def checkCount (count : Nat) : Except String Unit :=
  if count > maxAdmittedStateShards then
    throw s!"slot declares {count} shards, over the absolute limit"
  else
    return ()

def validate : Except String Unit := do
  if self.format ≠ admittedStateFormat then
    throw s!"unsupported format {self.format}"
  [self.aShards, self.bShards].forM checkCount
  match self.active with
  | some active =>
    if ¬ (1 ≤ self.maxShards ∧ self.maxShards ≤ maxAdmittedStateShards) then
      throw s!"invalid maxShards {self.maxShards}"
    else if self.shards active ≠ self.maxShards then
      throw "active slot width does not match maxShards"
    else if !self.revisionSha256.any DigestText.isCanonical then
      throw "active slot has no valid revisionSha256"
  | none =>
    if self.revisionSha256.isSome ∨ self.maxShards ≠ 0 then
      throw "an empty index declares an active revision"

section Lemmas

variable {index : AdmittedStateIndex} {slot slot' : AdmittedStateSlot} {count : Nat}

@[simp] theorem shards_setShards :
    (index.setShards slot count).shards slot' =
      if slot' = slot then count else index.shards slot' := by
  cases slot <;> cases slot' <;> rfl

@[simp] theorem active_setShards : (index.setShards slot count).active = index.active := by
  cases slot <;> rfl

@[simp] theorem revisionSha256_setShards :
    (index.setShards slot count).revisionSha256 = index.revisionSha256 := by
  cases slot <;> rfl

@[simp] theorem maxShards_setShards : (index.setShards slot count).maxShards = index.maxShards := by
  cases slot <;> rfl

@[simp] theorem format_setShards : (index.setShards slot count).format = index.format := by
  cases slot <;> rfl

end Lemmas

end AdmittedStateIndex

/-- A validated durable-state width. -/
structure AdmittedShardLimit where
  count : Nat
  positive : 1 ≤ count
  bounded : count ≤ maxAdmittedStateShards

/-! ## The API server -/

/-- What an object is called. -/
inductive StateObject where
  | index
  | shard (slot : AdmittedStateSlot) (index : Nat)
  deriving DecidableEq

/-- The text entries of a shard. -/
structure ShardData where
  format : Nat
  revisionSha256 : DigestText
  slot : AdmittedStateSlot
  index : Nat
  total : Nat
  deriving DecidableEq

inductive ConfigMap where
  | index (indexJson : AdmittedStateIndex)
  | shard (data : ShardData) (stateBin : Bytes)

/-- An object as the server returns it. -/
structure Versioned where
  resourceVersion : Nat
  configmap : ConfigMap

/-- The objects of one repository, and the last resource version given out. -/
structure ConfigMaps where
  objects : StateObject → Option Versioned := fun _ => none
  issued : Nat := 0

structure ApiError where
  code : Nat
  deriving DecidableEq

def ApiError.text (self : ApiError) : String := s!"ApiError {self.code}"

inductive ApiRequest where
  | get (name : StateObject)
  | create (name : StateObject) (configmap : ConfigMap)
  | replace (name : StateObject) (resourceVersion : Nat) (configmap : ConfigMap)
  | delete (name : StateObject)

def ApiResponse : ApiRequest → Type
  | .get _ => Option Versioned
  | .create .. | .replace .. => Except ApiError Nat
  | .delete _ => Except ApiError Unit

namespace ConfigMaps

/-- Write one object under a fresh resource version. -/
def put (self : ConfigMaps) (name : StateObject) (configmap : ConfigMap) : ConfigMaps where
  objects := Function.update self.objects name (some ⟨self.issued + 1, configmap⟩)
  issued := self.issued + 1

def remove (self : ConfigMaps) (name : StateObject) : ConfigMaps where
  objects := Function.update self.objects name none
  issued := self.issued

/-- One call, applied atomically. -/
def serve (self : ConfigMaps) : (request : ApiRequest) → ConfigMaps × ApiResponse request
  | .get name => (self, self.objects name)
  | .create name configmap =>
    match self.objects name with
    | some _ => (self, .error ⟨409⟩)
    | none => (self.put name configmap, .ok (self.issued + 1))
  | .replace name resourceVersion configmap =>
    match self.objects name with
    | none => (self, .error ⟨404⟩)
    | some stored =>
      if stored.resourceVersion = resourceVersion then
        (self.put name configmap, .ok (self.issued + 1))
      else
        (self, .error ⟨409⟩)
  | .delete name =>
    match self.objects name with
    | none => (self, .error ⟨404⟩)
    | some _ => (self.remove name, .ok ())

end ConfigMaps

/-- A program over the API server. -/
abbrev ApiProgram := Program ApiResponse String

namespace Api

def getOpt (name : StateObject) : ApiProgram (Option Versioned) :=
  Program.request (ApiRequest.get name)

/-- An API failure is the caller's failure. -/
def expect (written : Except ApiError Nat) : ApiProgram Nat :=
  .ofExcept (written.mapError ApiError.text)

def create (name : StateObject) (configmap : ConfigMap) : ApiProgram Nat :=
  Program.request (ApiRequest.create name configmap) >>= expect

def replace (name : StateObject) (resourceVersion : Nat) (configmap : ConfigMap) :
    ApiProgram Nat :=
  Program.request (ApiRequest.replace name resourceVersion configmap) >>= expect

/-- An object that is already gone is deleted. -/
def expectGone : Except ApiError Unit → ApiProgram Unit
  | .ok () => return ()
  | .error error => if error.code = 404 then return () else throw error.text

def delete (name : StateObject) : ApiProgram Unit :=
  Program.request (ApiRequest.delete name) >>= expectGone

end Api

/-! ## Reading and writing the state -/

structure AdmittedStateVersion where
  resourceVersion : Nat
  index : AdmittedStateIndex

structure PreparedAdmittedState where
  encoded : Bytes
  revisionSha256 : DigestText
  maxShards : AdmittedShardLimit

section
variable [Crates] [Json StoredDurableRolloutState]

def prepareAdmittedState (state : DurableRolloutState) (maxShards : AdmittedShardLimit) :
    Except String PreparedAdmittedState := do
  state.validate
  let encoded := Json.toVec (StoredDurableRolloutState.of state)
  let capacity := maxShards.count * admittedStateShardMaxBytes
  let length := encoded.length
  let shards := maxShards.count
  if encoded.length > capacity then
    throw (s!"StateCapacityExceeded: durable rollout state is {length} bytes but " ++
      s!"stateMaxShards={shards} permits exactly {capacity} bytes; raise spec.stateMaxShards " ++
      "before publishing this fleet")
  return { encoded, revisionSha256 := .canonical (sha256 encoded), maxShards }

end

def deleteAdmittedStateShards (start stop : Nat) : ApiProgram Unit :=
  forM (List.range' start (stop - start)) fun index => Api.delete (.shard slot index)

def writeAdmittedStateIndex (index : AdmittedStateIndex) (resourceVersion : Option Nat) :
    ApiProgram AdmittedStateVersion := do
  .ofExcept (index.validate.mapError fun error =>
    s!"refusing to write invalid state index: {error}")
  let written ← match resourceVersion with
    | some resourceVersion => Api.replace .index resourceVersion (.index index)
    | none => Api.create .index (.index index)
  return { resourceVersion := written, index }

def writeShard (index total : Nat) (revision : DigestText) (bytes : Bytes) : ApiProgram Unit := do
  let length := bytes.length
  if bytes.length > admittedStateShardMaxBytes then
    throw (s!"state shard {index} is {length} bytes, over the " ++
      s!"{admittedStateShardMaxBytes}-byte ceiling")
  let current ← Api.getOpt (.shard slot index)
  let configmap : ConfigMap :=
    .shard { format := admittedStateFormat, revisionSha256 := revision, slot, index, total } bytes
  let _ ← match current with
    | some current => Api.replace (.shard slot index) current.resourceVersion configmap
    | none => Api.create (.shard slot index) configmap

/-- The bytes shard `index` of `total` carries. -/
def shardBytes (encoded : Bytes) (total index : Nat) : Bytes :=
  let start := encoded.length * index / total
  let stop := encoded.length * (index + 1) / total
  (encoded.drop start).take (stop - start)

/-- Where a store with this index writes. -/
def AdmittedStateIndex.target : AdmittedStateSlot :=
  (self.active.map AdmittedStateSlot.other).getD .a

/-- Drop the shards of the slot that the new width leaves out. -/
def shrinkSlot (target : AdmittedStateSlot) (targetPrevious shardCount : Nat) : ApiProgram Unit :=
  if targetPrevious > shardCount then
    deleteAdmittedStateShards target shardCount targetPrevious
  else
    return ()

def storeAdmittedState (prepared : PreparedAdmittedState)
    (version : Option AdmittedStateVersion) : ApiProgram (Option AdmittedStateVersion) := do
  let oldIndex := (version.map AdmittedStateVersion.index).getD {}
  let target := oldIndex.target
  let shardCount := prepared.maxShards.count
  shrinkSlot target (oldIndex.shards target) shardCount
  -- The allocation is recorded before the slot is written.
  let allocating := oldIndex.setShards target prepared.maxShards.count
  let version ← writeAdmittedStateIndex allocating
    (version.map AdmittedStateVersion.resourceVersion)
  forM (List.range' 0 shardCount) fun index =>
    writeShard target index shardCount prepared.revisionSha256
      (shardBytes prepared.encoded shardCount index)
  let oldActive := version.index.active
  let version ← writeAdmittedStateIndex
    { version.index with
      active := some target
      revisionSha256 := some prepared.revisionSha256
      maxShards := prepared.maxShards.count }
    (some version.resourceVersion)
  match oldActive with
  | none => return some version
  | some oldActive =>
    -- The displaced slot is reclaimed once nothing names it.
    deleteAdmittedStateShards oldActive 0 (version.index.shards oldActive)
    let version ← writeAdmittedStateIndex (version.index.setShards oldActive 0)
      (some version.resourceVersion)
    return some version

def validateAdmittedStateShard (shard : ConfigMap) (revision : DigestText)
    (slot : AdmittedStateSlot) (index total : Nat) : Except String Bytes :=
  match shard with
  | .index _ => .error "format does not match the active index"
  | .shard data stateBin =>
    let length := stateBin.length
    if data.format ≠ admittedStateFormat then
      .error "format does not match the active index"
    else if data.revisionSha256 ≠ revision then
      .error "revisionSha256 does not match the active index"
    else if data.slot ≠ slot then
      .error "slot does not match the active index"
    else if data.index ≠ index then
      .error "index does not match the active index"
    else if data.total ≠ total then
      .error "total does not match the active index"
    else if stateBin.length > admittedStateShardMaxBytes then
      .error s!"state.bin is {length} bytes, over the {admittedStateShardMaxBytes}-byte ceiling"
    else
      .ok stateBin

/-- Clear one slot the index does not name, and say whether there was anything to clear. -/
def reclaimSlot (found : AdmittedStateIndex × Bool) (slot : AdmittedStateSlot) :
    ApiProgram (AdmittedStateIndex × Bool) := do
  let count := found.1.shards slot
  if count = 0 then
    return found
  else
    deleteAdmittedStateShards slot 0 count
    return (found.1.setShards slot 0, true)

/-- Read the next shard of the slot the index names. -/
def readShard (revision : DigestText) (active : AdmittedStateSlot) (total : Nat)
    (encoded : Bytes) (index : Nat) : ApiProgram Bytes := do
  match ← Api.getOpt (.shard active index) with
  | none => throw s!"cannot read admitted-state shard {index}: not found; {admittedStateRemedy}"
  | some shard =>
    let bytes ← .ofExcept
      ((validateAdmittedStateShard shard.configmap revision active index total).mapError
        fun error => s!"invalid admitted-state shard {index}: {error}; {admittedStateRemedy}")
    return encoded ++ bytes

/-- Clear every slot the index does not name, and record that they are empty. -/
def reclaimStale (stored : AdmittedStateVersion) : ApiProgram AdmittedStateVersion := do
  let staleSlots : List AdmittedStateSlot := match stored.index.active with
    | some active => [active.other]
    | none => [.a, .b]
  let (index, cleaned) ← staleSlots.foldlM reclaimSlot (stored.index, false)
  if cleaned then
    writeAdmittedStateIndex index (some stored.resourceVersion)
  else
    return { stored with index }

section
variable [Crates] [Json StoredDurableRolloutState]

/-- The state a slot's bytes spell. -/
def decodeAdmittedState (revision : DigestText) (encoded : Bytes) :
    Except String DurableRolloutState :=
  if !digestsMatch (.canonical (sha256 encoded)) revision then
    .error s!"admitted-state shards do not match the index revision; {admittedStateRemedy}"
  else do
    let stored ← (Json.fromSlice encoded).mapError fun error =>
      s!"invalid admitted-state document: {error}; {admittedStateRemedy}"
    (DurableRolloutState.tryFrom stored).mapError fun error =>
      s!"invalid admitted-state document: {error}; {admittedStateRemedy}"

def readAdmittedState (index : AdmittedStateIndex) (active : AdmittedStateSlot) :
    ApiProgram DurableRolloutState := do
  let total := index.shards active
  let revision := index.revisionSha256.getD .empty
  let encoded ← (List.range' 0 total).foldlM (readShard revision active total) []
  .ofExcept (decodeAdmittedState revision encoded)

def loadAdmittedState : ApiProgram (DurableRolloutState × Option AdmittedStateVersion) := do
  match ← Api.getOpt .index with
  | none => return ({}, none)
  | some ⟨_, .shard _ _⟩ =>
    throw s!"admitted-state index has no index.json; {admittedStateRemedy}"
  | some ⟨resourceVersion, .index index⟩ =>
    .ofExcept (index.validate.mapError fun error =>
      s!"invalid admitted-state index: {error}; {admittedStateRemedy}")
    let version ← reclaimStale { resourceVersion, index }
    match version.index.active with
    | none => return ({}, some version)
    | some active =>
      let state ← readAdmittedState version.index active
      return (state, some version)

end

end Updatedc
