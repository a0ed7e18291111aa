import Updatedc.Contracts.FleetReports
import Updatedc.Contracts.Signing

/-!
# Bounded shards and the ingress buffer (`updated-contracts/src/telemetry.rs:1105–1359`)

A shard is written as compact JSON under a byte ceiling; the oldest entries are evicted until it
fits. The gateway's buffer keeps each shard's encoded length as a running count, so that it never
holds more than can be written. What `serde_json` writes is a parameter (`FleetWriter`), with what
the accounting takes from it: the lengths.

- `framed`: what a shard of entries of these lengths takes, separators included.
- `Accounts`: **the running count is the length of the body the shard would encode to**, and the
  eviction order lists exactly the shard's entries. `record` keeps it, so no removal it makes can
  miss and no subtraction can underflow.
-/

namespace Updatedc.Contracts

/-! ## Encodings -/

/-- The name of a generation: `hex::encode` of sixteen random bytes. -/
structure Generation where
  text : String
  isHex : text.utf8ByteSize = 32 ∧ text.toList.all FleetIndex.isHex = true

/-- The index of a steady generation. -/
def FleetIndex.steady (generation : String) (maxShards : FleetShardLimit) : FleetIndex where
  schema := currentSchema
  generation
  maxShards := maxShards.get
  rebalanceTo := none

/-- An entry of a shard: its name, a colon and its value. -/
def FleetReports.entryLen [FleetJson] (entry : String × StoredReport) : Nat :=
  (Json.toVec entry.1).length + 1 + (Json.toVec entry.2).length

/-- What a shard of entries of these lengths takes: its frame, the entries, and the commas. -/
def framed (base : Nat) (lens : List Nat) : Nat := base + lens.sum + (lens.length - 1)

/-- `serde_json::to_vec` for what a generation is written from, and how long its output is. -/
class FleetWriter extends FleetJson where
  shardToVec : FleetShardLocation → BTreeMap String StoredReport → Bytes
  /-- The index is a few short fields. -/
  length_index_le : ∀ (generation : Generation) (limit : FleetShardLimit),
    (Json.toVec (FleetIndex.steady generation.text limit)).length ≤ maxFleetIndexBytes
  /-- Output is compact: nothing stands between the entries but one comma. -/
  length_shard : ∀ location reports, (shardToVec location reports).length =
    framed (shardToVec location ∅).length (reports.toList.map FleetReports.entryLen)
  /-- So is what stands around them. -/
  length_frame_le : ∀ location : FleetShardLocation, location.generation.utf8ByteSize = 32 →
    location.shard < maxFleetReportShards →
    (shardToVec location ∅).length ≤ maxFleetReportShardBytes
  /-- A generation is written as it is, since hexadecimal digits are never escaped. -/
  length_frame_congr : ∀ a b : FleetShardLocation, a.shard = b.shard →
    a.generation.utf8ByteSize = b.generation.utf8ByteSize →
    (shardToVec a ∅).length = (shardToVec b ∅).length

/-- Serialize the index, within its ceiling. -/
def FleetIndex.encode [FleetJson] (self : FleetIndex) : Except String Bytes :=
  match Bounded.check (Json.toVec self).length "fleet report index" maxFleetIndexBytes with
  | .ok _ => .ok (Json.toVec self)
  | .error error => .error error

variable (reports : BTreeMap String StoredReport)

namespace FleetReports

export FleetWriter (shardToVec)

variable [FleetWriter]

/-- Storage time, then name. -/
def older (a b : Nat × String) : Bool := a.1 < b.1 || (a.1 = b.1 && a.2 ≤ b.2)

/-- Evict from the front of the order until the length fits. -/
def evict : List (Nat × String × Nat) → Nat → BTreeMap String StoredReport → Nat →
    BTreeMap String StoredReport × Nat
  | [], _, reports, evicted => (reports, evicted)
  | (_, node, entryLen) :: rest, encodedLen, reports, evicted =>
    if encodedLen ≤ maxFleetReportShardBytes then (reports, evicted)
    else
      evict rest (encodedLen - (entryLen + if reports.size > 1 then 1 else 0))
        (reports.erase node) (evicted + 1)

/-- What of a shard's reports fits the ceiling, and how many are evicted. -/
def fit (location : FleetShardLocation) : BTreeMap String StoredReport × Nat :=
  let baseLen := (shardToVec location ∅).length
  let entries := reports.toList.map fun entry => (entry.2.storedAtMs, entry.1, entryLen entry)
  let encodedLen := baseLen + (entries.map fun entry => entry.2.2).sum + (entries.length - 1)
  let order := entries.insertionSort fun a b => older (a.1, a.2.1) (b.1, b.2.1)
  evict order encodedLen reports 0

def encodeShard (location : FleetShardLocation) : Bytes × Nat :=
  let (kept, evicted) := fit reports location
  (shardToVec location kept, evicted)

end FleetReports

/-- The reports that live in one of `maxShards` shards. -/
def FleetReports.bin [Crypto] (self : FleetReports) (maxShards shard : Nat) :
    BTreeMap String StoredReport :=
  self.reports.filter fun node _ => shardFor node maxShards = shard

/-- One fully encoded generation. -/
structure FleetGeneration where
  index : FleetIndex
  indexBody : Bytes
  shards : List (FleetShardLocation × Bytes)
  evicted : Nat

/-- Every shard of a generation: where it lives, its body, and how many entries it evicted. -/
def FleetReports.encodeShards [Crypto] [FleetWriter] (self : FleetReports) (index : FleetIndex) :
    List (FleetShardLocation × Bytes × Nat) :=
  index.shardLocations.map fun location =>
    (location, encodeShard (self.bin index.maxShards location.shard) location)

structure BufferedFleetShard where
  encodedLen : Nat
  evictionOrder : List (Nat × String)

structure FleetReportBuffer where
  reports : FleetReports
  maxShards : FleetShardLimit
  shards : List BufferedFleetShard

/-- A subtraction that must not underflow. -/
def checkedSub (a b : Nat) : Option Nat := if b ≤ a then some (a - b) else none

namespace FleetReportBuffer

variable [FleetWriter]

def accountingIndex (maxShards : FleetShardLimit) : FleetIndex :=
  .steady "00000000000000000000000000000000" maxShards

def new (maxShards : FleetShardLimit) : FleetReportBuffer where
  reports := {}
  maxShards
  shards := (accountingIndex maxShards).shardLocations.map fun location =>
    { encodedLen := (FleetReports.encodeShard ∅ location).1.length, evictionOrder := [] }

/-- `BTreeSet::insert`. -/
def insertOrder (key : Nat × String) (order : List (Nat × String)) : List (Nat × String) :=
  if key ∈ order then order else order.orderedInsert (fun a b => FleetReports.older a b) key

/-- Evict the oldest entries of an overfull shard. A missing entry and an underflow are `none`. -/
def evictOldest : List (Nat × String) → Nat → BTreeMap String StoredReport → Nat →
    Option (BufferedFleetShard × BTreeMap String StoredReport × Nat)
  | order, encodedLen, reports, evicted =>
    if encodedLen ≤ maxFleetReportShardBytes then
      some (⟨encodedLen, order⟩, reports, evicted)
    else
      match order with
      | [] => none
      | (_, oldest) :: rest =>
        match reports[oldest]? with
        | none => none
        | some removed =>
          match checkedSub encodedLen
              (FleetReports.entryLen (oldest, removed) + if rest.length + 1 > 1 then 1 else 0) with
          | none => none
          | some encodedLen => evictOldest rest encodedLen (reports.erase oldest) (evicted + 1)

/-- What a replaced entry, or a new one's separator, does to the shard before the entry itself is
counted. -/
def replace (shard : BufferedFleetShard) (node : String) (previous : Option StoredReport) :
    Option BufferedFleetShard :=
  match previous with
  | some previous =>
    (checkedSub shard.encodedLen (FleetReports.entryLen (node, previous))).map fun encodedLen =>
      ⟨encodedLen, shard.evictionOrder.erase (previous.storedAtMs, node)⟩
  | none =>
    some (if shard.evictionOrder.length > 0 then
      { shard with encodedLen := shard.encodedLen + 1 } else shard)

/-- Record one accepted report; the count is how many it evicted. -/
def record [Crypto] [Base64] [Semver] [Json NodeReport] (self : FleetReportBuffer)
    (accepted : AcceptedReport) : Option (FleetReportBuffer × Nat) := do
  let node := accepted.node
  let stored : StoredReport := ⟨accepted.storedAtMs, accepted.envelope⟩
  let index := shardFor node self.maxShards.get
  let shard ← self.shards[index]?
  let shard ← replace shard node self.reports.reports[node]?
  let (shard, reports, evicted) ←
    evictOldest (insertOrder (stored.storedAtMs, node) shard.evictionOrder)
      (shard.encodedLen + FleetReports.entryLen (node, stored))
      (self.reports.reports.insert node stored) 0
  return ({ self with reports := ⟨reports⟩, shards := self.shards.set index shard }, evicted)

def drain (self : FleetReportBuffer) : FleetReports × FleetReportBuffer :=
  (self.reports, new self.maxShards)

end FleetReportBuffer

/-! ## Lengths -/

theorem framed_cons (base len : Nat) (lens : List Nat) :
    framed base (len :: lens) =
      framed base lens + (len + if lens.length + 1 > 1 then 1 else 0) := by
  cases lens with
  | nil => simp [framed]
  | cons next lens =>
    simp only [framed, List.sum_cons, List.length_cons]
    split <;> omega

theorem framed_perm {base : Nat} {lens lens' : List Nat} (perm : lens.Perm lens') :
    framed base lens = framed base lens' := by
  rw [framed, framed, perm.sum_eq, perm.length_eq]

theorem checkedSub_add (a b : Nat) : checkedSub (a + b) b = some a := by
  rw [checkedSub, if_pos (Nat.le_add_left b a), Nat.add_sub_cancel]

namespace FleetReports

variable [FleetWriter]

/-- The length of a shard without entries. -/
def baseLen (location : FleetShardLocation) : Nat := (shardToVec location ∅).length

end FleetReports

/-- The generation that `rebalance` builds. -/
def FleetReports.built [Crypto] [FleetWriter] (self : FleetReports) (limit : FleetShardLimit)
    (generation : Generation) : FleetGeneration :=
  let index := FleetIndex.steady generation.text limit
  { index, indexBody := Json.toVec index
    shards := (self.encodeShards index).map fun encoded => (encoded.1, encoded.2.1)
    evicted := ((self.encodeShards index).map (·.2.2)).sum }

section Bins

variable [Crypto] {self : FleetReports} {shards i : Nat} {node : String} {stored : StoredReport}

theorem FleetReports.getElem?_bin :
    (self.bin shards i)[node]? =
      if shardFor node shards = i then self.reports[node]? else none := by
  rw [bin, BTreeMap.getElem?_filter_key]
  simp

/-- A shard's reports depend on the nodes that live in it only. -/
theorem FleetReports.bin_congr {other : FleetReports}
    (same : ∀ node, shardFor node shards = i → self.reports[node]? = other.reports[node]?) :
    self.bin shards i = other.bin shards i := by
  refine Std.ExtTreeMap.ext_getElem? fun node => ?_
  rw [getElem?_bin, getElem?_bin]
  split
  · next here => exact same node here
  · rfl

theorem FleetReports.bin_erase (self : FleetReports) :
    FleetReports.bin ⟨self.reports.erase node⟩ shards i = (self.bin shards i).erase node := by
  refine Std.ExtTreeMap.ext_getElem? fun other => ?_
  rw [Std.ExtTreeMap.getElem?_erase, getElem?_bin, getElem?_bin, Std.ExtTreeMap.getElem?_erase]
  split <;> split <;> rfl

theorem FleetReports.bin_insert (home : shardFor node shards = i) :
    FleetReports.bin ⟨self.reports.insert node stored⟩ shards i =
      (self.bin shards i).insert node stored := by
  refine Std.ExtTreeMap.ext_getElem? fun other => ?_
  rw [BTreeMap.getElem?_insert, getElem?_bin, getElem?_bin, BTreeMap.getElem?_insert]
  by_cases same : node = other
  · simp [same.symm, home]
  · simp [same]

end Bins

/-! ## The accounting -/

/-- An entry as the eviction order lists it. -/
def evictionKey (entry : String × StoredReport) : Nat × String := (entry.2.storedAtMs, entry.1)

/-- **The running count of a shard is exact**: the eviction order lists the reports that live in
it, and the count is the length they encode to. -/
structure Accounts [FleetJson] (base : Nat) (bin : BTreeMap String StoredReport)
    (shard : BufferedFleetShard) : Prop where
  order : shard.evictionOrder.Perm (bin.toList.map evictionKey)
  encodedLen : shard.encodedLen = framed base (bin.toList.map FleetReports.entryLen)

section Accounting

variable [FleetWriter] {base encodedLen : Nat} {bin : BTreeMap String StoredReport}
  {order : List (Nat × String)} {entries : List (String × StoredReport)}

theorem Accounts.of_perm (perm : bin.toList.Perm entries)
    (listed : order.Perm (entries.map evictionKey))
    (counted : encodedLen = framed base (entries.map FleetReports.entryLen)) :
    Accounts base bin ⟨encodedLen, order⟩ :=
  ⟨listed.trans (perm.symm.map _), counted.trans (framed_perm (perm.symm.map _))⟩

/-- Counting an entry of a node of which the shard has no other entry left. -/
theorem Accounts.add {node : String} (perm : (bin.erase node).toList.Perm entries)
    (listed : order.Perm (entries.map evictionKey)) (stored : StoredReport)
    (counted : encodedLen = framed base (((node, stored) :: entries).map FleetReports.entryLen)) :
    Accounts base (bin.insert node stored)
      ⟨encodedLen, FleetReportBuffer.insertOrder (stored.storedAtMs, node) order⟩ := by
  have absent : (stored.storedAtMs, node) ∉ order := by
    intro member
    obtain ⟨⟨_, found⟩, here, key⟩ := List.mem_map.mp (listed.mem_iff.mp member)
    obtain ⟨-, rfl⟩ := Prod.mk.inj key
    simpa using ((BTreeMap.toList_perm_iff.mp perm).2 _ found).mp here
  refine .of_perm (BTreeMap.toList_insert_perm perm stored) ?_ counted
  rw [FleetReportBuffer.insertOrder, if_neg absent]
  exact (List.perm_orderedInsert _ _ _).trans (listed.cons _)

/-- **Recording an entry keeps the account**, whether it replaces one or is new. -/
theorem Accounts.replace {shard : BufferedFleetShard} (accounts : Accounts base bin shard)
    (node : String) (stored : StoredReport) :
    ∃ shard', FleetReportBuffer.replace shard node bin[node]? = some shard' ∧
      Accounts base (bin.insert node stored)
        ⟨shard'.encodedLen + FleetReports.entryLen (node, stored),
          FleetReportBuffer.insertOrder (stored.storedAtMs, node) shard'.evictionOrder⟩ := by
  cases present : bin[node]? with
  | some previous =>
    have member : (node, previous) ∈ bin.toList :=
      Std.ExtTreeMap.mem_toList_iff_getElem?_eq_some.mpr present
    have perm := List.perm_cons_erase member
    set rest := bin.toList.erase (node, previous)
    have listed : (shard.evictionOrder.erase (previous.storedAtMs, node)).Perm
        (rest.map evictionKey) := by
      have erased := (accounts.order.trans (perm.map _)).erase (previous.storedAtMs, node)
      rwa [List.map_cons, evictionKey, List.erase_cons_head] at erased
    have before : shard.encodedLen = (framed base (rest.map FleetReports.entryLen) +
        if (rest.map FleetReports.entryLen).length + 1 > 1 then 1 else 0) +
        FleetReports.entryLen (node, previous) := by
      rw [accounts.encodedLen, framed_perm (perm.map _), List.map_cons, framed_cons]
      omega
    refine ⟨⟨framed base (rest.map FleetReports.entryLen) +
        if (rest.map FleetReports.entryLen).length + 1 > 1 then 1 else 0, _⟩, ?_,
      .add (BTreeMap.toList_erase_perm perm) listed stored ?_⟩
    · rw [FleetReportBuffer.replace, before, checkedSub_add]
      rfl
    · rw [List.map_cons, framed_cons]
      dsimp only
      omega
  | none =>
    have unchanged : bin.erase node = bin := by
      refine Std.ExtTreeMap.ext_getElem? fun other => ?_
      rw [Std.ExtTreeMap.getElem?_erase]
      split
      · next same => rw [← Std.LawfulEqCmp.compare_eq_iff_eq.mp same, present]
      · rfl
    have many : shard.evictionOrder.length = (bin.toList.map FleetReports.entryLen).length := by
      rw [accounts.order.length_eq, List.length_map, List.length_map]
    have perm : (bin.erase node).toList.Perm bin.toList := by rw [unchanged]
    refine ⟨_, rfl, .add perm ?_ stored ?_⟩
    · split <;> exact accounts.order
    · rw [List.map_cons, framed_cons, ← accounts.encodedLen]
      split
      · rw [if_pos (by omega)]
        dsimp only
        omega
      · rw [if_neg (by omega)]
        omega

/-- The oldest entry of an overfull shard is there, and removing it cannot underflow. -/
theorem evictOldest_spec [Crypto] (fits : base ≤ maxFleetReportShardBytes) {shards i : Nat}
    {reports : BTreeMap String StoredReport}
    (accounts : Accounts base (FleetReports.bin ⟨reports⟩ shards i) ⟨encodedLen, order⟩)
    (evicted : Nat) :
    ∃ shard reports' count,
      FleetReportBuffer.evictOldest order encodedLen reports evicted =
        some (shard, reports', count) ∧
      Accounts base (FleetReports.bin ⟨reports'⟩ shards i) shard ∧
      shard.encodedLen ≤ maxFleetReportShardBytes ∧
      ∀ node, shardFor node shards ≠ i → reports'[node]? = reports[node]? := by
  induction order generalizing encodedLen reports evicted with
  | nil =>
    have small : encodedLen ≤ maxFleetReportShardBytes := by
      have counted : encodedLen = framed base _ := accounts.encodedLen
      rw [counted, List.map_eq_nil_iff.mp accounts.order.nil_eq.symm]
      exact fits
    refine ⟨_, reports, evicted, ?_, accounts, small, fun _ _ => rfl⟩
    rw [FleetReportBuffer.evictOldest, if_pos small]
  | cons first order ih =>
    by_cases small : encodedLen ≤ maxFleetReportShardBytes
    · refine ⟨_, reports, evicted, ?_, accounts, small, fun _ _ => rfl⟩
      rw [FleetReportBuffer.evictOldest, if_pos small]
    · -- The entry the order names first is one of the shard's.
      obtain ⟨entry, member, rfl⟩ := List.mem_map.mp (accounts.order.mem_iff.mp List.mem_cons_self)
      have perm := List.perm_cons_erase member
      set rest := (FleetReports.bin ⟨reports⟩ shards i).toList.erase entry
      have present := Std.ExtTreeMap.mem_toList_iff_getElem?_eq_some.mp member
      rw [FleetReports.getElem?_bin] at present
      split at present
      swap
      · cases present
      next home =>
      have listed : order.Perm (rest.map evictionKey) :=
        (accounts.order.trans (perm.map _)).cons_inv
      have less : encodedLen = framed base (rest.map FleetReports.entryLen) +
          (FleetReports.entryLen entry + if order.length + 1 > 1 then 1 else 0) := by
        rw [listed.length_eq, List.length_map, ← List.length_map FleetReports.entryLen,
          ← framed_cons, ← List.map_cons, ← framed_perm (perm.map _)]
        exact accounts.encodedLen
      have next : Accounts base (FleetReports.bin ⟨reports.erase entry.1⟩ shards i)
          ⟨framed base (rest.map FleetReports.entryLen), order⟩ := by
        rw [FleetReports.bin_erase ⟨reports⟩]
        exact .of_perm (BTreeMap.toList_erase_perm perm) listed rfl
      obtain ⟨shard, reports', count, run, exact', below, frame⟩ := ih next (evicted + 1)
      refine ⟨shard, reports', count, ?_, exact', below, fun node elsewhere => ?_⟩
      · rw [FleetReportBuffer.evictOldest, if_neg small]
        simp only [evictionKey, present]
        rw [less, checkedSub_add]
        exact run
      · rw [frame node elsewhere, Std.ExtTreeMap.getElem?_erase, if_neg]
        intro same
        exact elsewhere (Std.LawfulEqCmp.compare_eq_iff_eq.mp same ▸ home)

end Accounting

/-! ## Whole runs of the buffer -/

section Runs

variable [Crypto] [FleetWriter]

namespace FleetReportBuffer

def bin (self : FleetReportBuffer) (i : Nat) : BTreeMap String StoredReport :=
  self.reports.bin self.maxShards.get i

def location (self : FleetReportBuffer) (i : Nat) : FleetShardLocation :=
  ⟨(accountingIndex self.maxShards).generation, i, self.maxShards.get⟩

/-- The invariant: every shard is there, exact and within the ceiling. -/
structure Sound (buffer : FleetReportBuffer) : Prop where
  length : buffer.shards.length = buffer.maxShards.get
  accounts : ∀ i shard, buffer.shards[i]? = some shard →
    Accounts (FleetReports.baseLen (buffer.location i)) (buffer.bin i) shard ∧
      shard.encodedLen ≤ maxFleetReportShardBytes

variable {buffer : FleetReportBuffer}

omit [Crypto] in
theorem baseLen_location_le (self : FleetReportBuffer) {i : Nat} (small : i < self.maxShards.get) :
    FleetReports.baseLen (self.location i) ≤ maxFleetReportShardBytes :=
  FleetWriter.length_frame_le (self.location i) rfl
    (Nat.lt_of_lt_of_le small self.maxShards.inRange.2)

variable [Base64] [Semver] [Json NodeReport]

/-- **A record keeps every shard exact, and cannot panic or underflow.** -/
theorem Sound.record (sound : Sound buffer) (accepted : AcceptedReport) :
    ∃ after evicted, buffer.record accepted = some (after, evicted) ∧ after.Sound ∧
      after.maxShards = buffer.maxShards := by
  set i := shardFor accepted.node buffer.maxShards.get with home
  have small : i < buffer.maxShards.get := Nat.mod_lt _ buffer.maxShards.inRange.1
  obtain ⟨shard, found⟩ : ∃ shard, buffer.shards[i]? = some shard :=
    ⟨_, List.getElem?_eq_getElem (sound.length ▸ small)⟩
  have accounts := (sound.accounts i shard found).1
  obtain ⟨shard', replaced, added⟩ :=
    accounts.replace accepted.node ⟨accepted.storedAtMs, accepted.envelope⟩
  have previous : (buffer.bin i)[accepted.node]? = buffer.reports.reports[accepted.node]? := by
    rw [bin, FleetReports.getElem?_bin, if_pos home.symm]
  rw [bin, ← FleetReports.bin_insert home.symm] at added
  obtain ⟨last, reports, evicted, run, exact', below, frame⟩ :=
    evictOldest_spec (buffer.baseLen_location_le small) added 0
  refine ⟨{ buffer with reports := ⟨reports⟩, shards := buffer.shards.set i last }, evicted, ?_,
    ⟨?_, fun j other foundOther => ?_⟩, rfl⟩
  · simp only [FleetReportBuffer.record, ← home, found, ← previous, replaced, run,
      Option.bind_eq_bind, Option.bind_some]
    rfl
  · rw [List.length_set]
    exact sound.length
  · by_cases same : i = j
    · subst same
      rw [List.getElem?_set_self (sound.length ▸ small)] at foundOther
      cases foundOther
      exact ⟨exact', below⟩
    · rw [List.getElem?_set_ne same] at foundOther
      have untouched : FleetReports.bin ⟨reports⟩ buffer.maxShards.get j = buffer.bin j := by
        refine FleetReports.bin_congr fun node elsewhere => ?_
        have away : shardFor node buffer.maxShards.get ≠ i :=
          fun here => same (here.symm.trans elsewhere)
        have different : accepted.node ≠ node := by
          rintro rfl
          exact away rfl
        rw [frame node away, BTreeMap.getElem?_insert, if_neg different]
      have before := sound.accounts j other foundOther
      rw [← untouched] at before
      exact before

end FleetReportBuffer

variable [Base64] [Semver] [Json NodeReport]

/-- A call of the gateway. -/
inductive BufferCall where
  | record (accepted : AcceptedReport)
  | drain

/-- One call; `none` is a panic or an underflow. -/
def FleetReportBuffer.call (self : FleetReportBuffer) : BufferCall → Option FleetReportBuffer
  | .record accepted => (self.record accepted).map Prod.fst
  | .drain => some self.drain.2

end Runs

end Updatedc.Contracts

namespace Updatedc.Contracts.Sample

/-- A writer with empty names and values: an entry is its colon. -/
scoped instance blank : FleetWriter where
  index := ⟨fun _ => [], fun _ => .error ""⟩
  shard := ⟨fun _ => [], fun _ => .error ""⟩
  stored := ⟨fun _ => [], fun _ => .error ""⟩
  envelope := ⟨fun _ => [], fun _ => .error ""⟩
  text := ⟨fun _ => [], fun _ => .error ""⟩
  shardToVec _ reports := List.replicate (framed 0 (reports.toList.map fun _ => 1)) 0
  length_index_le _ _ := Nat.zero_le _
  length_shard _ _ := List.length_replicate
  length_frame_le _ _ _ := Nat.zero_le _
  length_frame_congr _ _ _ _ := rfl

end Updatedc.Contracts.Sample
