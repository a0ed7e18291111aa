import Updatedc.Contracts.Backend
import Updatedc.Contracts.FleetReports
import Updatedc.Crates

/-!
# Load-balancer membership from health (`updated-healthproxy/src/lib.rs`)

Each cycle the proxy reads its inventory, fetches the fleet's report generation and programs every
member ready or not. What it could not observe falls back to what it last observed
(`LastKnownGood`), for both are judged by the same gate: authentic under the pinned key, fresh and
healthy.

A cycle touches each node on its own: `members_resolveAll` says what it programs for a node from
that node's report and that node's cache entry, and `entries_resolveAll` what it leaves in the
cache. `History` is what the proxy has observed; `Remembers` relates the cache to it along a run.
-/

namespace Updatedc.HealthProxy

open Contracts

/-! ## The last known value -/

/-- The last value observed under each key, and when (`Instant`, in nanoseconds). -/
structure LastKnownGood (α : Type) where
  entries : BTreeMap String (α × Nat) := ∅

namespace LastKnownGood

variable {α : Type}

/-- How long a value survives without being observed again: `REPORT_FRESHNESS`. -/
def staleness : Nat := reportFreshnessSeconds * 10 ^ 9

/-- Fold one observation in and return the value to act on. -/
def resolve (self : LastKnownGood α) (key : String) (fresh : Option α) (now : Nat) :
    Option α × LastKnownGood α :=
  match fresh with
  | some value => (some value, ⟨self.entries.insert key (value, now)⟩)
  | none =>
    match self.entries[key]? with
    | none => (none, self)
    | some (value, observed) =>
      if now - observed > staleness then (none, ⟨self.entries.erase key⟩) else (some value, self)

def retain (self : LastKnownGood α) (keep : String → Bool) : LastKnownGood α :=
  ⟨self.entries.filter fun key _ => keep key⟩

/-- The entry a failed observation leaves: the one there was, unless it is too old. -/
def kept (entry : Option (α × Nat)) (now : Nat) : Option (α × Nat) :=
  match entry with
  | some (value, observed) =>
    if now - observed > staleness then none else some (value, observed)
  | none => none

variable (self : LastKnownGood α) (key : String) (now : Nat)

theorem resolve_some (value : α) :
    (self.resolve key (some value) now).1 = some value ∧
      (self.resolve key (some value) now).2.entries[key]? = some (value, now) := by
  simp [resolve]

theorem resolve_none :
    (self.resolve key none now).1 = (kept self.entries[key]? now).map (·.1) ∧
      (self.resolve key none now).2.entries[key]? = kept self.entries[key]? now := by
  unfold resolve kept
  cases entry : self.entries[key]? with
  | none => simp [entry]
  | some held =>
    obtain ⟨value, observed⟩ := held
    dsimp only
    split
    · simp
    · simp [entry]

theorem eq_of_kept {entry : Option (α × Nat)} {held : α × Nat} {now : Nat}
    (found : kept entry now = some held) : entry = some held := by
  unfold kept at found
  split at found
  · split at found
    · cases found
    · exact found
  · cases found

theorem young_of_kept {entry : Option (α × Nat)} {held : α × Nat} {now : Nat}
    (found : kept entry now = some held) : now - held.2 ≤ staleness := by
  have same := eq_of_kept found
  subst same
  by_contra old
  rw [kept, if_pos (Nat.not_le.mp old)] at found
  cases found

theorem kept_or_old {entry : Option (α × Nat)} {held : α × Nat} (found : entry = some held)
    (now : Nat) : kept entry now = some held ∨ staleness < now - held.2 := by
  subst found
  by_cases old : now - held.2 > staleness
  · exact .inr old
  · exact .inl (if_neg old)

omit self key in
theorem kept_kept (entry : Option (α × Nat)) : kept (kept entry now) now = kept entry now := by
  cases again : kept entry now with
  | none => rfl
  | some held =>
    have found := eq_of_kept again
    rcases kept_or_old found now with same | old
    · rw [found] at same
      exact same
    · rw [found] at again
      exact absurd again (by simp [kept, old])

/-- The value to act on is the one the entry is left with. -/
theorem resolve_fst (fresh : Option α) :
    (self.resolve key fresh now).1 = (self.resolve key fresh now).2.entries[key]?.map (·.1) := by
  cases fresh with
  | some value =>
    rw [(self.resolve_some key now value).1, (self.resolve_some key now value).2]
    rfl
  | none => rw [(self.resolve_none key now).1, (self.resolve_none key now).2]

/-- A resolution reads its own key only. -/
theorem resolve_congr {other : LastKnownGood α} (same : self.entries[key]? = other.entries[key]?)
    (fresh : Option α) :
    (self.resolve key fresh now).1 = (other.resolve key fresh now).1 ∧
      (self.resolve key fresh now).2.entries[key]? =
        (other.resolve key fresh now).2.entries[key]? := by
  cases fresh with
  | some value =>
    rw [(self.resolve_some _ _ _).1, (self.resolve_some _ _ _).2, (other.resolve_some _ _ _).1,
      (other.resolve_some _ _ _).2]
    exact ⟨rfl, rfl⟩
  | none =>
    rw [(self.resolve_none _ _).1, (self.resolve_none _ _).2, (other.resolve_none _ _).1,
      (other.resolve_none _ _).2, same]
    exact ⟨rfl, rfl⟩

/-- And it writes no other. -/
theorem resolve_of_ne {other : String} (different : other ≠ key) (fresh : Option α) :
    (self.resolve key fresh now).2.entries[other]? = self.entries[other]? := by
  unfold resolve
  cases fresh with
  | some value => simp [BTreeMap.getElem?_insert, different.symm]
  | none =>
    cases entry : self.entries[key]? with
    | none => rfl
    | some held =>
      dsimp only
      split
      · simp [Std.ExtTreeMap.getElem?_erase, different.symm]
      · rfl

end LastKnownGood

/-! ## Readiness -/

/-- One node the balancer may route to. -/
structure Member where
  node : String
  address : String
  ready : Bool
  deriving DecidableEq

/-- A moment, as the monotonic and the wall clock tell it. -/
structure Moment where
  /-- `Instant::now`, in nanoseconds. -/
  instant : Nat
  /-- `now_ms`. -/
  wallMs : Nat

variable [Crates]

/-- Ready only when authentic for this node under its pinned key, fresh, and healthy. -/
def reportIsReady (node : String) (publicKey : P256PublicKey) (envelope : Envelope)
    (nowMs : Nat) : Bool :=
  ((authenticateReport envelope node publicKey).bind (·.fresh nowMs)).any (·.healthy)

def resolveReadiness (node : String) (publicKey : P256PublicKey) (fresh : Option Envelope)
    (cache : LastKnownGood Envelope) (now : Moment) : Bool × LastKnownGood Envelope :=
  let (held, cache) := cache.resolve node fresh now.instant
  (held.any (reportIsReady node publicKey · now.wallMs), cache)

section
variable [FleetJson]
variable (get : String → Option Bytes)

/-- The body of an object below the health base, if it was read within its bound. -/
def readBounded (key : String) (limit : Nat) : Option Bytes :=
  (get key).filter (·.length ≤ limit)

/-- Fetch the index and the shards that can contain active members. Unreadable shards are left
out; `none` when the index was unusable, or none of the shards could be read. -/
def fetchFleetReports (inventory : List BackendInventoryMember) : Option FleetReports :=
  if inventory.all (·.isCordoned) then some {}
  else do
    let body ← readBounded get fleetIndexObjectKey maxFleetIndexBytes
    let index ← FleetIndex.parse body
    let locations := index.shardLocationsFor
      ((inventory.filter fun member => !member.isCordoned).map (·.node))
    let shards := locations.filterMap fun location =>
      (readBounded get location.objectKey maxFleetReportShardBytes).bind
        (FleetReports.parseShard · location)
    if shards.isEmpty && !locations.isEmpty then none
    else some (shards.foldl FleetReports.overlay {})

/-- Judge the members one after the other. -/
def resolveAll (now : String → Moment) :
    List BackendInventoryMember → Option FleetReports → LastKnownGood Envelope →
      List Member × LastKnownGood Envelope
  | [], _, cache => ([], cache)
  | .active node address publicKey :: rest, fetched, cache =>
    let taken := fetched.map (·.remove node.asStr)
    let (ready, cache) := resolveReadiness node.asStr publicKey (taken.bind (·.1)) cache
      (now node.asStr)
    let (members, cache) := resolveAll now rest (taken.map (·.2)) cache
    (⟨node.asStr, address, ready⟩ :: members, cache)
  | .cordoned node :: rest, fetched, cache =>
    let (members, cache) := resolveAll now rest fetched cache
    (⟨node.asStr, "", false⟩ :: members, cache)

def resolveMembers (inventory : List BackendInventoryMember) (cache : LastKnownGood Envelope)
    (now : String → Moment) : List Member × LastKnownGood Envelope :=
  resolveAll now inventory (fetchFleetReports get inventory) cache

end

/-! ## The loop -/

/-- A node's readiness edge between cycles. -/
inductive Transition where
  | firstOutOfPool | joined | left
  deriving DecidableEq

def classifyTransition (previous : Option Bool) (ready : Bool) : Option Transition :=
  match previous, ready with
  | none, false => some .firstOutOfPool
  | some was, now =>
    if was ≠ now then some (if now then .joined else .left) else none
  | none, true => none

/-- What the loop carries from one cycle to the next. -/
structure Proxy where
  inventory : Inventory
  previous : BTreeMap String Bool := ∅
  cache : LastKnownGood Envelope := {}

/-- What one cycle meets: the inventory files, the store, and the clocks. -/
structure Cycle where
  /-- The projected inventory, shard by shard. -/
  files : Nat → Except String Bytes
  /-- The store's answer for an object below the health base. -/
  get : String → Option Bytes
  began : Nat
  ended : Nat
  /-- When a node's report is judged. -/
  judgedAt : String → Moment
  /-- When a drained node is counted. -/
  countedAt : String → Nat
  /-- The monotonic clock does not run backward. -/
  judged : ∀ node, began ≤ (judgedAt node).instant
  counted : ∀ node, (judgedAt node).instant ≤ countedAt node
  finished : ∀ node, countedAt node ≤ ended

section
variable [IpParser] [InventoryJson]

def decodeInventoryShard (bytes : Bytes) (path : String) : Except String BackendInventoryShard :=
  if bytes.length > backendInventoryShardMaxBytes then
    .error s!"{path} exceeds the {backendInventoryShardMaxBytes}-byte inventory shard limit"
  else
    match Json.fromSlice bytes with
    | .ok shard => .ok shard
    | .error error => .error s!"decoding {path}: {error}"

/-- The path of one inventory shard (`inventory-{index:02}.json`). -/
def inventoryPath (index : Nat) : String :=
  "inventory-" ++ String.ofList [Nat.digitChar (index / 10), Nat.digitChar (index % 10)] ++ ".json"

/-- Read, join and revalidate the projected inventory. -/
def loadInventory (files : Nat → Except String Bytes) : Except String Inventory := do
  let shards ← (List.range backendInventoryShards).mapM fun index => do
    let bytes ← (files index).mapError fun error => s!"reading {inventoryPath index}: {error}"
    decodeInventoryShard bytes (inventoryPath index)
  let inventory ← assembleBackendInventory shards
  let _ ← inventory.members.mapM BackendInventoryMember.validate
  return inventory

variable [FleetJson]

namespace Proxy

/-- The loop's first state, with the inventory the process started from. -/
def start (inventory : Inventory) : Proxy := { inventory }

/-- Whether a node is active in an inventory. -/
def activeIn (inventory : Inventory) (node : String) : Bool :=
  ((inventory.members.filter fun member => !member.isCordoned).map (·.node)).contains node

/-- Adopt a usable inventory and forget who left it; keep the last one otherwise. -/
def adopt (self : Proxy) (loaded : Except String Inventory) : Proxy :=
  match loaded with
  | .error _ => self
  | .ok inventory =>
    let present := inventory.members.map (·.node)
    { inventory
      previous := self.previous.filter fun node _ => present.contains node
      cache := self.cache.retain (activeIn inventory) }

/-- Record the readiness of each member. A member that left the pool, or starts outside it, is
looked up once more to be counted, unless it is cordoned. -/
def note (drained : List String) (countedAt : String → Nat) (self : Proxy) (member : Member) :
    Proxy :=
  let prior := self.previous[member.node]?
  let previous := self.previous.insert member.node member.ready
  let transition := classifyTransition prior member.ready
  let cache :=
    if (transition = some .left || transition = some .firstOutOfPool)
        && !drained.contains member.node then
      (self.cache.resolve member.node none (countedAt member.node)).2
    else self.cache
  { self with previous, cache }

/-- One cycle: the membership it programs, and what it leaves to the next one. -/
def cycle (self : Proxy) (cycle : Cycle) : List Member × Proxy :=
  let adopted := self.adopt (loadInventory cycle.files)
  let (members, cache) :=
    resolveMembers cycle.get adopted.inventory.members adopted.cache cycle.judgedAt
  let drained := (adopted.inventory.members.filter (·.isCordoned)).map (·.node)
  (members, members.foldl (note drained cycle.countedAt) { adopted with cache })

def run (self : Proxy) (cycles : List Cycle) : Proxy :=
  cycles.foldl (fun proxy next => (proxy.cycle next).2) self

end Proxy

/-! ## What a cycle does for one node -/

variable {publicKey : P256PublicKey}

section
variable {now : String → Moment} {fetched : Option FleetReports} {cache : LastKnownGood Envelope}

/-- What was fetched for a node. -/
def reportOf (fetched : Option FleetReports) (node : String) : Option Envelope :=
  fetched.bind fun reports => reports.reports[node]?.map (·.envelope)

/-- What a member is programmed to, from its own report and its own cache entry. -/
def judge (now : String → Moment) (fetched : Option FleetReports)
    (cache : LastKnownGood Envelope) : BackendInventoryMember → Member
  | .active node address publicKey =>
    ⟨node.asStr, address, (resolveReadiness node.asStr publicKey (reportOf fetched node.asStr)
      cache (now node.asStr)).1⟩
  | .cordoned node => ⟨node.asStr, "", false⟩

omit [IpParser] [InventoryJson] [FleetJson] [Crates] in
theorem reportOf_remove {node other : String} (different : other ≠ node) :
    reportOf ((fetched.map (·.remove node)).map (·.2)) other = reportOf fetched other := by
  cases fetched with
  | none => rfl
  | some reports =>
    simp [reportOf, FleetReports.remove, Std.ExtTreeMap.getElem?_erase, different.symm]

omit [IpParser] [InventoryJson] [FleetJson] [Crates] in
theorem reportOf_taken (node : String) :
    (fetched.map (·.remove node)).bind (·.1) = reportOf fetched node := by
  cases fetched <;> rfl

omit [IpParser] [InventoryJson] [FleetJson] in
/-- A judgement reads the node's own report and entry only. -/
theorem judge_congr {fetched' : Option FleetReports} {cache' : LastKnownGood Envelope}
    {member : BackendInventoryMember}
    (sameReport : reportOf fetched member.node = reportOf fetched' member.node)
    (sameEntry : cache.entries[member.node]? = cache'.entries[member.node]?) :
    judge now fetched cache member = judge now fetched' cache' member := by
  cases member with
  | cordoned node => rfl
  | active node address publicKey =>
    change reportOf fetched node.asStr = reportOf fetched' node.asStr at sameReport
    change cache.entries[node.asStr]? = cache'.entries[node.asStr]? at sameEntry
    simp only [judge, resolveReadiness, sameReport, (cache.resolve_congr _ _ sameEntry _).1]

omit [IpParser] [InventoryJson] [FleetJson] in
/-- **Each member is judged on its own.** -/
theorem members_resolveAll {inventory : List BackendInventoryMember}
    (distinct : (inventory.map BackendInventoryMember.node).Nodup) :
    (resolveAll now inventory fetched cache).1 = inventory.map (judge now fetched cache) := by
  induction inventory generalizing fetched cache with
  | nil => rfl
  | cons member rest ih =>
    obtain ⟨fresh, others⟩ := List.nodup_cons.mp distinct
    have apart : ∀ other ∈ rest, other.node ≠ member.node := fun other listed same =>
      fresh (same ▸ List.mem_map_of_mem listed)
    cases member with
    | cordoned node => simp only [resolveAll, List.map_cons, ih others, judge]
    | active node address publicKey =>
      simp only [resolveAll, List.map_cons, ih others, reportOf_taken]
      refine congrArg₂ _ rfl (List.map_congr_left fun other listed => ?_)
      refine judge_congr (reportOf_remove (apart other listed)) ?_
      exact LastKnownGood.resolve_of_ne _ _ _ (apart other listed) _

omit [IpParser] [InventoryJson] [FleetJson] in
/-- A node that is not active keeps its entry. -/
theorem entries_resolveAll_of_not_active {inventory : List BackendInventoryMember} {node : String}
    (absent : ∀ member ∈ inventory, member.isCordoned = false → member.node ≠ node) :
    (resolveAll now inventory fetched cache).2.entries[node]? = cache.entries[node]? := by
  induction inventory generalizing fetched cache with
  | nil => rfl
  | cons member rest ih =>
    have later := fun other listed => absent other (List.mem_cons_of_mem _ listed)
    cases member with
    | cordoned name => exact ih later
    | active name address publicKey =>
      refine (ih later).trans ?_
      have different : node ≠ name.asStr := (absent _ List.mem_cons_self rfl).symm
      exact LastKnownGood.resolve_of_ne _ _ _ different _

omit [IpParser] [InventoryJson] [FleetJson] in
/-- The entry an active node is left with. -/
theorem entries_resolveAll {inventory : List BackendInventoryMember}
    (distinct : (inventory.map BackendInventoryMember.node).Nodup) {node : ResourceName}
    {address : String} (active : .active node address publicKey ∈ inventory) :
    (resolveAll now inventory fetched cache).2.entries[node.asStr]? =
      (cache.resolve node.asStr (reportOf fetched node.asStr)
        (now node.asStr).instant).2.entries[node.asStr]? := by
  induction inventory generalizing fetched cache with
  | nil => cases active
  | cons member rest ih =>
    obtain ⟨fresh, others⟩ := List.nodup_cons.mp distinct
    rcases List.mem_cons.mp active with rfl | later
    · have absent : ∀ other ∈ rest, other.isCordoned = false → other.node ≠ node.asStr :=
        fun other listed _ same => fresh (List.mem_map.mpr ⟨other, listed, same⟩)
      simp only [resolveAll, reportOf_taken]
      exact entries_resolveAll_of_not_active absent
    · have different : node.asStr ≠ member.node := fun same =>
        fresh (same ▸ List.mem_map_of_mem later)
      cases member with
      | cordoned name => exact ih others later
      | active name _ key =>
        have apart : node.asStr ≠ name.asStr := different
        simp only [resolveAll, ih others later, reportOf_remove apart]
        exact (LastKnownGood.resolve_congr _ _ _
          (LastKnownGood.resolve_of_ne _ _ _ different _) _).2

end

namespace Proxy

variable {proxy : Proxy} {node : String}

omit [Crates] [IpParser] [InventoryJson] [FleetJson] in
theorem activeIn_iff {inventory : Inventory} :
    activeIn inventory node = true ↔ ∃ (name : ResourceName) (address : String)
      (publicKey : P256PublicKey), .active name address publicKey ∈ inventory.members ∧
        name.asStr = node := by
  simp only [activeIn, List.contains_iff_mem, List.mem_map, List.mem_filter]
  constructor
  · rintro ⟨member, ⟨listed, active⟩, rfl⟩
    cases member with
    | active name address publicKey => exact ⟨name, address, publicKey, listed, rfl⟩
    | cordoned name => cases active
  · rintro ⟨name, address, publicKey, listed, rfl⟩
    exact ⟨_, ⟨listed, rfl⟩, rfl⟩

omit [Crates] [IpParser] [InventoryJson] [FleetJson] in
theorem distinct_nodes (inventory : Inventory) :
    (inventory.members.map BackendInventoryMember.node).Nodup :=
  List.pairwise_map.mpr (inventory.ordered.imp fun before => String.ne_of_lt before)

omit [Crates] [IpParser] [InventoryJson] [FleetJson] in
/-- Counting a drained member can only drop its own entry, if that is too old. -/
theorem entries_note (proxy : Proxy) (node : String) (drained : List String)
    (countedAt : String → Nat) (member : Member) :
    (note drained countedAt proxy member).cache.entries[node]? = proxy.cache.entries[node]? ∨
      (member.node = node ∧ member.ready = false ∧
        (note drained countedAt proxy member).cache.entries[node]? =
          LastKnownGood.kept proxy.cache.entries[node]? (countedAt node)) := by
  unfold note
  dsimp only
  split
  · next counted =>
    by_cases same : member.node = node
    · subst same
      refine .inr ⟨rfl, ?_, (LastKnownGood.resolve_none _ _ _).2⟩
      simp only [Bool.and_eq_true, Bool.or_eq_true, decide_eq_true_eq] at counted
      cases ready : member.ready with
      | false => rfl
      | true =>
        rw [ready] at counted
        cases prior : proxy.previous[member.node]? with
        | none => simp [classifyTransition, prior] at counted
        | some was => cases was <;> simp [classifyTransition, prior] at counted
    · exact .inl (LastKnownGood.resolve_of_ne _ _ _ (Ne.symm same) _)
  · exact .inl rfl

omit [Crates] [IpParser] [InventoryJson] [FleetJson] in
theorem inventory_note (drained : List String) (countedAt : String → Nat)
    (members : List Member) :
    (members.foldl (note drained countedAt) proxy).inventory = proxy.inventory := by
  induction members generalizing proxy with
  | nil => rfl
  | cons member rest ih => exact ih

omit [Crates] [IpParser] [InventoryJson] [FleetJson] in
/-- All the counting of a cycle, for one node: its entry stays, or is dropped for its age, and it
stays when the node was programmed ready. -/
theorem entries_notes (proxy : Proxy) (node : String) (drained : List String)
    (countedAt : String → Nat) (members : List Member) :
    (members.foldl (note drained countedAt) proxy).cache.entries[node]? =
        proxy.cache.entries[node]? ∨
      ((∃ member ∈ members, member.node = node ∧ member.ready = false) ∧
        (members.foldl (note drained countedAt) proxy).cache.entries[node]? =
          LastKnownGood.kept proxy.cache.entries[node]? (countedAt node)) := by
  induction members generalizing proxy with
  | nil => exact .inl rfl
  | cons member rest ih =>
    rw [List.foldl_cons]
    have here := entries_note proxy node drained countedAt member
    rcases ih (note drained countedAt proxy member) with later | ⟨⟨other, listed, is⟩, later⟩
    · rcases here with same | ⟨name, out, dropped⟩
      · exact .inl (later.trans same)
      · exact .inr ⟨⟨member, List.mem_cons_self, name, out⟩, later.trans dropped⟩
    · refine .inr ⟨⟨other, List.mem_cons_of_mem _ listed, is⟩, later.trans ?_⟩
      rcases here with same | ⟨-, -, dropped⟩
      · rw [same]
      · rw [dropped, LastKnownGood.kept_kept]

/-! ## A run -/

/-- What was fetched for a node in a cycle that adopted this inventory. -/
def fetchedFor (inventory : Inventory) (cycle : Cycle) (node : String) : Option Envelope :=
  reportOf (fetchFleetReports cycle.get inventory.members) node

/-- The inventory a cycle works with. -/
def adopted (proxy : Proxy) (cycle : Cycle) : Inventory :=
  (proxy.adopt (loadInventory cycle.files)).inventory

/-- **What the proxy has last observed of each node, and when**, since the node became active: the
history a cycle adds to. -/
def observe (proxy : Proxy) (cycle : Cycle) (seen : String → Option (Envelope × Nat))
    (node : String) : Option (Envelope × Nat) :=
  if activeIn (proxy.adopted cycle) node then
    match fetchedFor (proxy.adopted cycle) cycle node with
    | some envelope => some (envelope, (cycle.judgedAt node).instant)
    | none => seen node
  else none

def lastObserved : Proxy → (String → Option (Envelope × Nat)) → List Cycle →
    String → Option (Envelope × Nat)
  | _, seen, [] => seen
  | proxy, seen, next :: rest => lastObserved (proxy.cycle next).2 (observe proxy next seen) rest

/-- The cache is what was last observed, but for what was too old at some time up to `now`. -/
structure Remembers (proxy : Proxy) (seen : String → Option (Envelope × Nat)) (now : Nat) :
    Prop where
  active : ∀ (node : String) (held : Envelope × Nat), proxy.cache.entries[node]? = some held →
    activeIn proxy.inventory node = true
  held : ∀ (node : String) (held : Envelope × Nat), proxy.cache.entries[node]? = some held →
    seen node = some held
  kept : ∀ (node : String) (held : Envelope × Nat), seen node = some held →
    proxy.cache.entries[node]? = some held ∨ LastKnownGood.staleness < now - held.2

variable {seen : String → Option (Envelope × Nat)} {now : Nat} {next : Cycle}

omit [Crates] [IpParser] [InventoryJson] [FleetJson] in
theorem entries_adopt (remembers : proxy.Remembers seen now) (loaded : Except String Inventory)
    (node : String) :
    (proxy.adopt loaded).cache.entries[node]? =
      if activeIn (proxy.adopt loaded).inventory node then proxy.cache.entries[node]?
      else none := by
  cases loaded with
  | ok inventory => exact BTreeMap.getElem?_filter_key _ _ _
  | error message =>
    change proxy.cache.entries[node]? = if activeIn proxy.inventory node then _ else _
    split
    · rfl
    · next inactive =>
      cases entry : proxy.cache.entries[node]? with
      | none => rfl
      | some held => exact absurd (remembers.active node held entry) inactive

/-- What a cycle's judgement leaves in the cache for a node. -/
def resolvedEntry (proxy : Proxy) (cycle : Cycle) (node : String) : Option (Envelope × Nat) :=
  if activeIn (proxy.adopted cycle) node then
    match fetchedFor (proxy.adopted cycle) cycle node with
    | some envelope => some (envelope, (cycle.judgedAt node).instant)
    | none => LastKnownGood.kept proxy.cache.entries[node]? (cycle.judgedAt node).instant
  else none

theorem entries_resolved (remembers : proxy.Remembers seen now) (cycle : Cycle) (node : String) :
    (resolveMembers cycle.get (proxy.adopted cycle).members
      (proxy.adopt (loadInventory cycle.files)).cache cycle.judgedAt).2.entries[node]? =
        proxy.resolvedEntry cycle node := by
  have before : (proxy.adopt (loadInventory cycle.files)).cache.entries[node]? =
      if activeIn (proxy.adopted cycle) node then proxy.cache.entries[node]? else none :=
    entries_adopt remembers (loadInventory cycle.files) node
  unfold resolvedEntry
  by_cases active : activeIn (proxy.adopted cycle) node = true
  · obtain ⟨name, address, publicKey, listed, rfl⟩ := activeIn_iff.mp active
    rw [resolveMembers, entries_resolveAll (distinct_nodes _) listed, if_pos active]
    rw [if_pos active] at before
    cases report : fetchedFor (proxy.adopted cycle) cycle name.asStr with
    | some envelope =>
      rw [show reportOf _ name.asStr = some envelope from report]
      exact (LastKnownGood.resolve_some _ _ _ _).2
    | none =>
      rw [show reportOf _ name.asStr = none from report, (LastKnownGood.resolve_none _ _ _).2,
        before]
  · rw [if_neg active]
    rw [if_neg active] at before
    refine (entries_resolveAll_of_not_active fun member listed inRotation same => ?_).trans before
    cases member with
    | cordoned name => cases inRotation
    | active name address publicKey =>
      exact active (activeIn_iff.mpr ⟨name, address, publicKey, listed, same⟩)

theorem inventory_cycle (cycle : Cycle) : (proxy.cycle cycle).2.inventory = proxy.adopted cycle :=
  inventory_note _ _ _

/-- The members a cycle programs, each judged on its own. -/
theorem members_cycle (cycle : Cycle) :
    (proxy.cycle cycle).1 = (proxy.adopted cycle).members.map
      (judge cycle.judgedAt (fetchFleetReports cycle.get (proxy.adopted cycle).members)
        (proxy.adopt (loadInventory cycle.files)).cache) :=
  members_resolveAll (distinct_nodes _)

theorem entries_cycle (remembers : proxy.Remembers seen now) (cycle : Cycle) (node : String) :
    (proxy.cycle cycle).2.cache.entries[node]? = proxy.resolvedEntry cycle node ∨
      ((∃ member ∈ (proxy.cycle cycle).1, member.node = node ∧ member.ready = false) ∧
        (proxy.cycle cycle).2.cache.entries[node]? =
          LastKnownGood.kept (proxy.resolvedEntry cycle node) (cycle.countedAt node)) := by
  rw [← entries_resolved remembers cycle node]
  exact entries_notes _ node _ _ _

/-- **A cycle remembers what it observed.** -/
theorem Remembers.step (remembers : proxy.Remembers seen now) (later : now ≤ next.began) :
    (proxy.cycle next).2.Remembers (observe proxy next seen) next.ended := by
  have left : ∀ (node : String) (held : Envelope × Nat),
      (proxy.cycle next).2.cache.entries[node]? = some held →
        proxy.resolvedEntry next node = some held := by
    intro node held found
    rcases entries_cycle remembers next node with same | ⟨-, counted⟩
    · exact same.symm.trans found
    · exact LastKnownGood.eq_of_kept (counted.symm.trans found)
  refine ⟨fun node held found => ?_, fun node held found => ?_, fun node held known => ?_⟩
  · have entry := left node held found
    unfold resolvedEntry at entry
    rw [inventory_cycle]
    by_contra inactive
    rw [if_neg inactive] at entry
    cases entry
  · have entry := left node held found
    unfold resolvedEntry at entry
    unfold observe
    split at entry
    · next active =>
      rw [if_pos active]
      split at entry
      · exact entry
      · exact remembers.held node held (LastKnownGood.eq_of_kept entry)
    · cases entry
  · -- It was observed now, or before and then was kept or too old at some time before now.
    have judged := next.judged node
    have counted := next.counted node
    have finished := next.finished node
    have resolved : proxy.resolvedEntry next node = some held ∨
        LastKnownGood.staleness < next.ended - held.2 := by
      unfold observe at known
      unfold resolvedEntry
      split at known
      · next active =>
        rw [if_pos active]
        split at known
        · exact .inl known
        · rcases remembers.kept node held known with entry | old
          · rcases LastKnownGood.kept_or_old entry (next.judgedAt node).instant with kept | old
            · exact .inl kept
            · exact .inr (by omega)
          · exact .inr (by omega)
      · cases known
    rcases resolved with entry | old
    · rcases entries_cycle remembers next node with same | ⟨-, counted⟩
      · exact .inl (same.trans entry)
      · rcases LastKnownGood.kept_or_old entry (next.countedAt node) with kept | old
        · exact .inl (counted.trans kept)
        · exact .inr (by omega)
    · exact .inr old

/-- The clock of a run: no cycle begins before the one before it has ended. -/
def Successive : Nat → List Cycle → Prop
  | _, [] => True
  | now, next :: rest => now ≤ next.began ∧ Successive next.ended rest

omit [Crates] [IpParser] [InventoryJson] [FleetJson] in
theorem successive_of_append {cycles : List Cycle} {now : Nat}
    (last : Successive now (cycles ++ [next])) : Successive now cycles := by
  induction cycles generalizing now with
  | nil => trivial
  | cons first rest ih => exact ⟨last.1, ih last.2⟩

theorem Remembers.run {cycles : List Cycle} (remembers : proxy.Remembers seen now)
    (successive : Successive now cycles) :
    ∃ ended, (∀ next, Successive now (cycles ++ [next]) → ended ≤ next.began) ∧
      (proxy.run cycles).Remembers (lastObserved proxy seen cycles) ended := by
  induction cycles generalizing proxy seen now with
  | nil => exact ⟨now, fun next alone => alone.1, remembers⟩
  | cons first rest ih =>
    obtain ⟨ended, last, kept⟩ := ih (remembers.step successive.1) successive.2
    exact ⟨ended, fun next all => last next all.2, kept⟩

omit [Crates] [IpParser] [InventoryJson] [FleetJson] in
theorem start_remembers (inventory : Inventory) :
    (start inventory).Remembers (fun _ => none) 0 :=
  ⟨fun _ _ found => by simp [start] at found, fun _ _ found => by simp [start] at found,
    fun _ _ found => by cases found⟩

/-! ## What is programmed -/

/-- The proxy holds a report of the node that justifies routing to it at this moment: authentic
under the pinned key, fresh and healthy. -/
def Justified (proxy : Proxy) (node : String) (publicKey : P256PublicKey) (nowMs : Nat) : Prop :=
  ∃ (envelope : Envelope) (observed : Nat) (authentic : AuthenticReport) (report : NodeReport),
    proxy.cache.entries[node]? = some (envelope, observed) ∧
    authenticateReport envelope node publicKey = some authentic ∧
    authentic.fresh nowMs = some report ∧ report.healthy = true

omit [IpParser] [InventoryJson] [FleetJson] in
theorem reportIsReady_iff {envelope : Envelope} {nowMs : Nat} :
    reportIsReady node publicKey envelope nowMs = true ↔
      ∃ (authentic : AuthenticReport) (report : NodeReport),
        authenticateReport envelope node publicKey = some authentic ∧
        authentic.fresh nowMs = some report ∧ report.healthy = true := by
  simp only [reportIsReady, Option.any_eq_true, Option.bind_eq_some_iff]
  constructor
  · rintro ⟨report, ⟨authentic, known, fresh⟩, healthy⟩
    exact ⟨authentic, report, known, fresh, healthy⟩
  · rintro ⟨authentic, report, known, fresh, healthy⟩
    exact ⟨report, ⟨authentic, known, fresh⟩, healthy⟩

/-- What an active member is programmed to: the verdict on the report the cycle leaves it with. -/
theorem judge_active (remembers : proxy.Remembers seen now) {name : ResourceName} {address : String}
    (active : .active name address publicKey ∈ (proxy.adopted next).members) :
    judge next.judgedAt (fetchFleetReports next.get (proxy.adopted next).members)
        (proxy.adopt (loadInventory next.files)).cache (.active name address publicKey) =
      ⟨name.asStr, address, (proxy.resolvedEntry next name.asStr).any fun held =>
        reportIsReady name.asStr publicKey held.1 (next.judgedAt name.asStr).wallMs⟩ := by
  have entry := entries_resolved remembers next name.asStr
  rw [resolveMembers, entries_resolveAll (distinct_nodes _) active] at entry
  simp only [judge, resolveReadiness, LastKnownGood.resolve_fst, entry, Option.any_map]

/-- Every programmed member comes from an entry of the inventory of its own name. -/
theorem mem_cycle_cases (remembers : proxy.Remembers seen now) {member : Member}
    (programmed : member ∈ (proxy.cycle next).1) :
    (∃ name, .cordoned name ∈ (proxy.adopted next).members ∧ member = ⟨name.asStr, "", false⟩) ∨
      ∃ name address publicKey, .active name address publicKey ∈ (proxy.adopted next).members ∧
        member = ⟨name.asStr, address, (proxy.resolvedEntry next name.asStr).any fun held =>
          reportIsReady name.asStr publicKey held.1 (next.judgedAt name.asStr).wallMs⟩ := by
  rw [members_cycle] at programmed
  obtain ⟨entry, listed, rfl⟩ := List.mem_map.mp programmed
  cases entry with
  | cordoned name => exact .inl ⟨name, listed, rfl⟩
  | active name address publicKey =>
    exact .inr ⟨name, address, publicKey, listed, judge_active remembers listed⟩

/-- **A node is programmed ready only with a report that justifies it.** -/
theorem justified_of_ready (remembers : proxy.Remembers seen now) {member : Member}
    (programmed : member ∈ (proxy.cycle next).1) (ready : member.ready = true) :
    ∃ name publicKey,
      .active name member.address publicKey ∈ (proxy.cycle next).2.inventory.members ∧
      name.asStr = member.node ∧
      (proxy.cycle next).2.Justified member.node publicKey (next.judgedAt member.node).wallMs := by
  rw [inventory_cycle]
  rcases mem_cycle_cases remembers programmed with
    ⟨name, -, rfl⟩ | ⟨name, address, publicKey, listed, rfl⟩
  · cases ready
  · refine ⟨name, publicKey, listed, rfl, ?_⟩
    obtain ⟨held, entry, verdict⟩ := (Option.any_eq_true _ _).mp ready
    obtain ⟨authentic, report, known, fresh, healthy⟩ := reportIsReady_iff.mp verdict
    refine ⟨held.1, held.2, authentic, report, ?_, known, fresh, healthy⟩
    rcases entries_cycle remembers next name.asStr with
      same | ⟨⟨other, programmed', sameNode, out⟩, -⟩
    · exact same.trans entry
    · -- Only a member that was programmed out is counted, and a node has one member.
      rcases mem_cycle_cases remembers programmed' with
        ⟨name', listed', rfl⟩ | ⟨name', address', publicKey', listed', rfl⟩
      · cases (proxy.adopted next).unique listed listed' sameNode.symm
      · cases (proxy.adopted next).unique listed listed' sameNode.symm
        exact Bool.noConfusion (out.symm.trans ready)

/-- **A cordoned node is never programmed ready.** -/
theorem not_ready_of_cordoned (remembers : proxy.Remembers seen now) {member : Member}
    (programmed : member ∈ (proxy.cycle next).1) {name : ResourceName}
    (cordoned : .cordoned name ∈ (proxy.cycle next).2.inventory.members)
    (same : member.node = name.asStr) : member.ready = false := by
  rw [inventory_cycle] at cordoned
  rcases mem_cycle_cases remembers programmed with
    ⟨name', -, rfl⟩ | ⟨name', address, publicKey, listed, rfl⟩
  · rfl
  · cases (proxy.adopted next).unique listed cordoned same

/-- **Without a report, the last observed one decides for as long as the cache keeps it.** -/
theorem ready_iff_of_outage (remembers : proxy.Remembers seen now) (later : now ≤ next.began)
    {name : ResourceName} {address : String} {envelope : Envelope} {observed : Nat}
    (active : .active name address publicKey ∈ (proxy.adopted next).members)
    (outage : fetchedFor (proxy.adopted next) next name.asStr = none)
    (known : seen name.asStr = some (envelope, observed))
    (well : reportIsReady name.asStr publicKey envelope (next.judgedAt name.asStr).wallMs = true) :
    (⟨name.asStr, address, true⟩ : Member) ∈ (proxy.cycle next).1 ↔
      (next.judgedAt name.asStr).instant - observed ≤ LastKnownGood.staleness := by
  have isActive : activeIn (proxy.adopted next) name.asStr = true :=
    activeIn_iff.mpr ⟨name, address, publicKey, active, rfl⟩
  have resolved : proxy.resolvedEntry next name.asStr =
      LastKnownGood.kept proxy.cache.entries[name.asStr]? (next.judgedAt name.asStr).instant := by
    rw [resolvedEntry, if_pos isActive, outage]
  have judged := next.judged name.asStr
  constructor
  · intro programmed
    rcases mem_cycle_cases remembers programmed with
      ⟨name', -, same⟩ | ⟨name', address', publicKey', listed, same⟩
    · exact Bool.noConfusion (congrArg Member.ready same)
    · cases (proxy.adopted next).unique active listed (congrArg Member.node same)
      have ready := (congrArg Member.ready same).symm
      obtain ⟨held, entry, -⟩ := (Option.any_eq_true _ _).mp ready
      rw [resolved] at entry
      have seen := remembers.held _ _ (LastKnownGood.eq_of_kept entry)
      cases known.symm.trans seen
      exact LastKnownGood.young_of_kept entry
  · intro young
    have entry : proxy.resolvedEntry next name.asStr = some (envelope, observed) := by
      rw [resolved]
      rcases remembers.kept _ _ known with entry | old
      · rcases LastKnownGood.kept_or_old entry (next.judgedAt name.asStr).instant with kept | old
        · exact kept
        · exact absurd young (Nat.not_le.mpr old)
      · exact absurd young (by omega)
    rw [members_cycle]
    refine List.mem_map.mpr ⟨_, active, (judge_active remembers active).trans ?_⟩
    rw [entry]
    simp [well]

end Proxy

open Proxy in
/-- **Readiness is justified, in every cycle of every run**, whatever the store, the inventory and
the clocks answer. A node is programmed ready only when it is active in the adopted inventory and
the proxy holds a report of it that is authentic under its pinned key, healthy and fresh; a
cordoned node never is. Where a node's report could not be fetched and the last observed one would
still justify it, the node is ready exactly when that observation is no older than the cache
keeps it. -/
theorem readiness_justified (inventory : Inventory) (cycles : List Cycle) (next : Cycle)
    (successive : Successive 0 (cycles ++ [next])) :
    let before := (start inventory).run cycles
    let members := (before.cycle next).1
    let after := (before.cycle next).2
    (∀ member ∈ members, member.ready = true →
      ∃ name publicKey, .active name member.address publicKey ∈ after.inventory.members ∧
        name.asStr = member.node ∧
        after.Justified member.node publicKey (next.judgedAt member.node).wallMs) ∧
    (∀ member ∈ members, ∀ name, .cordoned name ∈ after.inventory.members →
      member.node = name.asStr → member.ready = false) ∧
    ∀ name address publicKey envelope observed,
      .active name address publicKey ∈ after.inventory.members →
      fetchedFor after.inventory next name.asStr = none →
      lastObserved (start inventory) (fun _ => none) cycles name.asStr =
        some (envelope, observed) →
      reportIsReady name.asStr publicKey envelope (next.judgedAt name.asStr).wallMs = true →
      (⟨name.asStr, address, true⟩ ∈ members ↔
        (next.judgedAt name.asStr).instant - observed ≤ LastKnownGood.staleness) := by
  intro before members after
  obtain ⟨ended, later, remembers⟩ := (start_remembers inventory).run
    (successive_of_append successive)
  refine ⟨fun member programmed ready => justified_of_ready remembers programmed ready,
    fun member programmed name cordoned same =>
      not_ready_of_cordoned remembers programmed cordoned same, ?_⟩
  intro name address publicKey envelope observed active outage known well
  have inventory_eq : after.inventory = before.adopted next := inventory_cycle next
  rw [inventory_eq] at active outage
  exact ready_iff_of_outage remembers (later next successive) active outage known well

end

end Updatedc.HealthProxy

namespace Updatedc.Sample.HealthProxy

open Contracts Updatedc.HealthProxy Updatedc.HealthProxy.Proxy

/-- The one node, named `m`. -/
def node : ResourceName := ⟨"m", isDnsSubdomain_m⟩

def member : BackendInventoryMember := .active node "h" ⟨[1]⟩

def generation : String := "00000000000000000000000000000000"

/-- A shard is spelled by the four bytes of the one report it carries. -/
def decodeShard : Bytes → Except String ShardDocument
  | [name, assignment, flag, time] =>
    .ok { schema := 1, generation, shard := 0,
          reports := table [("m", some ⟨0, envelope name assignment flag time⟩)] }
  | _ => .error "shard"

scoped instance fleetJson : FleetJson where
  index := ⟨fun _ => [], fun _ => .ok ⟨1, generation, 1, none⟩⟩
  shard := ⟨fun _ => [], decodeShard⟩
  stored := ⟨fun _ => [], fun _ => .error "stored"⟩
  envelope := ⟨fun _ => [], fun _ => .error "envelope"⟩
  text := ⟨fun _ => [], fun _ => .error "text"⟩

scoped instance ipParser : IpParser := ⟨fun _ => none⟩

/-- An inventory shard is spelled by its index; the first one carries the member. -/
def decodeInventory : Bytes → Except String BackendInventoryShard
  | [index] =>
    .ok { version := 2, revision := (number []).hex, index := index.toNat, shards := 8,
          members := if index = 0 then [member] else [] }
  | _ => .error "inventory"

scoped instance inventoryJson : InventoryJson where
  members := ⟨fun _ => [], fun _ => .error "members"⟩
  shard := ⟨fun _ => [], decodeInventory⟩

/-- A cycle at this second, with this store. -/
def at_ (second : Nat) (get : String → Option Bytes) : Cycle where
  files index := .ok [UInt8.ofNat index]
  get := get
  began := second * 10 ^ 9
  ended := second * 10 ^ 9
  judgedAt _ := ⟨second * 10 ^ 9, (second + 1) * 1000⟩
  countedAt _ := second * 10 ^ 9
  judged _ := le_rfl
  counted _ := le_rfl
  finished _ := le_rfl

/-- The store with a healthy report stamped at second 61, one minute ahead of the first cycle. -/
def serving (key : String) : Option Bytes :=
  some (if key = fleetIndexObjectKey then [] else [109, 97, 0, 61])

def start : Inventory := ⟨[member], by simp⟩

/-- Half a minute into an outage the node is still in rotation. -/
theorem readiness_justified_outage :
    let after := ((Proxy.start start).run [at_ 0 serving]).cycle (at_ 30 fun _ => none)
    ⟨"m", "h", true⟩ ∈ after.1 := by
  have justified := readiness_justified start [at_ 0 serving] (at_ 30 fun _ => none)
    ⟨Nat.zero_le _, by decide, trivial⟩
  exact (justified.2.2 node "h" ⟨[1]⟩ (envelope 109 97 0 61) 0 (by decide)
    (by decide) (by decide +kernel) (by decide)).mpr (by decide)

/-- **An outage alone drains a node whose report is still fresh**: a report stamped a minute ahead
is fresh for two minutes, and the cache keeps it for one. -/
theorem outage_drains_fresh_report :
    let before := (Proxy.start start).run [at_ 0 serving]
    let outage := at_ 61 fun _ => none
    Successive 0 [at_ 0 serving, outage] ∧
      (.active node "h" ⟨[1]⟩ ∈ (before.cycle outage).2.inventory.members) ∧
      (⟨"m", "h", true⟩ ∈ ((Proxy.start start).cycle (at_ 0 serving)).1) ∧
      lastObserved (Proxy.start start) (fun _ => none) [at_ 0 serving] "m" =
        some (envelope 109 97 0 61, 0) ∧
      reportIsReady "m" ⟨[1]⟩ (envelope 109 97 0 61) (outage.judgedAt "m").wallMs = true ∧
      (before.cycle outage).1 = [⟨"m", "h", false⟩] := by
  refine ⟨⟨Nat.zero_le _, by decide, trivial⟩, by decide, by decide +kernel,
    by decide +kernel, by decide, by decide +kernel⟩

end Updatedc.Sample.HealthProxy
