import Updatedc.Contracts.Telemetry
import Updatedc.Lib.Except

/-!
# The backend inventory (`updated-contracts/src/backend.rs`)

Which nodes a load balancer may route to, and which of them are cordoned. The controller projects
one sorted member list over a fixed number of shards, each of which repeats the digest of the whole
list; `assembleBackendInventory` is the only way back. An `Inventory` is a list that passed it, and
carries the proof that **every node occurs in it once** (`Inventory.ordered`): no node is both
active and cordoned.
-/

namespace Updatedc.Contracts

def backendInventorySchema : Nat := 2

def backendInventoryShards : Nat := 8

def backendInventoryShardMaxBytes : Nat := 900 * 1024

def maxBackendInventoryMembers : Nat := 10000

/-! ## Members -/

inductive BackendInventoryMember where
  | active (node : ResourceName) (address : String) (publicKey : P256PublicKey)
  /-- Only the identity that must be drained. -/
  | cordoned (node : ResourceName)
  deriving DecidableEq

namespace BackendInventoryMember

def node : BackendInventoryMember → String
  | active node _ _ | cordoned node => node.asStr

def isCordoned : BackendInventoryMember → Bool
  | active .. => false
  | cordoned _ => true

end BackendInventoryMember

/-- `std::net::IpAddr`: parse a literal, printed back in its canonical form. -/
class IpParser where
  parse : String → Option String

/-- A letter or digit of ASCII. -/
def isAsciiAlphanumeric (c : Char) : Bool :=
  ('a' ≤ c && c ≤ 'z') || ('A' ≤ c && c ≤ 'Z') || ('0' ≤ c && c ≤ '9')

def isHostLabel (label : List Char) : Bool :=
  match label with
  | [] => false
  | first :: rest =>
    label.length ≤ 63
      && label.all (fun c => isAsciiAlphanumeric c || c == '-')
      && isAsciiAlphanumeric first
      && isAsciiAlphanumeric (rest.getLastD first)

/-- Validate and normalize an agent backend host: a bare IP address, or a DNS name without its
final dot. -/
def routableHost [IpParser] (address : String) : Option String :=
  match IpParser.parse address with
  | some ip => some ip
  | none =>
    if address.toList.any fun c => c == ':' || c == '[' || c == ']' then none
    else
      let host :=
        match address.toList.reverse with
        | '.' :: kept => kept.reverse
        | _ => address.toList
      if host != [] && (String.ofList host).utf8ByteSize ≤ 253
          && (host.splitOn '.').all isHostLabel
          -- An invalid IP literal is not a hostname either.
          && !(host.all fun c => ('0' ≤ c && c ≤ '9') || c == '.') then
        some (String.ofList host)
      else none

/-- Unicode's `White_Space`, as `char::is_whitespace`. -/
def isWhitespace (c : Char) : Bool :=
  (0x9 ≤ c.val && c.val ≤ 0xd) || c.val == 0x20 || c.val == 0x85 || c.val == 0xa0
    || c.val == 0x1680 || (0x2000 ≤ c.val && c.val ≤ 0x200a) || c.val == 0x2028
    || c.val == 0x2029 || c.val == 0x202f || c.val == 0x205f || c.val == 0x3000

/-- Whether a name can be written into one balancer command verbatim. -/
def isBalancerSafe (name : String) : Bool :=
  !name.isEmpty && !(name.toList.any fun c => c == ';' || isWhitespace c)

/-- Revalidate a deserialized entry. -/
def BackendInventoryMember.validate [IpParser] (self : BackendInventoryMember) :
    Except String BackendInventoryMember :=
  if !isBalancerSafe self.node then
    .error s!"inventory member has invalid node identity {repr self.node}"
  else
    match self with
    | cordoned _ => .ok self
    | active node address _ =>
      match routableHost address with
      | none =>
        .error s!"inventory member {repr node.asStr} has unroutable address {repr address}"
      | some canonical =>
        if canonical ≠ address then
          .error (s!"inventory member {repr node.asStr} address {repr address} is not canonical; "
            ++ s!"use {repr canonical}")
        else .ok self

/-! ## The projection -/

structure BackendInventoryShard where
  version : Nat
  revision : String
  index : Nat
  shards : Nat
  members : List BackendInventoryMember
  deriving DecidableEq

/-- `serde_json` for the inventory. -/
class InventoryJson where
  members : Json (List BackendInventoryMember)
  shard : Json BackendInventoryShard

attribute [reducible, instance] InventoryJson.members InventoryJson.shard

/-- The full-set digest every shard repeats. -/
def backendInventoryRevision [Crypto] [InventoryJson] (members : List BackendInventoryMember) :
    String :=
  (sha256 (Json.toVec members)).hex

/-- Walk the members in order; every one is valid and follows its predecessor. -/
def validateOrder [IpParser] : Option String → List BackendInventoryMember → Except String Unit
  | _, [] => .ok ()
  | previous, member :: rest => do
    let _ ← member.validate
    if previous.any fun prior => !(prior < member.node) then
      throw ("inventory members must be strictly ordered by node identity; "
        ++ s!"{repr member.node} follows {repr (previous.getD default)}")
    validateOrder (some member.node) rest

def validateBackendInventoryMembers [IpParser] (members : List BackendInventoryMember) :
    Except String Unit :=
  if members.length > maxBackendInventoryMembers then
    .error (s!"inventory has {members.length} members, over the admitted fleet limit of "
      ++ s!"{maxBackendInventoryMembers}")
  else validateOrder none members

theorem validateOrder_ok [IpParser] {previous : Option String}
    {members : List BackendInventoryMember} (ok : validateOrder previous members = .ok ()) :
    (members.Pairwise fun a b => a.node < b.node) ∧
      ∀ prior, previous = some prior → ∀ member ∈ members, prior < member.node := by
  induction members generalizing previous with
  | nil => exact ⟨.nil, fun _ _ _ member => nomatch member⟩
  | cons member rest ih =>
    obtain ⟨_, -, ok⟩ := Except.bind_ok_iff.mp ok
    split at ok
    · cases ok
    · next follows =>
      obtain ⟨ordered, later⟩ := ih ok
      have above := later member.node rfl
      refine ⟨List.pairwise_cons.mpr ⟨above, ordered⟩, fun prior known other listed => ?_⟩
      have here : prior < member.node := by simpa [known] using follows
      rcases List.mem_cons.mp listed with rfl | listed
      · exact here
      · exact String.lt_trans here (above other listed)

theorem ordered_of_validate [IpParser] {members : List BackendInventoryMember}
    (ok : validateBackendInventoryMembers members = .ok ()) :
    members.Pairwise fun a b => a.node < b.node := by
  unfold validateBackendInventoryMembers at ok
  split at ok
  · cases ok
  · exact (validateOrder_ok ok).1

/-- A member list that passed the gate. -/
structure Inventory where
  members : List BackendInventoryMember
  ordered : members.Pairwise fun a b => a.node < b.node

/-- Two entries of one node are the same entry. -/
theorem Inventory.unique (self : Inventory) {a b : BackendInventoryMember}
    (first : a ∈ self.members)
    (second : b ∈ self.members) (same : a.node = b.node) : a = b := by
  have distinct : (self.members.map BackendInventoryMember.node).Nodup :=
    List.pairwise_map.mpr (self.ordered.imp fun before => String.ne_of_lt before)
  exact List.inj_on_of_nodup_map distinct first second same

/-- Validate and join an observed projection. -/
def assembleBackendInventory [Crypto] [IpParser] [InventoryJson]
    (shards : List BackendInventoryShard) : Except String Inventory :=
  if shards.length ≠ backendInventoryShards then
    .error s!"inventory has {shards.length} shards, expected {backendInventoryShards}"
  else
    let sorted := shards.insertionSort fun a b => a.index ≤ b.index
    let revision := (sorted.head?.map (·.revision)).getD default
    if sorted.zipIdx.any fun (shard, index) =>
        shard.version ≠ backendInventorySchema || shard.index ≠ index
          || shard.shards ≠ backendInventoryShards || shard.revision ≠ revision then
      .error "inventory shards do not describe one complete revision"
    else
      let members := sorted.flatMap (·.members)
      if backendInventoryRevision members ≠ revision then
        .error "inventory revision does not match its members"
      else
        match checked : validateBackendInventoryMembers members with
        | .error error => .error error
        | .ok _ => .ok ⟨members, ordered_of_validate checked⟩

end Updatedc.Contracts
