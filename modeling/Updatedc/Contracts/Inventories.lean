import Updatedc.Contracts.Backend
import Updatedc.Crates

/-!
# Projecting an inventory and joining it again (`updated-contracts/src/backend.rs`)

The controller cuts a member list into a fixed number of shards (`shardBackendInventory`); a reader
sees them as files that are replaced one by one, so that what it reads may be a **mixture of
several projections**. Every shard repeats the digest of the whole list it was cut from, and joining
compares the digest of what was joined with it: a mixture is accepted only where it is one of the
lists (`mixture_is_one`).
-/

namespace Updatedc.Contracts

/-! ## Sharding -/

/-- `members.get(start..stop)`, or nothing where that is no range. -/
def sliceOf {α : Type} (members : List α) (start stop : Nat) : List α :=
  if start ≤ stop then (members.take stop).drop start else []

/-- How many members one shard holds. -/
def chunkSize (members : List BackendInventoryMember) : Nat :=
  max ((members.length + backendInventoryShards - 1) / backendInventoryShards) 1

section
variable [Crypto] [InventoryJson]

/-- The shard with this index. -/
def shardAt (members : List BackendInventoryMember) (index : Nat) : BackendInventoryShard where
  version := backendInventorySchema
  revision := backendInventoryRevision members
  index
  shards := backendInventoryShards
  members := sliceOf members (index * chunkSize members)
    (min ((index + 1) * chunkSize members) members.length)

def checkShardSize (shard : BackendInventoryShard) : Except String Unit :=
  let size := (Json.toVec shard).length
  if size > backendInventoryShardMaxBytes then
    .error (s!"the fixed {backendInventoryShards}-shard inventory cannot hold this fleet: shard " ++
      s!"{shard.index} is {size} bytes, over the {backendInventoryShardMaxBytes}-byte safe " ++
      "ConfigMap ceiling")
  else .ok ()

/-- Split one sorted inventory across the fixed projection. -/
def shardBackendInventory [IpParser] (members : List BackendInventoryMember) :
    Except String (List BackendInventoryShard) := do
  validateBackendInventoryMembers members
  let shards := (List.range backendInventoryShards).map (shardAt members)
  shards.forM checkShardSize
  return shards

theorem shardBackendInventory_ok [IpParser] {members : List BackendInventoryMember}
    {shards : List BackendInventoryShard} (ok : shardBackendInventory members = .ok shards) :
    validateBackendInventoryMembers members = .ok () ∧
      shards = (List.range backendInventoryShards).map (shardAt members) := by
  obtain ⟨⟨⟩, valid, ok⟩ := Except.bind_ok_iff.mp ok
  obtain ⟨_, -, ok⟩ := Except.bind_ok_iff.mp ok
  cases ok
  exact ⟨valid, rfl⟩

end

/-! ## The shards together -/

/-- A slice up to the end of the list. -/
theorem sliceOf_min {α : Type} (members : List α) (start size : Nat) :
    sliceOf members start (min (start + size) members.length) =
      (members.drop start).take size := by
  unfold sliceOf
  split_ifs with range
  · have same : min (start + size) members.length - start =
        min size (members.drop start).length := by
      rw [List.length_drop]
      omega
    rw [List.drop_take, same, ← List.take_eq_take_min]
  · rw [List.drop_eq_nil_of_le (by omega), List.take_nil]

/-- Consecutive slices are the front of the list. -/
theorem flatMap_slices {α : Type} (members : List α) (size count : Nat) :
    (List.range count).flatMap (fun index => sliceOf members (index * size)
      (min ((index + 1) * size) members.length)) = members.take (count * size) := by
  induction count with
  | zero => simp
  | succ count ih =>
    rw [List.range_succ, List.flatMap_append, ih, List.flatMap_singleton, Nat.succ_mul, sliceOf_min,
      List.take_add]

theorem length_le_chunks (members : List BackendInventoryMember) :
    members.length ≤ backendInventoryShards * chunkSize members := by
  unfold chunkSize backendInventoryShards
  omega

section
variable [Crypto] [InventoryJson]

/-- **The shards carry the whole list.** -/
theorem flatMap_shardAt (members : List BackendInventoryMember) :
    ((List.range backendInventoryShards).map (shardAt members)).flatMap (·.members) = members := by
  rw [List.flatMap_map]
  exact (flatMap_slices members (chunkSize members) backendInventoryShards).trans
    (List.take_of_length_le (length_le_chunks members))

/-- Sorting puts the shards of one list back in order. -/
theorem insertionSort_shardAt {members : List BackendInventoryMember}
    {observed : List BackendInventoryShard}
    (shuffled : observed.Perm ((List.range backendInventoryShards).map (shardAt members))) :
    observed.insertionSort (fun a b => a.index ≤ b.index) =
      (List.range backendInventoryShards).map (shardAt members) := by
  have : Std.Total fun a b : BackendInventoryShard => a.index ≤ b.index :=
    ⟨fun a b => Nat.le_total a.index b.index⟩
  have : IsTrans BackendInventoryShard fun a b => a.index ≤ b.index :=
    ⟨fun _ _ _ => Nat.le_trans⟩
  have sorted := List.pairwise_insertionSort (fun a b => a.index ≤ b.index) observed
  have same := (List.perm_insertionSort (fun a b => a.index ≤ b.index) observed).trans shuffled
  refine List.Perm.eq_of_pairwise ?_ sorted ?_ same
  · intro a b first second below above
    obtain ⟨i, -, rfl⟩ := List.mem_map.mp (same.mem_iff.mp first)
    obtain ⟨j, -, rfl⟩ := List.mem_map.mp second
    exact congrArg (shardAt members) (Nat.le_antisymm below above)
  · exact List.pairwise_map.mpr (List.pairwise_lt_range.imp Nat.le_of_lt)

/-- **Joining the shards of a list in any order gives the list back.** -/
theorem assemble_shards [IpParser] {members : List BackendInventoryMember}
    {shards observed : List BackendInventoryShard}
    (ok : shardBackendInventory members = .ok shards) (shuffled : observed.Perm shards) :
    (assembleBackendInventory observed).map (·.members) = .ok members := by
  obtain ⟨valid, rfl⟩ := shardBackendInventory_ok ok
  have size : observed.length = backendInventoryShards := by
    rw [shuffled.length_eq, List.length_map, List.length_range]
  have complete : ((List.range backendInventoryShards).map (shardAt members)).zipIdx.any
      (fun entry => entry.1.version ≠ backendInventorySchema || entry.1.index ≠ entry.2
        || entry.1.shards ≠ backendInventoryShards
        || entry.1.revision ≠ backendInventoryRevision members) = false := by
    rw [List.any_eq_false]
    rintro ⟨shard, index⟩ listed
    rw [List.mem_zipIdx_iff_getElem?, List.getElem?_map] at listed
    obtain ⟨i, there, rfl⟩ := Option.map_eq_some_iff.mp listed
    obtain ⟨bound, same⟩ := List.getElem?_eq_some_iff.mp there
    rw [List.getElem_range] at same
    have same : index = i := same
    subst same
    simp [shardAt]
  unfold assembleBackendInventory
  rw [if_neg (not_not.mpr size), insertionSort_shardAt shuffled]
  dsimp only
  have head : ((((List.range backendInventoryShards).map (shardAt members)).head?.map
      (·.revision)).getD default) = backendInventoryRevision members := rfl
  rw [head, complete, if_neg Bool.false_ne_true, if_neg (by rw [flatMap_shardAt]; simp)]
  split
  · rename_i error refused
    rw [flatMap_shardAt, valid] at refused
    cases refused
  · exact congrArg Except.ok (flatMap_shardAt members)

end

/-! ## Mixtures -/

/-- The spelling of a digest determines it. -/
theorem Sha256.hex_injective : Function.Injective Sha256.hex := by
  intro a b same
  have digit_injective : ∀ m < 16, ∀ n < 16,
      Char.ofNat (if m < 10 then 48 + m else 87 + m) =
        Char.ofNat (if n < 10 then 48 + n else 87 + n) → m = n := by
    decide
  -- The digits agree one by one, and each is four bits.
  have digits : ∀ i < 64, a.toNat >>> (4 * (63 - i)) % 16 = b.toNat >>> (4 * (63 - i)) % 16 := by
    intro i bound
    have lists := String.ofList_injective same
    have here := List.map_inj_left.mp lists i (List.mem_range.mpr bound)
    exact digit_injective _ (Nat.mod_lt _ (by decide)) _ (Nat.mod_lt _ (by decide)) here
  refine BitVec.eq_of_getLsbD_eq fun j bound => ?_
  have nibble := digits (63 - j / 4) (by omega)
  rw [show 63 - (63 - j / 4) = j / 4 by omega] at nibble
  have bit := congrArg (Nat.testBit · (j % 4)) nibble
  have place : 4 * (j / 4) + j % 4 = j := Nat.div_add_mod j 4
  have within : j % 4 < 4 := Nat.mod_lt _ (by decide)
  simp only [show 16 = 2 ^ 4 from rfl, Nat.testBit_mod_two_pow, within, decide_true, Bool.true_and,
    Nat.testBit_shiftRight, place] at bit
  exact bit

section
variable [Crypto] [InventoryJson] [IpParser]

/-- What was joined has the digest that every one of the shards repeats. -/
theorem revision_of_assemble {observed : List BackendInventoryShard} {result : Inventory}
    (ok : assembleBackendInventory observed = .ok result) :
    ∃ shard ∈ observed, shard.revision = backendInventoryRevision result.members := by
  unfold assembleBackendInventory at ok
  split at ok
  · cases ok
  rename_i size
  dsimp only at ok
  split_ifs at ok with incomplete altered
  split at ok
  · cases ok
  cases ok
  rw [not_not] at size altered
  obtain ⟨first, rest, sorted⟩ : ∃ first rest,
      observed.insertionSort (fun a b => a.index ≤ b.index) = first :: rest := by
    refine List.exists_cons_of_length_pos ?_
    rw [List.length_insertionSort, size]
    decide
  refine ⟨first, (List.mem_insertionSort (fun a b => a.index ≤ b.index)).mp ?_, ?_⟩
  · rw [sorted]
    exact List.mem_cons_self
  · rw [altered, sorted]
    rfl

/-- These shards were cut from this list. -/
def CutFrom (members : List BackendInventoryMember) (shard : BackendInventoryShard) : Prop :=
  ∃ shards, shardBackendInventory members = .ok shards ∧ shard ∈ shards

/-- **Inventories cannot be mixed**: the shards of a list, joined in any order, give it back; and
shards cut from any lists of a family join only to one of these lists, short of a collision between
what was joined and one of them. -/
theorem mixture_is_one :
    (∀ {members : List BackendInventoryMember} {shards observed : List BackendInventoryShard},
      shardBackendInventory members = .ok shards → observed.Perm shards →
        (assembleBackendInventory observed).map (·.members) = .ok members) ∧
    ∀ {family : Set (List BackendInventoryMember)} {observed : List BackendInventoryShard}
      {result : Inventory},
      (∀ shard ∈ observed, ∃ members ∈ family, CutFrom members shard) →
      (∀ members ∈ family, sha256 (Json.toVec result.members) = sha256 (Json.toVec members) →
        Json.toVec result.members = Json.toVec members) →
      (∀ members ∈ family, Json.toVec result.members = Json.toVec members →
        result.members = members) →
      assembleBackendInventory observed = .ok result → result.members ∈ family := by
  refine ⟨assemble_shards, fun cut collisionFree injective ok => ?_⟩
  obtain ⟨shard, listed, revision⟩ := revision_of_assemble ok
  obtain ⟨members, known, shards, sharded, member⟩ := cut shard listed
  obtain ⟨-, rfl⟩ := shardBackendInventory_ok sharded
  obtain ⟨index, -, rfl⟩ := List.mem_map.mp member
  have digests := Sha256.hex_injective (revision.symm : _ = backendInventoryRevision members)
  rw [injective members known (collisionFree members known digests)]
  exact known

end

end Updatedc.Contracts

namespace Updatedc.Contracts.Sample.Inventories

open Updatedc.Sample

scoped instance ipParser : IpParser := ⟨fun _ => none⟩

/-- A list is spelled by its length. -/
scoped instance inventoryJson : InventoryJson where
  members := ⟨fun members => [UInt8.ofNat members.length], fun _ => .error "members"⟩
  shard := ⟨fun _ => [], fun _ => .error "shard"⟩

/-- One node, drained. -/
def drained : List BackendInventoryMember := [.cordoned ⟨"m", isDnsSubdomain_m⟩]

theorem sharded : shardBackendInventory drained =
    .ok ((List.range backendInventoryShards).map (shardAt drained)) := by
  decide

/-- A reader that may see shards of the empty inventory and of this one, and sees those of this
one. -/
theorem mixture_is_one_drained :
    ∃ result, assembleBackendInventory
        ((List.range backendInventoryShards).map (shardAt drained)).reverse = .ok result ∧
      result.members ∈ ({[], drained} : Set (List BackendInventoryMember)) := by
  have joined := mixture_is_one.1 sharded (List.reverse_perm _)
  obtain ⟨result, ok, same⟩ := Except.map_ok_iff.mp joined
  refine ⟨result, ok, mixture_is_one.2 (fun shard listed => ?_) ?_ ?_ ok⟩
  · exact ⟨drained, .inr rfl, _, sharded, List.mem_reverse.mp listed⟩
  · rintro members (rfl | rfl) digests
    · rw [same] at digests
      exact absurd digests (by decide)
    · rw [same]
  · rintro members (rfl | rfl) bytes
    · rw [same] at bytes
      exact absurd bytes (by decide)
    · exact same

end Updatedc.Contracts.Sample.Inventories
