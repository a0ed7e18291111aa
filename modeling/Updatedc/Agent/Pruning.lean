import Updatedc.Lib.Except
import Updatedc.Agent.Records

/-!
# Retention of release directories (`updated/src/gc.rs`)

`prune_releases` removes the oldest release directories until the inactive ones meet a count and a
byte limit. Protected names are never removed: the active release, and the predecessors a rollback
may need. The predecessors are inactive releases too, and **the count limit is reduced by their
number before the loop, but the byte limit is not reduced by their bytes**.

What is removed is the shortest prefix of the unprotected directories, oldest first, whose removal
leaves the rest within the limits (`pruneLoop_spec`). From that follows what always holds of the
result, and exactly when the retained releases meet both limits with the predecessors included.
-/

namespace Updatedc.Agent.Pruning

open Contracts

/-! ## Directories -/

/-- What a directory holds: another directory, or anything else (`symlink_metadata` does not follow
links). The modification time of a directory, in seconds from the epoch, may be unreadable. -/
inductive Node where
  | leaf (name : String) (len : Nat)
  | directory (name : String) (modified : Option Int) (children : List Node)

def Node.name : Node → String
  | leaf name _ => name
  | directory name _ _ => name

def Node.isDirectory : Node → Bool
  | leaf .. => false
  | directory .. => true

/-- `metadata.modified().unwrap_or(UNIX_EPOCH)`. -/
def Node.modified : Node → Int
  | leaf .. => 0
  | directory _ modified _ => modified.getD 0

/-- `u64::MAX`. -/
def u64Max : Nat := 2 ^ 64 - 1

def saturatingAdd (a b : Nat) : Nat := min (a + b) u64Max

mutual

/-- The running total of `tree_bytes` after one entry. -/
def addTree (total : Nat) : Node → Nat
  | .leaf _ len => saturatingAdd total len
  | .directory _ _ children => addTrees total children

def addTrees (total : Nat) : List Node → Nat
  | [] => total
  | child :: rest => addTrees (addTree total child) rest

end

def treeBytes (node : Node) : Nat := addTree 0 node

def saturatingSum (values : List Nat) : Nat := values.foldl saturatingAdd 0

mutual

/-- The bytes below an entry. -/
def Node.size : Node → Nat
  | .leaf _ len => len
  | .directory _ _ children => sizes children

def sizes : List Node → Nat
  | [] => 0
  | child :: rest => child.size + sizes rest

end

/-- The releases directory: each name once. -/
structure Directory where
  children : List Node
  distinct : (children.map Node.name).Nodup

/-- What the garbage-collection root is. -/
inductive Root where
  | missing
  | other
  | directory (directory : Directory)

/-! ## Pruning -/

/-- What the operating system refuses: reading the tree, or removing an entry. -/
structure Faults where
  reading : Option IoError := none
  removing : String → Option IoError := fun _ => none

/-- The loop: the entries it removes, oldest first, and whether it ended well. -/
def pruneLoop (faults : Faults) (maxInactive maxInactiveBytes : Nat) :
    List Node → (count bytes : Nat) → List Node × IoResult Unit
  | [], _, _ => ([], .ok ())
  | entry :: rest, count, bytes =>
    if count ≤ maxInactive ∧ bytes ≤ maxInactiveBytes then ([], .ok ())
    else
      match faults.removing entry.name with
      | some error => ([], .error error)
      | none =>
        let removal := pruneLoop faults maxInactive maxInactiveBytes rest (count - 1)
          (bytes - treeBytes entry)
        (entry :: removal.1, removal.2)

variable (children : List Node)

/-- The directories no name protects, oldest first. -/
def prunable (protectedNames : Finset String) : List Node :=
  (children.filter fun child => child.name ∉ protectedNames && child.isDirectory).insertionSort
    fun a b => a.modified ≤ b.modified

/-- The entries that are removed, and the number that is returned. -/
def pruneDirectories (faults : Faults) (root : Root) (protectedNames : Finset String)
    (maxInactive maxInactiveBytes : Nat) : List Node × IoResult Nat :=
  match root with
  | .missing => ([], .ok 0)
  | .other => ([], .error (.invalidData "garbage-collection root is not a real directory"))
  | .directory directory =>
    match faults.reading with
    | some error => ([], .error error)
    | none =>
      let entries := prunable directory.children protectedNames
      let removal := pruneLoop faults maxInactive maxInactiveBytes entries entries.length
        (saturatingSum (entries.map treeBytes))
      (removal.1, removal.2.map fun _ => removal.1.length)

def directoryName (release : ReleaseId) : String :=
  release.version ++ "-" ++ release.manifestSha256.text

def protectedNames (releases : List ReleaseId) : Finset String :=
  (releases.map directoryName).toFinset

/-- The first protected release is the active one. -/
def pruneReleases (faults : Faults) (root : Root) (releases : List ReleaseId)
    (maxInactive maxInactiveBytes : Nat) : List Node × IoResult Nat :=
  let protectedInactive := (protectedNames releases).card - 1
  pruneDirectories faults root (protectedNames releases) (maxInactive - protectedInactive)
    maxInactiveBytes

/-! ## Sizes -/

theorem saturatingAdd_assoc (a b c : Nat) :
    saturatingAdd (saturatingAdd a b) c = saturatingAdd a (b + c) := by
  unfold saturatingAdd
  omega

mutual

theorem addTree_eq (total : Nat) (bound : total ≤ u64Max) :
    ∀ node : Node, addTree total node = saturatingAdd total node.size
  | .leaf _ len => by rw [addTree, Node.size]
  | .directory _ _ children => by rw [addTree, Node.size, addTrees_eq total bound children]

theorem addTrees_eq (total : Nat) (bound : total ≤ u64Max) :
    ∀ nodes : List Node, addTrees total nodes = saturatingAdd total (sizes nodes)
  | [] => by
    rw [addTrees, sizes]
    unfold saturatingAdd
    omega
  | child :: rest => by
    have small : saturatingAdd total child.size ≤ u64Max := Nat.min_le_right _ _
    rw [addTrees, sizes, addTree_eq total bound child, addTrees_eq _ small rest,
      saturatingAdd_assoc]

end

theorem treeBytes_eq (node : Node) (fits : node.size ≤ u64Max) : treeBytes node = node.size := by
  rw [treeBytes, addTree_eq 0 (Nat.zero_le _), saturatingAdd]
  omega

theorem sizes_eq_sum (nodes : List Node) : sizes nodes = (nodes.map Node.size).sum := by
  induction nodes with
  | nil => rfl
  | cons node rest ih => rw [sizes, ih, List.map_cons, List.sum_cons]

theorem size_le_sizes {nodes : List Node} {node : Node} (mem : node ∈ nodes) :
    node.size ≤ sizes nodes := by
  rw [sizes_eq_sum]
  exact List.le_sum_of_mem (List.mem_map.mpr ⟨node, mem, rfl⟩)

theorem sizes_append (a b : List Node) : sizes (a ++ b) = sizes a + sizes b := by
  simp [sizes_eq_sum]

theorem sizes_perm {a b : List Node} (perm : a.Perm b) : sizes a = sizes b := by
  rw [sizes_eq_sum, sizes_eq_sum]
  exact (perm.map Node.size).sum_eq

theorem saturatingSum_eq {values : List Nat} (fits : values.sum ≤ u64Max) :
    saturatingSum values = values.sum := by
  have total : ∀ (values : List Nat) (start : Nat), start + values.sum ≤ u64Max →
      values.foldl saturatingAdd start = start + values.sum := by
    intro values
    induction values with
    | nil => intro start _; rfl
    | cons value rest ih =>
      intro start bound
      rw [List.sum_cons] at bound
      have exact_sum : saturatingAdd start value = start + value := by
        unfold saturatingAdd
        omega
      rw [List.foldl_cons, exact_sum, ih _ (by omega), List.sum_cons]
      omega
  rw [saturatingSum, total values 0 (by omega)]
  omega

theorem saturatingSum_treeBytes {nodes : List Node} (fits : sizes nodes ≤ u64Max) :
    saturatingSum (nodes.map treeBytes) = sizes nodes := by
  have same : nodes.map treeBytes = nodes.map Node.size :=
    List.map_congr_left fun node mem => treeBytes_eq node ((size_le_sizes mem).trans fits)
  rw [same, saturatingSum_eq, sizes_eq_sum]
  rwa [← sizes_eq_sum]

/-! ## The loop -/

/-- These directories are within the limits. -/
def Fits (maxInactive maxInactiveBytes : Nat) (kept : List Node) : Prop :=
  kept.length ≤ maxInactive ∧ sizes kept ≤ maxInactiveBytes

instance (maxInactive maxInactiveBytes : Nat) (kept : List Node) :
    Decidable (Fits maxInactive maxInactiveBytes kept) :=
  inferInstanceAs (Decidable (_ ∧ _))

/-- **The loop removes the shortest prefix whose removal leaves the rest within the limits.** -/
theorem pruneLoop_spec {faults : Faults} {maxInactive maxInactiveBytes : Nat}
    {entries removed : List Node} (fits : sizes entries ≤ u64Max)
    (ended : pruneLoop faults maxInactive maxInactiveBytes entries entries.length (sizes entries) =
      (removed, .ok ())) :
    ∃ kept, entries = removed ++ kept ∧ Fits maxInactive maxInactiveBytes kept ∧
      ∀ suffix, suffix <:+ entries → Fits maxInactive maxInactiveBytes suffix →
        suffix.length ≤ kept.length := by
  induction entries generalizing removed with
  | nil =>
    cases ended
    refine ⟨[], rfl, ⟨Nat.zero_le _, Nat.zero_le _⟩, fun suffix tail _ => ?_⟩
    exact tail.length_le
  | cons entry rest ih =>
    rw [pruneLoop] at ended
    split at ended
    · next within =>
      cases ended
      exact ⟨entry :: rest, rfl, within, fun suffix tail _ => tail.length_le⟩
    · next beyond =>
      rw [sizes] at fits
      split at ended
      · cases ended
      · have counted : (entry :: rest).length - 1 = rest.length := rfl
        have weighed : sizes (entry :: rest) - treeBytes entry = sizes rest := by
          rw [treeBytes_eq entry (by omega), sizes]
          omega
        rw [counted, weighed] at ended
        obtain ⟨later, outcome⟩ := Prod.mk.inj ended
        obtain ⟨kept, parts, within, longest⟩ := ih (by omega) (Prod.ext rfl outcome)
        refine ⟨kept, ?_, within, fun suffix tail fitting => ?_⟩
        · rw [← later, List.cons_append, ← parts]
        · rcases List.suffix_cons_iff.mp tail with whole | inRest
          · exact absurd (whole ▸ fitting) beyond
          · exact longest suffix inRest fitting

/-! ## What is left -/

section Retention

variable {faults : Faults} {directory : Directory} {active : ReleaseId}
  {predecessors : List ReleaseId} {maxInactive maxInactiveBytes : Nat} {removed : List Node}

/-- The entries that stay. -/
def remaining (directory : Directory) (removed : List Node) : List Node :=
  directory.children.filter fun child => child.name ∉ removed.map Node.name

/-- The release directories other than the active one. -/
def inactiveReleases (active : ReleaseId) (children : List Node) : List Node :=
  children.filter fun child => child.isDirectory && child.name != directoryName active

/-- The protected ones among them. -/
def retainedPredecessors (active : ReleaseId) (predecessors : List ReleaseId)
    (children : List Node) : List Node :=
  (inactiveReleases active children).filter fun child =>
    child.name ∈ protectedNames (active :: predecessors)

/-- The inactive releases meet both limits, unless all of them are protected. -/
def WithinLimits (releases : List ReleaseId) (maxInactive maxInactiveBytes : Nat)
    (inactive : List Node) : Prop :=
  Fits maxInactive maxInactiveBytes inactive ∨
    ∀ release ∈ inactive, release.name ∈ protectedNames releases

instance (releases : List ReleaseId) (maxInactive maxInactiveBytes : Nat) (inactive : List Node) :
    Decidable (WithinLimits releases maxInactive maxInactiveBytes inactive) :=
  inferInstanceAs (Decidable (_ ∨ _))

/-- However many of the newest unprotected releases the loop may keep, the predecessors fit
beside them. -/
def PredecessorsFit (active : ReleaseId) (predecessors : List ReleaseId)
    (maxInactive maxInactiveBytes : Nat) (children : List Node) : Prop :=
  let names := protectedNames (active :: predecessors)
  ∀ newest, newest <:+ prunable children names → newest ≠ [] →
    Fits (maxInactive - (names.card - 1)) maxInactiveBytes newest →
    sizes (retainedPredecessors active predecessors children) + sizes newest ≤ maxInactiveBytes

theorem prunable_perm (names : Finset String) :
    (prunable children names).Perm
      (children.filter fun child => child.name ∉ names && child.isDirectory) :=
  List.perm_insertionSort _ _

theorem mem_prunable {children : List Node} {names : Finset String} {child : Node} :
    child ∈ prunable children names ↔
      child ∈ children ∧ child.name ∉ names ∧ child.isDirectory = true := by
  rw [(prunable_perm children names).mem_iff]
  simp

theorem sizes_filter_le (keep : Node → Bool) : sizes (children.filter keep) ≤ sizes children := by
  have parts := sizes_perm (List.filter_append_perm keep children)
  rw [sizes_append] at parts
  omega

theorem directoryName_active_mem :
    directoryName active ∈ protectedNames (active :: predecessors) := by
  simp [protectedNames]

/-- A prefix of the unprotected directories is no protected entry and nothing but directories. -/
theorem mem_remaining_of_kept {kept : List Node}
    (parts : prunable directory.children (protectedNames (active :: predecessors)) =
      removed ++ kept) {child : Node} (mem : child ∈ directory.children)
    (keeps : child.name ∈ protectedNames (active :: predecessors) ∨ child.isDirectory = false) :
    child ∈ remaining directory removed := by
  refine List.mem_filter.mpr ⟨mem, decide_eq_true fun named => ?_⟩
  obtain ⟨other, otherRemoved, same⟩ := List.mem_map.mp named
  obtain ⟨otherMem, free, isDir⟩ := mem_prunable.mp
    (parts ▸ List.mem_append_left kept otherRemoved)
  have equal : other = child := List.inj_on_of_nodup_map directory.distinct otherMem mem same
  subst equal
  rcases keeps with held | notDir
  · exact free held
  · rw [isDir] at notDir
    cases notDir

/-- **What stays inactive is the predecessors and what the loop kept.** -/
theorem inactive_perm {kept : List Node}
    (parts : prunable directory.children (protectedNames (active :: predecessors)) =
      removed ++ kept) :
    (inactiveReleases active (remaining directory removed)).Perm
      (retainedPredecessors active predecessors directory.children ++ kept) := by
  let names := protectedNames (active :: predecessors)
  have split := List.filter_append_perm (fun child : Node => decide (child.name ∈ names))
    (inactiveReleases active (remaining directory removed))
  refine split.symm.trans (List.Perm.append ?_ ?_)
  · -- No protected entry was removed.
    refine List.Perm.of_eq ?_
    unfold retainedPredecessors inactiveReleases remaining
    simp only [List.filter_filter]
    refine List.filter_congr fun child mem => ?_
    by_cases held : child.name ∈ names
    · have stays := (List.mem_filter.mp
        (mem_remaining_of_kept parts mem (.inl held) : child ∈ remaining directory removed)).2
      simp only [decide_eq_true_eq] at stays
      simp [held, stays, names]
    · simp [held, names]
  · -- Of the unprotected directories, those not removed are the kept ones.
    have order := prunable_perm directory.children names
    have chosen := order.filter fun child => decide (child.name ∉ removed.map Node.name)
    have listNames : ((removed ++ kept).map Node.name).Nodup := by
      rw [← parts]
      refine ((order.map Node.name).nodup_iff).mpr ?_
      exact directory.distinct.sublist (List.filter_sublist.map _)
    have filtered : (removed ++ kept).filter
        (fun child => decide (child.name ∉ removed.map Node.name)) = kept := by
      rw [List.filter_append]
      have none_removed : removed.filter
          (fun child => decide (child.name ∉ removed.map Node.name)) = [] := by
        refine List.filter_eq_nil_iff.mpr fun child mem => ?_
        simpa using ⟨child, mem, rfl⟩
      have all_kept : kept.filter
          (fun child => decide (child.name ∉ removed.map Node.name)) = kept := by
        refine List.filter_eq_self.mpr fun child mem => decide_eq_true fun named => ?_
        rw [List.map_append] at listNames
        exact (List.disjoint_of_nodup_append listNames) named (List.mem_map.mpr ⟨child, mem, rfl⟩)
      rw [none_removed, all_kept, List.nil_append]
    rw [show prunable directory.children names = removed ++ kept from parts, filtered] at chosen
    refine List.Perm.trans (List.Perm.of_eq ?_) chosen.symm
    unfold inactiveReleases remaining
    simp only [List.filter_filter]
    refine List.filter_congr fun child mem => ?_
    by_cases held : child.name ∈ names
    · simp [held]
    · have other : child.name ≠ directoryName active :=
        fun same => held (same ▸ directoryName_active_mem)
      have differs : (child.name != directoryName active) = true := bne_iff_ne.mpr other
      simp [held, differs, Bool.and_comm]

theorem length_retainedPredecessors_le (active : ReleaseId) (predecessors : List ReleaseId)
    (directory : Directory) :
    (retainedPredecessors active predecessors directory.children).length ≤
      (protectedNames (active :: predecessors)).card - 1 := by
  have distinct : ((retainedPredecessors active predecessors directory.children).map
      Node.name).Nodup :=
    directory.distinct.sublist ((List.filter_sublist.trans List.filter_sublist).map _)
  have among : ((retainedPredecessors active predecessors directory.children).map
      Node.name).toFinset ⊆
      (protectedNames (active :: predecessors)).erase (directoryName active) := by
    intro name here
    obtain ⟨child, mem, rfl⟩ := List.mem_map.mp (List.mem_toFinset.mp here)
    obtain ⟨inactive, held⟩ := List.mem_filter.mp mem
    have passes := (List.mem_filter.mp inactive).2
    simp only [Bool.and_eq_true, bne_iff_ne] at passes
    exact Finset.mem_erase.mpr ⟨passes.2, of_decide_eq_true held⟩
  have card := Finset.card_le_card among
  rw [List.toFinset_card_of_nodup distinct, List.length_map,
    Finset.card_erase_of_mem directoryName_active_mem] at card
  exact card

/-- **Release retention.** When `prune_releases` succeeds, no protected entry and nothing but
directories was removed, and what was removed are the oldest unprotected directories. The inactive
releases that remain, predecessors included, meet both limits (unless all of them are protected)
exactly if the predecessors fit beside whatever the loop may keep. -/
theorem pruneReleases_retention {number : Nat} (fits : sizes directory.children ≤ u64Max)
    (returned : pruneReleases faults (.directory directory) (active :: predecessors) maxInactive
      maxInactiveBytes = (removed, .ok number)) :
    (∀ child ∈ directory.children,
      child.name ∈ protectedNames (active :: predecessors) ∨ child.isDirectory = false →
      child ∈ remaining directory removed) ∧
    removed <+: prunable directory.children (protectedNames (active :: predecessors)) ∧
    number = removed.length ∧
    (WithinLimits (active :: predecessors) maxInactive maxInactiveBytes
        (inactiveReleases active (remaining directory removed)) ↔
      PredecessorsFit active predecessors maxInactive maxInactiveBytes directory.children) := by
  have unprotectedFits :
      sizes (prunable directory.children (protectedNames (active :: predecessors))) ≤ u64Max := by
    rw [sizes_perm (prunable_perm _ _)]
    exact (sizes_filter_le _ _).trans fits
  simp only [pruneReleases, pruneDirectories] at returned
  split at returned
  · cases returned
  rw [saturatingSum_treeBytes unprotectedFits] at returned
  obtain ⟨gone, counted⟩ := Prod.mk.inj returned
  rw [gone] at counted
  obtain ⟨_, ended, rfl⟩ := Except.map_ok_iff.mp counted
  obtain ⟨kept, parts, within, longest⟩ :=
    pruneLoop_spec unprotectedFits (Prod.ext gone ended)
  have inactive := inactive_perm parts
  have bytes := sizes_perm inactive
  rw [sizes_append] at bytes
  have count := inactive.length_eq
  rw [List.length_append] at count
  have few := length_retainedPredecessors_le active predecessors directory
  refine ⟨fun child mem keeps => mem_remaining_of_kept parts mem keeps, ⟨kept, parts.symm⟩, rfl,
    ?_, ?_⟩
  · -- What the loop kept is at least as much as any list that fits.
    intro limits newest tail nonempty fitting
    have shorter := longest newest tail fitting
    have keptTail : newest <:+ kept :=
      List.suffix_of_suffix_length_le tail (parts ▸ List.suffix_append removed kept) shorter
    obtain ⟨older, rest⟩ := keptTail
    have lighter : sizes newest ≤ sizes kept := by
      rw [← rest, sizes_append]
      omega
    rcases limits with ⟨-, light⟩ | allProtected
    · omega
    · -- Something unprotected was kept.
      exfalso
      obtain ⟨child, mem⟩ := List.exists_mem_of_ne_nil newest nonempty
      have inKept : child ∈ kept := rest ▸ List.mem_append_right older mem
      have free := (mem_prunable.mp (parts ▸ List.mem_append_right removed inKept)).2.1
      exact free (allProtected child (inactive.mem_iff.mpr (List.mem_append_right _ inKept)))
  · intro predecessorsFit
    by_cases empty : kept = []
    · right
      intro release mem
      rw [inactive.mem_iff, empty, List.append_nil] at mem
      exact of_decide_eq_true (List.mem_filter.mp mem).2
    · left
      have beside := predecessorsFit kept (parts ▸ List.suffix_append removed kept) empty within
      have some_kept : 0 < kept.length := List.length_pos_iff.mpr empty
      have room := within.1
      refine ⟨?_, ?_⟩ <;> omega

end Retention

end Updatedc.Agent.Pruning

namespace Updatedc.Agent.Pruning.Sample

open Contracts

def active : ReleaseId := ⟨"3", .canonical 3⟩

def predecessor : ReleaseId := ⟨"2", .canonical 2⟩

/-- A release directory with one file. -/
def release (id : ReleaseId) (modified : Int) (bytes : Nat) : Node :=
  .directory (directoryName id) (some modified) [.leaf "f" bytes]

/-- The active release, its predecessor of ten bytes, and an older one of five. -/
def releases : Directory where
  children :=
    [release active 3 1, release predecessor 2 10, release ⟨"1", .canonical 1⟩ 1 5]
  distinct := by decide

/-- Room for two inactive releases and ten bytes. -/
def pruned : List Node × IoResult Nat :=
  pruneReleases {} (.directory releases) [active, predecessor] 2 10

/-- Nothing is removed, although the inactive releases occupy fifteen bytes and one of them is
unprotected. -/
theorem predecessor_bytes_uncounted :
    pruned.2 = .ok 0 ∧ sizes (inactiveReleases active (remaining releases pruned.1)) = 15 ∧
      ¬ WithinLimits [active, predecessor] 2 10
        (inactiveReleases active (remaining releases pruned.1)) := by
  decide

/-- Two unprotected releases of five bytes, the older one written before the epoch. -/
def older : Node := release ⟨"0", .canonical 0⟩ (-1) 5

def newer : Node := release ⟨"1", .canonical 1⟩ 1 5

/-- The active release, a predecessor of four bytes, and the two. -/
def roomy : Directory where
  children := [newer, release active 3 1, release predecessor 2 4, older]
  distinct := by decide

/-- The older of the two is removed; the newer one fits beside the predecessor. -/
theorem pruneReleases_retention_beside :
    WithinLimits [active, predecessor] 2 10
      (inactiveReleases active (remaining roomy [older])) := by
  have returned : pruneReleases {} (.directory roomy) [active, predecessor] 2 10 =
      ([older], .ok 1) := rfl
  refine (pruneReleases_retention (by decide) returned).2.2.2.mpr ?_
  intro newest tail _ fitting
  have listed : newest ∈ [older, newer].tails := (List.mem_tails _ _).mpr tail
  simp only [List.tails, List.mem_cons, List.not_mem_nil, or_false] at listed
  rcases listed with rfl | rfl | rfl
  · exact absurd fitting.1 (by decide)
  · decide
  · decide

end Updatedc.Agent.Pruning.Sample
