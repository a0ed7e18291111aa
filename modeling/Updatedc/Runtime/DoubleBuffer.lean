import Updatedc.Runtime.Admitted
import Updatedc.Lib.Run

/-!
# Stopping a store or a load anywhere

`ConfigMaps.Holds` says what a cluster records: the index is valid and counts every shard there is,
and the slot it names, if it names one, holds the whole document of one state under its digest.
**Every call of a store and of a load keeps it**, with the recorded state changing at one call only,
the one that moves the index. So whatever a process leaves behind, the next load reads one whole
state back.
-/

namespace Updatedc

open Contracts

/-! ## The document reads back -/

/-- A node is filed under its own identity, after those filed there before. -/
theorem getD_foldl_pushAssignment (identity : Sha256) (entries : List (String × Sha256))
    (inverted : BTreeMap Sha256 (List String)) :
    (entries.foldl pushAssignment inverted)[identity]?.getD [] =
      inverted[identity]?.getD [] ++ (entries.filter (·.2 = identity)).map Prod.fst := by
  induction entries generalizing inverted with
  | nil => simp
  | cons entry entries ih =>
    rw [List.foldl_cons, ih, pushAssignment, BTreeMap.getElem?_insert]
    by_cases same : entry.2 = identity
    · simp [same]
    · simp [same]

variable {assignments : BTreeMap String Sha256} {identity : Sha256} {total : Nat}
  {slot : AdmittedStateSlot} {post : Unit → ConfigMaps → Prop} {fail : String → ConfigMaps → Prop}
  {crash : ConfigMaps → Prop}

theorem mem_assigned {node : String} :
    node ∈ (assignments.toList.filter (·.2 = identity)).map Prod.fst ↔
      assignments[node]? = some identity := by
  rw [List.mem_map, ← Std.ExtTreeMap.mem_toList_iff_getElem?_eq_some]
  constructor
  · rintro ⟨⟨other, identity'⟩, member, rfl⟩
    obtain ⟨member, same⟩ := List.mem_filter.mp member
    exact of_decide_eq_true same ▸ member
  · intro member
    exact ⟨(node, identity), List.mem_filter.mpr ⟨member, decide_eq_true rfl⟩, rfl⟩

/-- The nodes stored under an identity are those assigned it. -/
theorem mem_encodeAssignments {nodes : List String}
    (stored : (encodeAssignments assignments)[identity]? = some nodes) :
    nodes.Nodup ∧ ∀ node, node ∈ nodes ↔ assignments[node]? = some identity := by
  have filed := getD_foldl_pushAssignment identity assignments.toList ∅
  rw [← encodeAssignments, stored] at filed
  simp only [Option.getD_some, Std.ExtTreeMap.getElem?_empty, Option.getD_none,
    List.nil_append] at filed
  subst filed
  constructor
  · exact (BTreeMap.nodup_keys_toList assignments).sublist (List.filter_sublist.map _)
  · exact fun node => mem_assigned

theorem exists_encodeAssignments {node : String} (assigned : assignments[node]? = some identity) :
    ∃ nodes, (encodeAssignments assignments)[identity]? = some nodes ∧ node ∈ nodes := by
  have filed := getD_foldl_pushAssignment identity assignments.toList ∅
  rw [← encodeAssignments] at filed
  have member : node ∈ (encodeAssignments assignments)[identity]?.getD [] := by
    rw [filed]
    exact List.mem_append_right _ (mem_assigned.mpr assigned)
  cases found : (encodeAssignments assignments)[identity]? with
  | none => simp [found] at member
  | some nodes => exact ⟨nodes, rfl, by simpa [found] using member⟩

/-- New, valid names are all placed. -/
theorem foldlM_placeAssignment :
    ∀ {nodes : List String} {assignments : BTreeMap String Sha256}, nodes.Nodup →
      (∀ node ∈ nodes, (ResourceName.new? node).isSome ∧ assignments[node]? = none) →
      nodes.foldlM (placeAssignment identity) assignments =
        .ok (nodes.foldl (fun placed node => placed.insert node identity) assignments)
  | [], _, _, _ => rfl
  | node :: nodes, assignments, distinct, fresh => by
    obtain ⟨valid, absent⟩ := fresh node List.mem_cons_self
    have placed : placeAssignment identity assignments node =
        .ok (assignments.insert node identity) := by
      have notIn : assignments.contains node = false := by
        rw [Std.ExtTreeMap.contains_eq_isSome_getElem?, absent]
        rfl
      simp [placeAssignment, Option.isNone_iff_eq_none, Option.isSome_iff_ne_none.mp valid, notIn]
    rw [List.foldlM_cons, placed]
    refine foldlM_placeAssignment (List.nodup_cons.mp distinct).2 fun other member => ?_
    obtain ⟨validOther, absentOther⟩ := fresh other (List.mem_cons_of_mem _ member)
    refine ⟨validOther, ?_⟩
    rw [BTreeMap.getElem?_insert, if_neg, absentOther]
    rintro rfl
    exact (List.nodup_cons.mp distinct).1 member

/-- What is decoded from entries that name every node at most once. -/
theorem decode_entries :
    ∀ {entries : List (Sha256 × List String)} (assignments : BTreeMap String Sha256),
      (entries.flatMap Prod.snd).Nodup →
      (∀ node ∈ entries.flatMap Prod.snd,
        (ResourceName.new? node).isSome ∧ assignments[node]? = none) →
      ∃ decoded, entries.foldlM (fun assignments entry =>
          entry.2.foldlM (placeAssignment entry.1) assignments) assignments = .ok decoded ∧
        ∀ node identity, decoded[node]? = some identity ↔
          assignments[node]? = some identity ∨
            ∃ nodes, (identity, nodes) ∈ entries ∧ node ∈ nodes
  | [], assignments, _, _ => ⟨assignments, rfl, by simp⟩
  | (identity, nodes) :: entries, assignments, distinct, fresh => by
    rw [List.flatMap_cons, List.nodup_append] at distinct
    obtain ⟨here, later, apart⟩ := distinct
    have freshHere : ∀ node ∈ nodes,
        (ResourceName.new? node).isSome ∧ assignments[node]? = none := fun node member =>
      fresh node (by simp [member])
    obtain ⟨decoded, ok, spec⟩ := decode_entries
      (nodes.foldl (fun placed node => placed.insert node identity) assignments) later
        fun node member => by
        obtain ⟨valid, absent⟩ := fresh node (List.mem_append_right _ member)
        refine ⟨valid, ?_⟩
        rw [BTreeMap.getElem?_foldl_insert, if_neg, absent]
        exact fun hereToo => apart node hereToo node member rfl
    refine ⟨decoded, ?_, fun node identity' => ?_⟩
    · rw [List.foldlM_cons, foldlM_placeAssignment here freshHere]
      exact ok
    · rw [spec, BTreeMap.getElem?_foldl_insert]
      by_cases member : node ∈ nodes
      · have absent := (freshHere node member).2
        have notLater : ∀ nodes', (identity', nodes') ∈ entries → node ∉ nodes' :=
          fun nodes' entry other => apart node member node
            (List.mem_flatMap.mpr ⟨_, entry, other⟩) rfl
        simp [member, absent]
        constructor
        · rintro (same | ⟨nodes', entry, other⟩)
          · exact ⟨nodes, .inl ⟨same.symm, rfl⟩, member⟩
          · exact absurd other (notLater nodes' entry)
        · rintro ⟨nodes', ⟨same, -⟩ | entry, other⟩
          · exact .inl same.symm
          · exact absurd other (notLater nodes' entry)
      · simp [member]
        constructor
        · rintro (before | ⟨nodes', entry, other⟩)
          · exact .inl before
          · exact .inr ⟨nodes', .inr entry, other⟩
        · rintro (before | ⟨nodes', ⟨-, rfl⟩ | entry, other⟩)
          · exact .inl before
          · exact absurd other member
          · exact .inr ⟨nodes', entry, other⟩

/-- **Assignments read back**: inverting and decoding is the identity on valid node names. -/
theorem decode_encodeAssignments (valid : ∀ node identity, assignments[node]? = some identity →
      (ResourceName.new? node).isSome) :
    decodeAssignments (encodeAssignments assignments) = .ok assignments := by
  have entry : ∀ {identity nodes}, (identity, nodes) ∈ (encodeAssignments assignments).toList →
      nodes.Nodup ∧ ∀ node, node ∈ nodes ↔ assignments[node]? = some identity := fun member =>
    mem_encodeAssignments (Std.ExtTreeMap.mem_toList_iff_getElem?_eq_some.mp member)
  have distinct : ((encodeAssignments assignments).toList.flatMap Prod.snd).Nodup := by
    rw [List.nodup_flatMap]
    refine ⟨fun stored member => (entry member).1, ?_⟩
    have keys := BTreeMap.nodup_keys_toList (encodeAssignments assignments)
    rw [List.nodup_iff_pairwise_ne, List.pairwise_map] at keys
    refine (List.pairwise_iff_forall_sublist.mpr fun {first second} both
      node inFirst inSecond => ?_)
    refine List.pairwise_iff_forall_sublist.mp keys both ?_
    have firstIn := both.subset (show first ∈ [first, second] by simp)
    have secondIn := both.subset (show second ∈ [first, second] by simp)
    have one := ((entry firstIn).2 node).mp inFirst
    have two := ((entry secondIn).2 node).mp inSecond
    exact Option.some.inj (one.symm.trans two)
  obtain ⟨decoded, ok, spec⟩ := decode_entries ∅ distinct fun node member => by
    obtain ⟨⟨identity, nodes⟩, stored, here⟩ := List.mem_flatMap.mp member
    exact ⟨valid node identity (((entry stored).2 node).mp here), by simp⟩
  refine ok.trans (congrArg _
    (Std.ExtTreeMap.ext_getElem? fun node => Option.ext fun identity => ?_))
  rw [spec]
  constructor
  · rintro (none | ⟨nodes, stored, here⟩)
    · simp at none
    · exact ((entry stored).2 node).mp here
  · intro assigned
    obtain ⟨nodes, stored, here⟩ := exists_encodeAssignments assigned
    exact .inr ⟨nodes, Std.ExtTreeMap.mem_toList_iff_getElem?_eq_some.mpr stored, here⟩

theorem DurableRolloutState.name_of_validate [Crates] {state : DurableRolloutState}
    (valid : state.validate = .ok ()) {node : String}
    (assigned : state.assignments[node]? = some identity) : (ResourceName.new? node).isSome := by
  obtain ⟨_, -, rest⟩ := Except.bind_ok_iff.mp valid
  obtain ⟨_, -, rest⟩ := Except.bind_ok_iff.mp rest
  obtain ⟨_, -, last⟩ := Except.bind_ok_iff.mp rest
  have checked := Except.ok_of_mem_forM last
    (Std.ExtTreeMap.mem_toList_iff_getElem?_eq_some.mpr assigned)
  unfold checkAssignment at checked
  split_ifs at checked with invalid
  simpa [Option.isSome_iff_ne_none] using invalid

/-- **The stored form reads back** for every valid state. -/
theorem tryFrom_of [Crates] {state : DurableRolloutState} (valid : state.validate = .ok ()) :
    DurableRolloutState.tryFrom (.of state) = .ok state := by
  have back : decodeAssignments (StoredDurableRolloutState.of state).assignments =
      .ok state.assignments :=
    decode_encodeAssignments fun _ _ => DurableRolloutState.name_of_validate valid
  unfold DurableRolloutState.tryFrom
  rw [back]
  refine Except.bind_ok_iff.mpr ⟨_, rfl, ?_⟩
  exact Except.bind_ok_iff.mpr ⟨(), valid, rfl⟩

/-! ## The shards make up the document -/

/-- The first shards carry the first bytes. -/
theorem take_append_shardBytes (encoded : Bytes) (i : Nat) :
    encoded.take (encoded.length * i / total) ++ shardBytes encoded total i =
      encoded.take (encoded.length * (i + 1) / total) := by
  have le : encoded.length * i / total ≤ encoded.length * (i + 1) / total :=
    Nat.div_le_div_right (Nat.mul_le_mul_left _ i.le_succ)
  rw [shardBytes, ← List.take_add, Nat.add_sub_cancel' le]

theorem length_shardBytes_le {encoded : Bytes} (positive : 1 ≤ total)
    (fits : encoded.length ≤ total * admittedStateShardMaxBytes) (i : Nat) :
    (shardBytes encoded total i).length ≤ admittedStateShardMaxBytes := by
  have stop : encoded.length * (i + 1) / total ≤
      encoded.length * i / total + admittedStateShardMaxBytes := by
    rw [← Nat.add_mul_div_left _ _ positive]
    refine Nat.div_le_div_right ?_
    rw [Nat.mul_succ]
    exact Nat.add_le_add_left fits _
  rw [shardBytes, List.length_take]
  omega

/-! ## What a cluster records -/

/-- What `AdmittedStateIndex.validate` accepts. -/
structure AdmittedStateIndex.Valid (index : AdmittedStateIndex) : Prop where
  format : index.format = admittedStateFormat
  counts : ∀ slot, index.shards slot ≤ maxAdmittedStateShards
  named : ∀ active, index.active = some active →
    1 ≤ index.maxShards ∧ index.maxShards ≤ maxAdmittedStateShards ∧
      index.shards active = index.maxShards ∧ index.revisionSha256.any DigestText.isCanonical
  unnamed : index.active = none → index.revisionSha256 = none ∧ index.maxShards = 0

theorem AdmittedStateIndex.validate_ok_iff {index : AdmittedStateIndex} :
    index.validate = .ok () ↔ index.Valid := by
  constructor
  · intro ok
    unfold validate at ok
    by_cases format : index.format = admittedStateFormat
    · rw [if_neg (not_not.mpr format)] at ok
      obtain ⟨_, counts, ok⟩ := Except.bind_ok_iff.mp ok
      have bounded : ∀ count ∈ [index.aShards, index.bShards], count ≤ maxAdmittedStateShards := by
        intro count member
        have checked := Except.ok_of_mem_forM counts member
        unfold checkCount at checked
        split_ifs at checked with excess
        exact Nat.le_of_not_lt excess
      refine ⟨format, fun slot => ?_, fun active named => ?_, fun unnamed => ?_⟩
      · cases slot <;> exact bounded _ (by simp [shards])
      · simp only [named] at ok
        split_ifs at ok with width same revision
        exact ⟨width.1, width.2, not_not.mp same, by simpa using revision⟩
      · simp only [unnamed] at ok
        split_ifs at ok with declares
        simpa [not_or, Option.isSome_iff_ne_none] using declares
    · rw [if_pos format] at ok
      cases ok
  · intro valid
    have counts : [index.aShards, index.bShards].forM checkCount = .ok () := by
      have a := valid.counts .a
      have b := valid.counts .b
      simp only [shards] at a b
      simp [checkCount, Nat.not_lt.mpr a, Nat.not_lt.mpr b]
      rfl
    unfold validate
    rw [if_neg (not_not.mpr valid.format)]
    refine Except.bind_ok_iff.mpr ⟨⟨⟩, counts, ?_⟩
    cases active : index.active with
    | none =>
      obtain ⟨revision, width⟩ := valid.unnamed active
      simp [revision, width]
      rfl
    | some slot =>
      obtain ⟨low, high, same, revision⟩ := valid.named slot active
      simp [low, high, same, revision]
      rfl

namespace ConfigMaps

variable (self : ConfigMaps)

/-- The index as a caller that has read it holds it. -/
def version : Option AdmittedStateVersion :=
  match self.objects .index with
  | some ⟨resourceVersion, .index index⟩ => some { resourceVersion, index }
  | _ => none

/-- The index, an absent one being the empty one. -/
def index : AdmittedStateIndex :=
  (self.version.map AdmittedStateVersion.index).getD {}

section
variable (self : ConfigMaps) (name : StateObject) (configmap : ConfigMap)

theorem objects_put : (self.put name configmap).objects =
    Function.update self.objects name (some ⟨self.issued + 1, configmap⟩) := rfl

theorem objects_remove : (self.remove name).objects = Function.update self.objects name none := rfl

@[simp] theorem version_put_index (index : AdmittedStateIndex) :
    (self.put .index (.index index)).version = some ⟨self.issued + 1, index⟩ := rfl

@[simp] theorem index_put_index (index : AdmittedStateIndex) :
    (self.put .index (.index index)).index = index := rfl

@[simp] theorem objects_put_index (index : AdmittedStateIndex) (slot : AdmittedStateSlot)
    (i : Nat) :
    (self.put .index (.index index)).objects (.shard slot i) = self.objects (.shard slot i) := rfl

theorem version_congr {c c' : ConfigMaps} (same : c'.objects .index = c.objects .index) :
    c'.version = c.version := by
  unfold version
  rw [same]

theorem index_congr {c c' : ConfigMaps} (same : c'.objects .index = c.objects .index) :
    c'.index = c.index := by
  rw [index, version_congr same, index]

/-- Removing what is not there does nothing. -/
theorem remove_of_none {c : ConfigMaps} {name : StateObject} (absent : c.objects name = none) :
    c.remove name = c := by
  cases c
  simp only [remove, mk.injEq, and_true]
  exact Function.update_eq_self_iff.mpr absent.symm

end

/-- A version that a caller holds is the index object as stored. -/
theorem objects_of_version {c : ConfigMaps} {version : AdmittedStateVersion}
    (found : c.version = some version) :
    c.objects .index = some ⟨version.resourceVersion, .index version.index⟩ := by
  unfold ConfigMaps.version at found
  split at found
  · next same => cases found; exact same
  · cases found

/-- The shard objects. -/
def shards (slot : AdmittedStateSlot) (i : Nat) : Option Versioned :=
  self.objects (.shard slot i)

end ConfigMaps

section Recorded

variable [Crates] [Json StoredDurableRolloutState]

/-- The bytes a state is stored as. -/
def DurableRolloutState.encoded (state : DurableRolloutState) : Bytes :=
  Json.toVec (StoredDurableRolloutState.of state)

/-- `serde_json` reads this state's document back as it wrote it. -/
def DurableRolloutState.ReadsBack (state : DurableRolloutState) : Prop :=
  Json.fromSlice state.encoded = .ok (StoredDurableRolloutState.of state)

/-- The shard carries its part of the document. -/
def Carries (shard : Option Versioned) (slot : AdmittedStateSlot) (i total : Nat)
    (encoded : Bytes) : Prop :=
  ∃ resourceVersion, shard = some ⟨resourceVersion, .shard
    ⟨admittedStateFormat, .canonical (sha256 encoded), slot, i, total⟩
    (shardBytes encoded total i)⟩

/-- An index and shards that **record** `state`. -/
structure Records (index : AdmittedStateIndex)
    (shards : AdmittedStateSlot → Nat → Option Versioned) (state : DurableRolloutState) :
    Prop where
  valid : index.Valid
  /-- The index counts every shard there is. -/
  counted : ∀ slot i, shards slot i ≠ none → i < index.shards slot
  /-- An index that names no slot records the default state. -/
  unnamed : index.active = none → state = {}
  /-- The slot the index names holds a valid state's whole document under its digest. -/
  named : ∀ active, index.active = some active →
    state.validate = .ok () ∧ state.ReadsBack ∧
      state.encoded.length ≤ index.maxShards * admittedStateShardMaxBytes ∧
      index.revisionSha256 = some (.canonical (sha256 state.encoded)) ∧
      ∀ i < index.maxShards, Carries (shards active i) active i index.maxShards state.encoded

namespace Records

variable {index : AdmittedStateIndex}
  {shards shards' : AdmittedStateSlot → Nat → Option Versioned} {state : DurableRolloutState}

/-- **An unnamed slot is scratch space**: what happens to the shards the index counts in a slot it
does not name changes nothing that is recorded. -/
theorem of_agrees (records : Records index shards state) (spare : index.active ≠ some slot)
    (agrees : ∀ other i, ¬ (other = slot ∧ i < index.shards slot) →
      shards' other i = shards other i) : Records index shards' state := by
  refine ⟨records.valid, fun other i present => ?_, records.unnamed, fun active named => ?_⟩
  · by_cases within : other = slot ∧ i < index.shards slot
    · exact within.1 ▸ within.2
    · rw [agrees other i within] at present
      exact records.counted other i present
  · obtain ⟨valid, reads, fits, revision, written⟩ := records.named active named
    refine ⟨valid, reads, fits, revision, fun i small => ?_⟩
    rw [agrees active i fun within => spare (within.1 ▸ named)]
    exact written i small

/-- Recounting a slot the index does not name. -/
theorem recount {count : Nat} (records : Records index shards state)
    (spare : index.active ≠ some slot) (bounded : count ≤ maxAdmittedStateShards)
    (counted : ∀ i, shards slot i ≠ none → i < count) :
    Records (index.setShards slot count) shards state := by
  refine ⟨⟨by simpa using records.valid.format, fun other => ?_, fun active named => ?_,
    by simpa using records.valid.unnamed⟩, fun other i present => ?_,
    by simpa using records.unnamed, by simpa using records.named⟩
  · rw [AdmittedStateIndex.shards_setShards]
    split_ifs
    · exact bounded
    · exact records.valid.counts other
  · rw [AdmittedStateIndex.active_setShards] at named
    have other : active ≠ slot := fun same => spare (same ▸ named)
    simpa [other] using records.valid.named active named
  · rw [AdmittedStateIndex.shards_setShards]
    split_ifs with same
    · exact counted i (same ▸ present)
    · exact records.counted other i present

/-- Naming a slot that has been filled. -/
theorem name {target : AdmittedStateSlot} {limit : AdmittedShardLimit}
    {new : DurableRolloutState} (records : Records index shards state)
    (valid : new.validate = .ok ()) (reads : new.ReadsBack)
    (fits : new.encoded.length ≤ limit.count * admittedStateShardMaxBytes)
    (counts : index.shards target = limit.count)
    (written : ∀ i < limit.count, Carries (shards target i) target i limit.count new.encoded) :
    Records { index with
      active := some target
      revisionSha256 := some (.canonical (sha256 new.encoded))
      maxShards := limit.count } shards new := by
  refine ⟨⟨records.valid.format, records.valid.counts, ?_, nofun⟩, records.counted, nofun, ?_⟩
  · rintro active ⟨⟩
    exact ⟨limit.positive, limit.bounded, counts, rfl⟩
  · rintro active ⟨⟩
    exact ⟨valid, reads, fits, rfl, written⟩

end Records

/-- **The cluster records `state`**, and its index object, if there is one, is an index. -/
structure ConfigMaps.Holds (cluster : ConfigMaps) (state : DurableRolloutState) : Prop
    extends Records cluster.index cluster.shards state where
  proper : cluster.objects .index = none ∨ ∃ version, cluster.version = some version

namespace ConfigMaps.Holds

variable {c c' : ConfigMaps} {state : DurableRolloutState}

theorem of_agrees (holds : c.Holds state) (spare : c.index.active ≠ some slot)
    (agrees : ∀ name, (∀ i < c.index.shards slot, name ≠ .shard slot i) →
      c'.objects name = c.objects name) : c'.Holds state := by
  have same : c'.objects .index = c.objects .index := agrees _ fun _ _ => nofun
  constructor
  · rw [index_congr same]
    refine holds.toRecords.of_agrees spare fun other i apart => agrees _ ?_
    rintro j small ⟨⟩
    exact apart ⟨rfl, small⟩
  · rw [same, version_congr same]
    exact holds.proper

/-- Writing an index that records the state with the shards there are. -/
theorem of_records {index : AdmittedStateIndex} (records : Records index c.shards state) :
    (c.put .index (.index index)).Holds state :=
  ⟨records, .inr ⟨_, version_put_index ..⟩⟩

end ConfigMaps.Holds

end Recorded

/-! ## What the calls do -/

namespace Api

variable {c : ConfigMaps} {crash : ConfigMaps → Prop} {fail : String → ConfigMaps → Prop}

open Program

/-- The API server as the programs' environment. -/
abbrev env : Env ConfigMaps ApiResponse := answers ConfigMaps.serve

theorem ensures_getOpt {name : StateObject} {post : Option Versioned → ConfigMaps → Prop}
    (live : crash c) (found : post (c.objects name) c) :
    (getOpt name).Ensures env crash post fail c := by
  refine ⟨live, fun c' response answer => ?_⟩
  cases answer
  exact ⟨live, found⟩

theorem ensures_create {name : StateObject} {configmap : ConfigMap}
    {post : Nat → ConfigMaps → Prop} (absent : c.objects name = none) (live : crash c)
    (after : crash (c.put name configmap)) (done : post (c.issued + 1) (c.put name configmap)) :
    (create name configmap).Ensures env crash post fail c := by
  refine ⟨live, fun c' response answer => ?_⟩
  simp only [answers, ConfigMaps.serve, absent] at answer
  cases answer
  exact ⟨after, done⟩

theorem ensures_replace {name : StateObject} {stored : Versioned} {configmap : ConfigMap}
    {post : Nat → ConfigMaps → Prop} (present : c.objects name = some stored) (live : crash c)
    (after : crash (c.put name configmap)) (done : post (c.issued + 1) (c.put name configmap)) :
    (replace name stored.resourceVersion configmap).Ensures env crash post fail c := by
  refine ⟨live, fun c' response answer => ?_⟩
  simp only [answers, ConfigMaps.serve, present, if_true] at answer
  cases answer
  exact ⟨after, done⟩

theorem ensures_delete {name : StateObject} (live : crash c) (after : crash (c.remove name))
    (done : post () (c.remove name)) : (delete name).Ensures env crash post fail c := by
  refine ⟨live, fun c' response answer => ?_⟩
  cases present : c.objects name with
  | none =>
    rw [ConfigMaps.remove_of_none present] at done
    simp only [answers, ConfigMaps.serve, present] at answer
    cases answer
    exact ⟨live, done⟩
  | some stored =>
    simp only [answers, ConfigMaps.serve, present] at answer
    cases answer
    exact ⟨after, done⟩

end Api

/-- Deleting part of a slot touches nothing else. -/
structure Deleted (c c' : ConfigMaps) (slot : AdmittedStateSlot) (start stop : Nat) : Prop where
  gone : ∀ i, start ≤ i → i < stop → c'.objects (.shard slot i) = none
  kept : ∀ name, (∀ i, start ≤ i → i < stop → name ≠ .shard slot i) →
    c'.objects name = c.objects name

section Programs

open Program

variable {c : ConfigMaps} {crash : ConfigMaps → Prop} {fail : String → ConfigMaps → Prop}

theorem ensures_deleteAdmittedStateShards {start stop : Nat}
    (live : ∀ c' i, i ≤ stop → Deleted c c' slot start i → crash c')
    (done : ∀ c', Deleted c c' slot start stop → post () c') (le : start ≤ stop) :
    (deleteAdmittedStateShards slot start stop).Ensures Api.env crash post fail c := by
  have start' : Deleted c c slot start start :=
    ⟨fun i low high => absurd high (Nat.not_lt.mpr low), fun _ _ => rfl⟩
  refine (Ensures.forM_range (fun i c' => start ≤ i ∧ Deleted c c' slot start i) stop
    ?_ (stop - start) start (by omega) ⟨Nat.le_refl _, start'⟩ (live c start le start')).imp
    (fun _ h => h) (fun _ c' _ h => done c' h.2) (fun _ _ _ h => h)
  rintro i small c' ⟨low, deleted⟩ alive
  have next : Deleted c (c'.remove (.shard slot i)) slot start (i + 1) := by
    constructor
    · intro j lowJ highJ
      by_cases last : j = i
      · simp [ConfigMaps.objects_remove, last]
      · rw [ConfigMaps.objects_remove, Function.update_of_ne (by simpa using last)]
        exact deleted.gone j lowJ (by omega)
    · intro name other
      rw [ConfigMaps.objects_remove, Function.update_of_ne (other i low (by omega))]
      exact deleted.kept name fun j lowJ highJ => other j lowJ (by omega)
  exact Api.ensures_delete alive (live _ _ small next) ⟨by omega, next⟩

theorem ensures_writeAdmittedStateIndex {index : AdmittedStateIndex}
    {post : AdmittedStateVersion → ConfigMaps → Prop} (valid : index.Valid)
    (proper : c.objects .index = none ∨ ∃ version, c.version = some version) (live : crash c)
    (after : crash (c.put .index (.index index)))
    (done : post ⟨c.issued + 1, index⟩ (c.put .index (.index index))) :
    (writeAdmittedStateIndex index (c.version.map AdmittedStateVersion.resourceVersion)).Ensures
      Api.env crash post fail c := by
  have accepted : index.validate.mapError (fun error =>
      s!"refusing to write invalid state index: {error}") = .ok () :=
    Except.mapError_ok_iff.mpr (AdmittedStateIndex.validate_ok_iff.mpr valid)
  unfold writeAdmittedStateIndex
  rw [accepted, ensures_bind]
  refine ⟨live, ?_⟩
  rcases proper with absent | ⟨version, found⟩
  · have unversioned : c.version = none := by
      unfold ConfigMaps.version
      rw [absent]
    rw [unversioned]
    exact ensures_bind.mpr (Api.ensures_create absent live after ⟨after, done⟩)
  · have present := ConfigMaps.objects_of_version found
    rw [found]
    exact ensures_bind.mpr (Api.ensures_replace present live after ⟨after, done⟩)

theorem ensures_writeShard {index : Nat} {revision : DigestText} {bytes : Bytes}
    (small : bytes.length ≤ admittedStateShardMaxBytes) (live : crash c)
    (after : ∀ c', c' = c.put (.shard slot index) (.shard
        ⟨admittedStateFormat, revision, slot, index, total⟩ bytes) → crash c' ∧ post () c') :
    (writeShard slot index total revision bytes).Ensures Api.env crash post fail c := by
  unfold writeShard
  rw [if_neg (Nat.not_lt.mpr small)]
  refine ensures_bind.mpr (Api.ensures_getOpt live ?_)
  obtain ⟨alive, done⟩ := after _ rfl
  cases present : c.objects (.shard slot index) with
  | none => exact ensures_bind.mpr (Api.ensures_create present live alive ⟨alive, done⟩)
  | some stored => exact ensures_bind.mpr (Api.ensures_replace present live alive ⟨alive, done⟩)

end Programs

/-! ## Storing -/

theorem AdmittedStateIndex.active_ne_target (index : AdmittedStateIndex) :
    index.active ≠ some index.target := by
  unfold target
  cases index.active with
  | none => nofun
  | some active => simp

section Writing

open Program

variable [Crates] {c : ConfigMaps}

/-- The first shards of the target slot carry the new document, and nothing else has changed. -/
structure Writing (c c' : ConfigMaps) (target : AdmittedStateSlot) (total : Nat) (encoded : Bytes)
    (written : Nat) : Prop where
  kept : ∀ name, (∀ i < total, name ≠ .shard target i) → c'.objects name = c.objects name
  holds : ∀ i < written, Carries (c'.shards target i) target i total encoded

theorem Writing.start (c : ConfigMaps) (target : AdmittedStateSlot) (total : Nat)
    (encoded : Bytes) : Writing c c target total encoded 0 :=
  ⟨fun _ _ => rfl, fun _ small => absurd small (Nat.not_lt_zero _)⟩

theorem Writing.next {c' : ConfigMaps} {target : AdmittedStateSlot} {i : Nat} {encoded : Bytes}
    (writing : Writing c c' target total encoded i) (small : i < total) :
    Writing c (c'.put (.shard target i) (.shard
      ⟨admittedStateFormat, .canonical (sha256 encoded), target, i, total⟩
      (shardBytes encoded total i))) target total encoded (i + 1) := by
  constructor
  · intro name other
    rw [ConfigMaps.objects_put, Function.update_of_ne (other i small)]
    exact writing.kept name other
  · intro j low
    by_cases last : j = i
    · subst last
      exact ⟨_, by rw [ConfigMaps.shards, ConfigMaps.objects_put, Function.update_self]⟩
    · rw [ConfigMaps.shards, ConfigMaps.objects_put, Function.update_of_ne (by simpa using last)]
      exact writing.holds j (by omega)

/-- Filling the slot, with room for it already counted. -/
theorem ensures_writeSlot {post : PUnit → ConfigMaps → Prop} {target : AdmittedStateSlot}
    {encoded : Bytes} (positive : 1 ≤ total)
    (fits : encoded.length ≤ total * admittedStateShardMaxBytes)
    (live : ∀ c' i, Writing c c' target total encoded i → crash c')
    (done : ∀ c', Writing c c' target total encoded total → post ⟨⟩ c') :
    (forM (List.range' 0 total) fun index => writeShard target index total
      (.canonical (sha256 encoded)) (shardBytes encoded total index)).Ensures Api.env crash post
      fail c := by
  have start := Writing.start c target total encoded
  refine (Ensures.forM_range (fun i c' => Writing c c' target total encoded i) total ?_ total 0
    (by omega) start (live c 0 start)).imp (fun _ h => h) (fun _ c' _ h => done c' h)
    (fun _ _ _ h => h)
  intro i small c' writing alive
  refine ensures_writeShard (length_shardBytes_le positive fits i) alive fun c'' same => ?_
  subst same
  exact ⟨live _ _ (writing.next small), writing.next small⟩

end Writing

section Store

open Program

variable [Crates] [Json StoredDurableRolloutState] {c : ConfigMaps}
  {old new : DurableRolloutState} {limit : AdmittedShardLimit} {prepared : PreparedAdmittedState}

/-- What preparing a state establishes. -/
theorem prepareAdmittedState_ok (ok : prepareAdmittedState new limit = .ok prepared) :
    prepared = ⟨new.encoded, .canonical (sha256 new.encoded), limit⟩ ∧ new.validate = .ok () ∧
      new.encoded.length ≤ limit.count * admittedStateShardMaxBytes := by
  obtain ⟨_, valid, rest⟩ := Except.bind_ok_iff.mp ok
  extract_lets at rest
  split_ifs at rest with excess
  · cases rest
  · exact ⟨(Except.ok.inj rest).symm, valid, Nat.le_of_not_lt excess⟩

/-- The state recorded on the way from `old` to `new`: the new one once the index names the slot
it was written to. -/
def recorded (target : AdmittedStateSlot) (old new : DurableRolloutState) (c : ConfigMaps) :
    DurableRolloutState :=
  if c.index.active = some target then new else old

/-- Dropping the shards the new width leaves out. -/
theorem ensures_shrinkSlot {target : AdmittedStateSlot} {shardCount : Nat} (holds : c.Holds old)
    (spare : c.index.active ≠ some target)
    (live : ∀ c', c'.Holds old → c'.index = c.index → crash c')
    (done : ∀ c', c'.Holds old → c'.index = c.index → c'.version = c.version →
      (∀ i, c'.objects (.shard target i) ≠ none → i < shardCount) → post () c') :
    (shrinkSlot target (c.index.shards target) shardCount).Ensures Api.env crash post fail c := by
  unfold shrinkSlot
  split_ifs with wider
  · -- Everything deleted is beyond the new width and counted in the old one.
    have keeps : ∀ {c' i}, i ≤ c.index.shards target → Deleted c c' target shardCount i →
        c'.Holds old ∧ c'.objects .index = c.objects .index := fun le deleted =>
      ⟨holds.of_agrees spare fun name other =>
          deleted.kept name fun j _ high => other j (by omega),
        deleted.kept _ fun _ _ _ => nofun⟩
    refine ensures_deleteAdmittedStateShards (fun c' i le deleted => ?_) (fun c' deleted => ?_)
      (Nat.le_of_lt wider)
    · obtain ⟨still, same⟩ := keeps le deleted
      exact live c' still (ConfigMaps.index_congr same)
    · obtain ⟨still, same⟩ := keeps (Nat.le_refl _) deleted
      refine done c' still (ConfigMaps.index_congr same) (ConfigMaps.version_congr same)
        fun i present => ?_
      by_contra beyond
      have within := still.counted target i present
      rw [ConfigMaps.index_congr same] at within
      exact present (deleted.gone i (Nat.le_of_not_lt beyond) within)
  · refine ⟨live c holds rfl, done c holds rfl rfl fun i present => ?_⟩
    have within := holds.counted target i present
    omega

/-- Reclaiming the slot the index has just stopped naming. -/
theorem ensures_reclaimDisplaced {post : Option AdmittedStateVersion → ConfigMaps → Prop}
    {displaced : AdmittedStateSlot} {version : AdmittedStateVersion} (holds : c.Holds new)
    (current : c.version = some version) (spare : c.index.active ≠ some displaced)
    (live : ∀ c', c'.Holds new → c'.index.active = c.index.active → crash c')
    (done : ∀ c', c'.Holds new → c'.index.active = c.index.active → post c'.version c') :
    (do
      deleteAdmittedStateShards displaced 0 (version.index.shards displaced)
      let version ← writeAdmittedStateIndex (version.index.setShards displaced 0)
        (some version.resourceVersion)
      return some version : ApiProgram (Option AdmittedStateVersion)).Ensures Api.env crash post
      fail c := by
  have index : c.index = version.index := by rw [ConfigMaps.index, current]; rfl
  have keeps : ∀ {c' i}, i ≤ version.index.shards displaced → Deleted c c' displaced 0 i →
      c'.Holds new ∧ c'.objects .index = c.objects .index := fun le deleted =>
    ⟨holds.of_agrees spare fun name other =>
        deleted.kept name fun j _ high => other j (by rw [index]; omega),
      deleted.kept _ fun _ _ _ => nofun⟩
  refine ensures_bind.mpr (ensures_deleteAdmittedStateShards (fun c' i le deleted => ?_)
    (fun c' deleted => ?_) (Nat.zero_le _))
  · obtain ⟨still, same⟩ := keeps le deleted
    exact live c' still (by rw [ConfigMaps.index_congr same])
  · obtain ⟨still, same⟩ := keeps (Nat.le_refl _) deleted
    have sameIndex : c'.index = version.index := (ConfigMaps.index_congr same).trans index
    have sameVersion : c'.version = some version := (ConfigMaps.version_congr same).trans current
    have recounted : (c'.put .index (.index (version.index.setShards displaced 0))).Holds new := by
      rw [← sameIndex]
      refine .of_records (still.toRecords.recount (by rwa [ConfigMaps.index_congr same])
        (Nat.zero_le _) fun i present => absurd (deleted.gone i (Nat.zero_le _) ?_) present)
      rw [← sameIndex]
      exact still.counted displaced i present
    have alive := live c' still (by rw [ConfigMaps.index_congr same])
    have after := live _ recounted (by simp [index])
    have write : (writeAdmittedStateIndex (version.index.setShards displaced 0)
        (c'.version.map AdmittedStateVersion.resourceVersion)).Ensures Api.env crash
        (fun version c' => crash c' ∧ post (some version) c') fail c' :=
      ensures_writeAdmittedStateIndex recounted.valid still.proper alive after
        ⟨after, done _ recounted (by simp [index])⟩
    rw [sameVersion] at write
    exact ensures_bind.mpr write

/-- **A store leaves the old state or the new one wherever it stops**, and the new one when it
returns, which it does. -/
theorem ensures_storeAdmittedState (holds : c.Holds old) (reads : new.ReadsBack)
    (ok : prepareAdmittedState new limit = .ok prepared) :
    (storeAdmittedState prepared c.version).Ensures Api.env
      (fun c' => c'.Holds (recorded c.index.target old new c'))
      (fun version c' => version = c'.version ∧ c'.index.active = some c.index.target)
      (fun _ _ => False) c := by
  obtain ⟨rfl, valid, fits⟩ := prepareAdmittedState_ok ok
  have spare := c.index.active_ne_target
  unfold storeAdmittedState
  dsimp only
  rw [← ConfigMaps.index]
  generalize c.index.target = target at spare ⊢
  have before : ∀ c' : ConfigMaps, c'.Holds old → c'.index.active = c.index.active →
      c'.Holds (recorded target old new c') := fun c' still same => by
    rwa [recorded, if_neg (same ▸ spare)]
  have after : ∀ c' : ConfigMaps, c'.Holds new → c'.index.active = some target →
      c'.Holds (recorded target old new c') := fun c' now same => by
    rwa [recorded, if_pos same]
  refine ensures_bind.mpr (ensures_shrinkSlot holds spare
    (fun c' still same => before c' still (by rw [same])) fun c₁ still₁ same₁ version₁ narrow => ?_)
  -- The allocation is recorded before anything is written to the slot.
  have allocated := ConfigMaps.Holds.of_records
    (still₁.toRecords.recount (by rwa [same₁]) limit.bounded narrow)
  rw [same₁] at allocated
  have beforeAllocated := before _ allocated (by simp)
  rw [← version₁]
  refine ensures_bind.mpr (ensures_writeAdmittedStateIndex allocated.valid still₁.proper
    (before c₁ still₁ (by rw [same₁])) beforeAllocated ?_)
  generalize made : c₁.put .index (.index (c.index.setShards target limit.count)) = c₂ at *
  have index₂ : c₂.index = c.index.setShards target limit.count := by rw [← made]; rfl
  have version₂ : c₂.version = some ⟨c₁.issued + 1, c.index.setShards target limit.count⟩ := by
    rw [← made]; rfl
  -- Filling the slot touches counted shards of a slot the index does not name.
  have filling : ∀ {c' i}, Writing c₂ c' target limit.count new.encoded i →
      c'.Holds old ∧ c'.objects .index = c₂.objects .index := fun writing =>
    ⟨allocated.of_agrees (by rw [index₂]; simpa using spare) fun name other =>
        writing.kept name fun i small => other i (by rw [index₂]; simpa using small),
      writing.kept _ fun _ _ => nofun⟩
  refine ensures_bind.mpr (ensures_writeSlot limit.positive fits (fun c' i writing => ?_)
    fun c₃ writing => ?_)
  · obtain ⟨still, same⟩ := filling writing
    exact before c' still (by rw [ConfigMaps.index_congr same, index₂]; simp)
  obtain ⟨still₃, same₃⟩ := filling writing
  have index₃ : c₃.index = c.index.setShards target limit.count :=
    (ConfigMaps.index_congr same₃).trans index₂
  -- Naming the slot is the one call that changes what is recorded.
  have renamed := ConfigMaps.Holds.of_records
    (still₃.toRecords.name valid reads fits (by simp [index₃]) writing.holds)
  rw [index₃] at renamed
  have afterNamed := after _ renamed rfl
  have write := @ensures_writeAdmittedStateIndex c₃
    (fun c' => c'.Holds (recorded target old new c')) (fun _ _ => False) _
    (fun version c' => c' = c₃.put .index (.index version.index) ∧
      version = ⟨c₃.issued + 1, _⟩) renamed.valid still₃.proper
    (before c₃ still₃ (by simp [index₃])) afterNamed ⟨rfl, rfl⟩
  rw [(ConfigMaps.version_congr same₃).trans version₂] at write
  refine ensures_bind.mpr (write.imp (fun _ h => h) ?_ (fun _ _ _ h => h))
  rintro version c₄ - ⟨rfl, rfl⟩
  rw [AdmittedStateIndex.active_setShards]
  cases named : c.index.active with
  | none => exact ⟨afterNamed, rfl, rfl⟩
  | some displaced =>
    have other : some target ≠ some displaced := fun same => spare (named.trans same.symm)
    exact ensures_reclaimDisplaced renamed rfl other (fun c' now same => after c' now same)
      fun c' now same => ⟨rfl, same⟩

end Store

/-! ## Loading -/

section Load

open Program

variable [Crates] [Json StoredDurableRolloutState] {c : ConfigMaps} {state : DurableRolloutState}

/-- Clearing the slots the index does not name: what is left records the state both under the
stored index and under the one in hand, which counts less. -/
structure Sweeping (c : ConfigMaps) (state : DurableRolloutState)
    (found : AdmittedStateIndex × Bool) (c' : ConfigMaps) : Prop where
  holds : c'.Holds state
  same : c'.objects .index = c.objects .index
  swept : Records found.1 c'.shards state
  active : found.1.active = c.index.active
  counts : ∀ slot, found.1.shards slot = c.index.shards slot ∨ found.1.shards slot = 0
  untouched : found.2 = false → found.1 = c.index

theorem Sweeping.start (holds : c.Holds state) : Sweeping c state (c.index, false) c :=
  ⟨holds, rfl, holds.toRecords, rfl, fun _ => .inl rfl, fun _ => rfl⟩

theorem ensures_reclaimSlot {found : AdmittedStateIndex × Bool} {c' : ConfigMaps}
    (sweeping : Sweeping c state found c') (spare : c.index.active ≠ some slot) :
    (reclaimSlot found slot).Ensures Api.env (fun c' => c'.Holds state)
      (fun found' c' => Sweeping c state found' c') fail c' := by
  unfold reclaimSlot
  dsimp only
  split_ifs with empty
  · exact ⟨sweeping.holds, sweeping⟩
  · have count : found.1.shards slot = c.index.shards slot :=
      (sweeping.counts slot).resolve_right empty
    have index' : c'.index = c.index := ConfigMaps.index_congr sweeping.same
    have keeps : ∀ {c'' i}, i ≤ found.1.shards slot → Deleted c' c'' slot 0 i →
        c''.Holds state := fun le deleted =>
      sweeping.holds.of_agrees (by rwa [index']) fun name other =>
        deleted.kept name fun j _ high => other j (by rw [index']; omega)
    refine ensures_bind.mpr (ensures_deleteAdmittedStateShards (fun c'' i => keeps)
      (fun c'' deleted => ⟨keeps (Nat.le_refl _) deleted, ?_⟩) (Nat.zero_le _))
    have agrees : Records found.1 c''.shards state :=
      sweeping.swept.of_agrees (by rwa [sweeping.active]) fun other i apart =>
        deleted.kept _ fun j _ high same => apart (by cases same; exact ⟨rfl, high⟩)
    refine ⟨keeps (Nat.le_refl _) deleted,
      (deleted.kept .index fun _ _ _ => nofun).trans sweeping.same,
      agrees.recount (by rwa [sweeping.active]) (Nat.zero_le _) fun i present =>
        absurd (deleted.gone i (Nat.zero_le _) (agrees.counted slot i present)) present,
      by simpa using sweeping.active, fun other => ?_, fun clean => absurd clean (by simp)⟩
    rw [AdmittedStateIndex.shards_setShards]
    split_ifs
    · exact .inr rfl
    · exact sweeping.counts other

/-- Reading the named slot gives the document back. -/
theorem ensures_readShards {active : AdmittedStateSlot} {encoded : Bytes} (holds : c.Holds state)
    (positive : 1 ≤ total) (fits : encoded.length ≤ total * admittedStateShardMaxBytes)
    (carries : ∀ i < total, Carries (c.shards active i) active i total encoded) :
    ((List.range' 0 total).foldlM
      (readShard (.canonical (sha256 encoded)) active total) []).Ensures Api.env
      (fun c' => c'.Holds state) (fun bytes c' => bytes = encoded ∧ c' = c) fail c := by
  refine (Ensures.foldlM_range (fun i bytes c' =>
      bytes = encoded.take (encoded.length * i / total) ∧ c' = c) total ?_ total 0 (by omega)
    ⟨by simp, rfl⟩ holds).imp (fun _ h => h) ?_ (fun _ _ _ h => h)
  · rintro i small bytes c' ⟨rfl, rfl⟩ live
    obtain ⟨resourceVersion, stored⟩ := carries i small
    refine ensures_bind.mpr (Api.ensures_getOpt live ?_)
    rw [← ConfigMaps.shards, stored]
    have bound := length_shardBytes_le positive fits i
    simp only [validateAdmittedStateShard, ne_eq, not_true_eq_false, if_false, gt_iff_lt,
      Nat.not_lt.mpr bound]
    refine ensures_bind.mpr ⟨live, live, take_append_shardBytes encoded i, rfl⟩
  · rintro bytes c' - ⟨rfl, rfl⟩
    refine ⟨List.take_of_length_le ?_, rfl⟩
    rw [Nat.mul_div_cancel _ positive]

theorem ensures_reclaimStale {version : AdmittedStateVersion} (holds : c.Holds state)
    (current : c.version = some version) :
    (reclaimStale version).Ensures Api.env (fun c' => c'.Holds state)
      (fun version' c' => c'.version = some version') fail c := by
  have index : c.index = version.index := by rw [ConfigMaps.index, current]; rfl
  unfold reclaimStale
  refine ensures_bind.mpr (@Ensures.imp _ _ _ _ _ _ (fun c' => c'.Holds state) _
    (fun found c' => Sweeping c state found c') _ _ _ _ _ ?_ (fun _ h => h) ?_ (fun _ _ _ h => h))
  · have start := Sweeping.start holds
    rw [index] at start
    cases named : version.index.active with
    | some active =>
      refine ensures_bind.mpr ((ensures_reclaimSlot start ?_).imp (fun _ h => h) (fun _ _ _ h => ?_)
        (fun _ _ _ h => h))
      · rw [index, named]
        simp
      · exact ⟨h.holds, h⟩
    | none =>
      refine ensures_bind.mpr ((ensures_reclaimSlot start ?_).imp (fun _ h => h) (fun _ _ _ h => ?_)
        (fun _ _ _ h => h))
      · rw [index, named]
        nofun
      refine ensures_bind.mpr ((ensures_reclaimSlot h ?_).imp (fun _ h => h) (fun _ _ _ h => ?_)
        (fun _ _ _ h => h))
      · rw [index, named]
        nofun
      · exact ⟨h.holds, h⟩
  · rintro ⟨swept, cleaned⟩ c' - sweeping
    have same : c'.version = some version := (ConfigMaps.version_congr sweeping.same).trans current
    dsimp only
    split_ifs with dirty
    · have written := ConfigMaps.Holds.of_records sweeping.swept
      have write : (writeAdmittedStateIndex swept
          (c'.version.map AdmittedStateVersion.resourceVersion)).Ensures Api.env
          (fun c' => c'.Holds state) (fun version' c' => c'.version = some version') fail c' :=
        ensures_writeAdmittedStateIndex sweeping.swept.valid sweeping.holds.proper sweeping.holds
          written rfl
      rwa [same] at write
    · have untouched : swept = version.index :=
        (sweeping.untouched (by simpa using dirty)).trans index
      exact ⟨sweeping.holds, same.trans (by rw [untouched])⟩

theorem decodeAdmittedState_encoded (valid : state.validate = .ok ()) (reads : state.ReadsBack) :
    decodeAdmittedState (.canonical (sha256 state.encoded)) state.encoded = .ok state := by
  unfold decodeAdmittedState
  rw [if_neg (by simp [digestsMatch, DigestText.isCanonical]), reads]
  exact Except.mapError_ok_iff.mpr (tryFrom_of valid)

/-- **A load reads the recorded state back**, and leaves it recorded wherever it stops. -/
theorem ensures_loadAdmittedState (holds : c.Holds state) :
    loadAdmittedState.Ensures Api.env (fun c' => c'.Holds state)
      (fun result c' => result = (state, c'.version)) (fun _ _ => False) c := by
  unfold loadAdmittedState
  refine ensures_bind.mpr (Api.ensures_getOpt holds ?_)
  rcases holds.proper with absent | ⟨version, found⟩
  · have unversioned : c.version = none := by
      unfold ConfigMaps.version
      rw [absent]
    have unnamed : state = {} := holds.unnamed (by rw [ConfigMaps.index, unversioned]; rfl)
    rw [absent, unnamed]
    exact ⟨unnamed ▸ holds, congrArg (Prod.mk _) unversioned.symm⟩
  · have index : c.index = version.index := by rw [ConfigMaps.index, found]; rfl
    have accepted : version.index.validate = .ok () :=
      AdmittedStateIndex.validate_ok_iff.mpr (index ▸ holds.valid)
    rw [ConfigMaps.objects_of_version found]
    dsimp only
    rw [accepted]
    refine ensures_bind.mpr ⟨holds, ensures_bind.mpr ?_⟩
    refine (ensures_reclaimStale holds found).imp (fun _ h => h) ?_ (fun _ _ _ h => h)
    intro version' c' holds' found'
    have index' : c'.index = version'.index := by rw [ConfigMaps.index, found']; rfl
    cases named : version'.index.active with
    | none =>
      have unnamed : state = {} := holds'.unnamed (by rw [index', named])
      exact ⟨holds', unnamed ▸ congrArg (Prod.mk _) found'.symm⟩
    | some active =>
      obtain ⟨valid, reads, fits, revision, carries⟩ := holds'.named active (by rw [index', named])
      obtain ⟨positive, -, width, -⟩ := holds'.valid.named active (by rw [index', named])
      rw [index'] at fits revision carries positive width
      refine ensures_bind.mpr (ensures_bind.mpr ?_)
      rw [revision, width]
      refine (ensures_readShards holds' positive fits carries).imp (fun _ h => h) ?_
        (fun _ _ _ h => h)
      rintro bytes c'' - ⟨rfl, rfl⟩
      rw [Option.getD_some, decodeAdmittedState_encoded valid reads]
      exact ⟨holds', holds', congrArg (Prod.mk _) found'.symm⟩

end Load

/-! ## Histories of interrupted operations -/

section History

open Program

variable [Crates] [Json StoredDurableRolloutState]

/-- One operation of the one writer, whose process dies after `calls` calls unless it has finished
by then. -/
inductive StateOperation where
  | load (calls : ℕ)
  | store (state : DurableRolloutState) (maxShards : AdmittedShardLimit) (calls : ℕ)

/-- The cluster, and the state its history says it records. -/
structure Recording where
  cluster : ConfigMaps
  state : DurableRolloutState

/-- A store is made with the index as it stands, and counts once the index names its slot. -/
def Recording.step (self : Recording) : StateOperation → Recording
  | .load calls =>
    { self with cluster := loadAdmittedState.killed ConfigMaps.serve calls self.cluster }
  | .store state maxShards calls =>
    match prepareAdmittedState state maxShards with
    | .error _ => self
    | .ok prepared =>
      let left := (storeAdmittedState prepared self.cluster.version).killed ConfigMaps.serve calls
        self.cluster
      { cluster := left
        state := recorded self.cluster.index.target self.state state left }

/-- The stored documents read back. -/
def StateOperation.ReadsBack : StateOperation → Prop
  | .load _ => True
  | .store state _ _ => state.ReadsBack

theorem Recording.step_holds {recording : Recording} {operation : StateOperation}
    (holds : recording.cluster.Holds recording.state) (reads : operation.ReadsBack) :
    (recording.step operation).cluster.Holds (recording.step operation).state := by
  cases operation with
  | load calls => exact (ensures_loadAdmittedState holds).killed calls
  | store state maxShards calls =>
    cases ok : prepareAdmittedState state maxShards with
    | error _ =>
      simp only [step, ok]
      exact holds
    | ok prepared =>
      simp only [step, ok]
      exact (ensures_storeAdmittedState holds reads ok).killed calls

theorem Recording.run_holds {operations : List StateOperation} {recording : Recording}
    (holds : recording.cluster.Holds recording.state)
    (reads : ∀ operation ∈ operations, operation.ReadsBack) :
    (operations.foldl step recording).cluster.Holds (operations.foldl step recording).state := by
  induction operations generalizing recording with
  | nil => exact holds
  | cons operation rest ih =>
    exact ih (step_holds holds (reads operation List.mem_cons_self))
      fun later member => reads later (List.mem_cons_of_mem _ member)

/-- **Interrupted stores and loads never lose the recorded state.** Whatever operations were cut
off, and wherever, the next load succeeds and returns exactly the state the history records, and
the index it leaves counts every shard there is. -/
theorem load_after_interruptions (start : Recording)
    (holds : start.cluster.Holds start.state) (operations : List StateOperation)
    (reads : ∀ operation ∈ operations, operation.ReadsBack) :
    ∃ cluster : ConfigMaps,
      loadAdmittedState.exec ConfigMaps.serve (operations.foldl Recording.step start).cluster =
        (.ok ((operations.foldl Recording.step start).state, cluster.version), cluster) ∧
      ∀ slot i, cluster.objects (.shard slot i) ≠ none → i < cluster.index.shards slot := by
  have final := Recording.run_holds holds reads
  generalize operations.foldl Recording.step start = recording at final ⊢
  obtain ⟨still, result⟩ := (ensures_loadAdmittedState final).exec
  refine ⟨_, Prod.ext ?_ rfl, still.counted⟩
  split at result
  · next returned => rw [returned, result]
  · exact result.elim

end History

end Updatedc

namespace Updatedc.Sample.Buffers

open Contracts Sample

/-- The state the sample fleet moves to. -/
def routed : DurableRolloutState := { routing := table [("n", "g")] }

/-- A codec for the two sample states. -/
scoped instance documents : Json StoredDurableRolloutState where
  toVec document := if document.routing.isEmpty then [] else [1, 2, 3]
  fromSlice
    | [] => .ok (.of {})
    | _ => .ok (.of routed)

def narrow : AdmittedShardLimit := ⟨1, by decide, by decide⟩

def wide : AdmittedShardLimit := ⟨3, by decide, by decide⟩

/-- A store cut off after its first shard, a load cut off before it has cleaned up, a complete
store over three shards, and a store of the default state cut off once the index has moved. -/
def interruptions : List StateOperation :=
  [.store routed wide 3, .load 2, .store routed wide 20, .store {} narrow 5]

theorem load_after_interruptions_fresh :
    ∃ cluster : ConfigMaps,
      loadAdmittedState.exec ConfigMaps.serve
          (interruptions.foldl Recording.step ⟨{}, {}⟩).cluster =
        (.ok ((interruptions.foldl Recording.step ⟨{}, {}⟩).state, cluster.version), cluster) ∧
      ∀ slot i, cluster.objects (.shard slot i) ≠ none → i < cluster.index.shards slot := by
  refine load_after_interruptions ⟨{}, {}⟩ ?_ interruptions ?_
  · exact ⟨⟨AdmittedStateIndex.validate_ok_iff.mp rfl, fun _ _ present => absurd rfl present,
      fun _ => rfl, nofun⟩, .inl rfl⟩
  · intro operation member
    simp only [interruptions, List.mem_cons, List.not_mem_nil, or_false] at member
    rcases member with rfl | rfl | rfl | rfl
    · rfl
    · trivial
    · rfl
    · rfl

end Updatedc.Sample.Buffers
