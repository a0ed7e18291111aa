import Updatedc.Runtime.DoubleBuffer

/-!
# The stored document, both ways

A valid state is cut into shards that fit, and the shards make up a document that is read back as
the same state. The other way round, `decodeAssignments` takes stored indexes that nothing wrote
here; **what it accepts names every node once**, and writing the result again gives the same nodes
under every identity.
-/

namespace Updatedc

open Contracts

/-! ## What a stored index must be to be accepted -/

variable {assignments : BTreeMap String Sha256} {stored : BTreeMap Sha256 (List String)}

theorem placeAssignment_ok {identity : Sha256} {node : String} {placed : BTreeMap String Sha256}
    (ok : placeAssignment identity assignments node = .ok placed) :
    (ResourceName.new? node).isSome ∧ assignments[node]? = none ∧
      placed = assignments.insert node identity := by
  unfold placeAssignment at ok
  split_ifs at ok with invalid again
  refine ⟨by simpa [Option.isSome_iff_ne_none] using invalid, ?_, (Except.ok.inj ok).symm⟩
  rw [Std.ExtTreeMap.contains_eq_isSome_getElem?] at again
  exact Option.not_isSome_iff_eq_none.mp again

/-- Nodes that were all placed are valid, new, and named once. -/
theorem fresh_of_placed {identity : Sha256} {nodes : List String} {placed : BTreeMap String Sha256}
    (ok : nodes.foldlM (placeAssignment identity) assignments = .ok placed) :
    nodes.Nodup ∧ (∀ node ∈ nodes, (ResourceName.new? node).isSome ∧ assignments[node]? = none) ∧
      ∀ node, placed[node]? = none → assignments[node]? = none ∧ node ∉ nodes := by
  induction nodes generalizing assignments with
  | nil =>
    cases ok
    simp
  | cons node rest ih =>
    obtain ⟨next, here, later⟩ := Except.bind_ok_iff.mp ok
    obtain ⟨valid, absent, rfl⟩ := placeAssignment_ok here
    obtain ⟨distinct, fresh, kept⟩ := ih later
    -- placing a node takes its name
    have taken : ∀ other, (assignments.insert node identity)[other]? = none →
        node ≠ other ∧ assignments[other]? = none := by
      intro other none
      rw [BTreeMap.getElem?_insert] at none
      split_ifs at none with same
      exact ⟨same, none⟩
    refine ⟨List.nodup_cons.mpr ⟨fun again => ?_, distinct⟩, fun other member => ?_,
      fun other none => ?_⟩
    · exact (taken node (fresh node again).2).1 rfl
    · rcases List.mem_cons.mp member with rfl | member
      · exact ⟨valid, absent⟩
      · exact ⟨(fresh other member).1, (taken other (fresh other member).2).2⟩
    · obtain ⟨before, notLater⟩ := kept other none
      obtain ⟨differs, before⟩ := taken other before
      exact ⟨before, fun member => (List.mem_cons.mp member).elim (differs ·.symm) notLater⟩

/-- The same over the entries of a stored index. -/
theorem fresh_of_decoded {entries : List (Sha256 × List String)} {decoded : BTreeMap String Sha256}
    (ok : entries.foldlM (fun assignments entry => entry.2.foldlM (placeAssignment entry.1)
      assignments) assignments = .ok decoded) :
    (entries.flatMap Prod.snd).Nodup ∧
      ∀ node ∈ entries.flatMap Prod.snd,
        (ResourceName.new? node).isSome ∧ assignments[node]? = none := by
  induction entries generalizing assignments with
  | nil => simp
  | cons entry rest ih =>
    obtain ⟨next, here, later⟩ := Except.bind_ok_iff.mp ok
    obtain ⟨distinctHere, freshHere, kept⟩ := fresh_of_placed here
    obtain ⟨distinctLater, freshLater⟩ := ih later
    rw [List.flatMap_cons]
    refine ⟨List.nodup_append.mpr ⟨distinctHere, distinctLater, ?_⟩, fun node member => ?_⟩
    · rintro node first other second rfl
      exact (kept node (freshLater node second).2).2 first
    · rcases List.mem_append.mp member with first | second
      · exact freshHere node first
      · exact ⟨(freshLater node second).1, (kept node (freshLater node second).2).1⟩

/-- **What is accepted names every node once**, and gives each the identity it is stored under. -/
theorem decodeAssignments_ok (ok : decodeAssignments stored = .ok assignments) :
    (stored.toList.flatMap Prod.snd).Nodup ∧
      ∀ (node : String) (identity : Sha256),
        assignments[node]? = some identity ↔ node ∈ stored[identity]?.getD [] := by
  obtain ⟨distinct, fresh⟩ := fresh_of_decoded ok
  obtain ⟨decoded, accepted, spec⟩ := decode_entries ∅ distinct fresh
  cases ok.symm.trans accepted
  refine ⟨distinct, fun node identity => ?_⟩
  rw [spec]
  simp only [Std.ExtTreeMap.getElem?_empty, reduceCtorEq, false_or,
    Std.ExtTreeMap.mem_toList_iff_getElem?_eq_some]
  cases stored[identity]? <;> simp

/-- The nodes that an index stores under one identity, each once. -/
theorem nodup_stored (distinct : (stored.toList.flatMap Prod.snd).Nodup) (identity : Sha256) :
    (stored[identity]?.getD []).Nodup := by
  cases found : stored[identity]? with
  | none => simp
  | some nodes =>
    have member := Std.ExtTreeMap.mem_toList_iff_getElem?_eq_some.mpr found
    exact (List.nodup_flatMap.mp distinct).1 (identity, nodes) member

/-- Writing an accepted index again gives the same nodes under every identity. -/
theorem encode_decodeAssignments (ok : decodeAssignments stored = .ok assignments)
    (identity : Sha256) :
    ((encodeAssignments assignments)[identity]?.getD []).Perm (stored[identity]?.getD []) := by
  obtain ⟨distinct, placed⟩ := decodeAssignments_ok ok
  have filed := getD_foldl_pushAssignment identity assignments.toList ∅
  rw [← encodeAssignments] at filed
  simp only [Std.ExtTreeMap.getElem?_empty, Option.getD_none, List.nil_append] at filed
  rw [filed]
  refine (List.perm_ext_iff_of_nodup ?_ (nodup_stored distinct identity)).mpr fun node => ?_
  · exact (BTreeMap.nodup_keys_toList assignments).sublist (List.filter_sublist.map _)
  · rw [mem_assigned, placed]

/-! ## The shards make up the document -/

theorem flatMap_shardBytes (encoded : Bytes) (total count : Nat) :
    (List.range count).flatMap (shardBytes encoded total) =
      encoded.take (encoded.length * count / total) := by
  induction count with
  | zero => simp
  | succ count ih =>
    rw [List.range_succ, List.flatMap_append, ih, List.flatMap_singleton, take_append_shardBytes]

section RoundTrip

variable [Crates] [Json StoredDurableRolloutState]

theorem prepareAdmittedState_of_fits {state : DurableRolloutState} {limit : AdmittedShardLimit}
    (valid : state.validate = .ok ())
    (fits : state.encoded.length ≤ limit.count * admittedStateShardMaxBytes) :
    prepareAdmittedState state limit =
      .ok ⟨state.encoded, .canonical (sha256 state.encoded), limit⟩ := by
  unfold prepareAdmittedState
  refine Except.bind_ok_iff.mpr ⟨(), valid, ?_⟩
  exact if_neg (Nat.not_lt.mpr fits)

/-- **Rollout state survives storage unchanged.** Every valid state that fits is prepared and cut
into shards within the ceiling, which make up its document, which is read back as the same state;
and an index that `decodeAssignments` accepts names no node twice and is written again with the
same nodes under every identity. -/
theorem rollout_state_survives_storage (state : DurableRolloutState)
    (valid : state.validate = .ok ()) (limit : AdmittedShardLimit)
    (fits : state.encoded.length ≤ limit.count * admittedStateShardMaxBytes)
    (lossless : state.ReadsBack) :
    (∃ prepared, prepareAdmittedState state limit = .ok prepared ∧
      (∀ i < limit.count,
        (shardBytes prepared.encoded limit.count i).length ≤ admittedStateShardMaxBytes) ∧
      (List.range limit.count).flatMap (shardBytes prepared.encoded limit.count) = state.encoded ∧
      decodeAdmittedState prepared.revisionSha256
        ((List.range limit.count).flatMap (shardBytes prepared.encoded limit.count)) = .ok state) ∧
    ∀ stored assignments, decodeAssignments stored = .ok assignments →
      (stored.toList.flatMap Prod.snd).Nodup ∧
      ∀ identity : Sha256,
        ((encodeAssignments assignments)[identity]?.getD []).Perm (stored[identity]?.getD []) := by
  have whole : (List.range limit.count).flatMap (shardBytes state.encoded limit.count) =
      state.encoded := by
    rw [flatMap_shardBytes, Nat.mul_div_cancel _ limit.positive, List.take_length]
  refine ⟨⟨_, prepareAdmittedState_of_fits valid fits, fun i _ => ?_, whole, ?_⟩,
    fun stored assignments ok => ⟨(decodeAssignments_ok ok).1, encode_decodeAssignments ok⟩⟩
  · exact length_shardBytes_le limit.positive fits i
  · rw [whole]
    exact decodeAdmittedState_encoded valid lossless

end RoundTrip

end Updatedc

namespace Updatedc.Sample.Buffers

open Contracts Sample

theorem rollout_state_survives_storage_routed :
    decodeAdmittedState (.canonical (sha256 routed.encoded))
      ((List.range wide.count).flatMap (shardBytes routed.encoded wide.count)) = .ok routed := by
  obtain ⟨⟨prepared, ready, -, -, readBack⟩, -⟩ :=
    rollout_state_survives_storage routed (by decide) wide (by decide) rfl
  rw [(prepareAdmittedState_ok ready).1] at readBack
  exact readBack

end Updatedc.Sample.Buffers
