import Updatedc.Rollout.Availability

/-!
# Node names do not change the pace

The walk over a group's nodes is in name order, and the two sweeps of the budget follow it. So a
renaming changes **which** staged nodes move. It does not change how many: a node's turn is read off
what is known about it (`Renamed.nodeTurn`), and what a sweep grants is a number
(`Budget.countP_grant`).
-/

namespace Updatedc

open Contracts

variable [Crates]

/-! ## Renamed observations -/

/-- The same report by a node of another name. -/
def SameReport (report other : NodeReport) : Prop :=
  ∃ node, other = { report with node }

/-- Two readings of one fleet under different node names. A node's report carries its name and its
signature, so it is compared by what it says. -/
structure Renamed (rename : String ≃ String) (observations other : Observations) : Prop where
  nodeGroups : ∀ node : String, other.nodeGroups[rename node]? = observations.nodeGroups[node]?
  report : ∀ node, Option.Rel SameReport (observations.report node)
    (other.report (rename node))
  publicKeys : ∀ node : String,
    other.publicKeys.contains (rename node) = observations.publicKeys.contains node
  published : ∀ node : String, other.published[rename node]? = observations.published[node]?
  cordons : ∀ node, rename node ∈ other.cordons ↔ node ∈ observations.cordons

section
variable {rename : String ≃ String} {observations other : Observations}

/-- Whatever a report says, its renaming says. -/
theorem Renamed.report_cases (renamed : Renamed rename observations other) (node : String) :
    (observations.report node = none ∧ other.report (rename node) = none) ∨
      ∃ report name, observations.report node = some report ∧
        other.report (rename node) = some { report with node := name } := by
  have same := renamed.report node
  cases here : observations.report node with
  | none =>
    rw [here] at same
    cases there : other.report (rename node) with
    | none => exact .inl ⟨rfl, rfl⟩
    | some report =>
      rw [there] at same
      cases same
  | some report =>
    rw [here] at same
    cases there : other.report (rename node) with
    | none =>
      rw [there] at same
      cases same
    | some report' =>
      rw [there] at same
      cases same with
      | some but =>
        obtain ⟨name, rfl⟩ := but
        exact .inr ⟨report, name, rfl, rfl⟩

theorem Renamed.evidence (renamed : Renamed rename observations other) (node : String)
    (identity : DigestText) :
    other.evidence (rename node) identity = observations.evidence node identity := by
  unfold Observations.evidence
  rw [renamed.publicKeys]
  rcases renamed.report_cases node with ⟨here, there⟩ | ⟨report, name, here, there⟩ <;>
    rw [here, there]

theorem Renamed.placement (renamed : Renamed rename observations other) (node : String) :
    other.placement (rename node) = observations.placement node := by
  unfold Observations.placement
  rw [renamed.published]
  rcases renamed.report_cases node with ⟨here, there⟩ | ⟨report, name, here, there⟩
  · rw [here, there]
  · rw [here, there]
    rfl

theorem Renamed.advanced (renamed : Renamed rename observations other) (node : String)
    (identity : Sha256) :
    other.advanced (rename node) identity = observations.advanced node identity := by
  unfold Observations.advanced
  rw [renamed.published]
  rcases renamed.report_cases node with ⟨here, there⟩ | ⟨report, name, here, there⟩
  · rw [here, there]
  · rw [here, there]
    rfl

/-- The holds of the renamed fleet. -/
def RenamedHolds (rename : String ≃ String) (holds otherHolds : Finset String) : Prop :=
  ∀ node, rename node ∈ otherHolds ↔ node ∈ holds

/-- **A node's turn does not depend on its name.** -/
theorem Renamed.nodeTurn (renamed : Renamed rename observations other)
    {holds otherHolds : Finset String} (sameHolds : RenamedHolds rename holds otherHolds)
    (running : BTreeMap Sha256 DesiredDeployment) (movement : Movement) (node : String) :
    Updatedc.nodeTurn other running otherHolds movement (rename node) =
      Updatedc.nodeTurn observations running holds movement node := by
  unfold Updatedc.nodeTurn
  simp only [sameHolds node, renamed.cordons node, renamed.placement, renamed.evidence,
    renamed.advanced]

theorem Renamed.nodes_perm (renamed : Renamed rename observations other) (name : String) :
    (other.nodes name).Perm ((observations.nodes name).map rename) := by
  refine (List.perm_ext_iff_of_nodup (nodup_filterMap_keys _ _)
    ((nodup_filterMap_keys _ _).map rename.injective)).mpr fun node => ?_
  obtain ⟨node, rfl⟩ := rename.surjective node
  have routed : rename node ∈ other.nodes name ↔ node ∈ observations.nodes name := by
    rw [Observations.mem_nodes, Observations.mem_nodes, renamed.nodeGroups]
  exact routed.trans (List.mem_map_of_injective rename.injective).symm

/-! ## One group -/

variable {holds otherHolds : Finset String}

/-- The walk over the renamed group, up to order. -/
theorem Renamed.groupTurns_perm (renamed : Renamed rename observations other)
    (sameHolds : RenamedHolds rename holds otherHolds)
    (running : BTreeMap Sha256 DesiredDeployment) (movement : Movement) (name : String) :
    (groupTurns other running otherHolds movement name).Perm
      ((groupTurns observations running holds movement name).map (Prod.map rename id)) := by
  unfold groupTurns
  refine ((renamed.nodes_perm name).map _).trans (.of_eq ?_)
  rw [List.map_map, List.map_map]
  refine List.map_congr_left fun node _ => ?_
  simp only [Function.comp_apply, Prod.map_apply, id_eq, renamed.nodeTurn sameHolds]

/-- Whether a turn stages a node with evidence of this kind. -/
def Turn.stagedAs (p : NodeEvidence → Bool) : Turn → Bool
  | .staged evidence _ => p evidence
  | _ => false

omit [Crates] in
theorem countP_stagedNodes (p : NodeEvidence → Bool) (q : String → Bool)
    (turns : List (String × Turn × Bool)) :
    (stagedNodes turns).countP (fun staged => p staged.evidence && q staged.node) =
      turns.countP fun entry => entry.2.1.stagedAs p && q entry.1 := by
  induction turns with
  | nil => rfl
  | cons entry rest ih =>
    obtain ⟨node, turn, charged⟩ := entry
    unfold stagedNodes at ih ⊢
    cases turn <;> simp [ih, Turn.stagedAs, List.countP_cons]

variable {groups : BTreeMap String ResolvedGroup} {admitted held : Admitted}
  {movementBlocks : Finset Sha256}

/-! ## All groups -/

/-- The turn of a node in the group it is routed to, if that group assigns anything. -/
def turnOf (groups : BTreeMap String ResolvedGroup) (admitted held : Admitted)
    (observations : Observations) (holds : Finset String) (movementBlocks : Finset Sha256)
    (node : String) : Option (DesiredDeployment × Turn) := do
  let name ← observations.nodeGroups[node]?
  let _ ← groups[name]?
  let state ← admitted[name]?
  let currentId ← deploymentIdentity state.current
  return (state.current, (nodeTurn observations (bodiesByIdentity (admitted.values ++ held.values))
    holds (state.movement currentId movementBlocks) node).1)

theorem Renamed.turnOf (renamed : Renamed rename observations other)
    (sameHolds : RenamedHolds rename holds otherHolds) (node : String) :
    Updatedc.turnOf groups admitted held other otherHolds movementBlocks (rename node) =
      Updatedc.turnOf groups admitted held observations holds movementBlocks node := by
  unfold Updatedc.turnOf
  simp only [renamed.nodeGroups, renamed.nodeTurn sameHolds]

/-- What a node that is not staged is assigned: `current` if its turn says so. -/
theorem getElem?_assignNodes_of_unstaged {node : String}
    (unstaged : ∀ current evidence hold,
      turnOf groups admitted held observations holds movementBlocks node ≠
        some (current, .staged evidence hold)) :
    (assignNodes groups admitted held observations holds movementBlocks)[node]? =
      (turnOf groups admitted held observations holds movementBlocks node).bind fun turn =>
        match turn.2 with
        | .current => some turn.1
        | _ => none := by
  refine Option.ext fun deployment => ?_
  constructor
  · intro found
    obtain ⟨name, group, state, currentId, routed, planned, entry, id, how⟩ := exists_assigned found
    have turn : turnOf groups admitted held observations holds movementBlocks node =
        some (state.current, (nodeTurn observations
          (bodiesByIdentity (admitted.values ++ held.values)) holds
          (state.movement currentId movementBlocks) node).1) := by
      simp [turnOf, routed, planned, entry, id]
    cases how with
    | immediate is => simp [turn, is]
    | granted evidence hold is => exact absurd (is ▸ turn) (unstaged _ evidence hold)
    | left evidence _ is => exact absurd (is ▸ turn) (unstaged _ evidence (some deployment))
  · intro found
    obtain ⟨⟨current, turn⟩, known, chosen⟩ := Option.bind_eq_some_iff.mp found
    simp only [turnOf, Option.bind_eq_bind, Option.bind_eq_some_iff, Option.pure_def,
      Option.some.injEq, Prod.mk.injEq] at known
    obtain ⟨name, routed, group, planned, state, entry, currentId, id, rfl, is⟩ := known
    cases turn with
    | leave => cases chosen
    | staged evidence hold => cases chosen
    | current =>
      obtain rfl := Option.some.inj chosen
      exact assignNodes_of_current planned entry routed id is

/-! ## Staged nodes that move -/

/-- The nodes of a group that are staged on evidence of this kind and that the assignment puts on
the group's `current`. -/
def movedAs (p : NodeEvidence → Bool) (groups : BTreeMap String ResolvedGroup)
    (admitted held : Admitted) (observations : Observations) (holds : Finset String)
    (movementBlocks : Finset Sha256) (name : String) : List String :=
  (observations.nodes name).filter fun node =>
    (turnOf groups admitted held observations holds movementBlocks node).any fun turn =>
      turn.2.stagedAs p &&
        (assignNodes groups admitted held observations holds movementBlocks)[node]? = some turn.1

section
variable {name : String} {group : ResolvedGroup} {state : AdmittedDeployment} {currentId : Sha256}
  (planned : groups[name]? = some group) (entry : admitted[name]? = some state)
  (id : deploymentIdentity state.current = some currentId)
include planned entry id

/-- **The budget's answer is what a staged node is assigned**: it is put on `current` if it was
granted a move, and otherwise left on a body that is not `current`. -/
theorem getElem?_assignNodes_of_staged {staged : Staged} {granted : Bool}
    (move : (staged, granted) ∈ groupMoves group.maxUnavailable
      (state.movement currentId movementBlocks).blockedNow (groupTurns observations
        (bodiesByIdentity (admitted.values ++ held.values)) holds
        (state.movement currentId movementBlocks) name)) :
    (assignNodes groups admitted held observations holds movementBlocks)[staged.node]? =
      some state.current ↔ granted = true := by
  obtain ⟨listed, turn⟩ := mem_stagedNodes.mp (mem_of_mem_grantMoves move)
  constructor
  · intro found
    obtain ⟨name', group', state', currentId', routed, planned', entry', id', how⟩ :=
      exists_assigned found
    obtain rfl := Option.some.inj ((observations.mem_nodes.mp listed).symm.trans routed)
    obtain rfl := Option.some.inj (planned.symm.trans planned')
    obtain rfl := Option.some.inj (entry.symm.trans entry')
    obtain rfl := Option.some.inj (id.symm.trans id')
    generalize same : state.current = current at how
    cases how with
    | immediate now => cases turn.symm.trans now
    | granted evidence hold now other =>
      -- The budget answers a node once.
      exact congrArg Prod.snd (List.inj_on_of_nodup_map nodup_groupMoves move other rfl)
    | left evidence _ now =>
      -- A node already on `current` is not staged.
      rw [← same] at now
      obtain ⟨identity, known, there⟩ :=
        advanced_of_left (fun _ _ => deploymentIdentity_of_bodiesByIdentity) now
      cases id.symm.trans known
      have free : staged.node ∉ holds := fun hold => by
        rw [nodeTurn, if_pos hold] at turn
        cases turn
      cases turn.symm.trans (nodeTurn_of_advanced free there)
  · rintro rfl
    refine getElem?_assignNodes_of_mem planned entry ?_
    unfold assignGroup
    rw [id]
    exact List.mem_append_right _ (List.mem_filterMap.mpr ⟨_, move, rfl⟩)

/-- How many nodes move is how many moves the budget grants. -/
theorem length_movedAs (p : NodeEvidence → Bool) :
    (movedAs p groups admitted held observations holds movementBlocks name).length =
      (groupMoves group.maxUnavailable (state.movement currentId movementBlocks).blockedNow
        (groupTurns observations (bodiesByIdentity (admitted.values ++ held.values)) holds
          (state.movement currentId movementBlocks) name)).countP
        fun move => move.2 && p move.1.evidence := by
  let assigned := assignNodes groups admitted held observations holds movementBlocks
  let movement := state.movement currentId movementBlocks
  let turns := groupTurns observations (bodiesByIdentity (admitted.values ++ held.values)) holds
    movement name
  have walked : (movedAs p groups admitted held observations holds movementBlocks name).length =
      turns.countP fun entry =>
        entry.2.1.stagedAs p && decide (assigned[entry.1]? = some state.current) := by
    rw [movedAs, ← List.countP_eq_length_filter]
    simp only [turns, groupTurns, List.countP_map]
    refine List.countP_congr fun node listed => ?_
    have turn : turnOf groups admitted held observations holds movementBlocks node =
        some (state.current, (nodeTurn observations
          (bodiesByIdentity (admitted.values ++ held.values)) holds movement node).1) := by
      simp [turnOf, observations.mem_nodes.mp listed, planned, entry, id, movement]
    rw [turn]
    rfl
  have perm := map_fst_grantMoves_perm group.maxUnavailable (turns.countP (·.2.2))
    movement.blockedNow (stagedNodes turns)
  rw [walked, ← countP_stagedNodes p fun node => decide (assigned[node]? = some state.current),
    ← perm.countP_eq, List.countP_map]
  refine List.countP_congr fun move listed => ?_
  have answer := getElem?_assignNodes_of_staged planned entry id listed
  simp only [Function.comp_apply, Bool.and_eq_true, decide_eq_true_eq, assigned, answer]
  exact and_comm

end

/-- A group without an entry it can publish moves nobody. -/
theorem movedAs_eq_nil {name : String} (p : NodeEvidence → Bool)
    (idle : ∀ group state currentId, groups[name]? = some group → admitted[name]? = some state →
      deploymentIdentity state.current ≠ some currentId) :
    movedAs p groups admitted held observations holds movementBlocks name = [] := by
  refine List.filter_eq_nil_iff.mpr fun node listed moved => ?_
  obtain ⟨turn, known, -⟩ := (Option.any_eq_true _ _).mp moved
  simp only [turnOf, observations.mem_nodes.mp listed, Option.bind_eq_bind, Option.bind_some,
    Option.bind_eq_some_iff] at known
  obtain ⟨group, planned, state, entry, currentId, id, -⟩ := known
  exact idle group state currentId planned entry id

/-- **Each of the two sweeps moves as many nodes under either naming.** -/
theorem Renamed.length_movedAs (renamed : Renamed rename observations other)
    (sameHolds : RenamedHolds rename holds otherHolds) (name : String) :
    (movedAs (· = .broken) groups admitted held other otherHolds movementBlocks name).length =
        (movedAs (· = .broken) groups admitted held observations holds movementBlocks
          name).length ∧
      (movedAs (· ≠ .broken) groups admitted held other otherHolds movementBlocks name).length =
        (movedAs (· ≠ .broken) groups admitted held observations holds movementBlocks
          name).length := by
  by_cases idle : ∀ group state currentId, groups[name]? = some group →
      admitted[name]? = some state → deploymentIdentity state.current ≠ some currentId
  · simp only [movedAs_eq_nil _ idle, and_self]
  push Not at idle
  obtain ⟨group, state, currentId, planned, entry, id⟩ := idle
  simp only [Updatedc.length_movedAs planned entry id, groupMoves]
  generalize state.movement currentId movementBlocks = movement
  have turns := renamed.groupTurns_perm sameHolds
    (bodiesByIdentity (admitted.values ++ held.values)) movement name
  have counts (q : Turn × Bool → Bool) :
      (groupTurns other (bodiesByIdentity (admitted.values ++ held.values)) otherHolds
        movement name).countP (fun entry => q entry.2) =
      (groupTurns observations (bodiesByIdentity (admitted.values ++ held.values)) holds
        movement name).countP fun entry => q entry.2 := by
    rw [turns.countP_eq, List.countP_map]
    rfl
  have staged (p : NodeEvidence → Bool) :
      (stagedNodes (groupTurns other (bodiesByIdentity (admitted.values ++ held.values))
        otherHolds movement name)).countP (p ·.evidence) =
      (stagedNodes (groupTurns observations (bodiesByIdentity (admitted.values ++ held.values))
        holds movement name)).countP (p ·.evidence) := by
    have here := countP_stagedNodes p fun _ => true
    simp only [Bool.and_true] at here
    rw [here, here, counts fun turn => turn.1.stagedAs p]
  rw [countP_grantMoves_broken, countP_grantMoves_broken, countP_grantMoves_others,
    countP_grantMoves_others, counts fun turn => turn.2, staged fun evidence => evidence = .broken,
    staged fun evidence => evidence ≠ .broken]
  exact ⟨rfl, rfl⟩

/-- **Node names do not change the pace.** Under every renaming of the nodes, the assignment moves
in each group as many broken nodes and as many other staged nodes onto its `current`, the same
nodes are staged up to the renaming, and every other node is assigned the same. -/
theorem assignNodes_renamed (groups : BTreeMap String ResolvedGroup) (admitted held : Admitted)
    (movementBlocks : Finset Sha256) (rename : String ≃ String) (observations other : Observations)
    (holds otherHolds : Finset String) (renamed : Renamed rename observations other)
    (sameHolds : RenamedHolds rename holds otherHolds) :
    (∀ name,
      (movedAs (· = .broken) groups admitted held other otherHolds movementBlocks name).length =
          (movedAs (· = .broken) groups admitted held observations holds movementBlocks
            name).length ∧
        (movedAs (· ≠ .broken) groups admitted held other otherHolds movementBlocks name).length =
          (movedAs (· ≠ .broken) groups admitted held observations holds movementBlocks
            name).length) ∧
    ∀ node,
      turnOf groups admitted held other otherHolds movementBlocks (rename node) =
        turnOf groups admitted held observations holds movementBlocks node ∧
      ((∀ current evidence hold,
        turnOf groups admitted held observations holds movementBlocks node ≠
          some (current, .staged evidence hold)) →
        (assignNodes groups admitted held other otherHolds movementBlocks)[rename node]? =
          (assignNodes groups admitted held observations holds movementBlocks)[node]?) := by
  refine ⟨fun name => renamed.length_movedAs sameHolds name, fun node => ?_⟩
  have turn : turnOf groups admitted held other otherHolds movementBlocks (rename node) =
      turnOf groups admitted held observations holds movementBlocks node :=
    renamed.turnOf sameHolds node
  refine ⟨turn, fun unstaged => ?_⟩
  rw [getElem?_assignNodes_of_unstaged unstaged, getElem?_assignNodes_of_unstaged, turn]
  rwa [turn]

end

end Updatedc

namespace Updatedc.Sample

open Contracts

/-- Node `m` is broken and `n` is healthy. -/
def brokenFirst : RolloutInputs :=
  { retarget with reports := table [("m", envelope 109 97 1 1), ("n", envelope 110 97 0 1)] }

/-- The same with the names exchanged. -/
def brokenLast : RolloutInputs :=
  { retarget with reports := table [("m", envelope 109 97 0 1), ("n", envelope 110 97 1 1)] }

theorem getElem?_table_of_absent {v : Type} {entries : List (String × v)} {node : String}
    (absent : node ∉ entries.map Prod.fst) : (table entries)[node]? = none := by
  cases found : (table entries)[node]? with
  | none => rfl
  | some value =>
    exact absurd (List.mem_map_of_mem (BTreeMap.mem_of_getElem?_ofList found)) absent

theorem brokenLast_renamed :
    Renamed (Equiv.swap "m" "n") (brokenFirst.observations .empty 1000000000)
      (brokenLast.observations .empty 1000000000) := by
  -- the two nodes are evaluated, and nothing is known about any other
  have nodes (p : String → Prop) (first : p "m") (second : p "n")
      (rest : ∀ node, node ≠ "m" → node ≠ "n" → p node) (node : String) : p node := by
    by_cases isM : node = "m"
    · exact isM ▸ first
    · by_cases isN : node = "n"
      · exact isN ▸ second
      · exact rest node isM isN
  have absent {v : Type} (first second : v) {node : String} (notM : node ≠ "m")
      (notN : node ≠ "n") : (table [("m", first), ("n", second)])[node]? = none :=
    getElem?_table_of_absent (by simp [notM, notN])
  constructor
  · refine nodes _ (by decide) (by decide) fun node notM notN => ?_
    rw [Equiv.swap_apply_of_ne_of_ne notM notN]
    rfl
  · refine nodes _ ?_ ?_ fun node notM notN => ?_
    · rw [Equiv.swap_apply_left]
      have here : (brokenFirst.observations .empty 1000000000).report "m" =
          some (report ((ResourceName.new? "m").get (by decide)) 97 1 1) := by decide
      have there : (brokenLast.observations .empty 1000000000).report "n" =
          some (report ((ResourceName.new? "n").get (by decide)) 97 1 1) := by decide
      rw [here, there]
      exact .some ⟨_, rfl⟩
    · rw [Equiv.swap_apply_right]
      have here : (brokenFirst.observations .empty 1000000000).report "n" =
          some (report ((ResourceName.new? "n").get (by decide)) 97 0 1) := by decide
      have there : (brokenLast.observations .empty 1000000000).report "m" =
          some (report ((ResourceName.new? "m").get (by decide)) 97 0 1) := by decide
      rw [here, there]
      exact .some ⟨_, rfl⟩
    · rw [Equiv.swap_apply_of_ne_of_ne notM notN]
      have here : (brokenFirst.observations .empty 1000000000).reports[node]? = none :=
        absent _ _ notM notN
      have there : (brokenLast.observations .empty 1000000000).reports[node]? = none :=
        absent _ _ notM notN
      simp only [Observations.report, here, there]
      exact .none
  · refine nodes _ (by decide) (by decide) fun node notM notN => ?_
    rw [Equiv.swap_apply_of_ne_of_ne notM notN]
    rfl
  · refine nodes _ (by decide) (by decide) fun node notM notN => ?_
    rw [Equiv.swap_apply_of_ne_of_ne notM notN]
    rfl
  · exact fun node => iff_of_false (Finset.notMem_empty _) (Finset.notMem_empty _)

/-- The broken node is assigned `current` under either name, and uses up the budget. -/
theorem assignNodes_renamed_swapped :
    let admitted := table [("g", { current := deployment "b" {}, previous := [deployment "a" {}] })]
    movedAs (· = .broken) retarget.groups admitted ∅ (brokenFirst.observations .empty 1000000000)
        ∅ ∅ "g" = ["m"] ∧
      (movedAs (· = .broken) retarget.groups admitted ∅
        (brokenLast.observations .empty 1000000000) ∅ ∅ "g").length = 1 := by
  intro admitted
  have first : movedAs (· = .broken) retarget.groups admitted ∅
      (brokenFirst.observations .empty 1000000000) ∅ ∅ "g" = ["m"] := by decide
  have same := (assignNodes_renamed retarget.groups admitted ∅ ∅ (Equiv.swap "m" "n") _ _ ∅ ∅
    brokenLast_renamed
    fun _ => iff_of_false (Finset.notMem_empty _) (Finset.notMem_empty _)).1 "g"
  exact ⟨first, same.1.trans (congrArg List.length first)⟩

end Updatedc.Sample
