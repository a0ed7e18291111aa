import Updatedc.Rollout.Retention

/-!
# The regression verdict and its rollback response (`updatec/src/rollout.rs:1239–1667`)

Nodes durably reject deployments. Once enough distinct nodes have rejected one identity, the
verdict *halts* it everywhere; a durable veto is a halt whatever the reports still say. Where
every governing set asks for it, the response then rebases a halted group onto the newest
predecessor movement is not blocked from, and records the veto.

The verdict is characterised by `mem_halts_iff`: an identity is halted exactly when it is vetoed,
or is the identity of an admitted `current` or a desired deployment whose provers reach its
threshold.
-/

namespace Updatedc

open Contracts

variable [Crates]

/-! ## Sets and the identities their members name -/

/-- The planned groups a set governs, in name order. -/
def setMembers (set : UpdateGroupSet) (desired : BTreeMap String DesiredDeployment)
    (groupLabels : BTreeMap String Labels) : List String :=
  desired.keys.filter fun name => groupLabels[name]?.any (selectorMatches set.matchLabels)

/-- The identities a group currently names: its admitted current and its desired deployment. -/
def namedIdentities (group : String) (desired : BTreeMap String DesiredDeployment)
    (admitted : Admitted) : List Sha256 :=
  ((admitted[group]?.map (·.current)).toList ++ desired[group]?.toList).filterMap
    deploymentIdentity

/-! ## The verdict -/

structure Regressions where
  /-- The nodes whose evidence proves they attempted an identity and rolled back. -/
  proofs : BTreeMap Sha256 (Finset String)
  /-- The name and the number of provers of each identity at or over its threshold. -/
  halts : BTreeMap Sha256 (String × Nat)

/-- The bodies the verdict looks for evidence about. -/
def candidates (admitted : Admitted) (desired : BTreeMap String DesiredDeployment) :
    List DesiredDeployment :=
  admitted.values.map (·.current) ++ desired.values

/-- One target of the evidence walk. -/
def gatherStep (observed : ObservationLog) (evidence : BTreeMap Sha256 (String × Finset String))
    (target : DesiredDeployment) : BTreeMap Sha256 (String × Finset String) :=
  match deploymentIdentity target with
  | none => evidence
  | some identity =>
    if evidence.contains identity || observed.provers identity = ∅ then evidence
    else evidence.insert identity (target.deployment, observed.provers identity)

/-- The rejecting nodes of every candidate that has one, under the first candidate's name. -/
def gatherEvidence (observed : ObservationLog) (targets : List DesiredDeployment) :
    BTreeMap Sha256 (String × Finset String) :=
  targets.foldl (gatherStep observed) ∅

/-- A set's `maxRegressions`, one unless it says more. -/
def UpdateGroupSet.regressionThreshold (set : UpdateGroupSet) : Nat :=
  max (set.maxRegressions.getD 1) 1

variable (sets : List UpdateGroupSet) {blocks : Finset Sha256}

/-- The tightest threshold among the sets whose members name the identity, one when none does. -/
def threshold (desired : BTreeMap String DesiredDeployment) (groupLabels : BTreeMap String Labels)
    (admitted : Admitted) (identity : Sha256) : Nat :=
  let naming := sets.filter fun set => (setMembers set desired groupLabels).any fun member =>
    (namedIdentities member desired admitted).contains identity
  (naming.map UpdateGroupSet.regressionThreshold).min?.getD 1

def regressionVerdict (desired : BTreeMap String DesiredDeployment)
    (groupLabels : BTreeMap String Labels) (admitted : Admitted) (observed : ObservationLog)
    (vetoed : BTreeMap Sha256 VetoedDeployment) : Regressions :=
  let evidence := gatherEvidence observed (candidates admitted desired)
  let proven := evidence.filterMap fun identity (name, nodes) =>
    if nodes.card ≥ threshold sets desired groupLabels admitted identity then
      some (name, nodes.card)
    else none
  -- A durable veto is a halt; standing live evidence wins the entry.
  { halts := vetoed.toList.foldl
      (fun halts (identity, veto) => halts.insertIfNew identity (veto.deployment, veto.evidence))
      proven
    proofs := evidence.map fun _ (_, nodes) => nodes }

/-! ## The rollback response -/

/-- The groups every governing set of which says `rollback`; at least one governs them. -/
def rollbackGroups (desired : BTreeMap String DesiredDeployment)
    (groupLabels : BTreeMap String Labels) : List String :=
  desired.keys.filter fun group =>
    let governing := sets.filter fun set => (setMembers set desired groupLabels).contains group
    !governing.isEmpty && governing.all (·.onRegression = .rollback)

/-- One predecessor as a restoration of `current`: it has an identity, the current catalog can
return to it, and neither it nor its restoration is blocked. -/
def restoration (current : DesiredDeployment) (blocks : Finset Sha256)
    (deployment : DesiredDeployment) : Option DesiredDeployment := do
  let previousIdentity ← deploymentIdentity deployment
  let restored ← (current.rollbackTo deployment).toOption
  let restoredIdentity ← deploymentIdentity restored
  if previousIdentity ∉ blocks ∧ restoredIdentity ∉ blocks then return restored else none

/-- The newest permitted restoration, with its place in `previous`. -/
def rollbackTarget (current : DesiredDeployment) (previous : List DesiredDeployment)
    (blocks : Finset Sha256) : Option (Nat × DesiredDeployment) :=
  previous.zipIdx.findSome? fun (deployment, index) =>
    (restoration current blocks deployment).map (index, ·)

/-- The rebase of one group: what it leaves, and where it goes. -/
structure Rebase where
  identity : Sha256
  index : Nat
  restored : DesiredDeployment

/-- A prover has completed its own rollback: it moved off the body, or is serving again and still
states the rejection. -/
def recovered (observations : Observations) (identity : Sha256) (node : String) : Bool :=
  match observations.report node with
  | some report =>
    if report.assignmentSha256 ≠ .canonical identity then true
    else report.healthy && report.rejected
  | none => false

/-- Whether, and how, the response rebases a group. -/
def rebase? (policies : List String) (desired : BTreeMap String DesiredDeployment)
    (observations : Observations) (regressions : Regressions) (blocks : Finset Sha256)
    (name : String) (state : AdmittedDeployment) : Option Rebase :=
  if desired.contains name && policies.contains name then
    (deploymentIdentity state.current).bind fun identity =>
      if regressions.halts.contains identity then
        (rollbackTarget state.current state.previous blocks).bind fun (index, restored) =>
          let provers := regressions.proofs[identity]?.getD ∅
          -- Only the provers this rebase moves are waited for: the group's own members.
          if (observations.nodes name).all fun node =>
              node ∉ provers || recovered observations identity node then
            some { identity, index, restored }
          else none
      else none
  else none

/-- The halted body and the predecessor stay stored while the restoration becomes `current`. -/
def AdmittedDeployment.rebased (state : AdmittedDeployment) (rebase : Rebase) :
    AdmittedDeployment :=
  let predecessor := state.previous[rebase.index]?
  let rest := state.previous.eraseIdx rebase.index
  let previous :=
    if predecessor = some rebase.restored then rest else predecessor.toList ++ rest
  { current := rebase.restored, previous := state.current :: previous }

/-- A node count as the `u32` a status or a veto records. -/
def asU32 (count : Nat) : Nat := count % 2 ^ 32

/-- The veto a rebase leaves behind; the first one recorded for an identity stands. -/
def recordVeto (regressions : Regressions) (vetoed : BTreeMap Sha256 VetoedDeployment)
    (rebase : Rebase) : BTreeMap Sha256 VetoedDeployment :=
  match regressions.halts[rebase.identity]? with
  | some (deployment, evidence) =>
    vetoed.insertIfNew rebase.identity { deployment, evidence := asU32 evidence }
  | none => vetoed

/-- The `onRegression: rollback` response over the whole admitted map. -/
def rollbackResponse (desired : BTreeMap String DesiredDeployment)
    (groupLabels : BTreeMap String Labels) (observations : Observations) (regressions : Regressions)
    (blocks : Finset Sha256) (admitted : Admitted) (vetoed : BTreeMap Sha256 VetoedDeployment) :
    Admitted × BTreeMap Sha256 VetoedDeployment :=
  let policies := rollbackGroups sets desired groupLabels
  let rebase := rebase? policies desired observations regressions blocks
  let rebases := admitted.toList.filterMap fun (name, state) => rebase name state
  (admitted.map fun name state => (rebase name state).elim state state.rebased,
    rebases.foldl (recordVeto regressions) vetoed)

/-! ## What the verdict says -/

/-- Some admitted `current` or desired deployment has this identity. -/
def IsCandidate (admitted : Admitted) (desired : BTreeMap String DesiredDeployment)
    (identity : Sha256) : Prop :=
  ∃ target ∈ candidates admitted desired, deploymentIdentity target = some identity

section
variable {observed : ObservationLog} {identity : Sha256}

/-- The evidence gathered for an identity is the whole set of its provers. -/
private theorem gatherStep_sound {evidence : BTreeMap Sha256 (String × Finset String)}
    (sound : ∀ id entry, evidence[id]? = some entry → entry.2 = observed.provers id)
    (target : DesiredDeployment) :
    ∀ id entry, (gatherStep observed evidence target)[id]? = some entry →
      entry.2 = observed.provers id := by
  intro id entry found
  unfold gatherStep at found
  split at found
  · exact sound id entry found
  · next identity _ =>
    split at found
    · exact sound id entry found
    · rw [BTreeMap.getElem?_insert] at found
      split at found
      · next same => cases found; rw [same]
      · exact sound id entry found

private theorem mem_gatherStep (evidence : BTreeMap Sha256 (String × Finset String))
    (target : DesiredDeployment) :
    identity ∈ gatherStep observed evidence target ↔
      identity ∈ evidence ∨
        (observed.provers identity ≠ ∅ ∧ deploymentIdentity target = some identity) := by
  unfold gatherStep
  split
  · next none => simp [none]
  · next id found =>
    split
    · next known =>
      simp only [Bool.or_eq_true, decide_eq_true_eq] at known
      constructor
      · exact .inl
      · rintro (member | ⟨proven, same⟩)
        · exact member
        · cases found.symm.trans same
          rcases known with member | unproven
          · exact Std.ExtTreeMap.contains_iff_mem.mp member
          · exact absurd unproven proven
    · next fresh =>
      simp only [Bool.or_eq_true, decide_eq_true_eq, not_or] at fresh
      rw [Std.ExtTreeMap.mem_insert, Std.LawfulEqCmp.compare_eq_iff_eq, found]
      constructor
      · rintro (rfl | member)
        · exact .inr ⟨fresh.2, rfl⟩
        · exact .inl member
      · rintro (member | ⟨-, same⟩)
        · exact .inr member
        · cases same; exact .inl rfl

private theorem foldl_gatherStep_sound (targets : List DesiredDeployment) :
    ∀ evidence : BTreeMap Sha256 (String × Finset String),
      (∀ id entry, evidence[id]? = some entry → entry.2 = observed.provers id) →
      ∀ id entry, (targets.foldl (gatherStep observed) evidence)[id]? = some entry →
        entry.2 = observed.provers id := by
  induction targets with
  | nil => exact fun _ sound => sound
  | cons target rest ih => exact fun evidence sound => ih _ (gatherStep_sound sound target)

private theorem mem_foldl_gatherStep (targets : List DesiredDeployment) :
    ∀ evidence : BTreeMap Sha256 (String × Finset String),
      identity ∈ targets.foldl (gatherStep observed) evidence ↔
        identity ∈ evidence ∨ (observed.provers identity ≠ ∅ ∧
          ∃ target ∈ targets, deploymentIdentity target = some identity) := by
  induction targets with
  | nil => simp
  | cons target rest ih =>
    intro evidence
    rw [List.foldl_cons, ih, mem_gatherStep]
    simp only [List.mem_cons, exists_eq_or_imp]
    tauto

/-- Evidence is gathered for exactly the candidates some node has rejected, and is all of it. -/
theorem getElem?_gatherEvidence (targets : List DesiredDeployment) (id : Sha256)
    (entry : String × Finset String)
    (found : (gatherEvidence observed targets)[id]? = some entry) :
    entry.2 = observed.provers id :=
  foldl_gatherStep_sound targets ∅ (by simp) id entry found

theorem mem_gatherEvidence (targets : List DesiredDeployment) :
    identity ∈ gatherEvidence observed targets ↔
      observed.provers identity ≠ ∅ ∧
        ∃ target ∈ targets, deploymentIdentity target = some identity := by
  rw [gatherEvidence, mem_foldl_gatherStep]
  simp

end

section
variable {sets : List UpdateGroupSet} {desired : BTreeMap String DesiredDeployment}
  {groupLabels : BTreeMap String Labels} {admitted : Admitted} {observed : ObservationLog}
  {vetoed : BTreeMap Sha256 VetoedDeployment} {identity : Sha256}

/-- No threshold is below one: a halt always rests on some node's rejection. -/
theorem one_le_threshold :
    1 ≤ threshold sets desired groupLabels admitted identity := by
  unfold threshold
  extract_lets naming
  cases least : (naming.map UpdateGroupSet.regressionThreshold).min? with
  | none => simp
  | some value =>
    have member := List.min?_mem least
    obtain ⟨set, -, rfl⟩ := List.mem_map.mp member
    exact Nat.le_max_right _ _

omit [Crates] in
/-- Adding the vetoes to a map of halts adds exactly the vetoed identities. -/
private theorem mem_foldl_vetoes (entries : List (Sha256 × VetoedDeployment)) :
    ∀ halts : BTreeMap Sha256 (String × Nat),
      identity ∈ entries.foldl
          (fun halts (id, veto) => halts.insertIfNew id (veto.deployment, veto.evidence)) halts ↔
        identity ∈ halts ∨ identity ∈ entries.map Prod.fst := by
  induction entries with
  | nil => simp
  | cons entry rest ih =>
    intro halts
    rw [List.foldl_cons, ih, Std.ExtTreeMap.mem_insertIfNew,
      Std.LawfulEqCmp.compare_eq_iff_eq, List.map_cons, List.mem_cons, eq_comm]
    tauto

/-- **The verdict**: an identity is halted exactly when it is vetoed, or is a candidate's and its
provers reach its threshold. -/
theorem mem_halts_iff :
    identity ∈ (regressionVerdict sets desired groupLabels admitted observed vetoed).halts ↔
      identity ∈ vetoed ∨ (IsCandidate admitted desired identity ∧
        threshold sets desired groupLabels admitted identity ≤
          (observed.provers identity).card) := by
  unfold regressionVerdict
  extract_lets evidence proven
  rw [mem_foldl_vetoes, Std.ExtTreeMap.map_fst_toList_eq_keys, Std.ExtTreeMap.mem_keys, or_comm]
  refine or_congr_right ?_
  -- Below the vetoes stand the candidates whose evidence reaches the threshold.
  rw [Std.ExtTreeMap.mem_iff_isSome_getElem?, Std.ExtTreeMap.getElem?_filterMap',
    Option.isSome_iff_exists]
  constructor
  · rintro ⟨halt, found⟩
    obtain ⟨⟨name, nodes⟩, gathered, reached⟩ := Option.bind_eq_some_iff.mp found
    have member : identity ∈ evidence :=
      Std.ExtTreeMap.mem_iff_isSome_getElem?.mpr (by simp [gathered])
    have provers := getElem?_gatherEvidence _ _ _ gathered
    refine ⟨((mem_gatherEvidence _).mp member).2, ?_⟩
    by_cases enough :
        nodes.card ≥ threshold sets desired groupLabels admitted identity
    · exact provers ▸ enough
    · simp [enough] at reached
  · rintro ⟨candidate, enough⟩
    have proven : observed.provers identity ≠ ∅ := by
      intro none
      rw [none, Finset.card_empty] at enough
      exact absurd (one_le_threshold.trans enough) (by decide)
    have member : identity ∈ evidence := (mem_gatherEvidence _).mpr ⟨proven, candidate⟩
    obtain ⟨entry, gathered⟩ := Option.isSome_iff_exists.mp
      (Std.ExtTreeMap.mem_iff_isSome_getElem?.mp member)
    have provers := getElem?_gatherEvidence _ _ _ gathered
    refine ⟨(entry.1, entry.2.card), Option.bind_eq_some_iff.mpr ⟨entry, gathered, ?_⟩⟩
    rw [← provers] at enough
    exact if_pos enough

/-- A candidate's proofs are all its remembered provers. -/
theorem proofs_of_candidate (candidate : IsCandidate admitted desired identity) :
    (regressionVerdict sets desired groupLabels admitted observed vetoed).proofs[identity]?.getD ∅
      = observed.provers identity := by
  unfold regressionVerdict
  extract_lets evidence proven
  rw [Std.ExtTreeMap.getElem?_map]
  cases gathered : evidence[identity]? with
  | some entry => exact getElem?_gatherEvidence _ _ _ gathered
  | none =>
    -- Nothing was gathered for a candidate, so no node has rejected it.
    by_contra proven
    have member : identity ∈ evidence :=
      (mem_gatherEvidence _).mpr ⟨fun none => proven none.symm, candidate⟩
    rw [Std.ExtTreeMap.mem_iff_isSome_getElem?, gathered] at member
    cases member

end

/-! ## What the response does -/

/-- A restoration can be published, and movement onto it is not blocked. -/
theorem restoration_permitted {current deployment restored : DesiredDeployment}
    (h : restoration current blocks deployment = some restored) :
    ∃ identity, deploymentIdentity restored = some identity ∧ identity ∉ blocks := by
  simp only [restoration, Option.bind_eq_bind, Option.bind_eq_some_iff] at h
  obtain ⟨previousIdentity, -, body, -, identity, found, permitted⟩ := h
  split at permitted
  · next open_ =>
    cases permitted
    exact ⟨identity, found, open_.2⟩
  · cases permitted

/-- A restoration is the rollback of the current to the predecessor. -/
theorem rollbackTo_of_restoration {current previous restored : DesiredDeployment}
    (h : restoration current blocks previous = some restored) :
    current.rollbackTo previous = .ok restored := by
  simp only [restoration, Option.bind_eq_bind, Option.bind_eq_some_iff] at h
  obtain ⟨_, -, body, rolled, _, -, permitted⟩ := h
  split at permitted
  · cases permitted
    exact Except.toOption_eq_some_iff.mp rolled
  · cases permitted

/-- A rollback target restores one of the predecessors. -/
theorem exists_restoration {current : DesiredDeployment} {previous : List DesiredDeployment}
    {index : Nat} {restored : DesiredDeployment}
    (h : rollbackTarget current previous blocks = some (index, restored)) :
    ∃ deployment ∈ previous, restoration current blocks deployment = some restored := by
  obtain ⟨⟨deployment, i⟩, member, found⟩ := List.exists_of_findSome?_eq_some h
  obtain ⟨body, restores, pair⟩ := Option.map_eq_some_iff.mp found
  cases pair
  exact ⟨deployment, (List.mem_zipIdx' member).2 ▸ List.getElem_mem _, restores⟩

omit [Crates] in
/-- A rebase drops no body: the halted one, its predecessors and the restoration are all still
stored. -/
theorem mem_bodies_rebased {state : AdmittedDeployment} {deployment : DesiredDeployment}
    (rebase : Rebase) (h : deployment ∈ state.bodies) :
    deployment ∈ (state.rebased rebase).bodies := by
  unfold AdmittedDeployment.rebased
  extract_lets predecessor rest previous
  rcases List.mem_cons.mp h with rfl | member
  · exact List.mem_cons_of_mem _ List.mem_cons_self
  · -- The predecessor at `index` is put back unless it is the restoration itself.
    obtain ⟨i, inside, rfl⟩ := List.mem_iff_getElem.mp member
    rcases eq_or_ne i rebase.index with rfl | other
    · by_cases same : predecessor = some rebase.restored
      · have here : predecessor = some state.previous[rebase.index] :=
          List.getElem?_eq_getElem inside
        rw [Option.some.inj (here.symm.trans same)]
        exact List.mem_cons_self
      · refine List.mem_cons_of_mem _ (List.mem_cons_of_mem _ ?_)
        rw [show previous = predecessor.toList ++ rest from if_neg same]
        simp [predecessor, inside]
    · have kept : state.previous[i] ∈ rest := by
        rw [List.mem_eraseIdx_iff_getElem]
        exact ⟨i, inside, other, rfl⟩
      refine List.mem_cons_of_mem _ (List.mem_cons_of_mem _ ?_)
      by_cases same : predecessor = some rebase.restored <;> simp [previous, same, kept]

section
variable {policies : List String} {sets : List UpdateGroupSet}
  {desired : BTreeMap String DesiredDeployment} {groupLabels : BTreeMap String Labels}
  {observations : Observations} {regressions : Regressions} {blocks : Finset Sha256}
  {admitted : Admitted} {vetoed : BTreeMap Sha256 VetoedDeployment}

/-- What it takes to rebase a group. -/
structure RebaseGates (policies : List String) (desired : BTreeMap String DesiredDeployment)
    (observations : Observations) (regressions : Regressions) (blocks : Finset Sha256)
    (name : String) (state : AdmittedDeployment) (rebase : Rebase) : Prop where
  planned : name ∈ desired
  unanimous : name ∈ policies
  left : deploymentIdentity state.current = some rebase.identity
  halted : rebase.identity ∈ regressions.halts
  target : rollbackTarget state.current state.previous blocks =
    some (rebase.index, rebase.restored)
  recovered : ∀ node ∈ observations.nodes name,
    node ∈ regressions.proofs[rebase.identity]?.getD ∅ →
      Updatedc.recovered observations rebase.identity node = true

theorem rebase?_gates {name : String} {state : AdmittedDeployment} {rebase : Rebase}
    (h : rebase? policies desired observations regressions blocks name state = some rebase) :
    RebaseGates policies desired observations regressions blocks name state rebase := by
  unfold rebase? at h
  split at h
  · next governed =>
    obtain ⟨identity, left, h⟩ := Option.bind_eq_some_iff.mp h
    split at h
    · next halted =>
      obtain ⟨⟨index, restored⟩, target, h⟩ := Option.bind_eq_some_iff.mp h
      dsimp only at h
      split at h
      · next settled =>
        cases h
        simp only [Bool.and_eq_true] at governed
        refine ⟨Std.ExtTreeMap.contains_iff_mem.mp governed.1, by simpa using governed.2, left,
          Std.ExtTreeMap.contains_iff_mem.mp halted, target, fun node member prover => ?_⟩
        simpa [prover] using List.all_eq_true.mp settled node member
      · cases h
    · cases h
  · cases h

variable (vetoed) in
theorem getElem?_rollbackResponse (name : String) :
    (rollbackResponse sets desired groupLabels observations regressions blocks admitted
        vetoed).1[name]? =
      admitted[name]?.map fun state =>
        (rebase? (rollbackGroups sets desired groupLabels) desired observations regressions
          blocks name state).elim state state.rebased := by
  rw [rollbackResponse, Std.ExtTreeMap.getElem?_map]

variable {identity : Sha256}

variable (vetoed) in
/-- Every body the response was given is still stored after it. -/
theorem resolves_rollbackResponse (h : admitted.Resolves identity) :
    (rollbackResponse sets desired groupLabels observations regressions blocks admitted
      vetoed).1.Resolves identity := by
  obtain ⟨name, state, deployment, entry, body, id⟩ := h
  refine ⟨name, _, deployment, by rw [getElem?_rollbackResponse, entry]; rfl, ?_, id⟩
  dsimp only
  cases rebase? (rollbackGroups sets desired groupLabels) desired observations regressions blocks
      name state with
  | none => exact body
  | some rebase => exact mem_bodies_rebased rebase body

omit [Crates] in
private theorem mem_foldl_recordVeto (rebases : List Rebase)
    (halted : ∀ rebase ∈ rebases, rebase.identity ∈ regressions.halts) :
    identity ∈ rebases.foldl (recordVeto regressions) vetoed ↔
      identity ∈ vetoed ∨ ∃ rebase ∈ rebases, rebase.identity = identity := by
  induction rebases generalizing vetoed with
  | nil => simp
  | cons rebase rest ih =>
    obtain ⟨⟨name, count⟩, found⟩ := Option.isSome_iff_exists.mp
      (Std.ExtTreeMap.mem_iff_isSome_getElem?.mp (halted rebase List.mem_cons_self))
    rw [List.foldl_cons, ih fun later member => halted later (List.mem_cons_of_mem _ member)]
    simp only [recordVeto, found, Std.ExtTreeMap.mem_insertIfNew,
      Std.LawfulEqCmp.compare_eq_iff_eq, List.mem_cons, exists_eq_or_imp]
    tauto

/-- The response keeps every veto and adds those of the identities its rebases leave. -/
theorem mem_rollbackResponse_vetoed :
    identity ∈ (rollbackResponse sets desired groupLabels observations regressions blocks admitted
        vetoed).2 ↔
      identity ∈ vetoed ∨ ∃ (name : String) (state : AdmittedDeployment) (rebase : Rebase),
        admitted[name]? = some state ∧
        rebase? (rollbackGroups sets desired groupLabels) desired observations regressions
          blocks name state = some rebase ∧ rebase.identity = identity := by
  refine (mem_foldl_recordVeto _ ?_).trans (or_congr_right ?_)
  · intro rebase member
    obtain ⟨⟨name, state⟩, -, found⟩ := List.mem_filterMap.mp member
    exact (rebase?_gates found).halted
  · constructor
    · rintro ⟨rebase, member, same⟩
      obtain ⟨⟨name, state⟩, stored, found⟩ := List.mem_filterMap.mp member
      exact ⟨name, state, rebase, Std.ExtTreeMap.mem_toList_iff_getElem?_eq_some.mp stored,
        found, same⟩
    · rintro ⟨name, state, rebase, stored, found, same⟩
      exact ⟨rebase, List.mem_filterMap.mpr ⟨(name, state),
        Std.ExtTreeMap.mem_toList_iff_getElem?_eq_some.mpr stored, found⟩, same⟩

end

end Updatedc
