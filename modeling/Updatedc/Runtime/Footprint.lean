import Updatedc.Runtime.Retention

/-!
# How much a run stores

Admission, rollback and a new repository default each add a body to an entry, and a pass does each
at most once. What drains an entry is retirement: it leaves the bodies nodes are placed on, which
are at most two for each node (what it was published and what it reports), and never more than one
besides the current. So the identities an entry names are bounded by the fleet, over runs of any
length (`Controller.run_footprint_le`).
-/

namespace Updatedc

open Contracts

variable [Crates]

/-- The identities these bodies have. -/
def identities (bodies : List DesiredDeployment) : Finset Sha256 :=
  (bodies.filterMap deploymentIdentity).toFinset

/-- The identities an entry names. -/
def AdmittedDeployment.identities (self : AdmittedDeployment) : Finset Sha256 :=
  Updatedc.identities self.bodies

namespace Observations

/-- The identities some node of the fleet is on. -/
def placed (self : Observations) : Finset Sha256 :=
  self.nodeGroups.keys.toFinset.biUnion fun node =>
    self.published[node]?.toFinset ∪
      ((self.report node).bind (·.assignmentSha256.digest?)).toFinset

/-- A node is on two identities at most. -/
theorem card_placed_le (self : Observations) :
    self.placed.card ≤ 2 * self.nodeGroups.size := by
  have each : ∀ node, (self.published[node]?.toFinset ∪
      ((self.report node).bind (·.assignmentSha256.digest?)).toFinset).card ≤ 2 := by
    intro node
    have one : ∀ option : Option Sha256, option.toFinset.card ≤ 1 := by
      intro option
      cases option <;> simp
    calc _ ≤ self.published[node]?.toFinset.card +
        ((self.report node).bind (·.assignmentSha256.digest?)).toFinset.card :=
          Finset.card_union_le _ _
      _ ≤ 1 + 1 := Nat.add_le_add (one _) (one _)
  calc self.placed.card
      ≤ ∑ node ∈ self.nodeGroups.keys.toFinset, (self.published[node]?.toFinset ∪
          ((self.report node).bind (·.assignmentSha256.digest?)).toFinset).card :=
        Finset.card_biUnion_le
    _ ≤ ∑ _node ∈ self.nodeGroups.keys.toFinset, 2 := Finset.sum_le_sum fun node _ => each node
    _ = self.nodeGroups.keys.toFinset.card * 2 := by rw [Finset.sum_const, smul_eq_mul]
    _ ≤ self.nodeGroups.keys.length * 2 := Nat.mul_le_mul_right 2 (List.toFinset_card_le _)
    _ = 2 * self.nodeGroups.size := by rw [Std.ExtTreeMap.length_keys, Nat.mul_comm]

theorem mem_placed {self : Observations} {deployment : DesiredDeployment} {identity : Sha256}
    (there : self.placedAnywhere deployment = true)
    (id : deploymentIdentity deployment = some identity) : identity ∈ self.placed := by
  unfold placedAnywhere at there
  rw [id] at there
  obtain ⟨node, fleet, advanced⟩ := List.any_eq_true.mp there
  refine Finset.mem_biUnion.mpr ⟨node, List.mem_toFinset.mpr fleet, Finset.mem_union.mpr ?_⟩
  rcases (Bool.or_eq_true _ _).mp advanced with published | reported
  · exact .inl (by simpa using published)
  · obtain ⟨report, found, same⟩ := (Option.any_eq_true _ _).mp reported
    refine .inr ?_
    rw [found, Option.bind_some, of_decide_eq_true same]
    simp

end Observations

/-- All of the entry's bodies but a few are ones nodes are placed on. -/
def AdmittedDeployment.Spares (observations : Observations) (few : Nat)
    (self : AdmittedDeployment) : Prop :=
  ∃ spare : List DesiredDeployment, spare.length ≤ few ∧
    ∀ deployment ∈ self.bodies, deployment ∈ spare ∨ observations.placedAnywhere deployment = true

namespace AdmittedDeployment.Spares

variable {observations : Observations} {state next : AdmittedDeployment} {few : Nat}

/-- An entry with few spare bodies names few identities. -/
theorem card_le (spares : state.Spares observations few) :
    state.identities.card ≤ 2 * observations.nodeGroups.size + few := by
  obtain ⟨spare, short, covers⟩ := spares
  have covered : state.identities ⊆ observations.placed ∪ Updatedc.identities spare := by
    intro identity named
    obtain ⟨deployment, body, id⟩ := List.mem_filterMap.mp (List.mem_toFinset.mp named)
    rcases covers deployment body with listed | there
    · exact Finset.mem_union_right _
        (List.mem_toFinset.mpr (List.mem_filterMap.mpr ⟨deployment, listed, id⟩))
    · exact Finset.mem_union_left _ (Observations.mem_placed there id)
  calc state.identities.card
      ≤ (observations.placed ∪ Updatedc.identities spare).card := Finset.card_le_card covered
    _ ≤ observations.placed.card + (Updatedc.identities spare).card := Finset.card_union_le _ _
    _ ≤ 2 * observations.nodeGroups.size + few := by
      refine Nat.add_le_add observations.card_placed_le ?_
      exact (List.toFinset_card_le _).trans ((List.length_filterMap_le _ _).trans short)

theorem mono {more : Nat} (spares : state.Spares observations few) (le : few ≤ more) :
    state.Spares observations more := by
  obtain ⟨spare, short, covers⟩ := spares
  exact ⟨spare, short.trans le, covers⟩

/-- An entry that adds one body to another has one more to spare. -/
theorem add (spares : state.Spares observations few) (body : DesiredDeployment)
    (adds : ∀ deployment ∈ next.bodies, deployment = body ∨ deployment ∈ state.bodies) :
    next.Spares observations (few + 1) := by
  obtain ⟨spare, short, covers⟩ := spares
  refine ⟨body :: spare, Nat.succ_le_succ short, fun deployment member => ?_⟩
  rcases adds deployment member with rfl | old
  · exact .inl List.mem_cons_self
  · exact (covers deployment old).imp_left (List.mem_cons_of_mem _)

end AdmittedDeployment.Spares

/-! ## The planner -/

section
variable {observations : Observations} {admitted : Admitted}
  {desired : BTreeMap String DesiredDeployment} {name : String} {state : AdmittedDeployment}

/-- Retirement leaves a planned group its current, and one predecessor nobody is on. -/
theorem spares_finishStaged (planned : desired.contains name = true) :
    (finishStaged admitted desired observations name state).Spares observations 2 := by
  have needed_placed : ∀ deployment, needed admitted observations deployment = true →
      observations.placedAnywhere deployment = true :=
    fun deployment keep => (Bool.and_eq_true_iff.mp keep).1
  -- Past the current, every body is the one kept for staging or a needed one.
  have shape : ∃ oldest : List DesiredDeployment, oldest.length ≤ 1 ∧
      ∀ deployment ∈ (finishStaged admitted desired observations name state).previous,
        deployment ∈ oldest ∨ observations.placedAnywhere deployment = true := by
    unfold finishStaged
    by_cases settled : (!desired.contains name || state.previous.isEmpty) = true
    · rw [if_pos settled]
      have none : state.previous = [] := by simpa [planned] using settled
      exact ⟨[], Nat.zero_le 1, by simp [none]⟩
    rw [if_neg settled]
    split_ifs
    · exact ⟨[], Nat.zero_le 1, fun deployment member =>
        .inr (needed_placed deployment (List.mem_filter.mp member).2)⟩
    · split
      · exact ⟨state.previous.take 1, List.length_take_le 1 _, fun deployment member => .inl member⟩
      · next live found =>
        refine ⟨[], Nat.zero_le 1, fun deployment member => .inr (needed_placed deployment ?_)⟩
        have kept : deployment ∈ state.previous.filter (needed admitted observations) := member
        exact (List.mem_filter.mp kept).2
  obtain ⟨oldest, short, covers⟩ := shape
  refine ⟨(finishStaged admitted desired observations name state).current :: oldest,
    Nat.succ_le_succ short, fun deployment member => ?_⟩
  rcases List.mem_cons.mp member with rfl | previous
  · exact .inl List.mem_cons_self
  · exact (covers deployment previous).imp_left (List.mem_cons_of_mem _)

/-- It leaves a deleted group only bodies nodes are on. -/
theorem spares_retireDeletedGroups (unplanned : desired.contains name = false)
    (found : (retireDeletedGroups admitted desired observations)[name]? = some state) :
    state.Spares observations 0 := by
  rw [getElem?_retireDeletedGroups] at found
  obtain ⟨before, -, live⟩ := Option.bind_eq_some_iff.mp found
  rw [unplanned, if_neg Bool.false_ne_true] at live
  refine ⟨[], Nat.le_refl 0, fun deployment member => .inr ?_⟩
  split at live
  · cases live
  · next current previous kept =>
    cases live
    have listed : deployment ∈ before.bodies.filter observations.placedAnywhere := kept ▸ member
    exact (List.mem_filter.mp listed).2

omit [Crates] in
/-- A rebase adds the restoration and nothing else. -/
theorem mem_of_mem_bodies_rebased {rebase : Rebase} {deployment : DesiredDeployment}
    (member : deployment ∈ (state.rebased rebase).bodies) :
    deployment = rebase.restored ∨ deployment ∈ state.bodies := by
  unfold AdmittedDeployment.rebased at member
  extract_lets predecessor rest previous at member
  have listed : ∀ other ∈ previous, other ∈ state.previous := by
    intro other kept
    have erased : other ∈ rest → other ∈ state.previous := List.mem_of_mem_eraseIdx
    by_cases same : predecessor = some rebase.restored
    · rw [show previous = rest from if_pos same] at kept
      exact erased kept
    · rw [show previous = predecessor.toList ++ rest from if_neg same] at kept
      rcases List.mem_append.mp kept with put | kept
      · exact List.mem_of_getElem? (Option.mem_toList.mp put)
      · exact erased kept
  rcases List.mem_cons.mp member with same | member
  · exact .inl same
  rcases List.mem_cons.mp member with rfl | member
  · exact .inr List.mem_cons_self
  · exact .inr (List.mem_cons_of_mem _ (listed deployment member))

end

section
variable {sets : List UpdateGroupSet} {inputs : RolloutInputs} {admitted : Admitted}
  {vetoed : BTreeMap Sha256 VetoedDeployment} {log : ObservationLog}
  {verified : VerifiedReports} {now : DateTime} {name : String} {state : AdmittedDeployment}

/-- Up to admission a planned group has at most three bodies to spare: the restoration, the
current, and the predecessor staging keeps. -/
theorem spares_judge (planned : name ∈ inputs.desired)
    (found : (judge sets inputs admitted vetoed log verified now).admitted[name]? = some state) :
    state.Spares (inputs.observations verified now) 3 := by
  rw [getElem?_judge] at found
  obtain ⟨retained, entry, same⟩ := Option.map_eq_some_iff.mp found
  rw [RolloutInputs.retained, retain, getElem?_finishStagedRollouts] at entry
  obtain ⟨live, -, finished⟩ := Option.map_eq_some_iff.mp entry
  have few : retained.Spares (inputs.observations verified now) 2 := by
    rw [← finished]
    exact spares_finishStaged (Std.ExtTreeMap.contains_iff_mem.mpr planned)
  generalize rebase? _ _ _ _ _ name retained = rebase at same
  cases rebase with
  | none =>
    cases same
    exact few.mono (Nat.le_succ 2)
  | some rebase =>
    cases same
    exact few.add rebase.restored fun _ => mem_of_mem_bodies_rebased

/-- **What the planner stores of an entry**, planned or deleted. -/
theorem spares_planRollouts
    (found : (planRollouts sets inputs admitted vetoed log verified now).admitted[name]? =
      some state) :
    state.Spares (inputs.observations verified now) (if name ∈ inputs.desired then 4 else 0) := by
  by_cases planned : name ∈ inputs.desired
  · rw [if_pos planned]
    let judged := judge sets inputs admitted vetoed log verified now
    rcases getElem?_admitPending inputs.groups inputs.desired judged.observations judged.movement
        name (buildSetPlans sets inputs.desired inputs.groupLabels judged.admitted
          judged.observations judged.movement now) judged.admitted with
      kept | ⟨target, -, became⟩
    · have entry : judged.admitted[name]? = some state := kept.symm.trans found
      exact (spares_judge planned entry).mono (Nat.le_succ 3)
    · obtain rfl := Option.some.inj (became.symm.trans found)
      cases entry : judged.admitted[name]? with
      | none =>
        refine ⟨[target], Nat.le_add_left 1 3, fun deployment member => .inl ?_⟩
        rcases List.mem_cons.mp member with rfl | staged
        · exact List.mem_singleton_self _
        · obtain ⟨⟨before, missing, -⟩, -⟩ := mem_stagedFrom.mp staged
          cases missing
      | some before =>
        refine (spares_judge planned entry).add target fun deployment member => ?_
        rcases List.mem_cons.mp member with rfl | staged
        · exact .inl rfl
        · obtain ⟨⟨_, same, body⟩, -⟩ := mem_stagedFrom.mp staged
          cases same
          exact .inr body
  · rw [if_neg planned]
    have unplanned : inputs.groups[name]? = none := by
      by_contra listed
      exact planned (Std.ExtTreeMap.mem_map.mpr (Std.ExtTreeMap.mem_iff_isSome_getElem?.mpr
        (Option.isSome_iff_ne_none.mpr listed)))
    rw [getElem?_planRollouts_of_unplanned unplanned] at found
    refine spares_retireDeletedGroups (Bool.eq_false_iff.mpr fun there => ?_) found
    exact planned (Std.ExtTreeMap.contains_iff_mem.mp there)

end

/-! ## The pass -/

section
variable {desired : DesiredState} {observed : ObservedState} {memory : Memory}
  {nodeGroups : BTreeMap String String} {default : DesiredDeployment} {name : String}
  {state : AdmittedDeployment}

/-- Recording the default adds it to its own lineage. -/
theorem spares_recordDefault {observations : Observations} {admitted : Admitted}
    {identity : Sha256} {few : Nat}
    (before : ∀ state, admitted[defaultGroup]? = some state → state.Spares observations few)
    (found : (recordDefault default identity admitted)[defaultGroup]? = some state) :
    state.Spares observations (few + 1) := by
  unfold recordDefault at found
  cases entry : admitted[defaultGroup]? with
  | none =>
    simp only [entry] at found
    rw [BTreeMap.getElem?_insert, if_pos rfl] at found
    cases found
    exact ⟨[default], Nat.le_add_left 1 few, fun deployment member => .inl member⟩
  | some old =>
    simp only [entry] at found
    by_cases current : deploymentIdentity old.current = some identity
    · rw [if_pos current, entry] at found
      cases found
      exact (before state entry).mono (Nat.le_succ few)
    · rw [if_neg current, BTreeMap.getElem?_insert, if_pos rfl] at found
      cases found
      refine (before old entry).add default fun deployment member => ?_
      rcases List.mem_cons.mp member with rfl | previous
      · exact .inl rfl
      · refine .inr ?_
        split_ifs at previous
        · exact List.mem_cons_of_mem _ previous
        · exact previous

/-- **What a pass leaves of an entry**: a quarantined group's pin, or an entry the fleet bounds. -/
theorem pinned_or_card_le (route : desired.route = .ok nodeGroups)
    (found : (passPublishing desired observed memory nodeGroups default).admitted[name]? =
      some state) :
    desired.held[name]? = some state ∨
      state.identities.card ≤ 2 * nodeGroups.size + 4 := by
  let inputs := rolloutInputs desired observed memory.verified nodeGroups default
  let observations := inputs.observations
    (memory.verified.verifyFleet observed.reports observed.publicKeys) observed.now
  let outcome := rolloutOutcome desired observed memory nodeGroups default
  let pins := restorePins desired.held outcome.admitted
  have bounded : ∀ {few : Nat}, few ≤ 4 → state.Spares observations few →
      state.identities.card ≤ 2 * nodeGroups.size + 4 :=
    fun le spares => spares.card_le.trans (Nat.add_le_add_left le _)
  have planner : ∀ {name : String} {state : AdmittedDeployment},
      outcome.admitted[name]? = some state →
      state.Spares observations (if name ∈ inputs.desired then 4 else 0) :=
    fun found => spares_planRollouts found
  -- Nobody plans a group of the reserved name, so its entry is a retired one.
  have lineage : ∀ state, pins[defaultGroup]? = some state → state.Spares observations 0 := by
    intro state stored
    have same : pins[defaultGroup]? = outcome.admitted[defaultGroup]? := by
      cases pin : desired.held[defaultGroup]? with
      | none => exact getElem?_restorePins_of_unpinned pin
      | some _ => rw [getElem?_restorePins_of_pinned pin, if_pos rfl]
    have unplanned : defaultGroup ∉ inputs.desired := by
      intro planned
      obtain ⟨group, resolved⟩ := Option.isSome_iff_exists.mp
        (Std.ExtTreeMap.mem_iff_isSome_getElem?.mp (Std.ExtTreeMap.mem_map.mp planned))
      obtain ⟨declared, -, -, reserved, -⟩ := getElem?_resolveGroupInputs resolved
      cases reserved.symm.trans (DesiredState.route_ok route).unreserved
    have spares := planner (same.symm.trans stored)
    rwa [if_neg unplanned] at spares
  have restored : pins[name]? = some state → desired.held[name]? = some state ∨
      state.identities.card ≤ 2 * nodeGroups.size + 4 := by
    intro stored
    cases pin : desired.held[name]? with
    | none =>
      rw [getElem?_restorePins_of_unpinned pin] at stored
      refine .inr (bounded ?_ (planner stored))
      split_ifs <;> omega
    | some pinned =>
      rw [getElem?_restorePins_of_pinned pin] at stored
      split_ifs at stored with reserved
      · refine .inr (bounded ?_ (planner stored))
        split_ifs <;> omega
      · exact .inl stored
  change (if (passPublishing desired observed memory nodeGroups default).defaultBlocked then pins
    else (deploymentIdentity default).elim pins fun identity => recordDefault default identity
      pins)[name]? = _ at found
  split_ifs at found
  · exact restored found
  · cases id : deploymentIdentity default with
    | none =>
      rw [id] at found
      exact restored found
    | some identity =>
      rw [id, Option.elim_some] at found
      by_cases reserved : name = defaultGroup
      · subst reserved
        exact .inr (bounded (by omega) (spares_recordDefault lineage found))
      · rw [getElem?_recordDefault_of_ne reserved] at found
        exact restored found

end

/-! ## Runs -/

/-- The planned nodes of a pass. -/
def Pass.fleet (self : Pass) : Nat := self.cluster.wellFormedAgents.size

theorem size_le_fleet {pass : Pass} {durable : DurableRolloutState} {blocked : Finset Sha256}
    {nodeGroups : BTreeMap String String}
    (route : (pass.cluster.desired durable blocked).route = .ok nodeGroups) :
    nodeGroups.size ≤ pass.fleet := by
  have listed : nodeGroups.keys ⊆ (pass.cluster.desired durable blocked).nodes.map (·.name) := by
    intro node routed
    obtain ⟨selected, found⟩ := Option.isSome_iff_exists.mp
      (Std.ExtTreeMap.mem_iff_isSome_getElem?.mp (Std.ExtTreeMap.mem_keys.mp routed))
    obtain ⟨resolved, member, same⟩ := (DesiredState.route_ok route).listed node selected found
    exact List.mem_map.mpr ⟨resolved, member, same⟩
  calc nodeGroups.size = nodeGroups.keys.length := Std.ExtTreeMap.length_keys.symm
    _ ≤ ((pass.cluster.desired durable blocked).nodes.map (·.name)).length :=
        (List.subperm_of_subset Std.ExtTreeMap.nodup_keys listed).length_le
    _ = pass.fleet := by simp [Cluster.desired, Pass.fleet]

namespace Controller

/-- Every durable entry names at most this many identities. -/
def FootprintLe (bound : Nat) (self : Controller) : Prop :=
  ∀ (name : String) (state : AdmittedDeployment), self.durable.admitted[name]? = some state →
    state.identities.card ≤ bound

/-- A pass over a fleet of at most `nodes` keeps every entry within the bound for that fleet. -/
theorem footprintLe_step {nodes : Nat} {self : Controller} {pass : Pass}
    (fleet : pass.fleet ≤ nodes) (before : self.FootprintLe (2 * nodes + 4)) :
    (self.step pass).FootprintLe (2 * nodes + 4) := by
  intro name state found
  rcases self.durable_step pass with same | ⟨plan, ok, same⟩
  · rw [same] at found
    exact before name state found
  · obtain ⟨nodeGroups, default, deployments, planned⟩ := planReconcile_ok ok
    rw [same] at found
    have stored : plan.admitted[name]? = some state := found
    rw [planned.admitted] at stored
    rcases pinned_or_card_le planned.route stored with pin | small
    · exact before name state ((self.pinned pass).entry name state pin)
    · have size := size_le_fleet planned.route
      omega

/-- **The durable state stays bounded.** After any run from the empty state whose passes plan at
most `nodes` nodes each, no admitted entry names more than `2 * nodes + 4` identities. -/
theorem run_footprint_le (passes : List Pass) (nodes : Nat)
    (fleet : ∀ pass ∈ passes, pass.fleet ≤ nodes) (name : String) (state : AdmittedDeployment)
    (found : (initial.run passes).durable.admitted[name]? = some state) :
    state.identities.card ≤ 2 * nodes + 4 := by
  have start : initial.FootprintLe (2 * nodes + 4) := by
    intro name state found
    simp [initial] at found
  have kept : (initial.run passes).FootprintLe (2 * nodes + 4) :=
    List.foldlRecOn passes step start fun _ before pass listed =>
      footprintLe_step (fleet pass listed) before
  exact kept name state found

end Controller

end Updatedc

namespace Updatedc.Sample

/-- One node that goes from the default `a` to the default `b`: its lineage names both. -/
theorem run_footprint_le_default :
    let passes := [reporting (cluster "a" [] [] [("m", agent "g")]) [],
      reporting (cluster "b" [] [] [("m", agent "g")]) []]
    ∃ state, (Controller.initial.run passes).durable.admitted[defaultGroup]? = some state ∧
      state.identities = {98, 97} ∧ state.identities.card ≤ 2 * 1 + 4 := by
  intro passes
  have stored : ((Controller.initial.run passes).durable.admitted[defaultGroup]?.any
      fun state => state.identities = {98, 97}) = true := by
    decide +kernel
  obtain ⟨state, found, named⟩ := (Option.any_eq_true _ _).mp stored
  refine ⟨state, found, of_decide_eq_true named,
    Controller.run_footprint_le passes 1 (fun pass listed => ?_) defaultGroup state found⟩
  rcases List.mem_cons.mp listed with rfl | listed
  · decide +kernel
  · obtain rfl := List.mem_singleton.mp listed
    decide +kernel

end Updatedc.Sample
