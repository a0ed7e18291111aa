import Updatedc.Rollout.Observations

/-!
# Which deployment bodies are kept (`updatec/src/rollout.rs:1126–1237, 2000–2007`)

A node runs a deployment, and the admitted map is where that deployment's *body* lives. Deleted
groups and finished rollouts give bodies up, each on one question: is any node of the fleet still
placed on it? `Resolves` says that an identity still has a body; the two retirement steps keep it
for every identity some node is placed on (`resolves_retireDeletedGroups`,
`resolves_finishStagedRollouts`).
-/

namespace Updatedc

open Contracts

variable [Crates]

/-- Every body of these entries by identity; a later entry wins. -/
def bodiesByIdentity (states : List AdmittedDeployment) : BTreeMap Sha256 DesiredDeployment :=
  .ofList ((states.flatMap AdmittedDeployment.bodies).filterMap fun deployment =>
    (deploymentIdentity deployment).map (·, deployment))

variable (admitted : Admitted) {states : List AdmittedDeployment} {identity : Sha256}

/-- Keep the entry of a deleted group for as long as some node is placed on one of its bodies,
compacted to those bodies. -/
def retireDeletedGroups (desired : BTreeMap String DesiredDeployment) (observations : Observations)
    : Admitted :=
  admitted.filterMap fun name state =>
    if desired.contains name then some state
    else
      match state.bodies.filter observations.placedAnywhere with
      | [] => none
      | current :: previous => some ⟨current, previous⟩

/-- The identities some group's `current` already provides. -/
def provided : List Sha256 :=
  admitted.values.filterMap fun state => deploymentIdentity state.current

/-- Whether a predecessor is still the only body of something a node runs. -/
def needed (observations : Observations) (deployment : DesiredDeployment) : Bool :=
  observations.placedAnywhere deployment
    && !(deploymentIdentity deployment).any (provided admitted).contains

/-- Retire the predecessors of one entry. While the rollout is staging the list is never
emptied. -/
def finishStaged (desired : BTreeMap String DesiredDeployment) (observations : Observations)
    (name : String) (state : AdmittedDeployment) : AdmittedDeployment :=
  if !desired.contains name || state.previous.isEmpty then state
  else if observations.fullyHanded name state.current then
    { state with previous := state.previous.filter (needed admitted observations) }
  else
    match state.previous.filter (needed admitted observations) with
    | [] => { state with previous := state.previous.take 1 }
    | live => { state with previous := live }

def finishStagedRollouts (desired : BTreeMap String DesiredDeployment) (observations : Observations)
    : Admitted :=
  admitted.map (finishStaged admitted desired observations)

/-! ## What is stored -/

/-- The admitted map still has a body of this identity. -/
def Admitted.Resolves (identity : Sha256) : Prop :=
  ∃ (name : String) (state : AdmittedDeployment) (deployment : DesiredDeployment),
    admitted[name]? = some state ∧ deployment ∈ state.bodies ∧
      deploymentIdentity deployment = some identity

/-- The index answers with a body of the identity it is asked for. -/
theorem deploymentIdentity_of_bodiesByIdentity {deployment : DesiredDeployment}
    (h : (bodiesByIdentity states)[identity]? = some deployment) :
    deploymentIdentity deployment = some identity := by
  have member := BTreeMap.mem_of_getElem?_ofList h
  obtain ⟨body, -, same⟩ := List.mem_filterMap.mp member
  obtain ⟨id, found, pair⟩ := Option.map_eq_some_iff.mp same
  cases pair
  exact found

/-- And with a body one of the entries stores. -/
theorem mem_of_bodiesByIdentity {deployment : DesiredDeployment}
    (h : (bodiesByIdentity states)[identity]? = some deployment) :
    ∃ state ∈ states, deployment ∈ state.bodies := by
  have member := BTreeMap.mem_of_getElem?_ofList h
  obtain ⟨body, stored, same⟩ := List.mem_filterMap.mp member
  obtain ⟨id, -, pair⟩ := Option.map_eq_some_iff.mp same
  cases pair
  exact List.mem_flatMap.mp stored

/-- The index answers whenever one of the entries stores such a body. -/
theorem exists_bodiesByIdentity {state : AdmittedDeployment} {deployment : DesiredDeployment}
    (entry : state ∈ states) (body : deployment ∈ state.bodies)
    (id : deploymentIdentity deployment = some identity) :
    ∃ found, (bodiesByIdentity states)[identity]? = some found := by
  refine BTreeMap.exists_getElem?_ofList (x := deployment) ?_
  refine List.mem_filterMap.mpr ⟨deployment, ?_, by simp [id]⟩
  exact List.mem_flatMap.mpr ⟨state, entry, body⟩

theorem Admitted.Resolves.body {admitted : Admitted} (h : admitted.Resolves identity) :
    ∃ deployment, (bodiesByIdentity admitted.values)[identity]? = some deployment := by
  obtain ⟨name, state, deployment, entry, body, id⟩ := h
  exact exists_bodiesByIdentity (BTreeMap.mem_values_iff.mpr ⟨name, entry⟩) body id

/-- A body is placed when some node was handed its identity or reports acting on it. -/
theorem Observations.placedAnywhere_of_advanced {observations : Observations} {node : String}
    {deployment : DesiredDeployment} (fleet : node ∈ observations.nodeGroups)
    (id : deploymentIdentity deployment = some identity)
    (h : observations.advanced node identity = true) :
    observations.placedAnywhere deployment = true := by
  unfold placedAnywhere
  rw [id]
  exact List.any_eq_true.mpr ⟨node, Std.ExtTreeMap.mem_keys.mpr fleet, h⟩

/-! ## Retirement keeps what nodes are placed on -/

section
variable {admitted : Admitted} {desired : BTreeMap String DesiredDeployment}
  {observations : Observations} {node : String} {identity : Sha256}

theorem getElem?_retireDeletedGroups (name : String) :
    (retireDeletedGroups admitted desired observations)[name]? =
      admitted[name]?.bind fun state =>
        if desired.contains name then some state
        else
          match state.bodies.filter observations.placedAnywhere with
          | [] => none
          | current :: previous => some ⟨current, previous⟩ := by
  rw [retireDeletedGroups, Std.ExtTreeMap.getElem?_filterMap']

theorem getElem?_finishStagedRollouts (name : String) :
    (finishStagedRollouts admitted desired observations)[name]? =
      admitted[name]?.map (finishStaged admitted desired observations name) := by
  rw [finishStagedRollouts, Std.ExtTreeMap.getElem?_map]

/-- A planned group's entry is left alone. -/
theorem getElem?_retireDeletedGroups_of_desired {name : String}
    (planned : desired.contains name = true) :
    (retireDeletedGroups admitted desired observations)[name]? = admitted[name]? := by
  rw [getElem?_retireDeletedGroups]
  simp [planned]

@[simp] theorem finishStaged_current (name : String) (state : AdmittedDeployment) :
    (finishStaged admitted desired observations name state).current = state.current := by
  unfold finishStaged
  split
  · rfl
  · split
    · rfl
    · split <;> rfl

/-- A deleted group's entry keeps every body some node is placed on. -/
theorem resolves_retireDeletedGroups (fleet : node ∈ observations.nodeGroups)
    (placed : observations.advanced node identity = true) (h : admitted.Resolves identity) :
    (retireDeletedGroups admitted desired observations).Resolves identity := by
  obtain ⟨name, state, deployment, entry, body, id⟩ := h
  by_cases planned : desired.contains name = true
  · exact ⟨name, state, deployment,
      (getElem?_retireDeletedGroups_of_desired planned).trans entry, body, id⟩
  · have kept : deployment ∈ state.bodies.filter observations.placedAnywhere :=
      List.mem_filter.mpr
        ⟨body, Observations.placedAnywhere_of_advanced fleet id placed⟩
    cases live : state.bodies.filter observations.placedAnywhere with
    | nil => rw [live] at kept; cases kept
    | cons current previous =>
      rw [live] at kept
      refine ⟨name, ⟨current, previous⟩, deployment, ?_, kept, id⟩
      rw [getElem?_retireDeletedGroups, entry]
      simp [planned, live]

/-- A predecessor is dropped only when nobody is on it, or when some `current` provides it. -/
theorem mem_finishStaged_of_needed {name : String} {state : AdmittedDeployment}
    {deployment : DesiredDeployment} (body : deployment ∈ state.previous)
    (need : needed admitted observations deployment = true) :
    deployment ∈ (finishStaged admitted desired observations name state).previous := by
  have kept : deployment ∈ state.previous.filter (needed admitted observations) :=
    List.mem_filter.mpr ⟨body, need⟩
  unfold finishStaged
  split
  · exact body
  · split
    · exact kept
    · split
      · next none => rw [none] at kept; cases kept
      · exact kept

theorem resolves_finishStagedRollouts (fleet : node ∈ observations.nodeGroups)
    (placed : observations.advanced node identity = true) (h : admitted.Resolves identity) :
    (finishStagedRollouts admitted desired observations).Resolves identity := by
  obtain ⟨name, state, deployment, entry, body, id⟩ := h
  by_cases have_current : identity ∈ provided admitted
  · -- Some group's `current` is this body, and a `current` is never retired.
    obtain ⟨other, member, same⟩ := List.mem_filterMap.mp have_current
    obtain ⟨group, found⟩ := BTreeMap.mem_values_iff.mp member
    refine ⟨group, finishStaged admitted desired observations group other, other.current,
      ?_, ?_, same⟩
    · rw [getElem?_finishStagedRollouts, found]
      rfl
    · rw [AdmittedDeployment.bodies, finishStaged_current]
      exact List.mem_cons_self
  · refine ⟨name, finishStaged admitted desired observations name state, deployment, ?_, ?_, id⟩
    · rw [getElem?_finishStagedRollouts, entry]
      rfl
    · rcases List.mem_cons.mp body with rfl | body
      · rw [AdmittedDeployment.bodies, finishStaged_current]
        exact List.mem_cons_self
      · refine List.mem_cons_of_mem _ (mem_finishStaged_of_needed body ?_)
        have live := Observations.placedAnywhere_of_advanced fleet id placed
        simp [needed, live, id, have_current]

end

end Updatedc
