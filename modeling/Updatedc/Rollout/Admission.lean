import Updatedc.Rollout.Regression

/-!
# Admission (`updatec/src/rollout.rs:1260–1319, 1690–1883`)

A group whose desired deployment is not its admitted `current` is *pending*. One ordered sweep
decides the pending groups: inputs, prerequisites and the movement verdict gate every one of
them; a group over already published machines also has to find every governing set open and,
unless it is already rolling, with a free concurrency slot, which it then takes from each.

`admitStep_cases` says once what one turn of the sweep can do. Everything the planner guarantees
about admission is derived from it, by induction over the sweep.
-/

namespace Updatedc

open Contracts

variable [Crates]

/-! ## Set plans -/

structure SetPlan where
  members : List String
  maxConcurrent : Nat
  /-- Free concurrency slots, and nothing else: the schedule is `frozen`. -/
  slots : Nat
  frozen : Bool

/-- Whether the plan's set governs a group. The source keeps this relation as the index
`group_plans`, from a group to its plans. -/
def SetPlan.governs (self : SetPlan) (name : String) : Bool :=
  self.members.contains name

variable (plans : List SetPlan)

/-- How many sets govern a group. -/
def governing (name : String) : Nat :=
  plans.countP (·.governs name)

/-- Whether the set's windows and calendar both admit `now`. -/
def UpdateGroupSet.isOpen (self : UpdateGroupSet) (now : DateTime) : Bool :=
  Updatedc.isOpen self.rolloutWindows now && calendarOpen self.calendar now

/-- The concurrency of a set over its members, none for a set without any. -/
def UpdateGroupSet.concurrency (self : UpdateGroupSet) (members : List String) : Nat :=
  if members.isEmpty then 0 else self.effectiveMaxConcurrent members.length

def buildSetPlan (desired : BTreeMap String DesiredDeployment)
    (groupLabels : BTreeMap String Labels) (admitted : Admitted) (observations : Observations)
    (movement : MovementVerdict) (now : DateTime) (set : UpdateGroupSet) : SetPlan :=
  let members := setMembers set desired groupLabels
  let maxConcurrent := set.concurrency members
  let rollingNow := members.countP (observations.holdsSlot admitted movement)
  { members, maxConcurrent, slots := maxConcurrent - rollingNow, frozen := !set.isOpen now }

def buildSetPlans (sets : List UpdateGroupSet) (desired : BTreeMap String DesiredDeployment)
    (groupLabels : BTreeMap String Labels) (admitted : Admitted) (observations : Observations)
    (movement : MovementVerdict) (now : DateTime) : List SetPlan :=
  sets.map (buildSetPlan desired groupLabels admitted observations movement now)

/-! ## The sweep -/

/-- What the sweep over the pending groups mutates. -/
structure Sweep where
  plans : List SetPlan
  admitted : Admitted

/-- Take one slot from each plan that governs the group. -/
def takeSlots (name : String) (plans : List SetPlan) : List SetPlan :=
  plans.map fun plan =>
    if plan.governs name then { plan with slots := plan.slots - 1 } else plan

/-- Everything the group was already admitted to, minus the deployment being admitted now. -/
def stagedFrom (target : DesiredDeployment) (state : Option AdmittedDeployment) :
    List DesiredDeployment :=
  (state.elim [] AdmittedDeployment.bodies).foldl
    (fun previous deployment =>
      if deployment ≠ target ∧ deployment ∉ previous then previous ++ [deployment] else previous)
    []

/-- The group has nothing to protect: no entry, and no node that was ever published. -/
def isGreenfield (observations : Observations) (admitted : Admitted) (name : String) : Bool :=
  !admitted.contains name && !observations.anyNodePublished name

/-- The sweep with the group's target admitted. -/
def Sweep.admission (self : Sweep) (name : String) (target : DesiredDeployment) : Sweep :=
  { self with
    admitted := self.admitted.insert name
      { current := target, previous := stagedFrom target self.admitted[name]? } }

/-- The schedule and slot gates, for a group the common gates let through. -/
def governedStep (observations : Observations) (movement : MovementVerdict)
    (group : ResolvedGroup) (target : DesiredDeployment) (sweep : Sweep) (name : String) :
    Sweep :=
  if isGreenfield observations sweep.admitted name then sweep.admission name target
  else if governing sweep.plans name = 0 then sweep.admission name target
  else if sweep.plans.any (fun plan => plan.governs name && plan.frozen)
      && !group.emergencyCorrection then sweep
  else if observations.holdsSlot sweep.admitted movement name then sweep.admission name target
  else if sweep.plans.all fun plan => !plan.governs name || plan.slots > 0 then
    { sweep.admission name target with plans := takeSlots name sweep.plans }
  else sweep

/-- One turn of the sweep. -/
def admitStep (groups : BTreeMap String ResolvedGroup)
    (desired : BTreeMap String DesiredDeployment) (observations : Observations)
    (movement : MovementVerdict) (sweep : Sweep) (name : String) : Sweep :=
  match groups[name]?, desired[name]? with
  | some group, some target =>
    if !group.inputsReady then sweep
    else if !(group.dependsOn.all fun dependency =>
        (classify dependency desired sweep.admitted observations movement).satisfiesDependency)
      then sweep
    else if (deploymentIdentity target).any (· ∈ movement.blocked) then sweep
    else governedStep observations movement group target sweep name
  | _, _ => sweep

/-- The groups whose desired deployment is not what they are admitted to. -/
def isPending (desired : BTreeMap String DesiredDeployment) (admitted : Admitted)
    (name : String) : Bool :=
  match admitted[name]? with
  | none => true
  | some state => desired[name]? ≠ some state.current

/-- The most constrained groups first, ties by name. -/
def pendingOrder (a b : String) : Prop :=
  governing plans b < governing plans a ∨ (governing plans a = governing plans b ∧ a ≤ b)

instance (plans : List SetPlan) : DecidableRel (pendingOrder plans) :=
  fun _ _ => inferInstanceAs (Decidable (_ ∨ _))

def pendingGroups (desired : BTreeMap String DesiredDeployment) (plans : List SetPlan)
    (admitted : Admitted) : List String :=
  (desired.keys.filter (isPending desired admitted)).insertionSort (pendingOrder plans)

def admitPending (groups : BTreeMap String ResolvedGroup)
    (desired : BTreeMap String DesiredDeployment) (plans : List SetPlan) (admitted : Admitted)
    (observations : Observations) (movement : MovementVerdict) : Sweep :=
  (pendingGroups desired plans admitted).foldl (admitStep groups desired observations movement)
    { plans, admitted }

/-! ## What is staged -/

omit [Crates] in
private theorem mem_foldl_staged {target deployment : DesiredDeployment}
    (bodies : List DesiredDeployment) :
    ∀ previous : List DesiredDeployment,
      deployment ∈ bodies.foldl
          (fun previous deployment =>
            if deployment ≠ target ∧ deployment ∉ previous then previous ++ [deployment]
            else previous) previous ↔
        deployment ∈ previous ∨ (deployment ∈ bodies ∧ deployment ≠ target) := by
  induction bodies with
  | nil => simp
  | cons body rest ih =>
    intro previous
    rw [List.foldl_cons, ih]
    split_ifs with added
    · rw [List.mem_append, List.mem_singleton, List.mem_cons]
      constructor
      · rintro ((known | rfl) | later)
        · exact .inl known
        · exact .inr ⟨.inl rfl, added.1⟩
        · exact .inr ⟨.inr later.1, later.2⟩
      · rintro (known | ⟨rfl | later, other⟩)
        · exact .inl (.inl known)
        · exact .inl (.inr rfl)
        · exact .inr ⟨later, other⟩
    · rw [List.mem_cons]
      constructor
      · rintro (known | later)
        · exact .inl known
        · exact .inr ⟨.inr later.1, later.2⟩
      · rintro (known | ⟨rfl | later, other⟩)
        · exact .inl known
        · exact .inl (by simpa [other] using added)
        · exact .inr ⟨later, other⟩

omit [Crates] in
/-- An admission stages every body the group was admitted to, but the one it admits. -/
theorem mem_stagedFrom {target deployment : DesiredDeployment} {state : Option AdmittedDeployment} :
    deployment ∈ stagedFrom target state ↔
      (∃ admitted, state = some admitted ∧ deployment ∈ admitted.bodies) ∧
        deployment ≠ target := by
  rw [stagedFrom, mem_foldl_staged]
  cases state <;> simp

/-! ## What one turn can do -/

section
variable {groups : BTreeMap String ResolvedGroup} {desired : BTreeMap String DesiredDeployment}
  {observations : Observations} {movement : MovementVerdict} {sweep : Sweep} {name : String}

/-- The gates every admission passes. -/
structure CommonGates (groups : BTreeMap String ResolvedGroup)
    (desired : BTreeMap String DesiredDeployment) (observations : Observations)
    (movement : MovementVerdict) (admitted : Admitted) (name : String) (group : ResolvedGroup)
    (target : DesiredDeployment) : Prop where
  planned : groups[name]? = some group
  asked : desired[name]? = some target
  ready : group.inputsReady = true
  settled : ∀ dependency ∈ group.dependsOn,
    classify dependency desired admitted observations movement = .settled
  unblocked : ∀ identity, deploymentIdentity target = some identity →
    identity ∉ movement.blocked

/-- The schedule of every governing set admits the group, or the operator waived it. -/
def Scheduled (group : ResolvedGroup) (name : String) : Prop :=
  (∀ plan ∈ plans, plan.governs name = true → plan.frozen = false) ∨
    group.emergencyCorrection = true

/-- One turn of the sweep; one constructor for each way through. -/
inductive AdmitCase (groups : BTreeMap String ResolvedGroup)
    (desired : BTreeMap String DesiredDeployment) (observations : Observations)
    (movement : MovementVerdict) (sweep : Sweep) (name : String) : Sweep → Prop
  | refused : AdmitCase groups desired observations movement sweep name sweep
  | greenfield (group : ResolvedGroup) (target : DesiredDeployment)
      (gates : CommonGates groups desired observations movement sweep.admitted name group target)
      (new : isGreenfield observations sweep.admitted name = true) :
    AdmitCase groups desired observations movement sweep name (sweep.admission name target)
  | ungoverned (group : ResolvedGroup) (target : DesiredDeployment)
      (gates : CommonGates groups desired observations movement sweep.admitted name group target)
      (free : ∀ plan ∈ sweep.plans, plan.governs name = false) :
    AdmitCase groups desired observations movement sweep name (sweep.admission name target)
  | rolling (group : ResolvedGroup) (target : DesiredDeployment)
      (gates : CommonGates groups desired observations movement sweep.admitted name group target)
      (scheduled : Scheduled sweep.plans group name)
      (holds : observations.holdsSlot sweep.admitted movement name = true) :
    AdmitCase groups desired observations movement sweep name (sweep.admission name target)
  | slot (group : ResolvedGroup) (target : DesiredDeployment)
      (gates : CommonGates groups desired observations movement sweep.admitted name group target)
      (scheduled : Scheduled sweep.plans group name)
      (free : ∀ plan ∈ sweep.plans, plan.governs name = true → 0 < plan.slots) :
    AdmitCase groups desired observations movement sweep name
      { sweep.admission name target with plans := takeSlots name sweep.plans }

omit [Crates] in
private theorem scheduled_of_gate {plans : List SetPlan} {group : ResolvedGroup}
    (passed : ¬(plans.any (fun plan => plan.governs name && plan.frozen) &&
      !group.emergencyCorrection) = true) : Scheduled plans group name := by
  by_cases emergency : group.emergencyCorrection = true
  · exact .inr emergency
  · refine .inl fun plan listed governs => ?_
    by_contra shut
    refine passed ?_
    simp only [Bool.and_eq_true, List.any_eq_true]
    exact ⟨⟨plan, listed, governs, by simpa using shut⟩, by simpa using emergency⟩

private theorem governedStep_cases {group : ResolvedGroup} {target : DesiredDeployment}
    (gates : CommonGates groups desired observations movement sweep.admitted name group target) :
    AdmitCase groups desired observations movement sweep name
      (governedStep observations movement group target sweep name) := by
  unfold governedStep
  split_ifs with new free frozen holds slots
  · exact .greenfield group target gates new
  · exact .ungoverned group target gates (by simpa [governing] using free)
  · exact .refused
  · exact .rolling group target gates (scheduled_of_gate frozen) holds
  · refine .slot group target gates (scheduled_of_gate frozen) fun plan listed governs => ?_
    simpa [governs] using List.all_eq_true.mp slots plan listed
  · exact .refused

variable (groups desired observations movement sweep name) in
/-- **What one turn of the sweep can do.** -/
theorem admitStep_cases :
    AdmitCase groups desired observations movement sweep name
      (admitStep groups desired observations movement sweep name) := by
  unfold admitStep
  split
  · next group target planned asked =>
    split_ifs with unready unsettled blocked
    · exact .refused
    · exact .refused
    · exact .refused
    · refine governedStep_cases ⟨planned, asked, by simpa using unready, ?_, ?_⟩
      · intro dependency listed
        have opens := List.all_eq_true.mp (by simpa using unsettled) dependency listed
        unfold GroupProgress.satisfiesDependency at opens
        split at opens
        · next settled => exact settled
        · cases opens
      · intro identity id
        simpa [id] using blocked
  · exact .refused

variable (groups desired observations movement sweep name) in
/-- A turn decides its own group's entry: it stays, or becomes the target staged away from
everything the group was admitted to. -/
theorem admitted_admitStep :
    (admitStep groups desired observations movement sweep name).admitted[name]? =
        sweep.admitted[name]? ∨
      ∃ group target,
        CommonGates groups desired observations movement sweep.admitted name group target ∧
        (admitStep groups desired observations movement sweep name).admitted[name]? =
          some ⟨target, stagedFrom target sweep.admitted[name]?⟩ := by
  have turn := admitStep_cases groups desired observations movement sweep name
  generalize admitStep groups desired observations movement sweep name = next at turn ⊢
  cases turn with
  | refused => exact .inl rfl
  | greenfield group target gates | ungoverned group target gates
  | rolling group target gates | slot group target gates =>
    exact .inr ⟨group, target, gates, by simp [Sweep.admission]⟩

/-- It leaves every other entry alone. -/
theorem admitted_admitStep_of_ne {other : String} (different : other ≠ name) :
    (admitStep groups desired observations movement sweep name).admitted[other]? =
      sweep.admitted[other]? := by
  have turn := admitStep_cases groups desired observations movement sweep name
  generalize admitStep groups desired observations movement sweep name = next at turn ⊢
  cases turn with
  | refused => rfl
  | greenfield | ungoverned | rolling | slot =>
    simp only [Sweep.admission]
    rw [BTreeMap.getElem?_insert, if_neg different.symm]

/-- What no turn changes of a plan. -/
def SetPlan.shape (self : SetPlan) : List String × Bool := (self.members, self.frozen)

omit [Crates] in
theorem shape_takeSlots : (takeSlots name plans).map SetPlan.shape = plans.map SetPlan.shape := by
  rw [takeSlots, List.map_map]
  refine List.map_congr_left fun plan _ => ?_
  simp only [Function.comp_apply]
  split <;> rfl

theorem shape_admitStep :
    (admitStep groups desired observations movement sweep name).plans.map SetPlan.shape =
      sweep.plans.map SetPlan.shape := by
  have turn := admitStep_cases groups desired observations movement sweep name
  generalize admitStep groups desired observations movement sweep name = next at turn ⊢
  cases turn with
  | refused | greenfield | ungoverned | rolling => rfl
  | slot => exact shape_takeSlots sweep.plans

/-! ## What a whole sweep does -/

variable {names : List String}

theorem admitted_foldl_of_not_mem (absent : name ∉ names) :
    (names.foldl (admitStep groups desired observations movement) sweep).admitted[name]? =
      sweep.admitted[name]? := by
  induction names generalizing sweep with
  | nil => rfl
  | cons first rest ih =>
    rw [List.mem_cons, not_or] at absent
    rw [List.foldl_cons, ih absent.2, admitted_admitStep_of_ne absent.1]

theorem shape_foldl :
    (names.foldl (admitStep groups desired observations movement) sweep).plans.map
      SetPlan.shape = sweep.plans.map SetPlan.shape := by
  induction names generalizing sweep with
  | nil => rfl
  | cons first rest ih => rw [List.foldl_cons, ih, shape_admitStep]

/-- The sweep `mid` in which a group takes its turn: its entry is still the first one and then
stays what the turn makes of it, and so it is with every other group, each in its own turn. -/
structure TurnAt (groups : BTreeMap String ResolvedGroup)
    (desired : BTreeMap String DesiredDeployment) (observations : Observations)
    (movement : MovementVerdict) (sweep : Sweep) (names : List String) (name : String)
    (mid : Sweep) : Prop where
  first : mid.admitted[name]? = sweep.admitted[name]?
  last : (names.foldl (admitStep groups desired observations movement) sweep).admitted[name]? =
    (admitStep groups desired observations movement mid name).admitted[name]?
  others : ∀ other : String,
    mid.admitted[other]? =
        (names.foldl (admitStep groups desired observations movement) sweep).admitted[other]? ∨
      (other ∈ names ∧ mid.admitted[other]? = sweep.admitted[other]?)
  shape : mid.plans.map SetPlan.shape = sweep.plans.map SetPlan.shape

/-- Every group of the sweep has its turn. -/
theorem exists_turnAt (distinct : names.Nodup) (member : name ∈ names) :
    ∃ mid, TurnAt groups desired observations movement sweep names name mid := by
  obtain ⟨earlier, later, rfl⟩ := List.append_of_mem member
  obtain ⟨-, tail, apart⟩ := List.nodup_append.mp distinct
  obtain ⟨fresh, -⟩ := List.nodup_cons.mp tail
  have notEarlier : name ∉ earlier := fun before =>
    apart name before name List.mem_cons_self rfl
  refine ⟨earlier.foldl (admitStep groups desired observations movement) sweep,
    admitted_foldl_of_not_mem notEarlier, ?_, ?_, shape_foldl⟩
  · rw [List.foldl_append, List.foldl_cons, admitted_foldl_of_not_mem fresh]
  · intro other
    by_cases pending : other ∈ name :: later
    · exact .inr ⟨List.mem_append_right _ pending, admitted_foldl_of_not_mem fun before =>
        apart other before other pending rfl⟩
    · rw [List.foldl_append]
      exact .inl (admitted_foldl_of_not_mem pending).symm

/-! ## The pending groups -/

variable {plans : List SetPlan} {admitted : Admitted}

omit [Crates] in
theorem nodup_pendingGroups : (pendingGroups desired plans admitted).Nodup :=
  (List.perm_insertionSort _ _).nodup_iff.mpr (Std.ExtTreeMap.nodup_keys.filter _)

omit [Crates] in
theorem mem_pendingGroups :
    name ∈ pendingGroups desired plans admitted ↔
      name ∈ desired ∧ isPending desired admitted name = true := by
  rw [pendingGroups, List.mem_insertionSort, List.mem_filter, Std.ExtTreeMap.mem_keys]

variable (groups desired plans admitted observations movement name) in
/-- What admission makes of an entry: it stays, or becomes what the group asks for. -/
theorem getElem?_admitPending :
    (admitPending groups desired plans admitted observations movement).admitted[name]? =
        admitted[name]? ∨
      ∃ target, desired[name]? = some target ∧
        (admitPending groups desired plans admitted observations movement).admitted[name]? =
          some ⟨target, stagedFrom target admitted[name]?⟩ := by
  by_cases pending : name ∈ pendingGroups desired plans admitted
  · obtain ⟨mid, turn⟩ : ∃ mid, TurnAt groups desired observations movement ⟨plans, admitted⟩
        (pendingGroups desired plans admitted) name mid :=
      exists_turnAt nodup_pendingGroups pending
    rcases admitted_admitStep groups desired observations movement mid name with
      kept | ⟨group, target, gates, became⟩
    · exact .inl (turn.last.trans (kept.trans turn.first))
    · rw [turn.first] at became
      exact .inr ⟨target, gates.asked, turn.last.trans became⟩
  · exact .inl (admitted_foldl_of_not_mem pending)

/-! ## Slots -/

/-- The group is admitted to what it asks for, and was not before. -/
def newlyAdmitted (desired : BTreeMap String DesiredDeployment) (before after : Admitted)
    (name : String) : Bool :=
  desired[name]?.any fun target =>
    after[name]?.any (·.current = target) && !before[name]?.any (·.current = target)

/-- The group is newly admitted, and had to find a free slot for it. -/
def takesSlot (desired : BTreeMap String DesiredDeployment) (observations : Observations)
    (movement : MovementVerdict) (before after : Admitted) (name : String) : Bool :=
  newlyAdmitted desired before after name && !observations.holdsSlot before movement name
    && !isGreenfield observations before name

/-- Whether a group takes a slot is read off its own entries. -/
theorem takesSlot_congr {before before' after : Admitted}
    (same : before[name]? = before'[name]?) :
    takesSlot desired observations movement before after name =
      takesSlot desired observations movement before' after name := by
  simp only [takesSlot, newlyAdmitted, Observations.holdsSlot, isGreenfield,
    Std.ExtTreeMap.contains_eq_isSome_getElem?, same]

/-- One turn pays for the slot it takes. -/
theorem slots_admitStep {i : Nat} {plan : SetPlan} {last : Admitted}
    (listed : sweep.plans[i]? = some plan)
    (kept : last[name]? =
      (admitStep groups desired observations movement sweep name).admitted[name]?) :
    ∃ next : SetPlan,
      (admitStep groups desired observations movement sweep name).plans[i]? = some next ∧
      next.members = plan.members ∧
      (if plan.governs name &&
          takesSlot desired observations movement sweep.admitted last name then 1 else 0) +
        next.slots ≤ plan.slots := by
  have turn := admitStep_cases groups desired observations movement sweep name
  generalize admitStep groups desired observations movement sweep name = after at turn kept ⊢
  cases turn with
  | refused =>
    refine ⟨plan, listed, rfl, ?_⟩
    have unchanged : newlyAdmitted desired sweep.admitted last name = false := by
      simp [newlyAdmitted, kept]
    simp [takesSlot, unchanged]
  | greenfield group target gates new => exact ⟨plan, listed, rfl, by simp [takesSlot, new]⟩
  | ungoverned group target gates free =>
    have outside := free plan (List.mem_of_getElem? listed)
    exact ⟨plan, listed, rfl, by simp [outside]⟩
  | rolling group target gates scheduled holds =>
    exact ⟨plan, listed, rfl, by simp [takesSlot, holds]⟩
  | slot group target gates scheduled free =>
    refine ⟨if plan.governs name then { plan with slots := plan.slots - 1 } else plan,
      by simp only [takeSlots, List.getElem?_map, listed, Option.map_some], ?_, ?_⟩
    · split <;> rfl
    · by_cases governs : plan.governs name = true
      · have positive := free plan (List.mem_of_getElem? listed) governs
        simp only [governs, if_true, Bool.true_and]
        split <;> omega
      · simp [governs]

/-- **A sweep never overdraws a set**: the members that take a slot are no more than the slots the
set's plan started with, whatever other sets they share. -/
theorem countP_takesSlot_le (distinct : names.Nodup) {i : Nat} {plan : SetPlan}
    (listed : sweep.plans[i]? = some plan) :
    names.countP (fun name => plan.governs name &&
      takesSlot desired observations movement sweep.admitted
        (names.foldl (admitStep groups desired observations movement) sweep).admitted name) ≤
      plan.slots := by
  induction names generalizing sweep plan with
  | nil => exact Nat.zero_le _
  | cons first rest ih =>
    obtain ⟨fresh, distinct⟩ := List.nodup_cons.mp distinct
    rw [List.foldl_cons, List.countP_cons]
    let turned := admitStep groups desired observations movement sweep first
    let last := (rest.foldl (admitStep groups desired observations movement) turned).admitted
    have kept : last[first]? = turned.admitted[first]? := admitted_foldl_of_not_mem fresh
    obtain ⟨next, listed', same, paid⟩ := slots_admitStep listed kept
    have others : rest.countP (fun name => next.governs name &&
        takesSlot desired observations movement turned.admitted last name) ≤ next.slots :=
      ih distinct listed'
    have unaffected : rest.countP (fun name => plan.governs name &&
          takesSlot desired observations movement sweep.admitted last name) =
        rest.countP (fun name => next.governs name &&
          takesSlot desired observations movement turned.admitted last name) := by
      refine List.countP_congr fun name member => ?_
      have different : name ≠ first := by
        rintro rfl
        exact fresh member
      rw [takesSlot_congr (admitted_admitStep_of_ne different), SetPlan.governs, SetPlan.governs,
        same]
    calc rest.countP (fun name => plan.governs name &&
            takesSlot desired observations movement sweep.admitted last name) +
          (if plan.governs first &&
            takesSlot desired observations movement sweep.admitted last first then 1 else 0)
        ≤ next.slots + (if plan.governs first &&
            takesSlot desired observations movement sweep.admitted last first then 1 else 0) :=
          Nat.add_le_add_right (unaffected ▸ others) _
      _ ≤ plan.slots := (Nat.add_comm _ _).trans_le paid

end

end Updatedc
