import Updatedc.Groups
import Updatedc.Lib.DepthFirst

/-!
# Quarantining broken dependencies (`dependency_violations`)

`dependency_violations` flags the groups whose wiring cannot be planned, so that the graph
validation of the planner never fires. It flags local defects first and then peels off one reported
cycle at a time. Here it is shown to flag **enough** (the rest validates) and **nothing else** (a
flagged group is not well wired itself or lies on a cycle), and to come to an end.

The source indexes a map and has an `unreachable!`. `visit?` and `dependencyViolations?` are the
same functions with `none` in these places and where the walk would not end, and they agree with
the model.
-/

namespace Updatedc

open Contracts Relation

/-! ## The stack of the walk -/

/-- One group waits for another that is planned with it. -/
def DependsOn (groups : BTreeMap String ResolvedGroup) (quarantined : Finset String)
    (name dependency : String) : Prop :=
  ∃ group, groups[name]? = some group ∧ dependency ∈ group.dependsOn ∧
    dependency ∉ quarantined ∧ dependency ∈ groups

/-- What the walk keeps: its stack is a path of dependencies, and it marks groups only. -/
structure Walk.Sound (groups : BTreeMap String ResolvedGroup) (quarantined : Finset String)
    (walk : Walk) : Prop where
  trail : Trail (DependsOn groups quarantined) (walk.state[·]? = some .visiting) walk.stack
  known : ∀ name ∈ walk.state, name ∈ groups

/-- The groups the walk has not entered. -/
def Walk.unvisited (groups : BTreeMap String ResolvedGroup) (walk : Walk) : Nat :=
  (groups.keys.toFinset \ walk.state.keys.toFinset).card

section
variable {groups : BTreeMap String ResolvedGroup} {quarantined : Finset String}
  {name : String} {walk : Walk}

theorem mem_of_dependsOn {dependency : String}
    (depends : DependsOn groups quarantined name dependency) : name ∈ groups := by
  obtain ⟨group, found, -⟩ := depends
  exact Std.ExtTreeMap.mem_iff_isSome_getElem?.mpr (by rw [found]; rfl)

namespace Walk

theorem known_insert (known : ∀ name ∈ walk.state, name ∈ groups) (member : name ∈ groups)
    (mark : Mark) : ∀ other ∈ walk.state.insert name mark, other ∈ groups := by
  intro other inside
  rcases Std.ExtTreeMap.mem_insert.mp inside with same | before
  · exact Std.LawfulEqCmp.compare_eq_iff_eq.mp same ▸ member
  · exact known other before

/-- Entering a group. -/
theorem Sound.enter (sound : walk.Sound groups quarantined) (member : name ∈ groups)
    (reached : ∀ top ∈ walk.stack.getLast?, DependsOn groups quarantined top name) :
    Sound groups quarantined ⟨walk.state.insert name .visiting, walk.stack ++ [name]⟩ where
  trail := sound.trail.push reached fun other => by
    simp only [BTreeMap.getElem?_insert]
    by_cases same : name = other
    · simp [same]
    · simp [same, Ne.symm same]
  known := known_insert sound.known member _

/-- Leaving it again. -/
theorem Sound.leave {after : Walk} (sound : after.Sound groups quarantined)
    (stack : after.stack = walk.stack ++ [name]) (fresh : name ∉ walk.stack)
    (member : name ∈ groups) :
    Sound groups quarantined ⟨after.state.insert name .done, after.stack.dropLast⟩ where
  trail := by
    rw [stack, List.dropLast_concat]
    refine Trail.pop (stack ▸ sound.trail) fresh fun other => ?_
    simp only [BTreeMap.getElem?_insert]
    by_cases same : name = other
    · simp [same]
    · simp [same, Ne.symm same]
  known := known_insert sound.known member _

theorem unvisited_le {after : Walk} (grows : ∀ name ∈ walk.state, name ∈ after.state) :
    after.unvisited groups ≤ walk.unvisited groups := by
  refine Finset.card_le_card (Finset.sdiff_subset_sdiff subset_rfl fun name member => ?_)
  rw [BTreeMap.mem_keys_toFinset] at member ⊢
  exact grows name member

/-- Entering a group leaves fewer to enter, which is why the walk's fuel lasts. -/
theorem unvisited_enter (new : walk.state[name]? = none) (member : name ∈ groups)
    (stack : List String) :
    unvisited groups ⟨walk.state.insert name .visiting, stack⟩ < walk.unvisited groups := by
  refine Finset.card_lt_card (Finset.ssubset_iff_of_subset ?_ |>.mpr ⟨name, ?_, ?_⟩)
  · refine Finset.sdiff_subset_sdiff subset_rfl fun other inside => ?_
    rw [BTreeMap.mem_keys_toFinset] at inside ⊢
    exact Std.ExtTreeMap.mem_insert.mpr (.inr inside)
  · rw [Finset.mem_sdiff, BTreeMap.mem_keys_toFinset, BTreeMap.mem_keys_toFinset]
    refine ⟨member, ?_⟩
    rw [Std.ExtTreeMap.mem_iff_isSome_getElem?, new]
    exact Bool.false_ne_true
  · rw [Finset.mem_sdiff, BTreeMap.mem_keys_toFinset, BTreeMap.mem_keys_toFinset]
    exact fun absent => absent.2 Std.ExtTreeMap.mem_insert_self

end Walk

end

/-! ## The walk, with its panics -/

/-- A fallible computation that may panic. -/
abbrev MayPanic := ExceptT PlanError Option

/-- Running two computations side by side. -/
theorem run_bind_eq {α β : Type} {x? : MayPanic α} {x : Except PlanError α} {f? : α → MayPanic β}
    {f : α → Except PlanError β} (first : x?.run = some x)
    (next : ∀ a, x = .ok a → (f? a).run = some (f a)) : (x? >>= f?).run = some (x >>= f) := by
  rw [ExceptT.run_bind, first]
  cases x with
  | error error => rfl
  | ok a => exact next a rfl

variable [Crates]

/-- `visit`, where indexing an absent group panics. -/
def visit? (groups : BTreeMap String ResolvedGroup) (quarantined : Finset String) :
    (fuel : Nat) → (name : String) → Walk → MayPanic Walk
  | 0, _, _ => ExceptT.mk none
  | fuel + 1, name, walk =>
    match walk.state[name]?, groups[name]? with
    | some .done, _ => pure walk
    | some .visiting, _ => throw (.dependencyCycle (walk.stack.dropWhile (· != name) ++ [name]))
    | none, none => ExceptT.mk none
    | none, some group => do
      let walk : Walk := ⟨walk.state.insert name .visiting, walk.stack ++ [name]⟩
      let walk ← group.dependsOn.foldlM
        (fun walk dependency =>
          if dependency ∈ quarantined then pure walk
          else if !groups.contains dependency then throw (.missingDependency name dependency)
          else visit? groups quarantined fuel dependency walk)
        walk
      ExceptT.mk (some (checkInputs name group))
      return ⟨walk.state.insert name .done, walk.stack.dropLast⟩

def validateDependencyGraph? (groups : BTreeMap String ResolvedGroup)
    (quarantined : Finset String) : MayPanic Unit := do
  let _ ← groups.keys.foldlM
    (fun walk name => visit? groups quarantined (groups.size + 1) name walk) {}

/-- The loop, where an error that is no cycle is `unreachable!`. -/
def cycleViolations? (groups : BTreeMap String ResolvedGroup) (quarantined : Finset String) :
    (fuel : Nat) → BTreeMap String String → Option (BTreeMap String String)
  | 0, _ => none
  | fuel + 1, violations =>
    let remaining := groups.filter fun name _ => !violations.contains name
    let skip := quarantined ∪ violations.keys.toFinset
    (validateDependencyGraph? remaining skip).run.bind fun
      | .ok () => some violations
      | .error (.dependencyCycle cycle) =>
        let display := " -> ".intercalate cycle
        let message := s!"This group is part of a dependency cycle: {display}."
        cycleViolations? groups quarantined fuel
          (cycle.foldl (fun violations member => violations.insertIfNew member message) violations)
      | .error _ => none

def dependencyViolations? (groups : BTreeMap String ResolvedGroup)
    (quarantined : Finset String) : Option (BTreeMap String String) :=
  cycleViolations? groups quarantined (groups.size + 1)
    (groups.filterMap fun _ group => localViolation groups quarantined group)

/-! ## What the walk finds -/

section
variable {groups : BTreeMap String ResolvedGroup} {quarantined : Finset String}
  {name : String} {group : ResolvedGroup} {walk : Walk} {fuel : Nat}

/-- The group has no defect of its own: its inputs fit and are valid, and whatever it depends on is
planned or quarantined. -/
def WellWired (groups : BTreeMap String ResolvedGroup) (quarantined : Finset String)
    (group : ResolvedGroup) : Prop :=
  group.inputs.size ≤ FileSnapshot.maxFiles ∧
    (∀ entry ∈ group.inputs.toList, inputIsValid group entry.1 entry.2 = true) ∧
    ∀ dependency ∈ group.dependsOn, dependency ∈ quarantined ∨ dependency ∈ groups

theorem localViolation_eq_none_iff :
    localViolation groups quarantined group = none ↔ WellWired groups quarantined group := by
  unfold localViolation WellWired
  split_ifs with many
  · simp only [false_iff, not_and]
    intro few
    omega
  · split
    · rename_i input reference found
      simp only [reduceCtorEq, false_iff, not_and]
      intro _ valid
      have invalid := List.find?_some found
      simp [valid _ (List.mem_of_find?_eq_some found)] at invalid
    · rename_i found
      simp only [List.find?_eq_none, Bool.not_eq_true', Bool.not_eq_false] at found
      simp only [Option.map_eq_none_iff, List.find?_eq_none, Bool.and_eq_true, decide_eq_true_eq,
        Bool.not_eq_true', not_and, Bool.not_eq_false, Std.ExtTreeMap.contains_iff_mem]
      refine ⟨fun present => ⟨Nat.le_of_not_lt many, fun entry member => found entry member,
        fun dependency member => ?_⟩, fun fine dependency member free => ?_⟩
      · exact or_iff_not_imp_left.mpr (present dependency member)
      · exact (fine.2.2 dependency member).resolve_left free

/-- A well wired group passes what the walk checks of it. -/
theorem checkInputs_eq_ok (fine : WellWired groups quarantined group) :
    checkInputs name group = .ok () := by
  obtain ⟨few, valid, -⟩ := fine
  simp only [checkInputs, Nat.not_lt.mpr few, if_false]
  exact Except.forM_eq_ok fun entry member => if_pos (valid entry member)

/-- **Why a walk can fail**: it names a cycle, or some group is not well wired. -/
inductive Flaw (groups : BTreeMap String ResolvedGroup) (quarantined : Finset String) :
    PlanError → Prop
  | cycle {cycle : List String} (nonempty : cycle ≠ [])
      (closed : ∀ name ∈ cycle, name ∈ groups ∧
        TransGen (DependsOn groups quarantined) name name) :
      Flaw groups quarantined (.dependencyCycle cycle)
  | defect {error : PlanError} {name : String} {group : ResolvedGroup}
      (found : groups[name]? = some group) (broken : ¬ WellWired groups quarantined group) :
      Flaw groups quarantined error

/-- What a walk can come to: it leaves its stack as it was and has marked more, or it fails for a
reason. -/
inductive Outcome (groups : BTreeMap String ResolvedGroup) (quarantined : Finset String)
    (walk : Walk) : Except PlanError Walk → Prop
  | ok {after : Walk} (sound : after.Sound groups quarantined) (stack : after.stack = walk.stack)
      (grows : ∀ name ∈ walk.state, name ∈ after.state) :
        Outcome groups quarantined walk (.ok after)
  | error {error : PlanError} (flaw : Flaw groups quarantined error) :
      Outcome groups quarantined walk (.error error)

/-- Going on from an outcome, with and without panics. -/
theorem Outcome.bind {x? : MayPanic Walk} {x : Except PlanError Walk} {f? : Walk → MayPanic Walk}
    {f : Walk → Except PlanError Walk} (outcome : Outcome groups quarantined walk x)
    (agrees : x?.run = some x)
    (next : ∀ after, after.Sound groups quarantined → after.stack = walk.stack →
      (∀ name ∈ walk.state, name ∈ after.state) →
        (f? after).run = some (f after) ∧ Outcome groups quarantined after (f after)) :
    (x? >>= f?).run = some (x >>= f) ∧ Outcome groups quarantined walk (x >>= f) := by
  rw [ExceptT.run_bind, agrees]
  cases outcome with
  | error flaw => exact ⟨rfl, .error flaw⟩
  | @ok after sound stack grows =>
    obtain ⟨agrees', rest⟩ := next after sound stack grows
    refine ⟨agrees', ?_⟩
    change Outcome groups quarantined walk (f after)
    generalize f after = result at rest
    cases rest with
    | error flaw => exact .error flaw
    | ok sound' stack' grows' =>
      exact .ok sound' (stack'.trans stack) fun name inside => grows' name (grows name inside)

/-- Leaving a group once its dependencies have been walked. -/
theorem Outcome.leave {x? : MayPanic Walk} {x : Except PlanError Walk}
    (outcome : Outcome groups quarantined
      ⟨walk.state.insert name .visiting, walk.stack ++ [name]⟩ x)
    (agrees : x?.run = some x) (found : groups[name]? = some group) (fresh : name ∉ walk.stack) :
    (do
        let after ← x?
        ExceptT.mk (some (checkInputs name group))
        return ⟨after.state.insert name .done, after.stack.dropLast⟩ : MayPanic Walk).run =
      some (do
        let after ← x
        checkInputs name group
        return ⟨after.state.insert name .done, after.stack.dropLast⟩) ∧
    Outcome groups quarantined walk (do
      let after ← x
      checkInputs name group
      return ⟨after.state.insert name .done, after.stack.dropLast⟩) := by
  rw [ExceptT.run_bind, agrees]
  cases outcome with
  | error flaw => exact ⟨rfl, .error flaw⟩
  | @ok after sound stack grows =>
    have member : name ∈ groups :=
      Std.ExtTreeMap.mem_iff_isSome_getElem?.mpr (by rw [found]; rfl)
    cases checked : checkInputs name group with
    | error error =>
      refine ⟨rfl, .error (.defect found fun fine => ?_)⟩
      rw [checkInputs_eq_ok fine] at checked
      cases checked
    | ok =>
      refine ⟨rfl, .ok (sound.leave stack fresh member) ?_ fun other inside => ?_⟩
      · rw [stack, List.dropLast_concat]
      · exact Std.ExtTreeMap.mem_insert.mpr
          (.inr (grows other (Std.ExtTreeMap.mem_insert.mpr (.inr inside))))

/-- The walk, from any sound point, over groups it has the fuel for: it does not panic, and comes to
one of the outcomes. -/
def Visits (groups : BTreeMap String ResolvedGroup) (quarantined : Finset String) (fuel : Nat) :
    Prop :=
  ∀ {name : String} {walk : Walk}, walk.Sound groups quarantined → name ∈ groups →
    (∀ top ∈ walk.stack.getLast?, DependsOn groups quarantined top name) →
    walk.unvisited groups < fuel →
      (visit? groups quarantined fuel name walk).run =
          some (visit groups quarantined fuel name walk) ∧
        Outcome groups quarantined walk (visit groups quarantined fuel name walk)

/-- The loop over a group's dependencies. -/
theorem Visits.dependencies (visits : Visits groups quarantined fuel)
    (found : groups[name]? = some group) (listed : List String)
    (own : ∀ dependency ∈ listed, dependency ∈ group.dependsOn)
    (sound : walk.Sound groups quarantined) (top : walk.stack.getLast? = some name)
    (enough : walk.unvisited groups < fuel) :
    (listed.foldlM (fun walk dependency =>
        if dependency ∈ quarantined then pure walk
        else if !groups.contains dependency then throw (.missingDependency name dependency)
        else visit? groups quarantined fuel dependency walk) walk : MayPanic Walk).run =
      some (listed.foldlM (fun walk dependency =>
        if dependency ∈ quarantined then .ok walk
        else if !groups.contains dependency then .error (.missingDependency name dependency)
        else visit groups quarantined fuel dependency walk) walk) ∧
    Outcome groups quarantined walk (listed.foldlM (fun walk dependency =>
      if dependency ∈ quarantined then .ok walk
      else if !groups.contains dependency then .error (.missingDependency name dependency)
      else visit groups quarantined fuel dependency walk) walk) := by
  induction listed generalizing walk with
  | nil => exact ⟨rfl, .ok sound rfl fun _ inside => inside⟩
  | cons dependency rest ih =>
    rw [List.foldlM_cons, List.foldlM_cons]
    have here := own dependency List.mem_cons_self
    have later : ∀ dependency ∈ rest, dependency ∈ group.dependsOn :=
      fun other inside => own other (List.mem_cons_of_mem _ inside)
    by_cases frozen : dependency ∈ quarantined
    · simp only [if_pos frozen]
      exact ih later sound top enough
    by_cases present : dependency ∈ groups
    · have depends : DependsOn groups quarantined name dependency :=
        ⟨group, found, here, frozen, present⟩
      have contained : (!groups.contains dependency) = false := by
        simpa using Std.ExtTreeMap.contains_iff_mem.mpr present
      simp only [if_neg frozen, contained, Bool.false_eq_true, if_false]
      obtain ⟨agrees, outcome⟩ := visits sound present (fun last isTop => by
        cases top.symm.trans isTop
        exact depends) enough
      refine outcome.bind agrees fun after sound' stack' grows' => ?_
      exact ih later sound' (stack' ▸ top) ((Walk.unvisited_le grows').trans_lt enough)
    · have missing : (!groups.contains dependency) = true := by
        rw [Bool.not_eq_true', ← Bool.not_eq_true, Std.ExtTreeMap.contains_iff_mem]
        exact present
      simp only [if_neg frozen, missing, if_true]
      refine ⟨rfl, .error (.defect found fun fine => ?_)⟩
      exact (fine.2.2 dependency here).elim frozen present

theorem visits (fuel : Nat) : Visits groups quarantined fuel := by
  induction fuel with
  | zero => exact fun _ _ _ enough => absurd enough (Nat.not_lt_zero _)
  | succ fuel ih =>
    intro name walk sound member reached enough
    obtain ⟨group, found⟩ :=
      Option.isSome_iff_exists.mp (Std.ExtTreeMap.mem_iff_isSome_getElem?.mp member)
    unfold visit? visit
    rw [found]
    cases mark : walk.state[name]? with
    | some mark' =>
      cases mark' with
      | done => exact ⟨rfl, .ok sound rfl fun _ inside => inside⟩
      | visiting =>
        refine ⟨rfl, .error (.cycle (by simp) fun other inside => ?_)⟩
        have closed := sound.trail.closes mark reached other inside
        obtain ⟨next, depends, -⟩ := TransGen.head'_iff.mp closed
        exact ⟨mem_of_dependsOn depends, closed⟩
    | none =>
      have fresh : name ∉ walk.stack := fun inside => by
        have visiting := (sound.trail.marks name).mpr inside
        rw [mark] at visiting
        cases visiting
      have fewer := Walk.unvisited_enter mark member (walk.stack ++ [name])
      obtain ⟨agrees, outcome⟩ := ih.dependencies found group.dependsOn (fun _ inside => inside)
        (sound.enter member reached) List.getLast?_concat (by omega)
      exact outcome.leave agrees found fresh

/-! ## Flagging -/

theorem foldlM_visits (names : List String) (known : ∀ name ∈ names, name ∈ groups)
    (sound : walk.Sound groups quarantined) (idle : walk.stack = []) :
    (names.foldlM (fun walk name => visit? groups quarantined (groups.size + 1) name walk) walk :
        MayPanic Walk).run =
      some (names.foldlM (fun walk name => visit groups quarantined (groups.size + 1) name walk)
        walk) ∧
    Outcome groups quarantined walk
      (names.foldlM (fun walk name => visit groups quarantined (groups.size + 1) name walk)
        walk) := by
  induction names generalizing walk with
  | nil => exact ⟨rfl, .ok sound rfl fun _ inside => inside⟩
  | cons name rest ih =>
    rw [List.foldlM_cons, List.foldlM_cons]
    have enough : walk.unvisited groups < groups.size + 1 := by
      have bound := Finset.card_le_card
        (Finset.sdiff_subset (s := groups.keys.toFinset) (t := walk.state.keys.toFinset))
      rw [BTreeMap.card_keys_toFinset] at bound
      exact Nat.lt_succ_of_le bound
    obtain ⟨agrees, outcome⟩ := visits (groups.size + 1) sound (known name List.mem_cons_self)
      (fun top last => by simp [idle] at last) enough
    refine outcome.bind agrees fun after sound' stack' _ => ?_
    exact ih (fun other inside => known other (List.mem_cons_of_mem _ inside)) sound'
      (stack'.trans idle)

/-- Validating never panics, and fails only for a cycle or a defect. -/
theorem validateDependencyGraph_verdict (groups : BTreeMap String ResolvedGroup)
    (quarantined : Finset String) :
    (validateDependencyGraph? groups quarantined).run =
        some (validateDependencyGraph groups quarantined) ∧
      Except.FailsOnly (Flaw groups quarantined) (validateDependencyGraph groups quarantined) := by
  have start : Walk.Sound groups quarantined {} :=
    ⟨⟨.nil, fun name => by simp⟩, fun name inside => by simp at inside⟩
  obtain ⟨agrees, outcome⟩ := foldlM_visits groups.keys
    (fun name inside => Std.ExtTreeMap.mem_keys.mp inside) start rfl
  unfold validateDependencyGraph? validateDependencyGraph
  refine ⟨run_bind_eq agrees fun _ _ => rfl, ?_⟩
  generalize (groups.keys.foldlM _ _ : Except PlanError Walk) = walked at outcome
  cases outcome with
  | ok => exact .ok _
  | error flaw => exact .error flaw

/-- What is left to plan once some groups are flagged. -/
def unflagged (groups : BTreeMap String ResolvedGroup) (flagged : BTreeMap String String) :
    BTreeMap String ResolvedGroup :=
  groups.filter fun name _ => !flagged.contains name

/-- **What may be flagged**: groups that are not well wired, and groups on a cycle. -/
def Justified (groups : BTreeMap String ResolvedGroup) (quarantined : Finset String)
    (flagged : BTreeMap String String) : Prop :=
  ∀ name ∈ flagged, ∃ group, groups[name]? = some group ∧
    (¬ WellWired groups quarantined group ∨ TransGen (DependsOn groups quarantined) name name)

/-- Every group that is not well wired is flagged. -/
def FlagsDefects (groups : BTreeMap String ResolvedGroup) (quarantined : Finset String)
    (flagged : BTreeMap String String) : Prop :=
  ∀ name group, groups[name]? = some group → ¬ WellWired groups quarantined group → name ∈ flagged

variable {flagged : BTreeMap String String}

omit [Crates] in
theorem getElem?_unflagged :
    (unflagged groups flagged)[name]? = if name ∈ flagged then none else groups[name]? := by
  unfold unflagged
  rw [BTreeMap.getElem?_filter_key]
  by_cases inside : name ∈ flagged
  · simp [inside]
  · have absent : flagged.contains name = false := by
      rw [← Bool.not_eq_true, Std.ExtTreeMap.contains_iff_mem]
      exact inside
    simp [inside, absent]

omit [Crates] in
theorem mem_unflagged : name ∈ unflagged groups flagged ↔ name ∈ groups ∧ name ∉ flagged := by
  rw [Std.ExtTreeMap.mem_iff_isSome_getElem?, getElem?_unflagged]
  by_cases inside : name ∈ flagged <;> simp [inside]

omit [Crates] in
theorem dependsOn_of_unflagged {dependency : String}
    (depends : DependsOn (unflagged groups flagged) (quarantined ∪ flagged.keys.toFinset) name
      dependency) : DependsOn groups quarantined name dependency := by
  obtain ⟨group, found, listed, free, present⟩ := depends
  refine ⟨group, ?_, listed, fun frozen => free (Finset.mem_union_left _ frozen),
    (mem_unflagged.mp present).1⟩
  rw [getElem?_unflagged] at found
  split_ifs at found
  exact found

/-- Flagging a group never makes a defect of those that depend on it. -/
theorem wellWired_unflagged (defects : FlagsDefects groups quarantined flagged)
    (found : (unflagged groups flagged)[name]? = some group) :
    WellWired (unflagged groups flagged) (quarantined ∪ flagged.keys.toFinset) group := by
  have fine : WellWired groups quarantined group := by
    by_contra broken
    rw [getElem?_unflagged] at found
    split_ifs at found with inside
    exact inside (defects name group found broken)
  obtain ⟨few, valid, present⟩ := fine
  refine ⟨few, valid, fun dependency listed => ?_⟩
  rw [Finset.mem_union, BTreeMap.mem_keys_toFinset, mem_unflagged]
  rcases present dependency listed with frozen | planned
  · exact .inl (.inl frozen)
  · by_cases inside : dependency ∈ flagged
    · exact .inl (.inr inside)
    · exact .inr ⟨planned, inside⟩

theorem cycleViolations_settle (fuel : Nat) (flagged : BTreeMap String String)
    (justified : Justified groups quarantined flagged)
    (defects : FlagsDefects groups quarantined flagged)
    (enough : (groups.keys.toFinset \ flagged.keys.toFinset).card < fuel) :
    cycleViolations? groups quarantined fuel flagged =
        some (cycleViolations groups quarantined fuel flagged) ∧
      Justified groups quarantined (cycleViolations groups quarantined fuel flagged) ∧
      validateDependencyGraph
        (unflagged groups (cycleViolations groups quarantined fuel flagged))
        (quarantined ∪ (cycleViolations groups quarantined fuel flagged).keys.toFinset) =
          .ok () := by
  induction fuel generalizing flagged with
  | zero => exact absurd enough (Nat.not_lt_zero _)
  | succ fuel ih =>
    obtain ⟨agrees, verdict⟩ := validateDependencyGraph_verdict (unflagged groups flagged)
      (quarantined ∪ flagged.keys.toFinset)
    unfold cycleViolations? cycleViolations
    rw [← unflagged]
    dsimp only
    rw [agrees]
    generalize valid : validateDependencyGraph (unflagged groups flagged)
      (quarantined ∪ flagged.keys.toFinset) = result at verdict
    cases result with
    | ok => exact ⟨rfl, justified, valid⟩
    | error error =>
    cases verdict error rfl with
    | defect found broken => exact absurd (wellWired_unflagged defects found) broken
    | @cycle cycle nonempty closed =>
      have onCycle : ∀ name ∈ cycle, name ∈ groups ∧ name ∉ flagged ∧
          TransGen (DependsOn groups quarantined) name name := fun name inside =>
        ⟨(mem_unflagged.mp (closed name inside).1).1, (mem_unflagged.mp (closed name inside).1).2,
          TransGen.mono (fun _ _ => dependsOn_of_unflagged) name name (closed name inside).2⟩
      refine ih _ (fun name inside => ?_) (fun name group found broken => ?_) ?_
      · rcases (BTreeMap.mem_foldl_insertIfNew _ _ _ _).mp inside with new | before
        · obtain ⟨planned, -, around⟩ := onCycle name new
          obtain ⟨group, found⟩ :=
            Option.isSome_iff_exists.mp (Std.ExtTreeMap.mem_iff_isSome_getElem?.mp planned)
          exact ⟨group, found, .inr around⟩
        · exact justified name before
      · exact (BTreeMap.mem_foldl_insertIfNew _ _ _ _).mpr (.inr (defects name group found broken))
      · obtain ⟨first, inside⟩ := List.exists_mem_of_ne_nil cycle nonempty
        obtain ⟨planned, fresh, -⟩ := onCycle first inside
        refine Nat.lt_of_lt_of_le (Finset.card_lt_card ?_) (Nat.le_of_lt_succ enough)
        refine (Finset.ssubset_iff_of_subset ?_).mpr ⟨first, ?_, ?_⟩
        · refine Finset.sdiff_subset_sdiff subset_rfl fun name before => ?_
          rw [BTreeMap.mem_keys_toFinset] at before ⊢
          exact (BTreeMap.mem_foldl_insertIfNew _ _ _ _).mpr (.inr before)
        · rw [Finset.mem_sdiff, BTreeMap.mem_keys_toFinset, BTreeMap.mem_keys_toFinset]
          exact ⟨planned, fresh⟩
        · rw [Finset.mem_sdiff, BTreeMap.mem_keys_toFinset, BTreeMap.mem_keys_toFinset]
          exact fun left => left.2 ((BTreeMap.mem_foldl_insertIfNew _ _ _ _).mpr (.inl inside))

end

/-- **Quarantine is minimal and sufficient**: what is left validates, and whatever is flagged is
not well wired itself or lies on a cycle of dependencies. -/
theorem dependencyViolations_minimal (groups : BTreeMap String ResolvedGroup)
    (quarantined : Finset String) :
    let flagged := dependencyViolations groups quarantined
    dependencyViolations? groups quarantined = some flagged ∧
      validateDependencyGraph? (groups.filter fun name _ => !flagged.contains name)
        (quarantined ∪ flagged.keys.toFinset) = ExceptT.mk (some (.ok ())) ∧
      ∀ name ∈ flagged, ∃ group, groups[name]? = some group ∧
        (¬ WellWired groups quarantined group ∨
          TransGen (DependsOn groups quarantined) name name) := by
  have initially : ∀ name, name ∈ groups.filterMap
      (fun _ group => localViolation groups quarantined group) ↔
        ∃ group, groups[name]? = some group ∧ ¬ WellWired groups quarantined group := by
    intro name
    rw [Std.ExtTreeMap.mem_iff_isSome_getElem?, Std.ExtTreeMap.getElem?_filterMap']
    cases groups[name]? with
    | none => simp
    | some group => simp [Option.isSome_iff_ne_none, ← localViolation_eq_none_iff]
  have enough : (groups.keys.toFinset \ (groups.filterMap
      fun _ group => localViolation groups quarantined group).keys.toFinset).card <
        groups.size + 1 := by
    rw [← BTreeMap.card_keys_toFinset groups]
    exact Nat.lt_succ_of_le (Finset.card_le_card Finset.sdiff_subset)
  obtain ⟨ends, justified, valid⟩ := cycleViolations_settle (groups.size + 1)
    (groups.filterMap fun _ group => localViolation groups quarantined group)
    (fun name inside => by
      obtain ⟨group, found, broken⟩ := (initially name).mp inside
      exact ⟨group, found, .inl broken⟩)
    (fun name group found broken => (initially name).mpr ⟨group, found, broken⟩) enough
  refine ⟨ends, ?_, justified⟩
  exact (validateDependencyGraph_verdict _ _).1.trans (congrArg some valid)

end Updatedc
