import Updatedc.Domain.Inputs

/-!
# Inputs come from converged producers

`resolve_group_inputs` fills in a group's inputs from what the nodes of its producers report. A
producer's own inputs are filled in during the same pass, which changes the identity its nodes have
to report, so the producer a group is checked against has to be the one this pass publishes. It is,
for any graph: every group is resolved once (`dependencyOrder` names it once), so what is read from
the map being built is what the pass returns.

`Wired` says what an input then rests on, and `inputs_wired_from_producers` that a group carries
the empty selection unless all of it holds.
-/

namespace Updatedc

open Contracts

/-! ## The order -/

section
variable {groups : BTreeMap String ResolvedGroup} {ordered : List String}

theorem nodup_placeStep (distinct : ordered.Nodup) (entry : String × ResolvedGroup) :
    (placeStep groups ordered entry).Nodup := by
  unfold placeStep
  split_ifs with placed ready
  · exact distinct
  · refine distinct.append (List.nodup_singleton _) fun name before here => placed ?_
    rw [← List.mem_singleton.mp here]
    exact List.contains_iff_mem.mpr before
  · exact distinct

theorem nodup_placeReady (distinct : ordered.Nodup) : (placeReady groups ordered).Nodup := by
  unfold placeReady
  induction groups.toList generalizing ordered with
  | nil => exact distinct
  | cons entry rest ih => exact ih (nodup_placeStep distinct entry)

/-- **Every group is resolved once.** -/
theorem nodup_dependencyOrder (groups : BTreeMap String ResolvedGroup) :
    (dependencyOrder groups).Nodup := by
  have placed (rounds : Nat) : ((placeReady groups)^[rounds] []).Nodup := by
    induction rounds with
    | zero => exact List.nodup_nil
    | succ rounds ih =>
      rw [Function.iterate_succ_apply']
      exact nodup_placeReady ih
  refine (placed groups.size).append (Std.ExtTreeMap.nodup_keys.filter _) fun name early late => ?_
  simpa [early] using (List.mem_filter.mp late).2

end

variable [Crates]

section
variable {context : InputResolution} {groups resolved : BTreeMap String ResolvedGroup}
  {name : String} {group : ResolvedGroup}

theorem getElem?_resolveStep_of_ne {first : String} (other : name ≠ first) :
    (resolveStep context groups resolved first)[name]? = resolved[name]? := by
  unfold resolveStep
  cases groups[first]? with
  | none => rfl
  | some declared => exact (BTreeMap.getElem?_insert _ _ _ _).trans (if_neg other.symm)

/-- A name that is not resolved any more stays as it is. -/
theorem getElem?_foldl_resolveStep_of_notMem {order : List String} (absent : name ∉ order) :
    (order.foldl (resolveStep context groups) resolved)[name]? = resolved[name]? := by
  induction order generalizing resolved with
  | nil => rfl
  | cons first rest ih =>
    obtain ⟨other, later⟩ := not_or.mp (List.mem_cons.not.mp absent)
    rw [List.foldl_cons, ih later, getElem?_resolveStep_of_ne other]

/-- A resolved group was resolved against groups as the pass leaves them. -/
theorem exists_resolveOne {order : List String} (distinct : order.Nodup)
    (fresh : ∀ name ∈ order, resolved[name]? = none)
    (found : (order.foldl (resolveStep context groups) resolved)[name]? = some group) :
    resolved[name]? = some group ∨ ∃ before declared, group = resolveOne context before declared ∧
      ∀ (other : String) (producer : ResolvedGroup), before[other]? = some producer →
        (order.foldl (resolveStep context groups) resolved)[other]? = some producer := by
  induction order generalizing resolved with
  | nil => exact .inl found
  | cons first rest ih =>
    obtain ⟨once, later⟩ := List.nodup_cons.mp distinct
    have fresh' : ∀ name ∈ rest, (resolveStep context groups resolved first)[name]? = none :=
      fun name member => by
        rw [getElem?_resolveStep_of_ne (by rintro rfl; exact once member)]
        exact fresh name (List.mem_cons_of_mem _ member)
    rcases ih later fresh' found with here | before
    · by_cases same : name = first
      · subst same
        cases declared : groups[name]? with
        | none =>
          simp only [resolveStep, declared] at here
          exact .inl here
        | some original =>
          simp only [resolveStep, declared, BTreeMap.getElem?_insert, if_true] at here
          refine .inr ⟨resolved, original, (Option.some.inj here).symm, ?_⟩
          intro other producer read
          -- What had been resolved before this group is not resolved again.
          have different : other ≠ name := by
            rintro rfl
            rw [fresh other List.mem_cons_self] at read
            cases read
          have done : other ∉ rest := fun member => by
            rw [fresh other (List.mem_cons_of_mem _ member)] at read
            cases read
          rw [List.foldl_cons, getElem?_foldl_resolveStep_of_notMem done,
            getElem?_resolveStep_of_ne different, read]
      · rw [getElem?_resolveStep_of_ne same] at here
        exact .inl here
    · exact .inr before

end

/-! ## What an input rests on -/

namespace InputResolution

/-- The nodes of a group whose word counts. -/
structure Producer (context : InputResolution) (group node : String) : Prop where
  selected : context.nodeGroups[node]? = some group
  uncordoned : node ∉ context.cordons
  pinned : node ∈ context.publicKeys

/-- **What a node has to show for a value**: a fresh authentic report that has converged to the
producer's deployment, and an output publication which that report names, for that deployment,
assignment and archive, with the value in it. -/
def Produces (context : InputResolution) (producer : ResolvedGroup) (output node : String)
    (value : FileValue) : Prop :=
  ∃ envelope key authentic report identity target published,
    context.reports[node]? = some envelope ∧ context.publicKeys[node]? = some key ∧
    authenticateReport envelope node key = some authentic ∧
    authentic.fresh context.nowMs = some report ∧
    deploymentIdentity producer.deployment = some identity ∧
    producer.deployment.application.targetReference = .ok target ∧
    report.isConvergedTo (.canonical identity) target.sha256 = true ∧
    context.outputs[node]? = some published ∧
    report.outputSha256 = some (.canonical published.sha256) ∧
    published.publication.validate node = .ok () ∧
    published.publication.deployment = producer.deployment.deployment ∧
    published.publication.assignmentSha256 = report.assignmentSha256 ∧
    published.publication.archiveSha256 = report.archiveSha256 ∧
    published.publication.snapshot.files[output]? = some value

/-- **What a group's inputs rest on**: every declared input has a value that every counting node of
its producer shows, at least one of them, against the producer as resolved; and the deployment
selects the publication of exactly these values. -/
structure Wired (context : InputResolution) (resolved : BTreeMap String ResolvedGroup)
    (group : ResolvedGroup) (snapshot : FileSnapshot) : Prop where
  inputs : ∀ (input : String) (reference : GroupOutputReference),
    group.inputs[input]? = some reference →
      ∃ producer value, resolved[reference.group]? = some producer ∧
        snapshot.files[input]? = some value ∧ (∃ node, context.Producer reference.group node) ∧
        ∀ node, context.Producer reference.group node →
          context.Produces producer reference.output node value
  only : ∀ input ∈ snapshot.files, input ∈ group.inputs
  selection : ∃ publication, InputPublication.fromSnapshot snapshot context.dataflowKey =
    .ok publication ∧ publication.selection = .ok group.deployment.runtime.inputs

variable {context : InputResolution} {resolved : BTreeMap String ResolvedGroup}
  {group : ResolvedGroup} {name node output : String} {value : FileValue}

theorem mem_producers : node ∈ context.producers name ↔ context.Producer name node := by
  simp only [producers, List.mem_filter, List.mem_filterMap, Bool.and_eq_true, decide_eq_true_eq,
    Std.ExtTreeMap.contains_iff_mem]
  constructor
  · rintro ⟨⟨⟨other, selected⟩, member, kept⟩, uncordoned, pinned⟩
    split_ifs at kept with same
    cases kept
    cases same
    exact ⟨Std.ExtTreeMap.mem_toList_iff_getElem?_eq_some.mp member, uncordoned, pinned⟩
  · rintro ⟨selected, uncordoned, pinned⟩
    exact ⟨⟨(node, name), Std.ExtTreeMap.mem_toList_iff_getElem?_eq_some.mpr selected,
      if_pos rfl⟩, uncordoned, pinned⟩

theorem produces_of_producedValue {producer : ResolvedGroup}
    (stated : context.producedValue producer output node = some value) :
    context.Produces producer output node value := by
  unfold producedValue at stated
  simp only [Option.bind_eq_bind, Option.bind_eq_some_iff] at stated
  obtain ⟨envelope, reported, key, pinned, report, isFresh, identity, named, target, targeted,
    stated⟩ := stated
  split_ifs at stated with converged
  obtain ⟨published, output', stated⟩ := Option.bind_eq_some_iff.mp stated
  split_ifs at stated with agrees
  simp only [outputMatches, Bool.and_eq_true, beq_iff_eq] at agrees
  obtain ⟨⟨⟨⟨valid, deployment⟩, assignment⟩, archive⟩, digest⟩ := agrees
  obtain ⟨authentic, cached, live⟩ := Option.bind_eq_some_iff.mp isFresh
  -- A cached verdict is the one a verification would reach.
  have verified : authenticateReport envelope node key = some authentic := by
    rcases context.verified.authentic_eq_none_or node envelope key with missing | same
    · rw [missing] at cached
      cases cached
    · rw [← same, cached]
  have accepted : published.publication.validate node = .ok () := by
    cases checked : published.publication.validate node with
    | ok => rfl
    | error message =>
      rw [checked] at valid
      cases valid
  exact ⟨envelope, key, authentic, report, identity, target, published, reported, pinned, verified,
    live, named, Except.toOption_eq_some_iff.mp targeted, converged, output', digest, accepted,
    deployment, assignment, archive, stated⟩

omit [Crates] in
theorem unanimous_eq_some {α : Type} [DecidableEq α] {items : List (Option α)} {agreed : α}
    (all : unanimous items = some agreed) : items ≠ [] ∧ ∀ item ∈ items, item = some agreed := by
  refine ⟨?_, ?_⟩
  · rintro rfl
    cases all
  · fun_induction unanimous items with
    | case1 => nofun
    | case2 value => simpa using all
    | case3 =>
      rename_i others ih
      cases all
      exact List.forall_mem_cons.mpr ⟨rfl, ih others⟩
    | case4 => cases all
    | case5 => cases all

theorem wired_of_resolveInputs {snapshot : FileSnapshot}
    {inputs : BTreeMap String GroupOutputReference}
    (ready : context.resolveInputs resolved inputs = some snapshot) :
    (∀ (input : String) (reference : GroupOutputReference), inputs[input]? = some reference →
      ∃ producer value, resolved[reference.group]? = some producer ∧
        snapshot.files[input]? = some value ∧ (∃ node, context.Producer reference.group node) ∧
        ∀ node, context.Producer reference.group node →
          context.Produces producer reference.output node value) ∧
      ∀ input ∈ snapshot.files, input ∈ inputs := by
  obtain ⟨files, collected, made⟩ := Option.bind_eq_some_iff.mp ready
  cases made
  obtain ⟨keys, each⟩ := KeyedFold.mapM_eq_some collected
  have distinct : (files.map Prod.fst).Nodup := keys ▸ BTreeMap.nodup_keys_toList inputs
  constructor
  · intro input reference declared
    obtain ⟨value, resolves, listed⟩ := each (input, reference)
      (Std.ExtTreeMap.mem_toList_iff_getElem?_eq_some.mpr declared)
    obtain ⟨producer, found, agreed⟩ := Option.bind_eq_some_iff.mp resolves
    obtain ⟨nonempty, all⟩ := unanimous_eq_some agreed
    refine ⟨producer, value, found, BTreeMap.getElem?_ofList_of_mem distinct listed, ?_, ?_⟩
    · obtain ⟨node, member⟩ := List.exists_mem_of_ne_nil _ (mt (congrArg (List.map _)) nonempty)
      exact ⟨node, mem_producers.mp member⟩
    · intro node counts
      exact produces_of_producedValue
        (all _ (List.mem_map_of_mem (mem_producers.mpr counts)))
  · intro input inside
    obtain ⟨value, found⟩ :=
      Option.isSome_iff_exists.mp (Std.ExtTreeMap.mem_iff_isSome_getElem?.mp inside)
    have listed := List.mem_map_of_mem (f := Prod.fst) (BTreeMap.mem_of_getElem?_ofList found)
    rw [keys, Std.ExtTreeMap.map_fst_toList_eq_keys] at listed
    exact Std.ExtTreeMap.mem_keys.mp listed

end InputResolution

/-- **Inputs are wired only from converged producers.** -/
theorem inputs_wired_from_producers (context : InputResolution)
    (groups : BTreeMap String ResolvedGroup) {name : String} {group : ResolvedGroup}
    (found : (resolveGroupInputs context groups)[name]? = some group) :
    (group.inputs.isEmpty = false → group.inputsReady = true →
      ∃ snapshot, group.inputSnapshot = some snapshot ∧
        context.Wired (resolveGroupInputs context groups) group snapshot) ∧
      (group.inputs.isEmpty = true ∨ group.inputsReady = false →
        group.deployment.runtime.inputs = {}) := by
  obtain ⟨before, declared, rfl, kept⟩ := (exists_resolveOne (nodup_dependencyOrder groups)
    (fun _ _ => Std.ExtTreeMap.getElem?_empty) found).resolve_left (by simp)
  -- Without a snapshot only a group that declares no inputs is ready.
  have bare : (declared.withInputs none {}).inputs.isEmpty = false →
      (declared.withInputs none {}).inputsReady ≠ true := fun some ready => by
    simp only [ResolvedGroup.inputsReady, some] at ready
    cases ready
  unfold resolveOne
  split_ifs with none
  · exact ⟨fun some holds => absurd holds (bare some), fun _ => rfl⟩
  cases ready : context.resolveInputs before declared.inputs with
  | none => exact ⟨fun some holds => absurd holds (bare some), fun _ => rfl⟩
  | some snapshot =>
    dsimp only
    cases wired : (InputPublication.fromSnapshot snapshot context.dataflowKey).bind
        InputPublication.selection with
    | error _ => exact ⟨fun some holds => absurd holds (bare some), fun _ => rfl⟩
    | ok selection =>
      obtain ⟨inputs, only⟩ := InputResolution.wired_of_resolveInputs ready
      obtain ⟨publication, published, selected⟩ := Except.bind_ok_iff.mp wired
      refine ⟨fun _ _ => ⟨snapshot, rfl, ?_, only, publication, published, selected⟩, ?_⟩
      · intro input reference asked
        obtain ⟨producer, value, found', rest⟩ := inputs input reference asked
        exact ⟨producer, value, kept _ _ found', rest⟩
      · rintro (empty | unready)
        · exact absurd empty none
        · simp [ResolvedGroup.inputsReady, ResolvedGroup.withInputs] at unready

end Updatedc

namespace Updatedc.Sample

open Contracts

/-- Group `g` of node `m` produces the file `o`, which group `h` consumes. -/
def chained : BTreeMap String ResolvedGroup :=
  table [
    ("g", { name := "g", matchLabels := ∅, deployment := deployment "q" {}, maxUnavailable := 1 }),
    ("h",
      { name := "h", matchLabels := ∅, dependsOn := ["g"], inputs := table [("i", ⟨"g", "o"⟩)]
        deployment := deployment "c" {}, maxUnavailable := 1 })]

/-- Node `m` has converged and published the file. -/
def settled : InputResolution where
  nodeGroups := table [("m", "g"), ("n", "h")]
  reports := table [("m", envelope 109 113 3 1)]
  outputs := table [("m",
    { sha256 := 5
      publication :=
        { schema := OutputPublication.currentSchema
          node := ⟨"m", isDnsSubdomain_m⟩
          deployment := "q"
          assignmentSha256 := .canonical 113
          archiveSha256 := .canonical 1
          snapshot := { files := table [("o", ⟨"v"⟩)] } } })]
  publicKeys := table [("m", ⟨[1]⟩), ("n", ⟨[2]⟩)]
  verified := VerifiedReports.empty.verifyFleet (table [("m", envelope 109 113 3 1)])
    (table [("m", ⟨[1]⟩), ("n", ⟨[2]⟩)])
  cordons := ∅
  nowMs := 1000
  dataflowKey := List.replicate 32 0

theorem inputs_wired_from_producers_chained :
    ∃ group snapshot, (resolveGroupInputs settled chained)["h"]? = some group ∧
      group.inputSnapshot = some snapshot ∧
      settled.Wired (resolveGroupInputs settled chained) group snapshot := by
  have some : ((resolveGroupInputs settled chained)["h"]?).any
      (fun group => !group.inputs.isEmpty && group.inputsReady) = true := by decide
  obtain ⟨group, found, ready⟩ := (Option.any_eq_true _ _).mp some
  simp only [Bool.and_eq_true, Bool.not_eq_true'] at ready
  obtain ⟨snapshot, wired⟩ :=
    (inputs_wired_from_producers settled chained found).1 ready.1 ready.2
  exact ⟨group, snapshot, found, wired⟩

end Updatedc.Sample
