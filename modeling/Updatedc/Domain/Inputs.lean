import Updatedc.Evidence

/-!
# Resolving group inputs (`updatec/src/domain.rs:503–690`)

A group may consume named files its prerequisites produce. A value counts only when every
producing node states it, from a fresh report of its own that has converged on exactly what its
group asks for; otherwise the group keeps no inputs at all and is not ready. Groups are resolved
in dependency order, because resolving a producer changes the identity its consumers compare with.
-/

namespace Updatedc

open Contracts

/-- An output publication with the digest of the exact bytes it was read from
(`updatec/src/dataflow.rs:280`). -/
structure ExactOutputPublication where
  sha256 : Sha256
  publication : OutputPublication
  deriving DecidableEq

variable [Crates]

structure InputResolution where
  nodeGroups : BTreeMap String String
  reports : BTreeMap String Envelope
  outputs : BTreeMap String ExactOutputPublication
  publicKeys : BTreeMap String P256PublicKey
  verified : VerifiedReports
  cordons : Finset String
  nowMs : Nat
  dataflowKey : Bytes

/-! ## One input -/

variable (self : InputResolution) (groups : BTreeMap String ResolvedGroup)

/-- The nodes whose word an input needs: those the producing group selects, neither cordoned nor
blind. -/
def InputResolution.producers (group : String) : List String :=
  (self.nodeGroups.toList.filterMap fun (node, selected) =>
      if selected = group then some node else none).filter fun node =>
    node ∉ self.cordons && self.publicKeys.contains node

/-- Whether an output was published by this node for what its report says it runs. -/
def outputMatches (node : String) (producer : ResolvedGroup) (report : NodeReport)
    (output : ExactOutputPublication) : Bool :=
  (output.publication.validate node).isOk
    && output.publication.deployment == producer.deployment.deployment
    && output.publication.assignmentSha256 == report.assignmentSha256
    && output.publication.archiveSha256 == report.archiveSha256
    && report.outputSha256 == some (.canonical output.sha256)

/-- The value one producing node states for an output. -/
def InputResolution.producedValue (producer : ResolvedGroup) (output node : String) :
    Option FileValue := do
  let envelope ← self.reports[node]?
  let key ← self.publicKeys[node]?
  let report ← self.verified.fresh node envelope key self.nowMs
  let identity ← deploymentIdentity producer.deployment
  let reference ← producer.deployment.application.targetReference.toOption
  if report.isConvergedTo (.canonical identity) reference.sha256 then
    let published ← self.outputs[node]?
    if outputMatches node producer report published then
      published.publication.snapshot.files[output]?
    else none
  else none

/-- The one value every item agrees on. -/
def unanimous {α : Type} [DecidableEq α] : List (Option α) → Option α
  | [] => none
  | [value] => value
  | first :: rest =>
    match first, unanimous rest with
    | some value, some agreed => if value = agreed then some value else none
    | _, _ => none

/-- The value of one declared input, from the groups resolved so far. -/
def InputResolution.resolveInput (resolved : BTreeMap String ResolvedGroup)
    (reference : GroupOutputReference) :
    Option FileValue := do
  let producer ← resolved[reference.group]?
  unanimous ((self.producers reference.group).map (self.producedValue producer reference.output))

/-! ## One group, all groups -/

/-- The group with these inputs. -/
def ResolvedGroup.withInputs (self : ResolvedGroup) (snapshot : Option FileSnapshot)
    (selection : InputSelection) : ResolvedGroup :=
  { self with
    inputSnapshot := snapshot
    deployment :=
      { self.deployment with runtime := { self.deployment.runtime with inputs := selection } } }

/-- Every declared input with its value, or nothing. -/
def InputResolution.resolveInputs (resolved : BTreeMap String ResolvedGroup)
    (inputs : BTreeMap String GroupOutputReference) :
    Option FileSnapshot := do
  let files ← inputs.toList.mapM fun (input, reference) =>
    (self.resolveInput resolved reference).map (input, ·)
  return { files := .ofList files }

def resolveOne (context : InputResolution) (resolved : BTreeMap String ResolvedGroup)
    (group : ResolvedGroup) : ResolvedGroup :=
  if group.inputs.isEmpty then group.withInputs none {}
  else
    match context.resolveInputs resolved group.inputs with
    | none => group.withInputs none {}
    | some snapshot =>
      match (InputPublication.fromSnapshot snapshot context.dataflowKey).bind
          InputPublication.selection with
      | .error _ => group.withInputs none {}
      | .ok selection => group.withInputs (some snapshot) selection

/-- Place one group, if its dependencies are placed or absent. -/
def placeStep (ordered : List String) (entry : String × ResolvedGroup) : List String :=
  if ordered.contains entry.1 then ordered
  else if entry.2.dependsOn.all fun dependency =>
      ordered.contains dependency || !groups.contains dependency then ordered ++ [entry.1]
  else ordered

/-- One walk over the groups. -/
def placeReady (ordered : List String) : List String :=
  groups.toList.foldl (placeStep groups) ordered

/-- Group names so that every group follows the ones it depends on; a name that never becomes
ready comes last. -/
def dependencyOrder : List String :=
  let ordered := (placeReady groups)^[groups.size] []
  ordered ++ groups.keys.filter (!ordered.contains ·)

/-- Resolve one group against those resolved before it. -/
def resolveStep (context : InputResolution) (groups resolved : BTreeMap String ResolvedGroup)
    (name : String) : BTreeMap String ResolvedGroup :=
  match groups[name]? with
  | some group => resolved.insert name (resolveOne context resolved group)
  | none => resolved

def resolveGroupInputs (context : InputResolution) (groups : BTreeMap String ResolvedGroup) :
    BTreeMap String ResolvedGroup :=
  (dependencyOrder groups).foldl (resolveStep context groups) ∅

/-! ## What resolution leaves alone -/

theorem resolveOne_withInputs (context : InputResolution)
    (resolved : BTreeMap String ResolvedGroup) (group : ResolvedGroup) :
    ∃ snapshot selection,
      resolveOne context resolved group = group.withInputs snapshot selection := by
  unfold resolveOne
  split_ifs
  · exact ⟨_, _, rfl⟩
  · split
    · exact ⟨_, _, rfl⟩
    · split <;> exact ⟨_, _, rfl⟩

section
variable {context : InputResolution} {groups : BTreeMap String ResolvedGroup} {name : String}

omit [Crates] in
theorem mem_dependencyOrder (planned : name ∈ groups) : name ∈ dependencyOrder groups := by
  unfold dependencyOrder
  by_cases placed : name ∈ (placeReady groups)^[groups.size] []
  · exact List.mem_append_left _ placed
  · refine List.mem_append_right _ (List.mem_filter.mpr ⟨Std.ExtTreeMap.mem_keys.mpr planned, ?_⟩)
    simpa using placed

private theorem getElem?_foldl_resolveStep {group : ResolvedGroup} (order : List String)
    {resolved : BTreeMap String ResolvedGroup}
    (found : (order.foldl (resolveStep context groups) resolved)[name]? = some group) :
    resolved[name]? = some group ∨ ∃ declared snapshot selection,
      groups[name]? = some declared ∧ group = declared.withInputs snapshot selection := by
  induction order generalizing resolved with
  | nil => exact .inl found
  | cons first rest ih =>
    rcases ih found with here | later
    · unfold resolveStep at here
      cases declared : groups[first]? with
      | none =>
        rw [declared] at here
        exact .inl here
      | some original =>
        simp only [declared] at here
        rw [BTreeMap.getElem?_insert] at here
        split_ifs at here with same
        · obtain ⟨snapshot, selection, shape⟩ := resolveOne_withInputs context resolved original
          cases same
          exact .inr ⟨original, snapshot, selection, declared,
            (Option.some.inj here).symm.trans shape⟩
        · exact .inl here
    · exact .inr later

/-- A resolved group is the declared one, but for its inputs. -/
theorem getElem?_resolveGroupInputs {group : ResolvedGroup}
    (found : (resolveGroupInputs context groups)[name]? = some group) :
    ∃ declared snapshot selection, groups[name]? = some declared ∧
      group = declared.withInputs snapshot selection := by
  rcases getElem?_foldl_resolveStep _ found with none | declared
  · simp at none
  · exact declared

private theorem mem_foldl_resolveStep (order : List String) (planned : name ∈ groups)
    {resolved : BTreeMap String ResolvedGroup} (reached : name ∈ order ∨ name ∈ resolved) :
    name ∈ order.foldl (resolveStep context groups) resolved := by
  induction order generalizing resolved with
  | nil => exact reached.resolve_left nofun
  | cons first rest ih =>
    refine ih (or_iff_not_imp_left.mpr fun later => ?_)
    have grows : name ∈ resolved → name ∈ resolveStep context groups resolved first := by
      intro there
      unfold resolveStep
      split
      · exact Std.ExtTreeMap.mem_insert.mpr (.inr there)
      · exact there
    rcases reached with listed | there
    · rcases List.mem_cons.mp listed with rfl | member
      · obtain ⟨group, declared⟩ := Option.isSome_iff_exists.mp
          (Std.ExtTreeMap.mem_iff_isSome_getElem?.mp planned)
        simp [resolveStep, declared]
      · exact absurd member later
    · exact grows there

/-- Every declared group is resolved. -/
theorem mem_resolveGroupInputs (planned : name ∈ groups) :
    name ∈ resolveGroupInputs context groups :=
  mem_foldl_resolveStep _ planned (.inl (mem_dependencyOrder planned))

end

end Updatedc
