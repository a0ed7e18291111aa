import Updatedc.Tuf.Publishers

/-!
# Publishers with checkouts of their own

`Checkout.publish` compares the served generation with the one that was checked out, and then hands
over to `publishRepository`, which captures both mutable objects **again**. Between the two anybody
may publish. The fence of each swap is what was captured, not what was checked out, and a root has
no version check of its own: so an older local root can replace a newer served one.

The judgement of a publisher is parametric in what its directory is known to be (`good`), and is
used here with nothing known.
-/

namespace Updatedc.Tuf

open Contracts Program Relation

theorem positive_ok {version : Option Nat} {missing : String} {found : Nat}
    (ok : positive version missing = .ok found) : version = some found :=
  (Option.filter_eq_some_iff.mp (require_ok ok)).1

/-! ## Metadata closures -/

/-- The documents of one generation, from its timestamp to its targets. -/
structure Closure where
  timestamp : Bytes
  snapshotVersion : Nat
  snapshot : Bytes
  targetsVersion : Nat
  targets : Bytes

/-- The files a closure is checked out to. -/
def Closure.ChecksOutAs (closure : Closure) (dir : RepositoryDir) : Prop :=
  ∃ root rootVersion versionedRoot,
    dir = ⟨[(.root, root), (.versioned rootVersion .root, versionedRoot),
      (.timestamp, closure.timestamp),
      (.versioned closure.snapshotVersion .snapshot, closure.snapshot),
      (.versioned closure.targetsVersion .targets, closure.targets)], some closure.timestamp⟩

section

variable [Metadata]

/-- The store holds the documents that the timestamp leads to. -/
structure Closure.StoredIn (closure : Closure) (store : ObjectStore) : Prop where
  namesSnapshot : referencedVersion closure.timestamp .snapshot = some closure.snapshotVersion
  snapshot : store.bytes (.versioned closure.snapshotVersion .snapshot) = some closure.snapshot
  namesTargets : referencedVersion closure.snapshot .targets = some closure.targetsVersion
  targets : store.bytes (.versioned closure.targetsVersion .targets) = some closure.targets

/-- The first root is of no later version than the second. -/
def RootAtMost (first second : Bytes) : Prop :=
  ∃ old ∈ signedVersion first, ∃ new ∈ signedVersion second, old ≤ new

instance : DecidableRel RootAtMost := fun first second =>
  inferInstanceAs (Decidable (∃ old ∈ signedVersion first, ∃ new ∈ signedVersion second, old ≤ new))

theorem RootAtMost.trans {first second third : Bytes} (h : RootAtMost first second)
    (h' : RootAtMost second third) : RootAtMost first third := by
  obtain ⟨a, ha, b, hb, le⟩ := h
  obtain ⟨b', hb', c, hc, le'⟩ := h'
  obtain rfl := Option.mem_unique hb hb'
  exact ⟨a, ha, c, hc, le.trans le'⟩

end

variable [Crypto] [Metadata]

theorem Closure.StoredIn.of_changes {extra : ObjectStore → Write → Prop} {closure : Closure}
    {s t : ObjectStore} (stored : closure.StoredIn s) (moved : ReflTransGen (Change extra) s t) :
    closure.StoredIn t where
  namesSnapshot := stored.namesSnapshot
  snapshot := metadata_of_changes moved stored.snapshot
  namesTargets := stored.namesTargets
  targets := metadata_of_changes moved stored.targets

/-! ## The publisher's program -/

section Publisher

variable {allowed : ObjectStore → Request → Prop} {extra : ObjectStore → Write → Prop}
  {s : ObjectStore}

/-- A bounded read that succeeds returns what was there at some moment. -/
theorem behaves_readObjectBounded {path : RepositoryPath} :
    Behaves allowed extra (fun bytes t => Found (Change extra) path bytes t)
      (readObjectBounded path) s := by
  unfold readObjectBounded
  refine walks_bind walks_get fun answer t _ found => ?_
  cases answer with
  | notFound => exact behaves_throw
  | failed error => exact behaves_throw
  | found bytes =>
    refine behaves_ofExcept.imp (fun collected u later ok => ?_) fun _ _ _ _ => trivial
    obtain rfl := collectObjectBounded_ok ok
    exact (found collected rfl).later later

theorem behaves_live :
    Behaves allowed extra (fun _ _ => True) MetadataGeneration.live s := by
  unfold MetadataGeneration.live
  exact walks_bind behaves_readObjectBounded fun _ _ _ _ =>
    walks_bind behaves_readObjectBounded fun _ _ _ _ => guarantees_pure fun _ _ => trivial

/-- The signer answers with documents that match the draft, and touches nothing. -/
theorem behaves_signRelease {ε : Type} {draft : ReleaseDraft} :
    Behaves allowed extra
      (fun answer _ => ∀ signed, answer = .ok signed → signed.matchesDraft draft = true)
      (signRelease draft : Program Answer ε (Except String SignedRelease)) s := by
  refine guarantees_request fun t _ t' answer ⟨_, choice, served⟩ => ?_
  cases choice with
  | answer => cases served
  | signRoot root => cases served
  | fail error =>
    obtain ⟨rfl, rfl⟩ := Prod.mk.inj (Option.some.inj served)
    exact ⟨.refl, fun _ _ _ => nofun⟩
  | signRelease signed =>
    change (if signed.matchesDraft draft then some (t, Except.ok signed) else none) =
      some (t', answer) at served
    split_ifs at served with fits
    obtain ⟨rfl, rfl⟩ := Prod.mk.inj (Option.some.inj served)
    refine ⟨.refl, fun _ _ other same => ?_⟩
    cases same
    exact fits

theorem behaves_signSuccessor {ε : Type} {version : Nat} :
    Behaves allowed extra (fun _ _ => True)
      (signSuccessor version : Program Answer ε (Except String Bytes)) s := by
  refine guarantees_request fun t _ t' answer ⟨_, choice, served⟩ => ?_
  cases choice with
  | answer => cases served
  | signRelease signed => cases served
  | fail error =>
    obtain ⟨rfl, rfl⟩ := Prod.mk.inj (Option.some.inj served)
    exact ⟨.refl, fun _ _ => trivial⟩
  | signRoot root =>
    change (if signedVersion root = some version then some (t, Except.ok root) else none) =
      some (t', answer) at served
    split_ifs at served
    obtain ⟨rfl, rfl⟩ := Prod.mk.inj (Option.some.inj served)
    exact ⟨.refl, fun _ _ => trivial⟩

variable {dir : RepositoryDir}

/-- Adding releases commits a signed generation of the draft to the directory. -/
theorem behaves_addRelease {targets : List PublishTarget} :
    Behaves allowed extra
      (fun dir' _ => ∃ draft signed, releaseDraft dir targets false = .ok draft ∧
        signed.matchesDraft draft = true ∧ dir' = commitRelease dir draft targets signed)
      (addRelease dir targets) s := by
  unfold addRelease
  refine walks_bind behaves_ofExcept fun draft _ _ drafted => ?_
  refine walks_bind behaves_signRelease fun answer _ _ fits => ?_
  refine walks_bind behaves_ofExcept fun signed _ _ ok => ?_
  exact guarantees_pure fun _ _ => ⟨draft, signed, drafted, fits signed ok, rfl⟩

/-- A ceremony signs a successor and commits it under both names. -/
theorem behaves_republishCheckoutRoot :
    Behaves allowed extra
      (fun dir' _ => ∃ version successor,
        dir' = (dir.write (.versioned version .root) successor).write .root successor)
      (republishCheckoutRoot dir) s := by
  unfold republishCheckoutRoot
  refine walks_bind behaves_ofExcept fun root _ _ _ => ?_
  refine walks_bind behaves_ofExcept fun current _ _ _ => ?_
  refine walks_bind behaves_ofExcept fun version _ _ _ => ?_
  refine walks_bind behaves_signSuccessor fun answer _ _ _ => ?_
  refine walks_bind behaves_ofExcept fun successor _ _ _ => ?_
  exact guarantees_pure fun _ _ => ⟨version, successor, rfl⟩

theorem behaves_downloadMetadata :
    Behaves allowed extra
      (fun dir t => ∃ closure : Closure, closure.StoredIn t ∧ closure.ChecksOutAs dir)
      downloadMetadata s := by
  unfold downloadMetadata
  refine walks_bind behaves_readObjectBounded fun root _ _ _ => ?_
  refine walks_bind behaves_ofExcept fun rootVersion _ _ _ => ?_
  refine walks_bind behaves_ofExcept fun _ _ _ _ => ?_
  refine walks_bind behaves_readObjectBounded fun versionedRoot _ _ _ => ?_
  refine walks_bind behaves_ofExcept fun _ _ _ _ => ?_
  refine walks_bind behaves_readObjectBounded fun timestamp _ _ _ => ?_
  refine walks_bind behaves_ofExcept fun snapshotVersion _ _ namesSnapshot => ?_
  refine walks_bind behaves_readObjectBounded fun snapshot t₁ _ found => ?_
  obtain ⟨u₁, later₁, stored₁⟩ := found
  refine walks_bind behaves_ofExcept fun targetsVersion t₂ m₂ namesTargets => ?_
  refine walks_bind behaves_readObjectBounded fun targets t₃ m₃ found => ?_
  obtain ⟨u₃, later₃, stored₃⟩ := found
  refine guarantees_pure fun t m₄ =>
    ⟨⟨timestamp, snapshotVersion, snapshot, targetsVersion, targets⟩, ?_, ?_⟩
  · exact ⟨positive_ok namesSnapshot,
      metadata_of_changes (((later₁.trans m₂).trans m₃).trans m₄) stored₁,
      positive_ok namesTargets, metadata_of_changes (later₃.trans m₄) stored₃⟩
  · exact ⟨root, rootVersion, versionedRoot, rfl⟩

/-- A checkout is one metadata closure that the store holds. -/
theorem behaves_checkoutMetadata :
    Behaves allowed extra
      (fun checkout t => ∃ closure : Closure, closure.StoredIn t ∧ closure.ChecksOutAs checkout.dir)
      checkoutMetadata s := by
  unfold checkoutMetadata
  refine walks_bind behaves_live fun generation _ _ _ => ?_
  refine walks_bind behaves_downloadMetadata ?_
  rintro dir t₁ - ⟨closure, stored, checkedOut⟩
  refine walks_bind behaves_live fun after t₂ m₂ _ => ?_
  refine walks_bind behaves_ofExcept fun _ t₃ m₃ _ => ?_
  exact guarantees_pure fun t m₄ =>
    ⟨closure, stored.of_changes ((m₂.trans m₃).trans m₄), checkedOut⟩

/-- What is known of a publisher's directory once these releases were added to it: it stays true
whatever others do, adding releases that it may add and replacing the root keep it, and it gives
the swaps of the directory's plan what is asked of them. -/
structure Keeps (may : PublishTarget → Prop) (allowed : ObjectStore → Request → Prop)
    (extra : ObjectStore → Write → Prop)
    (good : List PublishTarget → RepositoryDir → ObjectStore → Prop) : Prop where
  stable : ∀ released dir s t, ReflTransGen (Change extra) s t → good released dir s →
    good released dir t
  release : ∀ released dir s targets draft signed, good released dir s →
    (∀ target ∈ targets, may target) →
    releaseDraft dir targets false = .ok draft → signed.matchesDraft draft = true →
      good (released ++ targets) (commitRelease dir draft targets signed) s
  root : ∀ released dir s version successor, good released dir s →
    good released ((dir.write (.versioned version .root) successor).write .root successor) s
  licensed : ∀ released dir s plan, good released dir s → currentPublicationPlan dir = .ok plan →
    Licensed allowed extra plan s

/-- A directory with all of this was published. -/
def Delivered (extra : ObjectStore → Write → Prop)
    (good : List PublishTarget → RepositoryDir → ObjectStore → Prop) (released : List PublishTarget)
    (t : ObjectStore) : Prop :=
  ∃ dir plan repository, good released dir t ∧ currentPublicationPlan dir = .ok plan ∧
    loadLocal dir "resolving current publication closure" = .ok repository ∧
    Published extra plan repository.timestamp t

variable {good : List PublishTarget → RepositoryDir → ObjectStore → Prop}
  {released : List PublishTarget}
  {may : PublishTarget → Prop}

/-- One attempt, given what follows a conflict. -/
theorem behaves_attemptPublish (keeps : Keeps may allowed extra good)
    {generation : MetadataGeneration} (known : good released dir s)
    {again : String → Controlling Unit} (retry : ∀ message t, good released dir t →
      Behaves allowed extra (fun _ u => Delivered extra good released u) (again message) t) :
    Behaves allowed extra (fun _ t => Delivered extra good released t)
      (Checkout.attempt generation dir again) s := by
  unfold Checkout.attempt
  refine walks_bind behaves_live fun live s₁ m₁ _ => ?_
  have known₁ := keeps.stable released dir s s₁ m₁ known
  cases live.changedDocument generation with
  | some document => exact behaves_throw
  | none =>
    refine walks_bind (walks_attempt (behaves_publishRepository
      fun plan => keeps.licensed released dir s₁ plan known₁)) fun result s₂ m₂ outcome => ?_
    have known₂ := keeps.stable released dir s₁ s₂ m₂ known₁
    cases result with
    | ok _ =>
      obtain ⟨plan, repository, planned, loaded, complete, u, before, served⟩ := outcome _ rfl
      exact guarantees_pure fun t later => ⟨dir, plan, repository,
        keeps.stable released dir s₂ t later known₂, planned, loaded,
        complete_of_changes later complete, u, before.trans later, served⟩
    | error error =>
      cases error with
      | operation message => exact behaves_throw
      | onlineMetadataConflict message => exact retry message s₂ known₂

/-- A publish that succeeds has published a good directory, after however many retries. -/
theorem behaves_checkoutPublish (keeps : Keeps may allowed extra good)
    {generation : MetadataGeneration} {retries : Nat} (known : good released dir s) :
    Behaves allowed extra (fun _ t => Delivered extra good released t)
      (Checkout.publish generation retries dir) s := by
  induction retries generalizing dir s with
  | zero => exact behaves_attemptPublish keeps known fun _ _ _ => behaves_throw
  | succ retries ih =>
    refine behaves_attemptPublish keeps known fun _ t known => ?_
    refine walks_bind behaves_addRelease ?_
    rintro dir' u moved ⟨draft, signed, drafted, fits, rfl⟩
    have resigned := keeps.release released dir u [] draft signed
      (keeps.stable released dir t u moved known) (by simp) drafted fits
    exact ih (by simpa using resigned)

theorem behaves_edits (keeps : Keeps may allowed extra good) {edits : List Edit}
    (known : good released dir s) (permitted : ∀ target ∈ edits.flatMap Edit.targets, may target) :
    Behaves allowed extra (fun dir' t => good (released ++ edits.flatMap Edit.targets) dir' t)
      (edits.foldlM Edit.apply dir) s := by
  induction edits generalizing released dir s with
  | nil =>
    refine guarantees_pure fun t moved => ?_
    simpa using keeps.stable released dir s t moved known
  | cons edit rest ih =>
    rw [List.flatMap_cons, List.forall_mem_append] at permitted
    rw [List.foldlM_cons]
    have first : Behaves allowed extra (fun dir' t => good (released ++ edit.targets) dir' t)
        (edit.apply dir) s := by
      cases edit with
      | release targets =>
        refine behaves_addRelease.imp ?_ fun _ _ _ _ => trivial
        rintro _ t moved ⟨draft, signed, drafted, fits, rfl⟩
        exact keeps.release released dir t targets draft signed
          (keeps.stable released dir s t moved known) permitted.1 drafted fits
      | root =>
        refine behaves_republishCheckoutRoot.imp ?_ fun _ _ _ _ => trivial
        rintro _ t moved ⟨version, successor, rfl⟩
        simpa [Edit.targets] using keeps.root released dir t version successor
          (keeps.stable released dir s t moved known)
    refine walks_bind first fun dir' t _ edited => ?_
    simpa using ih edited permitted.2

/-- **A publisher that succeeds** has delivered a directory with all its releases. -/
theorem behaves_publisher (keeps : Keeps may allowed extra good)
    (checkedOut : Behaves allowed extra (fun checkout t => good [] checkout.dir t)
      checkoutMetadata s) {edits : List Edit}
    (permitted : ∀ target ∈ edits.flatMap Edit.targets, may target) :
    Behaves allowed extra (fun _ t => Delivered extra good (edits.flatMap Edit.targets) t)
      (publisher edits) s := by
  unfold publisher
  refine walks_bind checkedOut fun checkout t _ known => ?_
  refine walks_bind (behaves_edits keeps known permitted) fun dir u _ edited => ?_
  exact behaves_checkoutPublish keeps (by simpa using edited)

end Publisher

/-! ## The root pointer -/

section RootPointer

/-- When a publication captures `root.json`, the root served is no newer than its own. -/
def rootNotNewer : ObjectStore → Request → Prop
  | store, .capture .root bytes _ =>
    ∀ served ∈ store.bytes .root, RootAtMost served bytes
  | _, _ => True

instance (store : ObjectStore) : (request : Request) → Decidable (rootNotNewer store request)
  | .capture .root bytes _ =>
    inferInstanceAs (Decidable (∀ served ∈ store.bytes .root, RootAtMost served bytes))
  | .capture .timestamp _ _ | .capture (.versioned _ _) _ _ | .capture (.target _ _) _ _ =>
    isTrue trivial
  | .get _ | .put _ | .signRelease _ | .signRoot _ => isTrue trivial

/-- A swap of the root against a root that is no newer. -/
def rootForward (_ : ObjectStore) (write : Write) : Prop :=
  ∀ served, write.path = .root → write.mode = .update served → RootAtMost served write.bytes

theorem Change.root {s t : ObjectStore} (change : Change rootForward s t) {bytes : Bytes}
    (served : s.bytes .root = some bytes) :
    ∃ bytes', t.bytes .root = some bytes' ∧ (bytes' = bytes ∨ RootAtMost bytes bytes') := by
  rcases change.at .root with same | ⟨write, here, proper, admitted, landed⟩
  · exact ⟨bytes, same.trans served, .inl rfl⟩
  · rw [Proper, here] at proper
    obtain ⟨⟨previous, mode⟩, forward⟩ := proper
    rw [ObjectStore.admits_fence mode, here, served] at admitted
    subst admitted
    exact ⟨write.bytes, landed, .inr (forward bytes here mode)⟩

theorem keeps_rootForward :
    Keeps (fun _ => True) rootNotNewer rootForward fun _ _ _ => True where
  stable _ _ _ _ _ _ := trivial
  release _ _ _ _ _ _ _ _ _ _ := trivial
  root _ _ _ _ _ _ := trivial
  licensed _ _ _ plan _ _ write t _ captured _ served here mode := by
    obtain ⟨u, -, -, may, seen⟩ := captured
    change write.path = .root at here
    change PutMode.fence write.previous = .update served at mode
    cases before : write.previous with
    | none => simp [before, PutMode.fence] at mode
    | some previous =>
      simp only [before, PutMode.fence, PutMode.update.injEq] at mode
      subst mode
      rw [here] at may seen
      exact may previous (seen.trans before)

variable {ι : Type}

/-- Publishers with checkouts of their own on one store. -/
def publishing (edits : ι → List Edit) (contents : RepositoryPath → Option Bytes) :
    Config ObjectStore Answer String Unit ι where
  state := .holding contents
  pool who := publisher (edits who)

theorem publishing_kept_rootForward (edits : ι → List Edit)
    (contents : RepositoryPath → Option Bytes) :
    (publishing edits contents).Kept serve rootNotNewer (Sound rootForward) (Change rootForward)
      (fun _ _ _ => True) (fun _ _ _ => True) (.holding contents) where
  inv := nofun
  moved := .refl
  pool _ := by
    have checkedOut : Behaves rootNotNewer rootForward (fun _ _ => True) checkoutMetadata
        (.holding contents) :=
      behaves_checkoutMetadata.imp (fun _ _ _ _ => trivial) fun _ _ _ _ => trivial
    exact (behaves_publisher keeps_rootForward checkedOut fun _ _ => trivial).imp
      (fun _ _ _ _ => trivial)
      fun _ _ _ _ => trivial

variable [DecidableEq ι]

/-- **The root pointer never moves back** in a run in which no publication captures a `root.json`
newer than its own: over every such schedule of releases, renewals and rotations, with writes that
land late. -/
theorem root_never_moves_back (edits : ι → List Edit) (contents : RepositoryPath → Option Bytes)
    (before after : List (Turn ι Choice Nat))
    (forward : (publishing edits contents).Meets serve landLate rootNotNewer (fun _ _ => True)
      (before ++ after)) :
    let first := ((publishing edits contents).play serve landLate before).state
    let last := ((publishing edits contents).play serve landLate (before ++ after)).state
    ∀ bytes, first.bytes .root = some bytes →
      ∃ bytes', last.bytes .root = some bytes' ∧
        ∀ old new, signedVersion bytes = some old → signedVersion bytes' = some new →
          old ≤ new := by
  intro first last bytes served
  obtain ⟨forwardBefore, forwardAfter⟩ := Config.meets_append.mp forward
  have stays : ∀ s t write, Change rootForward s t → rootForward s write → rootForward t write :=
    fun _ _ _ _ known => known
  have keptFirst := kept_play stays (publishing_kept_rootForward edits contents) forwardBefore
  have keptLast := kept_play stays keptFirst.restart forwardAfter
  have moved : ReflTransGen (Change rootForward) first last := by
    simpa only [first, last, Config.play_append] using keptLast.moved
  obtain ⟨bytes', served', same⟩ := pointer_of_changes RootAtMost (fun _ _ _ => RootAtMost.trans)
    (fun _ _ _ change => change.root) moved served
  refine ⟨bytes', served', fun old new isOld isNew => ?_⟩
  rcases same with rfl | ⟨u, isU, v, isV, le⟩
  · exact (Option.some.inj (isOld.symm.trans isNew)).le
  · obtain rfl := Option.some.inj (isOld.symm.trans isU)
    obtain rfl := Option.some.inj (isNew.symm.trans isV)
    exact le

end RootPointer

end Updatedc.Tuf

namespace Updatedc.Tuf.Sample.Bucket

open Contracts Program

/-! ### A small bucket

Documents of a few bytes: a kind, a version, and the version they refer to or the packages they
list. -/

scoped instance : Crypto where
  sha256 bytes := BitVec.ofNat 256 (bytes.foldl (fun n byte => 256 * n + byte.toNat + 1) 0)
  hmacSha256 _ _ := 0
  verifyAsn1 _ _ _ := true

def package : UInt8 → PublishTarget
  | 1 => ⟨"products/app/stable/1.0.0/linux/app", [1]⟩
  | n => ⟨"products/app/stable/2.0.0/linux/app", [n]⟩

scoped instance : Metadata where
  signedVersion bytes := bytes[1]?.map UInt8.toNat
  referencedVersion bytes _ := bytes[2]?.map UInt8.toNat
  consistentSnapshot _ := true
  listedTargets bytes := some ((bytes.drop 2).map fun n => (package n).entry)
  verifies _ := .ok ()

/-- Generation 5 under root 1, with nothing published yet. -/
def contents : RepositoryPath → Option Bytes
  | .root => some [0, 1]
  | .versioned 1 .root => some [0, 1]
  | .timestamp => some [1, 5, 5]
  | .versioned 5 .snapshot => some [2, 5, 5]
  | .versioned 5 .targets => some [3, 5]
  | _ => none

/-- One publisher releases a package, the other rotates the root. -/
def releaseAndRotate : Bool → List Edit
  | false => [.release [package 1]]
  | true => [.root]

/-- Every call of this publisher is answered, for so many calls. -/
def calls (who : Bool) (count : Nat) : List (Turn Bool Choice Nat) :=
  List.replicate count (.call who .answer)

def rotation : List (Turn Bool Choice Nat) :=
  calls true 9 ++ [.call true (.signRoot [0, 2])] ++ calls true 20

/-- The release is signed and compared with the served generation, and then the rotation runs. -/
def untilRotated : List (Turn Bool Choice Nat) :=
  calls false 9 ++ [.call false (.signRelease ⟨[3, 6, 1], [2, 6, 6], [1, 6, 6]⟩)] ++
    calls false 2 ++ rotation

theorem root_never_moves_back_rotation :
    ∃ bytes, ((publishing releaseAndRotate contents).play serve landLate
        ([] ++ rotation)).state.bytes .root = some bytes ∧
      ∀ old new, signedVersion [0, 1] = some old → signedVersion bytes = some new → old ≤ new :=
  root_never_moves_back releaseAndRotate contents [] rotation (by decide) [0, 1]
    (by decide)

/-- The release captures the rotated root, passes every check, and swaps the old root back in. -/
theorem root_moves_back :
    let first := (publishing releaseAndRotate contents).play serve landLate untilRotated
    let last := (publishing releaseAndRotate contents).play serve landLate
      (untilRotated ++ calls false 20)
    (first.pool true).returned = some () ∧ first.state.bytes .root = some [0, 2] ∧
      (last.pool false).returned = some () ∧ last.state.bytes .root = some [0, 1] := by
  decide

end Updatedc.Tuf.Sample.Bucket
