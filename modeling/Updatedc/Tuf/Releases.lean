import Updatedc.Tuf.Checkouts

/-!
# No published release is lost

A publisher's directory lists everything the generation it checked out listed, and its own
releases. A release takes the place of one of its name, so its entry stays as long as **nobody
releases other bytes under that name** and each swap of the timestamp replaces **the timestamp its
publisher checked out**.

The fence does not ensure that. It is against what `publishRepository` captured, after the
comparison with the checkout, and a publisher that re-signed past an online metadata conflict is
ahead of the winner by a version: it can capture the winner's timestamp and replace it with a
generation that never saw the winner's release.
-/

namespace Updatedc.Tuf

open Contracts Program Relation

/-! ## Metadata closures in a directory -/

variable {dir : RepositoryDir}

section Local

variable [Metadata]

/-- What a targets document lists under a name. -/
def listedAs (name : String) (document : Bytes) : List TargetEntry :=
  ((listedTargets document).getD []).filter (·.name = name)

/-- A document that lists this entry under its name, and nothing else, is followed by one that
does. -/
def Carries (entry : TargetEntry) (old new : Bytes) : Prop :=
  listedAs entry.name old = [entry] → listedAs entry.name new = [entry]

/-- The directory's generation is this closure. -/
structure Closure.InDir (closure : Closure) (dir : RepositoryDir) : Prop where
  timestamp : dir.file .timestamp = some closure.timestamp
  namesSnapshot : referencedVersion closure.timestamp .snapshot = some closure.snapshotVersion
  snapshot : dir.file (.versioned closure.snapshotVersion .snapshot) = some closure.snapshot
  namesTargets : referencedVersion closure.snapshot .targets = some closure.targetsVersion
  targets : dir.file (.versioned closure.targetsVersion .targets) = some closure.targets

/-- A directory that loads is loaded as its closure. -/
theorem Closure.InDir.loaded {closure : Closure} (inDir : closure.InDir dir) {context : String}
    {repository : LoadedRepository} (loaded : loadLocal dir context = .ok repository) :
    repository.timestamp = closure.timestamp ∧
      repository.snapshotVersion = closure.snapshotVersion ∧
      repository.snapshot = closure.snapshot ∧
      repository.targetsVersion = closure.targetsVersion ∧
      repository.targetsDocument = closure.targets ∧
      listedTargets closure.targets = some repository.targets := by
  obtain ⟨root, _, rest⟩ := Except.bind_ok_iff.mp loaded
  obtain ⟨timestamp, found, rest⟩ := Except.bind_ok_iff.mp rest
  obtain rfl := Option.some.inj (inDir.timestamp.symm.trans (require_ok found))
  obtain ⟨snapshotVersion, found, rest⟩ := Except.bind_ok_iff.mp rest
  obtain rfl := Option.some.inj (inDir.namesSnapshot.symm.trans (require_ok found))
  obtain ⟨snapshot, found, rest⟩ := Except.bind_ok_iff.mp rest
  obtain rfl := Option.some.inj (inDir.snapshot.symm.trans (require_ok found))
  obtain ⟨targetsVersion, found, rest⟩ := Except.bind_ok_iff.mp rest
  obtain rfl := Option.some.inj (inDir.namesTargets.symm.trans (require_ok found))
  obtain ⟨targetsDocument, found, rest⟩ := Except.bind_ok_iff.mp rest
  obtain rfl := Option.some.inj (inDir.targets.symm.trans (require_ok found))
  obtain ⟨targets, listed, rest⟩ := Except.bind_ok_iff.mp rest
  obtain ⟨_, _, rest⟩ := Except.bind_ok_iff.mp rest
  obtain rfl := Except.ok.inj rest
  exact ⟨rfl, rfl, rfl, rfl, rfl, require_ok listed⟩

/-- A checkout is in its directory. -/
theorem Closure.inDir_of_checkout {closure : Closure} {store : ObjectStore}
    (stored : closure.StoredIn store) (checkedOut : closure.ChecksOutAs dir) :
    closure.InDir dir := by
  obtain ⟨root, rootVersion, versionedRoot, rfl⟩ := checkedOut
  refine ⟨?_, stored.namesSnapshot, ?_, stored.namesTargets, ?_⟩ <;>
    simp [RepositoryDir.file, lookup_cons_ite]

/-- Root files are no part of the closure. -/
theorem Closure.InDir.write_root {closure : Closure} (inDir : closure.InDir dir) (version : Nat)
    (successor : Bytes) :
    closure.InDir ((dir.write (.versioned version .root) successor).write .root successor) where
  timestamp := by simp [RepositoryDir.file_write, inDir.timestamp]
  namesSnapshot := inDir.namesSnapshot
  snapshot := by simp [RepositoryDir.file_write, inDir.snapshot]
  namesTargets := inDir.namesTargets
  targets := by simp [RepositoryDir.file_write, inDir.targets]

variable [Crypto]

omit [Metadata] in
/-- What is listed under a name once packages are added: the entry they agree on, or what was. -/
theorem filter_foldl_addTarget {name : String} {entry : TargetEntry} {targets : List PublishTarget}
    {listed : List TargetEntry}
    (agree : ∀ target ∈ targets, target.name = name → target.entry = entry) :
    (targets.foldl addTarget listed).filter (·.name = name) =
      if name ∈ targets.map PublishTarget.name then [entry]
      else listed.filter (·.name = name) := by
  induction targets generalizing listed with
  | nil => simp
  | cons target targets ih =>
    obtain ⟨here, later⟩ := List.forall_mem_cons.mp agree
    have added : (addTarget listed target).filter (·.name = name) =
        if target.name = name then [entry] else listed.filter (·.name = name) := by
      rw [addTarget, List.filter_append, List.filter_filter]
      split
      next same =>
        have isNamed : entry.name = name := here same ▸ same
        simp only [here same, isNamed, decide_true, List.filter_cons_of_pos, List.filter_nil]
        simp +contextual [same]
      next other =>
        have others : target.entry.name ≠ name := other
        simp only [others, decide_false, Bool.false_eq_true, not_false_eq_true,
          List.filter_cons_of_neg, List.filter_nil, List.append_nil]
        refine List.filter_congr fun entry _ => ?_
        grind
    rw [List.foldl_cons, ih later, added, List.map_cons]
    simp only [List.mem_cons, eq_comm]
    grind

/-- The closure of a signed generation. -/
def SignedRelease.closure (signed : SignedRelease) (draft : ReleaseDraft) : Closure :=
  ⟨signed.timestamp, draft.snapshotVersion, signed.snapshot, draft.targetsVersion, signed.targets⟩

/-- A signed generation is in the directory it is committed to: its documents are written last. -/
theorem SignedRelease.closure_inDir {signed : SignedRelease} {draft : ReleaseDraft}
    (fits : signed.matchesDraft draft = true) (dir : RepositoryDir)
    (targets : List PublishTarget) :
    (signed.closure draft).InDir (commitRelease dir draft targets signed) := by
  simp only [matchesDraft, Bool.and_eq_true, decide_eq_true_eq] at fits
  obtain ⟨⟨⟨⟨⟨-, -⟩, -⟩, namesTargets⟩, -⟩, namesSnapshot⟩ := fits
  refine ⟨?_, namesSnapshot, ?_, namesTargets, ?_⟩ <;>
    simp [commitRelease, releaseFiles, RepositoryDir.writeAll, closure, RepositoryDir.file_write]

end Local

/-! ## Successive generations -/

section Succession

variable [Metadata]

/-- A timestamp leads to one closure. -/
theorem Closure.StoredIn.unique {first second : Closure} {store : ObjectStore}
    (h : first.StoredIn store) (h' : second.StoredIn store)
    (same : first.timestamp = second.timestamp) : first = second := by
  obtain ⟨timestamp, snapshotVersion, snapshot, targetsVersion, targets⟩ := first
  obtain ⟨timestamp', snapshotVersion', snapshot', targetsVersion', targets'⟩ := second
  obtain rfl : timestamp = timestamp' := same
  obtain rfl : snapshotVersion = snapshotVersion' :=
    Option.some.inj (h.namesSnapshot.symm.trans h'.namesSnapshot)
  obtain rfl : snapshot = snapshot' := Option.some.inj (h.snapshot.symm.trans h'.snapshot)
  obtain rfl : targetsVersion = targetsVersion' :=
    Option.some.inj (h.namesTargets.symm.trans h'.namesTargets)
  obtain rfl : targets = targets' := Option.some.inj (h.targets.symm.trans h'.targets)
  rfl

/-- The second timestamp is the first, or its generation carries the first one's entry. -/
def Succeeds (entry : TargetEntry) (store : ObjectStore) (first second : Bytes) : Prop :=
  second = first ∨ ∃ old new : Closure, old.timestamp = first ∧ old.StoredIn store ∧
    new.timestamp = second ∧ new.StoredIn store ∧ Carries entry old.targets new.targets

variable {entry : TargetEntry}

theorem Succeeds.trans {store : ObjectStore} {first second third : Bytes}
    (h : Succeeds entry store first second) (h' : Succeeds entry store second third) :
    Succeeds entry store first third := by
  rcases h with rfl | ⟨old, middle, isOld, oldStored, isMiddle, middleStored, grows⟩
  · exact h'
  · rcases h' with rfl | ⟨middle', new, isMiddle', middleStored', isNew, newStored, grows'⟩
    · exact .inr ⟨old, middle, isOld, oldStored, isMiddle, middleStored, grows⟩
    · obtain rfl := middleStored.unique middleStored' (isMiddle.trans isMiddle'.symm)
      exact .inr ⟨old, new, isOld, oldStored, isNew, newStored, grows' ∘ grows⟩

/-- The plan uploads the closure's documents. -/
structure Closure.PlannedBy (closure : Closure) (plan : PublicationPlan) : Prop where
  namesSnapshot : referencedVersion closure.timestamp .snapshot = some closure.snapshotVersion
  snapshot : (.versioned closure.snapshotVersion .snapshot, closure.snapshot) ∈ plan.uploads
  namesTargets : referencedVersion closure.snapshot .targets = some closure.targetsVersion
  targets : (.versioned closure.targetsVersion .targets, closure.targets) ∈ plan.uploads

/-- A swap of the timestamp against one whose entry the new generation carries. -/
def includesReplaced (entry : TargetEntry) (store : ObjectStore) (write : Write) : Prop :=
  ∀ served, write.path = .timestamp → write.mode = .update served →
    ∃ old new : Closure, old.timestamp = served ∧ old.StoredIn store ∧
      new.timestamp = write.bytes ∧ new.PlannedBy write.plan ∧ Carries entry old.targets new.targets

/-- When a publication captures `timestamp.json`, it finds the one it was checked out with, or its
own. -/
def capturesCheckout : ObjectStore → Request → Prop
  | store, .capture .timestamp bytes plan =>
    store.bytes .timestamp = plan.base ∨ store.bytes .timestamp = some bytes
  | _, _ => True

instance (store : ObjectStore) : (request : Request) → Decidable (capturesCheckout store request)
  | .capture .timestamp bytes plan => inferInstanceAs (Decidable
      (store.bytes .timestamp = plan.base ∨ store.bytes .timestamp = some bytes))
  | .capture .root _ _ | .capture (.versioned _ _) _ _ | .capture (.target _ _) _ _ =>
    isTrue trivial
  | .get _ | .put _ | .signRelease _ | .signRoot _ => isTrue trivial

variable [Crypto]

theorem Closure.PlannedBy.storedIn {closure : Closure} {plan : PublicationPlan}
    {store : ObjectStore} (planned : closure.PlannedBy plan) (complete : store.Complete plan) :
    closure.StoredIn store where
  namesSnapshot := planned.namesSnapshot
  snapshot := complete.metadata _ _ _ planned.snapshot
  namesTargets := planned.namesTargets
  targets := complete.metadata _ _ _ planned.targets

theorem includesReplaced_stays (s t : ObjectStore) (write : Write)
    (change : Change (includesReplaced entry) s t) (known : includesReplaced entry s write) :
    includesReplaced entry t write := by
  intro served here mode
  obtain ⟨old, new, isOld, stored, rest⟩ := known served here mode
  exact ⟨old, new, isOld, stored.of_changes (.single change), rest⟩

theorem Succeeds.of_changes {extra : ObjectStore → Write → Prop} {s t : ObjectStore}
    {first second : Bytes} (h : Succeeds entry s first second)
    (moved : ReflTransGen (Change extra) s t) : Succeeds entry t first second := by
  rcases h with same | ⟨old, new, isOld, oldStored, isNew, newStored, grows⟩
  · exact .inl same
  · exact .inr ⟨old, new, isOld, oldStored.of_changes moved, isNew, newStored.of_changes moved,
      grows⟩

/-- One change of the served timestamp is to a generation that carries the entry. -/
theorem Change.succeeds {s t : ObjectStore} (change : Change (includesReplaced entry) s t)
    {bytes : Bytes} (served : s.bytes .timestamp = some bytes) :
    ∃ bytes', t.bytes .timestamp = some bytes' ∧ Succeeds entry t bytes bytes' := by
  rcases change.at .timestamp with same | ⟨write, here, proper, admitted, landed⟩
  · exact ⟨bytes, same.trans served, .inl rfl⟩
  · rw [Proper, here] at proper
    obtain ⟨⟨previous, mode, -⟩, complete, includes⟩ := proper
    rw [ObjectStore.admits_fence mode, here, served] at admitted
    subst admitted
    obtain ⟨old, new, isOld, oldStored, isNew, planned, grows⟩ := includes bytes here mode
    have moved : ReflTransGen (Change (includesReplaced entry)) s t := .single change
    exact ⟨write.bytes, landed, .inr ⟨old, new, isOld, oldStored.of_changes moved, isNew,
      (planned.storedIn complete).of_changes moved, grows⟩⟩

theorem succeeds_of_changes {s t : ObjectStore}
    (moved : ReflTransGen (Change (includesReplaced entry)) s t) {bytes : Bytes}
    (served : s.bytes .timestamp = some bytes) :
    ∃ bytes', t.bytes .timestamp = some bytes' ∧ Succeeds entry t bytes bytes' := by
  induction moved with
  | refl => exact ⟨bytes, served, .inl rfl⟩
  | tail _ change ih =>
    obtain ⟨middle, servedMiddle, first⟩ := ih
    obtain ⟨last, servedLast, second⟩ := change.succeeds servedMiddle
    exact ⟨last, servedLast, (first.of_changes (.single change)).trans second⟩

/-! ## What a publisher knows of its directory -/

/-- The directory carries the entry its checkout listed, and lists it once one of its name was
released. -/
def Includes (entry : TargetEntry) (released : List PublishTarget) (dir : RepositoryDir)
    (store : ObjectStore) : Prop :=
  ∃ old new : Closure, dir.base = some old.timestamp ∧ old.StoredIn store ∧ new.InDir dir ∧
    Carries entry old.targets new.targets ∧
    (entry.name ∈ released.map PublishTarget.name → listedAs entry.name new.targets = [entry])

omit [Crypto] in
theorem includes_of_checkout {closure : Closure} {store : ObjectStore}
    (stored : closure.StoredIn store) (checkedOut : closure.ChecksOutAs dir) :
    Includes entry [] dir store := by
  refine ⟨closure, closure, ?_, stored, closure.inDir_of_checkout stored checkedOut, id, nofun⟩
  obtain ⟨root, rootVersion, versionedRoot, rfl⟩ := checkedOut
  rfl

theorem includes_commitRelease {released : List PublishTarget} {store : ObjectStore}
    {targets : List PublishTarget} {draft : ReleaseDraft} {signed : SignedRelease}
    (includes : Includes entry released dir store)
    (agree : ∀ target ∈ targets, target.name = entry.name → target.entry = entry)
    (drafted : releaseDraft dir targets false = .ok draft) (fits : signed.matchesDraft draft = true)
    : Includes entry (released ++ targets) (commitRelease dir draft targets signed) store := by
  obtain ⟨old, new, base, stored, inDir, carries, releases⟩ := includes
  obtain ⟨_, _, rest⟩ := Except.bind_ok_iff.mp drafted
  obtain ⟨repository, loaded, rest⟩ := Except.bind_ok_iff.mp rest
  have listed := (inDir.loaded loaded).2.2.2.2.2
  -- the draft's targets are the loaded ones with the packages added
  have drafts : draft.targets = targets.foldl addTarget repository.targets := by
    iterate 6 obtain ⟨_, _, rest⟩ := Except.bind_ok_iff.mp rest
    obtain rfl := Except.ok.inj rest
    rfl
  have signs : listedTargets signed.targets = some draft.targets := by
    simp only [SignedRelease.matchesDraft, Bool.and_eq_true, decide_eq_true_eq] at fits
    exact fits.1.1.1.1.2
  have lists : listedAs entry.name signed.targets =
      if entry.name ∈ targets.map PublishTarget.name then [entry]
      else listedAs entry.name new.targets := by
    rw [listedAs, signs, drafts, listedAs, listed]
    exact filter_foldl_addTarget agree
  refine ⟨old, signed.closure draft, (dir.base_writeAll _).trans base,
    stored, SignedRelease.closure_inDir fits dir targets, fun before => ?_, fun named => ?_⟩
  · exact lists.trans (by rw [carries before, ite_self])
  · refine lists.trans ?_
    rw [List.map_append, List.mem_append] at named
    split
    next => rfl
    next absent => exact releases (named.resolve_right absent)

omit [Crypto] in
/-- The plan of a directory uploads its closure, and swaps in its timestamp only. -/
theorem planned_of_inDir {closure : Closure} {plan : PublicationPlan} (inDir : closure.InDir dir)
    (planned : currentPublicationPlan dir = .ok plan) :
    closure.PlannedBy plan ∧ plan.base = dir.base ∧
      ∀ bytes, (.timestamp, bytes) ∈ plan.uploads → bytes = closure.timestamp := by
  obtain ⟨repository, bodies, loaded, shape, clean, base⟩ :=
    uploads_of_currentPublicationPlan planned
  obtain ⟨timestamp, snapshotVersion, snapshot, targetsVersion, targets, -⟩ := inDir.loaded loaded
  refine ⟨⟨inDir.namesSnapshot, ?_, inDir.namesTargets, ?_⟩, base, fun bytes member => ?_⟩
  · simp [shape, snapshotVersion, snapshot]
  · simp [shape, targetsVersion, targets]
  · rw [shape] at member
    rcases List.mem_append.mp member with earlier | last
    · rcases List.mem_append.mp earlier with body | current
      · exact absurd rfl (clean (.timestamp, bytes) body)
      · simp at current
    · have same : bytes = repository.timestamp := by simpa using last
      exact same.trans timestamp

theorem keeps_includes :
    Keeps (fun target => target.name = entry.name → target.entry = entry) capturesCheckout
      (includesReplaced entry) (Includes entry) where
  stable released dir s t moved := by
    rintro ⟨old, new, base, stored, rest⟩
    exact ⟨old, new, base, stored.of_changes moved, rest⟩
  release _ _ _ _ _ _ includes agree drafted fits :=
    includes_commitRelease includes agree drafted fits
  root released dir s version successor := by
    rintro ⟨old, new, base, stored, inDir, rest⟩
    exact ⟨old, new, base, stored, inDir.write_root version successor, rest⟩
  licensed released dir s plan := by
    rintro ⟨old, new, base, stored, inDir, grows, -⟩ planned write t upload captured changed
    intro served here mode
    obtain ⟨plans, sameBase, onlyTimestamp⟩ := planned_of_inDir inDir planned
    obtain ⟨u, since, before, may, seen⟩ := captured
    change write.path = .timestamp at here
    change PutMode.fence write.previous = .update served at mode
    rw [here] at may seen upload
    -- the capture found the checkout's timestamp: its own is not swapped again
    rcases may with checkout | own
    · have isBase : write.previous = some old.timestamp :=
        (seen.symm.trans checkout).trans (sameBase.trans base)
      rw [isBase] at mode
      cases mode
      exact ⟨old, new, rfl, stored.of_changes (since.trans before),
        (onlyTimestamp write.bytes upload).symm, plans, grows⟩
    · exact absurd (seen.symm.trans own) changed

end Succession

/-! ## Every schedule -/

section Schedules

variable [Metadata]

/-- The targets document a client that starts at the served timestamp reads. -/
def ObjectStore.servedTargets (store : ObjectStore) : Option Bytes := do
  let timestamp ← store.bytes .timestamp
  let snapshotVersion ← referencedVersion timestamp .snapshot
  let snapshot ← store.bytes (.versioned snapshotVersion .snapshot)
  let targetsVersion ← referencedVersion snapshot .targets
  store.bytes (.versioned targetsVersion .targets)

/-- What the served generation lists under a name. -/
def ObjectStore.serves (store : ObjectStore) (name : String) : Option (List TargetEntry) :=
  store.servedTargets.map (listedAs name)

theorem Closure.StoredIn.servedTargets {closure : Closure} {store : ObjectStore}
    (stored : closure.StoredIn store) (served : store.bytes .timestamp = some closure.timestamp) :
    store.servedTargets = some closure.targets := by
  simp [ObjectStore.servedTargets, served, stored.namesSnapshot, stored.snapshot,
    stored.namesTargets, stored.targets]

variable [Crypto]

/-- What a publisher delivered is listed from then on. -/
theorem serves_of_delivered {entry : TargetEntry} {released : List PublishTarget}
    {s t : ObjectStore} (delivered : Delivered (includesReplaced entry) (Includes entry) released s)
    (moved : ReflTransGen (Change (includesReplaced entry)) s t)
    (named : entry.name ∈ released.map PublishTarget.name) :
    t.serves entry.name = some [entry] := by
  obtain ⟨dir, plan, repository, ⟨old, new, -, -, inDir, -, releases⟩, planned, loaded, complete,
    u, later, served⟩ := delivered
  obtain ⟨isTimestamp, -⟩ := inDir.loaded loaded
  rw [isTimestamp] at served
  have newStored : new.StoredIn t :=
    ((planned_of_inDir inDir planned).1.storedIn complete).of_changes moved
  obtain ⟨bytes, servedNow, succeeds⟩ := succeeds_of_changes (later.trans moved) served
  rcases succeeds with rfl | ⟨first, last, isFirst, firstStored, rfl, lastStored, carries⟩
  · simp [ObjectStore.serves, newStored.servedTargets servedNow, releases named]
  · obtain rfl := firstStored.unique newStored isFirst
    simp [ObjectStore.serves, lastStored.servedTargets servedNow, carries (releases named)]

variable {ι : Type}

/-- No publisher releases other bytes under the name of this release. -/
def Sole (edits : ι → List Edit) (target : PublishTarget) : Prop :=
  ∀ who, ∀ other ∈ (edits who).flatMap Edit.targets,
    other.name = target.name → other.source = target.source

theorem publishing_kept_includes {edits : ι → List Edit} {target : PublishTarget}
    (sole : Sole edits target) (contents : RepositoryPath → Option Bytes) :
    (publishing edits contents).Kept serve capturesCheckout (Sound (includesReplaced target.entry))
      (Change (includesReplaced target.entry))
      (fun who _ t => Delivered (includesReplaced target.entry) (Includes target.entry)
        ((edits who).flatMap Edit.targets) t)
      (fun _ _ _ => True) (.holding contents) where
  inv := nofun
  moved := .refl
  pool who := by
    refine behaves_publisher keeps_includes
      (behaves_checkoutMetadata.imp ?_ fun _ _ _ _ => trivial) fun other member named => ?_
    · rintro checkout t - ⟨closure, stored, checkedOut⟩
      exact includes_of_checkout stored checkedOut
    · rw [PublishTarget.entry, sole who other member named, named]
      rfl

variable [DecidableEq ι]

/-- **No published release is lost** in a run in which nobody releases other bytes under its name
and every publication captures the timestamp it was checked out with, or its own: over every such
schedule, a release whose publisher reported success is what every generation served afterwards
lists under its name, with the digest and the length of its bytes. -/
theorem published_release_stays_listed (edits : ι → List Edit)
    (contents : RepositoryPath → Option Bytes) (before after : List (Turn ι Choice Nat))
    (fenced : (publishing edits contents).Meets serve landLate capturesCheckout (fun _ _ => True)
      (before ++ after)) (who : ι)
    (published : (((publishing edits contents).play serve landLate before).pool who).returned =
      some ()) {target : PublishTarget} (released : target ∈ (edits who).flatMap Edit.targets)
    (sole : Sole edits target) :
    ((publishing edits contents).play serve landLate (before ++ after)).state.serves target.name =
      some [target.entry] := by
  obtain ⟨fencedBefore, fencedAfter⟩ := Config.meets_append.mp fenced
  have kept := kept_play includesReplaced_stays (publishing_kept_includes sole contents)
    fencedBefore
  have later := kept_play includesReplaced_stays kept.restart fencedAfter
  rw [Config.play_append]
  exact serves_of_delivered ((kept.pool who).of_returned published) later.moved
    (List.mem_map_of_mem released)

end Schedules

end Updatedc.Tuf

namespace Updatedc.Tuf.Sample.Bucket

open Contracts Program

/-- Two publishers with a package each. -/
def twoReleases : Bool → List Edit
  | false => [.release [package 1]]
  | true => [.release [package 2]]

/-- The signer answers with the documents of this version that list these packages. -/
def sign (who : Bool) (version : UInt8) (packages : List UInt8) : Turn Bool Choice Nat :=
  .call who (.signRelease ⟨3 :: version :: packages, [2, version, version], [1, version, version]⟩)

def firstRelease : List (Turn Bool Choice Nat) :=
    calls false 9 ++ [sign false 6 [1]] ++ calls false 20

def secondRelease : List (Turn Bool Choice Nat) :=
  calls true 9 ++ [sign true 7 [1, 2]] ++ calls true 20

theorem published_release_stays_listed_twice :
    ((publishing twoReleases contents).play serve landLate
      (firstRelease ++ secondRelease)).state.serves (package 1).name = some [(package 1).entry] :=
  published_release_stays_listed twoReleases contents firstRelease secondRelease
    (by decide) false (by decide) (List.mem_singleton_self _) (by unfold Sole; decide)

/-- The second publisher has uploaded everything but its timestamp. The first one runs into its
targets document, signs version 7 instead, finds generation 5 still served, and only then does the
second one commit version 6 and report success. -/
def untilCommitted : List (Turn Bool Choice Nat) :=
  calls false 9 ++ calls true 9 ++ [sign true 6 [2]] ++ calls true 11 ++
    [sign false 6 [1]] ++ calls false 11 ++ [sign false 7 [1]] ++ calls false 2 ++ calls true 1

/-- The first publisher captures version 6, which it never checked out, and replaces it. -/
theorem published_release_lost :
    let first := (publishing twoReleases contents).play serve landLate untilCommitted
    let last := (publishing twoReleases contents).play serve landLate
      (untilCommitted ++ calls false 20)
    (first.pool true).returned = some () ∧
      first.state.serves (package 2).name = some [(package 2).entry] ∧
      (last.pool false).returned = some () ∧ last.state.serves (package 2).name = some [] := by
  decide

/-- Two publishers that release other bytes under one name. -/
def sameName : Bool → List Edit
  | false => [.release [package 3]]
  | true => [.release [package 2]]

/-- One after the other, each captures the timestamp it checked out, and the first one's release is
no longer listed. -/
example : ((publishing sameName contents).play serve landLate
    (calls false 9 ++ [sign false 6 [3]] ++ calls false 20 ++
      calls true 9 ++ [sign true 7 [2]] ++ calls true 20)).state.serves (package 3).name =
      some [(package 2).entry] := by
  decide +kernel

end Updatedc.Tuf.Sample.Bucket
