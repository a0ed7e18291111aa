import Updatedc.Tuf.Chain
import Updatedc.Tuf.Checkouts

/-!
# Root documents of one publisher

A ceremony writes the successor under its version and then under `root.json`. A publication uploads
**every** versioned root the directory holds, and a versioned object is created once and never
replaced. If a ceremony got no further than its first write, the next publication uploads a
successor that `root.json` does not name, and the next ceremony signs the same version again.

`Action` is one thing the publisher does, stopped anywhere: a ceremony or a release signing by how
many of its files were written, a publication by the turns it got.
-/

namespace Updatedc.Tuf

open Contracts Program Relation

/-- A publisher: its directory and the store it publishes to. -/
structure Publisher where
  dir : RepositoryDir
  store : ObjectStore

/-- One thing a publisher does, as far as it got. -/
inductive Action where
  | ceremony (successor : Bytes) (written : Nat)
  | release (targets : List PublishTarget) (replaceTargets : Bool) (signed : SignedRelease)
      (written : Nat)
  | publish (turns : List (Turn Unit Choice Nat))
  | late (position : Nat)

/-- The error a program has failed with. -/
def failed {ε α : Type} : Program Answer ε α → Option ε
  | .throw error => some error
  | _ => none

/-- The two files a ceremony writes: the successor under its version, then the anchor. -/
def ceremonyFiles (version : Nat) (successor : Bytes) : List (RepositoryPath × Bytes) :=
  [(.versioned version .root, successor), (.root, successor)]

/-- A versioned root is in the store, or on its way there. -/
def ObjectStore.Offers (store : ObjectStore) (version : Nat) (bytes : Bytes) : Prop :=
  store.bytes (.versioned version .root) = some bytes ∨
    ∃ write ∈ store.inFlight, write.path = .versioned version .root ∧ write.bytes = bytes

/-- Whether some document has been uploaded under this version of the root. -/
def ObjectStore.offered (store : ObjectStore) (version : Nat) : Bool :=
  (store.bytes (.versioned version .root)).isSome ||
    store.inFlight.any (·.path = .versioned version .root)

variable (dir : RepositoryDir)

section Model

variable [Metadata]

/-- The version of the directory's `root.json`. -/
def RepositoryDir.rootVersion : Option Nat :=
  (dir.file .root).bind signedVersion

/-- Renew or rotate the root: the signer answers with the next version. -/
def RepositoryDir.republish (successor : Bytes) (written : Nat) : RepositoryDir :=
  match dir.rootVersion with
  | none => dir
  | some version =>
    match nextVersion version "root" with
    | .error _ => dir
    | .ok next =>
      if signedVersion successor = some next then
        dir.writeAll ((ceremonyFiles next successor).take written)
      else
        dir

variable [Crypto]

/-- Sign a generation: the signer answers with the documents of the draft. -/
def RepositoryDir.signRelease (targets : List PublishTarget) (replaceTargets : Bool)
    (signed : SignedRelease) (written : Nat) : RepositoryDir :=
  match releaseDraft dir targets replaceTargets with
  | .error _ => dir
  | .ok draft =>
    if signed.matchesDraft draft then
      dir.writeAll ((releaseFiles dir draft targets signed).take written)
    else
      dir

namespace Publisher

/-- A publication of the directory, after these turns. -/
def publication (publisher : Publisher) (turns : List (Turn Unit Choice Nat)) :
    Config ObjectStore Answer StorageError Unit Unit :=
  (⟨publisher.store, fun _ => publishRepository publisher.dir⟩ :
    Config ObjectStore Answer StorageError Unit Unit).play serve landLate turns

def act (publisher : Publisher) : Action → Publisher
  | .ceremony successor written =>
    { publisher with dir := publisher.dir.republish successor written }
  | .release targets replaceTargets signed written =>
    { publisher with dir := publisher.dir.signRelease targets replaceTargets signed written }
  | .publish turns => { publisher with store := (publisher.publication turns).state }
  | .late position =>
    { publisher with store := (landLate position publisher.store).getD publisher.store }

def run (publisher : Publisher) (actions : List Action) : Publisher := actions.foldl act publisher

/-- A ceremony is ready to start when nothing has been uploaded under the version it will sign. -/
def ready (publisher : Publisher) : Action → Bool
  | .ceremony _ _ =>
    (publisher.dir.rootVersion.bind fun version =>
      (nextVersion version "root").toOption).all fun next => !publisher.store.offered next
  | _ => true

/-- Every ceremony of a run is ready when it starts. -/
def allReady (publisher : Publisher) : List Action → Bool
  | [] => true
  | action :: rest => publisher.ready action && (publisher.act action).allReady rest

end Publisher

end Model

/-! ## What has been uploaded -/

theorem ObjectStore.Offers.offered {store : ObjectStore} {version : Nat} {bytes : Bytes}
    (offers : store.Offers version bytes) : store.offered version = true := by
  rcases offers with stored | ⟨write, member, here, -⟩
  · simp [ObjectStore.offered, stored]
  · simp only [ObjectStore.offered, Bool.or_eq_true, List.any_eq_true, decide_eq_true_eq]
    exact .inr ⟨write, member, here⟩

/-- Every uploaded root is the one the directory holds under that version. -/
def Agrees (store : ObjectStore) : Prop :=
  ∀ version bytes, store.Offers version bytes → dir.file (.versioned version .root) = some bytes

/-- A publisher whose directory holds each file once, whose `root.json` is the versioned root it
names, and whose versioned roots are the ones it has uploaded. -/
structure Publisher.Consistent [Metadata] (publisher : Publisher) : Prop where
  distinct : (publisher.dir.files.map Prod.fst).Nodup
  copied : ∀ root version, publisher.dir.file .root = some root →
    signedVersion root = some version →
      publisher.dir.file (.versioned version .root) = some root
  agrees : Agrees publisher.dir publisher.store

theorem RepositoryDir.file_of_mem {dir : RepositoryDir} (distinct : (dir.files.map Prod.fst).Nodup)
    {path : RepositoryPath} {bytes : Bytes} (member : (path, bytes) ∈ dir.files) :
    dir.file path = some bytes := by
  unfold file
  generalize dir.files = files at distinct member
  induction files with
  | nil => cases member
  | cons entry rest ih =>
    obtain ⟨key, value⟩ := entry
    obtain ⟨fresh, distinct⟩ := List.nodup_cons.mp distinct
    rw [lookup_cons_ite]
    rcases List.mem_cons.mp member with same | later
    · cases same
      exact if_pos rfl
    · rw [if_neg, ih distinct later]
      rintro rfl
      exact fresh (List.mem_map.mpr ⟨_, later, rfl⟩)

theorem RepositoryDir.distinct_write {dir : RepositoryDir}
    (distinct : (dir.files.map Prod.fst).Nodup) (path : RepositoryPath) (bytes : Bytes) :
    ((dir.write path bytes).files.map Prod.fst).Nodup := by
  unfold write
  rw [List.map_append, List.map_cons, List.map_nil, List.nodup_append]
  refine ⟨distinct.sublist (List.filter_sublist.map _), List.nodup_singleton _, ?_⟩
  rintro key member other last rfl
  obtain ⟨⟨key', value⟩, kept, rfl⟩ := List.mem_map.mp member
  have differs := (List.mem_filter.mp kept).2
  simp only [List.mem_cons, List.not_mem_nil, or_false] at last
  simp [last] at differs

theorem RepositoryDir.distinct_writeAll {dir : RepositoryDir}
    (distinct : (dir.files.map Prod.fst).Nodup) (files : List (RepositoryPath × Bytes)) :
    ((dir.writeAll files).files.map Prod.fst).Nodup := by
  induction files generalizing dir with
  | nil => exact distinct
  | cons file rest ih => exact ih (dir.distinct_write distinct file.1 file.2)

/-! ## Publications -/

section Publications

variable {dir : RepositoryDir}

/-- What a publication of the directory does to the store: it uploads the directory's own roots,
and takes none back. -/
structure Uploads (dir : RepositoryDir) (s t : ObjectStore) : Prop where
  before : Agrees dir s
  agrees : Agrees dir t
  kept : ∀ version, s.offered version = true → t.offered version = true

variable {s : ObjectStore}

theorem agrees_of_steps {t : ObjectStore} (agrees : Agrees dir s)
    (moved : ReflTransGen (Uploads dir) s t) : Agrees dir t := by
  cases moved with
  | refl => exact agrees
  | tail _ last => exact last.agrees

theorem agrees_of_later {t : ObjectStore} (moved : ReflTransGen (Uploads dir) s t)
    (agrees : Agrees dir t) : Agrees dir s := by
  cases moved.cases_head with
  | inl same => exact same ▸ agrees
  | inr first =>
    obtain ⟨_, uploads, -⟩ := first
    exact uploads.before

theorem offered_of_steps {t : ObjectStore} (moved : ReflTransGen (Uploads dir) s t) {version : Nat}
    (offered : s.offered version = true) : t.offered version = true := by
  induction moved with
  | refl => exact offered
  | tail _ last ih => exact last.kept version ih

theorem offered_iff {version : Nat} :
    s.offered version = true ↔ ∃ bytes, s.Offers version bytes := by
  refine ⟨fun offered => ?_, fun ⟨_, offers⟩ => offers.offered⟩
  simp only [ObjectStore.offered, Bool.or_eq_true, Option.isSome_iff_exists, List.any_eq_true,
    decide_eq_true_eq] at offered
  rcases offered with ⟨bytes, stored⟩ | ⟨write, member, here⟩
  · exact ⟨bytes, .inl stored⟩
  · exact ⟨write.bytes, .inr ⟨write, member, here, rfl⟩⟩

theorem agrees_land (agrees : Agrees dir s) {write : Write}
    (own : ∀ version, write.path = .versioned version .root →
      dir.file write.path = some write.bytes)
    {inFlight : List Write} (fewer : ∀ other ∈ inFlight, other ∈ s.inFlight) :
    Agrees dir { s.land write with inFlight } := by
  rintro version bytes (stored | ⟨other, member, rest⟩)
  · have landed : (s.land write).bytes (.versioned version .root) = some bytes := stored
    rw [ObjectStore.bytes_land] at landed
    split_ifs at landed with here
    · rw [here, own version here.symm, landed]
    · exact agrees version bytes (.inl landed)
  · exact agrees version bytes (.inr ⟨other, fewer other member, rest⟩)

theorem agrees_send (agrees : Agrees dir s) {write : Write}
    (own : ∀ version, write.path = .versioned version .root →
      dir.file write.path = some write.bytes) : Agrees dir (s.send write) := by
  rintro version bytes (stored | ⟨other, member, here, rfl⟩)
  · exact agrees version bytes (.inl stored)
  · rcases List.mem_cons.mp member with rfl | older
    · rw [← here, own version here]
    · exact agrees version other.bytes (.inr ⟨other, older, here, rfl⟩)

/-- Landing a write takes nothing back, if every other write in flight stays there. -/
theorem offered_land {write : Write} {inFlight : List Write}
    (rest : ∀ other ∈ s.inFlight, other = write ∨ other ∈ inFlight) {version : Nat}
    (offered : s.offered version = true) :
    ({ s.land write with inFlight } : ObjectStore).offered version = true := by
  obtain ⟨bytes, offers⟩ := offered_iff.mp offered
  have landed (here : write.path = .versioned version .root) :
      ({ s.land write with inFlight } : ObjectStore).offered version = true := by
    refine offered_iff.mpr ⟨write.bytes, .inl ?_⟩
    change (s.land write).bytes _ = _
    rw [ObjectStore.bytes_land, if_pos here.symm]
  rcases offers with stored | ⟨other, member, here, rfl⟩
  · by_cases here : write.path = .versioned version .root
    · exact landed here
    · refine offered_iff.mpr ⟨bytes, .inl ?_⟩
      change (s.land write).bytes _ = _
      rw [ObjectStore.bytes_land, if_neg (Ne.symm here), stored]
  · rcases rest other member with rfl | stays
    · exact landed here
    · exact offered_iff.mpr ⟨other.bytes, .inr ⟨other, stays, here, rfl⟩⟩

theorem offered_send {write : Write} {version : Nat} (offered : s.offered version = true) :
    (s.send write).offered version = true := by
  obtain ⟨bytes, stored | ⟨other, member, here, rfl⟩⟩ := offered_iff.mp offered
  · exact offered_iff.mpr ⟨bytes, .inl stored⟩
  · exact offered_iff.mpr ⟨other.bytes, .inr ⟨other, List.mem_cons_of_mem _ member, here, rfl⟩⟩

theorem uploads_landLate {t : ObjectStore} {position : Nat} (agrees : Agrees dir s)
    (late : landLate position s = some t) : Uploads dir s t := by
  unfold landLate at late
  cases found : s.inFlight[position]? with
  | none => simp [found] at late
  | some write =>
    simp only [found] at late
    split_ifs at late with admitted
    obtain rfl := Option.some.inj late
    refine ⟨agrees, agrees_land agrees (fun version here => ?_) fun _ => List.mem_of_mem_eraseIdx,
      fun version => offered_land fun other member => ?_⟩
    · rw [here]
      exact agrees version write.bytes (.inr ⟨write, List.mem_of_getElem? found, here, rfl⟩)
    · obtain ⟨i, there⟩ := List.getElem?_of_mem member
      by_cases same : i = position
      · subst same
        exact .inl (Option.some.inj (there.symm.trans found))
      · exact .inr (List.mem_eraseIdx_iff_getElem?.mpr ⟨i, same, there⟩)

/-- Writing no root, or one of the directory's own, uploads the directory's roots. -/
theorem puts_uploads (agrees : Agrees dir s) {write : Write}
    (own : ∀ version, write.path = .versioned version .root →
      dir.file write.path = some write.bytes) : Puts (Uploads dir) s write := fun _ moved =>
  have here := agrees_of_steps agrees moved
  ⟨fun _ => ⟨here, agrees_land here own fun _ member => member,
      fun _ => offered_land fun _ member => .inr member⟩,
    here, agrees_send here own, fun _ => offered_send⟩

variable [Metadata] [Crypto]

omit [Crypto] in
/-- The versioned roots among a plan's uploads are files of the directory. -/
theorem roots_of_currentPublicationPlan {plan : PublicationPlan}
    (distinct : (dir.files.map Prod.fst).Nodup) (ok : currentPublicationPlan dir = .ok plan)
    {file : RepositoryPath × Bytes} (member : file ∈ plan.uploads) {version : Nat}
    (isRoot : file.1 = .versioned version .root) : dir.file file.1 = some file.2 := by
  obtain ⟨repository, loaded, rest⟩ := Except.bind_ok_iff.mp ok
  obtain ⟨_, _, rest⟩ := Except.bind_ok_iff.mp rest
  dsimp only at rest
  split at rest
  · cases rest
  · obtain rfl := Except.ok.inj rest
    obtain ⟨path, bytes⟩ := file
    change path = _ at isRoot
    subst isRoot
    simp only [List.mem_append, List.mem_filterMap, List.mem_filter, List.mem_cons,
      List.not_mem_nil, or_false] at member
    rcases member with (⟨entry, -, found⟩ | ⟨held, -⟩) | current
    · obtain ⟨_, -, same⟩ := Option.map_eq_some_iff.mp found
      cases same
    · exact dir.file_of_mem distinct held
    · rcases current with same | same | same <;> cases same

/-- A publication uploads the directory's own roots, and does not fail on one. -/
theorem walks_uploads (distinct : (dir.files.map Prod.fst).Nodup) (agrees : Agrees dir s) :
    Walks anyCapture (Uploads dir) (fun error _ => NoConflict error) (fun _ _ => True)
      (publishRepository dir) s := by
  refine (walks_publishRepository fun plan ok => ?_).imp (fun _ _ _ _ => trivial) ?_
  · refine ⟨fun file member _ _ _ => puts_uploads agrees fun version =>
      roots_of_currentPublicationPlan distinct ok member, fun write _ _ captured _ which => ?_⟩
    obtain ⟨u, before, after, -⟩ := captured
    refine puts_uploads (agrees_of_steps agrees (before.trans after)) fun version here => ?_
    rcases which with isRoot | ⟨isTimestamp, -⟩
    · cases isRoot.symm.trans here
    · cases isTimestamp.symm.trans here
  · rintro error t moved
      (other | ⟨version, file, stored, ⟨plan, ok, member⟩, ⟨u, later, found⟩, differs⟩)
    · exact other
    · -- what is served is what the directory holds
      have served := agrees_of_later later (agrees_of_steps agrees moved) version
        stored (.inl found)
      have held := roots_of_currentPublicationPlan distinct ok member rfl
      exact absurd (Option.some.inj (served.symm.trans held)) differs

end Publications

/-! ## Runs -/

section Runs

variable [Metadata]

/-- A step or a run of a publisher: it stays consistent, and no uploaded root is signed again. -/
structure Publisher.Extends (before after : Publisher) : Prop where
  consistent : after.Consistent
  kept : ∀ version bytes, before.store.offered version = true →
    before.dir.file (.versioned version .root) = some bytes →
      after.store.offered version = true ∧
        after.dir.file (.versioned version .root) = some bytes

variable {publisher : Publisher}

theorem Publisher.Extends.refl (consistent : publisher.Consistent) :
    publisher.Extends publisher := ⟨consistent, fun _ _ offered held => ⟨offered, held⟩⟩

theorem Publisher.Extends.trans {middle after : Publisher} (first : publisher.Extends middle)
    (second : middle.Extends after) : publisher.Extends after :=
  ⟨second.consistent, fun version bytes offered held =>
    have ⟨offered, held⟩ := first.kept version bytes offered held
    second.kept version bytes offered held⟩

omit [Metadata] in
/-- Files that are written as they are change nothing. -/
theorem RepositoryDir.file_writeAll_of_same {dir : RepositoryDir} {path : RepositoryPath}
    {files : List (RepositoryPath × Bytes)}
    (same : ∀ file ∈ files, file.1 = path → dir.file path = some file.2) :
    (dir.writeAll files).file path = dir.file path := by
  induction files generalizing dir with
  | nil => rfl
  | cons file rest ih =>
    have written : (dir.write file.1 file.2).file path = dir.file path := by
      rw [dir.file_write]
      split_ifs with here
      · exact (same file List.mem_cons_self here.symm).symm
      · rfl
    exact (ih fun later member here =>
      written.trans (same later (List.mem_cons_of_mem _ member) here)).trans written

/-- Where a directory's roots are as before, everything else may change. -/
theorem Publisher.extends_of_sameRoots {dir : RepositoryDir} (consistent : publisher.Consistent)
    (distinct : (dir.files.map Prod.fst).Nodup) (anchor : dir.file .root = publisher.dir.file .root)
    (versioned : ∀ version, dir.file (.versioned version .root) =
      publisher.dir.file (.versioned version .root)) :
    publisher.Extends { publisher with dir } where
  consistent :=
    { distinct
      copied := fun root version served signed => by
        rw [versioned]
        exact consistent.copied root version (anchor ▸ served) signed
      agrees := fun version bytes offers => (versioned version).trans
        (consistent.agrees version bytes offers) }
  kept := fun version _ offered held => ⟨offered, (versioned version).trans held⟩

/-- How a ceremony leaves the directory. -/
theorem RepositoryDir.republish_cases (successor : Bytes) (written : Nat) :
    dir.republish successor written = dir ∨
      ∃ version next, dir.rootVersion = some version ∧ nextVersion version "root" = .ok next ∧
        signedVersion successor = some next ∧
          (dir.republish successor written = dir.write (.versioned next .root) successor ∨
            dir.republish successor written =
              (dir.write (.versioned next .root) successor).write .root successor) := by
  unfold republish
  cases current : dir.rootVersion with
  | none => exact .inl rfl
  | some version =>
    dsimp only
    cases bumped : nextVersion version "root" with
    | error _ => exact .inl rfl
    | ok next =>
      dsimp only
      split_ifs with signed
      · match written with
        | 0 => exact .inl rfl
        | 1 => exact .inr ⟨version, next, rfl, bumped, signed, .inl rfl⟩
        | _ + 2 =>
          refine .inr ⟨version, next, rfl, bumped, signed, .inr ?_⟩
          simp [ceremonyFiles, writeAll]
      · exact .inl rfl

theorem Publisher.extends_ceremony (consistent : publisher.Consistent) {successor : Bytes}
    {written : Nat} (ready : publisher.ready (.ceremony successor written) = true) :
    publisher.Extends { publisher with dir := publisher.dir.republish successor written } := by
  rcases publisher.dir.republish_cases successor written with
    same | ⟨version, next, current, bumped, signed, result⟩
  · rw [same]
    exact .refl consistent
  have unused : publisher.store.offered next = false := by
    have toOption : (nextVersion version "root").toOption = some next := by rw [bumped]; rfl
    simpa [Publisher.ready, current, toOption] using ready
  have other {other : Nat} (offered : publisher.store.offered other = true) : other ≠ next := by
    rintro rfl
    exact absurd (unused.symm.trans offered) (by decide)
  -- only the new version and the anchor are written
  have versioned (other : Nat) : (publisher.dir.republish successor written).file
      (.versioned other .root) =
        if other = next then some successor else publisher.dir.file (.versioned other .root) := by
    rcases result with result | result <;>
      simp [result, RepositoryDir.file_write]
  refine ⟨⟨?_, fun root v served isV => ?_, fun v bytes offers => ?_⟩,
    fun v bytes offered held => ?_⟩
  · rcases result with result | result <;> rw [result]
    · exact RepositoryDir.distinct_write consistent.distinct _ _
    · exact RepositoryDir.distinct_write (RepositoryDir.distinct_write consistent.distinct _ _) _ _
  · change (publisher.dir.republish successor written).file _ = _
    change (publisher.dir.republish successor written).file _ = _ at served
    rw [versioned]
    rcases result with result | result
    · -- the anchor still names the version before
      rw [result, RepositoryDir.file_write, if_neg nofun] at served
      have isCurrent : v = version := by
        rw [RepositoryDir.rootVersion, served] at current
        exact Option.some.inj (isV.symm.trans current)
      have bumped := nextVersion_ok bumped
      rw [if_neg (by omega), consistent.copied root v served isV]
    · rw [result, RepositoryDir.file_write, if_pos rfl] at served
      obtain rfl := Option.some.inj served
      rw [if_pos (Option.some.inj (isV.symm.trans signed))]
  · change (publisher.dir.republish successor written).file _ = _
    rw [versioned, if_neg (other offers.offered)]
    exact consistent.agrees v bytes offers
  · refine ⟨offered, ?_⟩
    change (publisher.dir.republish successor written).file _ = _
    rw [versioned, if_neg (other offered), held]

theorem Publisher.extends_late (consistent : publisher.Consistent) (position : Nat) :
    publisher.Extends { publisher with
      store := (landLate position publisher.store).getD publisher.store } := by
  cases late : landLate position publisher.store with
  | none => exact .refl consistent
  | some store =>
    have uploads := uploads_landLate consistent.agrees late
    exact ⟨⟨consistent.distinct, consistent.copied, uploads.agrees⟩,
      fun version _ offered held => ⟨uploads.kept version offered, held⟩⟩

variable [Crypto]

omit [Crypto] in
/-- The copy of the anchor that a generation is signed under is already there. -/
theorem Publisher.Consistent.rootCopy_same (consistent : publisher.Consistent)
    {file : RepositoryPath × Bytes} (member : file ∈ rootCopy publisher.dir) :
    ∃ version, file.1 = .versioned version .root ∧
      publisher.dir.file (.versioned version .root) = some file.2 := by
  unfold rootCopy at member
  cases anchor : publisher.dir.file .root with
  | none => simp [anchor] at member
  | some root =>
    simp only [anchor, List.mem_map, Option.mem_toList] at member
    obtain ⟨version, signed, rfl⟩ := member
    exact ⟨version, rfl, consistent.copied root version anchor signed⟩

/-- The roots among the files of a signed generation are already there. -/
theorem Publisher.Consistent.releaseFiles_same (consistent : publisher.Consistent)
    {draft : ReleaseDraft} {targets : List PublishTarget} {signed : SignedRelease}
    {file : RepositoryPath × Bytes}
    (member : file ∈ releaseFiles publisher.dir draft targets signed)
    (isRoot : file.1 = .root ∨ ∃ version, file.1 = .versioned version .root) :
    publisher.dir.file file.1 = some file.2 := by
  simp only [releaseFiles, List.mem_append, List.mem_map, List.mem_cons, List.not_mem_nil,
    or_false] at member
  rcases member with (⟨target, -, rfl⟩ | copy) | rest
  · rcases isRoot with here | ⟨_, here⟩ <;> cases here
  · obtain ⟨version, here, held⟩ := consistent.rootCopy_same copy
    rw [here, held]
  · rcases rest with rfl | rfl | rfl <;> rcases isRoot with here | ⟨_, here⟩ <;> cases here

/-- Signing a generation leaves the roots as they are. -/
theorem Publisher.extends_release (consistent : publisher.Consistent)
    (targets : List PublishTarget) (replaceTargets : Bool) (signed : SignedRelease)
    (written : Nat) :
    publisher.Extends { publisher with
      dir := publisher.dir.signRelease targets replaceTargets signed written } := by
  unfold RepositoryDir.signRelease
  split
  · exact .refl consistent
  · split_ifs
    · refine extends_of_sameRoots consistent (RepositoryDir.distinct_writeAll consistent.distinct _)
        (RepositoryDir.file_writeAll_of_same fun file member here => ?_)
        fun version => RepositoryDir.file_writeAll_of_same fun file member here => ?_
      · rw [← here]
        exact consistent.releaseFiles_same (List.mem_of_mem_take member) (.inl here)
      · rw [← here]
        exact consistent.releaseFiles_same (List.mem_of_mem_take member) (.inr ⟨version, here⟩)
    · exact .refl consistent

/-- A publication that is stopped anywhere has only uploaded the directory's own roots, and has
not failed on one. -/
theorem Publisher.kept_publication (consistent : publisher.Consistent)
    (turns : List (Turn Unit Choice Nat)) :
    (publisher.publication turns).Kept serve anyCapture (Agrees publisher.dir)
      (Uploads publisher.dir) (fun _ _ _ => True) (fun _ error _ => NoConflict error)
      publisher.store := by
  refine Guarantees.play (fun _ _ moved agrees => agrees_of_steps agrees moved)
    (fun _ _ _ agrees _ late => .single (uploads_landLate agrees late))
    ⟨consistent.agrees, .refl, fun _ => walks_uploads consistent.distinct consistent.agrees⟩
    (Config.meets_of_forall (fun _ _ => trivial) (fun _ _ => trivial) _ turns)

theorem Publisher.extends_publish (consistent : publisher.Consistent)
    (turns : List (Turn Unit Choice Nat)) :
    publisher.Extends { publisher with store := (publisher.publication turns).state } :=
  have kept := kept_publication consistent turns
  ⟨⟨consistent.distinct, consistent.copied, kept.inv⟩,
    fun _ _ offered held => ⟨offered_of_steps kept.moved offered, held⟩⟩

theorem Publisher.extends_act (consistent : publisher.Consistent) {action : Action}
    (ready : publisher.ready action = true) : publisher.Extends (publisher.act action) := by
  cases action with
  | ceremony successor written => exact extends_ceremony consistent ready
  | release targets replaceTargets signed written =>
    exact extends_release consistent targets replaceTargets signed written
  | publish turns => exact extends_publish consistent turns
  | late position => exact extends_late consistent position

theorem Publisher.extends_run (consistent : publisher.Consistent) {actions : List Action}
    (ready : publisher.allReady actions = true) : publisher.Extends (publisher.run actions) := by
  induction actions generalizing publisher with
  | nil => exact .refl consistent
  | cons action rest ih =>
    obtain ⟨now, later⟩ := Bool.and_eq_true_iff.mp ready
    have first := extends_act consistent now
    exact first.trans (ih first.consistent later)

theorem Publisher.run_append (publisher : Publisher) (before after : List Action) :
    publisher.run (before ++ after) = (publisher.run before).run after := List.foldl_append

theorem Publisher.allReady_append {before after : List Action} :
    publisher.allReady (before ++ after) = true ↔
      publisher.allReady before = true ∧ (publisher.run before).allReady after = true := by
  induction before generalizing publisher with
  | nil => exact ⟨fun h => ⟨rfl, h⟩, fun h => h.2⟩
  | cons action rest ih =>
    simp only [List.cons_append, allReady, Bool.and_eq_true, ih, and_assoc]
    rfl

/-- **An uploaded root is never signed again**, in a run in which every ceremony starts with
nothing uploaded under the version it signs: whatever was uploaded before is what the directory
holds after, with ceremonies, signings and publications stopped anywhere and writes that land late,
and no publication fails on a root conflict. -/
theorem uploaded_root_never_resigned (publisher : Publisher) (consistent : publisher.Consistent)
    (before after : List Action) (ready : publisher.allReady (before ++ after) = true) :
    (∀ version bytes, (publisher.run before).store.Offers version bytes →
      (publisher.run (before ++ after)).dir.file (.versioned version .root) = some bytes) ∧
    ∀ turns error version,
      failed (((publisher.run (before ++ after)).publication turns).pool ()) = some error →
        error ≠ rootConflict version := by
  obtain ⟨readyBefore, readyAfter⟩ := Publisher.allReady_append.mp ready
  have first := Publisher.extends_run consistent readyBefore
  have second := Publisher.extends_run first.consistent readyAfter
  rw [Publisher.run_append]
  refine ⟨fun version bytes offers => ?_, fun turns error version failure => ?_⟩
  · exact (second.kept version bytes offers.offered
      (first.consistent.agrees version bytes offers)).2
  · have judged := (Publisher.kept_publication second.consistent turns).pool ()
    cases current : (((publisher.run before).run after).publication turns).pool () with
    | pure _ => simp [current, failed] at failure
    | call _ _ => simp [current, failed] at failure
    | throw thrown =>
      rw [current] at judged failure
      obtain rfl := Option.some.inj failure
      exact judged _ .refl version

end Runs

end Updatedc.Tuf

namespace Updatedc.Tuf.Sample.Bucket

open Contracts Program

/-- A publisher with generation 5 under root 1, in its directory and in its store. -/
def current : Publisher where
  dir := ⟨[(.root, [0, 1]), (.versioned 1 .root, [0, 1]), (.timestamp, [1, 5, 5]),
    (.versioned 5 .snapshot, [2, 5, 5]), (.versioned 5 .targets, [3, 5])], none⟩
  store := .holding contents

def published : Action := .publish (List.replicate 20 (.call () .answer))

theorem current_consistent : current.Consistent where
  distinct := by decide
  copied := by
    intro root version served signed
    obtain rfl : root = [0, 1] := (Option.some.inj served).symm
    obtain rfl : version = 1 := (Option.some.inj signed).symm
    rfl
  agrees := by
    rintro version bytes (stored | ⟨write, member, -⟩)
    · by_cases first : version = 1
      · subst first
        exact stored
      · simp [current, ObjectStore.bytes, ObjectStore.holding, contents, first] at stored
    · cases member

theorem uploaded_root_never_resigned_renewal :
    failed (((current.run ([.ceremony [0, 2, 9] 2, published] ++ [published])).publication
      (List.replicate 20 (.call () .answer))).pool ()) ≠ some (rootConflict 2) := fun failure =>
  (uploaded_root_never_resigned current current_consistent [.ceremony [0, 2, 9] 2, published]
    [published] (by decide)).2 _ _ 2 failure rfl

/-- A renewal that fails between its two writes: the next publication uploads root 2, the renewal
that follows signs root 2 again, and from then on every publication fails on it. -/
theorem renewal_wedges_publication :
    let wedged := current.run [.ceremony [0, 2, 9] 1, published, .ceremony [0, 2, 8] 2]
    wedged.store.Offers 2 [0, 2, 9] ∧ wedged.dir.file (.versioned 2 .root) = some [0, 2, 8] ∧
      failed ((wedged.publication (List.replicate 20 (.call () .answer))).pool ()) =
        some (rootConflict 2) := by
  refine ⟨.inl ?_, ?_, ?_⟩ <;> decide

end Updatedc.Tuf.Sample.Bucket
