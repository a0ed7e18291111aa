import Updatedc.Tuf.Generations

/-!
# One publisher among many

`publishRepository` judged alone, whatever others do in between. Its walk is taken once, for any
account of what may happen to the store (`step`): given that its writes are such steps, it says
what was found and stored at which moment, and that a root conflict is reported only where another
root was found. For changes, the writes are proper: when a publication succeeds, its whole plan is
in the store and its timestamp has been served. Nothing is assumed of the directory it mirrors.
-/

namespace Updatedc.Tuf

open Contracts Program Relation

/-- The text of an immutable root conflict. -/
def rootConflict (version : Nat) : StorageError :=
  .operation (s!"immutable metadata {(RepositoryPath.versioned version .root).display} already " ++
    "exists with different bytes")

def NoConflict (error : StorageError) : Prop := ∀ version, error ≠ rootConflict version

/-- An error text that does not begin like a conflict is not one. -/
theorem noConflict_operation {message : String}
    (other : ¬ "immutable metadata ".toList <+: message.toList) :
    NoConflict (.operation message) := by
  intro version same
  refine other ?_
  rw [StorageError.operation.inj same]
  simp [toString]

variable {t : ObjectStore} {dir : RepositoryDir}

section Calls

variable {step : ObjectStore → ObjectStore → Prop} {ε α β : Type} {s : ObjectStore}

/-- The content was stored there at some moment up to now. -/
def Found (step : ObjectStore → ObjectStore → Prop) (path : RepositoryPath) (stored : Bytes)
    (t : ObjectStore) : Prop :=
  ∃ u, ReflTransGen step u t ∧ u.bytes path = some stored

theorem Found.later {path : RepositoryPath} {stored : Bytes} {t' : ObjectStore}
    (found : Found step path stored t) (moved : ReflTransGen step t t') :
    Found step path stored t' := by
  obtain ⟨u, before, there⟩ := found
  exact ⟨u, before.trans moved, there⟩

/-- A root conflict is reported only where another root was found than the one to upload. -/
def Honest (step : ObjectStore → ObjectStore → Prop) (uploads : Set (RepositoryPath × Bytes))
    (error : StorageError) (t : ObjectStore) : Prop :=
  NoConflict error ∨ ∃ version file stored, (.versioned version .root, file) ∈ uploads ∧
    Found step (.versioned version .root) stored t ∧ stored ≠ file

/-- From here on the write is a step, whether it is applied or left in flight. -/
def Puts (step : ObjectStore → ObjectStore → Prop) (s : ObjectStore) (write : Write) : Prop :=
  ∀ t, ReflTransGen step s t →
    (t.admits write = true → step t (t.land write)) ∧ step t (t.send write)

theorem Puts.later {write : Write} (puts : Puts step s write) (moved : ReflTransGen step s t) :
    Puts step t write :=
  fun u later => puts u (moved.trans later)

variable {allowed : ObjectStore → Request → Prop} {plan : PublicationPlan}

/-- What a publication captured: the object served at some moment that allowed the capture. -/
def Captured (allowed : ObjectStore → Request → Prop) (step : ObjectStore → ObjectStore → Prop)
    (plan : PublicationPlan) (start : ObjectStore) (write : ConditionalPublicationFile)
    (t : ObjectStore) : Prop :=
  ∃ u, ReflTransGen step start u ∧ ReflTransGen step u t ∧
    allowed u (.capture write.path write.bytes plan) ∧ u.bytes write.path = write.previous

theorem Captured.later {start t' : ObjectStore} {write : ConditionalPublicationFile}
    (captured : Captured allowed step plan start write t) (moved : ReflTransGen step t t') :
    Captured allowed step plan start write t' := by
  obtain ⟨u, before, after, may, served⟩ := captured
  exact ⟨u, before, after.trans moved, may, served⟩

theorem Captured.mono {start start' : ObjectStore} {write : ConditionalPublicationFile}
    (captured : Captured allowed step plan start' write t) (moved : ReflTransGen step start start')
    : Captured allowed step plan start write t := by
  obtain ⟨u, before, rest⟩ := captured
  exact ⟨u, moved.trans before, rest⟩

variable [Metadata] {fail : ε → ObjectStore → Prop}

/-- A publisher's program among others: its writes are steps, `post` holds when it succeeds and
`fail` when it fails. -/
abbrev Walks {ε α : Type} (allowed : ObjectStore → Request → Prop)
    (step : ObjectStore → ObjectStore → Prop) (fail : ε → ObjectStore → Prop)
    (post : α → ObjectStore → Prop) (p : Program Answer ε α) (s : ObjectStore) : Prop :=
  p.Guarantees (served serve allowed) step post fail s

theorem walks_bind {p : Program Answer ε α} {f : α → Program Answer ε β}
    {middle : α → ObjectStore → Prop} {post : β → ObjectStore → Prop}
    (first : Walks allowed step fail middle p s)
    (rest : ∀ a t, ReflTransGen step s t → middle a t → Walks allowed step fail post (f a) t) :
    Walks allowed step fail post (p >>= f) s :=
  guarantees_bind (first.imp rest fun _ _ _ failed => failed)

/-- A computed result: a success is the result itself. -/
theorem walks_ofExcept {result : Except ε α} (fails : Except.FailsOnly (∀ t, fail · t) result) :
    Walks allowed step fail (fun a _ => result = .ok a) (Program.ofExcept result) s := by
  refine guarantees_ofExcept fun t _ => ?_
  cases result with
  | ok a => rfl
  | error error => exact fails error rfl t

/-- A failure taken as a result: only a success says anything. -/
theorem walks_attempt {ε' : Type} {fail' : ε' → ObjectStore → Prop} {p : Program Answer ε α}
    {post : α → ObjectStore → Prop} (h : Walks allowed step fail post p s) :
    Walks allowed step fail' (fun result t => ∀ a, result = .ok a → post a t)
      (p.attempt : Program Answer ε' (Except ε α)) s := by
  refine guarantees_attempt (h.imp (fun a t _ holds b same => ?_) fun _ _ _ _ _ => nofun)
  cases same
  exact holds

/-- What a read answers was there at some moment. -/
theorem walks_get {path : RepositoryPath} :
    Walks allowed step fail
      (fun answer t => ∀ stored, answer = .found stored → Found step path stored t)
      (getObject path : Program Answer ε GetAnswer) s := by
  refine guarantees_request fun t _ t' answer ⟨_, choice, served⟩ => ?_
  obtain ⟨rfl, read | ⟨error, failed⟩⟩ := serve_get served
  · exact ⟨.refl, fun u later stored found => ⟨t', later, read_eq_found (read.symm.trans found)⟩⟩
  · exact ⟨.refl, fun u _ stored found => nomatch failed.symm.trans found⟩

theorem walks_capture {path : RepositoryPath} {bytes : Bytes} :
    Walks allowed step fail
      (fun answer t => (∃ u, ReflTransGen step s u ∧ ReflTransGen step u t ∧
        allowed u (.capture path bytes plan) ∧ answer = u.read path) ∨
          ∃ error, answer = .failed error)
      (captureObject path bytes plan : Program Answer ε GetAnswer) s := by
  refine guarantees_request fun t moved t' answer ⟨may, choice, served⟩ => ?_
  obtain ⟨rfl, read | failed⟩ := serve_capture served
  · exact ⟨.refl, fun u later => .inl ⟨t', moved, later, may, read⟩⟩
  · exact ⟨.refl, fun u _ => .inr failed⟩

theorem walks_put {write : Write} (puts : Puts step s write) :
    Walks allowed step fail
      (fun answer t => answer = .ok → Found step write.path write.bytes t)
      (putObject write : Program Answer ε PutAnswer) s := by
  refine guarantees_request fun t moved t' answer ⟨_, choice, served⟩ => ?_
  rcases serve_put served with ⟨admitted, rfl, rfl⟩ | ⟨rfl, error, rfl⟩ | ⟨rfl, error, rfl⟩
  · exact ⟨.single ((puts t moved).1 admitted), fun u later _ => ⟨_, later, by simp⟩⟩
  · exact ⟨.refl, fun u _ ok => nomatch ok⟩
  · exact ⟨.single (puts t moved).2, fun u _ ok => nomatch ok⟩

end Calls

/-! ## Uploads -/

section Walk

variable [Metadata] {allowed : ObjectStore → Request → Prop}
  {step : ObjectStore → ObjectStore → Prop} {uploads : Set (RepositoryPath × Bytes)}
  {s : ObjectStore} {plan : PublicationPlan}

theorem walks_operation {α : Type} {message : String} {post : α → ObjectStore → Prop}
    (other : ¬ "immutable metadata ".toList <+: message.toList) :
    Walks allowed step (Honest step uploads) post (operation message : Publishing α) s :=
  guarantees_throw fun _ _ => .inl (noConflict_operation other)

/-- A check that never reports a conflict. -/
theorem walks_check {α : Type} {result : Except StorageError α}
    (fails : Except.FailsOnly NoConflict result) :
    Walks allowed step (Honest step uploads) (fun a _ => result = .ok a)
      (Program.ofExcept result) s :=
  walks_ofExcept fun error failed _ => .inl (fails error failed)

theorem walks_readLocalBounded {path : RepositoryPath} {file : Bytes} :
    Walks allowed step (Honest step uploads) (fun bytes _ => bytes = file)
      (readLocalBounded path file) s := by
  unfold readLocalBounded
  split
  · exact walks_operation (by simp [toString])
  · exact guarantees_pure fun _ _ => rfl

/-- After publishing a versioned document it has been in the store, created or found. -/
theorem walks_publishImmutableMetadata {version : Nat} {role : VersionedRole} {file : Bytes}
    (upload : (.versioned version role, file) ∈ uploads)
    (puts : Puts step s ⟨.versioned version role, .create, file, plan⟩) :
    Walks allowed step (Honest step uploads)
      (fun _ t => Found step (.versioned version role) file t)
      (publishImmutableMetadata plan (.versioned version role) file) s := by
  unfold publishImmutableMetadata
  refine walks_bind walks_readLocalBounded ?_
  rintro bytes t moved rfl
  refine walks_bind (walks_put (puts.later moved)) fun answer u _ landed => ?_
  cases answer with
  | ok => exact guarantees_pure fun v later => (landed rfl).later later
  | failed error => exact walks_operation (by simp [toString])
  | refused error =>
    refine walks_bind walks_get fun answer v _ found => ?_
    cases answer with
    | notFound => exact walks_operation (by simp [toString])
    | failed error => exact walks_operation (by simp [toString])
    | found current =>
      dsimp only
      cases collected : collectObjectBounded (.versioned version role) current
          localTufMetadataMaxBytes with
      | error error => exact walks_operation (by simp [toString])
      | ok existing =>
        obtain rfl := collectObjectBounded_ok collected
        refine guarantees_ofExcept fun w later => ?_
        unfold acceptExisting
        split_ifs with same online
        · exact same ▸ (found existing rfl).later later
        · exact .inl nofun
        · -- another root was found than the one to upload
          have isRoot : role = .root := by cases role <;> simp_all [RepositoryPath.isOnline]
          subst isRoot
          exact .inr ⟨version, bytes, existing, upload, (found existing rfl).later later, same⟩

variable [Crypto]

/-- A verified target was there with its digest and its length. -/
theorem walks_verifyRemoteTarget {path : RepositoryPath} {digest : Sha256} {length : Nat} :
    Walks allowed step (Honest step uploads)
      (fun _ t => ∃ stored, Found step path stored t ∧ stored.length = length ∧
        sha256 stored = digest)
      (verifyRemoteTarget path digest length) s := by
  unfold verifyRemoteTarget
  refine walks_bind walks_get fun answer t _ found => ?_
  cases answer with
  | notFound => exact walks_operation (by simp [toString])
  | failed error => exact walks_operation (by simp [toString])
  | found stored =>
    refine (walks_check ?_).imp (fun _ u later ok => ?_) fun _ _ _ failed => failed
    · unfold checkTarget
      split_ifs
      · exact .error (noConflict_operation (by simp [toString]))
      · exact .error (noConflict_operation (by simp [toString]))
      · exact .ok ()
    · exact ⟨stored, (found stored rfl).later later, checkTarget_ok ok⟩

theorem walks_publishContentAddressedTarget {path : RepositoryPath} {file : Bytes}
    {digest : Sha256} {length : Nat} (puts : Puts step s ⟨path, .overwrite, file, plan⟩) :
    Walks allowed step (Honest step uploads)
      (fun _ t => ∃ stored, Found step path stored t ∧ stored.length = length ∧
        sha256 stored = digest)
      (publishContentAddressedTarget plan path file digest length) s := by
  unfold publishContentAddressedTarget
  refine walks_bind walks_get fun answer t moved _ => ?_
  cases answer with
  | failed error => exact walks_operation (by simp [toString])
  | found stored => exact walks_verifyRemoteTarget
  | notFound =>
    refine walks_bind (walks_put (puts.later moved)) fun answer u _ _ => ?_
    cases answer with
    | failed error => exact walks_operation (by simp [toString])
    | ok => exact walks_verifyRemoteTarget
    | refused error => exact walks_verifyRemoteTarget

omit [Crypto] [Metadata] in
theorem failsOnly_contentAddressedTargetDigest {path : RepositoryPath} :
    Except.FailsOnly NoConflict (contentAddressedTargetDigest path) := by
  unfold contentAddressedTargetDigest
  split
  · split
    · exact .ok _
    · exact .error (noConflict_operation (by simp [toString]))
  · exact .ok _

/-- The retained target was in the store, with its own digest and length. -/
def Retained (step : ObjectStore → ObjectStore → Prop) (t : ObjectStore)
    (target : RetainedTarget) : Prop :=
  ∃ name content, target.path = .target (.canonical (sha256 content)) name ∧
    content.length = target.length ∧ Found step target.path content t

theorem walks_verifyRetainedTarget {target : RetainedTarget} :
    Walks allowed step (Honest step uploads) (fun _ t => Retained step t target)
      (verifyRetainedTarget target) s := by
  unfold verifyRetainedTarget
  refine walks_bind (walks_check failsOnly_contentAddressedTargetDigest) fun found t _ ok => ?_
  cases found with
  | none => exact walks_operation (by simp [toString])
  | some digest =>
    obtain ⟨name, path⟩ := contentAddressedTargetDigest_some ok
    have verified : Walks allowed step (Honest step uploads) _
        (verifyRemoteTarget target.path digest target.length) t := walks_verifyRemoteTarget
    refine walks_bind (walks_attempt verified) fun result u _ outcome => ?_
    cases result with
    | error error => exact walks_operation (by simp [toString])
    | ok _ =>
      obtain ⟨stored, found, length, rfl⟩ := outcome _ rfl
      exact guarantees_pure fun v later => ⟨name, stored, path, length, found.later later⟩

/-- One upload has been made. -/
def Uploaded (step : ObjectStore → ObjectStore → Prop) (t : ObjectStore)
    (file : RepositoryPath × Bytes) : Prop :=
  match file.1 with
  | .versioned _ _ => Found step file.1 file.2 t
  | .target _ _ => ∃ stored, Found step file.1 stored t ∧ sha256 stored = sha256 file.2
  | _ => True

omit [Metadata] in
theorem Uploaded.later {file : RepositoryPath × Bytes} {t' : ObjectStore}
    (uploaded : Uploaded step t file) (moved : ReflTransGen step t t') : Uploaded step t' file := by
  obtain ⟨path, bytes⟩ := file
  cases path with
  | root => trivial
  | timestamp => trivial
  | versioned version role => exact Found.later uploaded moved
  | target digest name =>
    obtain ⟨stored, found, digest⟩ := uploaded
    exact ⟨stored, found.later moved, digest⟩

/-- A target's name is the digest of its body. -/
def Named (file : RepositoryPath × Bytes) : Prop :=
  ∀ digest name, file.1 = .target digest name → digest = .canonical (sha256 file.2)

/-- How an object that is not swapped is written. -/
def uploadMode : RepositoryPath → PutMode
  | .target _ _ => .overwrite
  | _ => .create

theorem walks_publishUpload {file : RepositoryPath × Bytes} (upload : file ∈ uploads)
    (body : file.1 ≠ .timestamp) (named : Named file)
    (puts : file.1 ≠ .root → Puts step s ⟨file.1, uploadMode file.1, file.2, plan⟩) :
    Walks allowed step (Honest step uploads) (fun _ t => Uploaded step t file)
      (publishUpload plan file) s := by
  obtain ⟨path, bytes⟩ := file
  unfold publishUpload
  cases path with
  | timestamp => exact absurd rfl body
  | root => exact guarantees_pure fun _ _ => trivial
  | versioned version role => exact walks_publishImmutableMetadata upload (puts nofun)
  | target digest name =>
    have digestIs : digest = .canonical (sha256 bytes) := named digest name rfl
    subst digestIs
    refine (walks_publishContentAddressedTarget (puts nofun)).imp (fun _ _ _ held => ?_)
      fun _ _ _ failed => failed
    obtain ⟨stored, found, -, digest⟩ := held
    exact ⟨stored, found, digest⟩

/-! ## The two swaps -/

omit [Crypto] in
theorem walks_prepare {path : RepositoryPath} {file : Bytes} :
    Walks allowed step (Honest step uploads)
      (fun write t => write.path = path ∧ write.bytes = file ∧
        Captured allowed step plan s write t)
      (prepareConditionalPublicationFile plan path file) s := by
  unfold prepareConditionalPublicationFile
  refine walks_bind walks_readLocalBounded ?_
  rintro bytes t moved rfl
  refine walks_bind walks_capture fun answer u _ seen => ?_
  cases answer with
  | failed error => exact walks_operation (by simp [toString])
  | notFound =>
    obtain ⟨v, since, before, may, read⟩ | ⟨error, impossible⟩ := seen
    · exact guarantees_pure fun w later => ⟨rfl, rfl, v, moved.trans since, before.trans later,
        may, read_eq_notFound read.symm⟩
    · cases impossible
  | found current =>
    obtain ⟨v, since, before, may, read⟩ | ⟨error, impossible⟩ := seen
    · dsimp only
      cases collected : collectObjectBounded path current localTufMetadataMaxBytes with
      | error error => exact walks_operation (by simp [toString])
      | ok previous =>
        obtain rfl := collectObjectBounded_ok collected
        exact guarantees_pure fun w later => ⟨rfl, rfl, v, moved.trans since, before.trans later,
          may, read_eq_found read.symm⟩
    · cases impossible

omit [Crypto] in
/-- A swap that succeeds was served at some moment, as it was found or as it was written. -/
theorem walks_commit {role : String} {start : ObjectStore} {write : ConditionalPublicationFile}
    (captured : Captured allowed step plan start write s)
    (puts : write.previous ≠ some write.bytes →
      Puts step s ⟨write.path, .fence write.previous, write.bytes, plan⟩) :
    Walks allowed step (Honest step uploads) (fun _ t => Found step write.path write.bytes t)
      (commitConditionalPublicationFile plan role write) s := by
  unfold commitConditionalPublicationFile
  split
  next unchanged =>
    obtain ⟨u, -, after, -, served⟩ := captured
    exact guarantees_pure fun t later => ⟨u, after.trans later, served.trans unchanged⟩
  next changed =>
    refine walks_bind (walks_put (puts changed)) fun answer t _ landed => ?_
    cases answer with
    | refused error => exact walks_operation (by simp [toString])
    | failed error => exact walks_operation (by simp [toString])
    | ok => exact guarantees_pure fun v later => (landed rfl).later later

omit [Crypto] in
/-- A timestamp that passes the check is newer than what it replaces. -/
theorem advances_of_validate {write : ConditionalPublicationFile}
    (ok : validateTimestampTransition write = .ok ())
    (changed : write.previous ≠ some write.bytes) : Advances write.previous write.bytes := by
  obtain ⟨localVersion, known, rest⟩ := Except.bind_ok_iff.mp ok
  have version := require_ok known
  refine ⟨by simp [version], fun served found => ?_⟩
  simp only [found] at rest
  obtain ⟨remoteVersion, remote, rest⟩ := Except.bind_ok_iff.mp rest
  split_ifs at rest with older other
  have differs : served ≠ write.bytes := fun same => changed (found.trans (congrArg some same))
  refine ⟨remoteVersion, localVersion, require_ok remote, version, ?_⟩
  have : remoteVersion ≠ localVersion := fun same => other ⟨same, differs⟩
  omega

omit [Crypto] in
theorem failsOnly_validateTimestampTransition {write : ConditionalPublicationFile} :
    Except.FailsOnly NoConflict (validateTimestampTransition write) := by
  have versioned {found : Option Nat} {message : String}
      (other : ¬ "immutable metadata ".toList <+: message.toList) :
      Except.FailsOnly NoConflict (require found (StorageError.operation message)) := by
    cases found with
    | none => exact .error (noConflict_operation other)
    | some _ => exact .ok _
  unfold validateTimestampTransition
  refine (versioned (by simp [toString])).bind fun version => ?_
  split
  · exact .ok _
  · refine (versioned (by simp [toString])).bind fun remote => ?_
    split_ifs
    · exact .error (noConflict_operation (by simp [toString]))
    · exact .error (noConflict_operation (by simp [toString]))
    · exact .ok _

/-! ## A whole publication -/

omit [Metadata] in
theorem failsOnly_scanUploads {files : List (RepositoryPath × Bytes)} :
    Except.FailsOnly NoConflict (files.foldlM scanUpload none) := by
  refine .foldlM none files fun file _ root => ?_
  unfold scanUpload
  split_ifs
  · exact .error (noConflict_operation (by simp))
  · exact .ok _
  · refine failsOnly_contentAddressedTargetDigest.bind fun digest => ?_
    cases digest with
    | none => exact .ok _
    | some digest =>
      dsimp only
      split_ifs
      · exact .error (noConflict_operation (by simp [toString]))
      · exact .ok _

omit [Metadata] in
/-- Every upload that was looked over bears its own digest. -/
theorem named_of_scan {uploads : List (RepositoryPath × Bytes)} {first last : Option Bytes}
    (ok : uploads.foldlM scanUpload first = .ok last) {file : RepositoryPath × Bytes}
    (member : file ∈ uploads) : Named file := by
  obtain ⟨before, after, turn⟩ := Except.ok_of_mem_foldlM ok member
  rintro digest name here
  obtain ⟨path, bytes⟩ := file
  subst here
  simp only [scanUpload, reduceCtorEq, if_false] at turn
  obtain ⟨found, known, rest⟩ := Except.bind_ok_iff.mp turn
  cases digest with
  | other text malformed => cases known
  | canonical digest =>
    cases known
    dsimp only at rest
    split_ifs at rest with differs
    rw [not_not.mp differs]

omit [Metadata] in
/-- The root that was found is one of the uploads. -/
theorem mem_of_scan {uploads : List (RepositoryPath × Bytes)} {first : Option Bytes} {root : Bytes}
    (ok : uploads.foldlM scanUpload first = .ok (some root)) :
    first = some root ∨ (.root, root) ∈ uploads := by
  induction uploads generalizing first with
  | nil => exact .inl (Except.ok.inj ok)
  | cons file rest ih =>
    obtain ⟨path, bytes⟩ := file
    obtain ⟨next, turn, ok⟩ := Except.bind_ok_iff.mp ok
    rcases ih ok with found | later
    · subst found
      unfold scanUpload at turn
      split at turn
      next isRoot =>
        split at turn
        · cases turn
        · obtain ⟨rfl⟩ := turn
          have : path = .root := isRoot
          exact .inr (by simp [this])
      next =>
        obtain ⟨digest, _, turn⟩ := Except.bind_ok_iff.mp turn
        cases digest with
        | none => exact .inl (Except.ok.inj turn)
        | some digest =>
          dsimp only at turn
          split at turn
          · cases turn
          · exact .inl (Except.ok.inj turn)
    · exact .inr (List.mem_cons_of_mem _ later)

/-- Everything of a plan but its timestamp has been in the store. -/
structure Stored (step : ObjectStore → ObjectStore → Prop) (plan : PublicationPlan)
    (t : ObjectStore) : Prop where
  uploaded : ∀ file ∈ plan.uploads, file.1 ≠ .timestamp → Uploaded step t file ∧ Named file
  retained : ∀ target ∈ plan.retainedTargets, Retained step t target

/-- The writes of a plan are steps: its uploads, and each swap once what it replaces was captured,
the timestamp's when it is newer and all the rest has been stored. -/
structure Permits (allowed : ObjectStore → Request → Prop)
    (step : ObjectStore → ObjectStore → Prop) (plan : PublicationPlan) (start : ObjectStore) :
    Prop where
  upload : ∀ file ∈ plan.uploads, file.1 ≠ .root → file.1 ≠ .timestamp → Named file →
    Puts step start ⟨file.1, uploadMode file.1, file.2, plan⟩
  swap : ∀ write t, (write.path, write.bytes) ∈ plan.uploads →
    Captured allowed step plan start write t → write.previous ≠ some write.bytes →
    write.path = .root ∨
      write.path = .timestamp ∧ Advances write.previous write.bytes ∧ Stored step plan t →
    Puts step t ⟨write.path, .fence write.previous, write.bytes, plan⟩

omit [Metadata] in
theorem Stored.later {t' : ObjectStore} (stored : Stored step plan t)
    (moved : ReflTransGen step t t') : Stored step plan t' where
  uploaded file member body :=
    (stored.uploaded file member body).imp_left fun uploaded => uploaded.later moved
  retained target member := by
    obtain ⟨name, content, path, length, found⟩ := stored.retained target member
    exact ⟨name, content, path, length, found.later moved⟩

theorem walks_publishPlan {files : List (RepositoryPath × Bytes)} {timestamp : Bytes}
    (shape : plan.uploads = files ++ [(.timestamp, timestamp)])
    (bodies : ∀ file ∈ files, file.1 ≠ .timestamp) (listed : ∀ file ∈ files, file ∈ uploads)
    (permits : Permits allowed step plan s)
    (retained : ∀ target ∈ plan.retainedTargets, Retained step s target) :
    Walks allowed step (Honest step uploads)
      (fun _ t => Stored step plan t ∧ Found step .timestamp timestamp t)
      (publishPlan plan files timestamp) s := by
  have upload (file) (member : file ∈ files) : file ∈ plan.uploads :=
    shape ▸ List.mem_append_left _ member
  unfold publishPlan
  refine walks_bind (walks_check failsOnly_scanUploads) fun root s₁ m₁ scanned => ?_
  cases root with
  | none => exact walks_operation (by simp)
  | some root =>
    refine walks_bind walks_prepare ?_
    rintro timestampWrite s₂ m₂ ⟨timestampPath, rfl, capturedTimestamp⟩
    refine walks_bind (walks_check failsOnly_validateTimestampTransition) fun _ s₃ m₃ valid => ?_
    refine walks_bind walks_prepare ?_
    rintro rootWrite s₄ m₄ ⟨rootPath, rfl, capturedRoot⟩
    have sofar : ReflTransGen step s s₃ := (m₁.trans m₂).trans m₃
    have loop : Walks allowed step (Honest step uploads)
        (fun _ t => ∀ file ∈ files, Uploaded step t file) (forM files (publishUpload plan)) s₄ := by
      refine guarantees_forM (fun file t => Uploaded step t file)
        (fun _ _ _ moved uploaded => uploaded.later moved) fun file member t later => ?_
      have named := named_of_scan scanned member
      exact walks_publishUpload (listed file member) (bodies file member) named fun notRoot =>
        (permits.upload file (upload file member) notRoot (bodies file member) named).later
          ((sofar.trans m₄).trans later)
    refine walks_bind loop fun _ s₅ m₅ uploaded => ?_
    have captured := capturedRoot.later m₅
    refine walks_bind (walks_commit captured fun changed =>
      permits.swap rootWrite s₅ ?_ (captured.mono sofar) changed (.inl rootPath))
        fun _ s₆ m₆ _ => ?_
    · rw [rootPath]
      exact upload _ ((mem_of_scan scanned).resolve_left (by simp))
    have stored : Stored step plan s₆ := by
      refine ⟨fun file member body => ?_, fun target member => ?_⟩
      · have member : file ∈ files := by
          rw [shape] at member
          refine (List.mem_append.mp member).resolve_right fun last => body ?_
          rw [List.mem_singleton.mp last]
        exact ⟨(uploaded file member).later m₆, named_of_scan scanned member⟩
      · obtain ⟨name, content, path, length, found⟩ := retained target member
        exact ⟨name, content, path, length,
          found.later (((sofar.trans m₄).trans m₅).trans m₆)⟩
    have captured := (((capturedTimestamp.later m₃).later m₄).later m₅).later m₆
    refine (walks_commit captured fun changed => permits.swap timestampWrite s₆ ?_
      (captured.mono m₁) changed
      (.inr ⟨timestampPath, advances_of_validate valid changed, stored⟩)).imp
      (fun _ t moved landed => ⟨stored.later moved, timestampPath ▸ landed⟩)
      fun _ _ _ failed => failed
    rw [shape, timestampPath]
    exact List.mem_append_right _ List.mem_cons_self

theorem Permits.later {start start' : ObjectStore} (permits : Permits allowed step plan start)
    (moved : ReflTransGen step start start') : Permits allowed step plan start' where
  upload file member notRoot body named :=
    (permits.upload file member notRoot body named).later moved
  swap write t upload captured := permits.swap write t upload (captured.mono moved)

omit [Crypto] in
/-- What a directory's plan uploads: bodies and roots, the current documents, the timestamp. -/
theorem uploads_of_currentPublicationPlan (ok : currentPublicationPlan dir = .ok plan) :
    ∃ repository bodies,
      loadLocal dir "resolving current publication closure" = .ok repository ∧
      plan.uploads = bodies ++
        [(.versioned repository.targetsVersion .targets, repository.targetsDocument),
          (.versioned repository.snapshotVersion .snapshot, repository.snapshot)] ++
        [(.timestamp, repository.timestamp)] ∧
      (∀ file ∈ bodies, file.1 ≠ .timestamp) ∧ plan.base = dir.base := by
  obtain ⟨repository, loaded, rest⟩ := Except.bind_ok_iff.mp ok
  obtain ⟨_, _, rest⟩ := Except.bind_ok_iff.mp rest
  dsimp only at rest
  split at rest
  · cases rest
  · obtain rfl := Except.ok.inj rest
    refine ⟨repository, repository.targets.filterMap (fun entry =>
        (dir.file entry.path).map fun bytes => (entry.path, bytes)) ++
      dir.files.filter (·.1.isRoot), loaded, by simp, ?_, rfl⟩
    rintro ⟨path, bytes⟩ member rfl
    rcases List.mem_append.mp member with target | root
    · obtain ⟨entry, -, found⟩ := List.mem_filterMap.mp target
      obtain ⟨_, -, same⟩ := Option.map_eq_some_iff.mp found
      cases same
    · simp [RepositoryPath.isRoot] at root

/-- The walk of a whole publication. -/
theorem walks_publishRepository
    (permits : ∀ plan, currentPublicationPlan dir = .ok plan → Permits allowed step plan s) :
    Walks allowed step
      (Honest step {file | ∃ plan, currentPublicationPlan dir = .ok plan ∧ file ∈ plan.uploads})
      (fun _ t => ∃ plan repository, currentPublicationPlan dir = .ok plan ∧
        loadLocal dir "resolving current publication closure" = .ok repository ∧
        Stored step plan t ∧ Found step .timestamp repository.timestamp t)
      (publishRepository dir) s := by
  unfold publishRepository
  refine walks_bind (walks_check (.mapError fun error => noConflict_operation (by simp [toString])))
    fun plan t moved found => ?_
  have ok : currentPublicationPlan dir = .ok plan := Except.mapError_ok_iff.mp found
  obtain ⟨repository, bodies, loaded, shape, clean, -⟩ := uploads_of_currentPublicationPlan ok
  unfold publishPlanned
  refine walks_bind (guarantees_forM (fun target u => Retained step u target) ?_
    fun target _ _ _ => walks_verifyRetainedTarget) fun _ u later retained => ?_
  · rintro target u v moved ⟨name, content, path, length, found⟩
    exact ⟨name, content, path, length, found.later moved⟩
  rw [shape, List.getLast?_append, List.dropLast_concat]
  simp only [List.getLast?_singleton, Option.some_or, ne_eq, not_true_eq_false, if_false]
  refine (walks_publishPlan shape (fun file member => ?_) (fun file member => ?_)
    ((permits plan ok).later (moved.trans later)) retained).imp
    (fun _ _ _ published => ⟨plan, repository, ok, loaded, published⟩) fun _ _ _ failed => failed
  · rcases List.mem_append.mp member with body | current
    · exact clean file body
    · simp only [List.mem_cons, List.not_mem_nil, or_false] at current
      rcases current with rfl | rfl <;> simp
  · exact ⟨plan, ok, shape ▸ List.mem_append_left _ member⟩

end Walk

/-! ## Publications as changes -/

section Changes

variable [Crypto] [Metadata] {allowed : ObjectStore → Request → Prop}
  {extra : ObjectStore → Write → Prop} {s : ObjectStore} {plan : PublicationPlan}

/-- A publisher's program among others: its writes are changes, and `post` holds when it succeeds.
-/
abbrev Behaves {ε α : Type} (allowed : ObjectStore → Request → Prop)
    (extra : ObjectStore → Write → Prop) (post : α → ObjectStore → Prop)
    (p : Program Answer ε α) (s : ObjectStore) : Prop :=
  Walks allowed (Change extra) (fun _ _ => True) post p s

theorem behaves_throw {ε α : Type} {error : ε} {post : α → ObjectStore → Prop} :
    Behaves allowed extra post (MonadExcept.throw error : Program Answer ε α) s :=
  guarantees_throw fun _ _ => trivial

theorem behaves_ofExcept {ε α : Type} {result : Except ε α} :
    Behaves allowed extra (fun a _ => result = .ok a) (Program.ofExcept result) s :=
  walks_ofExcept fun _ _ _ => trivial

/-- The swaps of this plan have what is asked of them, wherever their captures were allowed. -/
def Licensed (allowed : ObjectStore → Request → Prop) (extra : ObjectStore → Write → Prop)
    (plan : PublicationPlan) (start : ObjectStore) : Prop :=
  ∀ write t, (write.path, write.bytes) ∈ plan.uploads →
    Captured allowed (Change extra) plan start write t → write.previous ≠ some write.bytes →
      extra t ⟨write.path, .fence write.previous, write.bytes, plan⟩

/-- What a successful publication leaves behind: its plan complete, its timestamp served. -/
def Published (extra : ObjectStore → Write → Prop) (plan : PublicationPlan) (timestamp : Bytes)
    (t : ObjectStore) : Prop :=
  t.Complete plan ∧ Found (Change extra) .timestamp timestamp t

/-- A proper write is a change whether it is applied or left in flight. -/
theorem puts_of_proper {write : Write}
    (proper : ∀ t, ReflTransGen (Change extra) s t → Proper extra t write) :
    Puts (Change extra) s write := fun t moved =>
  ⟨fun admitted => .land write (proper t moved) admitted fun _ member => member,
    .send write (proper t moved)⟩

/-- Content that was found under a digest is held from then on. -/
theorem Found.holds {name : String} {stored content : Bytes}
    (found : Found (Change extra) (.target (.canonical (sha256 content)) name) stored t)
    (digest : sha256 stored = sha256 content) :
    t.Holds (.target (.canonical (sha256 content)) name) content := by
  obtain ⟨u, later, there⟩ := found
  refine holds_of_changes later ⟨stored, there, ?_⟩
  by_cases equal : stored = content
  · exact .inl equal
  · exact .inr ⟨equal, digest⟩

/-- What has been stored stays, so the plan is complete. -/
theorem Stored.complete (stored : Stored (Change extra) plan t) :
    t.Complete plan where
  metadata version role bytes member := by
    obtain ⟨⟨u, later, there⟩, -⟩ := stored.uploaded _ member nofun
    exact metadata_of_changes later there
  targets digest name bytes member := by
    obtain ⟨⟨content, found, same⟩, named⟩ := stored.uploaded _ member nofun
    have digestIs : digest = .canonical (sha256 bytes) := named digest name rfl
    subst digestIs
    exact ⟨rfl, found.holds same⟩
  retained target member := by
    obtain ⟨name, content, path, length, found⟩ := stored.retained target member
    refine ⟨name, content, path, length, ?_⟩
    rw [path] at found ⊢
    exact found.holds rfl

theorem permits_of_licensed (licensed : Licensed allowed extra plan s) :
    Permits allowed (Change extra) plan s where
  upload := by
    rintro ⟨path, bytes⟩ - notRoot body named
    refine puts_of_proper fun t _ => ?_
    cases path with
    | root => exact absurd rfl notRoot
    | timestamp => exact absurd rfl body
    | versioned version role => exact rfl
    | target digest name => exact named digest name rfl
  swap write t upload captured changed which := by
    refine puts_of_proper fun u later => ?_
    have known := licensed write u upload (captured.later later) changed
    rw [Proper]
    rcases which with isRoot | ⟨isTimestamp, newer, stored⟩
    · simp only [isRoot] at known ⊢
      exact ⟨⟨_, rfl⟩, known⟩
    · simp only [isTimestamp] at known ⊢
      exact ⟨⟨_, rfl, newer⟩, (stored.later later).complete, known⟩

theorem behaves_publishRepository
    (licensed : ∀ plan, currentPublicationPlan dir = .ok plan → Licensed allowed extra plan s) :
    Behaves allowed extra
      (fun _ t => ∃ plan repository, currentPublicationPlan dir = .ok plan ∧
        loadLocal dir "resolving current publication closure" = .ok repository ∧
        Published extra plan repository.timestamp t)
      (publishRepository dir) s := by
  refine (walks_publishRepository fun plan ok => permits_of_licensed (licensed plan ok)).imp ?_
    fun _ _ _ _ => trivial
  rintro - t - ⟨plan, repository, ok, loaded, stored, served⟩
  exact ⟨plan, repository, ok, loaded, stored.complete, served⟩

end Changes

/-! ## Every schedule -/

section Schedules

variable [Crypto] [Metadata]

/-- A store that holds these objects, with nothing in flight. -/
def ObjectStore.holding (contents : RepositoryPath → Option Bytes) : ObjectStore where
  objects path := (contents path).map fun bytes => ⟨bytes, none⟩
  inFlight := []

omit [Metadata] in
theorem ObjectStore.closed_holding (contents : RepositoryPath → Option Bytes) :
    (holding contents).Closed := by
  intro object plan served label
  obtain ⟨bytes, -, rfl⟩ := Option.map_eq_some_iff.mp served
  cases label

variable {ι : Type} [DecidableEq ι]

/-- Publishers that each mirror a directory of their own into one store. -/
def mirroring (dirs : ι → RepositoryDir) (contents : RepositoryPath → Option Bytes) :
    Config ObjectStore Answer StorageError Unit ι where
  state := .holding contents
  pool who := publishRepository (dirs who)

/-- Nothing is asked of a capture. -/
def anyCapture : ObjectStore → Request → Prop := fun _ _ => True

/-- Nothing more is known of a swap. -/
def anySwap : ObjectStore → Write → Prop := fun _ _ => True

/-- Publishers whose swaps have what is asked of them keep it over every schedule. -/
theorem kept_play {ε : Type} {allowed : ObjectStore → Request → Prop}
    {extra : ObjectStore → Write → Prop}
    (stays : ∀ s t write, Change extra s t → extra s write → extra t write)
    {post : ι → Unit → ObjectStore → Prop} {start : ObjectStore}
    {config : Config ObjectStore Answer ε Unit ι} {turns : List (Turn ι Choice Nat)}
    (kept : config.Kept serve allowed (Sound extra) (Change extra) post (fun _ _ _ => True) start)
    (meets : config.Meets serve landLate allowed (fun _ _ => True) turns) :
    (config.play serve landLate turns).Kept serve allowed (Sound extra) (Change extra) post
      (fun _ _ _ => True) start :=
  Guarantees.play (fun _ _ moved sound => sound_of_changes stays moved sound)
    (fun _ _ _ sound _ late => change_of_landLate sound late) kept meets

omit [DecidableEq ι] in
theorem mirroring_kept (dirs : ι → RepositoryDir) (contents : RepositoryPath → Option Bytes) :
    (mirroring dirs contents).Kept serve anyCapture (Sound anySwap) (Change anySwap)
      (fun _ _ _ => True) (fun _ _ _ => True) (.holding contents) where
  inv := nofun
  moved := .refl
  pool _ := (behaves_publishRepository fun _ _ _ _ _ _ _ => trivial).imp (fun _ _ _ _ => trivial)
    fun _ _ _ _ => trivial

/-- **Served generations are linear and closed.** Over every schedule of any number of publishers,
each mirroring any directory of its own into any store, with writes that land late: what is served
as the timestamp only moves to newer versions, a version is only ever served with one byte string,
and the plan that the served timestamp came from is in the store as planned. -/
theorem generations_linear_and_closed (dirs : ι → RepositoryDir)
    (contents : RepositoryPath → Option Bytes) (before after : List (Turn ι Choice Nat)) :
    let first := ((mirroring dirs contents).play serve landLate before).state
    let last := ((mirroring dirs contents).play serve landLate (before ++ after)).state
    (∀ bytes, first.bytes .timestamp = some bytes →
      ∃ bytes', last.bytes .timestamp = some bytes' ∧
        ∀ old new, signedVersion bytes = some old → signedVersion bytes' = some new →
          old ≤ new ∧ (old = new → bytes' = bytes)) ∧
    last.Closed := by
  intro first last
  have free : ∀ (config : Config ObjectStore Answer StorageError Unit ι)
      (turns : List (Turn ι Choice Nat)),
      config.Meets serve landLate anyCapture (fun _ _ => True) turns :=
    Config.meets_of_forall (fun _ _ => trivial) fun _ _ => trivial
  have stays : ∀ s t write, Change anySwap s t → anySwap s write → anySwap t write :=
    fun _ _ _ _ _ => trivial
  have keptFirst := kept_play stays (mirroring_kept dirs contents) (free _ before)
  have keptLast := kept_play stays keptFirst.restart (free _ after)
  have moved : ReflTransGen (Change anySwap) first last := by
    simpa only [first, last, Config.play_append] using keptLast.moved
  refine ⟨fun bytes served => ?_, ?_⟩
  · obtain ⟨bytes', served', same⟩ := pointer_of_changes Newer (fun _ _ _ => Newer.trans)
      (fun _ _ _ change => change.timestamp) moved served
    refine ⟨bytes', served', fun old new isOld isNew => ?_⟩
    rcases same with rfl | ⟨u, v, isU, isV, lt⟩
    · obtain rfl := Option.some.inj (isOld.symm.trans isNew)
      exact ⟨le_rfl, fun _ => rfl⟩
    · obtain rfl := Option.some.inj (isOld.symm.trans isU)
      obtain rfl := Option.some.inj (isNew.symm.trans isV)
      exact ⟨lt.le, fun same => absurd same lt.ne⟩
  · exact closed_of_changes (keptFirst.moved.trans moved) (ObjectStore.closed_holding contents)

end Schedules

end Updatedc.Tuf
