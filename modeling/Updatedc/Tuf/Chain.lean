import Updatedc.Tuf.Root

/-!
# Walking the root chain

A ceremony that succeeds always publishes the next version, signed by enough of its own keys. What
decides whether a client can take the step is the **previous** root's threshold: a renewal is
signed by that many of its keys, a rotation only by the keys it retains. The new key signs too and
counts towards the new root's threshold but not towards the previous one's, so a rotation that
retains fewer keys than the threshold may succeed and leave every client behind.
-/

namespace Updatedc.Tuf

/-! ## Plans -/

theorem insertId_ok {distinct after : DistinctSigningKeys} {slot : String} {id : KeyId}
    (ok : distinct.insertId slot id = .ok after) :
    distinct.lookup id = none ∧ after = (id, slot) :: distinct := by
  unfold DistinctSigningKeys.insertId at ok
  split at ok
  · cases ok
  · next unseen => exact ⟨unseen, (Except.ok.inj ok).symm⟩

/-- What retaining keys keeps: they sign, they are keys of the current root, and no two are the
same. -/
structure Retaining (oldRootRole : RoleKeys) (count : Nat) (draft : Draft) : Prop where
  signs : draft.sources.map KeySource.keyId = draft.rootKeyids
  listed : ∀ id ∈ draft.rootKeyids, id ∈ oldRootRole.keyids
  distinct : draft.rootKeyids.Nodup
  noted : ∀ id ∈ draft.rootKeyids, draft.distinct.lookup id ≠ none
  count : draft.rootKeyids.length = count

variable {oldRootRole : RoleKeys} {signed : SignedRoot}

/-- A key the draft has not noted is not one of its root keys. -/
theorem Retaining.not_mem {count : Nat} {draft : Draft} {id : KeyId}
    (retaining : Retaining oldRootRole count draft) (unseen : draft.distinct.lookup id = none) :
    id ∉ draft.rootKeyids :=
  fun member => retaining.noted id member unseen

theorem Retaining.retain {files : KeyFiles} {count : Nat} {draft after : Draft} {path : String}
    (retaining : Retaining oldRootRole count draft)
    (ok : draft.retain files oldRootRole path = .ok after) :
    Retaining oldRootRole (count + 1) after := by
  obtain ⟨source, -, ok⟩ := Except.bind_ok_iff.mp ok
  obtain ⟨distinct, noted, ok⟩ := Except.bind_ok_iff.mp ok
  obtain ⟨unseen, rfl⟩ := insertId_ok noted
  split_ifs at ok with known
  case neg => cases ok
  cases ok
  have fresh := retaining.not_mem unseen
  constructor
  · simp [Draft.sign, retaining.signs]
  · intro id member
    rcases List.mem_append.mp member with before | now
    · exact retaining.listed id before
    · rw [List.mem_singleton.mp now]
      exact known
  · refine List.nodup_append.mpr ⟨retaining.distinct, List.nodup_singleton _, ?_⟩
    rintro id before _ now rfl
    exact fresh (List.mem_singleton.mp now ▸ before)
  · intro id member
    rcases List.mem_append.mp member with before | now
    · have other : id ≠ source.keyId := fun same => fresh (same ▸ before)
      simpa [Draft.sign, List.lookup_cons, beq_eq_false_iff_ne.mpr other]
        using retaining.noted id before
    · simp [Draft.sign, List.mem_singleton.mp now]
  · simp [Draft.sign, retaining.count]

theorem Retaining.foldlM {files : KeyFiles} {retained : List String} :
    ∀ {count : Nat} {draft after : Draft}, Retaining oldRootRole count draft →
      retained.foldlM (Draft.retain files oldRootRole) draft = .ok after →
      Retaining oldRootRole (count + retained.length) after := by
  induction retained with
  | nil =>
    intro count draft after retaining ok
    cases ok
    exact retaining
  | cons path rest ih =>
    intro count draft after retaining ok
    obtain ⟨next, turn, ok⟩ := Except.bind_ok_iff.mp ok
    have later := ih (retaining.retain turn) ok
    rwa [Nat.add_assoc, Nat.add_comm 1] at later

/-- Carrying the online roles over adds nothing to the root role. -/
theorem Retaining.carried {old : Root} {carried : Draft}
    (ok : onlineRoles.foldlM (Draft.carryRole old) Draft.empty = .ok carried) :
    Retaining oldRootRole 0 carried := by
  have keeps : carried.rootKeyids = [] ∧ carried.sources = [] := by
    refine Except.keeps_foldlM (p := fun draft => draft.rootKeyids = [] ∧ draft.sources = []) ok
      (fun role _ draft after turn kept => ?_) ⟨rfl, rfl⟩
    unfold Draft.carryRole at turn
    split at turn
    · cases turn
    obtain ⟨filled, keysOk, turn⟩ := Except.bind_ok_iff.mp turn
    cases turn
    refine Except.keeps_foldlM (p := fun draft => draft.rootKeyids = [] ∧ draft.sources = [])
      keysOk (fun entry _ draft after turn kept => ?_) kept
    unfold Draft.carryKey at turn
    split at turn
    · cases turn
    · obtain ⟨distinct, -, turn⟩ := Except.bind_ok_iff.mp turn
      cases turn
      exact kept
  constructor
  · rw [keeps.1, keeps.2]
    rfl
  all_goals simp [keeps.1]

/-- What a rotation plans: the kept keys of the current root and one key that is not, all of them
signing, under the threshold it had. -/
structure Rotates (oldRootRole : RoleKeys) (count : Nat) (plan : Plan) (kept : List KeyId)
    (fresh : KeyId) : Prop where
  role : plan.roles .root = some ⟨kept ++ [fresh], oldRootRole.threshold⟩
  signs : plan.sources.map KeySource.keyId = kept ++ [fresh]
  listed : ∀ id ∈ kept, id ∈ oldRootRole.keyids
  distinct : kept.Nodup
  count : kept.length = count
  unlisted : fresh ∉ oldRootRole.keyids

theorem rotates_of_plan {files : KeyFiles} {retained : List String} {newRootKey : String}
    {old : Root} {plan : Plan}
    (ok : rotationPlan files retained newRootKey old oldRootRole = .ok plan) :
    ∃ kept fresh, Rotates oldRootRole retained.length plan kept fresh := by
  obtain ⟨carried, carries, ok⟩ := Except.bind_ok_iff.mp ok
  obtain ⟨draft, retains, ok⟩ := Except.bind_ok_iff.mp ok
  obtain ⟨final, introduces, ok⟩ := Except.bind_ok_iff.mp ok
  cases ok
  have start : Retaining oldRootRole 0 carried := .carried carries
  have retaining := start.foldlM retains
  obtain ⟨source, -, introduces⟩ := Except.bind_ok_iff.mp introduces
  obtain ⟨distinct, -, introduces⟩ := Except.bind_ok_iff.mp introduces
  split_ifs at introduces with known
  · cases introduces
  cases introduces
  refine ⟨draft.rootKeyids, source.keyId, ?_, ?_, retaining.listed, retaining.distinct, ?_, known⟩
  · simp [Draft.sign]
  · simp [Draft.sign, retaining.signs]
  · simpa using retaining.count

/-- What gathering keys for a renewal keeps. -/
structure Renewing (oldRootRole : RoleKeys) (found : DistinctSigningKeys × List KeySource) :
    Prop where
  listed : ∀ source ∈ found.2, source.keyId ∈ oldRootRole.keyids
  distinct : (found.2.map KeySource.keyId).Nodup
  noted : ∀ source ∈ found.2, found.1.lookup source.keyId ≠ none

theorem Renewing.renewWith {files : KeyFiles} {path : String}
    {found after : DistinctSigningKeys × List KeySource} (renewing : Renewing oldRootRole found)
    (ok : renewWith files oldRootRole found path = .ok after) : Renewing oldRootRole after := by
  obtain ⟨source, -, ok⟩ := Except.bind_ok_iff.mp ok
  split_ifs at ok with known
  case neg =>
    cases ok
    exact renewing
  obtain ⟨distinct, noted, ok⟩ := Except.bind_ok_iff.mp ok
  obtain ⟨unseen, rfl⟩ := insertId_ok noted
  cases ok
  have fresh : source.keyId ∉ found.2.map KeySource.keyId := fun member => by
    obtain ⟨other, before, same⟩ := List.mem_map.mp member
    exact renewing.noted other before (same ▸ unseen)
  constructor
  · intro other member
    rcases List.mem_append.mp member with before | now
    · exact renewing.listed other before
    · rw [List.mem_singleton.mp now]
      exact known
  · rw [List.map_append]
    refine List.nodup_append.mpr ⟨renewing.distinct, List.nodup_singleton _, ?_⟩
    rintro id before _ now rfl
    exact fresh (List.mem_singleton.mp now ▸ before)
  · intro other member
    rcases List.mem_append.mp member with before | now
    · have different : other.keyId ≠ source.keyId := fun same =>
        fresh (same ▸ List.mem_map_of_mem before)
      simpa [List.lookup_cons, beq_eq_false_iff_ne.mpr different] using renewing.noted other before
    · simp [List.mem_singleton.mp now]

/-- What a renewal plans: the same roles, signed by enough distinct keys of the root role. -/
structure Renews (old : Root) (oldRootRole : RoleKeys) (plan : Plan) : Prop where
  roles : plan.roles = old.roles
  listed : ∀ source ∈ plan.sources, source.keyId ∈ oldRootRole.keyids
  distinct : (plan.sources.map KeySource.keyId).Nodup
  enough : oldRootRole.threshold ≤ plan.sources.length

theorem renews_of_plan {files : KeyFiles} {rootKeys : List String} {old : Root} {plan : Plan}
    (ok : renewalPlan files rootKeys old oldRootRole = .ok plan) : Renews old oldRootRole plan := by
  obtain ⟨distinct, -, ok⟩ := Except.bind_ok_iff.mp ok
  obtain ⟨found, gathers, ok⟩ := Except.bind_ok_iff.mp ok
  have renewing := Except.keeps_foldlM (p := Renewing oldRootRole) gathers
    (fun path _ before after turn kept => kept.renewWith turn) ⟨by simp, by simp, by simp⟩
  dsimp only at ok
  split_ifs at ok with few
  · cases ok
  cases ok
  exact ⟨rfl, renewing.listed, renewing.distinct, Nat.not_lt.mp few⟩

/-! ## One ceremony -/

/-- The threshold of the root role, if there is one. -/
def Root.rootThreshold (root : Root) : Nat := (root.roles .root).elim 0 RoleKeys.threshold

/-- The rotations that retain as many keys as the previous root demands; a renewal always does. -/
def Ceremony.Continues (threshold : Nat) : Ceremony → Prop
  | rotate retained _ _ _ => threshold ≤ retained.length
  | renew _ _ _ => True

/-- **One successful ceremony**: the next version, enough signatures of its own keys, the same
threshold, and enough of the previous root's keys exactly if it continues. -/
structure Performs (ceremony : Ceremony) (root : Root) (next : SignedRoot) : Prop where
  version : next.signed.version = root.version + 1
  own : next.signed.meetsThreshold next.signatures = true
  threshold : next.signed.rootThreshold = root.rootThreshold
  previous : root.meetsThreshold next.signatures = true ↔ ceremony.Continues root.rootThreshold

theorem signRoot_ok {next : Root} {sources : List KeySource}
    (ok : signRoot next sources = .ok signed) :
    ∃ role, next.roles .root = some role ∧ signed.signed = next ∧
      signed.signatures = (sources.map KeySource.keyId).toFinset.filter (· ∈ role.keyids) ∧
      role.threshold ≤ signed.signatures.card := by
  unfold signRoot at ok
  split at ok
  · cases ok
  · next role found =>
    dsimp only at ok
    split_ifs at ok with enough
    cases ok
    exact ⟨role, found, rfl, rfl, enough⟩

theorem meetsThreshold_of_signRoot {next : Root} {sources : List KeySource}
    (ok : signRoot next sources = .ok signed) :
    signed.signed.meetsThreshold signed.signatures = true := by
  obtain ⟨role, found, rfl, signatures, enough⟩ := signRoot_ok ok
  have all : signed.signatures.filter (· ∈ role.keyids) = signed.signatures := by
    rw [signatures, Finset.filter_filter]
    simp
  simpa [Root.meetsThreshold, found, all] using enough

theorem nextVersion_ok {current next : Nat} {role : String}
    (ok : nextVersion current role = .ok next) : next = current + 1 := by
  unfold nextVersion at ok
  split_ifs at ok
  exact (Except.ok.inj ok).symm

/-- What a republished root is made of. -/
theorem republishRoot_ok {now expiryDays : Int} {plan : Root → RoleKeys → Except String Plan}
    {old : Root} (ok : republishRoot now expiryDays plan old = .ok signed) :
    ∃ oldRootRole planned, old.roles .root = some oldRootRole ∧
      plan old oldRootRole = .ok planned ∧ signed.signed.version = old.version + 1 ∧
      signed.signed.roles = planned.roles ∧
        signRoot signed.signed planned.sources = .ok signed := by
  unfold republishRoot at ok
  split at ok
  · cases ok
  · next oldRootRole found =>
    obtain ⟨planned, plans, ok⟩ := Except.bind_ok_iff.mp ok
    obtain ⟨version, bumps, ok⟩ := Except.bind_ok_iff.mp ok
    obtain ⟨expires, -, ok⟩ := Except.bind_ok_iff.mp ok
    obtain ⟨role, -, same, -⟩ := signRoot_ok ok
    refine ⟨oldRootRole, planned, found, plans, ?_, ?_, ?_⟩
    · rw [same]
      exact nextVersion_ok bumps
    · rw [same]
    · rw [same]
      exact ok

theorem performs_rotate {files : KeyFiles} {retained : List String} {newRootKey : String}
    {now expiryDays : Int} {root : Root} {next : SignedRoot}
    (ok : rotateRoot files retained newRootKey now expiryDays root = .ok next) :
    Performs (.rotate retained newRootKey now expiryDays) root next := by
  unfold rotateRoot at ok
  split_ifs at ok
  obtain ⟨oldRootRole, planned, found, plans, version, roles, signs⟩ := republishRoot_ok ok
  obtain ⟨kept, fresh, rotates⟩ := rotates_of_plan plans
  obtain ⟨role, named, -, signatures, -⟩ := signRoot_ok signs
  rw [roles, rotates.role] at named
  cases named
  refine ⟨version, meetsThreshold_of_signRoot signs, ?_, ?_⟩
  · rw [Root.rootThreshold, roles, rotates.role, Root.rootThreshold, found]
    rfl
  -- Only the kept keys count for the previous root.
  have counted : next.signatures.filter (· ∈ oldRootRole.keyids) = kept.toFinset := by
    ext id
    rw [signatures, rotates.signs]
    simp only [Finset.mem_filter, List.mem_toFinset, List.mem_append, List.mem_singleton]
    constructor
    · rintro ⟨⟨kept | rfl, -⟩, listed⟩
      · exact kept
      · exact absurd listed rotates.unlisted
    · exact fun member => ⟨⟨.inl member, .inl member⟩, rotates.listed id member⟩
  have size : kept.toFinset.card = retained.length := by
    rw [List.toFinset_card_of_nodup rotates.distinct, rotates.count]
  simp [Root.meetsThreshold, Root.rootThreshold, found, counted, size, Ceremony.Continues]

theorem performs_renew {files : KeyFiles} {rootKeys : List String} {now expiryDays : Int}
    {root : Root} {next : SignedRoot}
    (ok : renewRoot files rootKeys now expiryDays root = .ok next) :
    Performs (.renew rootKeys now expiryDays) root next := by
  obtain ⟨oldRootRole, planned, found, plans, version, roles, signs⟩ := republishRoot_ok ok
  have renews := renews_of_plan plans
  obtain ⟨role, named, -, signatures, enough⟩ := signRoot_ok signs
  rw [roles, renews.roles, found] at named
  cases named
  refine ⟨version, meetsThreshold_of_signRoot signs, ?_, ?_⟩
  · rw [Root.rootThreshold, roles, renews.roles]
    rfl
  have all : next.signatures.filter (· ∈ oldRootRole.keyids) = next.signatures := by
    rw [signatures, Finset.filter_filter]
    simp
  simpa [Root.meetsThreshold, found, all, Ceremony.Continues] using enough

theorem performs_of_perform {files : KeyFiles} {ceremony : Ceremony} {root : Root}
    {next : SignedRoot} (ok : ceremony.perform files root = .ok next) :
    Performs ceremony root next := by
  cases ceremony with
  | rotate => exact performs_rotate ok
  | renew => exact performs_renew ok

theorem Performs.follow_iff {ceremony : Ceremony} {root : Root} {next : SignedRoot}
    (performs : Performs ceremony root next) :
    follow root next = some next.signed ↔ ceremony.Continues root.rootThreshold := by
  rw [← performs.previous]
  simp [follow, performs.version, performs.own]

/-! ## The chain -/

/-- Every client that trusts the first root or any published one can step to the latest. -/
def Walkable (root : Root) (chain : List SignedRoot) : Prop :=
  ∀ before after, before ++ after = chain →
    walk (latest root before) after = some (latest root chain)

theorem follow_eq {trusted reached : Root} {next : SignedRoot}
    (steps : follow trusted next = some reached) : reached = next.signed := by
  unfold follow at steps
  split_ifs at steps
  exact (Option.some.inj steps).symm

theorem walkable_cons {root : Root} {next : SignedRoot} {rest : List SignedRoot} :
    Walkable root (next :: rest) ↔
      follow root next = some next.signed ∧ Walkable next.signed rest := by
  constructor
  · intro walkable
    constructor
    · have whole := walkable [] (next :: rest) rfl
      obtain ⟨reached, steps, -⟩ := Option.bind_eq_some_iff.mp whole
      exact follow_eq steps ▸ steps
    · intro before after split
      exact walkable (next :: before) after (by rw [List.cons_append, split])
  · rintro ⟨steps, walkable⟩ before after split
    cases before with
    | nil =>
      rw [List.nil_append] at split
      rw [split]
      exact Option.bind_eq_some_iff.mpr ⟨next.signed, steps, walkable [] rest rfl⟩
    | cons first others =>
      cases split
      exact walkable others after rfl

/-- **The chain can be walked exactly if every rotation retains enough keys**: over every sequence
of successful ceremonies from any root, a client that trusts any earlier version can step to the
latest if and only if each rotation retains at least as many keys as the root threshold, which no
ceremony changes. -/
theorem chain_walkable_iff {root : Root} {calls : List (KeyFiles × Ceremony)}
    {chain : List SignedRoot} (ok : performAll calls root = .ok chain) :
    Walkable root chain ↔ ∀ call ∈ calls, call.2.Continues root.rootThreshold := by
  induction calls generalizing root chain with
  | nil =>
    cases ok
    refine ⟨fun _ => by simp, fun _ before after split => ?_⟩
    obtain ⟨rfl, rfl⟩ := List.append_eq_nil_iff.mp split
    rfl
  | cons call rest ih =>
    obtain ⟨next, performed, ok⟩ := Except.bind_ok_iff.mp ok
    obtain ⟨later, others, ok⟩ := Except.bind_ok_iff.mp ok
    cases ok
    have performs := performs_of_perform performed
    rw [walkable_cons, performs.follow_iff, ih others, performs.threshold, List.forall_mem_cons]

end Updatedc.Tuf

/-! ## A root that nobody can reach -/

namespace Updatedc.Tuf.Sample

/-- Key files named by one digit. -/
def files : KeyFiles
  | "1" => .ok ⟨1⟩
  | "2" => .ok ⟨2⟩
  | "3" => .ok ⟨3⟩
  | path => .error s!"reading key: {path}"

/-- Root keys 1 and 2, and one key for each online role. -/
def shared (threshold : Nat) : Root :=
  { specVersion := "1.0.0"
    consistentSnapshot := true
    version := 1
    expires := 0
    keys := {1, 2, 11, 12, 13}
    roles := fun
      | .root => some ⟨[1, 2], threshold⟩
      | .targets => some ⟨[11], 1⟩
      | .snapshot => some ⟨[12], 1⟩
      | .timestamp => some ⟨[13], 1⟩ }

/-- A single-signature root that is renewed and then rotated. -/
def calls : List (KeyFiles × Ceremony) :=
  [(files, .renew ["1", "3"] 0 365), (files, .rotate ["1"] "3" 0 365)]

theorem chain_walkable_iff_single :
    ∃ chain, performAll calls (shared 1) = .ok chain ∧ Walkable (shared 1) chain := by
  have ok : (performAll calls (shared 1)).toOption.isSome = true := by decide
  obtain ⟨chain, found⟩ := Option.isSome_iff_exists.mp ok
  have performed := Except.toOption_eq_some_iff.mp found
  refine ⟨chain, performed, (chain_walkable_iff performed).mpr ?_⟩
  intro call member
  rcases List.mem_cons.mp member with rfl | later
  · trivial
  · rw [List.mem_singleton.mp later]
    exact Nat.le_refl 1

/-- Two signatures are demanded and one key is retained: the rotation succeeds, and no client that
trusts the current root accepts what it published. -/
theorem rotation_strands_clients :
    ∃ next, rotateRoot files ["1"] "3" 0 365 (shared 2) = .ok next ∧
      follow (shared 2) next = none := by
  have ok : (rotateRoot files ["1"] "3" 0 365 (shared 2)).toOption.any
      (fun next => (follow (shared 2) next).isNone) = true := by decide
  obtain ⟨next, performed, stranded⟩ := Except.exists_of_any ok
  exact ⟨next, performed, Option.isNone_iff_eq_none.mp stranded⟩

end Updatedc.Tuf.Sample
