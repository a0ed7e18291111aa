import Updatedc.Contracts.Releases
import Updatedc.Lib.Except

/-!
# Routes through a release graph

`route` finds a shortest route and `routeVersions` every version on one. Here both are measured
against the graph itself: a version is *on a route* (`OnRoute`) when edges of one direction lead to
it from where the installation starts and from it to the target. `routeVersions` collects exactly
these (`mem_routeVersions_iff`), every hop `route` chooses is one of them whatever packages are
available (`onRoute_of_mem_route`), and what is on a route after a hop was on a route before it
(`OnRoute.of_hop`): edges advance strictly, so a hop never turns around.
-/

namespace Updatedc.Contracts

open Relation (ReflTransGen TransGen)

namespace ReleaseGraph

variable {self : ReleaseGraph} {direction : Direction} {source next version : String}

/-- The graph has this edge. -/
def Edge (self : ReleaseGraph) (direction : Direction) (source next : String) : Prop :=
  ∃ release, self.releases[next]? = some release ∧ source ∈ direction.predecessors release

theorem mem_successorsOf : next ∈ self.successorsOf direction source ↔
    self.Edge direction source next := by
  simp [successorsOf, Edge, Std.ExtTreeMap.mem_toList_iff_getElem?_eq_some]

theorem mem_predecessorsOf : source ∈ self.predecessorsOf direction next ↔
    self.Edge direction source next := by
  unfold predecessorsOf Edge
  cases self.releases[next]? <;> simp

theorem nodup_successorsOf : (self.successorsOf direction source).Nodup :=
  self.releases.nodup_keys_toList.sublist (List.filter_sublist.map _)

theorem nodup_predecessorsOf : (self.predecessorsOf direction next).Nodup := by
  unfold predecessorsOf
  cases self.releases[next]? with
  | none => exact List.nodup_nil
  | some release =>
    refine Std.ExtTreeSet.ordered_toList.imp fun {a b} before same => ?_
    simp [same] at before

/-! ## What validation establishes -/

section
variable [Semver]

/-- The facts a validated graph gives its searches. -/
structure Valid (graph : ReleaseGraph) : Prop where
  target : graph.target ∈ graph.releases
  /-- Edges start at declared releases, and move in their direction. -/
  edge : ∀ (direction : Direction) (source next : String), graph.Edge direction source next →
    source ∈ graph.releases ∧ ∃ a b, Identity.parseReleaseVersion source = some a ∧
      Identity.parseReleaseVersion next = some b ∧ direction.permits a b = true

theorem checkEdge_ok {parsed : Semver.Version}
    (ok : self.checkEdge version parsed direction source = .ok ()) :
    source ∈ self.releases ∧ ∃ a, Identity.parseReleaseVersion source = some a ∧
      direction.permits a parsed = true := by
  unfold checkEdge at ok
  split at ok
  · next a parse =>
    split_ifs at ok with undeclared backward
    refine ⟨?_, a, parse, by simpa using backward⟩
    exact Std.ExtTreeMap.contains_iff_mem.mp (by simpa using undeclared)
  · cases ok

theorem checkRelease_ok {packages after : List DigestText} {release : Release}
    (ok : self.checkRelease packages version release = .ok after) :
    ∃ b, Identity.parseReleaseVersion version = some b ∧
      ∀ direction, ∀ source ∈ direction.predecessors release,
        self.checkEdge version b direction source = .ok () := by
  unfold checkRelease at ok
  split at ok
  · next b exact =>
    have parse := (Option.filter_eq_some_iff.mp exact).1
    extract_lets rest at ok
    split_ifs at ok with refused
    · cases ok
    obtain ⟨_, upgrades, ok⟩ := Except.bind_ok_iff.mp ok
    obtain ⟨_, rollbacks, _⟩ := Except.bind_ok_iff.mp ok
    refine ⟨b, parse, fun direction source member => ?_⟩
    cases direction with
    | upgrade => exact Except.ok_of_mem_forM upgrades (Std.ExtTreeSet.mem_toList.mpr member)
    | rollback => exact Except.ok_of_mem_forM rollbacks (Std.ExtTreeSet.mem_toList.mpr member)
  · cases ok

theorem validate_ok (ok : self.validate = .ok ()) : self.Valid := by
  unfold validate at ok
  extract_lets rest at ok
  split_ifs at ok with refused
  · cases ok
  obtain ⟨reference, target, ok⟩ := Except.bind_ok_iff.mp ok
  obtain ⟨packages, checked, _⟩ := Except.bind_ok_iff.mp ok
  constructor
  · unfold targetReference at target
    split at target
    · next release found => exact Std.ExtTreeMap.mem_iff_isSome_getElem?.mpr (by simp [found])
    · cases target
  · rintro direction source next ⟨release, found, member⟩
    have entry := Std.ExtTreeMap.mem_toList_iff_getElem?_eq_some.mpr found
    obtain ⟨_, _, turn⟩ := Except.ok_of_mem_foldlM checked entry
    obtain ⟨b, parse, edges⟩ := checkRelease_ok turn
    obtain ⟨declared, a, from_, permitted⟩ := checkEdge_ok (edges direction source member)
    exact ⟨declared, a, b, from_, parse, permitted⟩

theorem Direction.permits_trans {a b c : Semver.Version} (first : direction.permits a b = true)
    (second : direction.permits b c = true) : direction.permits a c = true := by
  cases direction with
  | upgrade =>
    simp only [Direction.permits, beq_iff_eq] at first second ⊢
    exact Std.TransCmp.lt_trans first second
  | rollback =>
    simp only [Direction.permits, beq_iff_eq] at first second ⊢
    exact Std.TransCmp.gt_trans first second

/-- Along a path the versions move in its direction, from its first to its last. -/
theorem Valid.permits_of_path (valid : self.Valid)
    (path : TransGen (self.Edge direction) source next) :
    ∃ a b, Identity.parseReleaseVersion source = some a ∧
      Identity.parseReleaseVersion next = some b ∧ direction.permits a b = true := by
  induction path with
  | single edge => exact (valid.edge _ _ _ edge).2
  | tail _ edge before =>
    obtain ⟨a, b, first, middle, advances⟩ := before
    obtain ⟨-, b', c, middle', last, further⟩ := valid.edge _ _ _ edge
    cases middle.symm.trans middle'
    exact ⟨a, c, first, last, Direction.permits_trans advances further⟩

theorem Valid.acyclic (valid : self.Valid) (path : TransGen (self.Edge direction) source next) :
    source ≠ next := by
  rintro rfl
  obtain ⟨a, b, first, last, advances⟩ := valid.permits_of_path path
  cases first.symm.trans last
  cases direction <;> simp [Direction.permits, Std.ReflCmp.compare_self] at advances

/-- A version from which edges of a direction lead to the target is routed in that direction. -/
theorem Valid.direction_eq (valid : self.Valid)
    (path : TransGen (self.Edge direction) source self.target) :
    self.direction (some source) = direction := by
  obtain ⟨a, b, first, last, advances⟩ := valid.permits_of_path path
  unfold ReleaseGraph.direction
  simp only [first, last]
  cases direction <;> simp_all [Direction.permits]

omit [Semver] in
theorem mem_of_path (start : source ∈ self.releases)
    (path : ReflTransGen (self.Edge direction) source next) : next ∈ self.releases := by
  cases path with
  | refl => exact start
  | tail _ edge =>
    obtain ⟨release, found, -⟩ := edge
    exact Std.ExtTreeMap.mem_iff_isSome_getElem?.mpr (by simp [found])

end

/-! ## The search -/

/-- An edge the search may follow: its release is allowed. -/
def Hop (self : ReleaseGraph) (direction : Direction) (allowed : String → Bool)
    (source next : String) : Prop :=
  self.Edge direction source next ∧ allowed next = true

/-- The parents lead back from a version along hops to a start, along this path. -/
inductive Chain (hop : String → String → Prop) (starts : List String)
    (parents : BTreeMap String (Option String)) : String → List String → Prop where
  | start {version : String} : version ∈ starts → parents[version]? = some none →
      Chain hop starts parents version [version]
  | hop {source version : String} {path : List String} : parents[version]? = some (some source) →
      hop source version → Chain hop starts parents source path →
      Chain hop starts parents version (path ++ [version])

namespace Chain

variable {hop : String → String → Prop} {starts path : List String}
  {parents later : BTreeMap String (Option String)} {installed : Option String}

theorem mono (chain : Chain hop starts parents version path)
    (kept : ∀ k ∈ parents, later[k]? = parents[k]?) : Chain hop starts later version path := by
  induction chain with
  | start member root =>
    refine .start member ((kept _ ?_).trans root)
    exact Std.ExtTreeMap.mem_iff_isSome_getElem?.mpr (by simp [root])
  | hop parent leads _ before =>
    refine .hop ((kept _ ?_).trans parent) leads before
    exact Std.ExtTreeMap.mem_iff_isSome_getElem?.mpr (by simp [parent])

theorem end_mem (chain : Chain hop starts parents version path) : version ∈ path := by
  cases chain <;> simp

/-- What is on the path lies between a start and its end. -/
theorem between (chain : Chain hop starts parents version path) {w : String} (member : w ∈ path) :
    ∃ s ∈ starts, ReflTransGen hop s w ∧ ReflTransGen hop w version := by
  induction chain generalizing w with
  | start start _ =>
    cases List.mem_singleton.mp member
    exact ⟨_, start, .refl, .refl⟩
  | hop _ leads chain before =>
    rcases List.mem_append.mp member with earlier | last
    · obtain ⟨s, start, here, there⟩ := before earlier
      exact ⟨s, start, here, there.tail leads⟩
    · cases List.mem_singleton.mp last
      obtain ⟨s, start, here, -⟩ := before chain.end_mem
      exact ⟨s, start, here.tail leads, .refl⟩

/-- Walking back finds the whole path. -/
theorem walkBack (chain : Chain hop starts parents version path) {fuel : Nat}
    (enough : path.length ≤ fuel) :
    (ReleaseGraph.walkBack parents installed fuel (some version)).reverse =
      path.filter (some · ≠ installed) := by
  induction chain generalizing fuel with
  | start _ root =>
    obtain ⟨fuel, rfl⟩ : ∃ n, fuel = n + 1 := ⟨fuel - 1, by simp at enough; omega⟩
    rw [ReleaseGraph.walkBack, root]
    have stopped : ReleaseGraph.walkBack parents installed fuel none = [] := by
      cases fuel <;> rfl
    simp only [Option.join_some, stopped]
    split_ifs with same <;> simp [same]
  | hop parent _ _ before =>
    rw [List.length_append, List.length_singleton] at enough
    obtain ⟨fuel, rfl⟩ : ∃ n, fuel = n + 1 := ⟨fuel - 1, by omega⟩
    have earlier := before (Nat.le_of_succ_le_succ enough)
    rw [ReleaseGraph.walkBack, parent, List.filter_append, ← earlier]
    simp only [Option.join_some]
    split_ifs with same <;> simp [same]

end Chain

section
variable {allowed : String → Bool} {starts queue : List String}
  {parents : BTreeMap String (Option String)}

/-- What the search knows between two turns. -/
structure Searching (graph : ReleaseGraph) (direction : Direction) (allowed : String → Bool)
    (starts : List String) (parents : BTreeMap String (Option String)) (queue : List String) :
    Prop where
  explored : Worklist.Explored (graph.Hop direction allowed) starts.toFinset
    parents.keys.toFinset queue
  /-- The target would end the search, so it is still to come. -/
  awaited : graph.target ∈ parents → graph.target ∈ queue
  chained : ∀ version ∈ parents, ∃ path, path.length ≤ parents.size ∧
    Chain (graph.Hop direction allowed) starts parents version path

/-- The releases one turn finds. -/
def foundFrom (self : ReleaseGraph) (direction : Direction) (allowed : String → Bool)
    (parents : BTreeMap String (Option String)) (version : String) : List String :=
  (self.releases.toList.filter fun (next, release) =>
    allowed next && !parents.contains next &&
      (direction.predecessors release).contains version).map (·.1)

theorem mem_foundFrom : next ∈ self.foundFrom direction allowed parents version ↔
    self.Hop direction allowed version next ∧ next ∉ parents := by
  have absent : next ∉ parents ↔ parents.contains next = false := by
    rw [← Std.ExtTreeMap.contains_iff_mem, Bool.not_eq_true]
  simp only [foundFrom, Hop, Edge, List.mem_map, List.mem_filter, Prod.exists,
    exists_and_right, exists_eq_right, Std.ExtTreeMap.mem_toList_iff_getElem?_eq_some,
    Bool.and_eq_true, Bool.not_eq_true', Std.ExtTreeSet.contains_iff_mem, absent]
  constructor
  · rintro ⟨release, found, ⟨permitted, unseen⟩, accepts⟩
    exact ⟨⟨⟨release, found, accepts⟩, permitted⟩, unseen⟩
  · rintro ⟨⟨⟨release, found, accepts⟩, permitted⟩, unseen⟩
    exact ⟨release, found, ⟨permitted, unseen⟩, accepts⟩

theorem nodup_foundFrom : (self.foundFrom direction allowed parents version).Nodup :=
  self.releases.nodup_keys_toList.sublist (List.filter_sublist.map _)

/-- Marking what a turn finds. -/
def marked (parents : BTreeMap String (Option String)) (version : String) (found : List String) :
    BTreeMap String (Option String) :=
  found.foldl (fun parents next => parents.insert next (some version)) parents

theorem search_cons (fuel : Nat) (different : version ≠ self.target) :
    self.search direction allowed (fuel + 1) parents (version :: queue) =
      self.search direction allowed fuel
        (marked parents version (self.foundFrom direction allowed parents version))
        (queue ++ self.foundFrom direction allowed parents version) := by
  rw [search, if_neg different, marked, foundFrom, List.foldl_map]

variable {found : List String}

theorem getElem?_marked (k : String) :
    (marked parents version found)[k]? =
      if k ∈ found then some (some version) else parents[k]? :=
  BTreeMap.getElem?_foldl_insert _ _ _ _

theorem keys_marked (found : List String) :
    (marked parents version found).keys.toFinset = parents.keys.toFinset ∪ found.toFinset :=
  BTreeMap.keys_toFinset_foldl_insert _ _ _

theorem mem_marked {k : String} : k ∈ marked parents version found ↔ k ∈ parents ∨ k ∈ found := by
  rw [← BTreeMap.mem_keys_toFinset, keys_marked, Finset.mem_union, BTreeMap.mem_keys_toFinset,
    List.mem_toFinset]

/-- A turn leaves the parents it knew. -/
theorem getElem?_marked_foundFrom {k : String} (member : k ∈ parents) :
    (marked parents version (self.foundFrom direction allowed parents version))[k]? =
      parents[k]? := by
  rw [getElem?_marked, if_neg]
  exact fun again => (mem_foundFrom.mp again).2 member

theorem size_marked (distinct : found.Nodup) (fresh : ∀ next ∈ found, next ∉ parents) :
    (marked parents version found).size = parents.size + found.length := by
  rw [← BTreeMap.card_keys_toFinset, ← BTreeMap.card_keys_toFinset, keys_marked]
  exact Worklist.card_union_found distinct fun next member seen =>
    fresh next member (BTreeMap.mem_keys_toFinset.mp seen)

/-- One turn on a version that is not the target. -/
theorem Searching.step (known : self.Searching direction allowed starts parents (version :: queue))
    (different : version ≠ self.target) :
    self.Searching direction allowed starts
      (marked parents version (self.foundFrom direction allowed parents version))
      (queue ++ self.foundFrom direction allowed parents version) := by
  set found := self.foundFrom direction allowed parents version with found_eq
  have finds : ∀ next, next ∈ found ↔
      self.Hop direction allowed version next ∧ next ∉ parents := fun next => mem_foundFrom
  have kept : ∀ k ∈ parents, (marked parents version found)[k]? = parents[k]? := fun k member =>
    getElem?_marked_foundFrom member
  refine ⟨?_, ?_, ?_⟩
  · rw [keys_marked]
    refine known.explored.follow fun next => ?_
    rw [finds, BTreeMap.mem_keys_toFinset]
  · intro reached
    rcases mem_marked.mp reached with before | new
    · have queued := (List.mem_cons.mp (known.awaited before)).resolve_left different.symm
      exact List.mem_append_left _ queued
    · exact List.mem_append_right _ new
  · intro k member
    have size : (marked parents version found).size = parents.size + found.length :=
      size_marked nodup_foundFrom fun next new => ((finds next).mp new).2
    by_cases before : k ∈ parents
    · obtain ⟨path, short, chain⟩ := known.chained k before
      exact ⟨path, by omega, chain.mono kept⟩
    · -- A version found now hangs below the one this turn follows.
      have new := (mem_marked.mp member).resolve_left before
      have queued := known.explored.queued version List.mem_cons_self
      obtain ⟨path, short, chain⟩ := known.chained version (BTreeMap.mem_keys_toFinset.mp queued)
      refine ⟨path ++ [k], ?_, .hop ?_ ((finds k).mp new).1 (chain.mono kept)⟩
      · have := List.length_pos_of_mem new
        simp only [List.length_append, List.length_singleton]
        omega
      · rw [getElem?_marked, if_pos new]

theorem Hop.mem_releases (leads : self.Hop direction allowed source next) :
    next ∈ self.releases := by
  obtain ⟨⟨release, found, -⟩, -⟩ := leads
  exact Std.ExtTreeMap.mem_iff_isSome_getElem?.mpr (by simp [found])

theorem size_le_of_subset (within : ∀ k ∈ parents, k ∈ self.releases) :
    parents.size ≤ self.releases.size := by
  rw [← BTreeMap.card_keys_toFinset, ← BTreeMap.card_keys_toFinset]
  refine Finset.card_le_card fun k member => ?_
  exact BTreeMap.mem_keys_toFinset.mpr (within k (BTreeMap.mem_keys_toFinset.mp member))

/-- **The search finds a path to the target, or there is none.** -/
theorem search_spec (fuel : Nat) (known : self.Searching direction allowed starts parents queue)
    (within : ∀ k ∈ parents, k ∈ self.releases)
    (enough : queue.length + (self.releases.size - parents.size) < fuel) :
    (∃ final path, self.search direction allowed fuel parents queue = some final ∧
      path.length ≤ self.releases.size ∧
      Chain (self.Hop direction allowed) starts final self.target path) ∨
    self.search direction allowed fuel parents queue = none ∧
      ∀ s ∈ starts, ¬ ReflTransGen (self.Hop direction allowed) s self.target := by
  induction fuel generalizing parents queue with
  | zero => omega
  | succ fuel ih =>
    cases queue with
    | nil =>
      refine .inr ⟨rfl, fun s start path => ?_⟩
      -- Nothing is queued, so a reachable target would have been met.
      have reached := known.explored.mem_iff.mpr ⟨s, List.mem_toFinset.mpr start, path⟩
      exact List.not_mem_nil (known.awaited (BTreeMap.mem_keys_toFinset.mp reached))
    | cons version queue =>
      by_cases same : version = self.target
      · have queued := known.explored.queued version List.mem_cons_self
        obtain ⟨path, short, chain⟩ :=
          known.chained version (BTreeMap.mem_keys_toFinset.mp queued)
        refine .inl ⟨parents, path, by rw [search, if_pos same], ?_, same ▸ chain⟩
        exact short.trans (size_le_of_subset within)
      · rw [search_cons fuel same]
        have size : (marked parents version
            (self.foundFrom direction allowed parents version)).size =
            parents.size + (self.foundFrom direction allowed parents version).length :=
          size_marked nodup_foundFrom fun next new => (mem_foundFrom.mp new).2
        have within' : ∀ k ∈ marked parents version
            (self.foundFrom direction allowed parents version), k ∈ self.releases := by
          intro k member
          rcases mem_marked.mp member with before | new
          · exact within k before
          · exact (mem_foundFrom.mp new).1.mem_releases
        refine ih (known.step same) within' ?_
        have room := size_le_of_subset within'
        rw [List.length_append]
        rw [List.length_cons] at enough
        omega

/-- The search as `route` starts it. -/
theorem search_starts (distinct : starts.Nodup) (declared : ∀ s ∈ starts, s ∈ self.releases) :
    let parents := starts.foldl (fun parents start => parents.insert start none) ∅
    (∃ final path, self.search direction allowed (self.releases.size + 1) parents starts =
        some final ∧ path.length ≤ self.releases.size ∧
      Chain (self.Hop direction allowed) starts final self.target path) ∨
    self.search direction allowed (self.releases.size + 1) parents starts = none ∧
      ∀ s ∈ starts, ¬ ReflTransGen (self.Hop direction allowed) s self.target := by
  intro parents
  have mem : ∀ k, k ∈ parents ↔ k ∈ starts := fun k => by
    rw [Std.ExtTreeMap.mem_iff_isSome_getElem?, BTreeMap.getElem?_foldl_insert]
    by_cases member : k ∈ starts <;> simp [member]
  have keys : parents.keys.toFinset = starts.toFinset := by
    ext k
    rw [BTreeMap.mem_keys_toFinset, mem, List.mem_toFinset]
  have size : parents.size = starts.length := by
    rw [← BTreeMap.card_keys_toFinset, keys, List.toFinset_card_of_nodup distinct]
  have within : ∀ k ∈ parents, k ∈ self.releases := fun k member => declared k ((mem k).mp member)
  refine search_spec _ ⟨?_, (mem _).mp, ?_⟩ within ?_
  · rw [keys]
    exact .start starts
  · intro version member
    refine ⟨[version], ?_, .start ((mem version).mp member) ?_⟩
    · rw [size, List.length_singleton]
      exact List.length_pos_of_mem ((mem version).mp member)
    · rw [BTreeMap.getElem?_foldl_insert, if_pos ((mem version).mp member)]
  · have room := size_le_of_subset within
    omega

end

/-! ## Routes -/

section
variable {installed : Option String} {available : String → Release → Bool} {hops : List String}

/-- Where a route may start. -/
def Starts (self : ReleaseGraph) (installed : Option String) (start : String) : Prop :=
  match installed with
  | some version => start = version
  | none => ∃ release, self.releases[start]? = some release ∧ release.installable = true

/-- The availability of a version, as the search asks for it. -/
def allows (self : ReleaseGraph) (available : String → Release → Bool) (version : String) : Bool :=
  (self.releases[version]?).any (available version)

/-- The queue `route` begins with. -/
def startsFrom (self : ReleaseGraph) (installed : Option String)
    (available : String → Release → Bool) : List String :=
  match installed with
  | some version => [version]
  | none => (self.releases.toList.filter fun (version, release) =>
      release.installable && self.allows available version).map (·.1)

theorem starts_of_mem_startsFrom (start : source ∈ self.startsFrom installed available) :
    self.Starts installed source := by
  cases installed with
  | some version => exact List.mem_singleton.mp start
  | none =>
    obtain ⟨⟨version, release⟩, member, rfl⟩ := List.mem_map.mp start
    obtain ⟨member, passes⟩ := List.mem_filter.mp member
    refine ⟨release, Std.ExtTreeMap.mem_toList_iff_getElem?_eq_some.mp member, ?_⟩
    exact (Bool.and_eq_true_iff.mp passes).1

theorem nodup_startsFrom : (self.startsFrom installed available).Nodup := by
  cases installed with
  | some version => exact List.nodup_singleton version
  | none => exact self.releases.nodup_keys_toList.sublist (List.filter_sublist.map _)

theorem Starts.mem_releases (declared : ∀ version, installed = some version →
    version ∈ self.releases) (start : self.Starts installed source) : source ∈ self.releases := by
  cases installed with
  | some version =>
    cases start
    exact declared _ rfl
  | none =>
    obtain ⟨release, found, -⟩ := start
    exact Std.ExtTreeMap.mem_iff_isSome_getElem?.mpr (by simp [found])

variable [Semver]

/-- A route that is asked for: the graph is valid, and an installed version is declared. -/
structure Routable (graph : ReleaseGraph) (installed : Option String) : Prop where
  validated : graph.validate = .ok ()
  declared : ∀ version, installed = some version → version ∈ graph.releases

theorem routable_of_route (ok : self.route installed available = .ok hops) :
    self.Routable installed := by
  unfold route at ok
  obtain ⟨⟨⟩, validated, ok⟩ := Except.bind_ok_iff.mp ok
  refine ⟨validated, ?_⟩
  rintro version rfl
  by_contra undeclared
  have absent : (!self.releases.contains version) = true := by
    rwa [Bool.not_eq_true', ← Bool.not_eq_true, Std.ExtTreeMap.contains_iff_mem]
  simp only [absent, if_true] at ok
  cases ok

/-- A routable installation that is not at the target is answered by the search. -/
theorem Routable.route_eq (routable : self.Routable installed)
    (away : installed ≠ some self.target) (available : String → Release → Bool) :
    self.route installed available =
      match self.search (self.direction installed) (self.allows available)
        (self.releases.size + 1) ((self.startsFrom installed available).foldl
          (fun parents start => parents.insert start none) ∅)
        (self.startsFrom installed available) with
      | some parents => .ok
          (walkBack parents installed (self.releases.size + 1) (some self.target)).reverse
      | none =>
        let source := installed.getD "a fresh installation"
        .error s!"no supported route from {source} to {self.target}" := by
  unfold route
  rw [routable.validated]
  cases installed with
  | none => rfl
  | some version =>
    have present : (!self.releases.contains version) = false := by
      rw [Bool.not_eq_false', Std.ExtTreeMap.contains_iff_mem]
      exact routable.declared version rfl
    have different : version ≠ self.target := fun same => away (by rw [same])
    simp only [present, different, if_false]
    rfl

theorem Routable.route_target (routable : self.Routable (some self.target))
    (available : String → Release → Bool) : self.route (some self.target) available = .ok [] := by
  have present : (!self.releases.contains self.target) = false := by
    rw [Bool.not_eq_false', Std.ExtTreeMap.contains_iff_mem]
    exact routable.declared _ rfl
  unfold route
  rw [routable.validated]
  simp only [present, if_true]
  rfl

theorem Routable.search (routable : self.Routable installed) (direction : Direction)
    (available : String → Release → Bool) :
    let starts := self.startsFrom installed available
    let parents := starts.foldl (fun parents start => parents.insert start none) ∅
    let result := self.search direction (self.allows available) (self.releases.size + 1) parents
      starts
    (∃ final path, result = some final ∧ path.length ≤ self.releases.size ∧
      Chain (self.Hop direction (self.allows available)) starts final self.target path) ∨
    result = none ∧ ∀ s ∈ starts,
      ¬ ReflTransGen (self.Hop direction (self.allows available)) s self.target :=
  search_starts nodup_startsFrom fun _ start =>
    (starts_of_mem_startsFrom start).mem_releases routable.declared

/-- Edges of the installation's direction lead from a start to this version, and from it to the
target. -/
structure OnRoute (graph : ReleaseGraph) (installed : Option String) (version : String) :
    Prop where
  ahead : some version ≠ installed
  reached : ∃ start, graph.Starts installed start ∧
    ReflTransGen (graph.Edge (graph.direction installed)) start version
  leads : ReflTransGen (graph.Edge (graph.direction installed)) version graph.target

/-- **Every hop of a route is on a route, whatever is available.** -/
theorem onRoute_of_mem_route (ok : self.route installed available = .ok hops)
    (member : version ∈ hops) : self.OnRoute installed version := by
  have routable := routable_of_route ok
  by_cases away : installed = some self.target
  · subst away
    rw [routable.route_target] at ok
    cases ok
    cases member
  rw [routable.route_eq away] at ok
  rcases routable.search (self.direction installed) available
    with ⟨final, path, found, short, chain⟩ | ⟨missing, -⟩
  · rw [found] at ok
    cases ok
    rw [chain.walkBack (short.trans (Nat.le_succ _)), List.mem_filter] at member
    obtain ⟨s, start, here, there⟩ := chain.between member.1
    refine ⟨by simpa using member.2, ⟨s, starts_of_mem_startsFrom start, ?_⟩, ?_⟩
    · exact here.lift id fun _ _ hop => hop.1
    · exact there.lift id fun _ _ hop => hop.1
  · rw [missing] at ok
    cases ok

omit [Semver] in
theorem allows_all (declared : version ∈ self.releases) :
    self.allows (fun _ _ => true) version = true := by
  obtain ⟨release, found⟩ := Option.isSome_iff_exists.mp
    (Std.ExtTreeMap.mem_iff_isSome_getElem?.mp declared)
  simp [allows, found]

omit [Semver] in
theorem Starts.mem_startsFrom (start : self.Starts installed source) :
    source ∈ self.startsFrom installed fun _ _ => true := by
  cases installed with
  | some version => exact List.mem_singleton.mpr start
  | none =>
    obtain ⟨release, found, installable⟩ := start
    refine List.mem_map.mpr ⟨(source, release), List.mem_filter.mpr ⟨?_, ?_⟩, rfl⟩
    · exact Std.ExtTreeMap.mem_toList_iff_getElem?_eq_some.mpr found
    · have declared : source ∈ self.releases :=
        Std.ExtTreeMap.mem_iff_isSome_getElem?.mpr (by simp [found])
      simp [installable, allows_all declared]

/-- With every package available, a route is found where the edges have one. -/
theorem Routable.route_of_path (routable : self.Routable installed)
    (start : self.Starts installed source)
    (path : ReflTransGen (self.Edge (self.direction installed)) source self.target) :
    ∃ hops, self.route installed (fun _ _ => true) = .ok hops := by
  by_cases away : installed = some self.target
  · subst away
    exact ⟨[], routable.route_target _⟩
  rw [routable.route_eq away]
  rcases routable.search (self.direction installed) fun _ _ => true
    with ⟨final, -, found, -⟩ | ⟨-, unreachable⟩
  · exact ⟨_, by rw [found]⟩
  · refine absurd ?_ (unreachable source start.mem_startsFrom)
    refine path.lift id fun _ next edge => ⟨edge, allows_all ?_⟩
    obtain ⟨release, found, -⟩ := edge
    exact Std.ExtTreeMap.mem_iff_isSome_getElem?.mpr (by simp [found])

theorem OnRoute.reached_from (onRoute : self.OnRoute (some source) version) :
    ReflTransGen (self.Edge (self.direction (some source))) source version := by
  obtain ⟨start, rfl, path⟩ := onRoute.reached
  exact path

/-- A target that is already installed has nothing ahead of it. -/
theorem Valid.not_onRoute_target (valid : self.Valid) :
    ¬ self.OnRoute (some self.target) version := by
  intro onRoute
  rcases Relation.reflTransGen_iff_eq_or_transGen.mp onRoute.reached_from with same | moved
  · exact onRoute.ahead (by rw [same])
  · exact valid.acyclic (moved.trans_left onRoute.leads) rfl

/-- What is on a route from a version on a route is on that route. -/
theorem OnRoute.trans (valid : self.Valid) (onRoute : self.OnRoute installed version)
    (further : self.OnRoute (some version) next) : self.OnRoute installed next := by
  have away : version ≠ self.target := by
    rintro rfl
    exact valid.not_onRoute_target further
  obtain ⟨start, starts, here⟩ := onRoute.reached
  -- The version still moves the way the installation does, so its hops continue that path.
  have same := valid.direction_eq
    ((Relation.reflTransGen_iff_eq_or_transGen.mp onRoute.leads).resolve_left away.symm)
  have there := further.reached_from
  have onward := further.leads
  rw [same] at there onward
  refine ⟨?_, ⟨start, starts, here.trans there⟩, onward⟩
  rintro rfl
  cases starts
  have moved := (Relation.reflTransGen_iff_eq_or_transGen.mp here).resolve_left fun same =>
    onRoute.ahead (by rw [same])
  exact valid.acyclic (moved.trans_left there) rfl

/-- **What is on a route after a hop was on a route before it.** -/
theorem OnRoute.of_hop (onRoute : self.OnRoute installed version)
    (ok : self.route (some version) available = .ok hops) (member : next ∈ hops) :
    self.OnRoute installed next :=
  onRoute.trans (validate_ok (routable_of_route ok).validated) (onRoute_of_mem_route ok member)

/-! ## The versions on routes -/

omit [Semver] in
theorem mem_reachable_iff {starts : List String}
    (distinct : starts.Nodup) (declared : ∀ s ∈ starts, s ∈ self.releases) :
    version ∈ Worklist.explore (self.successorsOf direction) (self.releases.size + 1)
        starts.toFinset starts ↔
      ∃ s ∈ starts, ReflTransGen (self.Edge direction) s version := by
  have closed : ∀ v ∈ self.releases.keys.toFinset, ∀ w ∈ self.successorsOf direction v,
      w ∈ self.releases.keys.toFinset := by
    intro v _ w leads
    obtain ⟨release, found, -⟩ := mem_successorsOf.mp leads
    rw [BTreeMap.mem_keys_toFinset]
    exact Std.ExtTreeMap.mem_iff_isSome_getElem?.mpr (by simp [found])
  rw [Worklist.mem_explore_iff (fun _ => nodup_successorsOf) closed distinct
    (fun s start => BTreeMap.mem_keys_toFinset.mpr (declared s (List.mem_toFinset.mp start)))
    (by rw [BTreeMap.card_keys_toFinset]; exact Nat.lt_succ_self _)]
  simp only [mem_successorsOf]

theorem Valid.mem_reachesTarget_iff (valid : self.Valid) :
    version ∈ Worklist.explore (self.predecessorsOf direction) (self.releases.size + 1)
        {self.target} [self.target] ↔
      ReflTransGen (self.Edge direction) version self.target := by
  have closed : ∀ v ∈ self.releases.keys.toFinset, ∀ w ∈ self.predecessorsOf direction v,
      w ∈ self.releases.keys.toFinset := by
    intro v _ w leads
    rw [BTreeMap.mem_keys_toFinset]
    exact (valid.edge _ _ _ (mem_predecessorsOf.mp leads)).1
  have found := Worklist.mem_explore_iff (fun _ => nodup_predecessorsOf) closed
    (List.nodup_singleton self.target)
    (fun s start => by
      rw [BTreeMap.mem_keys_toFinset]
      rw [List.mem_toFinset, List.mem_singleton] at start
      exact start ▸ valid.target)
    (by rw [BTreeMap.card_keys_toFinset]; exact Nat.lt_succ_self _) (v := version)
  rw [List.toFinset_cons, List.toFinset_nil, insert_empty_eq] at found
  rw [found, ← Relation.reflTransGen_swap]
  simp only [mem_predecessorsOf, List.mem_singleton, exists_eq_left]

/-- The versions can be collected wherever something is on a route. -/
theorem Routable.routeVersions_of_onRoute (routable : self.Routable installed)
    (onRoute : self.OnRoute installed version) :
    ∃ versions, self.routeVersions installed = .ok versions := by
  obtain ⟨start, starts, path⟩ := onRoute.reached
  obtain ⟨hops, routed⟩ := routable.route_of_path starts (path.trans onRoute.leads)
  unfold routeVersions
  rw [routed]
  by_cases here : installed = some self.target
  · exact ⟨_, if_pos here⟩
  · exact ⟨_, if_neg here⟩

/-- Where `routeVersions` looks from. -/
def roots (self : ReleaseGraph) (installed : Option String) : List String :=
  match installed with
  | some version => [version]
  | none => (self.releases.toList.filter fun (_, release) => release.installable).map (·.1)

omit [Semver] in
theorem mem_roots : source ∈ self.roots installed ↔ self.Starts installed source := by
  cases installed with
  | some version => exact List.mem_singleton
  | none => simp [roots, Starts, Std.ExtTreeMap.mem_toList_iff_getElem?_eq_some]

omit [Semver] in
theorem nodup_roots : (self.roots installed).Nodup := by
  cases installed with
  | some version => exact List.nodup_singleton version
  | none => exact self.releases.nodup_keys_toList.sublist (List.filter_sublist.map _)

/-- **`routeVersions` collects exactly the versions on routes.** -/
theorem mem_routeVersions_iff {versions : List String}
    (ok : self.routeVersions installed = .ok versions) :
    version ∈ versions ↔ self.OnRoute installed version := by
  unfold routeVersions at ok
  obtain ⟨hops, routed, ok⟩ := Except.bind_ok_iff.mp ok
  have routable := routable_of_route routed
  have valid := validate_ok routable.validated
  extract_lets direction reachesTarget starts reachable at ok
  split_ifs at ok with here
  · cases ok
    subst here
    exact ⟨fun member => absurd member List.not_mem_nil,
      fun onRoute => (valid.not_onRoute_target onRoute).elim⟩
  have reached : version ∈ reachable ↔
      ∃ s ∈ self.roots installed, ReflTransGen (self.Edge direction) s version :=
    mem_reachable_iff nodup_roots
      fun s start => (mem_roots.mp start).mem_releases routable.declared
  have leads : version ∈ reachesTarget ↔ _ := valid.mem_reachesTarget_iff
  cases ok
  simp only [List.mem_filter, Std.ExtTreeMap.mem_keys, Bool.and_eq_true, decide_eq_true_eq,
    reached, leads, mem_roots]
  constructor
  · rintro ⟨-, ⟨here, there⟩, ahead⟩
    exact ⟨ahead, here, there⟩
  · rintro ⟨ahead, ⟨s, start, path⟩, there⟩
    refine ⟨?_, ⟨⟨s, start, path⟩, there⟩, ahead⟩
    exact mem_of_path (start.mem_releases routable.declared) path

end

end ReleaseGraph

end Updatedc.Contracts
