import Updatedc.Contracts.Routes
import Updatedc.Lib.BreadthFirst

/-!
# Plans over a release graph

What a route *is* (`IsRoute`): versions joined by declared edges of the one direction, every one of
them available, up to the target. `route` finds one whenever there is one, and it finds the least:
the shortest, and of the shortest the lexicographically least. Being least is inherited by the rest
of a route, so an agent that plans again after every hop follows the plan it started with; and where
what is available changes on the way, it still moves only forward, over versions that
`routeVersions` has named from the start.
-/

namespace Updatedc.Contracts

open Relation (ReflTransGen TransGen)
open BreadthFirst (key Layered)

namespace ReleaseGraph

variable {self : ReleaseGraph} {direction : Direction} {allowed : String → Bool}
  {source next version : String} {starts queue : List String}
  {parents : BTreeMap String (Option String)}

/-! ## The search finds a least path -/

namespace Chain

variable {hop : String → String → Prop} {path other : List String}

/-- The parents determine the path. -/
theorem unique (chain : Chain hop starts parents version path)
    (also : Chain hop starts parents version other) : path = other := by
  induction chain generalizing other with
  | start _ root =>
    cases also with
    | start => rfl
    | hop parent => cases root.symm.trans parent
  | hop parent _ _ ih =>
    cases also with
    | start _ root => cases root.symm.trans parent
    | hop parent' _ chain =>
      cases parent.symm.trans parent'
      rw [ih chain]

/-- The path runs along hops from a start to its end. -/
theorem isChain (chain : Chain hop starts parents version path) :
    path.IsChain hop ∧ (∀ s ∈ path.head?, s ∈ starts) ∧ path.getLast? = some version := by
  induction chain with
  | start member _ => simpa using member
  | @hop source version path parent leads chain ih =>
    obtain ⟨edges, start, last⟩ := ih
    refine ⟨List.isChain_append.mpr ⟨edges, List.isChain_singleton _, ?_⟩, ?_, by simp⟩
    · rintro x ends y ⟨⟩
      cases last.symm.trans ends
      exact leads
    · intro s head
      refine start s ?_
      cases path with
      | nil => cases last
      | cons => exact head

/-- A path from the one start does not come back to it. -/
theorem from_start (chain : Chain hop [source] parents version path) :
    ∃ hops, path = source :: hops ∧ source ∉ hops ∧ parents[source]? = some none := by
  induction chain with
  | start member root =>
    cases List.mem_singleton.mp member
    exact ⟨[], rfl, List.not_mem_nil, root⟩
  | @hop _ version _ parent _ _ ih =>
    obtain ⟨hops, rfl, fresh, root⟩ := ih
    refine ⟨hops ++ [version], rfl, ?_, root⟩
    rw [List.mem_append, List.mem_singleton, not_or]
    refine ⟨fresh, ?_⟩
    rintro rfl
    cases root.symm.trans parent

end Chain

theorem sorted_keys_of_filter (p : String × Release → Bool) :
    ((self.releases.toList.filter p).map (·.1)).Pairwise (· < ·) := by
  rw [List.pairwise_map]
  refine (Std.ExtTreeMap.ordered_keys_toList.sublist List.filter_sublist).imp fun {a b} less => ?_
  exact compare_lt_iff_lt.mp less

theorem sorted_startsFrom {installed : Option String} {available : String → Release → Bool} :
    (self.startsFrom installed available).Pairwise (· < ·) := by
  cases installed with
  | some version => exact List.pairwise_singleton _ _
  | none => exact sorted_keys_of_filter _

/-- What the search knows of the paths it has met: they are its parents' and come in order. -/
structure Ordered (graph : ReleaseGraph) (direction : Direction) (allowed : String → Bool)
    (starts : List String) (parents : BTreeMap String (Option String)) (done queue : List String)
    (path : String → List String) : Prop where
  layered : Layered (graph.Hop direction allowed) starts done queue path
  met : ∀ version, version ∈ parents ↔ version ∈ done ++ queue
  chained : ∀ version ∈ parents,
    Chain (graph.Hop direction allowed) starts parents version (path version)

/-- One turn. -/
theorem Ordered.step {done : List String} {path : String → List String}
    (known : self.Ordered direction allowed starts parents done (version :: queue) path) :
    let found := self.foundFrom direction allowed parents version
    self.Ordered direction allowed starts (marked parents version found) (done ++ [version])
      (queue ++ found) fun v => if v ∈ parents then path v else path version ++ [v] := by
  intro found
  have finds : ∀ next, next ∈ found ↔
      self.Hop direction allowed version next ∧ next ∉ parents := fun next => mem_foundFrom
  have here : version ∈ parents :=
    (known.met version).mpr (List.mem_append_right _ List.mem_cons_self)
  have kept : ∀ k ∈ parents, (marked parents version found)[k]? = parents[k]? :=
    fun k member => getElem?_marked_foundFrom member
  refine ⟨?_, ?_, ?_⟩
  · refine known.layered.follow (sorted_keys_of_filter _) (fun next => ?_) (fun u old => ?_)
      fun w new => ?_
    · rw [finds, known.met]
    · exact if_pos ((known.met u).mpr old)
    · exact if_neg ((finds w).mp new).2
  · intro v
    rw [mem_marked, known.met]
    simp [or_assoc]
  · intro v member
    split_ifs with old
    · exact (known.chained v old).mono kept
    · have new := (mem_marked.mp member).resolve_left old
      refine .hop ?_ ((finds v).mp new).1 ((known.chained version here).mono kept)
      rw [getElem?_marked, if_pos new]

/-- **The path the search ends with is least.** -/
theorem search_least (fuel : Nat) {done : List String} {path : String → List String}
    (known : self.Ordered direction allowed starts parents done queue path)
    {final : BTreeMap String (Option String)}
    (found : self.search direction allowed fuel parents queue = some final) :
    ∃ path, Chain (self.Hop direction allowed) starts final self.target path ∧
      ∀ other : List String, (∀ s ∈ other.head?, s ∈ starts) →
        other.IsChain (self.Hop direction allowed) → other.getLast? = some self.target →
          key path ≤ key other := by
  induction fuel generalizing parents queue done path with
  | zero => cases found
  | succ fuel ih =>
    cases queue with
    | nil => cases found
    | cons version queue =>
      by_cases same : version = self.target
      · rw [search, if_pos same] at found
        obtain rfl : parents = final := Option.some.inj found
        have here : version ∈ parents :=
          (known.met version).mpr (List.mem_append_right _ List.mem_cons_self)
        refine ⟨path version, same ▸ known.chained version here, fun other start leads ends => ?_⟩
        rcases known.layered.least start leads ends with ⟨-, bound⟩ | bound
        · rwa [← same] at bound
        · exact bound
      · rw [search_cons fuel same] at found
        exact ih known.step found

theorem ordered_starts (sorted : starts.Pairwise (· < ·)) :
    self.Ordered direction allowed starts
      (starts.foldl (fun parents start => parents.insert start none) ∅) [] starts
      fun version => [version] := by
  have mem : ∀ k, k ∈ starts.foldl (fun (parents : BTreeMap String (Option String)) start =>
      parents.insert start none) ∅ ↔ k ∈ starts := fun k => by
    rw [Std.ExtTreeMap.mem_iff_isSome_getElem?, BTreeMap.getElem?_foldl_insert]
    by_cases member : k ∈ starts <;> simp [member]
  refine ⟨.start sorted, mem, fun version member => ?_⟩
  refine .start ((mem version).mp member) ?_
  rw [BTreeMap.getElem?_foldl_insert, if_pos ((mem version).mp member)]

/-! ## Routes -/

section
variable [Semver] {installed : Option String} {available : String → Release → Bool}
  {hops other : List String}

/-- **A route**: declared edges of the one direction that source and target fix, from the installed
version, or from an installable release where nothing is installed, over available releases up to
the target. -/
structure IsRoute (graph : ReleaseGraph) (installed : Option String)
    (available : String → Release → Bool) (hops : List String) : Prop where
  leads : (installed.toList ++ hops).IsChain (graph.Edge (graph.direction installed))
  first : installed = none → ∀ first ∈ hops.head?, ∃ release,
    graph.releases[first]? = some release ∧ release.installable = true
  available : ∀ hop ∈ hops, ∃ release, graph.releases[hop]? = some release ∧
    available hop release = true
  ends : (installed.toList ++ hops).getLast? = some graph.target

omit [Semver] in
theorem allows_iff : self.allows available version = true ↔
    ∃ release, self.releases[version]? = some release ∧ available version release = true := by
  unfold allows
  rw [Option.any_eq_true]

omit [Semver] in
theorem mem_startsFrom_none : source ∈ self.startsFrom none available ↔
    (∃ release, self.releases[source]? = some release ∧ release.installable = true) ∧
      self.allows available source = true := by
  simp only [startsFrom, List.mem_map, List.mem_filter, Bool.and_eq_true, Prod.exists,
    exists_and_right, exists_eq_right, Std.ExtTreeMap.mem_toList_iff_getElem?_eq_some]
  constructor
  · rintro ⟨release, found, installable, permitted⟩
    exact ⟨⟨release, found, installable⟩, permitted⟩
  · rintro ⟨⟨release, found, installable⟩, permitted⟩
    exact ⟨release, found, installable, permitted⟩

/-- A route is a path of the search. -/
theorem IsRoute.path (route : self.IsRoute installed available hops) :
    (∀ s ∈ (installed.toList ++ hops).head?, s ∈ self.startsFrom installed available) ∧
      (installed.toList ++ hops).IsChain
        (self.Hop (self.direction installed) (self.allows available)) := by
  have allowed : ∀ hop ∈ hops, self.allows available hop = true := fun hop member =>
    allows_iff.mpr (route.available hop member)
  constructor
  · cases installed with
    | some version =>
      rintro s ⟨⟩
      exact List.mem_singleton_self _
    | none =>
      intro s head
      refine mem_startsFrom_none.mpr ⟨route.first rfl s head, allowed s ?_⟩
      exact List.mem_of_mem_head? head
  · -- Every edge of the path ends at a hop.
    have within : ∀ {l : List String}, l.IsChain (self.Edge (self.direction installed)) →
        (∀ hop ∈ l.tail, self.allows available hop = true) →
          l.IsChain (self.Hop (self.direction installed) (self.allows available)) := by
      intro l edges permitted
      induction l with
      | nil => exact .nil
      | cons first rest ih =>
        cases rest with
        | nil => exact .singleton _
        | cons second rest =>
          rw [List.isChain_cons_cons] at edges ⊢
          refine ⟨⟨edges.1, permitted second List.mem_cons_self⟩, ih edges.2 fun hop member => ?_⟩
          exact permitted hop (List.mem_cons_of_mem _ member)
    refine within route.leads fun hop member => allowed hop ?_
    cases installed with
    | some version => exact member
    | none => exact List.mem_of_mem_tail member

/-- A path of the search is a route, after the installed version. -/
theorem isRoute_of_path {path : List String}
    (start : ∀ s ∈ path.head?, s ∈ self.startsFrom installed available)
    (leads : path.IsChain (self.Hop (self.direction installed) (self.allows available)))
    (ends : path.getLast? = some self.target) (split : path = installed.toList ++ hops) :
    self.IsRoute installed available hops := by
  subst split
  refine ⟨leads.imp fun _ _ hop => hop.1, ?_, fun hop member => ?_, ends⟩
  · rintro rfl first head
    exact (mem_startsFrom_none.mp (start first head)).1
  · rw [← allows_iff]
    -- A hop is where the path starts, or where one of its edges ends.
    rcases hops.mem_iff_append.mp member with ⟨before, after, rfl⟩
    rcases List.eq_nil_or_concat (installed.toList ++ before) with first | ⟨init, last, earlier⟩
    · rw [List.append_eq_nil_iff] at first
      have fresh : installed = none := Option.toList_eq_nil_iff.mp first.1
      subst fresh
      rw [first.2] at start
      exact (mem_startsFrom_none.mp (start hop rfl)).2
    · rw [← List.append_assoc, earlier, List.concat_eq_append, List.append_assoc] at leads
      have edge := (List.isChain_append.mp leads).2.1
      exact (List.isChain_cons_cons.mp edge).1.2

/-- **A route that is found is a least one.** -/
theorem least_of_route (ok : self.route installed available = .ok hops) :
    self.IsRoute installed available hops ∧
      ∀ other, self.IsRoute installed available other → key hops ≤ key other := by
  have routable := routable_of_route ok
  have valid := validate_ok routable.validated
  by_cases away : installed = some self.target
  · subst away
    rw [routable.route_target] at ok
    cases ok
    refine ⟨⟨.singleton _, nofun, nofun, rfl⟩, fun other _ => ?_⟩
    exact BreadthFirst.key_le_iff.mpr (by cases other <;> simp)
  rw [routable.route_eq away] at ok
  rcases routable.search (self.direction installed) available
    with ⟨final, path, found, short, chain⟩ | ⟨missing, -⟩
  · rw [found] at ok
    cases ok
    rw [chain.walkBack (short.trans (Nat.le_succ _))]
    obtain ⟨least, chain', smallest⟩ := search_least _ (ordered_starts sorted_startsFrom) found
    rw [← chain.unique chain'] at smallest
    obtain ⟨leads, start, ends⟩ := chain.isChain
    -- The path is the installed version, if there is one, and then the hops.
    have split : path = installed.toList ++ path.filter (some · ≠ installed) := by
      cases installed with
      | none => simp
      | some version =>
        obtain ⟨hops, rfl, fresh, -⟩ := chain.from_start
        have kept : hops.filter (some · ≠ some version) = hops :=
          List.filter_eq_self.mpr fun hop member => by
            have different : hop ≠ version := fun same => fresh (same ▸ member)
            simpa using different
        rw [List.filter_cons_of_neg (by simp), kept]
        rfl
    refine ⟨isRoute_of_path start leads ends split, fun other route => ?_⟩
    have bound := smallest _ route.path.1 route.path.2 route.ends
    rw [split] at bound
    cases installed with
    | none => exact bound
    | some version => exact BreadthFirst.key_cons_le_iff.mp bound
  · rw [missing] at ok
    cases ok

/-- Where there is a route, one is found. -/
theorem Routable.route_of_isRoute (routable : self.Routable installed)
    (route : self.IsRoute installed available other) :
    ∃ hops, self.route installed available = .ok hops := by
  by_cases away : installed = some self.target
  · subst away
    exact ⟨[], routable.route_target _⟩
  rw [routable.route_eq away]
  rcases routable.search (self.direction installed) available
    with ⟨final, -, found, -⟩ | ⟨-, unreachable⟩
  · exact ⟨_, by rw [found]⟩
  · obtain ⟨start, leads⟩ := route.path
    obtain ⟨last, ends⟩ := Option.isSome_iff_exists.mp (Option.isSome_of_mem route.ends)
    cases path : installed.toList ++ other with
    | nil => simp [path] at ends
    | cons first rest =>
      rw [path] at start leads
      refine absurd ?_ (unreachable first (start first rfl))
      refine List.relationReflTransGen_of_exists_isChain_cons rest leads ?_
      have ends := route.ends
      rw [path] at ends
      exact Option.some.inj ((List.getLast?_eq_some_getLast _).symm.trans ends)

/-- **Shortest and deterministic**: over every valid graph, from every declared version or none, and
whatever is available, `route` succeeds exactly when there is a route. What it returns is a route of
least length and lexicographically least of that length, and it is empty exactly at the target. -/
theorem route_least (routable : self.Routable installed) (available : String → Release → Bool) :
    ((∃ hops, self.route installed available = .ok hops) ↔
      ∃ hops, self.IsRoute installed available hops) ∧
    ∀ hops, self.route installed available = .ok hops →
      self.IsRoute installed available hops ∧
      (∀ other, self.IsRoute installed available other →
        hops.length ≤ other.length ∧ (hops.length = other.length → hops ≤ other)) ∧
      (hops = [] ↔ installed = some self.target) := by
  refine ⟨⟨fun ⟨hops, ok⟩ => ⟨hops, (least_of_route ok).1⟩, fun ⟨_, route⟩ =>
    routable.route_of_isRoute route⟩, fun hops ok => ?_⟩
  obtain ⟨route, least⟩ := least_of_route ok
  refine ⟨route, fun other also => ?_, ?_, ?_⟩
  · rcases BreadthFirst.key_le_iff.mp (least other also) with shorter | ⟨length, le⟩
    · exact ⟨shorter.le, fun same => absurd same shorter.ne⟩
    · exact ⟨length.le, fun _ => le⟩
  · rintro rfl
    have ends := route.ends
    cases installed with
    | none => cases ends
    | some version => exact ends
  · rintro rfl
    rw [routable.route_target] at ok
    exact (Except.ok.inj ok).symm

/-! ## Planning again -/

variable {rest : List String}

omit [Semver] in
theorem Valid.transGen_of_isChain (leads : (version :: next :: rest).IsChain (self.Edge direction))
    (ends : (version :: next :: rest).getLast? = some self.target) :
    TransGen (self.Edge direction) version self.target := by
  obtain ⟨edge, leads⟩ := List.isChain_cons_cons.mp leads
  refine .head' edge (List.relationReflTransGen_of_exists_isChain_cons rest leads ?_)
  rw [List.getLast?_cons_cons] at ends
  exact Option.some.inj ((List.getLast?_eq_some_getLast _).symm.trans ends)

/-- **The rest of a plan is the plan from its first hop.** -/
theorem route_rest {first : String} (ok : self.route installed available = .ok (first :: rest)) :
    self.route (some first) available = .ok rest := by
  obtain ⟨route, least⟩ := least_of_route ok
  have validated := (routable_of_route ok).validated
  obtain ⟨release, declared, -⟩ := route.available first List.mem_cons_self
  have routable : self.Routable (some first) := by
    refine ⟨validated, ?_⟩
    rintro _ ⟨⟩
    exact Std.ExtTreeMap.mem_iff_isSome_getElem?.mpr (by simp [declared])
  obtain ⟨before, leads, joins⟩ := List.isChain_append.mp route.leads
  have ends : (first :: rest).getLast? = some self.target := by
    have ends := route.ends
    rwa [List.getLast?_append_of_ne_nil _ (List.cons_ne_nil _ _)] at ends
  cases rest with
  | nil =>
    cases ends
    exact routable.route_target _
  | cons second rest =>
    have same := (validate_ok validated).direction_eq (Valid.transGen_of_isChain leads ends)
    have onward : self.IsRoute (some first) available (second :: rest) := by
      refine ⟨by rwa [same], nofun, fun hop member => ?_, ends⟩
      exact route.available hop (List.mem_cons_of_mem _ member)
    obtain ⟨other, also⟩ := routable.route_of_isRoute onward
    obtain ⟨route', least'⟩ := least_of_route also
    -- Put after the first hop, the other plan is a route from the start.
    have whole : self.IsRoute installed available (first :: other) := by
      have leads' := route'.leads
      rw [same] at leads'
      refine ⟨List.isChain_append.mpr ⟨before, leads', joins⟩, route.first,
        fun hop member => ?_, ?_⟩
      · rcases List.mem_cons.mp member with rfl | later
        · exact route.available hop List.mem_cons_self
        · exact route'.available hop later
      · rw [List.getLast?_append_of_ne_nil _ (List.cons_ne_nil _ _)]
        exact route'.ends
    have bound := BreadthFirst.key_cons_le_iff.mp (least _ whole)
    rw [also, BreadthFirst.key_injective (le_antisymm bound (least' _ onward))]

/-- Hops that are each the first of a plan, made with what was available at the time. -/
inductive Replanned (graph : ReleaseGraph) : Option String → List String → Prop
  | stops {installed : Option String} : Replanned graph installed []
  | hops {installed : Option String} {available : String → Release → Bool} {first : String}
      {rest later : List String}
      (planned : graph.route installed available = .ok (first :: rest))
      (onward : Replanned graph (some first) later) : Replanned graph installed (first :: later)

namespace Replanned

theorem onRoute (walk : self.Replanned installed hops) {hop : String} (member : hop ∈ hops) :
    self.OnRoute installed hop := by
  induction walk with
  | stops => cases member
  | hops planned _ ih =>
    have first := onRoute_of_mem_route planned List.mem_cons_self
    rcases List.mem_cons.mp member with rfl | later
    · exact first
    · exact first.trans (validate_ok (routable_of_route planned).validated) (ih later)

theorem nodup (walk : self.Replanned installed hops) : (installed.toList ++ hops).Nodup := by
  have distinct : hops.Nodup := by
    induction walk with
    | stops => exact List.nodup_nil
    | hops _ onward ih =>
      refine List.nodup_cons.mpr ⟨fun again => ?_, ih⟩
      exact (onward.onRoute again).ahead rfl
  cases installed with
  | none => exact distinct
  | some version =>
    exact List.nodup_cons.mpr ⟨fun again => (walk.onRoute again).ahead rfl, distinct⟩

theorem length_le (routable : self.Routable installed) (walk : self.Replanned installed hops) :
    (installed.toList ++ hops).length ≤ self.releases.size := by
  have valid := validate_ok routable.validated
  rw [← List.toFinset_card_of_nodup walk.nodup, ← BTreeMap.card_keys_toFinset]
  refine Finset.card_le_card fun version member => BTreeMap.mem_keys_toFinset.mpr ?_
  rcases List.mem_append.mp (List.mem_toFinset.mp member) with source | hop
  · exact routable.declared version (Option.mem_toList.mp source)
  · obtain ⟨start, starts, path⟩ := (walk.onRoute hop).reached
    exact mem_of_path (starts.mem_releases routable.declared) path

end Replanned

/-- **Planning again after every hop agrees with the plan.** Over every valid graph: the plan from
the first hop of a plan is its rest. And hops that are each the first of a plan, whatever is
available from one to the next, visit only versions that `routeVersions` names from the source, none
of them twice, so that there are at most as many as declared releases; and they stop with a
successful plan only at the target. -/
theorem replanning_follows_plan (routable : self.Routable installed) :
    (∀ available first rest, self.route installed available = .ok (first :: rest) →
      self.route (some first) available = .ok rest) ∧
    ∀ hops, self.Replanned installed hops →
      (∀ hop ∈ hops, ∃ versions, self.routeVersions installed = .ok versions ∧ hop ∈ versions) ∧
      (installed.toList ++ hops).Nodup ∧
      (installed.toList ++ hops).length ≤ self.releases.size ∧
      ∀ available, self.route (installed.toList ++ hops).getLast? available = .ok [] →
        (installed.toList ++ hops).getLast? = some self.target := by
  refine ⟨fun _ _ _ ok => route_rest ok, fun hops walk => ⟨fun hop member => ?_, walk.nodup,
    walk.length_le routable, fun available stopped => ?_⟩⟩
  · have onRoute := walk.onRoute member
    obtain ⟨versions, ok⟩ := routable.routeVersions_of_onRoute onRoute
    exact ⟨versions, ok, (mem_routeVersions_iff ok).mpr onRoute⟩
  · have ends := (least_of_route stopped).1.ends
    rw [List.append_nil] at ends
    cases last : (installed.toList ++ hops).getLast? with
    | none => simp [last] at ends
    | some version =>
      rw [last] at ends
      exact ends

/-- Where more is available there still is a plan, and it is no worse. -/
theorem route_of_wider {wide : String → Release → Bool} (wider : available ≤ wide)
    (ok : self.route installed available = .ok hops) :
    ∃ hops', self.route installed wide = .ok hops' ∧ key hops' ≤ key hops := by
  obtain ⟨leads, first, usable, ends⟩ := (least_of_route ok).1
  have route : self.IsRoute installed wide hops := by
    refine ⟨leads, first, fun hop member => ?_, ends⟩
    obtain ⟨release, declared, usable⟩ := usable hop member
    exact ⟨release, declared, wider hop release usable⟩
  obtain ⟨hops', ok'⟩ := (routable_of_route ok).route_of_isRoute route
  exact ⟨hops', ok', (least_of_route ok').2 hops route⟩

/-- **A rejection changes only the plans that use what it rejects.** Over every graph and from every
source: where less is available, a plan whose hops still are is still the plan. -/
theorem plan_survives_rejections {wide : String → Release → Bool} (wider : available ≤ wide)
    (ok : self.route installed wide = .ok hops)
    (usable : ∀ hop ∈ hops, ∃ release, self.releases[hop]? = some release ∧
      available hop release = true) :
    self.route installed available = .ok hops := by
  obtain ⟨leads, first, -, ends⟩ := (least_of_route ok).1
  have route : self.IsRoute installed available hops := ⟨leads, first, usable, ends⟩
  obtain ⟨hops', ok'⟩ := (routable_of_route ok).route_of_isRoute route
  obtain ⟨_, also, le⟩ := route_of_wider wider ok'
  cases also.symm.trans ok
  rw [ok', BreadthFirst.key_injective (((least_of_route ok').2 hops route).antisymm le)]

/-- What is installed after some rounds, each of which installs the first hop of a plan made with
what is available by then. -/
def follow (self : ReleaseGraph) (available : Nat → String → Release → Bool)
    (installed : Option String) : Nat → Option String
  | 0 => installed
  | round + 1 =>
    match self.route (self.follow available installed round) (available round) with
    | .ok (first :: _) => some first
    | _ => self.follow available installed round

section
variable {available : Nat → String → Release → Bool}

theorem route_follow_succ {round : Nat}
    (ok : self.route (self.follow available installed round) (available round) = .ok hops) :
    self.route (self.follow available installed (round + 1)) (available round) =
      .ok hops.tail := by
  simp only [follow, ok]
  cases hops with
  | nil => exact ok
  | cons first rest => exact route_rest ok

/-- **A node with a plan arrives.** Over every graph and from every source: while what is available
stays so, though more may come and change every later plan, the node is at the target after as many
rounds as its first plan has hops, and from then on. -/
theorem follow_arrives (grows : Monotone available)
    (ok : self.route installed (available 0) = .ok hops) {round : Nat}
    (enough : hops.length ≤ round) : self.follow available installed round = some self.target := by
  have planned : ∀ n, ∃ left, left.length ≤ hops.length - n ∧
      self.route (self.follow available installed n) (available n) = .ok left := by
    intro n
    induction n with
    | zero => exact ⟨hops, le_rfl, ok⟩
    | succ n ih =>
      obtain ⟨left, le, ok⟩ := ih
      obtain ⟨next, ok', better⟩ := route_of_wider (grows n.le_succ) (route_follow_succ ok)
      refine ⟨next, ?_, ok'⟩
      have shorter := (BreadthFirst.key_le_iff.mp better).elim (·.le) (·.1.le)
      rw [List.length_tail] at shorter
      omega
  obtain ⟨left, le, ok'⟩ := planned round
  obtain rfl : left = [] := List.length_eq_zero_iff.mp (by omega)
  have ends := (least_of_route ok').1.ends
  cases place : self.follow available installed round with
  | none => simp [place] at ends
  | some version => simpa [place] using ends

end

/-! ## Every version on a route -/

omit [Semver] in
/-- A path that is reached continues backward to where it is reached from. -/
theorem exists_isChain_cons (path : ReflTransGen (self.Edge direction) source version)
    (leads : (version :: rest).IsChain (self.Edge direction)) :
    ∃ whole, (source :: whole).IsChain (self.Edge direction) ∧
      version :: rest <:+ source :: whole := by
  induction path using ReflTransGen.head_induction_on with
  | refl => exact ⟨rest, leads, List.suffix_rfl⟩
  | @head source middle edge _ ih =>
    obtain ⟨whole, leads, suffix⟩ := ih
    exact ⟨middle :: whole, List.isChain_cons_cons.mpr ⟨edge, leads⟩,
      suffix.trans (List.suffix_cons _ _)⟩

omit [Semver] in
theorem mem_releases_of_isChain {path : List String}
    (leads : (source :: path).IsChain (self.Edge direction)) (member : version ∈ path) :
    version ∈ self.releases := by
  induction path generalizing source with
  | nil => cases member
  | cons next path ih =>
    obtain ⟨⟨release, found, -⟩, leads⟩ := List.isChain_cons_cons.mp leads
    rcases List.mem_cons.mp member with rfl | later
    · exact Std.ExtTreeMap.mem_iff_isSome_getElem?.mpr (by simp [found])
    · exact ih leads later

theorem IsRoute.startsAt (route : self.IsRoute installed available hops)
    (head : (installed.toList ++ hops).head? = some source) : self.Starts installed source := by
  cases installed with
  | some version => exact (Option.some.inj head).symm
  | none => exact route.first rfl source head

/-- Edges from a start to the target are a route, with everything available. -/
theorem Routable.isRoute_of_isChain (routable : self.Routable installed) {path : List String}
    (start : self.Starts installed source)
    (leads : (source :: path).IsChain (self.Edge (self.direction installed)))
    (ends : (source :: path).getLast? = some self.target) :
    ∃ hops, self.IsRoute installed (fun _ _ => true) hops ∧
      installed.toList ++ hops = source :: path := by
  have permitted : ∀ version ∈ self.releases, ∃ release,
      self.releases[version]? = some release ∧ true = true := fun version declared =>
    have ⟨release, found⟩ := Option.isSome_iff_exists.mp
      (Std.ExtTreeMap.mem_iff_isSome_getElem?.mp declared)
    ⟨release, found, rfl⟩
  cases installed with
  | some version =>
    cases start
    refine ⟨path, ⟨leads, nofun, fun hop member => permitted hop ?_, ends⟩, rfl⟩
    exact mem_releases_of_isChain leads member
  | none =>
    refine ⟨source :: path, ⟨leads, ?_, fun hop member => permitted hop ?_, ends⟩, rfl⟩
    · rintro - first ⟨⟩
      exact start
    · rcases List.mem_cons.mp member with rfl | later
      · exact start.mem_releases routable.declared
      · exact mem_releases_of_isChain leads later

/-- A version is on a route when some route passes it, with everything available. -/
theorem Routable.onRoute_iff (routable : self.Routable installed) :
    self.OnRoute installed version ↔ some version ≠ installed ∧
      ∃ hops, self.IsRoute installed (fun _ _ => true) hops ∧
        version ∈ installed.toList ++ hops := by
  constructor
  · intro onRoute
    refine ⟨onRoute.ahead, ?_⟩
    obtain ⟨start, starts, here⟩ := onRoute.reached
    obtain ⟨rest, onward, last⟩ := List.exists_isChain_cons_of_relationReflTransGen onRoute.leads
    obtain ⟨whole, leads, before, joined⟩ := exists_isChain_cons here onward
    have ends : (start :: whole).getLast? = some self.target := by
      rw [← joined, List.getLast?_append_of_ne_nil _ (List.cons_ne_nil _ _),
        List.getLast?_eq_some_getLast (List.cons_ne_nil _ _), last]
    obtain ⟨hops, route, split⟩ := routable.isRoute_of_isChain starts leads ends
    refine ⟨hops, route, ?_⟩
    rw [split, ← joined]
    exact List.mem_append_right _ List.mem_cons_self
  · rintro ⟨ahead, hops, route, member⟩
    obtain ⟨before, after, split⟩ := List.mem_iff_append.mp member
    have leads := route.leads
    have ends := route.ends
    have starts : ∀ source, (installed.toList ++ hops).head? = some source →
        self.Starts installed source := fun _ head => route.startsAt head
    rw [split] at leads ends starts
    refine ⟨ahead, ?_, ?_⟩
    · cases before with
      | nil => exact ⟨version, starts version rfl, .refl⟩
      | cons start before =>
        refine ⟨start, starts start rfl, ?_⟩
        rw [List.append_cons] at leads
        refine List.relationReflTransGen_of_exists_isChain_cons (before ++ [version])
          (List.isChain_append.mp leads).1 ?_
        exact List.getLast_append_singleton (start :: before)
    · rw [List.getLast?_append_of_ne_nil _ (List.cons_ne_nil _ _),
        List.getLast?_eq_some_getLast (List.cons_ne_nil _ _)] at ends
      exact List.relationReflTransGen_of_exists_isChain_cons after
        (List.isChain_append.mp leads).2.1 (Option.some.inj ends)

omit [Semver] in
theorem sorted_filter_keys (p : String → Bool) :
    (self.releases.keys.filter p).Pairwise (· < ·) := by
  refine (Std.ExtTreeMap.ordered_keys.sublist List.filter_sublist).imp fun {a b} less => ?_
  exact compare_lt_iff_lt.mp less

/-- **Route coverage is exact.** `routeVersions` fails exactly when `route` does with everything
available, and as it does. Otherwise it is the set, in order, of the versions other than the source
that some complete path passes. -/
theorem routeVersions_exact (self : ReleaseGraph) (installed : Option String) :
    (∀ error, self.routeVersions installed = .error error ↔
      self.route installed (fun _ _ => true) = .error error) ∧
    ∀ versions, self.routeVersions installed = .ok versions →
      versions.Pairwise (· < ·) ∧
      ∀ version, version ∈ versions ↔ some version ≠ installed ∧
        ∃ hops, self.IsRoute installed (fun _ _ => true) hops ∧
          version ∈ installed.toList ++ hops := by
  refine ⟨fun error => ?_, fun versions ok => ?_⟩
  · unfold routeVersions
    cases self.route installed (fun _ _ => true) with
    | error other => rfl
    | ok hops =>
      by_cases here : installed = some self.target
      · simp [here, bind, Except.bind, pure, Except.pure]
      · simp [here, bind, Except.bind, pure, Except.pure]
  · have collected : ∀ version, version ∈ versions ↔ self.OnRoute installed version :=
      fun _ => mem_routeVersions_iff ok
    unfold routeVersions at ok
    obtain ⟨hops, routed, ok⟩ := Except.bind_ok_iff.mp ok
    refine ⟨?_, fun version => (collected version).trans (routable_of_route routed).onRoute_iff⟩
    extract_lets direction reachesTarget starts reachable at ok
    split_ifs at ok with here
    · cases ok
      exact List.Pairwise.nil
    · cases ok
      exact sorted_filter_keys _

end

end ReleaseGraph

end Updatedc.Contracts

/-! ## A graph with two ways -/

namespace Updatedc.Contracts.Sample

/-- Versions of one digit. -/
scoped instance digits : Semver where
  Version := Nat
  parse text := match text.toList with
    | [digit] => some digit.toNat
    | _ => none
  print version := String.ofList [Char.ofNat version]
  cmpPrecedence := compare
  precedence := Nat.instTransOrd

def entry (version : String) (package : Sha256) (sources : List String) (installable : Bool) :
    String × Release :=
  (version,
    { package := ⟨"p", .canonical package⟩, upgradeFrom := .ofList sources, installable })

/-- From 1 over 2 or 3 to 4; 3 can be installed. -/
def graph : ReleaseGraph where
  target := "4"
  releases := .ofList [entry "1" 1 [] false, entry "2" 2 ["1"] false, entry "3" 3 ["1"] true,
    entry "4" 4 ["2", "3"] false]

theorem graph_routable : graph.Routable (some "1") :=
  ⟨by decide, by rintro _ ⟨⟩; decide⟩

/-- Of the two ways, the plan takes the one over 2. -/
theorem graph_route : graph.route (some "1") (fun _ _ => true) = .ok ["2", "4"] := by
  decide

theorem route_least_graph :
    graph.IsRoute (some "1") (fun _ _ => true) ["2", "4"] ∧
      ∀ other, graph.IsRoute (some "1") (fun _ _ => true) other → 2 ≤ other.length := by
  have least := (ReleaseGraph.route_least graph_routable fun _ _ => true).2 _ graph_route
  exact ⟨least.1, fun other route => (least.2.1 other route).1⟩

/-- Where 2 is gone by the second plan, the node is already past it. -/
theorem replanning_follows_plan_graph :
    graph.route (some "2") (fun _ _ => true) = .ok ["4"] ∧
      ∃ versions, graph.routeVersions (some "1") = .ok versions ∧ "2" ∈ versions := by
  have follows := ReleaseGraph.replanning_follows_plan graph_routable
  have gone : graph.route (some "2") (fun version _ => version ≠ "2") = .ok ["4"] := by
    decide
  have walk : graph.Replanned (some "1") ["2", "4"] := .hops graph_route (.hops gone .stops)
  exact ⟨follows.1 _ _ _ graph_route, (follows.2 _ walk).1 "2" List.mem_cons_self⟩

theorem plan_survives_rejections_graph :
    graph.route (some "1") (fun version _ => version ≠ "3") = .ok ["2", "4"] :=
  ReleaseGraph.plan_survives_rejections (fun _ _ _ => rfl) graph_route (by decide)

theorem follow_arrives_graph : graph.follow (fun _ _ _ => true) (some "1") 2 = some "4" :=
  ReleaseGraph.follow_arrives monotone_const graph_route le_rfl

theorem routeVersions_exact_graph :
    graph.routeVersions none = .ok ["3", "4"] ∧
      ∃ hops, graph.IsRoute none (fun _ _ => true) hops ∧ "3" ∈ hops := by
  have collected : graph.routeVersions none = .ok ["3", "4"] := by decide
  have covers := (ReleaseGraph.routeVersions_exact graph none).2 _ collected
  exact ⟨collected, ((covers.2 "3").mp List.mem_cons_self).2⟩

end Updatedc.Contracts.Sample
