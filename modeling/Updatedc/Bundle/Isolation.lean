import Updatedc.Bundle.Staging
import Updatedc.Lib.Run

/-!
# Live attempts and sweeps (`updated/src/bundle.rs`)

- `Guarded`: **the owner file of a live attempt is the file it locked**. Opening creates the file
  if it is not there. So a sweep that opens a claim another sweep has just removed puts a new file
  under the claim name; the attempt then publishes that one, which nobody has locked, and the next
  sweep takes the live attempt for an abandoned one. `Guarded` holds in every run without such an
  open.
- `drain`: once every process has ended, **one sweep clears the root**, since no lock is left.
- `Exhausts`: **an attempt that fails has lost all its tries**. A sweep that has the claim locked
  when the attempt tries to lock it makes the first conflict final; without that, each conflict
  is a lost claim and costs one try.
-/

namespace Updatedc.Bundle.Staging

open Run

/-! ## Live attempts -/

/-- The attempt has opened its claim and not yet renamed it. -/
def Phase.claimed : Phase → Option Nat
  | opened inode | locked inode => some inode
  | _ => none

/-- **The attempt is alive**: its owner file is published and it holds that file's lock. -/
def Phase.alive : Phase → Option Nat
  | published inode | staged inode | moved inode | cleared inode => some inode
  | _ => none

variable {inode : Nat}

theorem Phase.held_of_alive {phase : Phase} (alive : phase.alive = some inode) :
    phase.held = some inode := by
  cases phase <;> first | exact alive | cases alive

theorem Phase.claimed_of_alive {phase : Phase} (alive : phase.alive = some inode) :
    phase.claimed = none := by
  cases phase <;> first | rfl | cases alive

def State.token (s : State) (id : Nat) : Token := .drawn id (s.attempts id).lost

/-- A sweep in this phase does not take the live attempt of this token for an abandoned one. -/
def SweepPhase.Spares (token : Token) (inode : Nat) : SweepPhase → Prop
  | doomed other | locked false other _ | released false other | cleared other => other ≠ token
  | opened false other found => other = token → found = inode
  | _ => True

structure Spares (token : Token) (inode : Nat) (sweep : Sweep) : Prop where
  regular : (.owner token, false) ∉ sweep.queue
  phase : sweep.phase.Spares token inode

/-- What protects an attempt. -/
structure Guarded (s : State) (id : Nat) : Prop where
  claim : ∀ inode, (s.attempts id).phase.claimed = some inode →
    s.root (.claim (s.token id)) = none ∨ s.root (.claim (s.token id)) = some (.file inode)
  owner : ∀ inode, (s.attempts id).phase.alive = some inode →
    s.root (.owner (s.token id)) = some (.file inode)
  directory : ∀ inode, (s.attempts id).phase = .staged inode →
    s.root (.directory (s.token id)) = some .other
  sweeps : ∀ inode, (s.attempts id).phase.alive = some inode →
    ∀ sweep, Spares (s.token id) inode (s.sweeps sweep)

/-- **No sweep opens the claim of an attempt that is still claiming it after another sweep has
removed it.** -/
def KeepsClaims (s : State) : Event → Prop
  | .sweep sweep => ∀ id rest, (s.sweeps sweep).phase = .idle →
    (s.sweeps sweep).queue = (.claim (s.token id), true) :: rest →
    (s.attempts id).phase.claimed ≠ none → s.root (.claim (s.token id)) ≠ none
  | _ => True

section Guarded

variable {s : State} {id : Nat}

/-- A step that leaves the attempt's state, and the entries that matter to it, as they are. -/
theorem Guarded.frame {s' : State} (guarded : Guarded s id)
    (attempt : s'.attempts id = s.attempts id)
    (claim : (s.attempts id).phase.claimed ≠ none →
      s'.root (.claim (s.token id)) = s.root (.claim (s.token id)) ∨
        s'.root (.claim (s.token id)) = none)
    (alive : ∀ inode, (s.attempts id).phase.alive = some inode →
      s'.root (.owner (s.token id)) = s.root (.owner (s.token id)) ∧
      s'.root (.directory (s.token id)) = s.root (.directory (s.token id)) ∧
      ∀ sweep, Spares (s.token id) inode (s'.sweeps sweep)) : Guarded s' id := by
  have token : s'.token id = s.token id := by rw [State.token, State.token, attempt]
  constructor
  · intro inode claimed
    rw [attempt] at claimed
    rw [token]
    rcases claim (by rw [claimed]; exact nofun) with same | gone
    · rw [same]
      exact guarded.claim inode claimed
    · exact .inl gone
  · intro inode living
    rw [attempt] at living
    rw [token, (alive inode living).1]
    exact guarded.owner inode living
  · intro inode staged
    rw [attempt] at staged
    rw [token, (alive inode (by rw [staged]; rfl)).2.1]
    exact guarded.directory inode staged
  · intro inode living sweep
    rw [attempt] at living
    rw [token]
    exact (alive inode living).2.2 sweep

theorem root_openOrCreate_of_ne {name other : Name} (different : name ≠ other) :
    (s.openOrCreate other).2.root name = s.root name :=
  (root_openOrCreate name other).resolve_right different

/-- Opening changes nothing under a name that has an entry already. -/
theorem root_openOrCreate_of_present {name other : Name}
    (present : name = other → s.root name ≠ none) :
    (s.openOrCreate other).2.root name = s.root name := by
  by_cases same : name = other
  · subst same
    unfold State.openOrCreate
    split
    · rfl
    · rfl
    · next missing => exact absurd missing (present rfl)
  · exact root_openOrCreate_of_ne same

/-- The listing of a sweep gets shorter, or its phase changes. -/
theorem Spares.next {token : Token} {sweep sweep' : Sweep} (spares : Spares token inode sweep)
    (shorter : sweep'.queue ⊆ sweep.queue) (phase : sweep'.phase.Spares token inode) :
    Spares token inode sweep' :=
  ⟨fun listed => spares.regular (shorter listed), phase⟩

/-- A sweep's step that replaces its own state and keeps what matters of the root. -/
theorem Guarded.setSweep {s₁ : State} {sweep : Nat} {sweep' : Sweep} (guarded : Guarded s id)
    (attempts : s₁.attempts = s.attempts) (sweeps : s₁.sweeps = s.sweeps)
    (shorter : sweep'.queue ⊆ (s.sweeps sweep).queue)
    (claim : (s.attempts id).phase.claimed ≠ none →
      s₁.root (.claim (s.token id)) = s.root (.claim (s.token id)) ∨
        s₁.root (.claim (s.token id)) = none)
    (alive : ∀ inode, (s.attempts id).phase.alive = some inode →
      s₁.root (.owner (s.token id)) = s.root (.owner (s.token id)) ∧
      s₁.root (.directory (s.token id)) = s.root (.directory (s.token id)) ∧
      sweep'.phase.Spares (s.token id) inode) :
    Guarded (s₁.setSweep sweep sweep') id := by
  refine guarded.frame (congrFun attempts id) claim fun inode living => ?_
  obtain ⟨owner, directory, phase⟩ := alive inode living
  refine ⟨owner, directory, fun other => ?_⟩
  show Spares _ _ (Function.update s₁.sweeps sweep sweep' other)
  by_cases same : other = sweep
  · rw [same, Function.update_self]
    exact (guarded.sweeps inode living sweep).next shorter phase
  · rw [Function.update_of_ne same, sweeps]
    exact guarded.sweeps inode living other

theorem root_erase_of_ne {name other : Name} (different : name ≠ other) :
    (s.setRoot other none).root name = s.root name := by
  rw [root_setRoot, if_neg different]

theorem guarded_takeStep (guarded : Guarded s id) {sweep : Nat} {rest : List (Name × Bool)}
    {listed : Name} {regular : Bool} (queue : (s.sweeps sweep).queue = (listed, regular) :: rest)
    (keeps : listed = .claim (s.token id) → regular = true →
      (s.attempts id).phase.claimed ≠ none → s.root (.claim (s.token id)) ≠ none) :
    Guarded (s.takeStep sweep rest listed regular) id := by
  have shorter : rest ⊆ (s.sweeps sweep).queue := by
    rw [queue]
    exact List.subset_cons_self _ _
  have notDirectory : ∀ claim token, Name.directory (s.token id) ≠ fileName claim token := by
    intro claim token
    cases claim <;> exact nofun
  -- A file that is opened is there already, if it matters to the attempt.
  have claimKept : regular = true → (s.attempts id).phase.claimed ≠ none →
      (s.openOrCreate listed).2.root (.claim (s.token id)) = s.root (.claim (s.token id)) :=
    fun file claimed => root_openOrCreate_of_present fun same => keeps same.symm file claimed
  have ownerKept : ∀ inode, (s.attempts id).phase.alive = some inode →
      (s.openOrCreate listed).2.root (.owner (s.token id)) = s.root (.owner (s.token id)) := by
    refine fun inode living => root_openOrCreate_of_present fun _ => ?_
    rw [guarded.owner inode living]
    exact Option.some_ne_none _
  have took := took_takeStep s sweep rest listed regular
  generalize s.takeStep sweep rest listed regular = s' at took ⊢
  cases took with
  | skipped =>
    exact guarded.setSweep rfl rfl shorter (fun _ => .inl rfl) fun _ _ => ⟨rfl, rfl, trivial⟩
  | doomed token _ unowned =>
    refine guarded.setSweep rfl rfl shorter (fun _ => .inl rfl) fun inode living => ⟨rfl, rfl, ?_⟩
    -- The owner file of a live attempt is there.
    rintro rfl
    rw [guarded.owner inode living] at unowned
    cases unowned
  | opened claim token found opens =>
    obtain ⟨attempts, sweeps⟩ := openOrCreate_processes (s := s) (fileName claim token)
    refine guarded.setSweep attempts sweeps shorter (fun claimed => .inl (claimKept rfl claimed))
      fun inode living =>
        ⟨ownerKept inode living, root_openOrCreate_of_ne (notDirectory claim token), ?_⟩
    cases claim with
    | true => trivial
    | false =>
      rintro rfl
      simp only [fileName, State.openOrCreate, Bool.false_eq_true, if_false,
        guarded.owner inode living] at opens
      exact (Option.some.inj opens).symm
  | refused claim token =>
    obtain ⟨attempts, sweeps⟩ := openOrCreate_processes (s := s) (fileName claim token)
    exact guarded.setSweep attempts sweeps shorter (fun claimed => .inl (claimKept rfl claimed))
      fun inode living =>
        ⟨ownerKept inode living, root_openOrCreate_of_ne (notDirectory claim token), trivial⟩
  | removed claim token =>
    refine guarded.setSweep rfl rfl shorter (fun _ => root_erase _ _) fun inode living =>
      ⟨root_erase_of_ne fun same => ?_, root_erase_of_ne (notDirectory claim token), trivial⟩
    -- A live attempt's owner file was listed as a regular file.
    refine (guarded.sweeps inode living sweep).regular ?_
    rw [queue, same]
    exact List.mem_cons_self

theorem guarded_sweepStep (locks : LocksHeld s) (guarded : Guarded s id) (sweep : Nat)
    (keeps : KeepsClaims s (.sweep sweep)) : Guarded (s.sweepStep sweep) id := by
  have spares : ∀ inode, (s.attempts id).phase.alive = some inode →
      (s.sweeps sweep).phase.Spares (s.token id) inode :=
    fun inode living => (guarded.sweeps inode living sweep).phase
  unfold State.sweepStep
  dsimp only
  split
  · next phase =>
    split
    · exact guarded
    · next name regular rest queue =>
      refine guarded_takeStep guarded queue ?_
      rintro rfl rfl claimed
      exact keeps id rest phase queue claimed
  · next token phase =>
    rw [phase] at spares
    refine guarded.setSweep rfl rfl (List.Subset.refl _) (fun _ => .inl (root_erase_of_ne nofun))
      fun inode living => ⟨root_erase_of_ne nofun, root_erase_of_ne ?_, trivial⟩
    exact fun same => spares inode living (Name.directory.inj same).symm
  · next claim token inode phase =>
    rw [phase] at spares
    split
    · next free =>
      refine guarded.setSweep rfl rfl (List.Subset.refl _) (fun _ => .inl rfl)
        fun own living => ⟨rfl, rfl, ?_⟩
      cases claim with
      | true => trivial
      | false =>
        -- The lock of a live attempt's owner file is taken.
        intro same
        have found : inode = own := spares own living same
        have taken := (locks own (.attempt id)).mpr (Phase.held_of_alive living)
        rw [← found, free] at taken
        cases taken
    · exact guarded.setSweep rfl rfl (List.Subset.refl _) (fun _ => .inl rfl)
        fun _ _ => ⟨rfl, rfl, trivial⟩
  · next claim token inode phase =>
    rw [phase] at spares
    refine guarded.setSweep rfl rfl (List.Subset.refl _) (fun _ => .inl rfl)
      fun own living => ⟨rfl, rfl, ?_⟩
    cases claim with
    | true => trivial
    | false => exact spares own living
  · next token phase =>
    exact guarded.setSweep rfl rfl (List.Subset.refl _) (fun _ => root_erase _ _)
      fun _ _ => ⟨root_erase_of_ne nofun, root_erase_of_ne nofun, trivial⟩
  · next token phase =>
    rw [phase] at spares
    refine guarded.setSweep rfl rfl (List.Subset.refl _) (fun _ => .inl (root_erase_of_ne nofun))
      fun inode living => ⟨root_erase_of_ne nofun, root_erase_of_ne ?_, spares inode living⟩
    exact fun same => spares inode living (Name.directory.inj same).symm
  · next token phase =>
    rw [phase] at spares
    refine guarded.setSweep rfl rfl (List.Subset.refl _) (fun _ => .inl (root_erase_of_ne nofun))
      fun inode living => ⟨root_erase_of_ne ?_, root_erase_of_ne nofun, trivial⟩
    exact fun same => spares inode living (Name.owner.inj same).symm

/-- What protects an attempt that is not alive yet. -/
theorem guarded_of_claim (alive : (s.attempts id).phase.alive = none)
    (claim : ∀ inode, (s.attempts id).phase.claimed = some inode →
      s.root (.claim (s.token id)) = none ∨ s.root (.claim (s.token id)) = some (.file inode)) :
    Guarded s id where
  claim := claim
  owner inode now := by
    rw [alive] at now
    cases now
  directory inode staged := by
    rw [staged] at alive
    cases alive
  sweeps inode now := by
    rw [alive] at now
    cases now

/-- An attempt that has nothing under its claim or its owner name any more, or not yet. -/
theorem guarded_of_quiet (claimed : (s.attempts id).phase.claimed = none)
    (alive : (s.attempts id).phase.alive = none) : Guarded s id := by
  refine guarded_of_claim alive fun inode now => ?_
  rw [claimed] at now
  cases now

/-- What protects a live attempt. -/
theorem guarded_of_alive (inode : Nat) (living : (s.attempts id).phase.alive = some inode)
    (owner : s.root (.owner (s.token id)) = some (.file inode))
    (directory : (s.attempts id).phase = .staged inode →
      s.root (.directory (s.token id)) = some .other)
    (sweeps : ∀ sweep, Spares (s.token id) inode (s.sweeps sweep)) : Guarded s id where
  claim other claimed := by
    rw [Phase.claimed_of_alive living] at claimed
    cases claimed
  owner other now := by
    rw [living] at now
    cases now
    exact owner
  directory other staged := by
    rw [staged] at living
    cases living
    exact directory staged
  sweeps other now := by
    rw [living] at now
    cases now
    exact sweeps

/-- Another attempt's step touches only names of its own. -/
theorem Guarded.other {s' : State} {actor : Nat} (guarded : Guarded s id)
    (frame : AttemptFrame s s' actor) (different : id ≠ actor) : Guarded s' id := by
  have root : ∀ name, name.token? = some (s.token id) → s'.root name = s.root name := by
    intro name mine
    refine frame.root name (.inr fun serial theirs => ?_)
    rw [mine] at theirs
    exact different (Token.drawn.inj (Option.some.inj theirs)).1
  refine guarded.frame (frame.others id different) (fun _ => .inl (root _ rfl)) ?_
  intro inode living
  refine ⟨root _ rfl, root _ rfl, fun sweep => ?_⟩
  rw [frame.sweeps]
  exact guarded.sweeps inode living sweep

/-- A sweep that does not know of an attempt's owner file and directory spares it. -/
theorem spares_of_unlisted {token : Token} {sweep : Sweep} (inode : Nat)
    (owner : ¬ sweep.Mentions (.owner token)) (directory : ¬ sweep.Mentions (.directory token)) :
    Spares token inode sweep := by
  refine ⟨fun listed => owner (.inl ⟨false, listed⟩), ?_⟩
  cases phase : sweep.phase with
  | idle => trivial
  | doomed other =>
    rintro rfl
    exact directory (.inr (by rw [phase]; rfl))
  | opened claim other found =>
    cases claim with
    | true => trivial
    | false =>
      rintro rfl
      exact absurd (.inr (by rw [phase]; rfl)) owner
  | locked claim other found =>
    cases claim with
    | true => trivial
    | false =>
      rintro rfl
      exact owner (.inr (by rw [phase]; rfl))
  | released claim other =>
    cases claim with
    | true => trivial
    | false =>
      rintro rfl
      exact owner (.inr (by rw [phase]; rfl))
  | cleared other =>
    rintro rfl
    exact owner (.inr (by rw [phase]; rfl))

@[simp] theorem token_setAttempt (attempt : Attempt) :
    (s.setAttempt id attempt).token id = .drawn id attempt.lost := by
  simp [State.token]

/-- A live attempt removes its own directory, or moves it away. -/
theorem guarded_clear (guarded : Guarded s id) {phase : Phase}
    (living : (s.attempts id).phase.alive = some inode) (alive : phase.alive = some inode)
    (unstaged : phase ≠ .staged inode) :
    Guarded ((s.setRoot (.directory (s.token id)) none).setAttempt id
      { s.attempts id with phase }) id := by
  refine guarded_of_alive inode (by simpa using alive) ?_ ?_ ?_
  · have kept : (s.setRoot (.directory (s.token id)) none).root (.owner (s.token id)) =
        s.root (.owner (s.token id)) := root_erase_of_ne nofun
    rw [token_setAttempt]
    exact kept.trans (guarded.owner inode living)
  · intro staged
    rw [attempts_setAttempt] at staged
    exact absurd staged unstaged
  · rw [token_setAttempt]
    exact guarded.sweeps inode living

theorem guarded_attemptStep_own (untouched : Untouched s) (guarded : Guarded s id) :
    Guarded (s.attemptStep id) id := by
  have reserved : ∀ name : Name, name.token? = some (s.token id) →
      (s.attempts id).phase.reserves name = true → Absent s name :=
    fun name mine reserves => untouched id name ⟨_, mine, .inr ⟨rfl, reserves⟩⟩
  unfold State.attemptStep
  dsimp only
  split
  · next phase =>
    have fresh : s.root (.claim (.drawn id (s.attempts id).lost)) = none :=
      (reserved _ rfl (by rw [phase]; rfl)).missing
    simp only [State.openOrCreate, fresh]
    refine guarded_of_claim (by simp [Phase.alive]) fun inode claimed => .inr ?_
    rw [attempts_setAttempt] at claimed
    cases claimed
    simp [State.token, State.setAttempt, State.setRoot]
  · next inode phase =>
    split
    · refine guarded_of_claim (by simp [Phase.alive]) fun own claimed => ?_
      rw [attempts_setAttempt] at claimed
      cases claimed
      simpa [State.token, State.setAttempt, State.setLock] using
        guarded.claim inode (by rw [phase]; rfl)
    · exact guarded_of_quiet (by simp [Phase.claimed]) (by simp [Phase.alive])
  · next inode phase =>
    split
    · next entry present =>
      -- Nobody but the attempt itself has put a file under the claim.
      have own : entry = .file inode := by
        have claim := guarded.claim inode (by rw [phase]; rfl)
        rw [State.token, present] at claim
        rcases claim with gone | same
        · cases gone
        · exact Option.some.inj same
      refine guarded_of_alive inode (by simp [Phase.alive]) ?_ (by simp)
        fun sweep => ?_
      · simp [State.token, State.setAttempt, State.setRoot, own]
      · rw [token_setAttempt]
        exact spares_of_unlisted inode
          ((reserved _ rfl (by rw [phase]; rfl)).unlisted sweep)
          ((reserved _ rfl (by rw [phase]; rfl)).unlisted sweep)
    · refine guarded_of_quiet ?_ ?_ <;> rw [attempts_setAttempt] <;> dsimp only <;>
        split <;> rfl
  · next inode phase =>
    have alive : (s.attempts id).phase.alive = some inode := by rw [phase]; rfl
    split
    · refine guarded_of_alive inode (by simp [Phase.alive]) ?_ (fun _ => ?_) ?_
      · simpa [State.token, State.setAttempt, State.setRoot] using guarded.owner inode alive
      · simp [State.token, State.setAttempt, State.setRoot]
      · rw [token_setAttempt]
        exact guarded.sweeps inode alive
    · exact guarded_of_quiet (by simp [Phase.claimed]) (by simp [Phase.alive])
  · next inode phase => exact guarded_clear guarded (by rw [phase]; rfl) rfl (by simp)
  · next inode phase => exact guarded_clear guarded (by rw [phase]; rfl) rfl (by simp)
  · exact guarded_of_quiet (by simp [Phase.claimed]) (by simp [Phase.alive])
  · exact guarded_of_quiet (by simp [Phase.claimed]) (by simp [Phase.alive])
  · exact guarded
  · exact guarded

theorem guarded_step (locks : LocksHeld s) (untouched : Untouched s)
    (guarded : ∀ id, Guarded s id) {event : Event} (keeps : KeepsClaims s event) (id : Nat) :
    Guarded (step s event) id := by
  cases event with
  | attempt actor =>
    by_cases same : id = actor
    · subst same
      exact guarded_attemptStep_own untouched (guarded id)
    · exact (guarded id).other (attemptFrame untouched actor) same
  | publish actor =>
    by_cases same : id = actor
    · subst same
      simp only [step, State.publishStep]
      split
      · next inode phase => exact guarded_clear (guarded id) (by rw [phase]; rfl) rfl (by simp)
      · exact guarded id
    · exact (guarded id).other (attemptFrame_publish actor) same
  | killAttempt actor =>
    by_cases same : id = actor
    · subst same
      have ended : ((step s (.killAttempt id)).attempts id).phase = .ended := by
        simp only [step, State.killAttempt]
        split <;> simp [State.setAttempt, State.setLock]
      exact guarded_of_quiet (by rw [ended]; rfl) (by rw [ended]; rfl)
    · exact (guarded id).other (attemptFrame_kill actor) same
  | list sweep name =>
    simp only [step, State.listStep]
    split
    · exact guarded id
    · next entry present =>
      refine (guarded id).frame rfl (fun _ => .inl rfl) fun inode living =>
        ⟨rfl, rfl, fun other => ?_⟩
      have spares := (guarded id).sweeps inode living other
      by_cases same : other = sweep
      · subst same
        simp only [State.setSweep, Function.update_self]
        refine ⟨fun listed => ?_, spares.phase⟩
        rcases List.mem_append.mp listed with before | new
        · exact spares.regular before
        · obtain ⟨named, irregular⟩ := Prod.mk.inj (List.mem_singleton.mp new)
          rw [← named, (guarded id).owner inode living] at present
          cases present
          cases irregular
      · simpa [State.setSweep, same] using spares
  | sweep sweep => exact guarded_sweepStep locks (guarded id) sweep keeps
  | killSweep sweep =>
    have cleared : ∀ (s₁ : State), s₁.attempts = s.attempts → s₁.root = s.root →
        s₁.sweeps = Function.update s.sweeps sweep {} → Guarded s₁ id := by
      intro s₁ attempts root sweeps
      refine (guarded id).frame (congrFun attempts id) (fun _ => .inl (congrFun root _))
        fun inode living => ⟨congrFun root _, congrFun root _, fun other => ?_⟩
      rw [sweeps]
      by_cases same : other = sweep
      · rw [same, Function.update_self]
        exact ⟨List.not_mem_nil, trivial⟩
      · rw [Function.update_of_ne same]
        exact (guarded id).sweeps inode living other
    simp only [step, State.killSweep]
    split <;> exact cleared _ rfl rfl rfl

end Guarded

/-! ## One undisturbed sweep -/

/-- A sweep that nobody disturbs is about to handle `queue`: what is left to remove is in it, or
is the directory of an owner file that is. -/
structure Draining (s : State) (id : Nat) (queue : List (Name × Bool)) : Prop where
  sweep : s.sweeps id = { queue }
  free : ∀ inode, s.locks inode = none
  listed : ∀ name, name.token? ≠ none → s.root name ≠ none →
    (∃ regular, (name, regular) ∈ queue) ∨
      ∃ token, name = .directory token ∧ s.root (.owner token) ≠ none
  regular : ∀ claim token flag, (fileName claim token, flag) ∈ queue →
    flag = true ∧ s.root (fileName claim token) ≠ some .other

/-- The sweep takes so many steps. -/
def sweeping (id : Nat) (s : State) : Nat → State
  | 0 => s
  | steps + 1 => sweeping id (s.sweepStep id) steps

section Clear

variable {s : State} {id : Nat} {rest : List (Name × Bool)}

/-- What one entry leaves: less of the root, and the rest of the listing. -/
theorem Draining.next {s' : State} {name : Name} {regular : Bool}
    (draining : Draining s id ((name, regular) :: rest)) (sweep : s'.sweeps id = { queue := rest })
    (free : ∀ inode, s'.locks inode = none)
    (root : ∀ other, s'.root other = s.root other ∨ s'.root other = none)
    (handled : s'.root name = none ∨
      ∃ token, name = .directory token ∧ s'.root (.owner token) ≠ none)
    (orphans : ∀ token, s'.root (.owner token) = none → s.root (.owner token) ≠ none →
      s'.root (.directory token) = none) : Draining s' id rest where
  sweep := sweep
  free := free
  listed other named present := by
    have before : s.root other ≠ none := by
      rcases root other with same | gone
      · rwa [← same]
      · exact absurd gone present
    rcases draining.listed other named before with ⟨flag, mem⟩ | ⟨token, here, owned⟩
    · rcases List.mem_cons.mp mem with head | tail
      · cases head
        rcases handled with gone | guarded
        · exact absurd gone present
        · exact .inr guarded
      · exact .inl ⟨flag, tail⟩
    · right
      refine ⟨token, here, fun orphaned => present ?_⟩
      rw [here]
      exact orphans token orphaned owned
  regular claim token flag mem := by
    obtain ⟨file, before⟩ := draining.regular claim token flag (List.mem_cons_of_mem _ mem)
    refine ⟨file, ?_⟩
    rcases root (fileName claim token) with same | gone
    · rwa [same]
    · rw [gone]
      exact nofun

@[simp] theorem sweeps_setSweep (sweep : Sweep) : (s.setSweep id sweep).sweeps id = sweep :=
  Function.update_self ..

/-- Handling a regular claim or owner file that can be locked: open, lock, unlock. -/
theorem sweeping_file {claim : Bool} {token : Token}
    (draining : Draining s id ((fileName claim token, true) :: rest)) :
    ∃ s₃, sweeping id s 3 = s₃ ∧
      s₃.sweeps id = { queue := rest, phase := .released claim token } ∧
      (∀ inode, s₃.locks inode = none) ∧
      ∀ other, other ≠ fileName claim token → s₃.root other = s.root other := by
  refine ⟨_, rfl, ?_⟩
  have opens : ∃ inode s₁, s.openOrCreate (fileName claim token) = (some inode, s₁) := by
    have file := (draining.regular _ _ _ List.mem_cons_self).2
    unfold State.openOrCreate
    split
    · exact ⟨_, _, rfl⟩
    · next other => exact absurd other file
    · exact ⟨_, _, rfl⟩
  obtain ⟨inode, s₁, opened⟩ := opens
  have first : s.sweepStep id =
      s₁.setSweep id { queue := rest, phase := .opened claim token inode } := by
    simp only [State.sweepStep, draining.sweep]
    cases claim with
    | true =>
      have found : s.openOrCreate (.claim token) = (some inode, s₁) := opened
      simp [State.takeStep, fileName, found]
    | false =>
      have found : s.openOrCreate (.owner token) = (some inode, s₁) := opened
      simp [State.takeStep, fileName, found]
  have locks : s₁.locks = s.locks := by
    have := (openOrCreate_locks (s := s) (fileName claim token)).1
    rwa [opened] at this
  have free : s₁.locks inode = none := by rw [locks]; exact draining.free inode
  simp only [sweeping, first]
  have second :
      (s₁.setSweep id { queue := rest, phase := .opened claim token inode }).sweepStep id =
      ((s₁.setSweep id { queue := rest, phase := .opened claim token inode }).setLock inode
        (some (.sweep id))).setSweep id { queue := rest, phase := .locked claim token inode } := by
    have unlocked : (s₁.setSweep id { queue := rest, phase := .opened claim token inode }).locks
        inode = none := free
    simp [State.sweepStep, unlocked]
  rw [second]
  refine ⟨by simp [State.sweepStep], fun other => ?_, fun other different => ?_⟩
  · by_cases same : other = inode
    · subst same
      simp [State.sweepStep, State.setLock, State.setSweep]
    · simp [State.sweepStep, State.setLock, State.setSweep, same, locks, draining.free]
  · have root : s₁.root other = s.root other := by
      have := root_openOrCreate_of_ne (s := s) different
      rwa [opened] at this
    simpa [State.sweepStep, State.setLock, State.setSweep] using root

theorem sweeping_add (first second : Nat) :
    sweeping id s (first + second) = sweeping id (sweeping id s first) second := by
  induction first generalizing s with
  | zero => rw [Nat.zero_add, sweeping]
  | succ first ih => rw [Nat.succ_add, sweeping, sweeping, ih]

/-- Handling an owner or claim file. -/
theorem drain_file {claim : Bool} {token : Token} {flag : Bool}
    (draining : Draining s id ((fileName claim token, flag) :: rest)) :
    ∃ steps, Draining (sweeping id s steps) id rest := by
  obtain ⟨rfl, -⟩ := draining.regular _ _ _ List.mem_cons_self
  obtain ⟨s₃, reached, sweep, free, root⟩ := sweeping_file draining
  cases claim with
  | true =>
    refine ⟨3 + 1, ?_⟩
    rw [sweeping_add, reached]
    have last : sweeping id s₃ 1 =
      (s₃.setRoot (.claim token) none).setSweep id { queue := rest } := by
      simp [sweeping, State.sweepStep, sweep]
    rw [last]
    refine draining.next (by simp) free (fun other => ?_) (.inl ?_) fun orphan gone owned => ?_
    · by_cases here : other = .claim token
      · right
        simp [State.setSweep, State.setRoot, here]
      · left
        simpa [State.setSweep, State.setRoot, here] using root other here
    · simp [State.setSweep, State.setRoot, fileName]
    · have kept : s₃.root (.owner orphan) = s.root (.owner orphan) := root _ (by simp [fileName])
      refine absurd ?_ owned
      rw [← kept]
      simpa [State.setSweep, State.setRoot] using gone
  | false =>
    refine ⟨3 + 2, ?_⟩
    rw [sweeping_add, reached]
    have last : sweeping id s₃ 2 =
        (((s₃.setRoot (.directory token) none).setSweep id
          { queue := rest, phase := .cleared token }).setRoot (.owner token) none).setSweep id
          { queue := rest } := by
      simp [sweeping, State.sweepStep, sweep, State.setRoot]
    rw [last]
    refine draining.next (by simp) free (fun other => ?_) (.inl ?_) fun orphan gone owned => ?_
    · by_cases here : other = .owner token ∨ other = .directory token
      · right
        rcases here with rfl | rfl <;> simp [State.setSweep, State.setRoot]
      · left
        rw [not_or] at here
        simpa [State.setSweep, State.setRoot, here.1, here.2] using root other here.1
    · simp [State.setSweep, State.setRoot, fileName]
    · by_cases same : orphan = token
      · subst same
        simp [State.setSweep, State.setRoot]
      · have kept : s₃.root (.owner orphan) = s.root (.owner orphan) :=
          root _ fun here => same (Name.owner.inj here)
        refine absurd ?_ owned
        rw [← kept]
        simpa [State.setSweep, State.setRoot, Function.update_apply, same] using gone

/-- An undisturbed sweep gets past the first entry of its listing. -/
theorem drain_entry {name : Name} {flag : Bool}
    (draining : Draining s id ((name, flag) :: rest)) :
    ∃ steps, Draining (sweeping id s steps) id rest := by
  have same : ∀ other, s.root other = s.root other ∨ s.root other = none := fun _ => .inl rfl
  cases name with
  | claim token =>
    exact drain_file (show Draining s id ((fileName true token, flag) :: rest) from draining)
  | owner token =>
    exact drain_file (show Draining s id ((fileName false token, flag) :: rest) from draining)
  | foreign text =>
    refine ⟨1, ?_⟩
    have once : sweeping id s 1 = s.setSweep id { queue := rest } := by
      simp [sweeping, State.sweepStep, draining.sweep, State.takeStep]
    rw [once]
    refine ⟨by simp, draining.free, fun other named present => ?_, fun claim token file mem => ?_⟩
    · rcases draining.listed other named present with ⟨file, mem⟩ | guarded
      · rcases List.mem_cons.mp mem with head | tail
        · cases head
          exact absurd rfl named
        · exact .inl ⟨file, tail⟩
      · exact .inr guarded
    · exact draining.regular claim token file (List.mem_cons_of_mem _ mem)
  | directory token =>
    cases owned : s.root (.owner token) with
    | some entry =>
      refine ⟨1, ?_⟩
      have once : sweeping id s 1 = s.setSweep id { queue := rest } := by
        simp [sweeping, State.sweepStep, draining.sweep, State.takeStep, owned]
      rw [once]
      refine draining.next (by simp) draining.free same (.inr ⟨token, rfl, ?_⟩)
        fun orphan gone owner => absurd gone owner
      show s.root (.owner token) ≠ none
      rw [owned]
      exact Option.some_ne_none _
    | none =>
      refine ⟨2, ?_⟩
      have twice : sweeping id s 2 =
          ((s.setSweep id { queue := rest, phase := .doomed token }).setRoot (.directory token)
            none).setSweep id { queue := rest } := by
        simp [sweeping, State.sweepStep, draining.sweep, State.takeStep, owned]
      rw [twice]
      refine draining.next (by simp) draining.free (fun other => ?_) (.inl ?_)
        fun orphan gone owner => ?_
      · exact root_erase (s := s) other (.directory token)
      · simp [State.setSweep, State.setRoot]
      · refine absurd ?_ owner
        simpa [State.setSweep, State.setRoot] using gone

/-- **An undisturbed sweep clears the root.** -/
theorem drain {queue : List (Name × Bool)} (draining : Draining s id queue) :
    ∃ steps, (sweeping id s steps).sweeps id = {} ∧
      ∀ name, name.token? ≠ none → (sweeping id s steps).root name = none := by
  induction queue generalizing s with
  | nil =>
    refine ⟨0, draining.sweep, fun name named => ?_⟩
    by_contra present
    rcases draining.listed name named present with ⟨flag, mem⟩ | ⟨token, -, owned⟩
    · cases mem
    · -- An owner file that is left would be in the listing itself.
      rcases draining.listed (.owner token) nofun owned with ⟨flag, mem⟩ | ⟨other, here, -⟩
      · cases mem
      · cases here
  | cons head rest ih =>
    obtain ⟨name, flag⟩ := head
    obtain ⟨first, next⟩ := drain_entry draining
    obtain ⟨second, idle, clear⟩ := ih next
    refine ⟨first + second, ?_, fun name named => ?_⟩
    · rw [sweeping_add]
      exact idle
    · rw [sweeping_add]
      exact clear name named

end Clear

/-! ## Owner and claim files are regular files -/

def OwnersRegular (s : State) : Prop :=
  ∀ claim token, s.root (fileName claim token) ≠ some .other

section Regular

variable {s : State}

theorem OwnersRegular.erase (regular : OwnersRegular s) (name : Name) :
    OwnersRegular (s.setRoot name none) := by
  intro claim token
  rcases root_erase (s := s) (fileName claim token) name with same | gone
  · rw [same]
    exact regular claim token
  · rw [gone]
    exact nofun

theorem OwnersRegular.put (regular : OwnersRegular s) {name : Name} {entry : Entry}
    (fits : ∀ claim token, name = fileName claim token → entry ≠ .other) :
    OwnersRegular (s.setRoot name (some entry)) := by
  intro claim token
  rw [root_setRoot]
  split
  · next here => exact fun same => fits claim token here.symm (Option.some.inj same)
  · exact regular claim token

theorem OwnersRegular.openOrCreate (regular : OwnersRegular s) (name : Name) :
    OwnersRegular (s.openOrCreate name).2 := by
  unfold State.openOrCreate
  split
  · exact regular
  · exact regular
  · exact regular.put fun _ _ _ => nofun

theorem ownersRegular_attemptStep (regular : OwnersRegular s) (id : Nat) :
    OwnersRegular (s.attemptStep id) := by
  unfold State.attemptStep
  dsimp only
  split
  · have opened := regular.openOrCreate (.claim (.drawn id (s.attempts id).lost))
    split
    · next found =>
      rw [found] at opened
      exact opened
    · next refused =>
      rw [refused] at opened
      exact opened
  · split <;> exact regular
  · split
    · next entry claim =>
      refine OwnersRegular.erase (s := s.setRoot _ _) ?_ _
      refine regular.put fun _ _ _ same => ?_
      rw [same] at claim
      exact regular true _ claim
    · exact regular
  · split
    · refine regular.put fun claim token here => ?_
      cases claim <;> cases here
    · exact regular
  · exact regular.erase _
  · exact regular.erase _
  · exact regular
  · exact regular.erase _
  · exact regular
  · exact regular

theorem ownersRegular_sweepStep (regular : OwnersRegular s) (id : Nat) :
    OwnersRegular (s.sweepStep id) := by
  unfold State.sweepStep
  dsimp only
  split
  · split
    · exact regular
    · next name flag rest queue =>
      have took := took_takeStep s id rest name flag
      generalize s.takeStep id rest name flag = s' at took ⊢
      cases took with
      | skipped | doomed => exact regular
      | opened | refused => exact regular.openOrCreate _
      | removed => exact regular.erase _
  · exact regular.erase _
  · split <;> exact regular
  · exact regular
  · exact regular.erase _
  · exact regular.erase _
  · exact regular.erase _

theorem ownersRegular_step (regular : OwnersRegular s) (event : Event) :
    OwnersRegular (step s event) := by
  cases event with
  | attempt id => exact ownersRegular_attemptStep regular id
  | publish id =>
    simp only [step, State.publishStep]
    split
    · exact regular.erase _
    · exact regular
  | killAttempt id =>
    simp only [step, State.killAttempt]
    split <;> exact regular
  | list id name =>
    simp only [step, State.listStep]
    split <;> exact regular
  | sweep id => exact ownersRegular_sweepStep regular id
  | killSweep id =>
    simp only [step, State.killSweep]
    split <;> exact regular

end Regular

/-! ## Runs -/

/-- No process has started; what is in the root was left by earlier ones. -/
structure Initial (s : State) : Prop where
  attempts : ∀ id, s.attempts id = {}
  sweeps : ∀ id, s.sweeps id = {}
  locks : ∀ inode, s.locks inode = none
  regular : OwnersRegular s
  drawn : ∀ name id serial, name.token? = some (.drawn id serial) → s.root name = none

/-- What holds in every run. -/
structure Sound (s : State) : Prop where
  locks : LocksHeld s
  untouched : Untouched s
  regular : OwnersRegular s

theorem Initial.sound {s : State} (initial : Initial s) : Sound s where
  locks := by
    intro inode holder
    rw [initial.locks inode]
    cases holder with
    | attempt id => simp [State.holding, initial.attempts id, Phase.held]
    | sweep id => simp [State.holding, initial.sweeps id, SweepPhase.held]
  untouched := by
    rintro id name ⟨serial, drawn, -⟩
    refine ⟨initial.drawn name id serial drawn, fun sweep mentioned => ?_⟩
    rw [initial.sweeps sweep] at mentioned
    rcases mentioned with ⟨flag, mem⟩ | now
    · cases mem
    · cases now
  regular := initial.regular

theorem Sound.step {s : State} (sound : Sound s) (event : Event) : Sound (step s event) :=
  ⟨locksHeld_step sound.locks event, untouched_step sound.untouched event,
    ownersRegular_step sound.regular event⟩

theorem Initial.run {s : State} (initial : Initial s) (events : List Event) :
    Sound (events.foldl Staging.step s) := by
  induction events using List.reverseRecOn with
  | nil => exact initial.sound
  | append_singleton events event ih =>
    rw [List.foldl_append]
    exact ih.step event

/-- The attempt has ended, or has not begun. -/
def Attempt.Over (attempt : Attempt) : Prop :=
  attempt = {} ∨ attempt.phase = .ended ∨ ∃ error, attempt.phase = .failed error

/-- A sweep's listing of the root, taken at once. -/
theorem listing {s : State} {id : Nat} (names : List Name) (queue : List (Name × Bool))
    (sweep : s.sweeps id = { queue }) :
    ∃ listed, (names.map (Event.list id)).foldl step s =
        s.setSweep id { queue := queue ++ listed } ∧
      (∀ name ∈ names, ∀ entry, s.root name = some entry → (name, entry != .other) ∈ listed) ∧
      ∀ name flag, (name, flag) ∈ listed → ∃ entry, s.root name = some entry ∧
        flag = (entry != .other) := by
  induction names generalizing s queue with
  | nil =>
    refine ⟨[], ?_, nofun, nofun⟩
    rw [List.append_nil]
    show s = { s with sweeps := Function.update s.sweeps id { queue } }
    rw [← sweep, Function.update_eq_self]
  | cons name names ih =>
    cases present : s.root name with
    | none =>
      have skipped : step s (.list id name) = s := by simp [step, State.listStep, present]
      obtain ⟨listed, reached, all, only⟩ := ih queue sweep
      refine ⟨listed, ?_, fun other mem entry here => ?_, only⟩
      · rw [List.map_cons, List.foldl_cons, skipped]
        exact reached
      · rcases List.mem_cons.mp mem with rfl | tail
        · rw [present] at here
          cases here
        · exact all other tail entry here
    | some entry =>
      have seen : step s (.list id name) =
          s.setSweep id { queue := queue ++ [(name, entry != .other)] } := by
        simp [step, State.listStep, present, sweep]
      obtain ⟨listed, reached, all, only⟩ := ih
        (s := s.setSweep id { queue := queue ++ [(name, entry != .other)] })
        (queue ++ [(name, entry != .other)]) (by simp)
      refine ⟨(name, entry != .other) :: listed, ?_, fun other mem found here => ?_,
        fun other flag mem => ?_⟩
      · rw [List.map_cons, List.foldl_cons, seen, reached]
        simp [State.setSweep]
      · rcases List.mem_cons.mp mem with rfl | tail
        · rw [present] at here
          cases here
          exact List.mem_cons_self
        · exact List.mem_cons_of_mem _ (all other tail found here)
      · rcases List.mem_cons.mp mem with head | tail
        · cases head
          exact ⟨entry, present, rfl⟩
        · exact only other flag tail

theorem sweeping_eq_foldl (id : Nat) (s : State) (steps : Nat) :
    sweeping id s steps = (List.replicate steps (Event.sweep id)).foldl step s := by
  induction steps generalizing s with
  | zero => rfl
  | succ steps ih => rw [sweeping, ih, List.replicate_succ, List.foldl_cons]; rfl

/-- **Staging attempts are isolated from sweeps.** In every run in which no sweep opens a claim
that is still being claimed after another sweep has removed it, a live attempt's owner file is in
place and is the file it has locked, and so is its directory until the attempt moves or removes it
itself. In every run, once every attempt and sweep has ended, one sweep that lists the whole root
leaves no attempt directory, owner file or claim file. -/
theorem staging_isolated {start s : State} (initial : Initial start) {events : List Event}
    (reached : events.foldl step start = s) :
    (Along step KeepsClaims start events → ∀ id inode,
      (s.attempts id).phase.alive = some inode →
      s.root (.owner (s.token id)) = some (.file inode) ∧
        ((s.attempts id).phase = .staged inode →
          s.root (.directory (s.token id)) = some .other)) ∧
    ((∀ id, (s.attempts id).Over) → (∀ id, s.sweeps id = {}) → ∀ (id : Nat) (names : List Name),
      (∀ name, s.root name ≠ none → name ∈ names) →
      ∃ steps after, (names.map (Event.list id) ++ List.replicate steps (Event.sweep id)).foldl
          step s = after ∧
        after.sweeps id = {} ∧ ∀ name, name.token? ≠ none → after.root name = none) := by
  refine ⟨fun keeps id inode alive => ?_, fun settled idle id names whole => ?_⟩
  · have invariant : Sound s ∧ ∀ id, Guarded s id := by
      rw [← reached]
      refine Along.invariant (fun s => Sound s ∧ ∀ id, Guarded s id) ?_ keeps
        ⟨initial.sound, fun id => ?_⟩
      · rintro s event keeps ⟨sound, guarded⟩
        exact ⟨sound.step event,
          guarded_step sound.locks sound.untouched guarded keeps⟩
      · refine guarded_of_quiet ?_ ?_ <;> rw [initial.attempts id] <;> rfl
    have guarded := invariant.2 id
    exact ⟨guarded.owner inode alive, guarded.directory inode⟩
  · have sound : Sound s := reached ▸ initial.run events
    obtain ⟨listed, queued, all, only⟩ := listing names [] (idle id)
    rw [List.nil_append] at queued
    -- Nobody is left to hold a lock.
    have free : ∀ inode, s.locks inode = none := by
      intro inode
      cases taken : s.locks inode with
      | none => rfl
      | some holder =>
        exfalso
        have holds := (sound.locks inode holder).mp taken
        cases holder with
        | sweep other => simp [State.holding, idle other, SweepPhase.held] at holds
        | attempt other =>
          rcases settled other with fresh | ended | ⟨error, failed⟩
          · simp [State.holding, fresh, Phase.held] at holds
          · simp [State.holding, ended, Phase.held] at holds
          · simp [State.holding, failed, Phase.held] at holds
    have draining : Draining (s.setSweep id { queue := listed }) id listed := by
      refine ⟨by simp, free, fun name _ present => ?_, fun claim token flag mem => ?_⟩
      · left
        obtain ⟨entry, found⟩ := Option.ne_none_iff_exists'.mp present
        exact ⟨_, all name (whole name present) entry found⟩
      · obtain ⟨entry, found, flagged⟩ := only _ flag mem
        have file : entry ≠ .other := by
          rintro rfl
          exact sound.regular claim token found
        refine ⟨flagged.trans (bne_iff_ne.mpr file), ?_⟩
        exact sound.regular claim token
    obtain ⟨steps, finished, clear⟩ := drain draining
    refine ⟨steps, _, rfl, ?_, ?_⟩ <;> rw [List.foldl_append, queued, ← sweeping_eq_foldl]
    · exact finished
    · exact clear

/-! ## Conflicts -/

/-- An attempt tries to lock its claim while another process holds the lock. -/
def contended (s : State) : Event → Bool
  | .attempt id =>
    match (s.attempts id).phase with
    | .opened inode => (s.locks inode).isSome
    | _ => false
  | _ => false

def Phase.running : Phase → Bool
  | ended | failed _ => false
  | _ => true

/-- A running attempt has tries left, and one that failed did so for want of them. -/
structure Exhausts (attempt : Attempt) : Prop where
  left : attempt.phase.running = true → attempt.lost < claimAttempts
  failed : ∀ error, attempt.phase = .failed error →
    error = .reclaimed ∧ attempt.lost = claimAttempts

section Conflicts

variable {s : State}

/-- A running attempt goes on within the same try. -/
theorem Exhausts.go {s₁ : State} {id : Nat} (exhausts : Exhausts (s.attempts id))
    (running : (s.attempts id).phase.running = true) {phase : Phase}
    (goes : ∀ error, phase ≠ .failed error) :
    Exhausts ((s₁.setAttempt id { s.attempts id with phase }).attempts id) := by
  rw [attempts_setAttempt]
  exact ⟨fun _ => exhausts.left running, fun error failed => absurd failed (goes error)⟩

theorem missing_of_reserves (untouched : Untouched s) {id : Nat} {name : Name}
    (token : name.token? = some (s.token id))
    (reserves : (s.attempts id).phase.reserves name = true) : s.root name = none :=
  (untouched id name ⟨_, token, .inr ⟨rfl, reserves⟩⟩).missing

theorem exhausts_attemptStep (untouched : Untouched s) {id : Nat}
    (free : contended s (.attempt id) = false) (exhausts : Exhausts (s.attempts id)) :
    Exhausts ((s.attemptStep id).attempts id) := by
  unfold State.attemptStep
  dsimp only
  split
  · next claiming =>
    -- A fresh token's claim is not there, so opening creates it.
    have fresh : s.root (.claim (.drawn id (s.attempts id).lost)) = none :=
      missing_of_reserves untouched rfl (by rw [claiming]; rfl)
    simp only [State.openOrCreate, fresh]
    exact exhausts.go (by rw [claiming]; rfl) (by simp)
  · next inode opened =>
    have unlocked : s.locks inode = none := by
      simpa only [contended, opened, Option.isSome_eq_false_iff,
        Option.isNone_iff_eq_none] using free
    rw [unlocked]
    exact exhausts.go (by rw [opened]; rfl) (by simp)
  · next inode locked =>
    have running : (s.attempts id).phase.running = true := by rw [locked]; rfl
    split
    · exact exhausts.go running (by simp)
    · rw [attempts_setAttempt]
      have left := exhausts.left running
      split
      · next more => exact ⟨fun _ => more, by simp⟩
      · next last =>
        refine ⟨by simp [Phase.running], fun error failed => ?_⟩
        cases failed
        refine ⟨rfl, ?_⟩
        show (s.attempts id).lost + 1 = claimAttempts
        omega
  · next inode published =>
    have fresh : s.root (.directory (.drawn id (s.attempts id).lost)) = none :=
      missing_of_reserves untouched rfl (by rw [published]; rfl)
    simp only [fresh]
    exact exhausts.go (by rw [published]; rfl) (by simp)
  · next staged => exact exhausts.go (by rw [staged]; rfl) (by simp)
  · next moved => exact exhausts.go (by rw [moved]; rfl) (by simp)
  · next cleared => exact exhausts.go (by rw [cleared]; rfl) (by simp)
  · next released => exact exhausts.go (by rw [released]; rfl) (by simp)
  · exact exhausts
  · exact exhausts

theorem exhausts_step (untouched : Untouched s) (event : Event) (free : contended s event = false)
    (exhausts : ∀ id, Exhausts (s.attempts id)) (id : Nat) :
    Exhausts ((step s event).attempts id) := by
  cases event with
  | attempt other =>
    by_cases own : id = other
    · subst own
      exact exhausts_attemptStep untouched free (exhausts id)
    · rw [step, (attemptFrame untouched other).others id own]
      exact exhausts id
  | publish other =>
    by_cases own : id = other
    · subst own
      simp only [step, State.publishStep]
      split
      · next staged => exact (exhausts id).go (by rw [staged]; rfl) (by simp)
      · exact exhausts id
    · rw [step, (attemptFrame_publish other).others id own]
      exact exhausts id
  | killAttempt other =>
    by_cases own : id = other
    · subst own
      have ended : ((s.killAttempt id).attempts id).phase = .ended := by
        simp only [State.killAttempt]
        split <;> simp [State.setAttempt, State.setLock]
      rw [step]
      refine ⟨?_, ?_⟩ <;> rw [ended] <;> simp [Phase.running]
    · rw [step, (attemptFrame_kill other).others id own]
      exact exhausts id
  | list sweep name =>
    simp only [step, State.listStep]
    split <;> exact exhausts id
  | sweep sweep =>
    rw [step, (sweepFrame sweep (.foreign "")).attempts]
    exact exhausts id
  | killSweep sweep =>
    simp only [step, State.killSweep]
    split <;> exact exhausts id

end Conflicts

/-- **An attempt fails only after it has lost all its claims.** In every run in which nobody holds
the lock of a claim when its attempt tries to take it. -/
theorem create_tolerates_sweeps {start s : State} (initial : Initial start) {events : List Event}
    (reached : events.foldl step start = s)
    (free : Along step (contended · · = false) start events) {id : Nat}
    {error : CreateError} (failed : (s.attempts id).phase = .failed error) :
    error = .reclaimed ∧ (s.attempts id).lost = claimAttempts := by
  have invariant : Sound s ∧ ∀ id, Exhausts (s.attempts id) := by
    rw [← reached]
    refine free.invariant (fun s => Sound s ∧ ∀ id, Exhausts (s.attempts id)) ?_
      ⟨initial.sound, fun id => ?_⟩
    · rintro s event free ⟨sound, exhausts⟩
      exact ⟨sound.step event, exhausts_step sound.untouched event free exhausts⟩
    · rw [initial.attempts id]
      exact ⟨fun _ => by decide, nofun⟩
  exact (invariant.2 id).failed error failed

end Updatedc.Bundle.Staging

namespace Updatedc.Bundle.Staging.Sample

open Run

def token : Token := .drawn 0 0

def nothing : State := { root := fun _ => none }

/-- What an attempt killed while it extracted leaves. -/
def abandoned : State where
  root
    | .owner (.leftover "a") => some (.file 7)
    | .directory (.leftover "a") => some .other
    | _ => none

theorem initial_nothing : Initial nothing where
  attempts _ := rfl
  sweeps _ := rfl
  locks _ := rfl
  regular _ _ := nofun
  drawn _ _ _ _ := rfl

theorem initial_abandoned : Initial abandoned where
  attempts _ := rfl
  sweeps _ := rfl
  locks _ := rfl
  regular claim token := by
    simp only [abandoned]
    split
    · exact nofun
    · next here => cases claim <;> cases here
    · exact nofun
  drawn name id serial drawn := by
    simp only [abandoned]
    split
    · cases drawn
    · cases drawn
    · rfl

/-- A sweep that finds the owner file locked, and the events of the attempt that locked it. -/
def beside : List Event :=
  [.attempt 0, .attempt 0, .attempt 0, .attempt 0, .list 1 (.owner token), .sweep 1, .sweep 1]

theorem keepsClaims_beside : Along step KeepsClaims nothing beside := by
  refine ⟨trivial, trivial, trivial, trivial, trivial, ?_, ?_, trivial⟩
  · intro id rest _ queue
    have head : [(Name.owner token, true)] = (.claim _, true) :: rest := queue
    cases head
  · intro id rest idle
    have opened : SweepPhase.opened false token 0 = .idle := idle
    cases opened

theorem staging_isolated_beside :
    ((beside.foldl step nothing).root (.owner token) = some (.file 0) ∧
      (beside.foldl step nothing).root (.directory token) = some .other) ∧
    ∃ steps after, ([Event.list 1 (.owner (.leftover "a")),
          .list 1 (.directory (.leftover "a"))] ++
        List.replicate steps (Event.sweep 1)).foldl step abandoned = after ∧
      after.root (.directory (.leftover "a")) = none := by
  constructor
  · have staged : ((beside.foldl step nothing).attempts 0).phase = .staged 0 := by decide
    have kept := (staging_isolated initial_nothing rfl).1 keepsClaims_beside 0 0
      (by rw [staged]; rfl)
    exact ⟨kept.1, kept.2 staged⟩
  · obtain ⟨steps, after, reached, -, clear⟩ :=
      (staging_isolated initial_abandoned (List.foldl_nil (f := step))).2
        (fun _ => .inl rfl) (fun _ => rfl) 1
        [.owner (.leftover "a"), .directory (.leftover "a")] fun name present => by
          by_contra unlisted
          refine present ?_
          simp only [abandoned]
          split
          · exact absurd List.mem_cons_self unlisted
          · exact absurd (List.mem_cons_of_mem _ List.mem_cons_self) unlisted
          · rfl
    exact ⟨steps, after, reached, clear _ nofun⟩

/-- **A live attempt is swept.** Two sweeps list the claim; the first removes it, and the second,
opening it, creates it anew before the attempt publishes it. The third finds the owner file
unlocked. -/
theorem live_attempt_swept :
    Initial nothing ∧
    (([.attempt 0, .list 1 (.claim token), .list 2 (.claim token), .sweep 1, .sweep 1, .sweep 1,
        .attempt 0, .sweep 1, .sweep 2, .attempt 0, .attempt 0, .sweep 2, .sweep 2, .sweep 2,
        .list 3 (.owner token), .sweep 3, .sweep 3, .sweep 3, .sweep 3, .sweep 3] :
          List Event).foldl
      step nothing |> fun s =>
        (s.attempts 0).phase = .staged 0 ∧ s.locks 0 = some (.attempt 0) ∧
          s.root (.directory token) = none ∧ s.root (.owner token) = none) :=
  ⟨initial_nothing, by decide⟩

/-- A try that loses its claim: a sweep has the claim open, takes and drops its lock before the
attempt locks it, and then removes it. -/
def lose (serial : Nat) : List Event :=
  [.attempt 0, .list 1 (.claim (.drawn 0 serial)), .sweep 1, .sweep 1, .sweep 1, .attempt 0,
    .sweep 1, .attempt 0]

theorem create_tolerates_sweeps_losing :
    ((((List.range 4).flatMap lose).foldl step nothing).attempts 0).lost = claimAttempts := by
  have free : Along step (contended · · = false) nothing ((List.range 4).flatMap lose) := by
    decide
  have failed : ((((List.range 4).flatMap lose).foldl step nothing).attempts 0).phase =
      .failed .reclaimed := by decide
  exact (create_tolerates_sweeps initial_nothing rfl free failed).2

/-- A sweep that has the claim locked fails the attempt on its first try. -/
theorem locked_claim_fails_first_try :
    Initial nothing ∧
    (([.attempt 0, .list 1 (.claim token), .sweep 1, .sweep 1, .attempt 0] : List Event).foldl
      step nothing |>.attempts 0) = { lost := 0, phase := .failed .alreadyOwned } :=
  ⟨initial_nothing, by decide⟩

end Updatedc.Bundle.Staging.Sample
