import Mathlib

/-!
# Staging attempts and sweeps (`updated/src/bundle.rs`, `updated/src/lock.rs`)

An attempt stages into a directory named by a fresh token, guarded by an *owner file* beside it
whose advisory lock the attempt holds for its whole life. The owner file is created and locked
under a *claim* name first and then renamed. A sweep removes what nobody owns: it opens each owner
or claim file it listed, and if it can lock it, drops the lock, removes the directory and unlinks
the file.

Each file operation is one step here, taken by any attempt or sweep in any order, and a process
may be killed between any two. A sweep acts on names it listed at some earlier time. Locks belong
to the inode a process opened, not to the name it opened it by.

- `LocksHeld`: **a lock is held exactly by the process that is in the phase of holding it**.
- `Untouched`: **what an attempt has not created is not there, and no sweep knows of it**.

Both hold in every run. What they say about live attempts is in `Bundle/Isolation.lean`.
-/

namespace Updatedc.Bundle.Staging

/-! ## The staging root -/

/-- The token an attempt directory is named by. No two tries draw the same one; leftovers carry
those of earlier processes. -/
inductive Token where
  | drawn (attempt serial : Nat)
  | leftover (text : String)
  deriving DecidableEq

/-- A name in the staging root, as the sweep's prefix and suffix tests read it. -/
inductive Name where
  /-- `.stage-<token>.owner`. -/
  | claim (token : Token)
  /-- `stage-<token>.owner`. -/
  | owner (token : Token)
  /-- `stage-<token>`. -/
  | directory (token : Token)
  /-- Anything else. -/
  | foreign (text : String)
  deriving DecidableEq

/-- What a name in the root stands for. -/
inductive Entry where
  | file (inode : Nat)
  /-- A directory, or anything that is not a regular file. -/
  | other
  deriving DecidableEq

/-- Who can hold a lock. -/
inductive Holder where
  | attempt (id : Nat)
  | sweep (id : Nat)
  deriving DecidableEq

/-! ## Processes -/

/-- Why `Stage::create` fails. -/
inductive CreateError where
  /-- "another instance already owns …". -/
  | alreadyOwned
  /-- "staging claims were reclaimed by concurrent sweeps". -/
  | reclaimed
  | notRegular
  | directoryExists
  deriving DecidableEq

/-- Where an attempt is, with the inode of the owner file it opened. -/
inductive Phase where
  | claiming
  | opened (inode : Nat)
  | locked (inode : Nat)
  /-- The claim was renamed to the owner file. -/
  | published (inode : Nat)
  /-- The directory exists, and the attempt extracts into it. -/
  | staged (inode : Nat)
  /-- The directory was renamed into the versions. -/
  | moved (inode : Nat)
  /-- `Drop` has removed the directory. -/
  | cleared (inode : Nat)
  /-- `Drop` has released the lock. -/
  | released
  | ended
  | failed (error : CreateError)
  deriving DecidableEq

/-- The inode an attempt in this phase holds the lock of. -/
def Phase.held : Phase → Option Nat
  | locked inode | published inode | staged inode | moved inode | cleared inode => some inode
  | _ => none

/-- One attempt to stage a bundle. -/
structure Attempt where
  /-- The claims lost in a row, which number the try. -/
  lost : Nat := 0
  phase : Phase := .claiming
  deriving DecidableEq

/-- Where a sweep is with the entry it is handling. -/
inductive SweepPhase where
  | idle
  /-- The directory was found without an owner file. -/
  | doomed (token : Token)
  | opened (claim : Bool) (token : Token) (inode : Nat)
  | locked (claim : Bool) (token : Token) (inode : Nat)
  /-- The lock is dropped again. -/
  | released (claim : Bool) (token : Token)
  /-- The directory of an owner file is removed. -/
  | cleared (token : Token)
  deriving DecidableEq

/-- The inode a sweep in this phase holds the lock of. -/
def SweepPhase.held : SweepPhase → Option Nat
  | locked _ _ inode => some inode
  | _ => none

/-- One sweep over the root. -/
structure Sweep where
  /-- The listed entries still to handle, and whether each was a regular file. -/
  queue : List (Name × Bool) := []
  phase : SweepPhase := .idle
  deriving DecidableEq

/-- The root and its locks, and every process by its number. -/
structure State where
  root : Name → Option Entry
  locks : Nat → Option Holder := fun _ => none
  /-- The next inode number. -/
  next : Nat := 0
  attempts : Nat → Attempt := fun _ => {}
  sweeps : Nat → Sweep := fun _ => {}

/-- Which process moves next, and how. -/
inductive Event where
  /-- An attempt takes its next step. -/
  | attempt (id : Nat)
  /-- An attempt that has extracted its archive publishes the directory. -/
  | publish (id : Nat)
  | killAttempt (id : Nat)
  /-- A sweep's listing returns an entry. -/
  | list (id : Nat) (name : Name)
  /-- A sweep takes its next step. -/
  | sweep (id : Nat)
  | killSweep (id : Nat)
  deriving DecidableEq

/-! ## Steps -/

/-- `CLAIM_ATTEMPTS`. -/
def claimAttempts : Nat := 4

variable (id : Nat) (s : State)

namespace State

variable (s : State)

def setRoot (name : Name) (entry : Option Entry) : State :=
  { s with root := Function.update s.root name entry }

def setLock (inode : Nat) (holder : Option Holder) : State :=
  { s with locks := Function.update s.locks inode holder }

def setAttempt (attempt : Attempt) : State :=
  { s with attempts := Function.update s.attempts id attempt }

def setSweep (sweep : Sweep) : State :=
  { s with sweeps := Function.update s.sweeps id sweep }

/-- `open_lock_file` with `OpenOrCreate`: the inode, unless the name is not a regular file. -/
def openOrCreate (name : Name) : Option Nat × State :=
  match s.root name with
  | some (.file inode) => (some inode, s)
  | some .other => (none, s)
  | none => (some s.next, { s.setRoot name (some (.file s.next)) with next := s.next + 1 })

/-- The next step of `Stage::create`, and of `Drop` once the stage is done with. -/
def attemptStep : State :=
  let attempt := s.attempts id
  let token := Token.drawn id attempt.lost
  match attempt.phase with
  | .claiming =>
    match s.openOrCreate (.claim token) with
    | (some inode, s) => s.setAttempt id { attempt with phase := .opened inode }
    | (none, s) => s.setAttempt id { attempt with phase := .failed .notRegular }
  | .opened inode =>
    match s.locks inode with
    | none =>
      (s.setLock inode (some (.attempt id))).setAttempt id { attempt with phase := .locked inode }
    | some _ => s.setAttempt id { attempt with phase := .failed .alreadyOwned }
  | .locked inode =>
    match s.root (.claim token) with
    | some entry =>
      ((s.setRoot (.owner token) (some entry)).setRoot (.claim token) none).setAttempt id
        { attempt with phase := .published inode }
    | none =>
      -- A sweep reclaimed the claim: start over under a fresh token, at most four times.
      (s.setLock inode none).setAttempt id
        { lost := attempt.lost + 1
          phase := if attempt.lost + 1 < claimAttempts then .claiming else .failed .reclaimed }
  | .published inode =>
    match s.root (.directory token) with
    | none =>
      (s.setRoot (.directory token) (some .other)).setAttempt id
        { attempt with phase := .staged inode }
    | some _ =>
      (s.setLock inode none).setAttempt id { attempt with phase := .failed .directoryExists }
  | .staged inode | .moved inode =>
    (s.setRoot (.directory token) none).setAttempt id { attempt with phase := .cleared inode }
  | .cleared inode => (s.setLock inode none).setAttempt id { attempt with phase := .released }
  | .released => (s.setRoot (.owner token) none).setAttempt id { attempt with phase := .ended }
  | .ended | .failed _ => s

/-- The staged directory is renamed into the versions. -/
def publishStep : State :=
  let attempt := s.attempts id
  match attempt.phase with
  | .staged inode =>
    (s.setRoot (.directory (.drawn id attempt.lost)) none).setAttempt id
      { attempt with phase := .moved inode }
  | _ => s

/-- A killed process holds no lock. -/
def killAttempt : State :=
  let attempt := s.attempts id
  let s := s.setAttempt id { attempt with phase := .ended }
  match attempt.phase.held with
  | some inode => s.setLock inode none
  | none => s

/-- `read_dir` returns one more name, with its file type. -/
def listStep (name : Name) : State :=
  match s.root name with
  | none => s
  | some entry =>
    let sweep := s.sweeps id
    s.setSweep id { sweep with queue := sweep.queue ++ [(name, entry != .other)] }

/-- A sweep turns to an entry of its listing. -/
def takeStep (rest : List (Name × Bool)) (name : Name) (regular : Bool) : State :=
  let done : Sweep := { queue := rest }
  let open' (claim : Bool) (token : Token) : State :=
    if regular then
      match s.openOrCreate name with
      | (some inode, s) => s.setSweep id { done with phase := .opened claim token inode }
      | (none, s) => s.setSweep id done
    else (s.setRoot name none).setSweep id done
  match name with
  | .foreign _ => s.setSweep id done
  | .directory token =>
    match s.root (.owner token) with
    | some _ => s.setSweep id done
    | none => s.setSweep id { done with phase := .doomed token }
  | .claim token => open' true token
  | .owner token => open' false token

/-- The next step of `sweep_abandoned`. -/
def sweepStep : State :=
  let sweep := s.sweeps id
  match sweep.phase with
  | .idle =>
    match sweep.queue with
    | [] => s
    | (name, regular) :: rest => s.takeStep id rest name regular
  | .doomed token =>
    (s.setRoot (.directory token) none).setSweep id { sweep with phase := .idle }
  | .opened claim token inode =>
    match s.locks inode with
    | none =>
      (s.setLock inode (some (.sweep id))).setSweep id
        { sweep with phase := .locked claim token inode }
    | some _ => s.setSweep id { sweep with phase := .idle }
  | .locked claim token inode =>
    (s.setLock inode none).setSweep id { sweep with phase := .released claim token }
  | .released true token =>
    (s.setRoot (.claim token) none).setSweep id { sweep with phase := .idle }
  | .released false token =>
    (s.setRoot (.directory token) none).setSweep id { sweep with phase := .cleared token }
  | .cleared token => (s.setRoot (.owner token) none).setSweep id { sweep with phase := .idle }

/-- A killed sweep forgets its listing, and holds no lock. -/
def killSweep : State :=
  let s' := s.setSweep id {}
  match (s.sweeps id).phase.held with
  | some inode => s'.setLock inode none
  | none => s'

end State

/-- One file operation of one process. -/
def step : Event → State
  | .attempt id => s.attemptStep id
  | .publish id => s.publishStep id
  | .killAttempt id => s.killAttempt id
  | .list id name => s.listStep id name
  | .sweep id => s.sweepStep id
  | .killSweep id => s.killSweep id

/-- The name of an owner file, before or after it is renamed. -/
def fileName (claim : Bool) (token : Token) : Name :=
  if claim then .claim token else .owner token

/-- What a sweep can do with the entry it turns to. -/
inductive Took (s : State) (id : Nat) (rest : List (Name × Bool)) : Name → Bool → State → Prop
  | skipped (name : Name) (regular : Bool) :
    Took s id rest name regular (s.setSweep id { queue := rest })
  | doomed (token : Token) (regular : Bool) (unowned : s.root (.owner token) = none) :
    Took s id rest (.directory token) regular
      (s.setSweep id { queue := rest, phase := .doomed token })
  | opened (claim : Bool) (token : Token) (inode : Nat)
      (opens : (s.openOrCreate (fileName claim token)).1 = some inode) :
    Took s id rest (fileName claim token) true
      ((s.openOrCreate (fileName claim token)).2.setSweep id
        { queue := rest, phase := .opened claim token inode })
  | refused (claim : Bool) (token : Token) :
    Took s id rest (fileName claim token) true
      ((s.openOrCreate (fileName claim token)).2.setSweep id { queue := rest })
  | removed (claim : Bool) (token : Token) :
    Took s id rest (fileName claim token) false
      ((s.setRoot (fileName claim token) none).setSweep id { queue := rest })

theorem took_takeStep (id : Nat) (rest : List (Name × Bool)) (name : Name) (regular : Bool) :
    Took s id rest name regular (s.takeStep id rest name regular) := by
  have file : ∀ claim token, Took s id rest (fileName claim token) regular
      (if regular then
        match s.openOrCreate (fileName claim token) with
        | (some inode, s) =>
          s.setSweep id { queue := rest, phase := .opened claim token inode }
        | (none, s) => s.setSweep id { queue := rest }
      else (s.setRoot (fileName claim token) none).setSweep id { queue := rest }) := by
    intro claim token
    cases regular with
    | false => exact .removed claim token
    | true =>
      have opened := @Took.opened s id rest claim token
      have refused := @Took.refused s id rest claim token
      generalize s.openOrCreate (fileName claim token) = answer at opened refused ⊢
      obtain ⟨_ | inode, after⟩ := answer
      · exact refused
      · exact opened inode rfl
  cases name with
  | foreign text => exact .skipped _ _
  | directory token =>
    simp only [State.takeStep]
    split
    · exact .skipped _ _
    · next unowned => exact .doomed token _ unowned
  | claim token => exact file true token
  | owner token => exact file false token

/-! ## Locks -/

/-- The inode a process holds the lock of. -/
def State.holding : Holder → Option Nat
  | .attempt id => (s.attempts id).phase.held
  | .sweep id => (s.sweeps id).phase.held

/-- **A lock is held exactly by the process that is in the phase of holding it.** -/
def LocksHeld : Prop :=
  ∀ inode holder, s.locks inode = some holder ↔ s.holding holder = some inode

section Locks

variable {s : State}

@[simp] theorem holding_setRoot (name : Name) (entry : Option Entry) :
    (s.setRoot name entry).holding = s.holding := rfl

@[simp] theorem holding_setLock (inode : Nat) (holder : Option Holder) :
    (s.setLock inode holder).holding = s.holding := rfl

@[simp] theorem holding_setAttempt (attempt : Attempt) :
    (s.setAttempt id attempt).holding =
      Function.update s.holding (.attempt id) attempt.phase.held := by
  funext holder
  cases holder with
  | attempt other =>
    by_cases same : other = id
    · subst same
      simp [State.holding, State.setAttempt]
    · simp [State.holding, State.setAttempt, same]
  | sweep other => simp [State.holding, State.setAttempt]

@[simp] theorem holding_setSweep (sweep : Sweep) :
    (s.setSweep id sweep).holding = Function.update s.holding (.sweep id) sweep.phase.held := by
  funext holder
  cases holder with
  | attempt other => simp [State.holding, State.setSweep]
  | sweep other =>
    by_cases same : other = id
    · subst same
      simp [State.holding, State.setSweep]
    · simp [State.holding, State.setSweep, same]

/-- Opening a file takes no lock. -/
theorem openOrCreate_locks (name : Name) :
    (s.openOrCreate name).2.locks = s.locks ∧ (s.openOrCreate name).2.holding = s.holding := by
  unfold State.openOrCreate
  split <;> exact ⟨rfl, rfl⟩

namespace LocksHeld

variable {s' : State} {holder : Holder} {inode : Nat}

/-- A step that neither takes nor drops a lock. -/
theorem same (held : LocksHeld s) (locks : s'.locks = s.locks)
    (holding : s'.holding = s.holding) : LocksHeld s' := by
  intro i h
  rw [locks, holding]
  exact held i h

theorem acquire (held : LocksHeld s) (free : s.locks inode = none)
    (idle : s.holding holder = none)
    (locks : s'.locks = Function.update s.locks inode (some holder))
    (holding : s'.holding = Function.update s.holding holder (some inode)) : LocksHeld s' := by
  intro i h
  rw [locks, holding]
  by_cases here : i = inode
  · subst here
    rw [Function.update_self]
    by_cases who : h = holder
    · subst who
      simp
    · rw [Function.update_of_ne who, ← held, free]
      simp [Ne.symm who]
  · rw [Function.update_of_ne here]
    by_cases who : h = holder
    · subst who
      rw [Function.update_self, held, idle]
      simp [Ne.symm here]
    · rw [Function.update_of_ne who]
      exact held i h

theorem release (held : LocksHeld s) (holds : s.holding holder = some inode)
    (locks : s'.locks = Function.update s.locks inode none)
    (holding : s'.holding = Function.update s.holding holder none) : LocksHeld s' := by
  intro i h
  rw [locks, holding]
  by_cases here : i = inode
  · subst here
    rw [Function.update_self]
    by_cases who : h = holder
    · subst who
      simp
    · rw [Function.update_of_ne who, ← held, (held i holder).mpr holds]
      simp [Ne.symm who]
  · rw [Function.update_of_ne here]
    by_cases who : h = holder
    · subst who
      rw [Function.update_self, held, holds]
      simp [Ne.symm here]
    · rw [Function.update_of_ne who]
      exact held i h

end LocksHeld

theorem locksHeld_attemptStep (held : LocksHeld s) (id : Nat) : LocksHeld (s.attemptStep id) := by
  have mine : s.holding (.attempt id) = (s.attempts id).phase.held := rfl
  unfold State.attemptStep
  dsimp only
  split
  · next phase =>
    rw [phase] at mine
    obtain ⟨locks, holding⟩ := openOrCreate_locks (s := s) (.claim (.drawn id (s.attempts id).lost))
    split
    · next opened =>
      rw [opened] at locks holding
      exact held.same locks (by simp [holding, mine, Phase.held])
    · next refused =>
      rw [refused] at locks holding
      exact held.same locks (by simp [holding, mine, Phase.held])
  · next inode phase =>
    rw [phase] at mine
    split
    · next free => exact held.acquire free mine rfl (by simp [Phase.held])
    · exact held.same rfl (by simp [mine, Phase.held])
  · next inode phase =>
    rw [phase] at mine
    split
    · exact held.same rfl (by simp [mine, Phase.held])
    · refine held.release mine rfl ?_
      rw [holding_setAttempt, holding_setLock]
      dsimp only
      split <;> rfl
  · next inode phase =>
    rw [phase] at mine
    split
    · exact held.same rfl (by simp [mine, Phase.held])
    · exact held.release mine rfl (by simp [Phase.held])
  · next inode phase =>
    exact held.same rfl (by simp [mine, phase, Phase.held])
  · next inode phase =>
    exact held.same rfl (by simp [mine, phase, Phase.held])
  · next inode phase =>
    rw [phase] at mine
    exact held.release mine rfl (by simp [Phase.held])
  · next phase =>
    exact held.same rfl (by simp [mine, phase, Phase.held])
  · exact held
  · exact held

theorem locksHeld_takeStep (held : LocksHeld s) (id : Nat) (idle : (s.sweeps id).phase = .idle)
    (rest : List (Name × Bool)) (name : Name) (regular : Bool) :
    LocksHeld (s.takeStep id rest name regular) := by
  have mine : s.holding (.sweep id) = none := by
    show (s.sweeps id).phase.held = none
    rw [idle]
    rfl
  have took := took_takeStep s id rest name regular
  generalize s.takeStep id rest name regular = s' at took ⊢
  cases took with
  | skipped | doomed | removed => exact held.same rfl (by simp [mine, SweepPhase.held])
  | opened claim token | refused claim token =>
    obtain ⟨locks, holding⟩ := openOrCreate_locks (s := s) (fileName claim token)
    exact held.same locks (by simp [holding, mine, SweepPhase.held])

theorem locksHeld_sweepStep (held : LocksHeld s) (id : Nat) : LocksHeld (s.sweepStep id) := by
  have mine : s.holding (.sweep id) = (s.sweeps id).phase.held := rfl
  unfold State.sweepStep
  dsimp only
  split
  · next phase =>
    split
    · exact held
    · exact locksHeld_takeStep held id phase _ _ _
  · next phase =>
    exact held.same rfl (by simp [mine, phase, SweepPhase.held])
  · next phase =>
    rw [phase] at mine
    split
    · next free => exact held.acquire free mine rfl (by simp [SweepPhase.held])
    · exact held.same rfl (by simp [mine, SweepPhase.held])
  · next phase =>
    rw [phase] at mine
    exact held.release mine rfl (by simp [SweepPhase.held])
  · next phase =>
    exact held.same rfl (by simp [mine, phase, SweepPhase.held])
  · next phase =>
    exact held.same rfl (by simp [mine, phase, SweepPhase.held])
  · next phase =>
    exact held.same rfl (by simp [mine, phase, SweepPhase.held])

theorem locksHeld_step (held : LocksHeld s) (event : Event) : LocksHeld (step s event) := by
  cases event with
  | attempt id => exact locksHeld_attemptStep held id
  | publish id =>
    have mine : s.holding (.attempt id) = (s.attempts id).phase.held := rfl
    simp only [step, State.publishStep]
    split
    · next phase =>
      exact held.same rfl (by simp [mine, phase, Phase.held])
    · exact held
  | killAttempt id =>
    have mine : s.holding (.attempt id) = (s.attempts id).phase.held := rfl
    simp only [step, State.killAttempt]
    split
    · next holds =>
      rw [holds] at mine
      exact held.release mine rfl (by simp [Phase.held])
    · next holds =>
      rw [holds] at mine
      exact held.same rfl (by simp [mine, Phase.held])
  | list id name =>
    have mine : s.holding (.sweep id) = (s.sweeps id).phase.held := rfl
    simp only [step, State.listStep]
    split
    · exact held
    · exact held.same rfl (by simp [mine])
  | sweep id => exact locksHeld_sweepStep held id
  | killSweep id =>
    have mine : s.holding (.sweep id) = (s.sweeps id).phase.held := rfl
    simp only [step, State.killSweep]
    split
    · next holds =>
      rw [holds] at mine
      exact held.release mine rfl (by simp [SweepPhase.held])
    · next holds =>
      rw [holds] at mine
      exact held.same rfl (by simp [mine, SweepPhase.held])

end Locks

/-! ## Names nobody has used yet -/

@[simp] theorem attempts_setAttempt {s : State} {id : Nat} (attempt : Attempt) :
    (s.setAttempt id attempt).attempts id = attempt := Function.update_self ..

/-- The name a sweep is handling. -/
def SweepPhase.name? : SweepPhase → Option Name
  | idle => none
  | doomed token => some (.directory token)
  | opened claim token _ | locked claim token _ | released claim token =>
    some (fileName claim token)
  | cleared token => some (.owner token)

/-- A sweep has the name in its listing or is handling it. -/
def Sweep.Mentions (sweep : Sweep) (name : Name) : Prop :=
  (∃ regular, (name, regular) ∈ sweep.queue) ∨ sweep.phase.name? = some name

/-- Nothing is under the name, and no sweep will act on it. -/
structure Absent (s : State) (name : Name) : Prop where
  missing : s.root name = none
  unlisted : ∀ id, ¬ (s.sweeps id).Mentions name

/-- What a sweep's step may do, as far as `name` is concerned: other processes keep their state,
the sweep turns to no name it had not listed, and what appears in the root it had listed. -/
structure SweepFrame (s s' : State) (id : Nat) (name : Name) : Prop where
  attempts : s'.attempts = s.attempts
  others : ∀ other, other ≠ id → s'.sweeps other = s.sweeps other
  mentions : (s'.sweeps id).Mentions name → (s.sweeps id).Mentions name
  root : s'.root name = s.root name ∨ s'.root name = none ∨ (s.sweeps id).Mentions name

section Frames

variable {s : State} {name : Name}

theorem root_setRoot (at_name : Name) (entry : Option Entry) :
    (s.setRoot at_name entry).root name = if name = at_name then entry else s.root name := by
  simp [State.setRoot, Function.update_apply]

/-- Removing an entry. -/
theorem root_erase (name at_name : Name) :
    (s.setRoot at_name none).root name = s.root name ∨
      (s.setRoot at_name none).root name = none := by
  rw [root_setRoot]
  split
  · exact .inr rfl
  · exact .inl rfl

theorem root_openOrCreate (name at_name : Name) :
    (s.openOrCreate at_name).2.root name = s.root name ∨ name = at_name := by
  unfold State.openOrCreate
  split
  · exact .inl rfl
  · exact .inl rfl
  · by_cases here : name = at_name
    · exact .inr here
    · left
      show (s.setRoot at_name _).root name = _
      rw [root_setRoot, if_neg here]

theorem openOrCreate_processes (at_name : Name) :
    (s.openOrCreate at_name).2.attempts = s.attempts ∧
      (s.openOrCreate at_name).2.sweeps = s.sweeps := by
  unfold State.openOrCreate
  split <;> exact ⟨rfl, rfl⟩

/-- A step of one sweep that only replaces that sweep's own state. -/
theorem SweepFrame.setSweep {s₁ : State} {id : Nat} {sweep : Sweep}
    (attempts : s₁.attempts = s.attempts) (sweeps : s₁.sweeps = s.sweeps)
    (mentions : sweep.Mentions name → (s.sweeps id).Mentions name)
    (root : s₁.root name = s.root name ∨ s₁.root name = none ∨ (s.sweeps id).Mentions name) :
    SweepFrame s (s₁.setSweep id sweep) id name where
  attempts := attempts
  others other different := by
    show Function.update s₁.sweeps id sweep other = _
    rw [Function.update_of_ne different, sweeps]
  mentions now := by
    refine mentions ?_
    simpa [State.setSweep] using now
  root := root

theorem sweepFrame_takeStep {id : Nat} {rest : List (Name × Bool)} {listed : Name} {regular : Bool}
    (queue : (s.sweeps id).queue = (listed, regular) :: rest) :
    SweepFrame s (s.takeStep id rest listed regular) id name := by
  have head : (s.sweeps id).Mentions listed :=
    .inl ⟨regular, by rw [queue]; exact List.mem_cons_self⟩
  -- What remains of the listing, with a phase about the head or about nothing.
  have later : ∀ phase : SweepPhase, (phase.name? = none ∨ phase.name? = some listed) →
      Sweep.Mentions { queue := rest, phase } name → (s.sweeps id).Mentions name := by
    rintro phase about (⟨flag, mem⟩ | now)
    · exact .inl ⟨flag, by rw [queue]; exact List.mem_cons_of_mem _ mem⟩
    · rcases about with none' | here
      · rw [none'] at now
        cases now
      · rw [here] at now
        cases now
        exact head
  have created : (s.openOrCreate listed).2.root name = s.root name ∨
      (s.openOrCreate listed).2.root name = none ∨ (s.sweeps id).Mentions name := by
    rcases root_openOrCreate (s := s) name listed with same | here
    · exact .inl same
    · exact .inr (.inr (here ▸ head))
  have took := took_takeStep s id rest listed regular
  generalize s.takeStep id rest listed regular = s' at took ⊢
  cases took with
  | skipped => exact .setSweep rfl rfl (later _ (.inl rfl)) (.inl rfl)
  | doomed => exact .setSweep rfl rfl (later _ (.inr rfl)) (.inl rfl)
  | opened claim token =>
    obtain ⟨attempts, sweeps⟩ := openOrCreate_processes (s := s) (fileName claim token)
    exact .setSweep attempts sweeps (later _ (.inr rfl)) created
  | refused claim token =>
    obtain ⟨attempts, sweeps⟩ := openOrCreate_processes (s := s) (fileName claim token)
    exact .setSweep attempts sweeps (later _ (.inl rfl)) created
  | removed => exact .setSweep rfl rfl (later _ (.inl rfl)) ((root_erase _ _).imp_right .inl)

theorem sweepFrame (name : Name) : SweepFrame s (s.sweepStep id) id name := by
  -- A phase about the same name, or about none.
  have later : ∀ phase : SweepPhase,
      (phase.name? = none ∨ phase.name? = (s.sweeps id).phase.name?) →
      Sweep.Mentions { s.sweeps id with phase } name → (s.sweeps id).Mentions name := by
    rintro phase about (listed | now)
    · exact .inl listed
    · rcases about with none' | here
      · rw [none'] at now
        cases now
      · exact .inr (here ▸ now)
  have erasing : ∀ at_name, (s.setRoot at_name none).root name = s.root name ∨
      (s.setRoot at_name none).root name = none ∨ (s.sweeps id).Mentions name := by
    intro at_name
    rcases root_erase (s := s) name at_name with same | gone
    · exact .inl same
    · exact .inr (.inl gone)
  unfold State.sweepStep
  dsimp only
  split
  · split
    · exact ⟨rfl, fun _ _ => rfl, fun mentioned => mentioned, .inl rfl⟩
    · next queue => exact sweepFrame_takeStep queue
  · exact .setSweep rfl rfl (later _ (.inl rfl)) (erasing _)
  · next phase =>
    split
    · exact .setSweep rfl rfl (later _ (.inr (by rw [phase]; rfl))) (.inl rfl)
    · exact .setSweep rfl rfl (later _ (.inl rfl)) (.inl rfl)
  · next phase => exact .setSweep rfl rfl (later _ (.inr (by rw [phase]; rfl))) (.inl rfl)
  · exact .setSweep rfl rfl (later _ (.inl rfl)) (erasing _)
  · next phase => exact .setSweep rfl rfl (later _ (.inr (by rw [phase]; rfl))) (erasing _)
  · exact .setSweep rfl rfl (later _ (.inl rfl)) (erasing _)

/-- A sweep creates nothing under a name it has not listed. -/
theorem Absent.sweepStep (absent : Absent s name) (id : Nat) : Absent (s.sweepStep id) name := by
  have frame := sweepFrame (s := s) id name
  refine ⟨?_, fun other mentioned => ?_⟩
  · rcases frame.root with same | gone | listed
    · rw [same, absent.missing]
    · exact gone
    · exact absurd listed (absent.unlisted id)
  · by_cases same : other = id
    · subst same
      exact absent.unlisted other (frame.mentions mentioned)
    · rw [frame.others other same] at mentioned
      exact absent.unlisted other mentioned

theorem Absent.listStep (absent : Absent s name) (id : Nat) (listed : Name) :
    Absent (s.listStep id listed) name := by
  unfold State.listStep
  split
  · exact absent
  · next entry present =>
    refine ⟨absent.missing, fun other mentioned => ?_⟩
    have different : name ≠ listed := by
      rintro rfl
      rw [absent.missing] at present
      cases present
    by_cases same : other = id
    · subst same
      simp only [State.setSweep, Function.update_self] at mentioned
      rcases mentioned with ⟨flag, mem⟩ | now
      · rcases List.mem_append.mp mem with before | new
        · exact absent.unlisted other (.inl ⟨flag, before⟩)
        · cases List.mem_singleton.mp new
          exact different rfl
      · exact absent.unlisted other (.inr now)
    · simp only [State.setSweep, Function.update_of_ne same] at mentioned
      exact absent.unlisted other mentioned

theorem Absent.killSweep (absent : Absent s name) (id : Nat) : Absent (s.killSweep id) name := by
  have gone : ∀ other, ¬ (Function.update s.sweeps id {} other).Mentions name := by
    intro other mentioned
    by_cases same : other = id
    · rw [same, Function.update_self] at mentioned
      rcases mentioned with ⟨flag, mem⟩ | now
      · cases mem
      · cases now
    · rw [Function.update_of_ne same] at mentioned
      exact absent.unlisted other mentioned
  unfold State.killSweep
  dsimp only
  split <;> exact ⟨absent.missing, gone⟩

end Frames

/-- The names an attempt has not yet used, of its current try and of the later ones. -/
def Phase.reserves : Phase → Name → Bool
  | claiming, _ => true
  | opened _, .claim _ | locked _, .claim _ => false
  | opened _, _ | locked _, _ => true
  | published _, .directory _ => true
  | _, _ => false

/-- The token in a name of the sweep's kind. -/
def Name.token? : Name → Option Token
  | claim token | owner token | directory token => some token
  | foreign _ => none

/-- A name an attempt has yet to use, in its current try or a later one. -/
def Reserved (attempt : Attempt) (id : Nat) (name : Name) : Prop :=
  ∃ serial, name.token? = some (.drawn id serial) ∧
    (attempt.lost < serial ∨ serial = attempt.lost ∧ attempt.phase.reserves name = true)

/-- **What an attempt has not created is not there, and no sweep knows of it.** -/
def Untouched : Prop :=
  ∀ id name, Reserved (s.attempts id) id name → Absent s name

section Untouched

variable {s : State}

/-- A step of one attempt touches only names of its own current try. -/
structure AttemptFrame (s s' : State) (id : Nat) : Prop where
  others : ∀ other, other ≠ id → s'.attempts other = s.attempts other
  sweeps : s'.sweeps = s.sweeps
  root : ∀ name, Reserved (s'.attempts id) id name ∨
      (∀ serial, name.token? ≠ some (.drawn id serial)) → s'.root name = s.root name
  reserved : ∀ name, Reserved (s'.attempts id) id name → Reserved (s.attempts id) id name

theorem AttemptFrame.untouched {s' : State} {id : Nat} (frame : AttemptFrame s s' id)
    (untouched : Untouched s) : Untouched s' := by
  intro owner name reserved
  by_cases same : owner = id
  · subst same
    have before := untouched owner name (frame.reserved name reserved)
    exact ⟨(frame.root name (.inl reserved)).trans before.missing,
      fun sweep => frame.sweeps ▸ before.unlisted sweep⟩
  · rw [frame.others owner same] at reserved
    have before := untouched owner name reserved
    obtain ⟨serial, drawn, -⟩ := reserved
    refine ⟨(frame.root name (.inr ?_)).trans before.missing,
      fun sweep => frame.sweeps ▸ before.unlisted sweep⟩
    intro other mine
    rw [drawn] at mine
    cases mine
    exact same rfl

/-- The step replaces the attempt's own state and some entries of its current try. -/
theorem AttemptFrame.setAttempt {s₁ : State} {id : Nat} {attempt : Attempt}
    (attempts : s₁.attempts = s.attempts) (sweeps : s₁.sweeps = s.sweeps)
    (root : ∀ name, Reserved attempt id name ∨
      (∀ serial, name.token? ≠ some (.drawn id serial)) → s₁.root name = s.root name)
    (reserved : ∀ name, Reserved attempt id name → Reserved (s.attempts id) id name) :
    AttemptFrame s (s₁.setAttempt id attempt) id := by
  refine ⟨fun other different => ?_, sweeps, ?_, ?_⟩
  · show Function.update s₁.attempts id attempt other = _
    rw [Function.update_of_ne different, attempts]
  · rwa [attempts_setAttempt]
  · rwa [attempts_setAttempt]

/-- An entry of the current try that the new phase no longer reserves may change. -/
theorem root_of_reserved {attempt : Attempt} {id : Nat} {at_name : Name}
    (current : at_name.token? = some (.drawn id attempt.lost))
    (used : attempt.phase.reserves at_name = false) {entry : Option Entry} {name : Name}
    (outside : Reserved attempt id name ∨ ∀ serial, name.token? ≠ some (.drawn id serial)) :
    (s.setRoot at_name entry).root name = s.root name := by
  rw [root_setRoot, if_neg]
  rintro rfl
  rcases outside with ⟨serial, drawn, later | ⟨same, reserves⟩⟩ | foreign
  · rw [current] at drawn
    cases drawn
    exact Nat.lt_irrefl _ later
  · rw [used] at reserves
    cases reserves
  · exact foreign _ current

/-- A phase that reserves no more than the one before. -/
theorem reserved_mono {attempt attempt' : Attempt} {id : Nat} (lost : attempt'.lost = attempt.lost)
    (fewer : ∀ name, attempt'.phase.reserves name = true → attempt.phase.reserves name = true)
    (name : Name) (reserved : Reserved attempt' id name) : Reserved attempt id name := by
  obtain ⟨serial, drawn, later | ⟨same, reserves⟩⟩ := reserved
  · exact ⟨serial, drawn, .inl (lost ▸ later)⟩
  · exact ⟨serial, drawn, .inr ⟨lost ▸ same, fewer name reserves⟩⟩

theorem attemptFrame (untouched : Untouched s) (id : Nat) :
    AttemptFrame s (s.attemptStep id) id := by
  have nothing : ∀ (attempt : Attempt) (name : Name), Reserved attempt id name ∨
      (∀ serial, name.token? ≠ some (.drawn id serial)) → s.root name = s.root name :=
    fun _ _ _ => rfl
  unfold State.attemptStep
  dsimp only
  split
  · next phase =>
    -- The claim of a fresh token is not there, so opening creates it.
    have fresh : s.root (.claim (.drawn id (s.attempts id).lost)) = none :=
      (untouched id _ ⟨_, rfl, .inr ⟨rfl, by rw [phase]; rfl⟩⟩).missing
    simp only [State.openOrCreate, fresh]
    refine .setAttempt rfl rfl (fun name outside => ?_) (reserved_mono rfl ?_)
    · exact root_of_reserved rfl rfl outside
    · intro name _
      rw [phase]
      rfl
  · next inode phase =>
    split
    · refine .setAttempt rfl rfl (nothing _) (reserved_mono rfl ?_)
      intro name reserves
      rw [phase]
      cases name <;> first | rfl | cases reserves
    · exact .setAttempt rfl rfl (nothing _)
        (reserved_mono rfl fun name reserves => nomatch reserves)
  · next inode phase =>
    split
    · refine .setAttempt rfl rfl (fun name outside => ?_) (reserved_mono rfl ?_)
      · rw [root_of_reserved rfl rfl outside, root_of_reserved rfl rfl outside]
      · intro name reserves
        rw [phase]
        cases name <;> first | rfl | cases reserves
    · refine .setAttempt rfl rfl (nothing _) fun name reserved => ?_
      obtain ⟨serial, drawn, later | ⟨same, -⟩⟩ := reserved
      · exact ⟨serial, drawn, .inl (Nat.lt_of_succ_lt later)⟩
      · exact ⟨serial, drawn, .inl (same ▸ Nat.lt_succ_self _)⟩
  · next inode phase =>
    split
    · refine .setAttempt rfl rfl (fun name outside => ?_)
        (reserved_mono rfl fun name reserves => nomatch reserves)
      exact root_of_reserved rfl rfl outside
    · exact .setAttempt rfl rfl (nothing _)
        (reserved_mono rfl fun name reserves => nomatch reserves)
  · refine .setAttempt rfl rfl (fun name outside => ?_)
      (reserved_mono rfl fun name reserves => nomatch reserves)
    exact root_of_reserved rfl rfl outside
  · refine .setAttempt rfl rfl (fun name outside => ?_)
      (reserved_mono rfl fun name reserves => nomatch reserves)
    exact root_of_reserved rfl rfl outside
  · exact .setAttempt rfl rfl (nothing _) (reserved_mono rfl fun name reserves => nomatch reserves)
  · refine .setAttempt rfl rfl (fun name outside => ?_)
      (reserved_mono rfl fun name reserves => nomatch reserves)
    exact root_of_reserved rfl rfl outside
  · exact ⟨fun _ _ => rfl, rfl, fun _ _ => rfl, fun _ reserved => reserved⟩
  · exact ⟨fun _ _ => rfl, rfl, fun _ _ => rfl, fun _ reserved => reserved⟩

theorem attemptFrame_publish : AttemptFrame s (s.publishStep id) id := by
  unfold State.publishStep
  dsimp only
  split
  · refine .setAttempt rfl rfl (fun name outside => ?_)
      (reserved_mono rfl fun name reserves => nomatch reserves)
    exact root_of_reserved rfl rfl outside
  · exact ⟨fun _ _ => rfl, rfl, fun _ _ => rfl, fun _ reserved => reserved⟩

theorem attemptFrame_kill : AttemptFrame s (s.killAttempt id) id := by
  unfold State.killAttempt
  dsimp only
  have killed : AttemptFrame s
      (s.setAttempt id { s.attempts id with phase := .ended }) id :=
    .setAttempt rfl rfl (fun _ _ => rfl) (reserved_mono rfl fun name reserves => nomatch reserves)
  split
  · exact ⟨killed.others, killed.sweeps, killed.root, killed.reserved⟩
  · exact killed

theorem untouched_step (untouched : Untouched s) (event : Event) : Untouched (step s event) := by
  cases event with
  | attempt id => exact (attemptFrame untouched id).untouched untouched
  | publish id => exact (attemptFrame_publish id).untouched untouched
  | killAttempt id => exact (attemptFrame_kill id).untouched untouched
  | list id listed =>
    intro owner name reserved
    refine (untouched owner name ?_).listStep id listed
    have same : (s.listStep id listed).attempts = s.attempts := by
      unfold State.listStep
      split <;> rfl
    rwa [show (step s (.list id listed)).attempts = s.attempts from same] at reserved
  | sweep id =>
    intro owner name reserved
    refine (untouched owner name ?_).sweepStep id
    have frame := sweepFrame (s := s) id name
    rwa [show (step s (.sweep id)).attempts = s.attempts from frame.attempts] at reserved
  | killSweep id =>
    intro owner name reserved
    refine (untouched owner name ?_).killSweep id
    have same : (s.killSweep id).attempts = s.attempts := by
      unfold State.killSweep
      dsimp only
      split <;> rfl
    rwa [show (step s (.killSweep id)).attempts = s.attempts from same] at reserved

end Untouched

end Updatedc.Bundle.Staging
