import Updatedc.Lib.Program

/-!
# Programs that run side by side

Any number of programs call one shared service, one call at a time and in any order, while the
service also moves on its own. Each program is judged **alone**: between its own calls the state
may move by any number of `step`s, and its own calls must move it by `step`s again. `Guarantees` is
that judgement, with one rule per way of composing programs. Since every program's moves are moves
that every other one was prepared for, `Guarantees.play` puts them together over every schedule.

A program that dies makes no further calls, so a crash is a schedule that never turns to it again.
-/

namespace Updatedc.Program

open Relation

variable {Req : Type} {Resp : Req → Type} {ε ε' α β S : Type}

/-! ## The judgement -/

/-- From `s`, with others taking `step`s in between, every call of the program moves the state by
`step`s; it returns only with `post` and fails only with `fail`, and others cannot undo either. -/
def Guarantees (env : Env S Resp) (step : S → S → Prop) (post : α → S → Prop)
    (fail : ε → S → Prop) : Program Resp ε α → S → Prop
  | pure a, s => ∀ t, ReflTransGen step s t → post a t
  | throw error, s => ∀ t, ReflTransGen step s t → fail error t
  | call request next, s => ∀ t, ReflTransGen step s t → ∀ t' response,
      env t request t' response →
        ReflTransGen step t t' ∧ (next response).Guarantees env step post fail t'

section Rules

variable {env : Env S Resp} {step : S → S → Prop} {post post' : α → S → Prop}
  {fail fail' : ε → S → Prop} {p : Program Resp ε α} {s t : S}

/-- Others cannot undo what is guaranteed. -/
theorem Guarantees.mono (h : p.Guarantees env step post fail s) (moved : ReflTransGen step s t) :
    p.Guarantees env step post fail t := by
  cases p with
  | pure a => exact fun u later => h u (moved.trans later)
  | throw error => exact fun u later => h u (moved.trans later)
  | call request next => exact fun u later => h u (moved.trans later)

theorem Guarantees.imp (h : p.Guarantees env step post fail s)
    (returns : ∀ a t, ReflTransGen step s t → post a t → post' a t)
    (fails : ∀ error t, ReflTransGen step s t → fail error t → fail' error t) :
    p.Guarantees env step post' fail' s := by
  induction p generalizing s with
  | pure a => exact fun t moved => returns a t moved (h t moved)
  | throw error => exact fun t moved => fails error t moved (h t moved)
  | call request next ih =>
    intro t moved t' response answer
    obtain ⟨moves, rest⟩ := h t moved t' response answer
    have since : ReflTransGen step s t' := moved.trans moves
    exact ⟨moves, ih response rest (fun a u later => returns a u (since.trans later))
      fun error u later => fails error u (since.trans later)⟩

theorem guarantees_pure {a : α} (stable : ∀ t, ReflTransGen step s t → post a t) :
    (Pure.pure a : Program Resp ε α).Guarantees env step post fail s := stable

theorem guarantees_throw {error : ε} (stable : ∀ t, ReflTransGen step s t → fail error t) :
    (MonadExcept.throw error : Program Resp ε α).Guarantees env step post fail s := stable

/-- One call: what it does is `step`s, and others do not undo what its answer says. -/
theorem guarantees_request {request : Req} {post : Resp request → S → Prop}
    (answers : ∀ t, ReflTransGen step s t → ∀ t' response, env t request t' response →
      ReflTransGen step t t' ∧ ∀ u, ReflTransGen step t' u → post response u) :
    (Program.request request : Program Resp ε (Resp request)).Guarantees env step post fail s :=
  answers

theorem guarantees_bind {f : α → Program Resp ε β} {post : β → S → Prop}
    (h : p.Guarantees env step (fun a t => (f a).Guarantees env step post fail t) fail s) :
    (p >>= f).Guarantees env step post fail s := by
  change (p.bind f).Guarantees env step post fail s
  induction p generalizing s with
  | pure a => exact h s .refl
  | throw error => exact h
  | call request next ih =>
    intro t moved t' response answer
    obtain ⟨moves, rest⟩ := h t moved t' response answer
    exact ⟨moves, ih response rest⟩

theorem guarantees_attempt {post : Except ε α → S → Prop} {fail : ε' → S → Prop}
    (h : p.Guarantees env step (fun a => post (.ok a)) (fun error => post (.error error)) s) :
    (p.attempt : Program Resp ε' (Except ε α)).Guarantees env step post fail s := by
  induction p generalizing s with
  | pure a => exact h
  | throw error => exact h
  | call request next ih =>
    intro t moved t' response answer
    obtain ⟨moves, rest⟩ := h t moved t' response answer
    exact ⟨moves, ih response rest⟩

theorem guarantees_ofExcept {result : Except ε α}
    (stable : ∀ t, ReflTransGen step s t →
      match result with
      | .ok a => post a t
      | .error error => fail error t) :
    (ofExcept result : Program Resp ε α).Guarantees env step post fail s := by
  cases result <;> exact stable

/-- A loop over a list: what each round establishes stays, so in the end all of it holds. -/
theorem guarantees_forM {ι : Type} {f : ι → Program Resp ε PUnit} (done : ι → S → Prop)
    (stays : ∀ i s t, ReflTransGen step s t → done i s → done i t) {l : List ι}
    (round : ∀ i ∈ l, ∀ t, ReflTransGen step s t →
      (f i).Guarantees env step (fun _ => done i) fail t) :
    (forM l f).Guarantees env step (fun _ t => ∀ i ∈ l, done i t) fail s := by
  induction l generalizing s with
  | nil => exact guarantees_pure fun _ _ => by simp
  | cons i rest ih =>
    rw [List.forM_cons]
    refine guarantees_bind ((round i List.mem_cons_self s .refl).imp (fun _ t moved now => ?_)
      fun _ _ _ failed => failed)
    have later := ih (s := t) fun j member u later =>
      round j (List.mem_cons_of_mem _ member) u (moved.trans later)
    refine later.imp (fun _ u since all => ?_) fun _ _ _ failed => failed
    exact List.forall_mem_cons.mpr ⟨stays i t u since now, all⟩

/-- The result of a program that has returned. -/
def returned : Program Resp ε α → Option α
  | pure a => some a
  | _ => none

/-- A program that has returned did so with its result. -/
theorem Guarantees.of_returned {a : α} (h : p.Guarantees env step post fail s)
    (done : p.returned = some a) : post a s := by
  cases p with
  | pure b =>
    obtain rfl := Option.some.inj done
    exact h s .refl
  | throw error => cases done
  | call request next => cases done

end Rules

/-! ## Schedules -/

/-- Whose turn it is: a program's, with what the surroundings do with its call, or the
surroundings' own. -/
inductive Turn (ι Choice Ambient : Type) where
  | call (who : ι) (choice : Choice)
  | ambient (action : Ambient)

/-- The shared state and what is left of each program. -/
structure Config (S : Type) {Req : Type} (Resp : Req → Type) (ε α ι : Type) where
  state : S
  pool : ι → Program Resp ε α

namespace Config

variable {ι Choice Ambient : Type} [DecidableEq ι]
  (serve : Choice → S → (request : Req) → Option (S × Resp request))
  (move : Ambient → S → Option S)

/-- Take one turn. A turn that is not possible changes nothing. -/
def turn (config : Config S Resp ε α ι) : Turn ι Choice Ambient → Config S Resp ε α ι
  | .call who choice =>
    match config.pool who with
    | .call request next =>
      match serve choice config.state request with
      | some (state, response) => ⟨state, Function.update config.pool who (next response)⟩
      | none => config
    | _ => config
  | .ambient action =>
    match move action config.state with
    | some state => { config with state }
    | none => config

/-- Follow a schedule. -/
def play (config : Config S Resp ε α ι) (turns : List (Turn ι Choice Ambient)) :
    Config S Resp ε α ι :=
  turns.foldl (turn serve move) config

theorem play_append (config : Config S Resp ε α ι) (first later : List (Turn ι Choice Ambient)) :
    config.play serve move (first ++ later) =
      (config.play serve move first).play serve move later := List.foldl_append

/-- A turn happens in a state that allows its call, or the move of the surroundings. -/
def Allows (allowed : S → Req → Prop) (calm : Ambient → S → Prop) (config : Config S Resp ε α ι) :
    Turn ι Choice Ambient → Prop
  | .call who _ =>
    match config.pool who with
    | .call request _ => allowed config.state request
    | _ => True
  | .ambient action => calm action config.state

/-- Every turn of a schedule is allowed where it is taken. -/
def Meets (allowed : S → Req → Prop) (calm : Ambient → S → Prop) :
    Config S Resp ε α ι → List (Turn ι Choice Ambient) → Prop
  | _, [] => True
  | config, turn :: rest =>
    config.Allows allowed calm turn ∧ Meets allowed calm (config.turn serve move turn) rest

instance (allowed : S → Req → Prop) (calm : Ambient → S → Prop)
    [∀ s request, Decidable (allowed s request)] [∀ action s, Decidable (calm action s)]
    (config : Config S Resp ε α ι) :
    (turn : Turn ι Choice Ambient) → Decidable (config.Allows allowed calm turn)
  | .call who _ =>
    match current : config.pool who with
    | .call request _ => decidable_of_iff (allowed config.state request) (by simp [Allows, current])
    | .pure _ => isTrue (by simp [Allows, current])
    | .throw _ => isTrue (by simp [Allows, current])
  | .ambient action => inferInstanceAs (Decidable (calm action config.state))

instance decidableMeets (allowed : S → Req → Prop) (calm : Ambient → S → Prop)
    [∀ s request, Decidable (allowed s request)] [∀ action s, Decidable (calm action s)] :
    (config : Config S Resp ε α ι) → (turns : List (Turn ι Choice Ambient)) →
      Decidable (config.Meets serve move allowed calm turns)
  | _, [] => isTrue trivial
  | config, turn :: rest =>
    have := decidableMeets allowed calm (config.turn serve move turn) rest
    inferInstanceAs (Decidable (_ ∧ _))

variable {serve move} {allowed : S → Req → Prop} {calm : Ambient → S → Prop}

/-- Where everything is allowed, every schedule is. -/
theorem meets_of_forall (free : ∀ s request, allowed s request) (idle : ∀ action s, calm action s)
    (config : Config S Resp ε α ι) (turns : List (Turn ι Choice Ambient)) :
    config.Meets serve move allowed calm turns := by
  induction turns generalizing config with
  | nil => trivial
  | cons turn rest ih =>
    refine ⟨?_, ih _⟩
    cases turn with
    | ambient action => exact idle action _
    | call who choice =>
      simp only [Allows]
      split
      · exact free _ _
      · trivial

theorem meets_append {config : Config S Resp ε α ι} {first later : List (Turn ι Choice Ambient)} :
    config.Meets serve move allowed calm (first ++ later) ↔
      config.Meets serve move allowed calm first ∧
        (config.play serve move first).Meets serve move allowed calm later := by
  induction first generalizing config with
  | nil => exact ⟨fun h => ⟨trivial, h⟩, fun h => h.2⟩
  | cons turn rest ih => exact (and_congr_right fun _ => ih).trans and_assoc.symm

end Config

/-- The calls a schedule may answer, as an environment. -/
def served {Choice : Type} (serve : Choice → S → (request : Req) → Option (S × Resp request))
    (allowed : S → Req → Prop) : Env S Resp := fun s request s' response =>
  allowed s request ∧ ∃ choice, serve choice s request = some (s', response)

section Soundness

variable {ι Choice Ambient : Type} [DecidableEq ι]
  {serve : Choice → S → (request : Req) → Option (S × Resp request)}
  {move : Ambient → S → Option S} {allowed : S → Req → Prop} {calm : Ambient → S → Prop}
  {inv : S → Prop} {step : S → S → Prop} {post : ι → α → S → Prop} {fail : ι → ε → S → Prop}

/-- What a schedule leaves: an invariant state, reached by `step`s, with every program as good as
at the start. -/
structure Config.Kept (serve : Choice → S → (request : Req) → Option (S × Resp request))
    (allowed : S → Req → Prop) (inv : S → Prop) (step : S → S → Prop)
    (post : ι → α → S → Prop) (fail : ι → ε → S → Prop) (start : S)
    (config : Config S Resp ε α ι) : Prop where
  inv : inv config.state
  moved : ReflTransGen step start config.state
  pool : ∀ who,
    (config.pool who).Guarantees (served serve allowed) step (post who) (fail who) config.state

omit [DecidableEq ι] in
/-- Any state on the way is as good a start as the first. -/
theorem Config.Kept.restart {start : S} {config : Config S Resp ε α ι}
    (kept : config.Kept serve allowed inv step post fail start) :
    config.Kept serve allowed inv step post fail config.state :=
  ⟨kept.inv, .refl, kept.pool⟩

theorem Config.Kept.call {start : S} {config : Config S Resp ε α ι}
    (kept : config.Kept serve allowed inv step post fail start)
    (keeps : ∀ s t, ReflTransGen step s t → inv s → inv t) {who : ι} {choice : Choice}
    (may : config.Allows allowed calm (.call who choice : Turn ι Choice Ambient)) :
    (config.turn serve move (.call who choice)).Kept serve allowed inv step post fail start := by
  cases current : config.pool who with
  | pure a => simpa only [Config.turn, current] using kept
  | throw error => simpa only [Config.turn, current] using kept
  | call request next =>
    cases answer : serve choice config.state request with
    | none => simpa only [Config.turn, current, answer] using kept
    | some found =>
      obtain ⟨state, response⟩ := found
      simp only [Config.turn, current, answer]
      have judged := kept.pool who
      rw [current] at judged
      have here : allowed config.state request := by simpa only [Config.Allows, current] using may
      obtain ⟨moves, rest⟩ := judged config.state .refl state response ⟨here, choice, answer⟩
      refine ⟨keeps _ _ moves kept.inv, kept.moved.trans moves, fun other => ?_⟩
      -- the caller goes on with the answer; everybody else has only seen a move
      by_cases same : other = who
      · subst same
        simpa using rest
      · simpa [same] using (kept.pool other).mono moves

theorem Config.Kept.ambient {start : S} {config : Config S Resp ε α ι}
    (kept : config.Kept serve allowed inv step post fail start)
    (keeps : ∀ s t, ReflTransGen step s t → inv s → inv t)
    (moves : ∀ action s t, inv s → calm action s → move action s = some t → ReflTransGen step s t)
    {action : Ambient}
    (may : config.Allows allowed calm (.ambient action : Turn ι Choice Ambient)) :
    (config.turn serve move (.ambient action)).Kept serve allowed inv step post fail start := by
  cases moved : move action config.state with
  | none => simpa only [Config.turn, moved] using kept
  | some state =>
    simp only [Config.turn, moved]
    have step := moves action _ _ kept.inv may moved
    exact ⟨keeps _ _ step kept.inv, kept.moved.trans step, fun who => (kept.pool who).mono step⟩

/-- **Programs that are right alone are right together**, over every schedule that meets the
conditions they assume. -/
theorem Guarantees.play (keeps : ∀ s t, ReflTransGen step s t → inv s → inv t)
    (moves : ∀ action s t, inv s → calm action s → move action s = some t → ReflTransGen step s t)
    {start : S} {turns : List (Turn ι Choice Ambient)} {config : Config S Resp ε α ι}
    (kept : config.Kept serve allowed inv step post fail start)
    (meets : config.Meets serve move allowed calm turns) :
    (config.play serve move turns).Kept serve allowed inv step post fail start := by
  induction turns generalizing config with
  | nil => exact kept
  | cons turn rest ih =>
    cases turn with
    | call who choice => exact ih (kept.call keeps meets.1) meets.2
    | ambient action => exact ih (kept.ambient keeps moves meets.1) meets.2

end Soundness

end Updatedc.Program
