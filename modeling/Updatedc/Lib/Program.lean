import Mathlib

/-!
# Programs that may stop anywhere

A `Program` is a computation that talks to something outside itself: it returns, fails, or makes a
call and goes on with the answer. What is outside keeps its own state. An `Env` says which answers
and which next states it may give, so that faults and interference are a matter of the environment,
not of the program's text.

A process can die between any two calls, so a program is judged by three things at once: an
invariant of **every** state it passes through (what the next process finds when this one dies
there), what holds when it returns, and what holds when it fails. `Ensures` is that judgement, with
one rule per way of composing programs.
-/

namespace Updatedc

/-- A computation that calls its surroundings and may fail. -/
inductive Program {Req : Type} (Resp : Req → Type) (ε α : Type) where
  | pure (a : α)
  | throw (error : ε)
  | call (request : Req) (next : Resp request → Program Resp ε α)

/-- What the surroundings may do with a call: from a state, to a state, with an answer. -/
abbrev Env {Req : Type} (S : Type) (Resp : Req → Type) :=
  S → (request : Req) → S → Resp request → Prop

namespace Program

variable {Req : Type} {Resp : Req → Type} {ε α β S : Type}

protected def bind : Program Resp ε α → (α → Program Resp ε β) → Program Resp ε β
  | pure a, f => f a
  | throw error, _ => throw error
  | call request next, f => call request fun response => (next response).bind f

/-- Run `handler` on a failure. -/
protected def tryCatch : Program Resp ε α → (ε → Program Resp ε α) → Program Resp ε α
  | pure a, _ => pure a
  | throw error, handler => handler error
  | call request next, handler => call request fun response => (next response).tryCatch handler

instance : Monad (Program Resp ε) where
  pure := pure
  bind := Program.bind

instance : MonadExceptOf ε (Program Resp ε) where
  throw := throw
  tryCatch := Program.tryCatch

/-- One call, with its answer as the result. -/
def request (request : Req) : Program Resp ε (Resp request) := call request pure

/-- Run a program and take its failure as a result. -/
def attempt {ε' : Type} : Program Resp ε α → Program Resp ε' (Except ε α)
  | pure a => pure (.ok a)
  | throw error => pure (.error error)
  | call request next => call request fun response => (next response).attempt

/-- A computed result, or its failure. -/
def ofExcept : Except ε α → Program Resp ε α
  | .ok a => pure a
  | .error error => throw error

/-! ## The judgement -/

/-- From `s`, the program passes only through states with `crash`, returns only with `post` and
fails only with `fail`. -/
def Ensures (env : Env S Resp) (crash : S → Prop) (post : α → S → Prop) (fail : ε → S → Prop) :
    Program Resp ε α → S → Prop
  | pure a, s => crash s ∧ post a s
  | throw error, s => crash s ∧ fail error s
  | call request next, s =>
    crash s ∧ ∀ s' response, env s request s' response →
      (next response).Ensures env crash post fail s'

section Rules

variable {env : Env S Resp} {crash crash' : S → Prop} {post post' : α → S → Prop}
  {fail fail' : ε → S → Prop} {p : Program Resp ε α} {s : S}

/-- The state a program starts in is one it passes through. -/
theorem Ensures.here (h : p.Ensures env crash post fail s) : crash s := by
  cases p <;> exact h.1

theorem Ensures.imp (h : p.Ensures env crash post fail s) (weaker : ∀ s, crash s → crash' s)
    (returns : ∀ a s, crash s → post a s → post' a s)
    (fails : ∀ error s, crash s → fail error s → fail' error s) :
    p.Ensures env crash' post' fail' s := by
  induction p generalizing s with
  | pure a => exact ⟨weaker s h.1, returns a s h.1 h.2⟩
  | throw error => exact ⟨weaker s h.1, fails error s h.1 h.2⟩
  | call request next ih =>
    exact ⟨weaker s h.1, fun s' response answer => ih response (h.2 s' response answer)⟩

@[simp] theorem ensures_bind {f : α → Program Resp ε β} {post : β → S → Prop} :
    (p >>= f).Ensures env crash post fail s ↔
      p.Ensures env crash (fun a s => (f a).Ensures env crash post fail s) fail s := by
  change (p.bind f).Ensures env crash post fail s ↔ _
  induction p generalizing s with
  | pure a => exact ⟨fun h => ⟨h.here, h⟩, fun h => h.2⟩
  | throw error => exact Iff.rfl
  | call request next ih =>
    exact and_congr_right fun _ => forall₃_congr fun _ response _ => ih response

@[simp] theorem ensures_ofExcept {result : Except ε α} :
    (ofExcept result : Program Resp ε α).Ensures env crash post fail s ↔
      crash s ∧ match result with
        | .ok a => post a s
        | .error error => fail error s := by
  cases result <;> exact Iff.rfl

/-- A loop over a range of indices keeps what each round keeps. -/
theorem Ensures.forM_range {f : ℕ → Program Resp ε PUnit} (inv : ℕ → S → Prop) (stop : ℕ)
    (round : ∀ i < stop, ∀ s, inv i s → crash s →
      (f i).Ensures env crash (fun _ s => inv (i + 1) s) fail s) :
    ∀ (count start : ℕ) {s : S}, start + count = stop → inv start s → crash s →
      (forM (List.range' start count) f).Ensures env crash (fun _ s => inv stop s) fail s
  | 0, start, s, done, begun, live => ⟨live, by rw [← done]; exact begun⟩
  | count + 1, start, s, left, begun, live => by
    rw [List.range'_succ, List.forM_cons, ensures_bind]
    refine (round start (by omega) s begun live).imp (fun _ h => h) (fun _ s' live' kept => ?_)
      (fun _ _ _ h => h)
    exact forM_range inv stop round count (start + 1) (by omega) kept live'

/-- A loop over a range of indices that carries a value. -/
theorem Ensures.foldlM_range {f : β → ℕ → Program Resp ε β} (inv : ℕ → β → S → Prop) (stop : ℕ)
    (round : ∀ i < stop, ∀ b s, inv i b s → crash s →
      (f b i).Ensures env crash (fun b s => inv (i + 1) b s) fail s) :
    ∀ (count start : ℕ) {b : β} {s : S}, start + count = stop → inv start b s → crash s →
      ((List.range' start count).foldlM f b).Ensures env crash (fun b s => inv stop b s) fail s
  | 0, start, b, s, done, begun, live => ⟨live, by rw [← done]; exact begun⟩
  | count + 1, start, b, s, left, begun, live => by
    rw [List.range'_succ, List.foldlM_cons, ensures_bind]
    refine (round start (by omega) b s begun live).imp (fun _ h => h) (fun _ s' live' kept => ?_)
      (fun _ _ _ h => h)
    exact foldlM_range inv stop round count (start + 1) (by omega) kept live'

end Rules

/-! ## Environments that answer by a function -/

section Server

/-- Each call has one answer. -/
abbrev Server (S : Type) (Resp : Req → Type) := S → (request : Req) → S × Resp request

variable (server : Server S Resp)

/-- A server as an environment. -/
def answers : Env S Resp := fun s request s' response => server s request = (s', response)

/-- The whole run against a server: its outcome and the state it leaves. -/
def exec : Program Resp ε α → S → Except ε α × S
  | pure a, s => (.ok a, s)
  | throw error, s => (.error error, s)
  | call request next, s =>
    let (s', response) := server s request
    (next response).exec s'

/-- The state a process leaves that dies when it has made `calls` calls, if it lives that long. -/
def killed : ℕ → Program Resp ε α → S → S
  | calls + 1, call request next, s =>
    let (s', response) := server s request
    (next response).killed calls s'
  | _, _, s => s

variable {server} {crash : S → Prop} {post : α → S → Prop} {fail : ε → S → Prop}
  {p : Program Resp ε α} {s : S}

theorem Ensures.exec (h : p.Ensures (answers server) crash post fail s) :
    crash (p.exec server s).2 ∧ match (p.exec server s).1 with
      | .ok a => post a (p.exec server s).2
      | .error error => fail error (p.exec server s).2 := by
  induction p generalizing s with
  | pure a => exact h
  | throw error => exact h
  | call request next ih => exact ih _ (h.2 _ _ rfl)

theorem Ensures.killed (calls : ℕ) (h : p.Ensures (answers server) crash post fail s) :
    crash (p.killed server calls s) := by
  induction p generalizing s calls with
  | pure a => cases calls <;> exact h.1
  | throw error => cases calls <;> exact h.1
  | call request next ih =>
    cases calls with
    | zero => exact h.1
    | succ calls => exact ih _ calls (h.2 _ _ rfl)

end Server

end Program

end Updatedc
