import Updatedc.Lib.Program

/-!
# Scripted runs

The freedom of the surroundings, made data: at every call they make one **choice**, and the answer
and the next state are a function of it. A script is the list of choices one process meets. A
process whose script ends in the middle of a call **dies there**, so that the scripts of a program
are all of its runs, cut at every point.

A condition on the surroundings is a condition on the single choices (`allowed`); `Admissible` says
that a run meets it everywhere. What a program `Ensures` against the allowed choices holds in every
admissible run (`Ensures.play`).
-/

namespace Updatedc.Program

variable {Req : Type} {Resp : Req → Type} {ε α β S C : Type}

/-- What a call does, given the choice made. -/
abbrev Scripted (S : Type) (Resp : Req → Type) (C : Type) :=
  S → (request : Req) → C → S × Resp request

/-- How a process ended. -/
inductive Ending (ε α : Type) where
  | returned (a : α)
  | failed (error : ε)
  | died
  deriving DecidableEq

section Runs

variable (serve : Scripted S Resp C) (allowed : S → Req → C → Prop)

/-- The environment that makes any allowed choice. -/
def chosen : Env S Resp := fun s request s' response =>
  ∃ choice, allowed s request choice ∧ serve s request choice = (s', response)

/-- The run of a process along a script, with the state it leaves. -/
def play : Program Resp ε α → S → List C → Ending ε α × S
  | pure a, s, _ => (.returned a, s)
  | throw error, s, _ => (.failed error, s)
  | call _ _, s, [] => (.died, s)
  | call request next, s, choice :: rest =>
    (next (serve s request choice).2).play (serve s request choice).1 rest

/-- Every choice the run meets is allowed. -/
def Admissible : Program Resp ε α → S → List C → Prop
  | call request next, s, choice :: rest =>
    allowed s request choice ∧
      (next (serve s request choice).2).Admissible (serve s request choice).1 rest
  | _, _, _ => True

instance Admissible.decidable [∀ s request choice, Decidable (allowed s request choice)] :
    ∀ (p : Program Resp ε α) (s : S) (script : List C),
      Decidable (p.Admissible serve allowed s script)
  | call request next, s, choice :: rest =>
    @instDecidableAnd _ _ _
      (decidable (next (serve s request choice).2) (serve s request choice).1 rest)
  | call _ _, _, [] | pure _, _, _ | throw _, _, _ => .isTrue trivial

variable {serve allowed} {crash : S → Prop} {post : α → S → Prop} {fail : ε → S → Prop}
  {p : Program Resp ε α} {s : S}

theorem Ensures.play (h : p.Ensures (chosen serve allowed) crash post fail s) (script : List C)
    (admissible : p.Admissible serve allowed s script) :
    crash (p.play serve s script).2 ∧ match (p.play serve s script).1 with
      | .returned a => post a (p.play serve s script).2
      | .failed error => fail error (p.play serve s script).2
      | .died => True := by
  induction p generalizing s script with
  | pure a => exact h
  | throw error => exact h
  | call request next ih =>
    cases script with
    | nil => exact ⟨h.1, trivial⟩
    | cons choice rest =>
      exact ih _ (h.2 _ _ ⟨choice, admissible.1, rfl⟩) rest admissible.2

/-- A script of choices that are allowed everywhere. -/
theorem admissible_of_script (p : Program Resp ε α) (s : S) {script : List C}
    (fine : ∀ choice ∈ script, ∀ s request, allowed s request choice) :
    p.Admissible serve allowed s script := by
  induction p generalizing s script with
  | pure a => exact trivial
  | throw error => exact trivial
  | call request next ih =>
    cases script with
    | nil => exact trivial
    | cons choice rest =>
      exact ⟨fine choice List.mem_cons_self _ _,
        ih _ _ fun other later => fine other (List.mem_cons_of_mem _ later)⟩

end Runs

/-! ## Programs that follow a rule

Many invariants can be kept by one discipline of calls. `Follows` says what a program has to do for
it: at every call, **given** that the invariant holds, the call is one the rule permits. That a
permitted call keeps the invariant is then shown once per call (`Follows.ensures`), and not again
for every program and every invariant. -/

/-- From `s`, as long as `inv` holds, every call is permitted by `rule`. -/
def Follows (env : Env S Resp) (inv : S → Prop) (rule : S → Req → Prop) (post : α → S → Prop)
    (fail : ε → S → Prop) : Program Resp ε α → S → Prop
  | pure a, s => inv s → post a s
  | throw error, s => inv s → fail error s
  | call request next, s =>
    inv s → rule s request ∧ ∀ s' response, env s request s' response →
      (next response).Follows env inv rule post fail s'

section Follows

variable {env env' : Env S Resp} {inv : S → Prop} {rule : S → Req → Prop}
  {post post' : α → S → Prop} {fail fail' : ε → S → Prop} {p : Program Resp ε α} {s : S}

/-- The invariant may be assumed. -/
theorem Follows.assume (h : inv s → p.Follows env inv rule post fail s) :
    p.Follows env inv rule post fail s := by
  cases p with
  | pure a => exact fun kept => h kept kept
  | throw error => exact fun kept => h kept kept
  | call request next => exact fun kept => h kept kept

@[simp] theorem follows_bind {f : α → Program Resp ε β} {post : β → S → Prop} :
    (p >>= f).Follows env inv rule post fail s ↔
      p.Follows env inv rule (fun a s => (f a).Follows env inv rule post fail s) fail s := by
  change (p.bind f).Follows env inv rule post fail s ↔ _
  induction p generalizing s with
  | pure a => exact ⟨fun h _ => h, fun h => .assume h⟩
  | throw error => exact Iff.rfl
  | call request next ih =>
    exact forall_congr' fun _ => and_congr_right fun _ => forall₃_congr fun _ response _ =>
      ih response

theorem Follows.imp (h : p.Follows env inv rule post fail s)
    (returns : ∀ a s, inv s → post a s → post' a s)
    (fails : ∀ error s, inv s → fail error s → fail' error s) :
    p.Follows env inv rule post' fail' s := by
  induction p generalizing s with
  | pure a => exact fun kept => returns a s kept (h kept)
  | throw error => exact fun kept => fails error s kept (h kept)
  | call request next ih =>
    exact fun kept => ⟨(h kept).1, fun s' response answer =>
      ih response ((h kept).2 s' response answer)⟩

/-- What a program does without assuming anything it does under any assumption. -/
theorem Follows.under (h : p.Follows env (fun _ => True) rule post fail s) :
    p.Follows env inv rule post fail s := by
  induction p generalizing s with
  | pure a => exact fun _ => h trivial
  | throw error => exact fun _ => h trivial
  | call request next ih =>
    exact fun _ => ⟨(h trivial).1, fun s' response answer =>
      ih response ((h trivial).2 s' response answer)⟩

/-- **Permitted calls keep the invariant**, so a program that follows the rule does. -/
theorem Follows.ensures (h : p.Follows env inv rule post fail s)
    (keeps : ∀ s request s' response, inv s → rule s request → env s request s' response → inv s')
    (start : inv s) : p.Ensures env inv post fail s := by
  induction p generalizing s with
  | pure a => exact ⟨start, h start⟩
  | throw error => exact ⟨start, h start⟩
  | call request next ih =>
    have ⟨permitted, rest⟩ := h start
    exact ⟨start, fun s' response answer =>
      ih response (rest s' response answer) (keeps _ _ _ _ start permitted answer)⟩

end Follows

end Updatedc.Program
