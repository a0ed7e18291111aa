import Mathlib

/-!
# Fallible computations

How a chain of fallible steps is taken apart: what each step returned when the chain succeeded
(`bind_ok_iff`), which step failed when it did not (`bind_error_iff`), which errors a chain can
fail with at all (`FailsOnly`), and which errors set it apart from another chain (`SameUnless`); the
last two are closed under sequencing and loops.
-/

namespace Updatedc.Except

universe u

variable {α β : Type u} {ε : Type*} {x : Except ε α} {f : α → Except ε β}

theorem bind_ok_iff {b : β} : x >>= f = .ok b ↔ ∃ a, x = .ok a ∧ f a = .ok b := by
  cases x with
  | error e => exact ⟨nofun, fun ⟨_, h, _⟩ => nomatch h⟩
  | ok a => exact ⟨fun h => ⟨a, rfl, h⟩, fun ⟨_, h, g⟩ => by cases h; exact g⟩

theorem bind_error_iff {e : ε} :
    x >>= f = .error e ↔ x = .error e ∨ ∃ a, x = .ok a ∧ f a = .error e := by
  cases x with
  | error e' => exact ⟨fun h => .inl (by cases h; rfl), by rintro (h | ⟨_, h, _⟩) <;> cases h; rfl⟩
  | ok a => exact ⟨fun h => .inr ⟨a, rfl, h⟩, by rintro (h | ⟨_, h, g⟩) <;> cases h; exact g⟩

theorem mapError_ok_iff {ε' : Type*} {x : Except ε' α} {g : ε' → ε} {a : α} :
    x.mapError g = .ok a ↔ x = .ok a := by
  cases x <;> simp [Except.mapError]

theorem map_ok_iff {g : α → β} {b : β} : x.map g = .ok b ↔ ∃ a, x = .ok a ∧ g a = b := by
  cases x <;> simp [Except.map]

theorem toOption_eq_some_iff {a : α} : x.toOption = some a ↔ x = .ok a := by
  cases x with
  | error e => exact ⟨nofun, nofun⟩
  | ok b => exact ⟨fun h => congrArg _ (Option.some.inj h), fun h => by cases h; rfl⟩

/-- A computation whose result passes a test has a result. -/
theorem exists_of_any {p : α → Bool} (h : x.toOption.any p = true) :
    ∃ a, x = .ok a ∧ p a = true := by
  cases x with
  | error e => cases h
  | ok a => exact ⟨a, rfl, h⟩

/-- The error of a computation that failed. -/
def error? : Except ε α → Option ε
  | .error e => some e
  | .ok _ => none

theorem error?_eq_some_iff {e : ε} : error? x = some e ↔ x = .error e := by
  cases x with
  | error e' => exact ⟨fun h => congrArg _ (Option.some.inj h), fun h => by cases h; rfl⟩
  | ok a => exact ⟨nofun, nofun⟩

/-! ## Loops that succeed -/

variable {ι : Type*}

/-- Every turn of a loop that succeeded did. -/
theorem ok_of_mem_foldlM {σ : Type u} {step : σ → ι → Except ε σ} {l : List ι} {first last : σ}
    (ok : l.foldlM step first = .ok last) {i : ι} (member : i ∈ l) : ∃ s t, step s i = .ok t := by
  induction l generalizing first with
  | nil => cases member
  | cons j rest ih =>
    obtain ⟨next, turn, others⟩ := bind_ok_iff.mp ok
    rcases List.mem_cons.mp member with rfl | later
    · exact ⟨first, next, turn⟩
    · exact ih others later

section
variable {σ : Type u} {ι : Type*} {step : σ → ι → Except ε σ} {l : List ι} {first last : σ}
  {p : σ → Prop}

/-- What every turn keeps, the loop keeps. -/
theorem keeps_foldlM (ok : l.foldlM step first = .ok last)
    (keeps : ∀ i ∈ l, ∀ s t, step s i = .ok t → p s → p t) (h : p first) : p last := by
  induction l generalizing first with
  | nil =>
    cases ok
    exact h
  | cons i rest ih =>
    obtain ⟨next, turn, others⟩ := bind_ok_iff.mp ok
    exact ih others (fun j later => keeps j (List.mem_cons_of_mem _ later))
      (keeps i List.mem_cons_self first next turn h)

/-- What one turn establishes and every turn keeps holds after the loop. -/
theorem of_mem_foldlM (ok : l.foldlM step first = .ok last)
    (keeps : ∀ i ∈ l, ∀ s t, step s i = .ok t → p s → p t) {i : ι} (member : i ∈ l)
    (makes : ∀ s t, step s i = .ok t → p t) : p last := by
  induction l generalizing first with
  | nil => cases member
  | cons j rest ih =>
    obtain ⟨next, turn, others⟩ := bind_ok_iff.mp ok
    have rest_keeps : ∀ i ∈ rest, ∀ s t, step s i = .ok t → p s → p t :=
      fun i later => keeps i (List.mem_cons_of_mem _ later)
    rcases List.mem_cons.mp member with rfl | later
    · exact keeps_foldlM others rest_keeps (makes first next turn)
    · exact ih others rest_keeps later

end

theorem ok_of_mem_forM {step : ι → Except ε PUnit} {l : List ι} (ok : l.forM step = .ok ⟨⟩) {i : ι}
    (member : i ∈ l) : step i = .ok ⟨⟩ := by
  induction l with
  | nil => cases member
  | cons j rest ih =>
    obtain ⟨_, turn, others⟩ := bind_ok_iff.mp ok
    rcases List.mem_cons.mp member with rfl | later
    · exact turn
    · exact ih others later

theorem forM_eq_ok {step : ι → Except ε PUnit} {l : List ι} (turns : ∀ i ∈ l, step i = .ok ⟨⟩) :
    l.forM step = .ok ⟨⟩ := by
  induction l with
  | nil => rfl
  | cons i rest ih =>
    exact bind_ok_iff.mpr ⟨⟨⟩, turns i List.mem_cons_self,
      ih fun j later => turns j (List.mem_cons_of_mem _ later)⟩

/-! ## Which errors there can be -/

/-- Every error the computation can fail with satisfies `p`. -/
def FailsOnly (p : ε → Prop) (x : Except ε α) : Prop := ∀ e, x = .error e → p e

variable {p : ε → Prop}

theorem FailsOnly.ok (a : α) : FailsOnly p (.ok a : Except ε α) := nofun

theorem FailsOnly.error {e : ε} (h : p e) : FailsOnly p (.error e : Except ε α) := by
  intro e' same
  cases same
  exact h

theorem FailsOnly.bind (first : FailsOnly p x) (next : ∀ a, FailsOnly p (f a)) :
    FailsOnly p (x >>= f) := by
  intro e failed
  rcases bind_error_iff.mp failed with now | ⟨a, -, later⟩
  · exact first e now
  · exact next a e later

theorem FailsOnly.mapError {ε' : Type*} {x : Except ε' α} {g : ε' → ε} (h : ∀ e, p (g e)) :
    FailsOnly p (x.mapError g) := by
  cases x with
  | error e => exact .error (h e)
  | ok a => exact .ok a

theorem FailsOnly.foldlM {σ : Type u} {step : σ → ι → Except ε σ} (first : σ) (l : List ι)
    (h : ∀ i ∈ l, ∀ s, FailsOnly p (step s i)) : FailsOnly p (l.foldlM step first) := by
  induction l generalizing first with
  | nil => exact .ok first
  | cons i rest ih =>
    exact (h i List.mem_cons_self first).bind fun next =>
      ih next fun j later => h j (List.mem_cons_of_mem _ later)

theorem FailsOnly.forM {step : ι → Except ε PUnit} (h : ∀ i, FailsOnly p (step i)) (l : List ι) :
    FailsOnly p (l.forM step) := by
  induction l with
  | nil => exact .ok _
  | cons i rest ih => exact (h i).bind fun _ => ih

/-! ## Two computations that differ by an error -/

/-- The first computation is the second, unless it fails with an error that satisfies `p`. -/
def SameUnless (p : ε → Prop) (x y : Except ε α) : Prop := x = y ∨ ∃ e, x = .error e ∧ p e

theorem SameUnless.refl (x : Except ε α) : SameUnless p x x := .inl rfl

theorem SameUnless.bind {y : Except ε α} {g : α → Except ε β} (first : SameUnless p x y)
    (next : ∀ a, SameUnless p (f a) (g a)) : SameUnless p (x >>= f) (y >>= g) := by
  rcases first with rfl | ⟨e, rfl, h⟩
  · cases x with
    | error e => exact .refl _
    | ok a => exact next a
  · exact .inr ⟨e, rfl, h⟩

theorem SameUnless.foldlM {σ : Type u} {step other : σ → ι → Except ε σ} {l : List ι} (first : σ)
    (h : ∀ i s, SameUnless p (step s i) (other s i)) :
    SameUnless p (l.foldlM step first) (l.foldlM other first) := by
  induction l generalizing first with
  | nil => exact .refl _
  | cons i rest ih => exact (h i first).bind ih

end Updatedc.Except
