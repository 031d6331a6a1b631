import Mathlib.Logic.Basic

/-!
# Computations with a trace

A computation that reads and changes a state `σ`, may fail with an error `τ`, and records the
events `ε` that matter to an observer.  `Traced.Safe P Q` says that from every state the
computation records only events with `P` and fails only with errors that have `Q`, whatever the
code outside that it runs (`Traced.foreign`) returns.

The rules follow the ways in which computations are put together, so that a safety proof goes
by the structure of the computation and never looks at a state.
-/

namespace CryptoTrading.Lib

variable {σ ε τ α β κ : Type}

/-- The events recorded, the result or the error, and the state after it. -/
def Traced (σ ε τ α : Type) : Type := σ → List ε × Except τ α × σ

namespace Traced

/-! ## §1 Computations -/

instance : Monad (Traced σ ε τ) where
  pure a := fun s => ([], .ok a, s)
  bind m f := fun s =>
    match m s with
    | (trace, .ok a, s') => (trace ++ (f a s').1, (f a s').2)
    | (trace, .error e, s') => (trace, .error e, s')

/-- Fail with the given error. -/
def raise (e : τ) : Traced σ ε τ α := fun s => ([], .error e, s)

/-- Record an event. -/
def record (event : ε) : Traced σ ε τ Unit := fun s => ([event], .ok (), s)

/-- Run code from outside, which records nothing; its errors are wrapped. -/
def foreign (wrap : κ → τ) (code : σ → Except κ α × σ) : Traced σ ε τ α := fun s =>
  match code s with
  | (.ok a, s') => ([], .ok a, s')
  | (.error e, s') => ([], .error (wrap e), s')

theorem pure_bind (a : α) (f : α → Traced σ ε τ β) : (pure a >>= f) = f a := rfl

/-! ## §2 Safety -/

/-- Only events with `P` are recorded, and only errors with `Q` are raised. -/
def Safe (P : ε → Prop) (Q : τ → Prop) (m : Traced σ ε τ α) : Prop :=
  ∀ s, (∀ event ∈ (m s).1, P event) ∧ ∀ e, (m s).2.1 = .error e → Q e

variable {P : ε → Prop} {Q : τ → Prop}

/-- A computation that records nothing is safe when its errors are. -/
theorem Safe.of_silent {m : Traced σ ε τ α} (htrace : ∀ s, (m s).1 = [])
    (herror : ∀ s e, (m s).2.1 = .error e → Q e) : Safe P Q m := by
  intro s
  refine ⟨?_, herror s⟩
  rw [htrace s]
  intro event hevent
  cases hevent

theorem Safe.pure (a : α) : Safe P Q (Pure.pure a : Traced σ ε τ α) := by
  apply Safe.of_silent
  · intro s
    rfl
  · intro s e he
    cases he

/-- Safe parts make a safe whole. -/
theorem Safe.bind {m : Traced σ ε τ α} {f : α → Traced σ ε τ β} (hm : Safe P Q m)
    (hf : ∀ a, Safe P Q (f a)) : Safe P Q (m >>= f) := by
  intro s
  obtain ⟨hevents, herrors⟩ := hm s
  simp only [Bind.bind]
  rcases hrun : m s with ⟨trace, result, s'⟩
  rw [hrun] at hevents herrors
  cases result with
  | error e =>
    refine ⟨hevents, ?_⟩
    intro e' he'
    obtain rfl := Except.error.inj he'
    exact herrors e rfl
  | ok a =>
    obtain ⟨hevents', herrors'⟩ := hf a s'
    refine ⟨?_, herrors'⟩
    intro event hevent
    rcases List.mem_append.mp hevent with hfirst | hrest
    · exact hevents event hfirst
    · exact hevents' event hrest

theorem Safe.raise {e : τ} (he : Q e) : Safe P Q (Traced.raise e : Traced σ ε τ α) := by
  apply Safe.of_silent
  · intro s
    rfl
  · intro s e' he'
    obtain rfl := Except.error.inj he'
    exact he

theorem Safe.record {event : ε} (hevent : P event) :
    Safe P Q (Traced.record event : Traced σ ε τ Unit) := by
  intro s
  refine ⟨?_, ?_⟩
  · intro event' hmem
    rw [List.mem_singleton.mp hmem]
    exact hevent
  · intro e he
    cases he

/-- Code from outside is safe when the errors that it may raise are. -/
theorem Safe.foreign {wrap : κ → τ} (hwrap : ∀ e, Q (wrap e)) (code : σ → Except κ α × σ) :
    Safe P Q (Traced.foreign wrap code : Traced σ ε τ α) := by
  apply Safe.of_silent
  · intro s
    simp only [Traced.foreign]
    split <;> rfl
  · intro s e he
    simp only [Traced.foreign] at he
    split at he
    · cases he
    · rename_i e' s' _
      obtain rfl := Except.error.inj he
      exact hwrap e'

/-! ## §3 What a computation returns -/

/-- From the state `s` the computation returns `a` and leaves the state `s'`. -/
def Returns (m : Traced σ ε τ α) (s : σ) (a : α) (s' : σ) : Prop := (m s).2 = (.ok a, s')

theorem Returns.unique {m : Traced σ ε τ α} {s s' s'' : σ} {a b : α} (h : Returns m s a s')
    (h' : Returns m s b s'') : a = b ∧ s' = s'' := by
  have heq := h.symm.trans h'
  obtain ⟨hvalue, hstate⟩ := Prod.mk.inj heq
  exact ⟨Except.ok.inj hvalue, hstate⟩

@[simp] theorem returns_pure {a b : α} {s s' : σ} :
    Returns (Pure.pure a : Traced σ ε τ α) s b s' ↔ a = b ∧ s = s' := by
  simp [Returns, Pure.pure]

@[simp] theorem returns_raise {e : τ} {b : α} {s s' : σ} :
    ¬ Returns (Traced.raise e : Traced σ ε τ α) s b s' := by
  simp [Returns, Traced.raise]

@[simp] theorem returns_record {event : ε} {u : Unit} {s s' : σ} :
    Returns (Traced.record event : Traced σ ε τ Unit) s u s' ↔ s = s' := by
  simp [Returns, Traced.record]

/-- A sequence returns what its second part returns after the first. -/
theorem returns_bind {m : Traced σ ε τ α} {f : α → Traced σ ε τ β} {s s'' : σ} {b : β} :
    Returns (m >>= f) s b s'' ↔ ∃ a s', Returns m s a s' ∧ Returns (f a) s' b s'' := by
  simp only [Returns, Bind.bind]
  rcases hrun : m s with ⟨trace, result, s'⟩
  cases result with
  | error e => simp
  | ok a =>
    simp only [Prod.mk.injEq, Except.ok.injEq]
    constructor
    · intro h
      exact ⟨a, s', ⟨rfl, rfl⟩, h⟩
    · rintro ⟨a', t, ⟨rfl, rfl⟩, h⟩
      exact h

theorem returns_foreign {wrap : κ → τ} {code : σ → Except κ α × σ} {s s' : σ} {a : α} :
    Returns (Traced.foreign wrap code : Traced σ ε τ α) s a s' ↔ code s = (.ok a, s') := by
  simp only [Returns, Traced.foreign]
  rcases hrun : code s with ⟨result, s''⟩
  cases result with
  | error e => simp
  | ok b => simp

end Traced

end CryptoTrading.Lib
