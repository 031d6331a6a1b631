import Mathlib.Data.List.Basic

/-!
# Runs of a step function

A deterministic component is a step function `step : S → A → S`; a run feeds it a
list of inputs.  The two rules below are the ones every safety argument uses:

- `run_invariant`: what each step preserves, each run preserves;
- `run_invariant_along`: the same for steps that meet a side condition, when all
  the steps of the run meet it (`Along`).

Two threads that share the component run in an interleaving of their step lists
(`Interleaves`).
-/

namespace CryptoTrading.Lib

variable {S A : Type}

/-- The state after feeding the inputs one by one. -/
def run (step : S → A → S) (s : S) (as : List A) : S := as.foldl step s

@[simp] theorem run_nil (step : S → A → S) (s : S) : run step s [] = s := rfl

@[simp] theorem run_cons (step : S → A → S) (s : S) (a : A) (as : List A) :
    run step s (a :: as) = run step (step s a) as := rfl

theorem run_append (step : S → A → S) (s : S) (as bs : List A) :
    run step s (as ++ bs) = run step (run step s as) bs :=
  List.foldl_append

@[simp] theorem run_concat (step : S → A → S) (s : S) (as : List A) (a : A) :
    run step s (as ++ [a]) = step (run step s as) a := by
  rw [run_append]
  rfl

/-- An invariant of the steps is an invariant of the runs. -/
theorem run_invariant {step : S → A → S} (Inv : S → Prop)
    (hstep : ∀ s a, Inv s → Inv (step s a)) {s : S} (h₀ : Inv s) (as : List A) :
    Inv (run step s as) := by
  induction as generalizing s with
  | nil => exact h₀
  | cons a rest ih => exact ih (hstep s a h₀)

/-- Every step of the run satisfies `P` in the state it is taken in. -/
def Along (step : S → A → S) (P : S → A → Prop) : S → List A → Prop
  | _, [] => True
  | s, a :: rest => P s a ∧ Along step P (step s a) rest

instance Along.decidable {step : S → A → S} {P : S → A → Prop} [∀ s a, Decidable (P s a)] :
    (s : S) → (as : List A) → Decidable (Along step P s as)
  | _, [] => isTrue trivial
  | s, a :: rest =>
    @instDecidableAnd _ _ _ (Along.decidable (step s a) rest)

/-- An invariant of the steps that satisfy `P` holds after every run made of them. -/
theorem run_invariant_along {step : S → A → S} {P : S → A → Prop} (Inv : S → Prop)
    (hstep : ∀ s a, Inv s → P s a → Inv (step s a)) {s : S} (h₀ : Inv s)
    {as : List A} (hP : Along step P s as) : Inv (run step s as) := by
  induction as generalizing s with
  | nil => exact h₀
  | cons a rest ih => exact ih (hstep s a h₀ hP.1) hP.2

/-- Side conditions that are equivalent wherever the invariant holds. -/
theorem along_iff_of_invariant {step : S → A → S} {P Q : S → A → Prop} (Inv : S → Prop)
    (hiff : ∀ s a, Inv s → (P s a ↔ Q s a)) (hstep : ∀ s a, Inv s → Q s a → Inv (step s a))
    {s : S} (h₀ : Inv s) (as : List A) : Along step P s as ↔ Along step Q s as := by
  induction as generalizing s with
  | nil => exact Iff.rfl
  | cons a rest ih =>
    constructor
    · intro h
      have hq := (hiff s a h₀).mp h.1
      exact ⟨hq, (ih (hstep s a h₀ hq)).mp h.2⟩
    · intro h
      exact ⟨(hiff s a h₀).mpr h.1, (ih (hstep s a h₀ h.1)).mpr h.2⟩

/-- What the invariant and the side condition give for a step holds of every step. -/
theorem along_of_invariant {step : S → A → S} {P Q : S → A → Prop} (Inv : S → Prop)
    (hstep : ∀ s a, Inv s → P s a → Inv (step s a) ∧ Q s a) {s : S} (h₀ : Inv s) {as : List A}
    (hP : Along step P s as) : Along step Q s as := by
  induction as generalizing s with
  | nil => trivial
  | cons a rest ih =>
    obtain ⟨hinv, hq⟩ := hstep s a h₀ hP.1
    exact ⟨hq, ih hinv hP.2⟩

/-- A run splits at any point, and so do its side conditions. -/
theorem along_append {step : S → A → S} {P : S → A → Prop} {s : S} {as bs : List A} :
    Along step P s (as ++ bs) ↔ Along step P s as ∧ Along step P (run step s as) bs := by
  induction as generalizing s with
  | nil => exact (iff_of_eq (true_and _)).symm
  | cons a rest ih =>
    show P s a ∧ Along step P (step s a) (rest ++ bs) ↔ _
    rw [ih, ← and_assoc]
    rfl

/-- A preorder that holds between the states around each step holds between the ends of the run. -/
theorem rel_run_of_along {step : S → A → S} {R : S → S → Prop} (hrefl : ∀ s, R s s)
    (htrans : ∀ s t u, R s t → R t u → R s u) {s : S} {as : List A}
    (h : Along step (fun s a => R s (step s a)) s as) : R s (run step s as) := by
  induction as generalizing s with
  | nil => exact hrefl s
  | cons a rest ih => exact htrans s (step s a) _ h.1 (ih h.2)

/-- A preorder that holds between the states around each step holds between any two states of the
    run. -/
theorem rel_between_of_along {step : S → A → S} {R : S → S → Prop} (hrefl : ∀ s, R s s)
    (htrans : ∀ s t u, R s t → R t u → R s u) {s : S} {as : List A}
    (h : Along step (fun s a => R s (step s a)) s as) (before after : List A)
    (hle : before ++ after <+: as) : R (run step s before) (run step s (before ++ after)) := by
  obtain ⟨rest, rfl⟩ := hle
  have hafter := (along_append.mp (along_append.mp h).1).2
  rw [run_append]
  exact rel_run_of_along hrefl htrans hafter

/-- A preorder holds between any two states of the run when it holds around each step, and only
    then. -/
theorem rel_between_iff_along {step : S → A → S} {R : S → S → Prop} (hrefl : ∀ s, R s s)
    (htrans : ∀ s t u, R s t → R t u → R s u) {s : S} {as : List A} :
    (∀ before after, before ++ after <+: as →
      R (run step s before) (run step s (before ++ after))) ↔
      Along step (fun s a => R s (step s a)) s as := by
  constructor
  · intro h
    induction as generalizing s with
    | nil => trivial
    | cons a rest ih =>
      refine ⟨h [] [a] (List.cons_prefix_cons.mpr ⟨rfl, List.nil_prefix⟩), ih ?_⟩
      intro before after hle
      exact h (a :: before) after (List.cons_prefix_cons.mpr ⟨rfl, hle⟩)
  · intro h before after hle
    exact rel_between_of_along hrefl htrans h before after hle

theorem along_and {step : S → A → S} {P Q : S → A → Prop} {s : S} {as : List A} :
    Along step (fun s a => P s a ∧ Q s a) s as ↔ Along step P s as ∧ Along step Q s as := by
  induction as generalizing s with
  | nil => exact (iff_of_eq (true_and _)).symm
  | cons a rest ih =>
    show (P s a ∧ Q s a) ∧ Along step (fun s a => P s a ∧ Q s a) (step s a) rest ↔ _
    rw [ih]
    exact and_and_and_comm

/-- A condition on the inputs alone. -/
theorem along_of_forall {step : S → A → S} {P : A → Prop} {as : List A} (h : ∀ a ∈ as, P a)
    (s : S) : Along step (fun _ a => P a) s as := by
  induction as generalizing s with
  | nil => trivial
  | cons a rest ih =>
    exact ⟨h a List.mem_cons_self, ih (fun b hb => h b (List.mem_cons_of_mem _ hb)) (step s a)⟩

/-- A property of every state reached holds at the start and after each step. -/
theorem forall_prefix_iff_along {step : S → A → S} {Q : S → Prop} {s : S} {as : List A} :
    (∀ bs, bs <+: as → Q (run step s bs)) ↔ Q s ∧ Along step (fun s a => Q (step s a)) s as := by
  induction as generalizing s with
  | nil =>
    constructor
    · intro h
      exact ⟨h [] List.nil_prefix, trivial⟩
    · intro h bs hbs
      rw [List.prefix_nil.mp hbs]
      exact h.1
  | cons a rest ih =>
    constructor
    · intro h
      have hrest := ih.mp fun bs hbs => h (a :: bs) (List.cons_prefix_cons.mpr ⟨rfl, hbs⟩)
      exact ⟨h [] List.nil_prefix, hrest.1, hrest.2⟩
    · intro h bs hbs
      rcases List.prefix_cons_iff.mp hbs with rfl | ⟨bs', rfl, hbs'⟩
      · exact h.1
      · exact ih.mpr h.2 bs' hbs'

/-! ## Runs that read a list -/

/-- An invariant that speaks of what has been read holds in the end of all that was to be read. -/
theorem run_map_invariant {B : Type} {step : S → A → S} {f : B → A} {all : List B}
    (Inv : List B → S → Prop)
    (hstep : ∀ {read x rest s}, all = read ++ x :: rest → Inv read s →
      Inv (read ++ [x]) (step s (f x)))
    {read rest : List B} {s : S} (hall : all = read ++ rest) (h : Inv read s) :
    Inv all (run step s (rest.map f)) := by
  induction rest generalizing read s with
  | nil => rwa [hall, List.append_nil]
  | cons x rest ih =>
    rw [List.map_cons, run_cons]
    exact ih (by rw [hall, List.append_assoc]; rfl) (hstep hall h)

/-- A side condition that says something about what has been read, wherever the invariant holds,
    says it about every splitting of the list. -/
theorem along_map_iff {B : Type} {step : S → A → S} {f : B → A} {all : List B}
    (Inv : List B → S → Prop)
    (hstep : ∀ {read x rest s}, all = read ++ x :: rest → Inv read s →
      Inv (read ++ [x]) (step s (f x)))
    {P : S → A → Prop} {Q : List B → B → Prop}
    (hiff : ∀ {read x rest s}, all = read ++ x :: rest → Inv read s → (P s (f x) ↔ Q read x))
    {read rest : List B} {s : S} (hall : all = read ++ rest) (h : Inv read s) :
    Along step P s (rest.map f) ↔ ∀ xs x ys, rest = xs ++ x :: ys → Q (read ++ xs) x := by
  -- what is read grows from the front, so the invariant is carried to each split
  induction rest generalizing read s with
  | nil => exact iff_of_true trivial fun xs x ys hnil => by simp at hnil
  | cons x rest ih =>
    have hnext : all = (read ++ [x]) ++ rest := by rw [hall, List.append_assoc]; rfl
    rw [List.map_cons]
    refine (and_congr (hiff hall h) (ih hnext (hstep hall h))).trans ?_
    constructor
    · rintro ⟨hx, hrest⟩ xs y ys hsplit
      cases xs with
      | nil =>
        obtain ⟨rfl, -⟩ := List.cons.inj hsplit
        rwa [List.append_nil]
      | cons z zs =>
        obtain ⟨rfl, hzs⟩ := List.cons.inj hsplit
        have hy := hrest zs y ys hzs
        rwa [List.append_assoc] at hy
    · intro hevery
      refine ⟨?_, fun xs y ys hsplit => ?_⟩
      · have hx := hevery [] x rest rfl
        rwa [List.append_nil] at hx
      · rw [List.append_assoc]
        exact hevery (x :: xs) y ys (congrArg (x :: ·) hsplit)

/-! ## Steps that can fail -/

theorem bind_eq_ok {ε α β : Type} {x : Except ε α} {f : α → Except ε β} {r : β} :
    x >>= f = .ok r ↔ ∃ a, x = .ok a ∧ f a = .ok r := by
  cases x with
  | error e =>
    constructor
    · intro h
      cases h
    · rintro ⟨a, h, -⟩
      cases h
  | ok a =>
    constructor
    · intro h
      exact ⟨a, rfl, h⟩
    · rintro ⟨a', ha, h⟩
      obtain rfl := Except.ok.inj ha
      exact h

theorem mapError_eq_ok {ε δ α : Type} {x : Except ε α} {f : ε → δ} {a : α} :
    x.mapError f = .ok a ↔ x = .ok a := by
  cases x with
  | error e => simp [Except.mapError]
  | ok b => simp [Except.mapError]

theorem eq_ok_of_toOption {ε α : Type} {x : Except ε α} {a : α} (h : x.toOption = some a) :
    x = .ok a := by
  cases x with
  | error e => cases h
  | ok b => rw [Option.some.inj h]

/-- A step that fails leaves the state unchanged. -/
def attempt {ε : Type} (op : S → A → Except ε S) (s : S) (a : A) : S :=
  match op s a with
  | .ok s' => s'
  | .error _ => s

theorem attempt_of_ok {ε : Type} {op : S → A → Except ε S} {s s' : S} {a : A}
    (h : op s a = .ok s') : attempt op s a = s' := by
  simp [attempt, h]

theorem attempt_of_error {ε : Type} {op : S → A → Except ε S} {s : S} {a : A} {e : ε}
    (h : op s a = .error e) : attempt op s a = s := by
  simp [attempt, h]

/-- Only the steps that succeed can break an invariant. -/
theorem attempt_invariant {ε : Type} {op : S → A → Except ε S} (Inv : S → Prop) {s : S} {a : A}
    (h : Inv s) (hok : ∀ s', op s a = .ok s' → Inv s') : Inv (attempt op s a) := by
  cases hop : op s a with
  | error e =>
    rw [attempt_of_error hop]
    exact h
  | ok s' =>
    rw [attempt_of_ok hop]
    exact hok s' hop

/-- The schedule takes the steps of both threads, those of each thread in order. -/
inductive Interleaves : List A → List A → List A → Prop
  | nil : Interleaves [] [] []
  | left {a : A} {xs ys zs : List A} (h : Interleaves xs ys zs) :
      Interleaves (a :: xs) ys (a :: zs)
  | right {a : A} {xs ys zs : List A} (h : Interleaves xs ys zs) :
      Interleaves xs (a :: ys) (a :: zs)

theorem interleaves_nil_left {ys zs : List A} (h : Interleaves [] ys zs) : zs = ys := by
  induction ys generalizing zs with
  | nil =>
    cases h
    rfl
  | cons y rest ih =>
    cases h with
    | right h' => rw [ih h']

theorem interleaves_nil_right {xs zs : List A} (h : Interleaves xs [] zs) : zs = xs := by
  induction xs generalizing zs with
  | nil =>
    cases h
    rfl
  | cons x rest ih =>
    cases h with
    | left h' => rw [ih h']

/-- A thread of two steps and one of a single step: the single step comes first, in
    between, or last. -/
theorem interleaves_two_one {a b t : A} {sched : List A} (h : Interleaves [a, b] [t] sched) :
    sched = [t, a, b] ∨ sched = [a, t, b] ∨ sched = [a, b, t] := by
  cases h with
  | right h =>
    left
    rw [interleaves_nil_right h]
  | left h =>
    right
    cases h with
    | right h =>
      left
      rw [interleaves_nil_right h]
    | left h =>
      right
      rw [interleaves_nil_left h]

end CryptoTrading.Lib
