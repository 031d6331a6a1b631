import CryptoTrading.Lib.Run

/-!
# Slots of a store

A store with named slots: reading a slot, and writing one that the store has.  `Lawful` says when
the slots do not interfere: a slot that is written holds the value, and the slots apart from it
keep theirs.  Whether a slot can be written may depend on the store (`Writable`).

The results are about lists of writes: of the writes to a slot the last one counts, and what is
apart from all of them is as before.
-/

namespace CryptoTrading.Lib

/-- Reading a slot, whether the store has it, and writing one that it has. -/
structure Slots (C P V : Type) where
  get : C → P → V
  has : C → P → Bool
  set : C → P → V → Option C

namespace Slots

variable {C P V : Type}

/-- A write.  A slot that the store does not have is left alone. -/
def write (S : Slots C P V) (c : C) (e : P × V) : C := (S.set c e.1 e.2).getD c

/-- Slots that do not interfere. -/
structure Lawful (S : Slots C P V) (Writable : C → P → Prop) (Apart : P → P → Prop) : Prop where
  isSome_set : ∀ c p v, (S.set c p v).isSome = S.has c p
  get_set : ∀ {c p v c'}, Writable c p → S.set c p v = some c' → S.get c' p = v
  get_set_apart : ∀ {c p v c' q}, Writable c p → Apart p q → S.set c p v = some c' →
    S.get c' q = S.get c q
  has_set : ∀ {c p v c' q}, Writable c p → p = q ∨ Apart p q → S.set c p v = some c' →
    S.has c' q = S.has c q
  writable_set : ∀ {c p v c' q}, Writable c p → Writable c q → p = q ∨ Apart p q →
    S.set c p v = some c' → Writable c' q

/-- The name of the slot of a write is one of the names. -/
def Touches (es : List (P × V)) (p : P) : Prop := p ∈ es.map Prod.fst

namespace Lawful

variable {S : Slots C P V} {Writable : C → P → Prop} {Apart : P → P → Prop}

theorem write_cases (S : Slots C P V) (c : C) (e : P × V) :
    S.set c e.1 e.2 = some (S.write c e) ∨ S.set c e.1 e.2 = none ∧ S.write c e = c := by
  unfold write
  cases h : S.set c e.1 e.2 with
  | some c' => exact Or.inl rfl
  | none => exact Or.inr ⟨rfl, rfl⟩

theorem set_eq_some (h : S.Lawful Writable Apart) {c : C} {e : P × V}
    (hhas : S.has c e.1 = true) : S.set c e.1 e.2 = some (S.write c e) := by
  rcases write_cases S c e with hset | ⟨hset, -⟩
  · exact hset
  · have hsome := h.isSome_set c e.1 e.2
    rw [hset, hhas] at hsome
    cases hsome

theorem get_write (h : S.Lawful Writable Apart) {c : C} {e : P × V} (hok : Writable c e.1)
    (hhas : S.has c e.1 = true) : S.get (S.write c e) e.1 = e.2 :=
  h.get_set hok (h.set_eq_some hhas)

theorem get_write_apart (h : S.Lawful Writable Apart) {c : C} {e : P × V} {q : P}
    (hok : Writable c e.1) (hq : Apart e.1 q) : S.get (S.write c e) q = S.get c q := by
  rcases write_cases S c e with hset | ⟨-, heq⟩
  · exact h.get_set_apart hok hq hset
  · rw [heq]

theorem has_write (h : S.Lawful Writable Apart) {c : C} {e : P × V} {q : P}
    (hok : Writable c e.1) (hq : e.1 = q ∨ Apart e.1 q) :
    S.has (S.write c e) q = S.has c q := by
  rcases write_cases S c e with hset | ⟨-, heq⟩
  · exact h.has_set hok hq hset
  · rw [heq]

theorem writable_write (h : S.Lawful Writable Apart) {c : C} {e : P × V} {q : P}
    (hok : Writable c e.1) (hokq : Writable c q) (hq : e.1 = q ∨ Apart e.1 q) :
    Writable (S.write c e) q := by
  rcases write_cases S c e with hset | ⟨-, heq⟩
  · exact h.writable_set hok hokq hq hset
  · rw [heq]
    exact hokq

/-- The writes are to slots that can be written and do not interfere with the slots in `Q`. -/
def Fits (Writable : C → P → Prop) (Apart : P → P → Prop) (c : C) (es : List (P × V))
    (Q : P → Prop) : Prop :=
  ∀ e ∈ es, Writable c e.1 ∧ ∀ q, Touches es q ∨ Q q → e.1 = q ∨ Apart e.1 q

/-- What is left to write fits after a write. -/
theorem Fits.tail (h : S.Lawful Writable Apart) {c : C} {e : P × V} {es : List (P × V)}
    {Q : P → Prop} (hfits : Fits Writable Apart c (e :: es) Q) :
    Fits Writable Apart (S.write c e) es Q := by
  intro e' he'
  obtain ⟨hok, hapart⟩ := hfits e List.mem_cons_self
  obtain ⟨hok', hapart'⟩ := hfits e' (List.mem_cons_of_mem e he')
  refine ⟨h.writable_write hok hok' (hapart _ (Or.inl ?_)), fun q hq => hapart' q ?_⟩
  · exact List.mem_map_of_mem (List.mem_cons_of_mem e he')
  · rcases hq with hq | hq
    · exact Or.inl (List.mem_cons_of_mem e.1 hq)
    · exact Or.inr hq

/-- **A slot apart from all writes keeps its value.** -/
theorem get_run_apart (h : S.Lawful Writable Apart) {c : C} {es : List (P × V)} {q : P}
    (hfits : Fits Writable Apart c es fun _ => False) (hq : ∀ e ∈ es, Apart e.1 q) :
    S.get (run S.write c es) q = S.get c q := by
  induction es generalizing c with
  | nil => rfl
  | cons e rest ih =>
    have hok := (hfits e List.mem_cons_self).1
    rw [run_cons, ih (hfits.tail h) fun e' he' => hq e' (List.mem_cons_of_mem e he')]
    exact h.get_write_apart hok (hq e List.mem_cons_self)

theorem Fits.mono {c : C} {es : List (P × V)} {Q Q' : P → Prop}
    (h : Fits Writable Apart c es Q) (hQ : ∀ q, Q' q → Q q) : Fits Writable Apart c es Q' := by
  intro e he
  obtain ⟨hok, hapart⟩ := h e he
  exact ⟨hok, fun q hq => hapart q (hq.imp_right (hQ q))⟩

/-- Writes that have all been made were to slots that the store has. -/
theorem has_of_along (h : S.Lawful Writable Apart) {c : C} {es : List (P × V)}
    (hfits : Fits Writable Apart c es fun _ => False)
    (halong : Along S.write (fun c e => S.has c e.1 = true) c es) :
    ∀ e ∈ es, S.has c e.1 = true := by
  induction es generalizing c with
  | nil => simp
  | cons e rest ih =>
    intro e' he'
    rcases List.mem_cons.mp he' with rfl | hrest
    · exact halong.1
    · obtain ⟨hok, hapart⟩ := hfits e List.mem_cons_self
      rw [← h.has_write hok (hapart e'.1 (Or.inl (List.mem_map_of_mem he')))]
      exact ih (hfits.tail h) halong.2 e' hrest

/-- **Of the writes to a slot the last one counts.** -/
theorem get_run_last (h : S.Lawful Writable Apart) {c : C} {before after : List (P × V)}
    {e : P × V} (hfits : Fits Writable Apart c (before ++ e :: after) fun _ => False)
    (hhas : S.has c e.1 = true) (hlast : ¬ Touches after e.1) :
    S.get (run S.write c (before ++ e :: after)) e.1 = e.2 := by
  induction before generalizing c with
  | nil =>
    obtain ⟨hok, hapart⟩ := hfits e List.mem_cons_self
    rw [List.nil_append, run_cons]
    rw [h.get_run_apart (hfits.tail h), h.get_write hok hhas]
    intro e' he'
    -- the later writes are to other slots
    have htouch : Touches (e :: after) e.1 := List.mem_cons_self
    rcases (hfits e' (List.mem_cons_of_mem e he')).2 e.1 (Or.inl htouch) with heq | hap
    · exact absurd (heq ▸ List.mem_map_of_mem he') hlast
    · exact hap
  | cons e₀ rest ih =>
    obtain ⟨hok, hapart⟩ := hfits e₀ List.mem_cons_self
    rw [List.cons_append, run_cons]
    apply ih (hfits.tail h)
    rw [h.has_write hok (hapart e.1 (Or.inl ?_)), hhas]
    exact List.mem_map_of_mem (by simp)

end Lawful

end Slots

end CryptoTrading.Lib
