import Mathlib.Data.List.Infix
import Mathlib.Logic.Function.Basic

/-!
# Reading back what was written one after the other

A text made of parts is unambiguous where each part can be told from what follows it.  A part
whose characters are of one kind ends where a character of another kind stands
(`eq_of_stretch`), and an encoding whose values all end by themselves is `Readable`.

Parts that may hold anything are only told apart by a separator that is in neither of them.
For a separator whose first character occurs nowhere else in it that condition is exact
(`split_unique_iff`): every other reading moves the separator to one of its occurrences.
-/

namespace CryptoTrading.Lib

variable {A V : Type}

/-! ## §1 Stretches of one kind -/

/-- The text does not go on with a character of the kind. -/
def StopsAt (kind : A → Prop) (rest : List A) : Prop := ∀ a ∈ rest.head?, ¬ kind a

@[simp] theorem stopsAt_nil (kind : A → Prop) : StopsAt kind [] := by
  intro a ha
  simp at ha

@[simp] theorem stopsAt_cons {kind : A → Prop} {a : A} {rest : List A} :
    StopsAt kind (a :: rest) ↔ ¬ kind a := by
  simp [StopsAt]

/-- A stretch of one kind ends where the kind does. -/
theorem eq_of_stretch {kind : A → Prop} {xs ys rest rest' : List A}
    (hxs : ∀ a ∈ xs, kind a) (hys : ∀ a ∈ ys, kind a)
    (hrest : StopsAt kind rest) (hrest' : StopsAt kind rest')
    (h : xs ++ rest = ys ++ rest') : xs = ys ∧ rest = rest' := by
  induction xs generalizing ys with
  | nil =>
    cases ys with
    | nil => exact ⟨rfl, h⟩
    | cons y ys =>
      -- what follows the shorter stretch would be of the kind
      simp only [List.nil_append, List.cons_append] at h
      rw [h, stopsAt_cons] at hrest
      exact absurd (hys y (List.mem_cons_self ..)) hrest
  | cons x xs ih =>
    cases ys with
    | nil =>
      simp only [List.nil_append, List.cons_append] at h
      rw [← h, stopsAt_cons] at hrest'
      exact absurd (hxs x (List.mem_cons_self ..)) hrest'
    | cons y ys =>
      simp only [List.cons_append, List.cons.injEq] at h
      obtain ⟨rfl, h⟩ := h
      obtain ⟨rfl, rfl⟩ := ih (fun a ha => hxs a (List.mem_cons_of_mem _ ha))
        (fun a ha => hys a (List.mem_cons_of_mem _ ha)) h
      exact ⟨rfl, rfl⟩

/-- A text is split at the first occurrence of a character. -/
theorem eq_of_split_first {c : A} {xs ys rest rest' : List A} (hxs : c ∉ xs) (hys : c ∉ ys)
    (h : xs ++ c :: rest = ys ++ c :: rest') : xs = ys ∧ rest = rest' := by
  have hkind (zs : List A) (hzs : c ∉ zs) : ∀ a ∈ zs, a ≠ c := by
    rintro a ha rfl
    exact hzs ha
  obtain ⟨hxy, hr⟩ := eq_of_stretch (hkind xs hxs) (hkind ys hys) (by simp) (by simp) h
  exact ⟨hxy, (List.cons.inj hr).2⟩

/-- A text is split at the last occurrence of a character. -/
theorem eq_of_split_last {c : A} {xs ys rest rest' : List A} (hrest : c ∉ rest)
    (hrest' : c ∉ rest') (h : xs ++ c :: rest = ys ++ c :: rest') : xs = ys ∧ rest = rest' := by
  have hreverse : rest.reverse ++ c :: xs.reverse = rest'.reverse ++ c :: ys.reverse := by
    simpa using congrArg List.reverse h
  obtain ⟨hr, hx⟩ := eq_of_split_first (by simpa using hrest) (by simpa using hrest') hreverse
  exact ⟨List.reverse_injective hx, List.reverse_injective hr⟩

/-! ## §2 Encodings that end by themselves -/

/-- The text of a value can be told from what follows it, where that is as `Follows` says. -/
def Readable (encode : V → List A) (Follows : List A → Prop) : Prop :=
  ∀ ⦃v w : V⦄ ⦃rest rest' : List A⦄, Follows rest → Follows rest' →
    encode v ++ rest = encode w ++ rest' → v = w ∧ rest = rest'

theorem Readable.injective {encode : V → List A} {Follows : List A → Prop}
    (h : Readable encode Follows) (hnil : Follows []) : Function.Injective encode := by
  intro v w hvw
  exact (h hnil hnil (congrArg (· ++ []) hvw)).1

theorem readable_of_kind {encode : V → List A} {kind : A → Prop}
    (hkind : ∀ v, ∀ a ∈ encode v, kind a) (hinjective : Function.Injective encode) :
    Readable encode (StopsAt kind) := by
  intro v w rest rest' hrest hrest' h
  obtain ⟨hvw, hr⟩ := eq_of_stretch (hkind v) (hkind w) hrest hrest' h
  exact ⟨hinjective hvw, hr⟩

/-- Values that are written one after the other are read back up to a mark that none of them
    starts with. -/
theorem readable_flatMap {encode : V → List A} {stop : A}
    (hread : Readable encode fun _ => True)
    (hstop : ∀ v, ∃ a code, encode v = a :: code ∧ a ≠ stop) :
    Readable (fun vs : List V => vs.flatMap encode ++ [stop]) fun _ => True := by
  intro vs ws rest rest' _ _ h
  simp only [List.append_assoc, List.singleton_append] at h
  have hnot (v : V) (after after' : List A) : stop :: after ≠ encode v ++ after' := by
    obtain ⟨a, code, hv, ha⟩ := hstop v
    rw [hv]
    intro heq
    exact ha (List.cons.inj heq).1.symm
  -- along both lists; the mark ends both at the same value
  induction vs generalizing ws with
  | nil =>
    cases ws with
    | nil => exact ⟨rfl, (List.cons.inj h).2⟩
    | cons w ws =>
      simp only [List.flatMap_nil, List.nil_append, List.flatMap_cons, List.append_assoc] at h
      exact absurd h (hnot w _ _)
  | cons v vs ih =>
    cases ws with
    | nil =>
      simp only [List.flatMap_nil, List.nil_append, List.flatMap_cons, List.append_assoc] at h
      exact absurd h.symm (hnot v _ _)
    | cons w ws =>
      simp only [List.flatMap_cons, List.append_assoc] at h
      obtain ⟨rfl, htail⟩ := hread trivial trivial h
      obtain ⟨rfl, hr⟩ := ih htail
      exact ⟨rfl, hr⟩

/-! ## §3 Separators -/

variable {c : A} {tail : List A}

/-- Two ways to split a text at a separator: the same one, or each part of the one that is
    longer than in the other holds the separator. -/
theorem split_cases (htail : c ∉ tail) {xs ys xs' ys' : List A}
    (h : xs ++ (c :: tail) ++ ys = xs' ++ (c :: tail) ++ ys') :
    (xs' = xs ∧ ys' = ys) ∨
      (c :: tail <:+: xs' ∧ c :: tail <:+: ys) ∨ (c :: tail <:+: xs ∧ c :: tail <:+: ys') := by
  -- the case of a separator that was moved to the right, for either side
  have hmoved (us vs vs' : List A) (hus : us ≠ [])
      (hvs : (c :: tail) ++ vs = us ++ ((c :: tail) ++ vs')) :
      ∃ between, us = (c :: tail) ++ between ∧ vs = between ++ ((c :: tail) ++ vs') := by
    rcases List.append_eq_append_iff.mp hvs with ⟨b, hb, hover⟩ | ⟨b, hb, hover⟩
    · exact ⟨b, hb, hover⟩
    · cases b with
      | nil => exact ⟨[], by simpa using hb.symm, by simpa using hover.symm⟩
      | cons d b =>
        -- the two separators would overlap, and the second starts inside the first
        obtain ⟨u, us, rfl⟩ := List.exists_cons_of_ne_nil hus
        simp only [List.cons_append, List.cons.injEq] at hb hover
        obtain ⟨-, htail'⟩ := hb
        rw [← hover.1] at htail'
        exact absurd (htail' ▸ List.mem_append_right us (List.mem_cons_self ..)) htail
  rw [List.append_assoc, List.append_assoc] at h
  rcases List.append_eq_append_iff.mp h with ⟨us, rfl, hus⟩ | ⟨us, rfl, hus⟩
  · by_cases hnil : us = []
    · subst hnil
      exact Or.inl ⟨List.append_nil xs, by simpa using hus.symm⟩
    · obtain ⟨between, rfl, rfl⟩ := hmoved us ys ys' hnil hus
      exact Or.inr (Or.inl ⟨⟨xs, between, by simp⟩, ⟨between, ys', by simp⟩⟩)
  · by_cases hnil : us = []
    · subst hnil
      exact Or.inl ⟨(List.append_nil xs').symm, by simpa using hus⟩
    · obtain ⟨between, rfl, rfl⟩ := hmoved us ys' ys hnil hus
      exact Or.inr (Or.inr ⟨⟨xs', between, by simp⟩, ⟨between, ys, by simp⟩⟩)

/-- There is one way to split a text at a separator exactly when neither part holds it. -/
theorem split_unique_iff (htail : c ∉ tail) (xs ys : List A) :
    (∀ xs' ys', xs' ++ (c :: tail) ++ ys' = xs ++ (c :: tail) ++ ys → xs' = xs ∧ ys' = ys) ↔
      ¬ c :: tail <:+: xs ∧ ¬ c :: tail <:+: ys := by
  constructor
  · intro hunique
    constructor
    · rintro ⟨before, after, rfl⟩
      have h := (hunique before (after ++ (c :: tail) ++ ys) (by simp)).1
      simpa using congrArg List.length h
    · rintro ⟨before, after, rfl⟩
      have h := (hunique (xs ++ (c :: tail) ++ before) after (by simp)).1
      simpa using congrArg List.length h
  · rintro ⟨hxs, hys⟩ xs' ys' h
    rcases split_cases htail h with ⟨hx, hy⟩ | ⟨hin, -⟩ | ⟨-, hin⟩
    · exact ⟨hx.symm, hy.symm⟩
    · exact absurd hin hxs
    · exact absurd hin hys

end CryptoTrading.Lib
