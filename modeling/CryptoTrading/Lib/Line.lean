import CryptoTrading.Lib.Run

/-!
# A line that is left at its front

Entries join a line at its end and leave it at its front, where the first one is either taken or
skipped.  `Line` says so of what has joined, was taken, was skipped and is waiting; `join`, `take`
and `skip` keep it up.  What was taken is then in the order of joining, with what is waiting behind
it, and nothing is there twice or gone.
-/

namespace CryptoTrading.Lib

variable {E : Type}

theorem Interleaves.concat_left {xs ys zs : List E} (h : Interleaves xs ys zs) (a : E) :
    Interleaves (xs ++ [a]) ys (zs ++ [a]) := by
  induction h with
  | nil => exact .left .nil
  | left _ ih => exact .left ih
  | right _ ih => exact .right ih

theorem Interleaves.concat_right {xs ys zs : List E} (h : Interleaves xs ys zs) (a : E) :
    Interleaves xs (ys ++ [a]) (zs ++ [a]) := by
  induction h with
  | nil => exact .right .nil
  | left _ ih => exact .left ih
  | right _ ih => exact .right ih

theorem Interleaves.sublist_left {xs ys zs : List E} (h : Interleaves xs ys zs) :
    xs.Sublist zs := by
  induction h with
  | nil => exact List.Sublist.slnil
  | left _ ih => exact ih.cons_cons _
  | right _ ih => exact ih.cons _

theorem Interleaves.perm {xs ys zs : List E} (h : Interleaves xs ys zs) :
    zs.Perm (xs ++ ys) := by
  induction h with
  | nil => exact List.Perm.refl _
  | left _ ih => exact ih.cons _
  | right _ ih => exact (ih.cons _).trans List.perm_middle.symm

/-- Of the entries that have joined, those before the ones waiting were taken or skipped. -/
def Line (joined taken skipped waiting : List E) : Prop :=
  ∃ past, joined = past ++ waiting ∧ Interleaves taken skipped past

namespace Line

variable {joined taken skipped waiting : List E}

theorem start : Line ([] : List E) [] [] [] := ⟨[], rfl, .nil⟩

theorem join (h : Line joined taken skipped waiting) (e : E) :
    Line (joined ++ [e]) taken skipped (waiting ++ [e]) := by
  obtain ⟨past, rfl, hpast⟩ := h
  exact ⟨past, List.append_assoc _ _ _, hpast⟩

theorem take {e : E} (h : Line joined taken skipped (e :: waiting)) :
    Line joined (taken ++ [e]) skipped waiting := by
  obtain ⟨past, rfl, hpast⟩ := h
  exact ⟨past ++ [e], by simp, hpast.concat_left e⟩

theorem skip {e : E} (h : Line joined taken skipped (e :: waiting)) :
    Line joined taken (skipped ++ [e]) waiting := by
  obtain ⟨past, rfl, hpast⟩ := h
  exact ⟨past ++ [e], by simp, hpast.concat_right e⟩

/-- What was taken, and what may still be, is in the order of joining. -/
theorem sublist (h : Line joined taken skipped waiting) :
    (taken ++ waiting).Sublist joined := by
  obtain ⟨past, rfl, hpast⟩ := h
  exact hpast.sublist_left.append_right waiting

/-- Each entry is in one place. -/
theorem perm (h : Line joined taken skipped waiting) :
    joined.Perm (taken ++ skipped ++ waiting) := by
  obtain ⟨past, rfl, hpast⟩ := h
  exact hpast.perm.append_right waiting

/-- A line that skips nobody is what was taken and what is waiting. -/
theorem eq_of_none_skipped (h : Line joined taken [] waiting) : joined = taken ++ waiting := by
  obtain ⟨past, rfl, hpast⟩ := h
  rw [interleaves_nil_right hpast]

end Line

end CryptoTrading.Lib
