import CryptoTrading.Lib.Run
import Mathlib.Data.Finset.Basic
import Mathlib.Data.List.Induction
import Mathlib.Tactic.Set

/-!
# What a history leads to

A component that answers an input by what came before leads, over a whole history, to a list of
outputs (`outputs`).  Where some inputs make it start anew, it looks at what came since the last of
them (`since`).

An alarm that is given once for a key and again only after it was off (`check`) is one: it is given
for every finding that does not follow a finding for the same key (`alarms_run`).
-/

namespace CryptoTrading.Lib

/-! ## §1 Outputs -/

section Outputs

variable {A E : Type} (output : List A → A → Option E)

/-- The outputs for what comes after some inputs. -/
def outputs : List A → List A → List E
  | _, [] => []
  | before, a :: rest => (output before a).toList ++ outputs (before ++ [a]) rest

@[simp] theorem outputs_nil (before : List A) : outputs output before [] = [] := rfl

theorem outputs_concat (before as : List A) (a : A) :
    outputs output before (as ++ [a]) =
      outputs output before as ++ (output (before ++ as) a).toList := by
  induction as generalizing before with
  | nil => simp [outputs]
  | cons a' as ih => simp [outputs, ih]

end Outputs

/-! ## §2 Starting anew -/

section Since

variable {A : Type} (startsAnew : A → Bool)

/-- What came after the last input that starts anew. -/
def since (as : List A) : List A := (as.reverse.takeWhile fun a => !startsAnew a).reverse

@[simp] theorem since_nil : since startsAnew [] = [] := rfl

theorem since_concat (as : List A) (a : A) :
    since startsAnew (as ++ [a]) = if startsAnew a then [] else since startsAnew as ++ [a] := by
  unfold since
  rw [List.reverse_concat, List.takeWhile_cons]
  cases startsAnew a <;> simp

variable {startsAnew} {as : List A} {a : A}

theorem since_concat_of_anew (h : startsAnew a = true) : since startsAnew (as ++ [a]) = [] := by
  rw [since_concat, if_pos h]

theorem since_concat_of_not (h : startsAnew a = false) :
    since startsAnew (as ++ [a]) = since startsAnew as ++ [a] := by
  rw [since_concat, h]
  rfl

end Since

/-! ## §3 Alarms -/

section Alarms

variable {K V : Type} [DecidableEq K]

/-- The keys whose alarm is on, and the alarms that were given. -/
structure Alarms (K V : Type) where
  on : Finset K
  given : List (K × V)

/-- What a check has found for a key: an alarm that is on is not given again, and nothing found
    turns it off. -/
def Alarms.check (s : Alarms K V) : K × Option V → Alarms K V
  | (k, some v) => if k ∈ s.on then s else ⟨insert k s.on, s.given ++ [(k, v)]⟩
  | (k, none) => { s with on := s.on.erase k }

/-- What the last check of a key has found. -/
def lastFinding (k : K) (checks : List (K × Option V)) : Option V :=
  (checks.filter (·.1 = k)).getLast?.bind Prod.snd

theorem lastFinding_concat (k : K) (checks : List (K × Option V)) (c : K × Option V) :
    lastFinding k (checks ++ [c]) = if c.1 = k then c.2 else lastFinding k checks := by
  unfold lastFinding
  by_cases hk : c.1 = k
  · simp [hk]
  · simp [hk]

/-- The alarm for a check: there is one if it finds something and the last check of the key did
    not. -/
def alarmFor (before : List (K × Option V)) (c : K × Option V) : Option (K × V) :=
  if (lastFinding c.1 before).isSome then none else c.2.map (c.1, ·)

/-- **An alarm is given for each finding that does not follow another for its key, and for nothing
    else.** -/
theorem alarms_run (checks : List (K × Option V)) :
    (∀ k, k ∈ (run Alarms.check ⟨∅, []⟩ checks).on ↔ (lastFinding k checks).isSome) ∧
      (run Alarms.check ⟨∅, []⟩ checks).given = outputs alarmFor [] checks := by
  induction checks using List.reverseRecOn with
  | nil => exact ⟨fun k => by simp [lastFinding], rfl⟩
  | append_singleton checks c ih =>
    obtain ⟨hon, hgiven⟩ := ih
    obtain ⟨key, found⟩ := c
    rw [run_concat, outputs_concat, List.nil_append, ← hgiven]
    set s := run Alarms.check ⟨∅, []⟩ checks
    cases found with
    | none =>
      refine ⟨fun k => ?_, by simp [Alarms.check, alarmFor]⟩
      rw [lastFinding_concat, Alarms.check, Finset.mem_erase, hon]
      by_cases hk : key = k
      · simp [hk]
      · simp [hk, Ne.symm hk]
    | some v =>
      by_cases hkey : key ∈ s.on
      · -- it is on, and stays on
        refine ⟨fun k => ?_, by simp [Alarms.check, alarmFor, hkey, (hon key).mp hkey]⟩
        rw [lastFinding_concat, Alarms.check, if_pos hkey, hon]
        by_cases hk : key = k
        · subst hk
          simp [(hon key).mp hkey]
        · simp [hk]
      · have hoff : ¬ (lastFinding key checks).isSome := fun h => hkey ((hon key).mpr h)
        refine ⟨fun k => ?_, by simp [Alarms.check, alarmFor, hkey, hoff]⟩
        rw [lastFinding_concat, Alarms.check, if_neg hkey, Finset.mem_insert, hon]
        by_cases hk : key = k
        · simp [hk]
        · simp [hk, Ne.symm hk]

end Alarms

end CryptoTrading.Lib
