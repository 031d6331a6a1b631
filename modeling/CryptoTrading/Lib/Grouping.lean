import CryptoTrading.Lib.Dict

/-!
# Grouping into a dictionary of lists

The loop that appends every item to the list under its key, as with `defaultdict(list)`: the
list of a key holds the values of the items with that key in their order, and no key is there
without an item.
-/

namespace CryptoTrading.Lib.Dict

variable {A K V : Type} [DecidableEq K]

/-- Append `value a` under `key a`, item by item. -/
def groupBy (key : A → K) (value : A → V) (as : List A) : Dict K (List V) :=
  as.foldl (fun d a => d.push (key a) (value a)) empty

/-- The values under `k`, in the order of their items. -/
def valuesUnder (key : A → K) (value : A → V) (k : K) (as : List A) : List V :=
  (as.filter fun a => key a = k).map value

variable (key : A → K) (value : A → V)

theorem groupBy_concat (as : List A) (a : A) :
    groupBy key value (as ++ [a]) = (groupBy key value as).push (key a) (value a) := by
  simp [groupBy]

theorem get?_push (d : Dict K (List V)) (k k' : K) (v : V) :
    (d.push k v).get? k' = if k' = k then some (d.getD k [] ++ [v]) else d.get? k' :=
  get?_set d k k' _

/-- What stands under a key: the values of its items, if there are any. -/
theorem get?_groupBy (as : List A) (k : K) :
    (groupBy key value as).get? k =
      if valuesUnder key value k as = [] then none else some (valuesUnder key value k as) := by
  induction as using List.reverseRecOn with
  | nil => simp [groupBy, valuesUnder]
  | append_singleton as a ih =>
    rw [groupBy_concat, get?_push]
    by_cases hk : k = key a
    · subst hk
      have hvalues : valuesUnder key value (key a) (as ++ [a]) =
          valuesUnder key value (key a) as ++ [value a] := by simp [valuesUnder]
      rw [if_pos rfl, hvalues, if_neg (by simp), getD, ih]
      split
      · rename_i hnil
        simp [hnil]
      · rfl
    · have hvalues : valuesUnder key value k (as ++ [a]) = valuesUnder key value k as := by
        simp [valuesUnder, Ne.symm hk]
      rw [if_neg hk, hvalues, ih]

/-- The entries of the grouping. -/
theorem mem_entries_groupBy {as : List A} {k : K} {vs : List V} :
    (k, vs) ∈ (groupBy key value as).entries ↔ vs ≠ [] ∧ vs = valuesUnder key value k as := by
  rw [← get?_eq_some_iff, get?_groupBy]
  split
  · rename_i hnil
    constructor
    · intro h
      cases h
    · rintro ⟨hne, rfl⟩
      exact absurd hnil hne
  · rename_i hne
    constructor
    · intro h
      obtain rfl := Option.some.inj h
      exact ⟨hne, rfl⟩
    · rintro ⟨-, rfl⟩
      rfl

theorem mem_valuesUnder {as : List A} {k : K} {v : V} :
    v ∈ valuesUnder key value k as ↔ ∃ a ∈ as, key a = k ∧ value a = v := by
  simp [valuesUnder, and_assoc]

/-- Every item counts under one key. -/
theorem sumBy_groupBy {M : Type} [AddCommGroup M] (g : V → M) (as : List A) :
    ((groupBy key value as).sumBy fun _ vs => (vs.map g).sum) =
      (as.map fun a => g (value a)).sum := by
  induction as using List.reverseRecOn with
  | nil => rfl
  | append_singleton as a ih => rw [groupBy_concat, sumBy_push, ih]; simp

end CryptoTrading.Lib.Dict
