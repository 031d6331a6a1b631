import Mathlib.Data.Finset.Sort
import Mathlib.Data.List.Dedup
import Mathlib.Data.List.Sort
import CryptoTrading.Lib.Dict

/-!
# Records

A finite map whose order of keys nobody observes: its entries are kept in key order, so
that two records with the same values are equal.  A JSON object is one.
-/

namespace CryptoTrading.Lib

variable {K : Type} [LinearOrder K] {α β : Type}

/-! ## §1 Entries in key order -/

/-- The keys that occur in a list, each once and in order. -/
def sortedKeys (ks : List K) : List K := ks.dedup.insertionSort (· ≤ ·)

/-- The elements of a set, in order. -/
def sortedElements (s : Finset K) : List K := s.sort

@[simp] theorem mem_sortedKeys {ks : List K} {k : K} : k ∈ sortedKeys ks ↔ k ∈ ks := by
  simp [sortedKeys]

theorem sortedKeys_pairwise (ks : List K) : (sortedKeys ks).Pairwise (· < ·) := by
  have hle : (sortedKeys ks).SortedLE :=
    List.sortedLE_iff_pairwise.mpr (List.pairwise_insertionSort _ _)
  have hnodup : (sortedKeys ks).Nodup :=
    (List.perm_insertionSort _ _).nodup_iff.mpr (List.nodup_dedup ks)
  exact (hle.sortedLT_of_nodup hnodup).pairwise

/-- Keys that are in order already are left as they are. -/
theorem sortedKeys_of_isChain {ks : List K} (h : ks.IsChain (· < ·)) : sortedKeys ks = ks := by
  apply (sortedKeys_pairwise ks).eq_of_mem_iff (List.isChain_iff_pairwise.mp h)
  intro k
  exact mem_sortedKeys

structure Record (K : Type) [LinearOrder K] (α : Type) where
  entries : List (K × α)
  sorted : (entries.map Prod.fst).Pairwise (· < ·)

namespace Record

theorem ext_entries {r s : Record K α} (h : r.entries = s.entries) : r = s := by
  cases r
  cases s
  simp only at h
  subst h
  rfl

instance [DecidableEq α] : DecidableEq (Record K α) := fun r s =>
  decidable_of_iff (r.entries = s.entries) ⟨ext_entries, fun h => by rw [h]⟩

def empty : Record K α := ⟨[], List.Pairwise.nil⟩

def keys (r : Record K α) : List K := r.entries.map Prod.fst

def get? (r : Record K α) (k : K) : Option α := Dict.findIn k r.entries

/-- The record with the given keys, in order, and a value for each. -/
def tabulate (ks : List K) (f : K → α) : Record K α where
  entries := (sortedKeys ks).map fun k => (k, f k)
  sorted := by
    rw [List.map_map]
    simpa [Function.comp_def] using sortedKeys_pairwise ks

theorem keys_tabulate (ks : List K) (f : K → α) : (tabulate ks f).keys = sortedKeys ks := by
  rw [keys, tabulate, List.map_map]
  exact List.map_id' _

theorem nodup_keys (r : Record K α) : r.keys.Nodup :=
  List.Pairwise.imp ne_of_lt r.sorted

@[simp] theorem get?_empty (k : K) : (empty : Record K α).get? k = none := rfl

@[simp] theorem keys_empty : (empty : Record K α).keys = [] := rfl

theorem get?_eq_some_iff (r : Record K α) (k : K) (a : α) :
    r.get? k = some a ↔ (k, a) ∈ r.entries :=
  Dict.findIn_eq_some_iff k a r.nodup_keys

theorem get?_eq_none_iff (r : Record K α) (k : K) : r.get? k = none ↔ k ∉ r.keys :=
  Dict.findIn_eq_none_iff k r.entries

@[simp] theorem get?_tabulate (ks : List K) (f : K → α) (k : K) :
    (tabulate ks f).get? k = if k ∈ ks then some (f k) else none := by
  by_cases hk : k ∈ ks
  · rw [if_pos hk, get?_eq_some_iff]
    exact List.mem_map.mpr ⟨k, mem_sortedKeys.mpr hk, rfl⟩
  · rw [if_neg hk, get?_eq_none_iff]
    simp [keys, tabulate, hk]

/-- Write a value under a key. -/
def set (r : Record K α) (k : K) (a : α) : Record K α :=
  tabulate (k :: r.keys) fun k' => if k' = k then a else (r.get? k').getD a

@[simp] theorem get?_set (r : Record K α) (k k' : K) (a : α) :
    (r.set k a).get? k' = if k' = k then some a else r.get? k' := by
  unfold set
  rw [get?_tabulate]
  by_cases hk : k' = k
  · simp [hk]
  · cases hget : r.get? k' with
    | none => simp [hk, (r.get?_eq_none_iff k').mp hget]
    | some b =>
      have hmem : k' ∈ r.keys := by
        by_contra hnot
        rw [(r.get?_eq_none_iff k').mpr hnot] at hget
        cases hget
      simp [hk, hmem]

/-- Records with the same values are equal. -/
theorem ext_get? {r s : Record K α} (h : ∀ k, r.get? k = s.get? k) : r = s := by
  apply ext_entries
  have hmem : ∀ e : K × α, e ∈ r.entries ↔ e ∈ s.entries := by
    intro e
    rw [← r.get?_eq_some_iff, ← s.get?_eq_some_iff, h]
  have hperm : r.entries.Perm s.entries :=
    (List.perm_ext_iff_of_nodup (List.Nodup.of_map _ r.nodup_keys)
      (List.Nodup.of_map _ s.nodup_keys)).mpr hmem
  refine hperm.eq_of_pairwise ?_ (List.pairwise_map.mp r.sorted) (List.pairwise_map.mp s.sorted)
  intro a b _ _ hab hba
  exact absurd (hab.trans hba) (lt_irrefl _)

/-! ## §2 Missing keys read as null -/

/-- The value under a key, null when the key is missing. -/
def look (null : α) (r : Record K α) (k : K) : α := (r.get? k).getD null

theorem look_of_notMem (null : α) {r : Record K α} {k : K} (h : k ∉ r.keys) :
    r.look null k = null := by
  rw [look, (r.get?_eq_none_iff k).mpr h]
  rfl

theorem get?_of_mem (null : α) {r : Record K α} {k : K} (h : k ∈ r.keys) :
    r.get? k = some (r.look null k) := by
  cases hget : r.get? k with
  | none => exact absurd h ((r.get?_eq_none_iff k).mp hget)
  | some v => simp [look, hget]

end Record

end CryptoTrading.Lib
