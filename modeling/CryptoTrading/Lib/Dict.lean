import Mathlib.Algebra.BigOperators.Group.List.Basic
import Mathlib.Data.List.Induction
import Mathlib.Data.List.Nodup
import Mathlib.Tactic.Abel

/-!
# Insertion-ordered dictionaries

A dictionary is a list of entries with pairwise distinct keys, kept in the order
in which the keys were first inserted.  Overwriting a key keeps its place, a new
key goes to the end, and deleting a key closes the gap: the iteration order that
a program observes is therefore part of the value.

The uniqueness of the keys is a field of the structure, so it is never a
hypothesis of a lemma below.
-/

namespace CryptoTrading.Lib

/-- A finite map that remembers insertion order. -/
structure Dict (K V : Type) where
  entries : List (K × V)
  nodupKeys : (entries.map Prod.fst).Nodup

namespace Dict

variable {K V : Type}

/-! ## §1 Reading -/

theorem ext_entries {d e : Dict K V} (h : d.entries = e.entries) : d = e := by
  cases d
  cases e
  simp_all

instance [DecidableEq K] [DecidableEq V] : DecidableEq (Dict K V) := fun d e =>
  if h : d.entries = e.entries then isTrue (ext_entries h)
  else isFalse (fun heq => h (heq ▸ rfl))

/-- The dictionary without entries. -/
def empty : Dict K V := ⟨[], List.nodup_nil⟩

/-- All keys, in insertion order. -/
def keys (d : Dict K V) : List K := d.entries.map Prod.fst

/-- All values, in insertion order. -/
def values (d : Dict K V) : List V := d.entries.map Prod.snd

variable [DecidableEq K]

/-- Look a key up in an entry list. -/
def findIn (k : K) : List (K × V) → Option V
  | [] => none
  | (k', v) :: rest => if k' = k then some v else findIn k rest

/-- The value stored under `k`, if any. -/
def get? (d : Dict K V) (k : K) : Option V := findIn k d.entries

/-- The value stored under `k`, or the given default. -/
def getD (d : Dict K V) (k : K) (default : V) : V := (d.get? k).getD default

/-- Whether `k` is a key. -/
def contains (d : Dict K V) (k : K) : Bool := (d.get? k).isSome

@[simp] theorem get?_empty (k : K) : (empty : Dict K V).get? k = none := rfl

theorem findIn_eq_none_iff (k : K) (es : List (K × V)) :
    findIn k es = none ↔ k ∉ es.map Prod.fst := by
  induction es with
  | nil => simp [findIn]
  | cons e rest ih =>
    obtain ⟨k', v⟩ := e
    by_cases hk : k' = k
    · simp [findIn, hk]
    · simp [findIn, hk, ih, Ne.symm hk]

theorem findIn_eq_some_iff (k : K) (v : V) {es : List (K × V)}
    (hnd : (es.map Prod.fst).Nodup) :
    findIn k es = some v ↔ (k, v) ∈ es := by
  induction es with
  | nil => simp [findIn]
  | cons e rest ih =>
    obtain ⟨k', v'⟩ := e
    simp only [List.map_cons, List.nodup_cons] at hnd
    by_cases hk : k' = k
    · subst hk
      have hnone : (k', v) ∉ rest := fun hmem =>
        hnd.1 (List.mem_map.mpr ⟨(k', v), hmem, rfl⟩)
      simp [findIn, hnone, eq_comm]
    · simp [findIn, hk, ih hnd.2, Ne.symm hk]

theorem get?_eq_some_iff (d : Dict K V) (k : K) (v : V) :
    d.get? k = some v ↔ (k, v) ∈ d.entries :=
  findIn_eq_some_iff k v d.nodupKeys

theorem contains_iff_mem_keys (d : Dict K V) (k : K) :
    d.contains k = true ↔ k ∈ d.keys := by
  unfold contains keys get?
  rw [Option.isSome_iff_ne_none, ne_eq, findIn_eq_none_iff, not_not]

theorem get?_eq_none_iff (d : Dict K V) (k : K) : d.get? k = none ↔ k ∉ d.keys :=
  findIn_eq_none_iff k d.entries

theorem mem_values_iff (d : Dict K V) (v : V) :
    v ∈ d.values ↔ ∃ k, d.get? k = some v := by
  simp only [values, List.mem_map, get?_eq_some_iff]
  constructor
  · rintro ⟨⟨k, w⟩, hmem, rfl⟩
    exact ⟨k, hmem⟩
  · rintro ⟨k, hmem⟩
    exact ⟨(k, v), hmem, rfl⟩

/-! ## §2 Writing a key -/

/-- Overwrite the entry of `k` in place, or append a new one. -/
def setIn (k : K) (v : V) : List (K × V) → List (K × V)
  | [] => [(k, v)]
  | (k', v') :: rest => if k' = k then (k', v) :: rest else (k', v') :: setIn k v rest

theorem mem_keys_setIn (k : K) (v : V) (es : List (K × V)) (k' : K) :
    k' ∈ (setIn k v es).map Prod.fst ↔ k' = k ∨ k' ∈ es.map Prod.fst := by
  induction es with
  | nil => simp [setIn]
  | cons e rest ih =>
    obtain ⟨k₀, v₀⟩ := e
    by_cases hk : k₀ = k
    · simp only [setIn, hk, ↓reduceIte, List.map_cons, List.mem_cons]
      tauto
    · simp only [setIn, hk, ↓reduceIte, List.map_cons, List.mem_cons, ih]
      tauto

theorem nodup_keys_setIn (k : K) (v : V) {es : List (K × V)}
    (hnd : (es.map Prod.fst).Nodup) : ((setIn k v es).map Prod.fst).Nodup := by
  induction es with
  | nil => simp [setIn]
  | cons e rest ih =>
    obtain ⟨k₀, v₀⟩ := e
    simp only [List.map_cons, List.nodup_cons] at hnd
    by_cases hk : k₀ = k
    · subst hk
      simp only [setIn, ↓reduceIte, List.map_cons, List.nodup_cons]
      exact hnd
    · simp only [setIn, hk, ↓reduceIte, List.map_cons, List.nodup_cons]
      refine ⟨?_, ih hnd.2⟩
      rw [mem_keys_setIn]
      rintro (h | h)
      · exact hk h
      · exact hnd.1 h

/-- `d[k] = v`. -/
def set (d : Dict K V) (k : K) (v : V) : Dict K V :=
  ⟨setIn k v d.entries, nodup_keys_setIn k v d.nodupKeys⟩

theorem findIn_setIn (k k' : K) (v : V) (es : List (K × V)) :
    findIn k' (setIn k v es) = if k' = k then some v else findIn k' es := by
  induction es with
  | nil => simp [setIn, findIn, eq_comm]
  | cons e rest ih =>
    obtain ⟨k₀, v₀⟩ := e
    by_cases hk : k₀ = k
    · subst hk
      by_cases hk' : k₀ = k'
      · simp [setIn, findIn, hk']
      · simp [setIn, findIn, hk', Ne.symm hk']
    · by_cases hk' : k₀ = k'
      · subst hk'
        simp [setIn, findIn, hk]
      · simp [setIn, findIn, hk, hk', ih]

theorem get?_set (d : Dict K V) (k k' : K) (v : V) :
    (d.set k v).get? k' = if k' = k then some v else d.get? k' :=
  findIn_setIn k k' v d.entries

@[simp] theorem get?_set_self (d : Dict K V) (k : K) (v : V) :
    (d.set k v).get? k = some v := by
  simp [get?_set]

@[simp] theorem get?_set_of_ne (d : Dict K V) {k k' : K} (v : V) (h : k' ≠ k) :
    (d.set k v).get? k' = d.get? k' := by
  simp [get?_set, h]

theorem map_fst_setIn (k : K) (v : V) (es : List (K × V)) :
    (setIn k v es).map Prod.fst =
      if k ∈ es.map Prod.fst then es.map Prod.fst else es.map Prod.fst ++ [k] := by
  induction es with
  | nil => simp [setIn]
  | cons e rest ih =>
    obtain ⟨k₀, v₀⟩ := e
    by_cases hk : k₀ = k
    · simp [setIn, hk]
    · have hk' : k ≠ k₀ := Ne.symm hk
      by_cases hmem : k ∈ rest.map Prod.fst
      · simp only [setIn, hk, ↓reduceIte, List.map_cons, List.mem_cons, hk', hmem, or_true, ih]
      · simp only [setIn, hk, ↓reduceIte, List.map_cons, List.mem_cons, hk', hmem, or_self, ih,
          List.cons_append]

/-- Writing what is there changes nothing. -/
theorem setIn_of_findIn {k : K} {v : V} {es : List (K × V)} (h : findIn k es = some v) :
    setIn k v es = es := by
  induction es with
  | nil => cases h
  | cons e rest ih =>
    obtain ⟨k', v'⟩ := e
    by_cases hk : k' = k
    · simp only [findIn, hk, if_true, Option.some.injEq] at h
      simp [setIn, hk, h]
    · simp only [findIn, hk, if_false] at h
      simp [setIn, hk, ih h]

/-- A write keeps the order of the keys; a new key goes to the end. -/
theorem keys_set (d : Dict K V) (k : K) (v : V) :
    (d.set k v).keys = if k ∈ d.keys then d.keys else d.keys ++ [k] :=
  map_fst_setIn k v d.entries

/-- A write to a new key adds its entry at the end. -/
theorem setIn_of_notMem {k : K} (v : V) {es : List (K × V)} (h : k ∉ es.map Prod.fst) :
    setIn k v es = es ++ [(k, v)] := by
  induction es with
  | nil => rfl
  | cons e rest ih =>
    obtain ⟨k₀, v₀⟩ := e
    rw [List.map_cons, List.mem_cons, not_or] at h
    simp [setIn, Ne.symm h.1, ih h.2]

/-- The dictionary of a list of entries; a later entry overwrites an earlier one. -/
def ofList (es : List (K × V)) : Dict K V := es.foldl (fun d e => d.set e.1 e.2) empty

theorem ofList_concat (es : List (K × V)) (e : K × V) :
    ofList (es ++ [e]) = (ofList es).set e.1 e.2 := by
  simp [ofList]

theorem mem_keys_ofList {es : List (K × V)} {k : K} :
    k ∈ (ofList es).keys ↔ k ∈ es.map Prod.fst := by
  induction es using List.reverseRecOn generalizing k with
  | nil => simp [ofList, keys, empty]
  | append_singleton es e ih =>
    rw [ofList_concat, keys_set]
    by_cases hmem : e.1 ∈ (ofList es).keys
    · rw [if_pos hmem, ih, List.map_append, List.mem_append]
      simp only [List.map_cons, List.map_nil, List.mem_singleton]
      constructor
      · intro hk
        exact Or.inl hk
      · intro hk
        rcases hk with hk | hk
        · exact hk
        · exact hk ▸ ih.mp hmem
    · rw [if_neg hmem, List.mem_append, ih]
      simp

/-- What the dictionary of a list holds comes from the list. -/
theorem mem_of_get?_ofList {es : List (K × V)} {k : K} {v : V}
    (h : (ofList es).get? k = some v) : (k, v) ∈ es := by
  induction es using List.reverseRecOn with
  | nil => simp [ofList] at h
  | append_singleton es e ih =>
    rw [ofList_concat, get?_set] at h
    split at h
    · rename_i hk
      rw [List.mem_append, List.mem_singleton]
      right
      rw [hk, ← Option.some.inj h]
    · exact List.mem_append_left _ (ih h)

/-- Entries with distinct keys are all kept, in order. -/
theorem entries_ofList {es : List (K × V)} (h : (es.map Prod.fst).Nodup) :
    (ofList es).entries = es := by
  induction es using List.reverseRecOn with
  | nil => rfl
  | append_singleton es e ih =>
    rw [List.map_append, List.nodup_append] at h
    have hes := ih h.1
    have hnew : e.1 ∉ (ofList es).entries.map Prod.fst := by
      rw [hes]
      intro hmem
      exact h.2.2 _ hmem _ (by simp) rfl
    rw [ofList_concat]
    show setIn e.1 e.2 (ofList es).entries = es ++ [e]
    rw [setIn_of_notMem e.2 hnew, hes]

/-- Reading the values in the order of the keys gives the values. -/
theorem filterMap_get?_keys (d : Dict K V) : d.keys.filterMap d.get? = d.values := by
  unfold keys values
  rw [List.filterMap_map, ← List.filterMap_eq_map]
  apply List.filterMap_congr
  intro e he
  exact (d.get?_eq_some_iff e.1 e.2).mpr he

/-- A key that is not there yields nothing. -/
theorem filterMap_get?_filter (d : Dict K V) (ks : List K) :
    (ks.filter fun k => k ∈ d.keys).filterMap d.get? = ks.filterMap d.get? := by
  rw [List.filterMap_filter]
  apply List.filterMap_congr
  intro k _
  split
  · rfl
  · rename_i hk
    exact ((d.get?_eq_none_iff k).mpr (by simpa using hk)).symm

/-- Reading all the values in some other order of the keys. -/
theorem filterMap_get?_perm (d : Dict K V) {ks : List K} (hnodup : ks.Nodup)
    (hkeys : ∀ k ∈ d.keys, k ∈ ks) : (ks.filterMap d.get?).Perm d.values := by
  have hperm : (ks.filter fun k => k ∈ d.keys).Perm d.keys := by
    apply (List.perm_ext_iff_of_nodup (hnodup.filter _) d.nodupKeys).mpr
    intro k
    simp only [List.mem_filter, decide_eq_true_eq]
    exact ⟨fun h => h.2, fun h => ⟨hkeys k h, h⟩⟩
  rw [← filterMap_get?_filter, ← filterMap_get?_keys]
  exact hperm.filterMap d.get?

/-! ## §3 Deleting a key -/

/-- Delete `k`; nothing happens when it is not there. -/
def erase (d : Dict K V) (k : K) : Dict K V where
  entries := d.entries.filter (fun e => !decide (e.1 = k))
  nodupKeys := (List.Sublist.map Prod.fst List.filter_sublist).nodup d.nodupKeys

theorem findIn_filter (k k' : K) (es : List (K × V)) :
    findIn k' (es.filter (fun e => !decide (e.1 = k))) = if k' = k then none else findIn k' es := by
  induction es with
  | nil => simp [findIn]
  | cons e rest ih =>
    obtain ⟨k₀, v₀⟩ := e
    by_cases hk : k₀ = k
    · subst hk
      rw [List.filter_cons_of_neg (by simp), ih]
      by_cases hk' : k' = k₀
      · simp [hk']
      · simp [findIn, hk', Ne.symm hk']
    · rw [List.filter_cons_of_pos (by simpa using hk)]
      by_cases hk' : k₀ = k'
      · subst hk'
        simp [findIn, hk]
      · simp [findIn, hk', ih]

theorem get?_erase (d : Dict K V) (k k' : K) :
    (d.erase k).get? k' = if k' = k then none else d.get? k' :=
  findIn_filter k k' d.entries

@[simp] theorem get?_erase_self (d : Dict K V) (k : K) : (d.erase k).get? k = none := by
  simp [get?_erase]

@[simp] theorem get?_erase_of_ne (d : Dict K V) {k k' : K} (h : k' ≠ k) :
    (d.erase k).get? k' = d.get? k' := by
  simp [get?_erase, h]

theorem filter_setIn_of_notMem {k : K} (v : V) {es : List (K × V)} (h : k ∉ es.map Prod.fst) :
    (setIn k v es).filter (fun e => !decide (e.1 = k)) = es := by
  induction es with
  | nil => simp [setIn]
  | cons e rest ih =>
    obtain ⟨k₀, v₀⟩ := e
    simp only [List.map_cons, List.mem_cons, not_or] at h
    have hk : k₀ ≠ k := Ne.symm h.1
    simp only [setIn, hk, ↓reduceIte]
    rw [List.filter_cons_of_pos (by simpa using hk), ih h.2]

/-- Writing a new key and deleting it again changes nothing. -/
theorem erase_set_of_get?_none (d : Dict K V) {k : K} (v : V) (h : d.get? k = none) :
    (d.set k v).erase k = d :=
  ext_entries (filter_setIn_of_notMem v ((findIn_eq_none_iff k d.entries).mp h))

/-- Deleting an absent key changes nothing. -/
theorem erase_of_get?_none (d : Dict K V) {k : K} (h : d.get? k = none) : d.erase k = d := by
  apply ext_entries
  have hk : k ∉ d.entries.map Prod.fst := (findIn_eq_none_iff k d.entries).mp h
  refine List.filter_eq_self.mpr ?_
  intro e he
  have hne : e.1 ≠ k := fun heq => hk (List.mem_map.mpr ⟨e, he, heq⟩)
  simpa using hne

/-- Apply a function to every value. -/
def mapValues {W : Type} (d : Dict K V) (f : V → W) : Dict K W where
  entries := d.entries.map fun e => (e.1, f e.2)
  nodupKeys := by
    rw [List.map_map]
    exact d.nodupKeys

theorem findIn_map {W : Type} (f : V → W) (k : K) (es : List (K × V)) :
    findIn k (es.map fun e => (e.1, f e.2)) = (findIn k es).map f := by
  induction es with
  | nil => rfl
  | cons e rest ih =>
    obtain ⟨k₀, v₀⟩ := e
    by_cases hk : k₀ = k
    · simp [findIn, hk]
    · simp [findIn, hk, ih]

@[simp] theorem get?_mapValues {W : Type} (d : Dict K V) (f : V → W) (k : K) :
    (d.mapValues f).get? k = (d.get? k).map f :=
  findIn_map f k d.entries

/-- Apply a function to every value, together with its key. -/
def mapEntries {W : Type} (d : Dict K V) (f : K → V → W) : Dict K W where
  entries := d.entries.map fun e => (e.1, f e.1 e.2)
  nodupKeys := by
    rw [List.map_map]
    exact d.nodupKeys

theorem findIn_mapEntries {W : Type} (f : K → V → W) (k : K) (es : List (K × V)) :
    findIn k (es.map fun e => (e.1, f e.1 e.2)) = (findIn k es).map (f k) := by
  induction es with
  | nil => rfl
  | cons e rest ih =>
    obtain ⟨k₀, v₀⟩ := e
    by_cases hk : k₀ = k
    · simp [findIn, hk]
    · simp [findIn, hk, ih]

@[simp] theorem get?_mapEntries {W : Type} (d : Dict K V) (f : K → V → W) (k : K) :
    (d.mapEntries f).get? k = (d.get? k).map (f k) :=
  findIn_mapEntries f k d.entries

/-! ## §4 Searching by value -/

/-- The first entry, in insertion order, whose value satisfies `p`. -/
def findValue? (d : Dict K V) (p : V → Bool) : Option (K × V) := d.entries.find? fun e => p e.2

theorem get?_of_findValue? {d : Dict K V} {p : V → Bool} {k : K} {v : V}
    (h : d.findValue? p = some (k, v)) : d.get? k = some v :=
  (get?_eq_some_iff d k v).mpr (List.mem_of_find?_eq_some h)

omit [DecidableEq K] in
theorem of_findValue? {d : Dict K V} {p : V → Bool} {e : K × V}
    (h : d.findValue? p = some e) : p e.2 = true := by
  have hfound := List.find?_some h
  exact hfound

theorem find?_setIn {k : K} {v v' : V} {q : V → Bool} (hq : q v' = q v) {es : List (K × V)}
    (hnd : (es.map Prod.fst).Nodup) (hget : findIn k es = some v) :
    (setIn k v' es).find? (fun e => q e.2) =
      (es.find? (fun e => q e.2)).map (fun e => if e.1 = k then (k, v') else e) := by
  induction es with
  | nil => simp [findIn] at hget
  | cons e rest ih =>
    obtain ⟨k₀, v₀⟩ := e
    simp only [List.map_cons, List.nodup_cons] at hnd
    by_cases hk : k₀ = k
    · subst hk
      simp only [findIn, ↓reduceIte, Option.some.injEq] at hget
      subst hget
      simp only [setIn, ↓reduceIte]
      cases hqv : q v₀ with
      | true => simp [hq, hqv]
      | false =>
        -- the key does not occur again, so nothing found later is replaced
        simp only [List.find?_cons, hq, hqv]
        cases hfind : rest.find? (fun e => q e.2) with
        | none => rfl
        | some e =>
          have hmem : e ∈ rest := List.mem_of_find?_eq_some hfind
          have hne : e.1 ≠ k₀ := fun heq => hnd.1 (List.mem_map.mpr ⟨e, hmem, heq⟩)
          simp [hne]
    · simp only [findIn, hk, ↓reduceIte] at hget
      simp only [setIn, hk, ↓reduceIte, List.find?_cons]
      cases hqv : q v₀ with
      | true => simp [hk]
      | false => exact ih hnd.2 hget

/-- Overwriting an entry by one that the search cannot tell apart: the search finds the
    same key, with the new value where the entry was overwritten. -/
theorem findValue?_set {d : Dict K V} {k : K} {v v' : V} {q : V → Bool} (hq : q v' = q v)
    (hget : d.get? k = some v) :
    (d.set k v').findValue? q =
      (d.findValue? q).map (fun e => if e.1 = k then (k, v') else e) :=
  find?_setIn hq d.nodupKeys hget

/-! ## §5 Sums over the entries -/

/-- The sum of `f key value` over all entries. -/
def sumBy {M : Type} [AddCommMonoid M] (d : Dict K V) (f : K → V → M) : M :=
  (d.entries.map (fun e => f e.1 e.2)).sum

variable {M : Type} [AddCommGroup M] (f : K → V → M)

theorem sum_setIn (k : K) (v : V) (es : List (K × V)) :
    ((setIn k v es).map (fun e => f e.1 e.2)).sum =
      (es.map (fun e => f e.1 e.2)).sum - (findIn k es).elim 0 (f k) + f k v := by
  induction es with
  | nil => simp [setIn, findIn]
  | cons e rest ih =>
    obtain ⟨k₀, v₀⟩ := e
    by_cases hk : k₀ = k
    · subst hk
      simp only [setIn, findIn, ↓reduceIte, List.map_cons, List.sum_cons, Option.elim_some]
      abel
    · simp only [setIn, findIn, hk, ↓reduceIte, List.map_cons, List.sum_cons, ih]
      abel

/-- A write replaces the contribution of its key. -/
theorem sumBy_set (d : Dict K V) (k : K) (v : V) :
    (d.set k v).sumBy f = d.sumBy f - (d.get? k).elim 0 (f k) + f k v :=
  sum_setIn f k v d.entries

omit [DecidableEq K] in
@[simp] theorem sumBy_empty : (empty : Dict K V).sumBy f = 0 := rfl

theorem sum_filter_ne (k : K) {es : List (K × V)} (hnodup : (es.map Prod.fst).Nodup) :
    ((es.filter fun e => !decide (e.1 = k)).map (fun e => f e.1 e.2)).sum =
      (es.map (fun e => f e.1 e.2)).sum - (findIn k es).elim 0 (f k) := by
  induction es with
  | nil => simp [findIn]
  | cons e rest ih =>
    obtain ⟨k₀, v₀⟩ := e
    obtain ⟨hnot, hrest⟩ := List.nodup_cons.mp hnodup
    by_cases hk : k₀ = k
    · subst hk
      -- the key is gone with its entry, so the rest is kept as it is
      have hnone : findIn k₀ rest = none := (findIn_eq_none_iff k₀ rest).mpr hnot
      rw [List.filter_cons_of_neg (by simp), ih hrest, hnone]
      simp [findIn]
    · rw [List.filter_cons_of_pos (by simpa using hk)]
      simp only [findIn, hk, ↓reduceIte, List.map_cons, List.sum_cons, ih hrest]
      abel

/-- Deleting a key takes its contribution away. -/
theorem sumBy_erase (d : Dict K V) (k : K) :
    (d.erase k).sumBy f = d.sumBy f - (d.get? k).elim 0 (f k) :=
  sum_filter_ne f k d.nodupKeys

/-- Append to the list under a key, as with `defaultdict(list)`. -/
def push (d : Dict K (List V)) (k : K) (v : V) : Dict K (List V) := d.set k (d.getD k [] ++ [v])

/-- An appended value counts once, whatever its key. -/
theorem sumBy_push (d : Dict K (List V)) (k : K) (v : V) (g : V → M) :
    ((d.push k v).sumBy fun _ vs => (vs.map g).sum) =
      (d.sumBy fun _ vs => (vs.map g).sum) + g v := by
  unfold push
  rw [sumBy_set]
  unfold getD
  cases d.get? k with
  | none => simp
  | some vs =>
    simp only [Option.elim_some, Option.getD_some, List.map_append, List.sum_append,
      List.map_singleton, List.sum_singleton]
    abel

omit [DecidableEq K] in
theorem sumBy_mapValues {W : Type} (d : Dict K W) (h : W → V) :
    (d.mapValues h).sumBy f = d.sumBy fun k w => f k (h w) := by
  simp [sumBy, mapValues, Function.comp_def]

/-- The sum over the entries, read through the keys. -/
theorem sum_map_keys_getD (d : Dict K V) (g : V → M) (default : V) :
    (d.keys.map fun k => g (d.getD k default)).sum = d.sumBy fun _ v => g v := by
  unfold keys sumBy
  rw [List.map_map]
  congr 1
  refine List.map_congr_left ?_
  rintro ⟨k, v⟩ hmem
  have hget : d.get? k = some v := (get?_eq_some_iff d k v).mpr hmem
  simp [getD, hget]

/-! ## §6 Loops over the entries of another dictionary -/

/-- A loop that writes each entry into what is there under its key. -/
theorem get?_foldl_merge {W : Type} (merge : Option W → V → W) {es : List (K × V)}
    (hnodup : (es.map Prod.fst).Nodup) (d : Dict K W) (k : K) :
    (es.foldl (fun d e => d.set e.1 (merge (d.get? e.1) e.2)) d).get? k =
      ((findIn k es).map (merge (d.get? k))).or (d.get? k) := by
  induction es generalizing d with
  | nil => rfl
  | cons e rest ih =>
    obtain ⟨k₀, v⟩ := e
    obtain ⟨hnot, hrest⟩ := List.nodup_cons.mp hnodup
    rw [List.foldl_cons, ih hrest]
    by_cases hk : k₀ = k
    · subst hk
      rw [(findIn_eq_none_iff k₀ rest).mpr hnot]
      simp [findIn]
    · simp [findIn, hk, get?_set_of_ne _ _ (Ne.symm hk)]

section Traverse

variable {ε W : Type}

/-- The value computed for each entry, unless one computation fails. -/
def traverseIn (f : K → V → Except ε W) : List (K × V) → Except ε (List (K × W))
  | [] => .ok []
  | (k, v) :: rest => do
    let w ← f k v
    let ws ← traverseIn f rest
    .ok ((k, w) :: ws)

/-- A dictionary filled by a loop over another one, unless a round fails. -/
def traverse (d : Dict K V) (f : K → V → Except ε W) : Except ε (Dict K W) :=
  (traverseIn f d.entries).map ofList

omit [DecidableEq K] in
theorem traverseIn_cons {f : K → V → Except ε W} {k : K} {v : V} {rest : List (K × V)}
    {ws : List (K × W)} (h : traverseIn f ((k, v) :: rest) = .ok ws) :
    ∃ w tail, f k v = .ok w ∧ traverseIn f rest = .ok tail ∧ ws = (k, w) :: tail := by
  rw [traverseIn] at h
  cases hvalue : f k v with
  | error e => simp [hvalue, bind, Except.bind] at h
  | ok w =>
    cases htail : traverseIn f rest with
    | error e => simp [hvalue, htail, bind, Except.bind] at h
    | ok tail =>
      simp only [hvalue, htail, bind, Except.bind, Except.ok.injEq] at h
      exact ⟨w, tail, rfl, rfl, h.symm⟩

omit [DecidableEq K] in
theorem map_fst_traverseIn {f : K → V → Except ε W} {es : List (K × V)} {ws : List (K × W)}
    (h : traverseIn f es = .ok ws) : ws.map Prod.fst = es.map Prod.fst := by
  induction es generalizing ws with
  | nil =>
    cases h
    rfl
  | cons e rest ih =>
    obtain ⟨w, tail, -, htail, rfl⟩ := traverseIn_cons h
    rw [List.map_cons, List.map_cons, ih htail]

theorem findIn_traverseIn {f : K → V → Except ε W} {es : List (K × V)} {ws : List (K × W)}
    (h : traverseIn f es = .ok ws) (k : K) :
    findIn k ws = (findIn k es).bind fun v => (f k v).toOption := by
  induction es generalizing ws with
  | nil =>
    cases h
    rfl
  | cons e rest ih =>
    obtain ⟨w, tail, hvalue, htail, rfl⟩ := traverseIn_cons h
    obtain ⟨k₀, v₀⟩ := e
    by_cases hk : k₀ = k
    · subst hk
      simp [findIn, hvalue, Except.toOption]
    · simp [findIn, hk, ih htail]

theorem entries_of_traverse {d : Dict K V} {f : K → V → Except ε W} {e : Dict K W}
    (h : d.traverse f = .ok e) : traverseIn f d.entries = .ok e.entries := by
  unfold traverse at h
  cases hentries : traverseIn f d.entries with
  | error error => simp [hentries, Except.map] at h
  | ok ws =>
    have hnodup : (ws.map Prod.fst).Nodup := by
      rw [map_fst_traverseIn hentries]
      exact d.nodupKeys
    rw [hentries] at h
    obtain rfl := Except.ok.inj h
    rw [entries_ofList hnodup]

/-- Each key of the loop has the value computed for it. -/
theorem get?_of_traverse {d : Dict K V} {f : K → V → Except ε W} {e : Dict K W}
    (h : d.traverse f = .ok e) (k : K) :
    e.get? k = (d.get? k).bind fun v => (f k v).toOption :=
  findIn_traverseIn (entries_of_traverse h) k

omit [DecidableEq K] in
/-- A loop fails where another one does, when their rounds fail alike. -/
theorem traverseIn_isOk {W' : Type} {f : K → V → Except ε W} {g : K → V → Except ε W'}
    (hrounds : ∀ k v, (f k v).isOk = true → (g k v).isOk = true) {es : List (K × V)}
    (h : (traverseIn f es).isOk = true) : (traverseIn g es).isOk = true := by
  induction es with
  | nil => rfl
  | cons e rest ih =>
    obtain ⟨k, v⟩ := e
    cases hok : traverseIn f ((k, v) :: rest) with
    | error error => simp [hok, Except.isOk, Except.toBool] at h
    | ok ws =>
      obtain ⟨w, tail, hvalue, htail, -⟩ := traverseIn_cons hok
      have hhead := hrounds k v (by rw [hvalue]; rfl)
      have hrest := ih (by rw [htail]; rfl)
      cases hg : g k v with
      | error error => simp [hg, Except.isOk, Except.toBool] at hhead
      | ok w' =>
        cases hgs : traverseIn g rest with
        | error error => simp [hgs, Except.isOk, Except.toBool] at hrest
        | ok tail' => simp [traverseIn, hg, hgs, bind, Except.bind, Except.isOk, Except.toBool]

/-- A loop that goes through still does with rounds that fail no more often. -/
theorem exists_traverse_eq_ok {W' : Type} {d : Dict K V} {f : K → V → Except ε W}
    {g : K → V → Except ε W'} {e : Dict K W} (h : d.traverse f = .ok e)
    (hrounds : ∀ k v, (f k v).isOk = true → (g k v).isOk = true) :
    ∃ e', d.traverse g = .ok e' := by
  have hok : (traverseIn g d.entries).isOk = true := by
    apply traverseIn_isOk hrounds
    rw [entries_of_traverse h]
    rfl
  cases hg : traverseIn g d.entries with
  | error error => simp [hg, Except.isOk, Except.toBool] at hok
  | ok ws => exact ⟨ofList ws, by rw [traverse, hg]; rfl⟩

end Traverse

/-! ## §7 Selecting entries -/

/-- The entries that satisfy `p`, in order. -/
def filter (d : Dict K V) (p : K → V → Bool) : Dict K V where
  entries := d.entries.filter fun e => p e.1 e.2
  nodupKeys := (List.Sublist.map Prod.fst List.filter_sublist).nodup d.nodupKeys

/-- How many entries satisfy `p`. -/
def count (d : Dict K V) (p : K → V → Bool) : ℕ := d.entries.countP fun e => p e.1 e.2

theorem get?_filter_eq_some (d : Dict K V) (p : K → V → Bool) (k : K) (v : V) :
    (d.filter p).get? k = some v ↔ d.get? k = some v ∧ p k v = true := by
  simp only [get?_eq_some_iff, filter, List.mem_filter]

omit [DecidableEq K] in
theorem filter_congr {d : Dict K V} {p q : K → V → Bool}
    (h : ∀ e ∈ d.entries, p e.1 e.2 = q e.1 e.2) : d.filter p = d.filter q :=
  ext_entries (List.filter_congr h)

omit [DecidableEq K] in
theorem count_congr {d : Dict K V} {p q : K → V → Bool}
    (h : ∀ e ∈ d.entries, p e.1 e.2 = q e.1 e.2) : d.count p = d.count q :=
  List.countP_congr fun e he => by rw [h e he]

omit [DecidableEq K] in
@[simp] theorem filter_filter (d : Dict K V) (p q : K → V → Bool) :
    (d.filter q).filter p = d.filter fun k v => p k v && q k v :=
  ext_entries List.filter_filter

omit [DecidableEq K] in
@[simp] theorem count_filter (d : Dict K V) (p q : K → V → Bool) :
    (d.filter q).count p = d.count fun k v => p k v && q k v :=
  List.countP_filter

omit [DecidableEq K] in
theorem length_filter (d : Dict K V) (p : K → V → Bool) :
    (d.filter p).entries.length = d.count p :=
  List.countP_eq_length_filter.symm

omit [DecidableEq K] in
@[simp] theorem filter_true (d : Dict K V) : d.filter (fun _ _ => true) = d :=
  ext_entries (List.filter_eq_self.mpr fun _ _ => rfl)

omit [DecidableEq K] in
/-- What is counted either satisfies a second condition or does not. -/
theorem count_eq_add (d : Dict K V) (p q : K → V → Bool) :
    d.count p = (d.count fun k v => p k v && q k v) + d.count fun k v => p k v && !q k v := by
  unfold count
  rw [List.countP_eq_countP_filter_add _ _ fun e => q e.1 e.2, List.countP_filter,
    List.countP_filter]

omit [DecidableEq K] in
theorem count_eq_zero {d : Dict K V} {p : K → V → Bool} :
    d.count p = 0 ↔ ∀ e ∈ d.entries, p e.1 e.2 = false := by
  simp [count, List.countP_eq_zero]

/-! ## §8 Entries that change in place -/

omit [DecidableEq K] in
theorem mapEntries_congr {W : Type} {d : Dict K V} {f g : K → V → W}
    (h : ∀ e ∈ d.entries, f e.1 e.2 = g e.1 e.2) : d.mapEntries f = d.mapEntries g :=
  ext_entries (List.map_congr_left fun e he => by rw [h e he])

omit [DecidableEq K] in
theorem mapEntries_mapEntries {W X : Type} (d : Dict K V) (f : K → V → W) (g : K → W → X) :
    (d.mapEntries f).mapEntries g = d.mapEntries fun k v => g k (f k v) :=
  ext_entries (by simp [mapEntries])

omit [DecidableEq K] in
@[simp] theorem mapEntries_self (d : Dict K V) : (d.mapEntries fun _ v => v) = d :=
  ext_entries (by simp [mapEntries])

omit [DecidableEq K] in
theorem values_mapEntries {W : Type} (d : Dict K V) (f : K → V → W) :
    (d.mapEntries f).values = d.entries.map fun e => f e.1 e.2 := by
  simp [values, mapEntries]

omit [DecidableEq K] in
theorem count_mapEntries {W : Type} (d : Dict K V) (f : K → V → W) (p : K → W → Bool) :
    (d.mapEntries f).count p = d.count fun k v => p k (f k v) := by
  simp only [count, mapEntries, List.countP_map]
  rfl

omit [DecidableEq K] in
theorem filter_mapValues {W : Type} (d : Dict K V) (f : V → W) (p : K → W → Bool) :
    (d.mapValues f).filter p = (d.filter fun k v => p k (f v)).mapValues f :=
  ext_entries (by simp [mapValues, filter, List.filter_map, Function.comp_def])

omit [DecidableEq K] in
theorem count_mapValues {W : Type} (d : Dict K V) (f : V → W) (p : K → W → Bool) :
    (d.mapValues f).count p = d.count fun k v => p k (f v) := by
  simp only [count, mapValues, List.countP_map]
  rfl

omit [DecidableEq K] in
theorem mapValues_mapValues {W X : Type} (d : Dict K V) (f : V → W) (g : W → X) :
    (d.mapValues f).mapValues g = d.mapValues fun v => g (f v) :=
  ext_entries (by simp [mapValues])

omit [DecidableEq K] in
@[simp] theorem mapValues_self (d : Dict K V) : (d.mapValues fun v => v) = d :=
  ext_entries (by simp [mapValues])

/-- Entries picked by their keys. -/
theorem findIn_filterMap_pick (f : K → Option V) (ks : List K) (k : K) :
    findIn k (ks.filterMap fun key => (f key).map fun v => (key, v)) =
      if k ∈ ks then f k else none := by
  induction ks with
  | nil => rfl
  | cons key rest ih =>
    cases hvalue : f key with
    | none =>
      rw [List.filterMap_cons_none (by rw [hvalue]; rfl), ih]
      by_cases hk : k = key
      · subst hk
        simp [hvalue]
      · simp [hk]
    | some v =>
      rw [List.filterMap_cons_some (by rw [hvalue]; rfl)]
      by_cases hk : key = k
      · subst hk
        simp [findIn, hvalue]
      · simp [findIn, hk, ih, Ne.symm hk]

end Dict

end CryptoTrading.Lib
