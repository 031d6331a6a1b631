import CryptoTrading.Lib.Dict
import Mathlib.Data.Finset.Max

/-!
# Keeping the entries with the largest keys

A bounded dictionary deletes its smallest key as long as it has too many (`evict`), so that it
keeps the `largest` keys: those that fewer than the bound exceed.

What a smaller set has lost of a larger one does not count as long as it has the largest keys
(`largest_eq_of_subset`).  So keys may come in any order and the bound may be applied again and
again, with other keys dropped from below in between (`largest_filter_insert`).
-/

namespace CryptoTrading.Lib

variable {K : Type} [LinearOrder K]

/-! ## §1 The largest keys -/

/-- Below the bound, if there is one. -/
def Within (bound : Option ℕ) (n : ℕ) : Prop := ∀ m ∈ bound, n < m

instance (bound : Option ℕ) (n : ℕ) : Decidable (Within bound n) :=
  inferInstanceAs (Decidable (∀ m ∈ bound, n < m))

theorem Within.mono {bound : Option ℕ} {n n' : ℕ} (h : Within bound n) (hle : n' ≤ n) :
    Within bound n' :=
  fun m hm => lt_of_le_of_lt hle (h m hm)

/-- The elements above `k`. -/
def above (s : Finset K) (k : K) : Finset K := s.filter (k < ·)

/-- The elements that fewer than the bound exceed. -/
def largest (bound : Option ℕ) (s : Finset K) : Finset K :=
  s.filter fun k => Within bound (above s k).card

theorem mem_above {s : Finset K} {k x : K} : x ∈ above s k ↔ x ∈ s ∧ k < x := Finset.mem_filter

theorem mem_largest {bound : Option ℕ} {s : Finset K} {k : K} :
    k ∈ largest bound s ↔ k ∈ s ∧ Within bound (above s k).card := Finset.mem_filter

theorem largest_subset (bound : Option ℕ) (s : Finset K) : largest bound s ⊆ s :=
  Finset.filter_subset _ s

theorem above_subset_above {s t : Finset K} (h : s ⊆ t) (k : K) : above s k ⊆ above t k :=
  Finset.filter_subset_filter _ h

/-- Without a bound, all elements are among the largest. -/
@[simp] theorem largest_none (s : Finset K) : largest none s = s :=
  Finset.filter_true_of_mem fun _ _ m hm => by cases hm

/-- A set that is not larger than the bound is kept. -/
theorem largest_of_card_le {m : ℕ} {s : Finset K} (h : s.card ≤ m) : largest (some m) s = s := by
  refine Finset.filter_true_of_mem fun k hk => ?_
  rintro _ ⟨⟩
  have hlt : (above s k).card < s.card :=
    Finset.card_lt_card (Finset.filter_ssubset.mpr ⟨k, hk, lt_irrefl k⟩)
  exact lt_of_lt_of_le hlt h

/-- A subset that has the largest elements of a set has the same largest elements. -/
theorem largest_eq_of_subset {bound : Option ℕ} {s t : Finset K} (hsub : s ⊆ t)
    (hlargest : largest bound t ⊆ s) : largest bound s = largest bound t := by
  ext k
  rw [mem_largest, mem_largest]
  constructor
  · rintro ⟨hk, hwithin⟩
    refine ⟨hsub hk, ?_⟩
    by_contra hmany
    -- something above `k` is missing, and already as many are above the largest of these
    have hmissing : (above t k \ s).Nonempty := by
      rw [Finset.sdiff_nonempty]
      intro hall
      refine hmany (hwithin.mono (Finset.card_le_card fun x hx => ?_))
      exact mem_above.mpr ⟨hall hx, (mem_above.mp hx).2⟩
    obtain ⟨x, hx, hmax⟩ := Finset.exists_max_image _ id hmissing
    obtain ⟨hxt, hkx⟩ := mem_above.mp (Finset.mem_sdiff.mp hx).1
    have hxs : x ∉ s := (Finset.mem_sdiff.mp hx).2
    have hrest : above t x ⊆ above s k := by
      intro y hy
      obtain ⟨hyt, hxy⟩ := mem_above.mp hy
      refine mem_above.mpr ⟨?_, hkx.trans hxy⟩
      by_contra hys
      exact absurd (hmax y (Finset.mem_sdiff.mpr ⟨mem_above.mpr ⟨hyt, hkx.trans hxy⟩, hys⟩))
        (not_le_of_gt hxy)
    exact hxs (hlargest (mem_largest.mpr ⟨hxt, hwithin.mono (Finset.card_le_card hrest)⟩))
  · rintro ⟨hk, hwithin⟩
    exact ⟨hlargest (mem_largest.mpr ⟨hk, hwithin⟩),
      hwithin.mono (Finset.card_le_card (above_subset_above hsub k))⟩

/-- A new key and a stricter condition from below: what was dropped before does not count. -/
theorem largest_filter_insert (bound : Option ℕ) {p q : K → Prop} [DecidablePred p]
    [DecidablePred q] (hup : ∀ ⦃x y⦄, q x → x < y → q y) (hpq : ∀ ⦃x⦄, q x → p x) (s : Finset K)
    (k : K) :
    largest bound ((insert k (largest bound (s.filter p))).filter q) =
      largest bound ((insert k s).filter q) := by
  apply largest_eq_of_subset
  · refine Finset.filter_subset_filter q (Finset.insert_subset_insert k ?_)
    exact (largest_subset _ _).trans (Finset.filter_subset p s)
  · intro x hx
    obtain ⟨hmem, hwithin⟩ := mem_largest.mp hx
    obtain ⟨hins, hq⟩ := Finset.mem_filter.mp hmem
    refine Finset.mem_filter.mpr ⟨?_, hq⟩
    rcases Finset.mem_insert.mp hins with rfl | hxs
    · exact Finset.mem_insert_self _ _
    · refine Finset.mem_insert_of_mem (mem_largest.mpr ⟨Finset.mem_filter.mpr ⟨hxs, hpq hq⟩, ?_⟩)
      refine hwithin.mono (Finset.card_le_card fun y hy => ?_)
      obtain ⟨hy, hxy⟩ := mem_above.mp hy
      exact mem_above.mpr ⟨Finset.mem_filter.mpr
        ⟨Finset.mem_insert_of_mem (Finset.mem_filter.mp hy).1, hup hq hxy⟩, hxy⟩

/-- A stricter condition alone. -/
theorem filter_largest_filter (bound : Option ℕ) {p q : K → Prop} [DecidablePred p]
    [DecidablePred q] (hup : ∀ ⦃x y⦄, q x → x < y → q y) (hpq : ∀ ⦃x⦄, q x → p x)
    (s : Finset K) :
    (largest bound (s.filter p)).filter q = largest bound (s.filter q) := by
  ext x
  simp only [Finset.mem_filter, mem_largest]
  have habove (hq : q x) : above (s.filter p) x = above (s.filter q) x := by
    ext y
    simp only [mem_above, Finset.mem_filter]
    exact ⟨fun h => ⟨⟨h.1.1, hup hq h.2⟩, h.2⟩, fun h => ⟨⟨h.1.1, hpq h.1.2⟩, h.2⟩⟩
  constructor
  · rintro ⟨⟨⟨hx, -⟩, hwithin⟩, hq⟩
    exact ⟨⟨hx, hq⟩, habove hq ▸ hwithin⟩
  · rintro ⟨⟨hx, hq⟩, hwithin⟩
    exact ⟨⟨⟨hx, hpq hq⟩, (habove hq).symm ▸ hwithin⟩, hq⟩

/-! ## §2 Deleting the smallest key -/

namespace Dict

variable {V : Type}

def keySet (d : Dict K V) : Finset K := d.keys.toFinset

theorem mem_keySet {d : Dict K V} {k : K} : k ∈ d.keySet ↔ k ∈ d.keys := List.mem_toFinset

omit [LinearOrder K] in
theorem nodup_keys (d : Dict K V) : d.keys.Nodup := d.nodupKeys

theorem card_keySet (d : Dict K V) : d.keySet.card = d.entries.length := by
  rw [keySet, List.toFinset_card_of_nodup d.nodup_keys, keys, List.length_map]

theorem mem_keySet_iff {d : Dict K V} {k : K} : k ∈ d.keySet ↔ (d.get? k).isSome = true := by
  rw [mem_keySet, ← contains_iff_mem_keys]
  rfl

theorem keySet_set (d : Dict K V) (k : K) (v : V) : (d.set k v).keySet = insert k d.keySet := by
  ext k'
  rw [Finset.mem_insert, mem_keySet_iff, mem_keySet_iff, get?_set]
  by_cases hk : k' = k
  · simp [hk]
  · simp [hk]

theorem keySet_filter (d : Dict K V) (p : K → Prop) [DecidablePred p] :
    (d.filter fun k _ => decide (p k)).keySet = d.keySet.filter p := by
  ext k
  simp only [Finset.mem_filter, mem_keySet, keys, filter, List.mem_map, List.mem_filter,
    decide_eq_true_eq]
  constructor
  · rintro ⟨e, ⟨he, hp⟩, rfl⟩
    exact ⟨⟨e, he, rfl⟩, hp⟩
  · rintro ⟨⟨e, he, rfl⟩, hp⟩
    exact ⟨e, ⟨he, hp⟩, rfl⟩

theorem erase_eq_filter (d : Dict K V) (k : K) : d.erase k = d.filter fun k' _ => decide (k' ≠ k) :=
  ext_entries (List.filter_congr fun e _ => by simp)

/-- Deleting keys one after the other. -/
theorem foldl_erase (ks : List K) (d : Dict K V) :
    ks.foldl erase d = d.filter fun k _ => decide (k ∉ ks) := by
  induction ks generalizing d with
  | nil => simp
  | cons k rest ih =>
    rw [List.foldl_cons, ih, erase_eq_filter, filter_filter]
    refine filter_congr fun e _ => ?_
    rw [← Bool.decide_and]
    exact decide_eq_decide.mpr (by rw [List.mem_cons, not_or, and_comm])

/-- Delete the smallest key as long as there are more than `m`, in at most `fuel` passes. -/
def evict (m : ℕ) : ℕ → Dict K V → Dict K V
  | 0, d => d
  | fuel + 1, d =>
    if m < d.entries.length then
      match d.keys.min? with
      | some k => evict m fuel (d.erase k)
      | none => d
    else d

/-- The smallest of more than `m` keys is not one of the `m` largest. -/
theorem largest_erase_min {m : ℕ} {s : Finset K} {k : K} (hk : k ∈ s) (hmin : ∀ x ∈ s, k ≤ x)
    (hmany : m < s.card) : largest (some m) (s.erase k) = largest (some m) s := by
  apply largest_eq_of_subset (Finset.erase_subset k s)
  intro x hx
  obtain ⟨hxs, hwithin⟩ := mem_largest.mp hx
  refine Finset.mem_erase.mpr ⟨?_, hxs⟩
  rintro rfl
  have habove : above s x = s.erase x := by
    ext y
    rw [mem_above, Finset.mem_erase, and_comm]
    exact and_congr_left fun hy => ⟨ne_of_gt, fun hne => lt_of_le_of_ne (hmin y hy) hne.symm⟩
  have hlt := hwithin m rfl
  rw [habove, Finset.card_erase_of_mem hxs] at hlt
  omega

/-- **The loop keeps the largest keys**, when it may take a pass for each entry. -/
theorem evict_eq_filter (m : ℕ) {fuel : ℕ} {d : Dict K V} (hfuel : d.entries.length ≤ fuel) :
    evict m fuel d = d.filter fun k _ => decide (k ∈ largest (some m) d.keySet) := by
  induction fuel generalizing d with
  | zero =>
    have hnil : d.entries = [] := List.eq_nil_of_length_eq_zero (Nat.le_zero.mp hfuel)
    refine ext_entries ?_
    show d.entries = List.filter _ d.entries
    rw [hnil]
    rfl
  | succ fuel ih =>
    rw [evict]
    split
    · rename_i hmany
      -- more entries than are kept, so there is a smallest key
      have hsome : ∃ k, d.keys.min? = some k := by
        rw [← Option.isSome_iff_exists, ← Option.ne_none_iff_isSome, ne_eq, List.min?_eq_none_iff]
        intro hnil
        rw [keys, List.map_eq_nil_iff] at hnil
        rw [hnil] at hmany
        exact absurd hmany (Nat.not_lt_zero m)
      obtain ⟨k, hk⟩ := hsome
      obtain ⟨hmem, hmin⟩ := List.min?_eq_some_iff.mp hk
      have hset : (d.erase k).keySet = d.keySet.erase k := by
        rw [erase_eq_filter, keySet_filter, Finset.filter_ne']
      have hshorter : (d.erase k).entries.length ≤ fuel := by
        have hcard := congrArg Finset.card hset
        rw [Finset.card_erase_of_mem (mem_keySet.mpr hmem), card_keySet, card_keySet] at hcard
        omega
      -- the smallest of too many keys is not among the largest
      have hlargest : largest (some m) (d.erase k).keySet = largest (some m) d.keySet := by
        rw [hset]
        exact largest_erase_min (mem_keySet.mpr hmem) (fun x hx => hmin x (mem_keySet.mp hx))
          (by rwa [card_keySet])
      rw [hk]
      simp only
      rw [ih hshorter, hlargest, erase_eq_filter, filter_filter]
      refine filter_congr fun e _ => ?_
      rw [Bool.and_eq_left_iff_imp]
      intro he
      have hkept := largest_subset _ _ (hlargest ▸ of_decide_eq_true he)
      rw [hset] at hkept
      exact decide_eq_true (Finset.ne_of_mem_erase hkept)
    · rename_i hfew
      -- few enough: all keys are the largest
      have hall : largest (some m) d.keySet = d.keySet :=
        largest_of_card_le (by rw [card_keySet]; omega)
      rw [hall]
      symm
      conv_rhs => rw [← filter_true d]
      refine filter_congr fun e he => ?_
      exact decide_eq_true (mem_keySet.mpr (List.mem_map_of_mem he))

end Dict

end CryptoTrading.Lib
