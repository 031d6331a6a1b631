import CryptoTrading.Lib.Dict

/-!
# Deleting the rows of a table in batches

A table is a dictionary of rows under their ids, and rows are deleted by their ids.

- `deleteBatches` asks again and again for a batch of ids of rows that satisfy a condition, and
  stops at a round that finds fewer;
- `deleteChunks` deletes ids that were collected before, chunk by chunk.

Both delete the rows that satisfy the condition, and no others (`deleteBatches_eq`,
`deleteChunks_select`).
-/

namespace CryptoTrading.Lib.Dict

variable {K V : Type} [DecidableEq K]

/-! ## §1 Ids -/

/-- The ids of the rows that satisfy `p`. -/
def select (d : Dict K V) (p : K → V → Bool) : List K :=
  (d.entries.filter fun e => p e.1 e.2).map Prod.fst

/-- Delete the rows with the ids; how many there were. -/
def deleteKeys (d : Dict K V) (ids : List K) : Dict K V × ℕ :=
  (d.filter fun k _ => decide (k ∉ ids), d.count fun k _ => decide (k ∈ ids))

omit [DecidableEq K] in
theorem select_sublist_keys (d : Dict K V) (p : K → V → Bool) : (d.select p).Sublist d.keys :=
  List.Sublist.map Prod.fst List.filter_sublist

omit [DecidableEq K] in
theorem length_select (d : Dict K V) (p : K → V → Bool) : (d.select p).length = d.count p := by
  unfold select count
  rw [List.length_map, List.countP_eq_length_filter]

omit [DecidableEq K] in
/-- An id is selected when its own row is. -/
theorem mem_select_iff {d : Dict K V} {p : K → V → Bool} {e : K × V} (he : e ∈ d.entries) :
    e.1 ∈ d.select p ↔ p e.1 e.2 = true := by
  unfold select
  simp only [List.mem_map, List.mem_filter]
  constructor
  · rintro ⟨e', ⟨he', hp⟩, hkey⟩
    -- the ids are distinct, so it is the same row
    have hrow : e' = e := List.inj_on_of_nodup_map d.nodupKeys he' he hkey
    exact hrow ▸ hp
  · intro hp
    exact ⟨e, ⟨he, hp⟩, rfl⟩

/-- As many rows as ids are deleted. -/
theorem count_mem_ids {d : Dict K V} {ids : List K} (hnodup : ids.Nodup) (hids : ids ⊆ d.keys) :
    (d.count fun k _ => decide (k ∈ ids)) = ids.length := by
  have hperm : (d.keys.filter fun k => decide (k ∈ ids)).Perm ids := by
    apply (List.perm_ext_iff_of_nodup (d.nodupKeys.filter _) hnodup).mpr
    intro k
    simp only [List.mem_filter, decide_eq_true_eq]
    exact ⟨fun h => h.2, fun h => ⟨hids h, h⟩⟩
  rw [← hperm.length_eq, ← List.countP_eq_length_filter]
  unfold count keys
  rw [List.countP_map]
  rfl

omit [DecidableEq K] in
/-- Nothing is deleted where nothing satisfies the condition. -/
theorem filter_not_of_count_eq_zero {d : Dict K V} {p : K → V → Bool} (h : d.count p = 0) :
    (d.filter fun k v => !p k v) = d := by
  rw [← filter_true d, filter_filter]
  exact filter_congr fun e he => by simp [count_eq_zero.mp h e he]

/-! ## §2 Batches of ids -/

/-- Delete at most `batch` rows that satisfy `p`, until a round finds fewer; at most `fuel`
    rounds. -/
def deleteBatches (p : K → V → Bool) (batch : ℕ) : ℕ → Dict K V → Dict K V × ℕ
  | 0, d => (d, 0)
  | fuel + 1, d =>
    let ids := (d.select p).take batch
    if ids.isEmpty then (d, 0)
    else
      let round := d.deleteKeys ids
      if round.2 < batch then round
      else
        let more := deleteBatches p batch fuel round.1
        (more.1, round.2 + more.2)

/-- One round: a batch of the rows is gone, and the others are still to be deleted. -/
theorem deleteKeys_take (d : Dict K V) (p : K → V → Bool) (batch : ℕ) :
    (d.deleteKeys ((d.select p).take batch)).2 = min batch (d.count p) ∧
      ((d.deleteKeys ((d.select p).take batch)).1.filter fun k v => !p k v) =
        (d.filter fun k v => !p k v) ∧
      (d.deleteKeys ((d.select p).take batch)).1.count p = d.count p - min batch (d.count p) := by
  have hkeys := d.select_sublist_keys p
  have hsub := (d.select p).take_sublist batch
  have hdeleted : (d.count fun k _ => decide (k ∈ (d.select p).take batch)) =
      min batch (d.count p) := by
    rw [count_mem_ids (hsub.nodup (hkeys.nodup d.nodupKeys)) (hsub.trans hkeys).subset,
      List.length_take, length_select]
  -- the keys of the batch are selected, so no row beside the predicate goes with them
  have hselected : ∀ e ∈ d.entries, e.1 ∈ (d.select p).take batch → p e.1 e.2 = true :=
    fun e he hmem => (mem_select_iff he).mp (hsub.subset hmem)
  refine ⟨hdeleted, ?_, ?_⟩
  · unfold deleteKeys
    rw [filter_filter]
    refine filter_congr fun e he => ?_
    by_cases hmem : e.1 ∈ (d.select p).take batch
    · simp [hselected e he hmem]
    · simp [hmem]
  · have hsplit := d.count_eq_add p fun k _ => decide (k ∈ (d.select p).take batch)
    have hall : (d.count fun k v => p k v && decide (k ∈ (d.select p).take batch)) =
        d.count fun k _ => decide (k ∈ (d.select p).take batch) := by
      refine count_congr fun e he => ?_
      by_cases hmem : e.1 ∈ (d.select p).take batch
      · simp [hselected e he hmem]
      · simp [hmem]
    unfold deleteKeys
    rw [count_filter]
    simp only [decide_not]
    omega

/-- The rounds delete the rows that satisfy the condition, whatever the batch. -/
theorem deleteBatches_eq {p : K → V → Bool} {batch fuel : ℕ} (hbatch : 0 < batch) {d : Dict K V}
    (hfuel : d.count p ≤ fuel) :
    deleteBatches p batch fuel d = (d.filter fun k v => !p k v, d.count p) := by
  induction fuel generalizing d with
  | zero =>
    have hnone := Nat.le_zero.mp hfuel
    rw [filter_not_of_count_eq_zero hnone, hnone]
    rfl
  | succ fuel ih =>
    obtain ⟨hdeleted, hleft, hcount⟩ := d.deleteKeys_take p batch
    have hlength : ((d.select p).take batch).length = min batch (d.count p) := by
      rw [List.length_take, length_select]
    simp only [deleteBatches]
    split
    case isTrue hempty =>
      rw [List.isEmpty_iff_length_eq_zero, hlength] at hempty
      have hnone : d.count p = 0 := by omega
      rw [filter_not_of_count_eq_zero hnone, hnone]
    case isFalse hempty =>
      rw [List.isEmpty_iff_length_eq_zero, hlength] at hempty
      split
      case isTrue hlast =>
        -- a round that finds less than a batch has found all
        rw [hdeleted] at hlast
        have hnone : (d.deleteKeys ((d.select p).take batch)).1.count p = 0 := by omega
        rw [← hleft, filter_not_of_count_eq_zero hnone]
        exact Prod.ext rfl (by rw [hdeleted]; omega)
      case isFalse hmore =>
        rw [ih (by omega), hleft, hcount, hdeleted]
        exact Prod.ext rfl (by simp only; omega)

theorem deleteBatches_zero (p : K → V → Bool) (fuel : ℕ) (d : Dict K V) :
    deleteBatches p 0 fuel d = (d, 0) := by
  cases fuel <;> rfl

/-! ## §3 Chunks of ids -/

/-- The ids in chunks of `batch`, the last of which may be shorter. -/
def chunks (batch : ℕ) (ids : List K) : List (List K) := (ids.toChunksAux (batch - 1) 0).2

omit [DecidableEq K] in
theorem append_flatten_toChunksAux (n i : ℕ) (ids : List K) :
    (ids.toChunksAux n i).1 ++ (ids.toChunksAux n i).2.flatten = ids := by
  induction ids generalizing i with
  | nil => rfl
  | cons k rest ih =>
    cases i with
    | zero =>
      have htail := ih n
      simp only [List.toChunksAux, List.nil_append, List.flatten_cons, List.cons_append]
      rw [htail]
    | succ i =>
      have htail := ih i
      simp only [List.toChunksAux, List.cons_append]
      rw [htail]

omit [DecidableEq K] in
theorem flatten_chunks (batch : ℕ) (ids : List K) : (chunks batch ids).flatten = ids := by
  have hall := append_flatten_toChunksAux (batch - 1) 0 ids
  cases ids with
  | nil => rfl
  | cons k rest => exact hall

/-- Delete the ids of one chunk after the other. -/
def deleteChunks (d : Dict K V) : List (List K) → Dict K V × ℕ
  | [] => (d, 0)
  | chunk :: rest =>
    let round := d.deleteKeys chunk
    let more := deleteChunks round.1 rest
    (more.1, round.2 + more.2)

/-- A row counts in the first chunk that names it. -/
theorem deleteChunks_eq (d : Dict K V) (chunks : List (List K)) :
    d.deleteChunks chunks = d.deleteKeys chunks.flatten := by
  induction chunks generalizing d with
  | nil =>
    simp only [deleteChunks, deleteKeys, List.flatten_nil, List.not_mem_nil, not_false_eq_true,
      decide_true, decide_false, filter_true]
    rw [count_eq_zero.mpr fun _ _ => rfl]
  | cons chunk rest ih =>
    have hsplit := d.count_eq_add (fun k _ => decide (k ∈ chunk ∨ k ∈ rest.flatten))
      fun k _ => decide (k ∈ chunk)
    simp only [deleteChunks, ih, deleteKeys, filter_filter, count_filter, List.flatten_cons,
      List.mem_append]
    rw [Prod.mk.injEq]
    refine ⟨filter_congr fun e _ => ?_, ?_⟩
    · by_cases hchunk : e.1 ∈ chunk <;> simp [hchunk]
    · rw [hsplit]
      congr 1
      · refine count_congr fun e _ => ?_
        by_cases hchunk : e.1 ∈ chunk <;> simp [hchunk]
      · refine count_congr fun e _ => ?_
        by_cases hchunk : e.1 ∈ chunk <;> simp [hchunk]

/-- Ids that were selected before are deleted with their rows. -/
theorem deleteChunks_select (d : Dict K V) (p : K → V → Bool) (batch : ℕ) :
    d.deleteChunks (chunks batch (d.select p)) = (d.filter fun k v => !p k v, d.count p) := by
  rw [deleteChunks_eq, flatten_chunks]
  unfold deleteKeys
  rw [Prod.mk.injEq]
  refine ⟨filter_congr fun e he => ?_, count_congr fun e he => ?_⟩
  · simp [mem_select_iff he]
  · simp [mem_select_iff he]

end CryptoTrading.Lib.Dict
