import CryptoTrading.Lib.Record

/-!
# Three-way merging

The rule by which one value is merged (`threeWay`), and its two liftings: to records, key by
key with a missing key read as null, and to lists kept under keys.

The rule is symmetric in the two sides.  Its value is the side that changed, and it fails
only when both sides changed the value in different ways.
-/

namespace CryptoTrading.Lib

variable {α : Type} [DecidableEq α]

/-! ## §1 One value -/

/-- The merged value, or nothing on a conflict. -/
def threeWay (base ours theirs : α) : Option α :=
  if ours = theirs then some ours
  else if base = ours then some theirs
  else if base = theirs then some ours
  else none

/-- The merged value; a conflict is left at our side. -/
def threeWayOurs (base ours theirs : α) : α := (threeWay base ours theirs).getD ours

@[simp] theorem threeWay_ours_unchanged (base theirs : α) :
    threeWay base base theirs = some theirs := by
  by_cases h : base = theirs <;> simp [threeWay, h]

@[simp] theorem threeWay_theirs_unchanged (base ours : α) :
    threeWay base ours base = some ours := by
  by_cases h : base = ours
  · simp [threeWay, h]
  · simp [threeWay, h, Ne.symm h]

@[simp] theorem threeWay_same (base side : α) : threeWay base side side = some side := by
  simp [threeWay]

theorem threeWay_comm (base ours theirs : α) :
    threeWay base ours theirs = threeWay base theirs ours := by
  by_cases h : ours = theirs
  · rw [h]
  · by_cases hours : base = ours
    · subst hours
      simp
    · by_cases htheirs : base = theirs
      · subst htheirs
        simp
      · simp [threeWay, h, Ne.symm h, hours, htheirs]

theorem threeWay_eq_none_iff {base ours theirs : α} :
    threeWay base ours theirs = none ↔ ours ≠ theirs ∧ base ≠ ours ∧ base ≠ theirs := by
  unfold threeWay
  split
  · simp_all
  · split
    · simp_all
    · split <;> simp_all

@[simp] theorem threeWayOurs_same (base side : α) : threeWayOurs base side side = side := by
  simp [threeWayOurs]

/-- Without a conflict it does not matter which side is called ours. -/
theorem threeWayOurs_comm {base ours theirs : α} (h : threeWay base ours theirs ≠ none) :
    threeWayOurs base ours theirs = threeWayOurs base theirs ours := by
  unfold threeWayOurs
  rw [← threeWay_comm base ours theirs]
  cases hmerged : threeWay base ours theirs with
  | none => exact absurd hmerged h
  | some v => rfl

/-- At most one side differs from the base, or both are the same, and `merged` is the value
    that is then expected. -/
def OneSided (base ours theirs merged : α) : Prop :=
  (ours = base ∧ theirs = merged) ∨ (theirs = base ∧ ours = merged) ∨
    (ours = merged ∧ theirs = merged)

omit [DecidableEq α] in
theorem OneSided.map {β : Type} (f : α → β) {base ours theirs merged : α}
    (h : OneSided base ours theirs merged) :
    OneSided (f base) (f ours) (f theirs) (f merged) := by
  rcases h with ⟨rfl, rfl⟩ | ⟨rfl, rfl⟩ | ⟨rfl, rfl⟩
  · exact Or.inl ⟨rfl, rfl⟩
  · exact Or.inr (Or.inl ⟨rfl, rfl⟩)
  · exact Or.inr (Or.inr ⟨rfl, rfl⟩)

theorem OneSided.threeWay_eq {base ours theirs merged : α}
    (h : OneSided base ours theirs merged) : threeWay base ours theirs = some merged := by
  rcases h with ⟨rfl, rfl⟩ | ⟨rfl, rfl⟩ | ⟨rfl, rfl⟩ <;> simp

theorem OneSided.threeWayOurs_eq {base ours theirs merged : α}
    (h : OneSided base ours theirs merged) : threeWayOurs base ours theirs = merged := by
  rw [threeWayOurs, h.threeWay_eq]
  rfl

theorem oneSided_of_threeWay {base ours theirs merged : α}
    (h : threeWay base ours theirs = some merged) : OneSided base ours theirs merged := by
  unfold threeWay at h
  split at h
  · rename_i hsame
    obtain rfl := Option.some.inj h
    exact Or.inr (Or.inr ⟨rfl, hsame.symm⟩)
  · split at h
    · rename_i hours
      obtain rfl := Option.some.inj h
      exact Or.inl ⟨hours.symm, rfl⟩
    · split at h
      · rename_i htheirs
        obtain rfl := Option.some.inj h
        exact Or.inr (Or.inl ⟨htheirs.symm, rfl⟩)
      · cases h

theorem threeWayOurs_of_threeWay {base ours theirs merged : α}
    (h : threeWay base ours theirs = some merged) : threeWayOurs base ours theirs = merged :=
  (oneSided_of_threeWay h).threeWayOurs_eq

/-- The merged value is that of a side. -/
theorem threeWayOurs_cases (base ours theirs : α) :
    threeWayOurs base ours theirs = ours ∨ threeWayOurs base ours theirs = theirs := by
  unfold threeWayOurs
  cases hmerged : threeWay base ours theirs with
  | none => exact Or.inl rfl
  | some v =>
    rcases oneSided_of_threeWay hmerged with h | h | h
    · exact Or.inr h.2.symm
    · exact Or.inl h.2.symm
    · exact Or.inl h.1.symm

/-! ## §2 Records -/

section Records

variable {K : Type} [LinearOrder K] (null : α)

/-- The keys of any of three records. -/
def allKeys {β : Type} (base ours theirs : Record K β) : List K :=
  base.keys ++ ours.keys ++ theirs.keys

/-- The three records merged key by key. -/
def mergeRecords (base ours theirs : Record K α) : Record K α :=
  Record.tabulate (allKeys base ours theirs) fun k =>
    threeWayOurs (base.look null k) (ours.look null k) (theirs.look null k)

/-- The keys at which the merge has a conflict, in order. -/
def recordConflicts (base ours theirs : Record K α) : List K :=
  (sortedKeys (allKeys base ours theirs)).filter fun k =>
    threeWay (base.look null k) (ours.look null k) (theirs.look null k) = none

theorem mem_allKeys {β : Type} {base ours theirs : Record K β} {k : K} :
    k ∈ allKeys base ours theirs ↔ k ∈ base.keys ∨ k ∈ ours.keys ∨ k ∈ theirs.keys := by
  simp [allKeys]

omit [DecidableEq α] in
/-- A key of none of the records is null everywhere. -/
theorem look_of_notMem_allKeys {base ours theirs : Record K α} {k : K}
    (h : k ∉ allKeys base ours theirs) :
    base.look null k = null ∧ ours.look null k = null ∧ theirs.look null k = null := by
  rw [mem_allKeys, not_or, not_or] at h
  exact ⟨Record.look_of_notMem null h.1, Record.look_of_notMem null h.2.1,
    Record.look_of_notMem null h.2.2⟩

/-- **Every key is merged by the rule**, also one that no record has. -/
theorem look_mergeRecords (base ours theirs : Record K α) (k : K) :
    (mergeRecords null base ours theirs).look null k =
      threeWayOurs (base.look null k) (ours.look null k) (theirs.look null k) := by
  by_cases hk : k ∈ allKeys base ours theirs
  · simp [Record.look, mergeRecords, hk]
  · obtain ⟨hbase, hours, htheirs⟩ := look_of_notMem_allKeys null hk
    rw [hbase, hours, htheirs, threeWayOurs_same]
    simp [Record.look, mergeRecords, hk]

/-- The conflicts are the keys at which the rule fails. -/
theorem mem_recordConflicts {base ours theirs : Record K α} {k : K} :
    k ∈ recordConflicts null base ours theirs ↔
      threeWay (base.look null k) (ours.look null k) (theirs.look null k) = none := by
  constructor
  · intro hk
    simpa using (List.mem_filter.mp hk).2
  · intro hnone
    refine List.mem_filter.mpr ⟨?_, by simpa using hnone⟩
    rw [mem_sortedKeys]
    by_contra hk
    obtain ⟨hbase, hours, htheirs⟩ := look_of_notMem_allKeys null hk
    rw [hbase, hours, htheirs, threeWay_same] at hnone
    cases hnone

/-- A merge whose values are those of a record with all the keys is that record. -/
theorem mergeRecords_eq_of_look {base ours theirs r : Record K α}
    (hkeys : ∀ k, k ∈ allKeys base ours theirs ↔ k ∈ r.keys)
    (hlook : ∀ k, threeWayOurs (base.look null k) (ours.look null k) (theirs.look null k) =
      r.look null k) : mergeRecords null base ours theirs = r := by
  apply Record.ext_get?
  intro k
  rw [mergeRecords, Record.get?_tabulate]
  split
  · rename_i hk
    rw [hlook, Record.get?_of_mem null ((hkeys k).mp hk)]
  · rename_i hk
    exact ((r.get?_eq_none_iff k).mpr fun hmem => hk ((hkeys k).mpr hmem)).symm

/-- A one-sided change of a record is taken over when the base has no key of its own. -/
theorem OneSided.mergeRecords_eq {base ours theirs merged : Record K α}
    (h : OneSided base ours theirs merged) (hkeys : ∀ k ∈ base.keys, k ∈ merged.keys) :
    mergeRecords null base ours theirs = merged := by
  apply mergeRecords_eq_of_look
  · intro k
    have hbase := hkeys k
    rw [mem_allKeys]
    rcases h with ⟨rfl, rfl⟩ | ⟨rfl, rfl⟩ | ⟨rfl, rfl⟩ <;> tauto
  · intro k
    exact (h.map fun r => r.look null k).threeWayOurs_eq

theorem OneSided.recordConflicts_eq {base ours theirs merged : Record K α}
    (h : OneSided base ours theirs merged) : recordConflicts null base ours theirs = [] := by
  apply List.eq_nil_iff_forall_not_mem.mpr
  intro k hk
  have hrule := (h.map fun r => r.look null k).threeWay_eq
  rw [(mem_recordConflicts null).mp hk] at hrule
  cases hrule

/-- Without conflicts it does not matter which side is called ours. -/
theorem mergeRecords_comm {base ours theirs : Record K α}
    (h : recordConflicts null base ours theirs = []) :
    mergeRecords null base ours theirs = mergeRecords null base theirs ours := by
  apply Record.ext_get?
  intro k
  have hclean : threeWay (base.look null k) (ours.look null k) (theirs.look null k) ≠ none := by
    intro hnone
    have hmem := (mem_recordConflicts null).mpr hnone
    rw [h] at hmem
    cases hmem
  have hkeys : k ∈ allKeys base ours theirs ↔ k ∈ allKeys base theirs ours := by
    rw [mem_allKeys, mem_allKeys, @or_comm (k ∈ ours.keys)]
  simp only [mergeRecords, Record.get?_tabulate, hkeys, threeWayOurs_comm hclean]

end Records

/-! ## §3 Lists kept under keys -/

section Keyed

variable {K : Type} [DecidableEq K]

/-- The keys of three dictionaries in order of first appearance: ours, theirs, base. -/
def namesInOrder (base ours theirs : Dict K α) : List K :=
  (Dict.ofList ((ours.keys ++ theirs.keys ++ base.keys).map fun k => (k, ()))).keys

/-- The entries that remain, in the order of their keys. -/
def mergeKeyed (base ours theirs : Dict K α) : List α :=
  (namesInOrder base ours theirs).filterMap fun k =>
    threeWayOurs (base.get? k) (ours.get? k) (theirs.get? k)

/-- The keys at which the merge has a conflict. -/
def keyedConflicts (base ours theirs : Dict K α) : List K :=
  (namesInOrder base ours theirs).filter fun k =>
    threeWay (base.get? k) (ours.get? k) (theirs.get? k) = none

omit [DecidableEq α] in
theorem mem_namesInOrder {base ours theirs : Dict K α} {k : K} :
    k ∈ namesInOrder base ours theirs ↔ k ∈ ours.keys ∨ k ∈ theirs.keys ∨ k ∈ base.keys := by
  simp [namesInOrder, Dict.mem_keys_ofList]

omit [DecidableEq α] in
theorem nodup_namesInOrder (base ours theirs : Dict K α) :
    (namesInOrder base ours theirs).Nodup :=
  Dict.nodupKeys _

omit [DecidableEq α] in
/-- A key of none of the dictionaries is missing everywhere. -/
theorem get?_of_notMem_namesInOrder {base ours theirs : Dict K α} {k : K}
    (h : k ∉ namesInOrder base ours theirs) :
    base.get? k = none ∧ ours.get? k = none ∧ theirs.get? k = none := by
  rw [mem_namesInOrder, not_or, not_or] at h
  exact ⟨(base.get?_eq_none_iff k).mpr h.2.2, (ours.get?_eq_none_iff k).mpr h.1,
    (theirs.get?_eq_none_iff k).mpr h.2.1⟩

/-- The conflicts are the keys at which the rule fails. -/
theorem mem_keyedConflicts {base ours theirs : Dict K α} {k : K} :
    k ∈ keyedConflicts base ours theirs ↔
      threeWay (base.get? k) (ours.get? k) (theirs.get? k) = none := by
  constructor
  · intro hk
    simpa using (List.mem_filter.mp hk).2
  · intro hnone
    refine List.mem_filter.mpr ⟨?_, by simpa using hnone⟩
    by_contra hk
    obtain ⟨hbase, hours, htheirs⟩ := get?_of_notMem_namesInOrder hk
    rw [hbase, hours, htheirs, threeWay_same] at hnone
    cases hnone

/-- Without conflicts both orders of the sides keep the same entries. -/
theorem mergeKeyed_perm {base ours theirs : Dict K α}
    (h : keyedConflicts base ours theirs = []) :
    (mergeKeyed base ours theirs).Perm (mergeKeyed base theirs ours) := by
  have hnames : (namesInOrder base ours theirs).Perm (namesInOrder base theirs ours) := by
    apply (List.perm_ext_iff_of_nodup (nodup_namesInOrder _ _ _) (nodup_namesInOrder _ _ _)).mpr
    intro k
    rw [mem_namesInOrder, mem_namesInOrder]
    tauto
  have hvalues : ∀ k, threeWayOurs (base.get? k) (ours.get? k) (theirs.get? k) =
      threeWayOurs (base.get? k) (theirs.get? k) (ours.get? k) := by
    intro k
    apply threeWayOurs_comm
    intro hnone
    have hmem := mem_keyedConflicts.mpr hnone
    rw [h] at hmem
    cases hmem
  unfold mergeKeyed
  simp only [hvalues]
  exact hnames.filterMap _

section Named

variable (name : α → K)

/-- Every entry is kept under its own name. -/
def NamedDict (d : Dict K α) : Prop := ∀ k v, d.get? k = some v → name v = k

omit [DecidableEq α] in
theorem namedDict_ofList (vs : List α) :
    NamedDict name (Dict.ofList (vs.map fun v => (name v, v))) := by
  intro k v h
  obtain ⟨v', -, heq⟩ := List.mem_map.mp (Dict.mem_of_get?_ofList h)
  obtain ⟨rfl, rfl⟩ := Prod.mk.inj heq
  rfl

omit [DecidableEq α] in
/-- A list in which each key contributes at most one entry, of that name. -/
theorem get?_ofList_filterMap {ks : List K} (hnodup : ks.Nodup) {f : K → Option α}
    (hname : ∀ k v, f k = some v → name v = k) (k : K) :
    (Dict.ofList ((ks.filterMap f).map fun v => (name v, v))).get? k =
      if k ∈ ks then f k else none := by
  -- the names of the entries are keys, so they are distinct
  have hkeys : ((ks.filterMap f).map name) = ks.filter fun k => (f k).isSome := by
    induction ks with
    | nil => rfl
    | cons k rest ih =>
      have hrest := ih (List.nodup_cons.mp hnodup).2
      cases hf : f k with
      | none => simp [hf, hrest]
      | some v => simp [hf, hrest, hname k v hf]
  have hdistinct : (((ks.filterMap f).map fun v => (name v, v)).map Prod.fst).Nodup := by
    rw [List.map_map]
    show ((ks.filterMap f).map name).Nodup
    rw [hkeys]
    exact hnodup.filter _
  cases hget : (Dict.ofList ((ks.filterMap f).map fun v => (name v, v))).get? k with
  | some v =>
    obtain ⟨v', hv', heq⟩ := List.mem_map.mp (Dict.mem_of_get?_ofList hget)
    obtain ⟨rfl, rfl⟩ := Prod.mk.inj heq
    obtain ⟨k', hk', hf⟩ := List.mem_filterMap.mp hv'
    rw [hname k' v' hf, if_pos hk', hf]
  | none =>
    by_cases hk : k ∈ ks
    · rw [if_pos hk]
      cases hf : f k with
      | none => rfl
      | some v =>
        have hmem : (k, v) ∈ (ks.filterMap f).map fun v => (name v, v) :=
          List.mem_map.mpr ⟨v, List.mem_filterMap.mpr ⟨k, hk, hf⟩, by rw [hname k v hf]⟩
        rw [Dict.get?, Dict.entries_ofList hdistinct, Dict.findIn_eq_none_iff] at hget
        exact absurd (List.mem_map_of_mem hmem) hget
    · rw [if_neg hk]

/-- **A merged list has under every name what the rule yields for it.** -/
theorem get?_mergeKeyed {base ours theirs : Dict K α} (hours : NamedDict name ours)
    (htheirs : NamedDict name theirs) (k : K) :
    (Dict.ofList ((mergeKeyed base ours theirs).map fun v => (name v, v))).get? k =
      threeWayOurs (base.get? k) (ours.get? k) (theirs.get? k) := by
  have hname : ∀ k v, threeWayOurs (base.get? k) (ours.get? k) (theirs.get? k) = some v →
      name v = k := by
    intro k v hv
    rcases threeWayOurs_cases (base.get? k) (ours.get? k) (theirs.get? k) with h | h
    · exact hours k v (h ▸ hv)
    · exact htheirs k v (h ▸ hv)
  rw [mergeKeyed, get?_ofList_filterMap name (nodup_namesInOrder _ _ _) hname]
  by_cases hk : k ∈ namesInOrder base ours theirs
  · rw [if_pos hk]
  · obtain ⟨hb, ho, ht⟩ := get?_of_notMem_namesInOrder hk
    rw [if_neg hk, hb, ho, ht, threeWayOurs_same]

end Named

end Keyed

end CryptoTrading.Lib
