import CryptoTrading.Vcs.MergeIdentity

/-!
# Soundness of the three-way merge

The merge decides every leaf of a configuration by the rule of `threeWay`: a top-level
setting, a plain field of an asset, a key of `consensus` or `guard_config`, a whole strategy.
These leaves exist where both sides have the asset.  An asset that a side lacks is one leaf,
the whole asset: it is deleted or brought in when the other side has not changed it, and
deleting it on one side and changing it on the other is a conflict.

From the rule follow the soundness of every leaf and the symmetry of the merge.
-/

namespace CryptoTrading.Vcs

open CryptoTrading.Lib SemanticMergeEngine

variable {V : Type} [DecidableEq V]

/-! ## §1 The conflicts of one field and of one asset -/

def conflictPaths (conflicts : List (FieldConflict V)) : List ConflictPath :=
  conflicts.map FieldConflict.path

theorem mem_conflictPaths_mergeSubdict {key f : String}
    {base ours theirs : Record String (Option V)} {p : ConflictPath} :
    p ∈ conflictPaths (mergeSubdict key f base ours theirs).2 ↔
      ∃ k, p = .subKey key f k ∧
        threeWay (base.look none k) (ours.look none k) (theirs.look none k) = none := by
  simp only [conflictPaths, mergeSubdict, List.map_map, List.mem_map, mem_recordConflicts,
    Function.comp_apply]
  constructor
  · rintro ⟨k, hk, rfl⟩
    exact ⟨k, rfl, hk⟩
  · rintro ⟨k, rfl, hk⟩
    exact ⟨k, hk, rfl⟩

/-- The lists are taken over as they are, or merged name by name. -/
theorem mergeStrategies_of_threeWay_none (key : String) {base ours theirs : List (Strategy V)}
    (h : threeWay base ours theirs = none) :
    mergeStrategies key base ours theirs =
      (mergeKeyed (strategyMap base) (strategyMap ours) (strategyMap theirs),
        (keyedConflicts (strategyMap base) (strategyMap ours) (strategyMap theirs)).map fun name =>
          strategyConflict key name ((strategyMap base).get? name) ((strategyMap ours).get? name)
            ((strategyMap theirs).get? name)) := by
  obtain ⟨hsides, hours, htheirs⟩ := threeWay_eq_none_iff.mp h
  rw [mergeStrategies, if_neg hsides, if_neg hours, if_neg htheirs]

/-- The shortcut for whole lists agrees with the merge by names. -/
theorem threeWay_strategyMap {base ours theirs merged : List (Strategy V)}
    (h : threeWay base ours theirs = some merged) (name : String) :
    threeWay ((strategyMap base).get? name) ((strategyMap ours).get? name)
      ((strategyMap theirs).get? name) = some ((strategyMap merged).get? name) :=
  ((oneSided_of_threeWay h).map fun ss => (strategyMap ss).get? name).threeWay_eq

theorem mem_conflictPaths_mergeStrategies {key : String} {base ours theirs : List (Strategy V)}
    {p : ConflictPath} :
    p ∈ conflictPaths (mergeStrategies key base ours theirs).2 ↔
      ∃ name, p = .strategy key name ∧
        threeWay ((strategyMap base).get? name) ((strategyMap ours).get? name)
          ((strategyMap theirs).get? name) = none := by
  cases hlists : threeWay base ours theirs with
  | some merged =>
    rw [mergeStrategies_of_threeWay key hlists]
    simp [conflictPaths, threeWay_strategyMap hlists]
  | none =>
    rw [mergeStrategies_of_threeWay_none key hlists]
    simp only [conflictPaths, List.map_map, List.mem_map, mem_keyedConflicts,
      Function.comp_apply]
    constructor
    · rintro ⟨name, hname, rfl⟩
      exact ⟨name, rfl, hname⟩
    · rintro ⟨name, rfl, hname⟩
      exact ⟨name, hname, rfl⟩

/-- **Under every name the merged strategies are what the rule yields.** -/
theorem get?_strategyMap_mergeStrategies (key : String) (base ours theirs : List (Strategy V))
    (name : String) :
    (strategyMap (mergeStrategies key base ours theirs).1).get? name =
      threeWayOurs ((strategyMap base).get? name) ((strategyMap ours).get? name)
        ((strategyMap theirs).get? name) := by
  cases hlists : threeWay base ours theirs with
  | some merged =>
    rw [mergeStrategies_of_threeWay key hlists, threeWayOurs, threeWay_strategyMap hlists]
    rfl
  | none =>
    rw [mergeStrategies_of_threeWay_none key hlists]
    exact get?_mergeKeyed Strategy.name (namedDict_ofList Strategy.name _)
      (namedDict_ofList Strategy.name _) name

/-- The field is an object on some side, and merged key by key. -/
def MergedAsObject (f : String) (base ours theirs : FieldValue V) : Prop :=
  (f = "consensus" ∨ f = "guard_config") ∧ (ours.isDict || theirs.isDict || base.isDict) = true

instance (f : String) (base ours theirs : FieldValue V) :
    Decidable (MergedAsObject f base ours theirs) := by
  unfold MergedAsObject
  infer_instance

omit [DecidableEq V] in
theorem MergedAsObject.ne_strategies {f : String} {base ours theirs : FieldValue V}
    (h : MergedAsObject f base ours theirs) : f ≠ "strategies" := by
  rcases h.1 with rfl | rfl <;> decide

omit [DecidableEq V] in
theorem mergedAsObject_comm {f : String} {base ours theirs : FieldValue V} :
    MergedAsObject f base ours theirs ↔ MergedAsObject f base theirs ours := by
  rw [MergedAsObject, MergedAsObject, Bool.or_comm ours.isDict theirs.isDict]

theorem mergeField_strategies (key : String) (base ours theirs : FieldValue V) :
    mergeField key "strategies" base ours theirs =
      (.strategies (mergeStrategies key base.orEmptyList ours.orEmptyList theirs.orEmptyList).1,
        (mergeStrategies key base.orEmptyList ours.orEmptyList theirs.orEmptyList).2) := by
  simp only [mergeField, if_true]

theorem mergeField_object (key : String) {f : String} {base ours theirs : FieldValue V}
    (h : MergedAsObject f base ours theirs) :
    mergeField key f base ours theirs =
      (.dict (mergeSubdict key f base.orEmptyDict ours.orEmptyDict theirs.orEmptyDict).1,
        (mergeSubdict key f base.orEmptyDict ours.orEmptyDict theirs.orEmptyDict).2) := by
  have hobject := h
  unfold MergedAsObject at hobject
  simp only [mergeField, if_neg h.ne_strategies, if_pos hobject]

/-- Every other field is one leaf. -/
theorem mergeField_leaf (key : String) {f : String} {base ours theirs : FieldValue V}
    (hne : f ≠ "strategies") (h : ¬ MergedAsObject f base ours theirs) :
    mergeField key f base ours theirs = (threeWayOurs base ours theirs,
      if threeWay base ours theirs = none then
        [⟨.field key f, .field base, .field ours, .field theirs,
          "Conflict on asset '" ++ key ++ "' property '" ++ f ++ "'"⟩]
      else []) := by
  unfold MergedAsObject at h
  simp only [mergeField, if_neg hne, if_neg h, threeWayOurs]
  cases threeWay base ours theirs <;> simp

/-- Where a field of an asset has conflicts. -/
def FieldClash (key f : String) (base ours theirs : FieldValue V) : ConflictPath → Prop
  | .field key' f' => key' = key ∧ f' = f ∧ f ≠ "strategies" ∧
      ¬ MergedAsObject f base ours theirs ∧ threeWay base ours theirs = none
  | .subKey key' f' k => key' = key ∧ f' = f ∧ (f = "consensus" ∨ f = "guard_config") ∧
      threeWay (base.orEmptyDict.look none k) (ours.orEmptyDict.look none k)
        (theirs.orEmptyDict.look none k) = none
  | .strategy key' name => key' = key ∧ f = "strategies" ∧
      threeWay ((strategyMap base.orEmptyList).get? name)
        ((strategyMap ours.orEmptyList).get? name)
        ((strategyMap theirs.orEmptyList).get? name) = none
  | _ => False

omit [DecidableEq V] in
/-- Outside of an object every key reads as null. -/
theorem look_orEmptyDict_of_not_isDict {v : FieldValue V} (h : v.isDict = false) (k : String) :
    v.orEmptyDict.look none k = none := by
  cases v with
  | leaf value => rfl
  | dict d => cases h
  | strategies ss => rfl

theorem mem_conflictPaths_mergeField {key f : String} {base ours theirs : FieldValue V}
    {p : ConflictPath} :
    p ∈ conflictPaths (mergeField key f base ours theirs).2 ↔
      FieldClash key f base ours theirs p := by
  by_cases hstrategies : f = "strategies"
  · subst hstrategies
    rw [mergeField_strategies, mem_conflictPaths_mergeStrategies]
    cases p <;> simp [FieldClash]
  by_cases hobject : MergedAsObject f base ours theirs
  · rw [mergeField_object key hobject, mem_conflictPaths_mergeSubdict]
    have hf := hobject.1
    cases p <;> simp [FieldClash, hstrategies, hobject]
    tauto
  · rw [mergeField_leaf key hstrategies hobject]
    cases p with
    | field key' f' =>
      by_cases hclash : threeWay base ours theirs = none <;>
        simp [FieldClash, conflictPaths, hclash, hstrategies, hobject]
    | subKey key' f' k =>
      -- no side has an object here, so no key of it can clash
      have hclean : ¬ FieldClash key f base ours theirs (.subKey key' f' k) := by
        rintro ⟨-, -, hf, hnone⟩
        have hdict : (ours.isDict || theirs.isDict || base.isDict) = false := by
          by_contra hsome
          exact hobject ⟨hf, Bool.eq_true_of_not_eq_false hsome⟩
        simp only [Bool.or_eq_false_iff] at hdict
        rw [look_orEmptyDict_of_not_isDict hdict.1.1, look_orEmptyDict_of_not_isDict hdict.1.2,
          look_orEmptyDict_of_not_isDict hdict.2, threeWay_same] at hnone
        cases hnone
      by_cases hclash : threeWay base ours theirs = none <;> simp [conflictPaths, hclash, hclean]
    | top k | asset key' | strategy key' name =>
      by_cases hclash : threeWay base ours theirs = none <;>
        simp [FieldClash, conflictPaths, hclash, hstrategies]

theorem FieldClash.symm {key f : String} {base ours theirs : FieldValue V} {p : ConflictPath}
    (h : FieldClash key f base ours theirs p) : FieldClash key f base theirs ours p := by
  cases p with
  | top k | asset key' => exact h
  | field key' f' =>
    obtain ⟨hkey, hf, hne, hobject, hnone⟩ := h
    exact ⟨hkey, hf, hne, fun hswap => hobject (mergedAsObject_comm.mpr hswap),
      threeWay_comm base ours theirs ▸ hnone⟩
  | subKey key' f' k =>
    obtain ⟨hkey, hf, hobject, hnone⟩ := h
    exact ⟨hkey, hf, hobject, by rw [threeWay_comm]; exact hnone⟩
  | strategy key' name =>
    obtain ⟨hkey, hf, hnone⟩ := h
    exact ⟨hkey, hf, by rw [threeWay_comm]; exact hnone⟩

/-- A clash needs a field that some side or the base has. -/
theorem FieldClash.mem_allKeys {key f : String} {base ours theirs : AssetDump V}
    {p : ConflictPath} (h : FieldClash key f (base.field f) (ours.field f) (theirs.field f) p) :
    f ∈ allKeys base ours theirs := by
  by_contra hf
  obtain ⟨hbase, hours, htheirs⟩ := look_of_notMem_allKeys FieldValue.null hf
  simp only [AssetDump.field, hbase, hours, htheirs] at h
  cases p <;> simp [FieldClash] at h

theorem mem_conflictPaths_mergeSingleAsset {key : String} {base ours theirs : AssetDump V}
    {p : ConflictPath} :
    p ∈ conflictPaths (mergeSingleAsset key base ours theirs).2 ↔
      ∃ f, FieldClash key f (base.field f) (ours.field f) (theirs.field f) p := by
  simp only [conflictPaths, mergeSingleAsset, List.map_flatMap, List.mem_flatMap, mem_sortedKeys]
  constructor
  · rintro ⟨f, -, hp⟩
    exact ⟨f, mem_conflictPaths_mergeField.mp hp⟩
  · rintro ⟨f, hp⟩
    exact ⟨f, hp.mem_allKeys, mem_conflictPaths_mergeField.mpr hp⟩

/-! ## §2 Leaves -/

section Leaves

variable (str : FieldValue V → String) (upper : String → String)

/-- The asset of a configuration under a key. -/
def assetOf (key : String) (c : Config V) : Option (AssetDump V) :=
  (assetMap str upper c.assets).get? key

def settingAt (k : String) (c : Config V) : Option V := c.settings.look none k

/-- A field of the asset under a key, null when there is no such asset. -/
def fieldAt (key f : String) (c : Config V) : FieldValue V :=
  AssetDump.field ((assetOf str upper key c).getD Record.empty) f

/-- A key of an object field; null stands for an object of nulls. -/
def objectKeyAt (key f k : String) (c : Config V) : Option V :=
  (fieldAt str upper key f c).orEmptyDict.look none k

/-- The strategy of a name. -/
def strategyAt (key name : String) (c : Config V) : Option (Strategy V) :=
  (strategyMap (fieldAt str upper key "strategies" c).orEmptyList).get? name

/-- Both sides have the asset, so that it is merged field by field. -/
def OnBothSides (key : String) (ours theirs : Config V) : Prop :=
  assetOf str upper key ours ≠ none ∧ assetOf str upper key theirs ≠ none

/-- What the merge reports as conflicts: the leaves at which the rule fails. -/
def Clash (base ours theirs : Config V) : ConflictPath → Prop
  | .top k => threeWay (settingAt k base) (settingAt k ours) (settingAt k theirs) = none
  | .asset key => ¬ OnBothSides str upper key ours theirs ∧
      threeWay (assetOf str upper key base) (assetOf str upper key ours)
        (assetOf str upper key theirs) = none
  | .field key f => OnBothSides str upper key ours theirs ∧
      FieldClash key f (fieldAt str upper key f base) (fieldAt str upper key f ours)
        (fieldAt str upper key f theirs) (.field key f)
  | .subKey key f k => OnBothSides str upper key ours theirs ∧
      FieldClash key f (fieldAt str upper key f base) (fieldAt str upper key f ours)
        (fieldAt str upper key f theirs) (.subKey key f k)
  | .strategy key name => OnBothSides str upper key ours theirs ∧
      FieldClash key "strategies" (fieldAt str upper key "strategies" base)
        (fieldAt str upper key "strategies" ours) (fieldAt str upper key "strategies" theirs)
        (.strategy key name)

variable {str upper} {base ours theirs : Config V} {key : String}

/-- An asset that both sides have is merged field by field, over nothing when it is new. -/
theorem assetAt_of_some_some {o t : AssetDump V} (ho : assetOf str upper key ours = some o)
    (ht : assetOf str upper key theirs = some t) :
    assetAt str upper base ours theirs key =
      ([(mergeSingleAsset key ((assetOf str upper key base).getD Record.empty) o t).1],
        (mergeSingleAsset key ((assetOf str upper key base).getD Record.empty) o t).2) := by
  unfold assetOf at ho ht
  rw [assetAt, ho, ht]
  unfold assetOf
  cases (assetMap str upper base.assets).get? key <;> rfl

/-- An asset that a side lacks is one leaf. -/
theorem assetAt_of_not_onBothSides (h : ¬ OnBothSides str upper key ours theirs) :
    (assetAt str upper base ours theirs key).1.head? =
        (threeWay (assetOf str upper key base) (assetOf str upper key ours)
          (assetOf str upper key theirs)).getD
            ((assetOf str upper key ours).or (assetOf str upper key theirs)) ∧
      conflictPaths (assetAt str upper base ours theirs key).2 =
        if threeWay (assetOf str upper key base) (assetOf str upper key ours)
          (assetOf str upper key theirs) = none then [.asset key] else [] := by
  unfold OnBothSides at h
  unfold assetAt
  unfold assetOf at h ⊢
  generalize (assetMap str upper base.assets).get? key = b at h ⊢
  generalize (assetMap str upper ours.assets).get? key = o at h ⊢
  generalize (assetMap str upper theirs.assets).get? key = t at h ⊢
  cases o with
  | some o =>
    cases t with
    | some t => exact absurd ⟨by simp, by simp⟩ h
    | none =>
      cases b with
      | none => simp [mergeAssetAt, threeWay, conflictPaths]
      | some b =>
        -- deleted on the other side: a conflict only if this side changed it
        by_cases hob : o = b
        · subst hob
          simp [mergeAssetAt, conflictPaths]
        · simp [mergeAssetAt, threeWay, conflictPaths, modifyDeleteConflict, hob, Ne.symm hob]
  | none =>
    cases t with
    | none => cases b <;> simp [mergeAssetAt, threeWay, conflictPaths]
    | some t =>
      cases b with
      | none => simp [mergeAssetAt, conflictPaths]
      | some b =>
        by_cases htb : t = b
        · subst htb
          simp [mergeAssetAt, conflictPaths]
        · simp [mergeAssetAt, threeWay, conflictPaths, modifyDeleteConflict, htb, Ne.symm htb]

/-- The asset a conflict is about. -/
def ConflictPath.assetKey? : ConflictPath → Option String
  | .top _ => none
  | .asset key => some key
  | .field key _ => some key
  | .subKey key _ _ => some key
  | .strategy key _ => some key

theorem mem_conflictPaths_assetAt {p : ConflictPath} :
    p ∈ conflictPaths (assetAt str upper base ours theirs key).2 ↔
      p.assetKey? = some key ∧ Clash str upper base ours theirs p := by
  by_cases hboth : OnBothSides str upper key ours theirs
  · -- the fields of the asset are the leaves
    obtain ⟨o, ho⟩ := Option.ne_none_iff_exists'.mp hboth.1
    obtain ⟨t, ht⟩ := Option.ne_none_iff_exists'.mp hboth.2
    rw [assetAt_of_some_some ho ht, mem_conflictPaths_mergeSingleAsset]
    have hfield : ∀ f, FieldClash key f
        (AssetDump.field ((assetOf str upper key base).getD Record.empty) f) (o.field f)
        (t.field f) = FieldClash key f (fieldAt str upper key f base)
          (fieldAt str upper key f ours) (fieldAt str upper key f theirs) := by
      intro f
      simp only [fieldAt, ho, ht, Option.getD_some]
    simp only [hfield]
    constructor
    · -- a conflict of a field is at a path below the asset
      rintro ⟨f, hf⟩
      cases p with
      | top k | asset key' => exact hf.elim
      | field key' f' | subKey key' f' k =>
        obtain ⟨rfl, rfl, -⟩ := id hf
        exact ⟨rfl, hboth, hf⟩
      | strategy key' name =>
        obtain ⟨rfl, rfl, -⟩ := id hf
        exact ⟨rfl, hboth, hf⟩
    · -- a clash at a path below the asset is one of its field
      rintro ⟨hkey, hclash⟩
      cases p with
      | top k => cases hkey
      | asset key' =>
        obtain rfl := Option.some.inj hkey
        exact absurd hboth hclash.1
      | field key' f | subKey key' f k =>
        obtain rfl := Option.some.inj hkey
        exact ⟨f, hclash.2⟩
      | strategy key' name =>
        obtain rfl := Option.some.inj hkey
        exact ⟨"strategies", hclash.2⟩
  · -- the asset itself is the leaf
    rw [(assetAt_of_not_onBothSides hboth).2]
    constructor
    · intro hp
      split at hp
      · rename_i hnone
        obtain rfl := List.mem_singleton.mp hp
        exact ⟨rfl, hboth, hnone⟩
      · cases hp
    · rintro ⟨hkey, hclash⟩
      cases p with
      | top k => cases hkey
      | asset key' =>
        obtain rfl := Option.some.inj hkey
        rw [if_pos hclash.2]
        exact List.mem_singleton_self _
      | field key' f | subKey key' f k | strategy key' name =>
        obtain rfl := Option.some.inj hkey
        exact absurd hclash.1 hboth

omit [DecidableEq V] in
/-- A key that no configuration has. -/
theorem assetOf_of_notMem_assetNames (h : key ∉ assetNames str upper base ours theirs) :
    assetOf str upper key base = none ∧ assetOf str upper key ours = none ∧
      assetOf str upper key theirs = none :=
  get?_of_notMem_namesInOrder h

/-- **The merge reports exactly the leaves at which the rule fails.** -/
theorem mem_conflictPaths_merge {p : ConflictPath} :
    p ∈ conflictPaths (merge str upper base ours theirs).2 ↔
      Clash str upper base ours theirs p := by
  have hassets : p ∈ conflictPaths ((assetNames str upper base ours theirs).flatMap
      fun key => (assetAt str upper base ours theirs key).2) ↔
        p.assetKey? ≠ none ∧ Clash str upper base ours theirs p := by
    simp only [conflictPaths, List.map_flatMap, List.mem_flatMap]
    constructor
    · rintro ⟨key, -, hp⟩
      obtain ⟨hkey, hclash⟩ := mem_conflictPaths_assetAt.mp hp
      exact ⟨by simp [hkey], hclash⟩
    · rintro ⟨hkey, hclash⟩
      obtain ⟨key, hkey⟩ := Option.ne_none_iff_exists'.mp hkey
      refine ⟨key, ?_, mem_conflictPaths_assetAt.mpr ⟨hkey, hclash⟩⟩
      by_contra hnot
      obtain ⟨hbase, hours, htheirs⟩ := assetOf_of_notMem_assetNames hnot
      cases p <;> simp_all [Clash, ConflictPath.assetKey?, OnBothSides]
  rw [merge_conflicts, conflictPaths, List.map_append, List.mem_append]
  rw [conflictPaths] at hassets
  rw [hassets]
  cases p with
  | top k =>
    simp [ConflictPath.assetKey?, leafConflict, Clash, settingAt, mem_recordConflicts]
  | asset key | field key f | subKey key f k | strategy key name =>
    simp [ConflictPath.assetKey?, leafConflict]

/-- Exchanging the sides does not change where the rule fails. -/
theorem Clash.symm {p : ConflictPath} (h : Clash str upper base ours theirs p) :
    Clash str upper base theirs ours p := by
  have hswap : ∀ {key}, OnBothSides str upper key ours theirs ↔
      OnBothSides str upper key theirs ours := and_comm
  cases p with
  | top k =>
    rw [Clash, threeWay_comm]
    exact h
  | asset key =>
    refine ⟨fun hboth => h.1 (hswap.mpr hboth), ?_⟩
    rw [threeWay_comm]
    exact h.2
  | field key f | subKey key f k | strategy key name => exact ⟨hswap.mp h.1, h.2.symm⟩

/-! ## §3 The merged values -/

/-- An asset that both sides have under one key has the same symbols on both, so that a
    merged asset has the key of the assets it comes from. -/
def FaithfulKeys (str : FieldValue V → String) (upper : String → String)
    (ours theirs : Config V) : Prop :=
  ∀ o ∈ ours.assets, ∀ t ∈ theirs.assets, assetKey str upper o = assetKey str upper t →
    textOf str o "base_ticker_symbol" = textOf str t "base_ticker_symbol" ∧
      textOf str o "quote_ticker_symbol" = textOf str t "quote_ticker_symbol"

omit [DecidableEq V] in
theorem textOf_of_mem {a : AssetDump V} {f : String} (h : f ∈ a.keys) :
    textOf str a f = str (a.field f) := by
  rw [textOf, Record.get?_of_mem FieldValue.null h]
  rfl

omit [DecidableEq V] in
theorem not_mergedAsObject {f : String} (hf : IsPlainField f) (b o t : FieldValue V) :
    ¬ MergedAsObject f b o t := fun h => h.1.elim hf.2.1 hf.2.2

/-- Every text of a merged asset comes from a side. -/
theorem textOf_mergeSingleAsset {b o t : AssetDump V} (ho : CanonicalAsset o)
    (ht : CanonicalAsset t) {f : String} (hf : IsPlainField f) (hmem : f ∈ assetFields) :
    textOf str (mergeSingleAsset key b o t).1 f = textOf str o f ∨
      textOf str (mergeSingleAsset key b o t).1 f = textOf str t f := by
  have hoKeys : f ∈ o.keys := ho.keys_eq ▸ hmem
  have htKeys : f ∈ t.keys := ht.keys_eq ▸ hmem
  have hget := get?_mergeSingleAsset key b o t f
  rw [if_pos (mem_allKeys.mpr (Or.inr (Or.inl hoKeys))),
    mergeField_leaf key hf.1 (not_mergedAsObject hf _ _ _)] at hget
  rw [textOf_of_mem hoKeys, textOf_of_mem htKeys, textOf, hget]
  rcases threeWayOurs_cases (b.field f) (o.field f) (t.field f) with h | h
  · exact Or.inl (congrArg str h)
  · exact Or.inr (congrArg str h)

/-- **A merged asset keeps the key.** -/
theorem assetKey_mergeSingleAsset {b o t : AssetDump V} (ho : CanonicalAsset o)
    (ht : CanonicalAsset t) (hoKey : assetKey str upper o = key)
    (htKey : assetKey str upper t = key)
    (hbase : textOf str o "base_ticker_symbol" = textOf str t "base_ticker_symbol")
    (hquote : textOf str o "quote_ticker_symbol" = textOf str t "quote_ticker_symbol") :
    assetKey str upper (mergeSingleAsset key b o t).1 = key := by
  have hb : textOf str (mergeSingleAsset key b o t).1 "base_ticker_symbol" =
      textOf str o "base_ticker_symbol" := by
    have hsides := @textOf_mergeSingleAsset V _ str key b o t ho ht "base_ticker_symbol"
      (by decide) (by decide)
    rw [← hbase, or_self] at hsides
    exact hsides
  have hq : textOf str (mergeSingleAsset key b o t).1 "quote_ticker_symbol" =
      textOf str o "quote_ticker_symbol" := by
    have hsides := @textOf_mergeSingleAsset V _ str key b o t ho ht "quote_ticker_symbol"
      (by decide) (by decide)
    rw [← hquote, or_self] at hsides
    exact hsides
  have hname := @textOf_mergeSingleAsset V _ str key b o t ho ht "name" (by decide) (by decide)
  unfold assetKey at hoKey htKey ⊢
  simp only [hb, hq, ← hbase, ← hquote] at hoKey htKey ⊢
  -- the key is made of the symbols if there are any, else it is the name
  split at hoKey
  · rename_i hsymbols
    rw [if_pos hsymbols]
    exact hoKey
  · rename_i hsymbols
    rw [if_neg hsymbols] at htKey ⊢
    rcases hname with h | h
    · exact h.trans hoKey
    · exact h.trans htKey

/-- For each key the merge yields at most one asset. -/
theorem assetAt_eq_toList (base ours theirs : Config V) (key : String) :
    (assetAt str upper base ours theirs key).1 =
      (assetAt str upper base ours theirs key).1.head?.toList := by
  unfold assetAt mergeAssetAt
  split
  all_goals try rfl
  all_goals split <;> rfl

section Canonical

variable (hours : Canonical ours) (htheirs : Canonical theirs)
  (hkeys : FaithfulKeys str upper ours theirs)

include hours htheirs hkeys

/-- The asset that a key yields has that key. -/
theorem assetKey_of_assetAt {m : AssetDump V}
    (hm : (assetAt str upper base ours theirs key).1.head? = some m) :
    assetKey str upper m = key := by
  by_cases hboth : OnBothSides str upper key ours theirs
  · obtain ⟨o, ho⟩ := Option.ne_none_iff_exists'.mp hboth.1
    obtain ⟨t, ht⟩ := Option.ne_none_iff_exists'.mp hboth.2
    obtain ⟨hoMem, hoKey⟩ := get?_assetMap_mem str upper ho
    obtain ⟨htMem, htKey⟩ := get?_assetMap_mem str upper ht
    obtain ⟨hbase, hquote⟩ := hkeys o hoMem t htMem (hoKey.trans htKey.symm)
    rw [assetAt_of_some_some ho ht, List.head?_cons, Option.some.injEq] at hm
    rw [← hm]
    exact assetKey_mergeSingleAsset (hours.assets o hoMem) (htheirs.assets t htMem) hoKey htKey
      hbase hquote
  · -- an asset that is not merged comes from one of the sides
    have hside : assetOf str upper key ours = some m ∨ assetOf str upper key theirs = some m := by
      rw [(assetAt_of_not_onBothSides hboth).1] at hm
      cases hrule : threeWay (assetOf str upper key base) (assetOf str upper key ours)
          (assetOf str upper key theirs) with
      | none =>
        rw [hrule, Option.getD_none] at hm
        exact Option.or_eq_some_iff.mp hm |>.imp_right And.right
      | some v =>
        rw [hrule, Option.getD_some] at hm
        subst hm
        rcases oneSided_of_threeWay hrule with h | h | h
        · exact Or.inr h.2
        · exact Or.inl h.2
        · exact Or.inl h.1
    rcases hside with h | h
    · exact (get?_assetMap_mem str upper h).2
    · exact (get?_assetMap_mem str upper h).2

/-- **The merged configuration has under each key what the key yields.** -/
theorem assetOf_merge :
    assetOf str upper key (merge str upper base ours theirs).1 =
      (assetAt str upper base ours theirs key).1.head? := by
  have hassets : (merge str upper base ours theirs).1.assets =
      (assetNames str upper base ours theirs).filterMap
        fun key => (assetAt str upper base ours theirs key).1.head? := by
    rw [merge_assets, List.filterMap_eq_flatMap_toList]
    apply List.flatMap_congr
    intro k _
    exact assetAt_eq_toList base ours theirs k
  have hnames : (assetNames str upper base ours theirs).Nodup := nodup_namesInOrder _ _ _
  have hname : ∀ k m, (assetAt str upper base ours theirs k).1.head? = some m →
      assetKey str upper m = k := fun k m hm => assetKey_of_assetAt hours htheirs hkeys hm
  rw [assetOf, assetMap, hassets, get?_ofList_filterMap (assetKey str upper) hnames hname]
  split
  · rfl
  · rename_i hnot
    obtain ⟨hb, ho, ht⟩ := assetOf_of_notMem_assetNames hnot
    have hboth : ¬ OnBothSides str upper key ours theirs := fun h => h.1 ho
    rw [(assetAt_of_not_onBothSides hboth).1, hb, ho, ht]
    rfl

/-- A field of an asset that both sides have. -/
theorem fieldAt_merge (hboth : OnBothSides str upper key ours theirs) (f : String) :
    fieldAt str upper key f (merge str upper base ours theirs).1 =
      if f ∈ allKeys ((assetOf str upper key base).getD Record.empty)
          ((assetOf str upper key ours).getD Record.empty)
          ((assetOf str upper key theirs).getD Record.empty) then
        (mergeField key f (fieldAt str upper key f base) (fieldAt str upper key f ours)
          (fieldAt str upper key f theirs)).1
      else .null := by
  obtain ⟨o, ho⟩ := Option.ne_none_iff_exists'.mp hboth.1
  obtain ⟨t, ht⟩ := Option.ne_none_iff_exists'.mp hboth.2
  rw [fieldAt, assetOf_merge hours htheirs hkeys, assetAt_of_some_some ho ht]
  simp only [List.head?_cons, Option.getD_some, fieldAt, ho, ht]
  rw [AssetDump.field, Record.look, get?_mergeSingleAsset]
  split <;> rfl

/-- A field that is not merged key by key is merged by the rule. -/
theorem fieldAt_merge_leaf (hboth : OnBothSides str upper key ours theirs) {f : String}
    (hne : f ≠ "strategies")
    (hleaf : ¬ MergedAsObject f (fieldAt str upper key f base) (fieldAt str upper key f ours)
      (fieldAt str upper key f theirs)) :
    fieldAt str upper key f (merge str upper base ours theirs).1 =
      threeWayOurs (fieldAt str upper key f base) (fieldAt str upper key f ours)
        (fieldAt str upper key f theirs) := by
  rw [fieldAt_merge hours htheirs hkeys hboth]
  split
  · rw [mergeField_leaf key hne hleaf]
  · rename_i hmem
    obtain ⟨hb, ho, ht⟩ := look_of_notMem_allKeys FieldValue.null hmem
    simp only [fieldAt, AssetDump.field, hb, ho, ht, threeWayOurs_same]

/-- The keys of the objects are merged by the rule. -/
theorem objectKeyAt_merge (hboth : OnBothSides str upper key ours theirs) {f : String}
    (hf : f = "consensus" ∨ f = "guard_config") (k : String) :
    objectKeyAt str upper key f k (merge str upper base ours theirs).1 =
      threeWayOurs (objectKeyAt str upper key f k base) (objectKeyAt str upper key f k ours)
        (objectKeyAt str upper key f k theirs) := by
  have hne : f ≠ "strategies" := by
    rcases hf with rfl | rfl <;> decide
  unfold objectKeyAt
  by_cases hobject : MergedAsObject f (fieldAt str upper key f base)
      (fieldAt str upper key f ours) (fieldAt str upper key f theirs)
  · rw [fieldAt_merge hours htheirs hkeys hboth]
    split
    · rw [mergeField_object key hobject]
      exact look_mergeRecords none _ _ _ k
    · rename_i hmem
      obtain ⟨hb, ho, ht⟩ := look_of_notMem_allKeys FieldValue.null hmem
      simp only [fieldAt, AssetDump.field, hb, ho, ht, threeWayOurs_same]
  · -- no side has an object: the merged value is none either
    rw [fieldAt_merge_leaf hours htheirs hkeys hboth hne hobject]
    have hdict : ((fieldAt str upper key f ours).isDict ||
        (fieldAt str upper key f theirs).isDict || (fieldAt str upper key f base).isDict) =
          false := by
      by_contra hsome
      exact hobject ⟨hf, Bool.eq_true_of_not_eq_false hsome⟩
    simp only [Bool.or_eq_false_iff] at hdict
    rw [look_orEmptyDict_of_not_isDict hdict.1.1, look_orEmptyDict_of_not_isDict hdict.1.2,
      look_orEmptyDict_of_not_isDict hdict.2, threeWayOurs_same]
    rcases threeWayOurs_cases (fieldAt str upper key f base) (fieldAt str upper key f ours)
      (fieldAt str upper key f theirs) with h | h
    · rw [h]
      exact look_orEmptyDict_of_not_isDict hdict.1.1 k
    · rw [h]
      exact look_orEmptyDict_of_not_isDict hdict.1.2 k

/-- The strategies are merged by the rule, name by name. -/
theorem strategyAt_merge (hboth : OnBothSides str upper key ours theirs) (name : String) :
    strategyAt str upper key name (merge str upper base ours theirs).1 =
      threeWayOurs (strategyAt str upper key name base) (strategyAt str upper key name ours)
        (strategyAt str upper key name theirs) := by
  unfold strategyAt
  rw [fieldAt_merge hours htheirs hkeys hboth]
  split
  · rw [mergeField_strategies]
    exact get?_strategyMap_mergeStrategies key _ _ _ name
  · rename_i hmem
    obtain ⟨hb, ho, ht⟩ := look_of_notMem_allKeys FieldValue.null hmem
    simp only [fieldAt, AssetDump.field, hb, ho, ht, threeWayOurs_same]

end Canonical

/-! ## §4 Soundness of every leaf -/

/-- A leaf is merged soundly: a change of one side is taken over without a conflict, and
    different changes of both sides are a conflict. -/
structure SoundAt {α : Type} (str : FieldValue V → String) (upper : String → String)
    (base ours theirs : Config V) (value : Config V → α) (path : ConflictPath) : Prop where
  theirs_changed : value ours = value base → value theirs ≠ value base →
    value (merge str upper base ours theirs).1 = value theirs ∧
      path ∉ conflictPaths (merge str upper base ours theirs).2
  ours_changed : value theirs = value base → value ours ≠ value base →
    value (merge str upper base ours theirs).1 = value ours ∧
      path ∉ conflictPaths (merge str upper base ours theirs).2
  both_changed : value ours ≠ value base → value theirs ≠ value base →
    value ours ≠ value theirs → path ∈ conflictPaths (merge str upper base ours theirs).2

/-- A leaf that is merged by the rule is merged soundly. -/
theorem soundAt_of_rule {α : Type} [DecidableEq α] {value : Config V → α} {path : ConflictPath}
    (hvalue : ∀ v, threeWay (value base) (value ours) (value theirs) = some v →
      value (merge str upper base ours theirs).1 = v)
    (hclash : Clash str upper base ours theirs path ↔
      threeWay (value base) (value ours) (value theirs) = none) :
    SoundAt str upper base ours theirs value path := by
  rw [← mem_conflictPaths_merge] at hclash
  have hclean : ∀ v, threeWay (value base) (value ours) (value theirs) = some v →
      value (merge str upper base ours theirs).1 = v ∧
        path ∉ conflictPaths (merge str upper base ours theirs).2 := by
    intro v hv
    refine ⟨hvalue v hv, fun hmem => ?_⟩
    rw [hclash.mp hmem] at hv
    cases hv
  refine ⟨?_, ?_, ?_⟩
  · intro hours _
    apply hclean
    rw [hours, threeWay_ours_unchanged]
  · intro htheirs _
    apply hclean
    rw [htheirs, threeWay_theirs_unchanged]
  · intro hours htheirs hsides
    exact hclash.mpr (threeWay_eq_none_iff.mpr ⟨hsides, hours.symm, htheirs.symm⟩)

/-- Every leaf of the merge is merged soundly. -/
structure LeavesSound (str : FieldValue V → String) (upper : String → String)
    (base ours theirs : Config V) : Prop where
  settings : ∀ k, SoundAt str upper base ours theirs (settingAt k) (.top k)
  /-- An asset that a side lacks is one leaf. -/
  assets : ∀ key, ¬ OnBothSides str upper key ours theirs →
    SoundAt str upper base ours theirs (assetOf str upper key) (.asset key)
  present : ∀ key, OnBothSides str upper key ours theirs →
    assetOf str upper key (merge str upper base ours theirs).1 ≠ none ∧
      .asset key ∉ conflictPaths (merge str upper base ours theirs).2
  fields : ∀ key, OnBothSides str upper key ours theirs → ∀ f, IsPlainField f →
    SoundAt str upper base ours theirs (fieldAt str upper key f) (.field key f)
  objectKeys : ∀ key, OnBothSides str upper key ours theirs → ∀ f ∈ ["consensus", "guard_config"],
    ∀ k, SoundAt str upper base ours theirs (objectKeyAt str upper key f k) (.subKey key f k)
  strategies : ∀ key, OnBothSides str upper key ours theirs → ∀ name,
    SoundAt str upper base ours theirs (strategyAt str upper key name) (.strategy key name)

theorem leavesSound_of_faithfulKeys (hours : Canonical ours) (htheirs : Canonical theirs)
    (hkeys : FaithfulKeys str upper ours theirs) : LeavesSound str upper base ours theirs where
  -- every leaf follows the three-way rule, and a clash is exactly where the rule has no answer
  settings k := by
    apply soundAt_of_rule
    · intro v hv
      rw [← threeWayOurs_of_threeWay hv]
      exact look_mergeRecords none base.settings ours.settings theirs.settings k
    · rfl
  assets key hboth := by
    apply soundAt_of_rule
    · intro v hv
      rw [assetOf_merge hours htheirs hkeys, (assetAt_of_not_onBothSides hboth).1, hv]
      rfl
    · exact and_iff_right hboth
  present key hboth := by
    obtain ⟨o, ho⟩ := Option.ne_none_iff_exists'.mp hboth.1
    obtain ⟨t, ht⟩ := Option.ne_none_iff_exists'.mp hboth.2
    refine ⟨?_, ?_⟩
    · rw [assetOf_merge hours htheirs hkeys, assetAt_of_some_some ho ht]
      simp
    · rw [mem_conflictPaths_merge]
      exact fun hclash => hclash.1 hboth
  fields key hboth f hf := by
    apply soundAt_of_rule
    · intro v hv
      rw [← threeWayOurs_of_threeWay hv]
      exact fieldAt_merge_leaf hours htheirs hkeys hboth hf.1 (not_mergedAsObject hf _ _ _)
    · simp [Clash, FieldClash, hboth, hf.1, not_mergedAsObject hf]
  objectKeys key hboth f hf k := by
    have hobject : f = "consensus" ∨ f = "guard_config" := by simpa using hf
    apply soundAt_of_rule
    · intro v hv
      rw [← threeWayOurs_of_threeWay hv]
      exact objectKeyAt_merge hours htheirs hkeys hboth hobject k
    · simp [Clash, FieldClash, hboth, hobject, objectKeyAt]
  strategies key hboth name := by
    apply soundAt_of_rule
    · intro v hv
      rw [← threeWayOurs_of_threeWay hv]
      exact strategyAt_merge hours htheirs hkeys hboth name
    · simp [Clash, FieldClash, hboth, strategyAt]

/-! ## §5 Symmetry -/

theorem mergeField_comm {f : String} {b o t : FieldValue V}
    (h : ∀ p, ¬ FieldClash key f b o t p) :
    SameField (mergeField key f b o t).1 (mergeField key f b t o).1 := by
  -- the three ways of merging a field, each symmetric where nothing clashes
  by_cases hstrategies : f = "strategies"
  · subst hstrategies
    rw [mergeField_strategies, mergeField_strategies]
    show List.Perm _ _
    cases hlists : threeWay b.orEmptyList o.orEmptyList t.orEmptyList with
    | some merged =>
      rw [mergeStrategies_of_threeWay key hlists]
      rw [threeWay_comm] at hlists
      rw [mergeStrategies_of_threeWay key hlists]
    | none =>
      rw [mergeStrategies_of_threeWay_none key hlists]
      rw [threeWay_comm] at hlists
      rw [mergeStrategies_of_threeWay_none key hlists]
      apply mergeKeyed_perm
      apply List.eq_nil_iff_forall_not_mem.mpr
      intro name hname
      exact h (.strategy key name) ⟨rfl, rfl, mem_keyedConflicts.mp hname⟩
  by_cases hobject : MergedAsObject f b o t
  · rw [mergeField_object key hobject, mergeField_object key (mergedAsObject_comm.mp hobject)]
    have hclean : recordConflicts none b.orEmptyDict o.orEmptyDict t.orEmptyDict = [] := by
      apply List.eq_nil_iff_forall_not_mem.mpr
      intro k hk
      exact h (.subKey key f k) ⟨rfl, rfl, hobject.1, (mem_recordConflicts none).mp hk⟩
    show FieldValue.dict (mergeRecords none _ _ _) = FieldValue.dict (mergeRecords none _ _ _)
    rw [mergeRecords_comm none hclean]
  · have hclean : threeWay b o t ≠ none := fun hnone =>
      h (.field key f) ⟨rfl, rfl, hstrategies, hobject, hnone⟩
    rw [mergeField_leaf key hstrategies hobject, mergeField_leaf key hstrategies
      (fun hswap => hobject (mergedAsObject_comm.mpr hswap)), threeWayOurs_comm hclean]
    exact sameField_refl _

theorem mergeSingleAsset_comm {b o t : AssetDump V}
    (h : ∀ f p, ¬ FieldClash key f (b.field f) (o.field f) (t.field f) p) :
    SameAsset (mergeSingleAsset key b o t).1 (mergeSingleAsset key b t o).1 := by
  intro f
  have hkeys : f ∈ allKeys b o t ↔ f ∈ allKeys b t o := by
    rw [mem_allKeys, mem_allKeys, @or_comm (f ∈ o.keys)]
  simp only [get?_mergeSingleAsset, hkeys]
  split
  · exact Option.Rel.some (mergeField_comm (h f))
  · exact Option.Rel.none

theorem assetAt_comm (h : ∀ p, ¬ Clash str upper base ours theirs p) (key : String) :
    List.Forall₂ SameAsset (assetAt str upper base ours theirs key).1
      (assetAt str upper base theirs ours key).1 := by
  by_cases hboth : OnBothSides str upper key ours theirs
  · obtain ⟨o, ho⟩ := Option.ne_none_iff_exists'.mp hboth.1
    obtain ⟨t, ht⟩ := Option.ne_none_iff_exists'.mp hboth.2
    rw [assetAt_of_some_some ho ht, assetAt_of_some_some ht ho]
    refine List.Forall₂.cons (mergeSingleAsset_comm ?_) List.Forall₂.nil
    intro f p hclash
    have hmem := mem_conflictPaths_mergeSingleAsset.mpr ⟨f, hclash⟩
    rw [show (mergeSingleAsset key _ o t).2 = (assetAt str upper base ours theirs key).2 by
      rw [assetAt_of_some_some ho ht]] at hmem
    exact h p (mem_conflictPaths_assetAt.mp hmem).2
  · have hboth' : ¬ OnBothSides str upper key theirs ours := fun hswap => hboth ⟨hswap.2, hswap.1⟩
    obtain ⟨v, hv⟩ : ∃ v, threeWay (assetOf str upper key base) (assetOf str upper key ours)
        (assetOf str upper key theirs) = some v := by
      apply Option.ne_none_iff_exists'.mp
      intro hnone
      exact h (.asset key) ⟨hboth, hnone⟩
    rw [assetAt_eq_toList base ours theirs, assetAt_eq_toList base theirs ours,
      (assetAt_of_not_onBothSides hboth).1, (assetAt_of_not_onBothSides hboth').1,
      threeWay_comm _ _ (assetOf str upper key ours), hv]
    exact List.forall₂_same.mpr fun a _ => sameAsset_refl a

omit [DecidableEq V] in
theorem assetNames_perm (base ours theirs : Config V) :
    (assetNames str upper base ours theirs).Perm (assetNames str upper base theirs ours) := by
  apply (List.perm_ext_iff_of_nodup (nodup_namesInOrder _ _ _) (nodup_namesInOrder _ _ _)).mpr
  intro key
  rw [mem_namesInOrder, mem_namesInOrder]
  tauto

omit [DecidableEq V] in
theorem forall₂_flatMap {f g : String → List (AssetDump V)}
    (h : ∀ key, List.Forall₂ SameAsset (f key) (g key)) (keys : List String) :
    List.Forall₂ SameAsset (keys.flatMap f) (keys.flatMap g) := by
  induction keys with
  | nil => exact List.Forall₂.nil
  | cons key rest ih =>
    rw [List.flatMap_cons, List.flatMap_cons]
    exact List.rel_append (h key) ih

/-- **Without conflicts both orders of the sides give the same configuration.** -/
theorem sameConfig_merge_comm (h : (merge str upper base ours theirs).2 = []) :
    SameConfig (merge str upper base ours theirs).1 (merge str upper base theirs ours).1 := by
  have hclean : ∀ p, ¬ Clash str upper base ours theirs p := by
    intro p hp
    have hmem := mem_conflictPaths_merge.mpr hp
    rw [h] at hmem
    cases hmem
  refine ⟨?_, ?_⟩
  · apply mergeRecords_comm
    apply List.eq_nil_iff_forall_not_mem.mpr
    intro k hk
    exact hclean (.top k) ((mem_recordConflicts none).mp hk)
  · refine ⟨(assetNames str upper base theirs ours).flatMap
      fun key => (assetAt str upper base ours theirs key).1, ?_, ?_⟩
    · rw [merge_assets]
      exact (assetNames_perm base ours theirs).flatMap_right _
    · rw [merge_assets]
      exact forall₂_flatMap (assetAt_comm hclean) _

variable (str upper) in
/-- **The merge is sound at every leaf and symmetric.**

    The leaves are those that the engine compares: a field at the top, and below an asset of both
    sides a field, a key of an object or a strategy; an asset that a side lacks is a leaf as a
    whole, its absence being a value.  Exchanging the sides gives the same conflicts, and where
    there are none the same configuration. -/
theorem merge_sound_symmetric (hours : Canonical ours) (htheirs : Canonical theirs)
    (hkeys : FaithfulKeys str upper ours theirs) :
    LeavesSound str upper base ours theirs ∧
      (∀ p, p ∈ conflictPaths (merge str upper base ours theirs).2 ↔
        p ∈ conflictPaths (merge str upper base theirs ours).2) ∧
      ((merge str upper base ours theirs).2 = [] →
        SameConfig (merge str upper base ours theirs).1 (merge str upper base theirs ours).1) := by
  refine ⟨leavesSound_of_faithfulKeys hours htheirs hkeys, ?_, sameConfig_merge_comm⟩
  intro p
  rw [mem_conflictPaths_merge, mem_conflictPaths_merge]
  exact ⟨Clash.symm, Clash.symm⟩

end Leaves

/-! ## §6 Concrete configurations -/

/-- The sample configurations here have assets without consensus thresholds. -/
theorem canonical_of_quantities (assets : List (String × String × ℚ × List (Strategy Scalar)))
    (h : ∀ a ∈ assets, (a.2.2.2.map Strategy.name).Nodup) :
    Canonical (sampleConfig (assets.map fun a =>
      sampleAsset a.1 a.2.1 "BINANCE" a.2.2.1 .null (.strategies a.2.2.2))) := by
  apply canonical_sampleConfig
  intro a ha
  obtain ⟨sample, hsample, rfl⟩ := List.mem_map.mp ha
  exact canonical_sampleAsset _ _ _ _ (Or.inl rfl) (h sample hsample)

/-- Ours raises a quantity; theirs changes a strategy of the asset and adds another asset. -/
theorem merge_sound_symmetric_sample :
    let base := sampleConfig [sampleAsset "BTC" "USD" "BINANCE" 1 .null
      (.strategies [sampleStrategy "RSI" 1])]
    let ours := sampleConfig [sampleAsset "BTC" "USD" "BINANCE" 2 .null
      (.strategies [sampleStrategy "RSI" 1])]
    let theirs := sampleConfig [sampleAsset "BTC" "USD" "BINANCE" 1 .null
      (.strategies [sampleStrategy "RSI" 2]), sampleAsset "ETH" "USD" "BINANCE" 1 .null
      (.strategies [])]
    LeavesSound Scalar.str id base ours theirs ∧
      (∀ p, p ∈ conflictPaths (merge Scalar.str id base ours theirs).2 ↔
        p ∈ conflictPaths (merge Scalar.str id base theirs ours).2) ∧
      SameConfig (merge Scalar.str id base ours theirs).1
        (merge Scalar.str id base theirs ours).1 := by
  intro base ours theirs
  have hours : Canonical ours :=
    canonical_of_quantities [("BTC", "USD", 2, [sampleStrategy "RSI" 1])] (by decide)
  have htheirs : Canonical theirs :=
    canonical_of_quantities [("BTC", "USD", 1, [sampleStrategy "RSI" 2]), ("ETH", "USD", 1, [])]
      (by decide)
  have hkeys : FaithfulKeys Scalar.str id ours theirs := by
    unfold FaithfulKeys
    decide +kernel
  obtain ⟨hsound, hpaths, hsame⟩ :=
    merge_sound_symmetric Scalar.str id hours htheirs hkeys
  exact ⟨hsound, hpaths, hsame (by decide +kernel)⟩

/-- The symbols of an asset as texts. -/
def symbolsOf (a : AssetDump Scalar) : String × String :=
  (textOf Scalar.str a "base_ticker_symbol", textOf Scalar.str a "quote_ticker_symbol")

def withSymbols (base quote : String) (c : Config Scalar) : Option (AssetDump Scalar) :=
  c.assets.find? fun a => symbolsOf a = (base, quote)

/-- Deleting an asset that the other side has changed is not taken over, and a change of an
    asset whose symbols are different but give the same key is lost. -/
theorem unsound_by_presence_and_symbols :
    (let base := sampleConfig [sampleAsset "BTC" "USD" "BINANCE" 1 .null (.strategies [])]
      let ours := sampleConfig [sampleAsset "BTC" "USD" "BINANCE" 2 .null (.strategies [])]
      let theirs := sampleConfig []
      (Canonical base ∧ Canonical ours ∧ Canonical theirs) ∧
        (∀ c ∈ [base, ours, theirs], (c.assets.map symbolsOf).Nodup) ∧
        ¬ SoundAt Scalar.str id base ours theirs (fun c => (withSymbols "BTC" "USD" c).isSome)
          (.asset "BTC_USD")) ∧
    (let base := sampleConfig [sampleAsset "BTC_PERP" "USD" "BINANCE" 1 .null (.strategies []),
        sampleAsset "BTC" "PERP_USD" "BINANCE" 1 .null (.strategies [])]
      let ours := sampleConfig [sampleAsset "BTC_PERP" "USD" "BINANCE" 2 .null (.strategies []),
        sampleAsset "BTC" "PERP_USD" "BINANCE" 1 .null (.strategies [])]
      (Canonical base ∧ Canonical ours) ∧
        (∀ c ∈ [base, ours], (c.assets.map symbolsOf).Nodup) ∧
        ¬ SoundAt Scalar.str id base ours base
          (fun c => (withSymbols "BTC_PERP" "USD" c).map fun a => a.field "min_quantity")
          (.field "BTC_PERP_USD" "min_quantity")) := by
  refine ⟨?_, ?_⟩
  · intro base ours theirs
    refine ⟨⟨canonical_of_quantities [("BTC", "USD", 1, [])] (by decide),
      canonical_of_quantities [("BTC", "USD", 2, [])] (by decide),
      canonical_of_quantities [] (by decide)⟩, by decide +kernel, ?_⟩
    intro h
    have hdeleted := (h.theirs_changed (by decide +kernel) (by decide +kernel)).1
    revert hdeleted
    decide +kernel
  · intro base ours
    refine ⟨⟨canonical_of_quantities [("BTC_PERP", "USD", 1, []), ("BTC", "PERP_USD", 1, [])]
        (by decide),
      canonical_of_quantities [("BTC_PERP", "USD", 2, []), ("BTC", "PERP_USD", 1, [])]
        (by decide)⟩, by decide +kernel, ?_⟩
    intro h
    have hchanged := (h.ours_changed (by decide +kernel) (by decide +kernel)).1
    revert hchanged
    decide +kernel

end CryptoTrading.Vcs
