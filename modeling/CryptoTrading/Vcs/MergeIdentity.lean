import Mathlib.Data.Rat.Defs
import CryptoTrading.Vcs.SemanticMerge

/-!
# Merging with an unchanged side

When at most one side has changed (`OneSided`), the merge should be the changed side, up to
the order of assets and strategies.  For the dumps of validated configurations this is so
unless

- two assets of the result have one key, of which only the last survives;
- an asset has null for its strategies, which comes back as an empty list;
- an asset drops an object (`consensus`, `guard_config`) that the base has, which comes back
  as an object of nulls.

The last two happen inside `_merge_single_asset`; an asset that is taken over whole keeps
all its values.
-/

namespace CryptoTrading.Vcs

open CryptoTrading.Lib

variable {V : Type}

/-! ## §1 Dumps of validated configurations -/

/-- The top-level settings of a dump, besides the assets. -/
def settingKeys : List String := ["dynamic_quantity", "health", "portfolio"]

/-- The fields of a dumped asset. -/
def assetFields : List String :=
  ["base_ticker_symbol", "candles_timeframe", "consensus", "dynamic_quantity", "enabled",
    "exchange", "guard_config", "keywords", "min_quantity", "name", "portfolio",
    "quantity_decimals", "quote_decimals", "quote_ticker_symbol", "schedule", "separator",
    "strategies", "ticker_symbol"]

/-- The fields that are null or an object, with the keys of the object. -/
def objectFields : List (String × List String) :=
  [("consensus", ["buy", "sell"]),
    ("guard_config", ["cooldown_timeout", "max_drawdown_percentage", "max_drawdown_period"])]

/-- The fields that hold a plain value. -/
def IsPlainField (f : String) : Prop := f ≠ "strategies" ∧ f ≠ "consensus" ∧ f ≠ "guard_config"

instance : DecidablePred IsPlainField := fun f => by
  unfold IsPlainField
  infer_instance

/-- A dumped asset of a validated configuration. -/
structure CanonicalAsset (a : AssetDump V) : Prop where
  keys_eq : a.keys = assetFields
  plain : ∀ f, IsPlainField f → ∃ v, a.field f = .leaf v
  object : ∀ fk ∈ objectFields, a.field fk.1 = .null ∨ ∃ d, a.field fk.1 = .dict d ∧ d.keys = fk.2
  strategies : a.field "strategies" = .null ∨
    ∃ ss, a.field "strategies" = .strategies ss ∧ (ss.map Strategy.name).Nodup

/-- A dump of a validated configuration. -/
structure Canonical (c : Config V) : Prop where
  settings_keys : c.settings.keys = settingKeys
  assets : ∀ a ∈ c.assets, CanonicalAsset a

/-! ## §2 Equality up to order -/

/-- Equal values, or the same strategies in some order. -/
def SameField : FieldValue V → FieldValue V → Prop
  | .strategies ss, .strategies ts => ss.Perm ts
  | v, w => v = w

def SameAsset (a b : AssetDump V) : Prop := ∀ f, Option.Rel SameField (a.get? f) (b.get? f)

/-- Equal configurations up to the order of the assets and of the strategies of each. -/
structure SameConfig (c d : Config V) : Prop where
  settings_eq : c.settings = d.settings
  assets : ∃ matched, c.assets.Perm matched ∧ List.Forall₂ SameAsset matched d.assets

theorem sameField_refl (v : FieldValue V) : SameField v v := by
  cases v with
  | leaf value => rfl
  | dict d => rfl
  | strategies ss => exact List.Perm.refl ss

theorem sameAsset_refl (a : AssetDump V) : SameAsset a a := by
  intro f
  cases a.get? f with
  | none => exact Option.Rel.none
  | some v => exact Option.Rel.some (sameField_refl v)

/-- The same assets in another order. -/
theorem sameConfig_of_perm {c d : Config V} (hsettings : c.settings = d.settings)
    (hassets : c.assets.Perm d.assets) : SameConfig c d :=
  ⟨hsettings, d.assets, hassets, List.forall₂_same.mpr fun a _ => sameAsset_refl a⟩

/-- The same assets agree in every field. -/
theorem SameAsset.field {a b : AssetDump V} (h : SameAsset a b) (f : String) :
    SameField (a.field f) (b.field f) := by
  have hrel := h f
  unfold AssetDump.field Record.look
  generalize a.get? f = x at hrel ⊢
  generalize b.get? f = y at hrel ⊢
  cases hrel with
  | none => exact sameField_refl _
  | some hsame => exact hsame

/-! ## §3 One field -/

section Field

variable [DecidableEq V]

open SemanticMergeEngine

theorem mergeStrategies_of_threeWay (assetKey : String)
    {base ours theirs merged : List (Strategy V)}
    (h : threeWay base ours theirs = some merged) :
    mergeStrategies assetKey base ours theirs = (merged, []) := by
  unfold threeWay at h
  unfold mergeStrategies
  split at h
  · rw [if_pos ‹_›, Option.some.inj h]
  · rw [if_neg ‹_›]
    split at h
    · rw [if_pos ‹_›, Option.some.inj h]
    · rw [if_neg ‹_›]
      split at h
      · rw [if_pos ‹_›, Option.some.inj h]
      · cases h

theorem mergeSubdict_of_oneSided (assetKey f : String)
    {base ours theirs merged : Record String (Option V)} (h : OneSided base ours theirs merged)
    (hkeys : ∀ k ∈ base.keys, k ∈ merged.keys) :
    mergeSubdict assetKey f base ours theirs = (merged, []) := by
  unfold mergeSubdict
  rw [h.mergeRecords_eq none hkeys, h.recordConflicts_eq none]
  rfl

/-- A plain field takes the changed value. -/
theorem mergeField_plain_of_oneSided (assetKey : String) {f : String} (hf : IsPlainField f)
    {base ours theirs merged : FieldValue V} (h : OneSided base ours theirs merged) :
    mergeField assetKey f base ours theirs = (merged, []) := by
  unfold mergeField
  rw [if_neg hf.1, if_neg (fun hsub => hsub.1.elim hf.2.1 hf.2.2), h.threeWay_eq]

/-- Strategies come back as the changed list; null comes back as the empty list. -/
theorem mergeField_strategies_of_oneSided (assetKey : String)
    {base ours theirs merged : FieldValue V} (h : OneSided base ours theirs merged) :
    mergeField assetKey "strategies" base ours theirs = (.strategies merged.orEmptyList, []) := by
  have hlists := mergeStrategies_of_threeWay assetKey
    (h.map FieldValue.orEmptyList).threeWay_eq
  simp only [mergeField, if_true, hlists]

/-- An object that the change keeps or brings in comes back as it is. -/
theorem mergeField_object_of_oneSided (assetKey : String) {f : String}
    (hf : f = "consensus" ∨ f = "guard_config") {base ours theirs : FieldValue V}
    {d : Record String (Option V)} (h : OneSided base ours theirs (.dict d))
    (hkeys : ∀ k ∈ base.orEmptyDict.keys, k ∈ d.keys) :
    mergeField assetKey f base ours theirs = (.dict d, []) := by
  have hne : f ≠ "strategies" := by
    rcases hf with rfl | rfl <;> decide
  have hdict : (ours.isDict || theirs.isDict || base.isDict) = true := by
    rcases h with ⟨-, rfl⟩ | ⟨-, rfl⟩ | ⟨rfl, -⟩ <;> simp [FieldValue.isDict]
  have hsub := mergeSubdict_of_oneSided assetKey f (h.map FieldValue.orEmptyDict) hkeys
  simp only [mergeField, if_neg hne, if_pos (show (f = "consensus" ∨ f = "guard_config") ∧ _ from
    ⟨hf, hdict⟩), hsub]
  rfl

/-- A null that the base has too stays null. -/
theorem mergeField_null_of_oneSided (assetKey : String) {f : String} (hne : f ≠ "strategies")
    {ours theirs : FieldValue V} (h : OneSided FieldValue.null ours theirs FieldValue.null) :
    mergeField assetKey f FieldValue.null ours theirs = (FieldValue.null, []) := by
  have hsides : ours = FieldValue.null ∧ theirs = FieldValue.null := by
    rcases h with h | h | h
    · exact h
    · exact ⟨h.2, h.1⟩
    · exact h
  rw [hsides.1, hsides.2]
  simp [mergeField, hne, FieldValue.null, FieldValue.isDict]

/-- An object that the change drops comes back as an object. -/
theorem mergeField_dropped_object (assetKey : String) {f : String}
    (hf : f = "consensus" ∨ f = "guard_config") {base ours theirs : FieldValue V}
    (hdict : base.isDict = true) :
    ∃ d, (mergeField assetKey f base ours theirs).1 = .dict d := by
  have hne : f ≠ "strategies" := by
    rcases hf with rfl | rfl <;> decide
  refine ⟨mergeRecords none base.orEmptyDict ours.orEmptyDict theirs.orEmptyDict, ?_⟩
  simp [mergeField, hne, hf, hdict, mergeSubdict]

end Field

/-! ## §4 One asset -/

section Asset

/-- The fields of the asset that survive being merged over the base: strategies that are a
    list, and no object dropped. -/
structure Keeps (base a : AssetDump V) : Prop where
  strategies : a.field "strategies" ≠ .null
  objects : ∀ f, f = "consensus" ∨ f = "guard_config" → a.field f = .null → base.field f = .null

/-- What the base of an asset can be: an asset of the base configuration, or nothing. -/
def CanonicalBase (base : AssetDump V) : Prop := CanonicalAsset base ∨ base = Record.empty

theorem field_empty (f : String) : AssetDump.field (Record.empty : AssetDump V) f = .null := rfl

theorem CanonicalBase.keys_subset {base a : AssetDump V} (hbase : CanonicalBase base)
    (ha : CanonicalAsset a) : ∀ k ∈ base.keys, k ∈ a.keys := by
  intro k hk
  rcases hbase with hbase | rfl
  · rw [ha.keys_eq, ← hbase.keys_eq]
    exact hk
  · simp at hk

theorem mem_objectFields {f : String} (hf : f = "consensus" ∨ f = "guard_config") :
    ∃ ks, (f, ks) ∈ objectFields := by
  rcases hf with rfl | rfl
  · exact ⟨_, List.mem_cons_self⟩
  · exact ⟨_, List.mem_cons_of_mem _ List.mem_cons_self⟩

/-- The object fields of the base have no key of their own. -/
theorem CanonicalBase.object_keys {base a : AssetDump V} (hbase : CanonicalBase base)
    (ha : CanonicalAsset a) {f : String} (hf : f = "consensus" ∨ f = "guard_config")
    {d : Record String (Option V)} (hd : a.field f = .dict d) :
    ∀ k ∈ (base.field f).orEmptyDict.keys, k ∈ d.keys := by
  obtain ⟨ks, hks⟩ := mem_objectFields hf
  have hdkeys : d.keys = ks := by
    rcases ha.object _ hks with hnull | ⟨d', hd', hkeys⟩
    · simp [hd, FieldValue.null] at hnull
    · rw [hd] at hd'
      cases hd'
      exact hkeys
  intro k hk
  rw [hdkeys]
  rcases hbase with hbase | rfl
  · rcases hbase.object _ hks with hnull | ⟨d', hd', hkeys⟩
    · simp [hnull] at hk
    · rw [hd'] at hk
      rw [← show d'.keys = ks from hkeys]
      exact hk
  · rw [field_empty] at hk
    simp at hk

/-- The keys of a one-sided merge are those of the changed asset. -/
theorem mem_allKeys_of_oneSided {base ours theirs a : AssetDump V}
    (h : OneSided base ours theirs a) (hkeys : ∀ k ∈ base.keys, k ∈ a.keys) (f : String) :
    f ∈ allKeys base ours theirs ↔ f ∈ a.keys := by
  have hbase := hkeys f
  rw [mem_allKeys]
  rcases h with ⟨rfl, rfl⟩ | ⟨rfl, rfl⟩ | ⟨rfl, rfl⟩ <;> tauto

variable [DecidableEq V]

open SemanticMergeEngine

theorem get?_mergeSingleAsset (key : String) (base ours theirs : AssetDump V) (f : String) :
    (mergeSingleAsset key base ours theirs).1.get? f =
      if f ∈ allKeys base ours theirs then
        some (mergeField key f (base.field f) (ours.field f) (theirs.field f)).1
      else none := by
  simp [mergeSingleAsset]

/-- **An asset that keeps its fields comes back as it is**, without conflicts. -/
theorem mergeField_of_keeps (key : String) {base ours theirs a : AssetDump V}
    (h : OneSided base ours theirs a) (hbase : CanonicalBase base) (ha : CanonicalAsset a)
    (hkeeps : Keeps base a) (f : String) :
    mergeField key f (base.field f) (ours.field f) (theirs.field f) = (a.field f, []) := by
  have hfield := h.map fun asset => AssetDump.field asset f
  by_cases hplain : IsPlainField f
  · exact mergeField_plain_of_oneSided key hplain hfield
  by_cases hstrategies : f = "strategies"
  · subst hstrategies
    rw [mergeField_strategies_of_oneSided key hfield]
    rcases ha.strategies with hnull | ⟨ss, hss, -⟩
    · exact absurd hnull hkeeps.strategies
    · rw [hss]
      rfl
  · have hf : f = "consensus" ∨ f = "guard_config" := by
      by_contra hother
      rw [not_or] at hother
      exact hplain ⟨hstrategies, hother⟩
    obtain ⟨ks, hks⟩ := mem_objectFields hf
    rcases ha.object _ hks with hnull | ⟨d, hd, -⟩
    · simp only [hnull, hkeeps.objects f hf hnull] at hfield ⊢
      exact mergeField_null_of_oneSided key hstrategies hfield
    · simp only [hd] at hfield ⊢
      exact mergeField_object_of_oneSided key hf hfield (hbase.object_keys ha hf hd)

theorem mergeSingleAsset_of_keeps (key : String) {base ours theirs a : AssetDump V}
    (h : OneSided base ours theirs a) (hbase : CanonicalBase base) (ha : CanonicalAsset a)
    (hkeeps : Keeps base a) : mergeSingleAsset key base ours theirs = (a, []) := by
  have hfields := mergeField_of_keeps key h hbase ha hkeeps
  have hkeys := mem_allKeys_of_oneSided h (hbase.keys_subset ha)
  apply Prod.ext
  · apply Record.ext_get?
    intro f
    rw [get?_mergeSingleAsset]
    by_cases hf : f ∈ a.keys
    · rw [if_pos ((hkeys f).mpr hf), hfields, Record.get?_of_mem FieldValue.null hf]
      rfl
    · rw [if_neg fun hmem => hf ((hkeys f).mp hmem), (a.get?_eq_none_iff f).mpr hf]
  · simp [mergeSingleAsset, hfields]

/-- The plain fields come back in any case. -/
theorem get?_mergeSingleAsset_plain (key : String) {base ours theirs a : AssetDump V}
    (h : OneSided base ours theirs a) (hbase : CanonicalBase base) (ha : CanonicalAsset a)
    {f : String} (hf : IsPlainField f) :
    (mergeSingleAsset key base ours theirs).1.get? f = a.get? f := by
  have hkeys := mem_allKeys_of_oneSided h (hbase.keys_subset ha) f
  rw [get?_mergeSingleAsset,
    mergeField_plain_of_oneSided key hf (h.map fun asset => AssetDump.field asset f)]
  by_cases hmem : f ∈ a.keys
  · rw [if_pos (hkeys.mpr hmem), Record.get?_of_mem FieldValue.null hmem]
    rfl
  · rw [if_neg fun hall => hmem (hkeys.mp hall), (a.get?_eq_none_iff f).mpr hmem]

/-- Only an asset that keeps its fields comes back the same. -/
theorem keeps_of_sameAsset (key : String) {base ours theirs a : AssetDump V}
    (h : OneSided base ours theirs a) (hbase : CanonicalBase base) (ha : CanonicalAsset a)
    (hsame : SameAsset (mergeSingleAsset key base ours theirs).1 a) : Keeps base a := by
  have hfieldOf : ∀ f ∈ assetFields, AssetDump.field (mergeSingleAsset key base ours theirs).1 f =
      (mergeField key f (base.field f) (ours.field f) (theirs.field f)).1 := by
    intro f hf
    have hmem : f ∈ allKeys base ours theirs :=
      (mem_allKeys_of_oneSided h (hbase.keys_subset ha) f).mpr (ha.keys_eq ▸ hf)
    rw [AssetDump.field, Record.look, get?_mergeSingleAsset, if_pos hmem]
    rfl
  -- a null list of strategies comes back empty, a null object that was one comes back as an object
  refine ⟨?_, ?_⟩
  · intro hnull
    have hstrategies := hsame.field "strategies"
    rw [hfieldOf _ (by decide), hnull, mergeField_strategies_of_oneSided key
      (h.map fun asset => AssetDump.field asset "strategies")] at hstrategies
    simp [SameField, FieldValue.null] at hstrategies
  · intro f hf hnull
    obtain ⟨ks, hks⟩ := mem_objectFields hf
    rcases hbase with hbase | rfl
    · rcases hbase.object _ hks with hbnull | ⟨d, hd, -⟩
      · exact hbnull
      · have hobject := hsame.field f
        obtain ⟨d', hd'⟩ := mergeField_dropped_object key hf
          (show (base.field f).isDict = true by rw [hd]; rfl)
        have hmemf : f ∈ assetFields := by
          rcases hf with rfl | rfl <;> decide
        rw [hfieldOf f hmemf, hd', hnull] at hobject
        simp [SameField, FieldValue.null] at hobject
    · exact field_empty f

/-- An asset that is there on no side but the base has been dropped. -/
theorem mergeAssetAt_of_dropped (key : String) {base ours theirs : Option (AssetDump V)}
    (h : OneSided base ours theirs none) : mergeAssetAt key base ours theirs = ([], []) := by
  rcases h with ⟨rfl, rfl⟩ | ⟨rfl, rfl⟩ | ⟨rfl, rfl⟩
  · cases ours <;> simp [mergeAssetAt]
  · cases theirs <;> simp [mergeAssetAt]
  · cases base <;> rfl

/-- The asset of a one-sided change and what the merge makes of it: the asset itself when one
    side does not have it, and else what merging its fields gives. -/
theorem mergeAssetAt_of_oneSided (key : String) {base ours theirs : Option (AssetDump V)}
    {a : AssetDump V} (h : OneSided base ours theirs (some a)) :
    ((ours = none ∨ theirs = none) ∧ mergeAssetAt key base ours theirs = ([a], [])) ∨
      ∃ o t, ours = some o ∧ theirs = some t ∧
        OneSided (base.getD Record.empty) o t a ∧
        mergeAssetAt key base ours theirs =
          ([(mergeSingleAsset key (base.getD Record.empty) o t).1],
            (mergeSingleAsset key (base.getD Record.empty) o t).2) := by
  rcases h with ⟨rfl, rfl⟩ | ⟨rfl, rfl⟩ | ⟨rfl, rfl⟩
  · cases ours with
    | none => exact Or.inl ⟨Or.inl rfl, rfl⟩
    | some b => exact Or.inr ⟨b, a, rfl, rfl, Or.inl ⟨rfl, rfl⟩, rfl⟩
  · cases theirs with
    | none => exact Or.inl ⟨Or.inr rfl, rfl⟩
    | some b => exact Or.inr ⟨a, b, rfl, rfl, Or.inr (Or.inl ⟨rfl, rfl⟩), rfl⟩
  · refine Or.inr ⟨a, a, rfl, rfl, Or.inr (Or.inr ⟨rfl, rfl⟩), ?_⟩
    cases base <;> rfl

end Asset

/-! ## §5 Whole configurations -/

section Config

variable [DecidableEq V] (str : FieldValue V → String) (upper : String → String)

open SemanticMergeEngine

/-- The fields of every asset that both sides have survive being merged over the base. -/
def AssetsKept (base ours theirs x : Config V) : Prop :=
  ∀ a ∈ x.assets, (assetMap str upper ours.assets).get? (assetKey str upper a) ≠ none →
    (assetMap str upper theirs.assets).get? (assetKey str upper a) ≠ none →
    Keeps (((assetMap str upper base.assets).get? (assetKey str upper a)).getD Record.empty) a

omit [DecidableEq V] in
theorem assetKey_congr {a b : AssetDump V} (h : ∀ f, IsPlainField f → a.get? f = b.get? f) :
    assetKey str upper a = assetKey str upper b := by
  have htext : ∀ f, IsPlainField f → textOf str a f = textOf str b f := by
    intro f hf
    rw [textOf, textOf, h f hf]
  rw [assetKey, assetKey, htext _ (by decide), htext _ (by decide), htext _ (by decide)]

omit [DecidableEq V] in
/-- Assets that are the same agree in the plain fields. -/
theorem SameAsset.get?_plain {a b : AssetDump V} (h : SameAsset a b) (hb : CanonicalAsset b)
    {f : String} (hf : IsPlainField f) : a.get? f = b.get? f := by
  have hrel := h f
  obtain ⟨v, hv⟩ := hb.plain f hf
  unfold AssetDump.field Record.look at hv
  generalize a.get? f = x at hrel ⊢
  generalize b.get? f = y at hrel hv ⊢
  cases hrel with
  | none => rfl
  | @some w w' hsame =>
    obtain rfl : w' = .leaf v := hv
    cases w with
    | leaf value => exact congrArg some hsame
    | dict d => exact absurd hsame (by simp [SameField])
    | strategies ss => exact absurd hsame (by simp [SameField])

omit [DecidableEq V] in
theorem assetKey_of_sameAsset {a b : AssetDump V} (h : SameAsset a b) (hb : CanonicalAsset b) :
    assetKey str upper a = assetKey str upper b :=
  assetKey_congr str upper fun _ hf => h.get?_plain hb hf

omit [DecidableEq V] in
/-- Assets that are matched one by one have the same keys. -/
theorem map_assetKey_of_matched {matched assets : List (AssetDump V)}
    (h : List.Forall₂ SameAsset matched assets) (hc : ∀ a ∈ assets, CanonicalAsset a) :
    matched.map (assetKey str upper) = assets.map (assetKey str upper) := by
  induction h with
  | nil => rfl
  | cons hsame _ ih =>
    rw [List.map_cons, List.map_cons, ih fun a ha => hc a (List.mem_cons_of_mem _ ha),
      assetKey_of_sameAsset str upper hsame (hc _ List.mem_cons_self)]

omit [DecidableEq V] in
theorem exists_matched {matched assets : List (AssetDump V)}
    (h : List.Forall₂ SameAsset matched assets) {m : AssetDump V} (hm : m ∈ matched) :
    ∃ a ∈ assets, SameAsset m a := by
  induction h with
  | nil => cases hm
  | @cons m' a' _ _ hsame _ ih =>
    rcases List.mem_cons.mp hm with rfl | hm
    · exact ⟨a', List.mem_cons_self, hsame⟩
    · obtain ⟨a, ha, hma⟩ := ih hm
      exact ⟨a, List.mem_cons_of_mem _ ha, hma⟩

omit [DecidableEq V] in
theorem get?_assetMap_mem {assets : List (AssetDump V)} {key : String} {a : AssetDump V}
    (h : (assetMap str upper assets).get? key = some a) :
    a ∈ assets ∧ assetKey str upper a = key := by
  obtain ⟨a', ha', heq⟩ := List.mem_map.mp (Dict.mem_of_get?_ofList h)
  obtain ⟨rfl, rfl⟩ := Prod.mk.inj heq
  exact ⟨ha', rfl⟩

omit [DecidableEq V] in
theorem mem_keys_assetMap {assets : List (AssetDump V)} {key : String} :
    key ∈ (assetMap str upper assets).keys ↔ key ∈ assets.map (assetKey str upper) := by
  rw [assetMap, Dict.mem_keys_ofList, List.map_map]
  rfl

omit [DecidableEq V] in
/-- With distinct keys the map holds every asset, in order. -/
theorem values_assetMap {assets : List (AssetDump V)}
    (h : (assets.map (assetKey str upper)).Nodup) :
    (assetMap str upper assets).values = assets := by
  have hkeys : ((assets.map fun a => (assetKey str upper a, a)).map Prod.fst).Nodup := by
    rw [List.map_map]
    exact h
  rw [Dict.values, assetMap, Dict.entries_ofList hkeys, List.map_map]
  exact List.map_id assets

omit [DecidableEq V] in
theorem get?_assetMap_of_mem {assets : List (AssetDump V)}
    (h : (assets.map (assetKey str upper)).Nodup) {a : AssetDump V} (ha : a ∈ assets) :
    (assetMap str upper assets).get? (assetKey str upper a) = some a := by
  have hkeys : ((assets.map fun a => (assetKey str upper a, a)).map Prod.fst).Nodup := by
    rw [List.map_map]
    exact h
  rw [Dict.get?_eq_some_iff, assetMap, Dict.entries_ofList hkeys]
  exact List.mem_map.mpr ⟨a, ha, rfl⟩

/-- The result of `_merge_assets` for one key. -/
def assetAt (base ours theirs : Config V) (key : String) :
    List (AssetDump V) × List (FieldConflict V) :=
  mergeAssetAt key ((assetMap str upper base.assets).get? key)
    ((assetMap str upper ours.assets).get? key) ((assetMap str upper theirs.assets).get? key)

/-- The keys of the merged assets, in order. -/
def assetNames (base ours theirs : Config V) : List String :=
  namesInOrder (assetMap str upper base.assets) (assetMap str upper ours.assets)
    (assetMap str upper theirs.assets)

theorem merge_assets (base ours theirs : Config V) :
    (merge str upper base ours theirs).1.assets =
      (assetNames str upper base ours theirs).flatMap
        fun key => (assetAt str upper base ours theirs key).1 := rfl

theorem merge_conflicts (base ours theirs : Config V) :
    (merge str upper base ours theirs).2 =
      ((recordConflicts none base.settings ours.settings theirs.settings).map fun key =>
        leafConflict (.top key) ("Conflicting values for top-level '" ++ key ++ "'")
          (base.settings.look none key) (ours.settings.look none key)
          (theirs.settings.look none key)) ++
      (assetNames str upper base ours theirs).flatMap
        fun key => (assetAt str upper base ours theirs key).2 := rfl

omit [DecidableEq V] in
/-- The base that an asset of the change is merged over. -/
theorem canonicalBase_getD {base : Config V} (hbase : Canonical base) (key : String) :
    CanonicalBase (((assetMap str upper base.assets).get? key).getD Record.empty) := by
  cases hget : (assetMap str upper base.assets).get? key with
  | none => exact Or.inr rfl
  | some b => exact Or.inl (hbase.assets b (get?_assetMap_mem str upper hget).1)

section OneSidedChange

variable {str upper} {base ours theirs x : Config V} (h : OneSided base ours theirs x)
  (hbase : Canonical base) (hx : Canonical x)

include h

omit [DecidableEq V] in
theorem assetNames_of_oneSided {key : String}
    (hkey : key ∈ (assetMap str upper x.assets).keys) :
    key ∈ assetNames str upper base ours theirs := by
  rw [assetNames, mem_namesInOrder]
  rcases h with ⟨rfl, rfl⟩ | ⟨rfl, rfl⟩ | ⟨rfl, rfl⟩ <;> tauto

include hbase hx

/-- Whatever happens to its other fields, an asset of the change yields one asset with the
    same key, and it is the same asset only if it keeps its fields. -/
theorem assetAt_of_some {key : String} {a : AssetDump V}
    (ha : (assetMap str upper x.assets).get? key = some a) :
    ∃ m, (assetAt str upper base ours theirs key).1 = [m] ∧ assetKey str upper m = key ∧
      (SameAsset m a → (assetMap str upper ours.assets).get? key ≠ none →
        (assetMap str upper theirs.assets).get? key ≠ none →
        Keeps (((assetMap str upper base.assets).get? key).getD Record.empty) a) := by
  obtain ⟨hmem, hkey⟩ := get?_assetMap_mem str upper ha
  have hcanonical := hx.assets a hmem
  have hoptions := h.map fun c => (assetMap str upper c.assets).get? key
  rw [ha] at hoptions
  rcases mergeAssetAt_of_oneSided key hoptions with ⟨hmissing, hat⟩ | ⟨o, t, ho, ht, hone, hat⟩
  · refine ⟨a, by rw [assetAt, hat], hkey, ?_⟩
    intro _ ho ht
    exact absurd hmissing (not_or.mpr ⟨ho, ht⟩)
  · have hb := canonicalBase_getD str upper hbase key
    refine ⟨_, by rw [assetAt, hat], ?_, ?_⟩
    · refine (assetKey_congr str upper ?_).trans hkey
      intro f hf
      exact get?_mergeSingleAsset_plain key hone hb hcanonical hf
    · intro hsame _ _
      exact keeps_of_sameAsset key hone hb hcanonical hsame

omit hbase hx in
theorem assetAt_of_none {key : String} (hnone : (assetMap str upper x.assets).get? key = none) :
    assetAt str upper base ours theirs key = ([], []) := by
  have hoptions := h.map fun c => (assetMap str upper c.assets).get? key
  rw [hnone] at hoptions
  exact mergeAssetAt_of_dropped key hoptions

/-- The merged assets have the keys of the change, each once. -/
theorem map_assetKey_merge :
    (merge str upper base ours theirs).1.assets.map (assetKey str upper) =
      (assetNames str upper base ours theirs).filter
        fun key => key ∈ (assetMap str upper x.assets).keys := by
  have hat : ∀ key, (assetAt str upper base ours theirs key).1.map (assetKey str upper) =
      if key ∈ (assetMap str upper x.assets).keys then [key] else [] := by
    intro key
    cases hget : (assetMap str upper x.assets).get? key with
    | none =>
      rw [assetAt_of_none h hget, if_neg ((Dict.get?_eq_none_iff _ key).mp hget)]
      rfl
    | some a =>
      obtain ⟨m, hm, hkey, -⟩ := assetAt_of_some h hbase hx hget
      have hmem : key ∈ (assetMap str upper x.assets).keys := by
        by_contra hnot
        rw [(Dict.get?_eq_none_iff _ key).mpr hnot] at hget
        cases hget
      rw [hm, if_pos hmem, List.map_singleton, hkey]
  rw [merge_assets, List.map_flatMap]
  induction assetNames str upper base ours theirs with
  | nil => rfl
  | cons key rest ih =>
    rw [List.flatMap_cons, ih, hat]
    by_cases hmem : key ∈ (assetMap str upper x.assets).keys <;> simp [hmem]

/-- The settings of a one-sided change are taken over. -/
theorem settings_of_oneSided :
    (merge str upper base ours theirs).1.settings = x.settings ∧
      recordConflicts none base.settings ours.settings theirs.settings = [] := by
  have hsettings := h.map Config.settings
  refine ⟨hsettings.mergeRecords_eq none ?_, hsettings.recordConflicts_eq none⟩
  intro k hk
  rw [hx.settings_keys, ← hbase.settings_keys]
  exact hk

/-- Assets that keep their fields come back as they are. -/
theorem assetAt_of_kept (hkept : AssetsKept str upper base ours theirs x) (key : String) :
    assetAt str upper base ours theirs key =
      (((assetMap str upper x.assets).get? key).toList, []) := by
  cases hget : (assetMap str upper x.assets).get? key with
  | none => exact assetAt_of_none h hget
  | some a =>
    obtain ⟨hmem, rfl⟩ := get?_assetMap_mem str upper hget
    have hoptions := h.map fun c => (assetMap str upper c.assets).get? (assetKey str upper a)
    rw [hget] at hoptions
    rcases mergeAssetAt_of_oneSided (assetKey str upper a) hoptions with
      ⟨-, hat⟩ | ⟨o, t, ho, ht, hone, hat⟩
    · exact hat
    · rw [assetAt, hat, mergeSingleAsset_of_keeps _ hone (canonicalBase_getD str upper hbase _)
        (hx.assets a hmem) (hkept a hmem (by simp [ho]) (by simp [ht]))]
      rfl

/-- **When a one-sided merge is the change**: exactly when the assets of the change have
    distinct keys and keep their fields. -/
theorem merge_same_iff :
    ((merge str upper base ours theirs).2 = [] ∧
        SameConfig (merge str upper base ours theirs).1 x) ↔
      (x.assets.map (assetKey str upper)).Nodup ∧ AssetsKept str upper base ours theirs x := by
  obtain ⟨hsettings, hclean⟩ := @settings_of_oneSided V _ str upper _ _ _ _ h hbase hx
  constructor
  · intro hsame
    obtain ⟨matched, hperm, hmatched⟩ := hsame.2.assets
    have hkeys := map_assetKey_of_matched str upper hmatched hx.assets
    have hnodup : (x.assets.map (assetKey str upper)).Nodup := by
      rw [← hkeys, ← (hperm.map _).nodup_iff, map_assetKey_merge h hbase hx]
      exact (nodup_namesInOrder _ _ _).filter _
    refine ⟨hnodup, ?_⟩
    intro a ha
    obtain ⟨m, hm, hmkey, hkeeps⟩ :=
      assetAt_of_some h hbase hx (get?_assetMap_of_mem str upper hnodup ha)
    have hmem : m ∈ (merge str upper base ours theirs).1.assets := by
      rw [merge_assets, List.mem_flatMap]
      refine ⟨assetKey str upper a, ?_, by rw [hm]; exact List.mem_singleton_self m⟩
      apply assetNames_of_oneSided h
      exact (mem_keys_assetMap str upper).mpr (List.mem_map_of_mem ha)
    -- the asset it is matched with has its key, so it is the asset itself
    obtain ⟨a', ha', hsame'⟩ := exists_matched hmatched (hperm.mem_iff.mp hmem)
    have hkey : assetKey str upper a' = assetKey str upper a :=
      (assetKey_of_sameAsset str upper hsame' (hx.assets a' ha')).symm.trans hmkey
    obtain rfl : a' = a := List.inj_on_of_nodup_map hnodup ha' ha hkey
    exact hkeeps hsame'
  · rintro ⟨hnodup, hkept⟩
    have hat := assetAt_of_kept h hbase hx hkept
    refine ⟨?_, sameConfig_of_perm hsettings ?_⟩
    · rw [merge_conflicts, hclean]
      simp [hat]
    · rw [merge_assets]
      simp only [hat]
      rw [← List.filterMap_eq_flatMap_toList]
      nth_rewrite 2 [← values_assetMap str upper hnodup]
      apply Dict.filterMap_get?_perm _ (nodup_namesInOrder _ _ _)
      intro key hkey
      exact assetNames_of_oneSided h hkey

end OneSidedChange

/-! ## §6 The identity -/

/-- The merge reports no conflict and yields `x` up to order. -/
def MergesTo (base ours theirs x : Config V) : Prop :=
  (merge str upper base ours theirs).2 = [] ∧ SameConfig (merge str upper base ours theirs).1 x

/-- Merging `x` with an unchanged other side, or with itself, yields `x`. -/
def MergeIdentity (b x : Config V) : Prop :=
  MergesTo str upper b b x x ∧ MergesTo str upper b x b x ∧ MergesTo str upper b x x x

/-- No two assets of `x` have one key, all have a list of strategies, and none has null where
    the asset of `b` with its key has an object. -/
structure IdentityCondition (b x : Config V) : Prop where
  keys : (x.assets.map (assetKey str upper)).Nodup
  strategies : ∀ a ∈ x.assets, a.field "strategies" ≠ .null
  objects : ∀ a ∈ x.assets,
    ∀ base ∈ (assetMap str upper b.assets).get? (assetKey str upper a),
    ∀ f ∈ ["consensus", "guard_config"], a.field f = .null → base.field f = .null

omit [DecidableEq V] in
theorem get?_assetMap_ne_none {assets : List (AssetDump V)} {a : AssetDump V} (ha : a ∈ assets) :
    (assetMap str upper assets).get? (assetKey str upper a) ≠ none := by
  rw [Ne, Dict.get?_eq_none_iff, not_not, mem_keys_assetMap]
  exact List.mem_map_of_mem ha

omit [DecidableEq V] in
theorem identityCondition_iff (b x : Config V) :
    IdentityCondition str upper b x ↔
      (x.assets.map (assetKey str upper)).Nodup ∧
      ∀ a ∈ x.assets,
        Keeps (((assetMap str upper b.assets).get? (assetKey str upper a)).getD Record.empty)
          a := by
  constructor
  · intro h
    refine ⟨h.keys, fun a ha => ⟨h.strategies a ha, ?_⟩⟩
    intro f hf hnull
    cases hget : (assetMap str upper b.assets).get? (assetKey str upper a) with
    | none => exact field_empty f
    | some base => exact h.objects a ha base hget f (by simpa using hf) hnull
  · rintro ⟨hkeys, hkeeps⟩
    refine ⟨hkeys, fun a ha => (hkeeps a ha).strategies, ?_⟩
    intro a ha base hget f hf hnull
    have hobject := (hkeeps a ha).objects f (by simpa using hf) hnull
    rw [Option.mem_def.mp hget] at hobject
    exact hobject

/-- **Merging with an unchanged side is the identity exactly under the condition.**

    For canonical configurations `b` and `x`: merging `x` over `b` with `b` on the other side, or
    with `x` itself, gives `x` back without a conflict, if and only if no two assets of `x` share a
    key, all have a list of strategies, and none has null where the asset of `b` has an object.  A
    field that is an object on any side is merged key by key, and the null of another side counts as
    no keys. -/
theorem mergeIdentity_iff {b x : Config V} (hb : Canonical b) (hx : Canonical x) :
    MergeIdentity str upper b x ↔ IdentityCondition str upper b x := by
  rw [identityCondition_iff]
  have hours : MergesTo str upper b b x x ↔ _ := merge_same_iff (Or.inl ⟨rfl, rfl⟩) hb hx
  have htheirs : MergesTo str upper b x b x ↔ _ :=
    merge_same_iff (Or.inr (Or.inl ⟨rfl, rfl⟩)) hb hx
  have hboth : MergesTo str upper b x x x ↔ _ :=
    merge_same_iff (Or.inr (Or.inr ⟨rfl, rfl⟩)) hb hx
  constructor
  · rintro ⟨-, -, h⟩
    obtain ⟨hkeys, hkept⟩ := hboth.mp h
    refine ⟨hkeys, fun a ha => ?_⟩
    have hmem := get?_assetMap_ne_none str upper ha
    exact hkept a ha hmem hmem
  · rintro ⟨hkeys, hkeeps⟩
    have hkept : ∀ ours theirs, AssetsKept str upper b ours theirs x :=
      fun _ _ a ha _ _ => hkeeps a ha
    exact ⟨hours.mpr ⟨hkeys, hkept _ _⟩, htheirs.mpr ⟨hkeys, hkept _ _⟩,
      hboth.mpr ⟨hkeys, hkept _ _⟩⟩

end Config

/-! ## §7 Concrete configurations -/

/-- Plain JSON values, as far as the samples need them. -/
inductive Scalar where
  | text (s : String)
  | number (q : ℚ)
  | flag (b : Bool)
  deriving DecidableEq

/-- `str` of the values that asset keys are made of. -/
def Scalar.str : FieldValue Scalar → String
  | .leaf (some (.text s)) => s
  | _ => "None"

/-- A dumped asset traded on the given exchange. -/
def sampleAsset (base quote exchange : String) (minQuantity : ℚ)
    (consensus strategies : FieldValue Scalar) : AssetDump Scalar :=
  Record.tabulate assetFields fun f =>
    if f = "strategies" then strategies
    else if f = "consensus" then consensus
    else if f = "guard_config" then .null
    else if f = "base_ticker_symbol" then .leaf (some (.text base))
    else if f = "quote_ticker_symbol" then .leaf (some (.text quote))
    else if f = "exchange" then .leaf (some (.text exchange))
    else if f = "name" then .leaf (some (.text base))
    else if f = "ticker_symbol" then .leaf (some (.text (base ++ "_" ++ quote)))
    else if f = "min_quantity" then .leaf (some (.number minQuantity))
    else if f = "enabled" then .leaf (some (.flag true))
    else if f = "candles_timeframe" then .leaf (some (.text "1m"))
    else if f ∈ ["quantity_decimals", "quote_decimals", "schedule"] then .leaf (some (.number 1))
    else .null

def sampleConsensus (buy sell : ℚ) : FieldValue Scalar :=
  .dict (Record.tabulate ["buy", "sell"] fun k =>
    some (.number (if k = "buy" then buy else sell)))

def sampleStrategy (name : String) (weight : ℚ) : Strategy Scalar :=
  ⟨name, Record.tabulate ["weight"] fun _ => some (.number weight)⟩

/-- A configuration with the given quantity expression and default settings otherwise. -/
def sampleConfigWith (quantity : Option Scalar) (assets : List (AssetDump Scalar)) :
    Config Scalar :=
  ⟨Record.tabulate settingKeys fun k =>
    if k = "dynamic_quantity" then quantity else some (.text "default"), assets⟩

def sampleConfig (assets : List (AssetDump Scalar)) : Config Scalar :=
  sampleConfigWith none assets

/-- A choice between plain values is a plain value. -/
theorem exists_leaf_ite {p : Prop} [Decidable p] {a b : FieldValue Scalar}
    (ha : ∃ value, a = .leaf value) (hb : ∃ value, b = .leaf value) :
    ∃ value, (if p then a else b) = .leaf value := by
  by_cases hp : p
  · simpa [hp] using ha
  · simpa [hp] using hb

theorem canonical_sampleAsset (base quote exchange : String) (minQuantity : ℚ)
    {consensus : FieldValue Scalar}
    (hconsensus : consensus = .null ∨ ∃ buy sell, consensus = sampleConsensus buy sell)
    {ss : List (Strategy Scalar)} (hss : (ss.map Strategy.name).Nodup) :
    CanonicalAsset (sampleAsset base quote exchange minQuantity consensus (.strategies ss)) := by
  -- keys, leaves, objects and strategies, each read off the table of fields
  refine ⟨?_, ?_, ?_, ?_⟩
  · rw [sampleAsset, Record.keys_tabulate]
    exact sortedKeys_of_isChain (by decide +kernel)
  · intro f hf
    rw [AssetDump.field, Record.look, sampleAsset, Record.get?_tabulate]
    by_cases hmem : f ∈ assetFields
    · rw [if_pos hmem, Option.getD_some, if_neg hf.1, if_neg hf.2.1, if_neg hf.2.2]
      repeat refine exists_leaf_ite ⟨_, rfl⟩ ?_
      exact ⟨_, rfl⟩
    · rw [if_neg hmem]
      exact ⟨_, rfl⟩
  · intro fk hfk
    rcases List.mem_cons.mp hfk with rfl | hfk
    · rcases hconsensus with rfl | ⟨buy, sell, rfl⟩
      · left
        rfl
      · right
        refine ⟨_, rfl, ?_⟩
        rw [Record.keys_tabulate]
        exact sortedKeys_of_isChain (by decide +kernel)
    · rw [List.mem_singleton.mp hfk]
      left
      rfl
  · right
    exact ⟨ss, rfl, hss⟩

theorem canonical_sampleConfigWith (quantity : Option Scalar) {assets : List (AssetDump Scalar)}
    (h : ∀ a ∈ assets, CanonicalAsset a) : Canonical (sampleConfigWith quantity assets) := by
  refine ⟨?_, h⟩
  rw [sampleConfigWith, Record.keys_tabulate]
  exact sortedKeys_of_isChain (by decide +kernel)

theorem canonical_sampleConfig {assets : List (AssetDump Scalar)}
    (h : ∀ a ∈ assets, CanonicalAsset a) : Canonical (sampleConfig assets) :=
  canonical_sampleConfigWith none h

/-- A changed strategy and a new asset come back whatever side they are on. -/
theorem mergeIdentity_new_asset :
    MergeIdentity Scalar.str id
      (sampleConfig [sampleAsset "BTC" "USD" "BINANCE" 1 .null
        (.strategies [sampleStrategy "RSI" 1])])
      (sampleConfig [sampleAsset "ETH" "USD" "BINANCE" 1 .null (.strategies []),
        sampleAsset "BTC" "USD" "BINANCE" 1 (sampleConsensus 1 (1 / 2))
          (.strategies [sampleStrategy "RSI" 2])]) := by
  have hb := canonical_sampleConfig (List.forall_mem_singleton.mpr
    (canonical_sampleAsset "BTC" "USD" "BINANCE" 1 (Or.inl rfl)
      (show ([sampleStrategy "RSI" 1].map Strategy.name).Nodup by decide)))
  have hx := canonical_sampleConfig (List.forall_mem_cons.mpr
    ⟨canonical_sampleAsset "ETH" "USD" "BINANCE" 1 (Or.inl rfl)
      (show (([] : List (Strategy Scalar)).map Strategy.name).Nodup by decide),
    List.forall_mem_singleton.mpr
    (canonical_sampleAsset "BTC" "USD" "BINANCE" 1 (Or.inr ⟨1, 1 / 2, rfl⟩)
      (show ([sampleStrategy "RSI" 2].map Strategy.name).Nodup by decide))⟩)
  apply (mergeIdentity_iff Scalar.str id hb hx).mpr
  exact ⟨by decide +kernel, by decide +kernel, by decide +kernel⟩

/-- An asset drops its consensus thresholds and the other side has changed nothing: the
    merged asset has thresholds again, both null. -/
theorem dropped_consensus_comes_back :
    let b := sampleConfig [sampleAsset "BTC" "USD" "BINANCE" 1 (sampleConsensus 1 (1 / 2))
      (.strategies [])]
    let x := sampleConfig [sampleAsset "BTC" "USD" "BINANCE" 1 .null (.strategies [])]
    Canonical b ∧ Canonical x ∧ ¬ MergeIdentity Scalar.str id b x := by
  have hnil : (([] : List (Strategy Scalar)).map Strategy.name).Nodup := List.nodup_nil
  have hb := canonical_sampleConfig (List.forall_mem_singleton.mpr
    (canonical_sampleAsset "BTC" "USD" "BINANCE" 1 (Or.inr ⟨1, 1 / 2, rfl⟩) hnil))
  have hx := canonical_sampleConfig (List.forall_mem_singleton.mpr
    (canonical_sampleAsset "BTC" "USD" "BINANCE" 1 (Or.inl rfl) hnil))
  refine ⟨hb, hx, ?_⟩
  intro h
  obtain ⟨-, hkept⟩ := (merge_same_iff (Or.inl ⟨rfl, rfl⟩) hb hx).mp h.1
  have hobject := (hkept _ List.mem_cons_self (by decide +kernel) (by decide +kernel)).objects
    "consensus" (Or.inl rfl) (by decide +kernel)
  revert hobject
  decide +kernel

end CryptoTrading.Vcs
