import CryptoTrading.Lib.Text
import CryptoTrading.Vcs.DiffCompleteness
import Mathlib.Algebra.Order.Field.Rat

/-!
# Exchanging the configurations of a difference

Comparing two configurations the other way round gives the same changes with the old and the new
value exchanged, and what was added is removed.  Within a field the order of the changes stays; the
assets and the strategies come in the order of the configuration that is named first.

With `computeConfigDiff_nil_iff_sameConfig_reduced` this settles what a difference tells about two
dumps (`computeConfigDiff_faithful_iff`).
-/

namespace CryptoTrading.Vcs.ConfigDiff

open CryptoTrading.Lib
open CryptoTrading.Agent.Configuration (Json Fields ConfigChange)
open CryptoTrading.Vcs.Hashing (KeysInOrder)

variable {N : Type}

/-! ## §1 Exchanged changes -/

/-- The reasons that speak of what is added or removed. -/
def exchangedReason (reason : String) : String :=
  if reason = "Asset removed" then "Asset added"
  else if reason = "Asset added" then "Asset removed"
  else if reason = "Strategy removed" then "Strategy added"
  else if reason = "Strategy added" then "Strategy removed"
  else reason

/-- A change the other way round. -/
def exchanged (change : ConfigChange N) : ConfigChange N :=
  ⟨change.path, change.newValue, change.oldValue, exchangedReason change.reason⟩

theorem exchanged_mk (path : String) (a b : Json N) (reason : String) :
    exchanged ⟨path, a, b, reason⟩ = ⟨path, b, a, exchangedReason reason⟩ := rfl

theorem exchangedReason_empty : exchangedReason "" = "" := by decide

theorem allKeys_comm (a b : Fields N) : allKeys a b = allKeys b a := by
  apply (sortedKeys_pairwise _).eq_of_mem_iff (sortedKeys_pairwise _)
  intro k
  rw [mem_sortedKeys, mem_sortedKeys, List.mem_append, List.mem_append, or_comm]

/-- What is only in one mapping is added in one direction and removed in the other; the keys come
    in another order. -/
theorem mapChanges_exchange {path : String → String} {removed added : String}
    {inner : String → Fields N → Fields N → List (ConfigChange N)}
    (hremoved : exchangedReason removed = added) (hadded : exchangedReason added = removed)
    (hinner : ∀ k x y, (inner k y x).Perm ((inner k x y).map exchanged))
    (mapA mapB : Dict String (Fields N)) :
    (mapChanges path removed added inner mapB mapA).Perm
      ((mapChanges path removed added inner mapA mapB).map exchanged) := by
  rw [mapChanges, mapChanges, List.map_flatMap]
  apply List.Perm.flatMap (fromKeys_append_comm _ _)
  intro k _
  cases mapA.get? k with
  | none =>
    cases mapB.get? k with
    | none => exact .nil
    | some y => simp [exchanged_mk, hadded]
  | some x =>
    cases mapB.get? k with
    | none => simp [exchanged_mk, hremoved]
    | some y => exact hinner k x y

/-! ## §2 The changes of two configurations -/

section Changes

variable [DecidableEq N]

theorem diffNested_exchange (path : String) (a b : Json N) :
    diffNested path b a = (diffNested path a b).map exchanged := by
  induction path, a, b using diffNested_induction with
  | dicts path fa fb ih =>
    rw [diffNested, diffNested, List.map_flatMap, allKeys_comm]
    exact congrArg (List.flatMap · _) (funext ih)
  | dictNull path fa ih =>
    rw [diffNested, diffNested, List.map_flatMap]
    exact congrArg (List.flatMap · _) (funext ih)
  | nullDict path fb ih =>
    rw [diffNested, diffNested, List.map_flatMap]
    exact congrArg (List.flatMap · _) (funext ih)
  | leaves path a b h =>
    rw [diffNested_of_leaves h, diffNested_of_leaves h.symm]
    by_cases heq : a = b
    · simp [heq]
    · rw [if_pos heq, if_pos (Ne.symm heq), List.map_singleton, exchanged_mk,
        exchangedReason_empty]

theorem fieldChanges_exchange (path : String) (va vb : Json N) :
    fieldChanges path vb va = (fieldChanges path va vb).map exchanged := by
  unfold fieldChanges
  by_cases heq : va = vb
  · simp [heq]
  · rw [if_pos heq, if_pos (Ne.symm heq), Bool.or_comm]
    split
    · exact diffNested_exchange path va vb
    · rw [List.map_singleton, exchanged_mk, exchangedReason_empty]

theorem strategyChanges_exchange (path : String) (sa sb : Fields N) :
    strategyChanges path sb sa = (strategyChanges path sa sb).map exchanged := by
  rw [strategyChanges, strategyChanges, List.map_flatMap, allKeys_comm]
  exact congrArg (List.flatMap · _) (funext fun k => fieldChanges_exchange _ _ _)

variable (str : Json N → String) (upper : String → String)

theorem assetFieldChanges_exchange (sym field : String) (fa fb : Json N) :
    (assetFieldChanges str sym field fb fa).Perm
      ((assetFieldChanges str sym field fa fb).map exchanged) := by
  unfold assetFieldChanges
  by_cases heq : fa = fb
  · simp [heq]
  · rw [if_neg heq, if_neg (Ne.symm heq)]
    split
    · apply mapChanges_exchange (by decide) (by decide)
      intro k x y
      rw [strategyChanges_exchange]
    · rw [fieldChanges_exchange]

theorem assetChanges_exchange (sym : String) (aa ab : Fields N) :
    (assetChanges str sym ab aa).Perm ((assetChanges str sym aa ab).map exchanged) := by
  rw [assetChanges, assetChanges, List.map_flatMap, allKeys_comm]
  exact List.Perm.flatMap_left _ fun k _ => assetFieldChanges_exchange str sym k _ _

/-- **Exchanging the configurations** exchanges the old and the new values of the changes. -/
theorem computeConfigDiff_exchange (a b : Fields N) :
    (computeConfigDiff str upper b a).Perm ((computeConfigDiff str upper a b).map exchanged) := by
  rw [computeConfigDiff, computeConfigDiff, List.map_append]
  apply List.Perm.append
  · rw [List.map_flatMap, allKeys_comm]
    exact List.Perm.of_eq
      (congrArg (List.flatMap · _) (funext fun k => fieldChanges_exchange _ _ _))
  · exact mapChanges_exchange (by decide) (by decide) (assetChanges_exchange str) _ _

/-- **A difference tells everything about two dumps**, and its exchange about them the other way
    round, exactly when reducing them neither hides that they differ nor makes them differ.

    To reduce a dump is to drop the entries that hold nothing but nulls, and of several assets with
    one key all but the last: this is what the comparison looks at. -/
theorem computeConfigDiff_faithful_iff (a b : ConfigDump N) :
    ((computeConfigDiff str upper a.fields b.fields = [] ↔ SameConfig a.fields b.fields) ∧
        (computeConfigDiff str upper b.fields a.fields).Perm
          ((computeConfigDiff str upper a.fields b.fields).map exchanged)) ↔
      (SameConfig (reduced str upper a.fields) (reduced str upper b.fields) ↔
        SameConfig a.fields b.fields) := by
  rw [computeConfigDiff_nil_iff_sameConfig_reduced]
  exact and_iff_left (computeConfigDiff_exchange str upper _ _)

end Changes

/-! ## §3 A change that is not shown -/

/-- The default portfolio settings. -/
def defaultPortfolio : Json ℚ :=
  .object [
    ("exposure", .object [("max_per_asset", .string "0.25"), ("max_per_quote", .string "0.50"),
      ("max_total", .string "0.80")]),
    ("guard", .object [("enabled", .bool true), ("max_daily_loss", .string "0.05"),
      ("max_drawdown", .string "0.10"), ("max_position_count", .number 10),
      ("max_quote_exposure", .string "0.80"), ("min_quote_reserve", .string "0.10")]),
    ("regime", .object [("enabled", .bool true), ("high_volatility_threshold", .string "0.03"),
      ("illiquid_spread_threshold", .string "0.05"),
      ("low_volatility_threshold", .string "0.005"), ("min_data_points", .number 3),
      ("period", .number 20), ("trend_threshold", .string "0.005")])]

/-- The default health settings. -/
def defaultHealth : Json ℚ :=
  .object [
    ("enabled", .bool true),
    ("recovery", .object [("automatic", .bool true), ("required_successful_checks", .number 3),
      ("stable_period_seconds", .number 10)]),
    ("thresholds", .object [("balance_mismatch_tolerance", .number (1 / 100)),
      ("exchange_unavailable_seconds", .number 15), ("market_data_stale_seconds", .number 10),
      ("order_reconciliation_interval_seconds", .number 30)])]

/-- An asset with the given guard. -/
def bitcoin (guardConfig : Json ℚ) : Fields ℚ :=
  [("base_ticker_symbol", .string "BTC"), ("candles_timeframe", .string "MIN1"),
    ("consensus", .null), ("dynamic_quantity", .null), ("enabled", .bool true),
    ("exchange", .string "CCXT_BINANCE"), ("guard_config", guardConfig), ("keywords", .null),
    ("min_quantity", .number (1 / 1000)), ("name", .string "Bitcoin"), ("portfolio", .null),
    ("quantity_decimals", .number 4), ("quote_decimals", .number 2),
    ("quote_ticker_symbol", .string "USD"), ("schedule", .number 1), ("separator", .null),
    ("strategies", .null), ("ticker_symbol", .string "BTC_USD")]

/-- The guard of an empty section in a configuration file. -/
def emptyGuard : Json ℚ :=
  .object [("cooldown_timeout", .null), ("max_drawdown_percentage", .null),
    ("max_drawdown_period", .null)]

def bitcoinConfig (guardConfig : Json ℚ) : Fields ℚ :=
  [("assets", .list [.object (bitcoin guardConfig)]), ("dynamic_quantity", .null),
    ("health", defaultHealth), ("portfolio", defaultPortfolio)]

/-- Only neighbouring keys have to be compared. -/
theorem keysInOrder_object {fields : Fields ℚ} (hkeys : (fields.map Prod.fst).IsChain (· < ·))
    (h : ∀ f ∈ fields, KeysInOrder f.2) : KeysInOrder (.object fields) :=
  .object (List.pairwise_map.mp (List.isChain_iff_pairwise.mp hkeys)) h

theorem keysInOrder_defaultPortfolio : KeysInOrder defaultPortfolio := by
  refine keysInOrder_object (by decide +kernel) ?_
  simp only [List.forall_mem_cons, List.not_mem_nil, false_implies, implies_true, and_true]
  refine ⟨keysInOrder_object (by decide +kernel) ?_, keysInOrder_object (by decide +kernel) ?_,
    keysInOrder_object (by decide +kernel) ?_⟩ <;>
    simp [KeysInOrder.string, KeysInOrder.bool, KeysInOrder.number]

theorem keysInOrder_defaultHealth : KeysInOrder defaultHealth := by
  refine keysInOrder_object (by decide +kernel) ?_
  simp only [List.forall_mem_cons, List.not_mem_nil, false_implies, implies_true, and_true]
  refine ⟨.bool true, keysInOrder_object (by decide +kernel) ?_,
    keysInOrder_object (by decide +kernel) ?_⟩ <;>
    simp [KeysInOrder.bool, KeysInOrder.number]

theorem keysInOrder_emptyGuard : KeysInOrder emptyGuard := by
  refine keysInOrder_object (by decide +kernel) ?_
  simp [KeysInOrder.null]

theorem keysInOrder_bitcoinConfig {guardConfig : Json ℚ} (h : KeysInOrder guardConfig) :
    KeysInOrder (.object (bitcoinConfig guardConfig)) := by
  have hasset : KeysInOrder (.object (bitcoin guardConfig)) := by
    refine keysInOrder_object ?_ ?_
    · show List.IsChain (· < ·) ((bitcoin .null).map Prod.fst)
      decide +kernel
    · simp [bitcoin, h, KeysInOrder.string, KeysInOrder.bool, KeysInOrder.number, KeysInOrder.null]
  refine keysInOrder_object ?_ ?_
  · show List.IsChain (· < ·) ((bitcoinConfig .null).map Prod.fst)
    decide +kernel
  · have hassets : KeysInOrder (.list [.object (bitcoin guardConfig)]) :=
      .list (by simpa using hasset)
    simp [bitcoinConfig, hassets, keysInOrder_defaultPortfolio, keysInOrder_defaultHealth,
      KeysInOrder.null]

theorem isAsset_bitcoin (guardConfig : Json ℚ) : IsAsset (bitcoin guardConfig) where
  base := ⟨"BTC", rfl⟩
  quote := ⟨"USD", rfl⟩
  name := ⟨"Bitcoin", rfl⟩
  named := by
    intro s hs
    cases hs
  unique := List.nodup_nil

theorem isAsset_of_bitcoinConfig (guardConfig : Json ℚ) :
    ∀ asset ∈ assetsOf (bitcoinConfig guardConfig), IsAsset asset := by
  intro asset hasset
  rw [List.mem_singleton.mp hasset]
  exact isAsset_bitcoin guardConfig

theorem bitcoinConfig_has_assets (guardConfig : Json ℚ) :
    ∃ assets : List (Fields ℚ),
      look (bitcoinConfig guardConfig) "assets" = .list (assets.map .object) :=
  ⟨[bitcoin guardConfig], rfl⟩

/-- The dump of a configuration with one asset. -/
def bitcoinDump (guardConfig : Json ℚ) (h : KeysInOrder guardConfig) : ConfigDump ℚ :=
  ⟨bitcoinConfig guardConfig, keysInOrder_bitcoinConfig h, bitcoinConfig_has_assets guardConfig,
    isAsset_of_bitcoinConfig guardConfig⟩

/-- An empty guard instead of none is not shown. -/
theorem computeConfigDiff_hides_emptyGuard :
    ¬ ∀ a b : ConfigDump ℚ,
      (computeConfigDiff (fun _ => "") upper a.fields b.fields = [] ↔
          SameConfig a.fields b.fields) ∧
        (computeConfigDiff (fun _ => "") upper b.fields a.fields).Perm
          ((computeConfigDiff (fun _ => "") upper a.fields b.fields).map exchanged) := by
  intro h
  have hreduced : reduced (fun _ => "") upper (bitcoinConfig .null) =
      reduced (fun _ => "") upper (bitcoinConfig emptyGuard) := by decide +kernel
  have hempty := (computeConfigDiff_nil_iff_sameConfig_reduced (fun _ => "") upper
    (bitcoinDump .null .null) (bitcoinDump emptyGuard keysInOrder_emptyGuard)).mpr (by
      show SameConfig (reduced (fun _ => "") upper (bitcoinConfig .null))
        (reduced (fun _ => "") upper (bitcoinConfig emptyGuard))
      rw [hreduced]
      exact sameConfig_refl _)
  obtain ⟨-, hleft, -⟩ := (h _ _).1.mp hempty
  -- the only asset has no guard in one configuration
  obtain ⟨y, hy, hfields, -⟩ := hleft (bitcoin .null) (List.mem_singleton_self _)
  rw [List.mem_singleton.mp hy] at hfields
  have hguard : Json.null = emptyGuard := hfields "guard_config" (by decide)
  cases hguard

end CryptoTrading.Vcs.ConfigDiff
