import CryptoTrading.Trading.HotReload

/-!
# Updates that raise

What an update of the configuration leaves behind when one of its steps raises.  The factors, the
portfolio configuration and the global formula are in place before anything can raise, and the
assets before their strategies are resolved.  Nothing has changed only when the first thing to
raise is the formula of an asset and all that was put in place up to there was in place already
(`failed_update_unaffected_iff`).  The commit hash of the session stays either way.
-/

namespace CryptoTrading.Trading

open CryptoTrading.Lib
open CryptoTrading.Consensus (ConsensusManager)
open CryptoTrading.Expressions (Expr SyntaxError)

section FailedUpdate

variable {astParse : String → Except SyntaxError Expr}
  {registry : Dict (Option String) StrategyConfig}

/-! ## §1 What is in place whatever happens -/

variable (astParse registry) in
/-- Either the sizer raises, or the assets are what is left to do. -/
theorem updateConfig_cases (e : TradingExecutor) (config : TradingConfig) :
    (∃ error, (e.positionSizer.updateConfig astParse config).2 = some error ∧
      e.updateConfig astParse registry config =
        ({ e.updateManagers config with
            positionSizer := (e.positionSizer.updateConfig astParse config).1 }, some error)) ∨
      (e.positionSizer.updateConfig astParse config).2 = none ∧
        e.updateConfig astParse registry config =
          (let updated := { e.updateManagers config with
            positionSizer := (e.positionSizer.updateConfig astParse config).1 }
          if assetsChanged config.assets e.assets then
            updated.replaceAssets astParse registry config.assets
          else (updated, none)) := by
  have hsame : (e.updateManagers config).positionSizer = e.positionSizer := rfl
  unfold TradingExecutor.updateConfig TradingExecutor.updateSizer
  rw [hsame]
  dsimp only
  cases herror : (e.positionSizer.updateConfig astParse config).2 with
  | none => exact .inr ⟨rfl, andThen_none _ _⟩
  | some error => exact .inl ⟨error, rfl, andThen_some _ _ _⟩

variable (astParse registry) in
theorem positionSizer_updateConfig (e : TradingExecutor) (config : TradingConfig) :
    (e.updateConfig astParse registry config).1.positionSizer =
      (e.positionSizer.updateConfig astParse config).1 := by
  rcases updateConfig_cases astParse registry e config with ⟨error, -, heq⟩ | ⟨-, heq⟩
  · rw [heq]
  · rw [heq]
    dsimp only
    split <;> rfl

variable (astParse registry) in
theorem portfolioRiskManager_updateConfig (e : TradingExecutor) (config : TradingConfig) :
    (e.updateConfig astParse registry config).1.portfolioRiskManager =
      e.portfolioRiskManager.map (·.updateConfig config.portfolio) := by
  rcases updateConfig_cases astParse registry e config with ⟨error, -, heq⟩ | ⟨-, heq⟩
  · rw [heq]
    rfl
  · rw [heq]
    dsimp only
    split <;> rfl

theorem assetFactors_updateConfig (e : TradingExecutor) (config : TradingConfig) :
    (e.updateConfig astParse registry config).1.consensusManager.assetFactors =
      (ConsensusManager.new.setFactors (factorsOf config.assets)).assetFactors := by
  rcases updateConfig_cases astParse registry e config with ⟨error, -, heq⟩ | ⟨-, heq⟩
  · rw [heq]
    rfl
  · rw [heq]
    dsimp only
    split
    · exact (Registrations.assetFactors_registerAssetStrategies _ _).trans
        (Registrations.assetFactors_unregisterAssetStrategies _)
    · rfl

namespace PositionSizer

/-- The global formula is not touched when the parsers are rebuilt. -/
theorem global_rebuildAssetParsers (sizer : PositionSizer) (assets : List TradingAsset) :
    (sizer.rebuildAssetParsers astParse assets).1.globalFormula = sizer.globalFormula ∧
      (sizer.rebuildAssetParsers astParse assets).1.globalParser = sizer.globalParser := by
  refine forEach_invariant (s := { sizer with assetParsers := Dict.empty })
    (fun s : PositionSizer =>
      s.globalFormula = sizer.globalFormula ∧ s.globalParser = sizer.globalParser)
    ?_ ⟨rfl, rfl⟩ assets
  intro s asset hs
  unfold parseAsset
  split <;> exact hs

theorem parseAsset_of_rejected {asset : TradingAsset} {error : String}
    (h : formulaParser astParse asset.dynamicQuantity = .error error) (sizer : PositionSizer) :
    sizer.parseAsset astParse asset = (sizer, some error) := by
  simp only [parseAsset, h]

theorem parseAsset_of_accepted {asset : TradingAsset} {parser : Option ExpressionParser}
    (h : formulaParser astParse asset.dynamicQuantity = .ok parser) (sizer : PositionSizer) :
    sizer.parseAsset astParse asset =
      ({ sizer with
          assetParsers := (parser.map fun p => (asset.key, p)).toList.foldl
            (fun d e => d.set e.1 e.2) sizer.assetParsers }, none) := by
  cases parser <;> simp only [parseAsset, h] <;> rfl

theorem rejected_of_parseAsset {asset : TradingAsset} {error : String} {sizer : PositionSizer}
    (h : (sizer.parseAsset astParse asset).2 = some error) :
    formulaParser astParse asset.dynamicQuantity = .error error := by
  unfold parseAsset at h
  cases hformula : formulaParser astParse asset.dynamicQuantity with
  | error error' =>
    rw [hformula] at h
    rw [Option.some.inj h]
  | ok parser =>
    rw [hformula] at h
    cases parser <;> cases h

/-- The new formula is in place, parsed or not. -/
theorem globalFormula_updateConfig (sizer : PositionSizer) (config : TradingConfig) :
    (sizer.updateConfig astParse config).1.globalFormula = config.dynamicQuantity := by
  unfold PositionSizer.updateConfig updateFormula
  by_cases hchanged : config.dynamicQuantity ≠ sizer.globalFormula
  · rw [if_pos hchanged]
    cases formulaParser astParse config.dynamicQuantity with
    | error error => rfl
    | ok parser => exact (global_rebuildAssetParsers _ _).1
  · rw [if_neg hchanged, andThen_none, (global_rebuildAssetParsers _ _).1]
    exact (not_not.mp hchanged).symm

variable (astParse) in
theorem updateConfig_of_same {sizer : PositionSizer} {config : TradingConfig}
    (h : config.dynamicQuantity = sizer.globalFormula) :
    sizer.updateConfig astParse config = sizer.rebuildAssetParsers astParse config.assets := by
  unfold PositionSizer.updateConfig updateFormula
  rw [if_neg (not_not.mpr h), andThen_none]

end PositionSizer

/-! ## §2 Formulas of the assets -/

variable (astParse) in
/-- The parsers of the assets that have a formula of their own, if all of them are accepted. -/
def ownParsers : List TradingAsset → Except String (List (String × ExpressionParser))
  | [] => .ok []
  | asset :: rest => do
    let parser ← formulaParser astParse asset.dynamicQuantity
    let parsers ← ownParsers rest
    return (parser.map fun p => (asset.key, p)).toList ++ parsers

theorem ownParsers_cons {asset : TradingAsset} {rest : List TradingAsset}
    {parsers : List (String × ExpressionParser)} :
    ownParsers astParse (asset :: rest) = .ok parsers ↔
      ∃ parser tail, formulaParser astParse asset.dynamicQuantity = .ok parser ∧
        ownParsers astParse rest = .ok tail ∧
        parsers = (parser.map fun p => (asset.key, p)).toList ++ tail := by
  constructor
  · intro h
    obtain ⟨parser, hparser, hrest⟩ := bind_eq_ok.mp h
    obtain ⟨tail, htail, heq⟩ := bind_eq_ok.mp hrest
    exact ⟨parser, tail, hparser, htail, (Except.ok.inj heq).symm⟩
  · rintro ⟨parser, tail, hparser, htail, rfl⟩
    exact bind_eq_ok.mpr ⟨parser, hparser, bind_eq_ok.mpr ⟨tail, htail, rfl⟩⟩

/-- Accepted formulas are noted one after the other. -/
theorem forEach_parseAsset_of_accepted (sizer : PositionSizer) {assets : List TradingAsset}
    {parsers : List (String × ExpressionParser)} (h : ownParsers astParse assets = .ok parsers) :
    forEach (PositionSizer.parseAsset astParse) sizer assets =
      ({ sizer with
          assetParsers := parsers.foldl (fun d e => d.set e.1 e.2) sizer.assetParsers },
        none) := by
  induction assets generalizing sizer parsers with
  | nil =>
    obtain rfl := Except.ok.inj h
    rfl
  | cons asset rest ih =>
    obtain ⟨parser, tail, hparser, htail, rfl⟩ := ownParsers_cons.mp h
    rw [forEach_cons, PositionSizer.parseAsset_of_accepted hparser, andThen_none, ih _ htail,
      List.foldl_append]

/-- When nothing is raised, all formulas are accepted. -/
theorem exists_ownParsers {sizer : PositionSizer} {assets : List TradingAsset}
    (h : (forEach (PositionSizer.parseAsset astParse) sizer assets).2 = none) :
    ∃ parsers, ownParsers astParse assets = .ok parsers := by
  induction assets generalizing sizer with
  | nil => exact ⟨[], rfl⟩
  | cons asset rest ih =>
    rw [forEach_cons] at h
    cases hparser : formulaParser astParse asset.dynamicQuantity with
    | error error =>
      rw [PositionSizer.parseAsset_of_rejected hparser, andThen_some] at h
      cases h
    | ok parser =>
      rw [PositionSizer.parseAsset_of_accepted hparser, andThen_none] at h
      obtain ⟨tail, htail⟩ := ih h
      exact ⟨_, ownParsers_cons.mpr ⟨parser, tail, hparser, htail, rfl⟩⟩

/-- The rebuilding stops at the first formula that is rejected. -/
theorem rebuildAssetParsers_raises_iff (sizer : PositionSizer) (assets : List TradingAsset)
    (kept : Dict String ExpressionParser) :
    (∃ error, (sizer.rebuildAssetParsers astParse assets).2 = some error) ∧
        (∀ key, (sizer.rebuildAssetParsers astParse assets).1.assetParsers.get? key =
          kept.get? key) ↔
      ∃ accepted rejected rest parsers error, assets = accepted ++ rejected :: rest ∧
        ownParsers astParse accepted = .ok parsers ∧
        formulaParser astParse rejected.dynamicQuantity = .error error ∧
        ∀ key, (Dict.ofList parsers).get? key = kept.get? key := by
  unfold PositionSizer.rebuildAssetParsers
  constructor
  · rintro ⟨⟨error, herror⟩, hkept⟩
    obtain ⟨accepted, rejected, rest, hassets, hdone, hraises, hstate⟩ := forEach_raises herror
    obtain ⟨parsers, hparsers⟩ := exists_ownParsers hdone
    have hformula := PositionSizer.rejected_of_parseAsset hraises
    rw [PositionSizer.parseAsset_of_rejected hformula,
      forEach_parseAsset_of_accepted _ hparsers] at hstate
    refine ⟨accepted, rejected, rest, parsers, error, hassets, hparsers, hformula, ?_⟩
    intro key
    rw [← hkept key, hstate]
    rfl
  · rintro ⟨accepted, rejected, rest, parsers, error, rfl, hparsers, hformula, hkept⟩
    rw [forEach_append, forEach_parseAsset_of_accepted _ hparsers, andThen_none, forEach_cons,
      PositionSizer.parseAsset_of_rejected hformula, andThen_some]
    exact ⟨⟨error, rfl⟩, hkept⟩

/-! ## §3 When nothing has changed -/

variable (astParse) in
/-- The first thing to raise is the formula of an asset, and all that is put in place before it
    was in place: the factors, the portfolio configuration, the global formula, and the parsers
    of the assets before that one. -/
structure RaisesFirst (e : TradingExecutor) (config : TradingConfig) : Prop where
  factors : ∀ ticker,
    (ConsensusManager.new.setFactors (factorsOf config.assets)).factorFor ticker =
      e.consensusManager.factorFor ticker
  portfolio : ∀ risk ∈ e.portfolioRiskManager, config.portfolio = risk.portfolioConfig
  globalFormula : config.dynamicQuantity = e.positionSizer.globalFormula
  assetFormula : ∃ accepted rejected rest parsers error,
    config.assets = accepted ++ rejected :: rest ∧ ownParsers astParse accepted = .ok parsers ∧
      formulaParser astParse rejected.dynamicQuantity = .error error ∧
      ∀ key, (Dict.ofList parsers).get? key = e.positionSizer.assetParsers.get? key

variable (astParse registry) in
theorem factorFor_updateConfig (e : TradingExecutor) (config : TradingConfig) (ticker : String) :
    (e.updateConfig astParse registry config).1.consensusManager.factorFor ticker =
      (ConsensusManager.new.setFactors (factorsOf config.assets)).factorFor ticker := by
  unfold ConsensusManager.factorFor
  rw [assetFactors_updateConfig]

theorem raisesFirst_of_sameDecisions {e : TradingExecutor} {config : TradingConfig}
    (hraises : (e.updateConfig astParse registry config).2 ≠ none)
    (h : SameDecisions e (e.updateConfig astParse registry config).1) :
    RaisesFirst astParse e config := by
  have hsizer := positionSizer_updateConfig astParse registry e config
  have hformula : config.dynamicQuantity = e.positionSizer.globalFormula := by
    rw [h.globalFormula, hsizer, PositionSizer.globalFormula_updateConfig]
  refine ⟨fun ticker => ?_, ?_, hformula, ?_⟩
  · rw [h.factors ticker, factorFor_updateConfig]
  · intro risk hmem
    have hportfolio := h.portfolio
    rw [portfolioRiskManager_updateConfig, Option.mem_def.mp hmem] at hportfolio
    exact (Option.some.inj hportfolio).symm
  · have hkept := h.assetParsers
    rw [hsizer, PositionSizer.updateConfig_of_same astParse hformula] at hkept
    rcases updateConfig_cases astParse registry e config with ⟨error, herror, -⟩ | ⟨-, heq⟩
    · rw [PositionSizer.updateConfig_of_same astParse hformula] at herror
      exact (rebuildAssetParsers_raises_iff _ _ _).mp
        ⟨⟨error, herror⟩, fun key => (hkept key).symm⟩
    · -- the assets are replaced before a strategy can be refused
      exfalso
      dsimp only at heq
      split at heq
      · rename_i hchanged
        have hassets := h.assets
        rw [heq] at hassets
        change e.assets = config.assets at hassets
        rw [hassets, assetsChanged_self] at hchanged
        cases hchanged
      · rw [heq] at hraises
        exact hraises rfl

variable (registry) in
theorem sameDecisions_of_raisesFirst {e : TradingExecutor} {config : TradingConfig}
    (h : RaisesFirst astParse e config) :
    SameDecisions e (e.updateConfig astParse registry config).1 := by
  obtain ⟨⟨error, herror⟩, hkept⟩ := (rebuildAssetParsers_raises_iff e.positionSizer config.assets
    e.positionSizer.assetParsers).mpr h.assetFormula
  have hsizer := positionSizer_updateConfig astParse registry e config
  have hsame := PositionSizer.updateConfig_of_same astParse h.globalFormula
  rw [← hsame] at herror hkept
  -- the sizer raises first, so the managers behind it are not reached
  rcases updateConfig_cases astParse registry e config with ⟨error', -, heq⟩ | ⟨hnone, -⟩
  · have hassets : (e.updateConfig astParse registry config).1.assets = e.assets := by
      rw [heq]
      rfl
    have hregistered : ∀ action,
        (e.updateConfig astParse registry config).1.registered action = e.registered action := by
      intro action
      rw [heq]
      rfl
    refine ⟨hassets.symm, fun action => (hregistered action).symm, fun ticker => ?_, ?_, ?_,
      fun key => ?_, ?_⟩
    · rw [factorFor_updateConfig, h.factors ticker]
    · rw [hsizer, PositionSizer.globalFormula_updateConfig, h.globalFormula]
    · rw [hsizer, hsame, (PositionSizer.global_rebuildAssetParsers _ _).2]
    · rw [hsizer, hkept key]
    · rw [portfolioRiskManager_updateConfig]
      cases hmanager : e.portfolioRiskManager with
      | none => rfl
      | some risk => exact congrArg some (h.portfolio risk hmanager).symm
  · rw [hnone] at herror
    cases herror

/-- The session keeps its commit hash when the executor raises. -/
theorem applyConfigUpdate_of_raises {app : Application} {config : TradingConfig} {error : String}
    (h : (app.executor.updateConfig astParse registry config).2 = some error)
    (commitHash : String) :
    applyConfigUpdate astParse registry app (.ok config) commitHash =
      ({ app with executor := (app.executor.updateConfig astParse registry config).1 },
        some error) := by
  unfold applyConfigUpdate
  simp only [h, andThen_some]

/-- **A failed update changes nothing** exactly when the first thing to raise is the formula of an
    asset, and all that is put in place before it was in place.

    The update writes as it goes: factors, portfolio configuration and the global formula come
    before the formulas of the assets, and nothing is taken back. -/
theorem failed_update_unaffected_iff (app : Application) (config : TradingConfig)
    (commitHash : String)
    (hraises : (app.executor.updateConfig astParse registry config).2 ≠ none) :
    (SameDecisions app.executor
        (applyConfigUpdate astParse registry app (.ok config) commitHash).1.executor ∧
      (applyConfigUpdate astParse registry app (.ok config) commitHash).1.sessionManager =
        app.sessionManager) ↔
      RaisesFirst astParse app.executor config := by
  obtain ⟨error, herror⟩ := Option.ne_none_iff_exists'.mp hraises
  rw [applyConfigUpdate_of_raises herror]
  constructor
  · rintro ⟨hsame, -⟩
    exact raisesFirst_of_sameDecisions hraises hsame
  · intro hfirst
    exact ⟨sameDecisions_of_raisesFirst registry hfirst, rfl⟩

end FailedUpdate

/-! ## §4 Two updates that raise -/

theorem noFormula_ne_empty : (none : Option String) ≠ some "" := (Option.some_ne_none "").symm

/-- The configuration of the running executor, but for its one asset. -/
def configOf (asset : TradingAsset) (h : (asset.strategyList.map (·.name)).Nodup) :
    TradingConfig where
  assets := [asset]
  dynamicQuantity := none
  portfolio := PortfolioConfig.default
  uniqueStrategies := by
    intro asset' hasset
    obtain rfl := List.mem_singleton.mp hasset
    exact h
  dynamicQuantity_ne_empty := noFormula_ne_empty

def runningApplication : Application where
  executor := btcExecutor
  sessionManager := ⟨some ⟨"s", Dict.empty, some "c0"⟩, true, none⟩

/-- A formula that is rejected, for the first asset. -/
def rejectedFormula : TradingConfig :=
  configOf { btcAsset (1 / 1000) 1 with dynamicQuantity := some "balance *" }
    (List.nodup_singleton _)

/-- A strategy of a class that there is not. -/
def unknownClass : TradingConfig :=
  configOf
    { btcAsset (1 / 1000) 1 with
      strategies := some
        [⟨some "Hammer", .static, none, none, some "HammerStrategy", true, 1, none⟩] }
    (List.nodup_singleton _)

/-- The rejected formula is the first change, so that nothing has happened. -/
theorem rejected_formula_unaffected :
    (btcExecutor.updateConfig noParse Dict.empty rejectedFormula).2 ≠ none ∧
      SameDecisions btcExecutor (applyConfigUpdate noParse Dict.empty runningApplication
        (.ok rejectedFormula) "c1").1.executor ∧
      (applyConfigUpdate noParse Dict.empty runningApplication
        (.ok rejectedFormula) "c1").1.sessionManager = runningApplication.sessionManager := by
  have hraises : (btcExecutor.updateConfig noParse Dict.empty rejectedFormula).2 ≠ none := by
    decide +kernel
  refine ⟨hraises, (failed_update_unaffected_iff runningApplication rejectedFormula "c1"
    hraises).mpr ⟨fun _ => rfl, ?_, rfl, ?_⟩⟩
  · intro risk hrisk
    obtain rfl := Option.some.inj hrisk
    rfl
  · exact ⟨[], _, [], [], _, rfl, rfl, rfl, fun _ => rfl⟩

/-- The unknown class is found when the assets are replaced and the strategies are gone. -/
theorem unknown_class_unregisters :
    (btcExecutor.updateConfig noParse Dict.empty unknownClass).2 ≠ none ∧
      (runningApplication.executor.registered (some .buy)).length = 1 ∧
      ((applyConfigUpdate noParse Dict.empty runningApplication (.ok unknownClass)
        "c1").1.executor.registered (some .buy)).length = 0 ∧
      ¬ (SameDecisions runningApplication.executor
          (applyConfigUpdate noParse Dict.empty runningApplication (.ok unknownClass)
            "c1").1.executor) := by
  have hone : (runningApplication.executor.registered (some .buy)).length = 1 := by decide +kernel
  have hzero : ((applyConfigUpdate noParse Dict.empty runningApplication (.ok unknownClass)
      "c1").1.executor.registered (some .buy)).length = 0 := by decide +kernel
  refine ⟨by decide +kernel, hone, hzero, ?_⟩
  intro hsame
  rw [hsame.registered, hzero] at hone
  cases hone

end CryptoTrading.Trading
