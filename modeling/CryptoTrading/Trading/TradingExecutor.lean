import CryptoTrading.Lib.Raising
import CryptoTrading.Protection.PortfolioRiskManager
import CryptoTrading.Session.SessionManager
import CryptoTrading.Trading.TradingConfig

/-!
# The executor and its configuration

Embeds the parts of `src/trading/trading_executor.py` that a configuration reaches, with
`src/trading/sizing/position_sizer.py`, how `src/application.py` builds the executor at the
start, and how it hands it a new configuration while it runs.

An update changes four components in place, one after the other, and may raise in between.  All
of it is modelled on the state afterwards and the error.
-/

namespace CryptoTrading.Trading

open CryptoTrading.Lib
open CryptoTrading.Consensus (ConsensusManager ConsensusFactor TradingStrategy StrategySchedule)
open CryptoTrading.Expressions (Expr SyntaxError)
open CryptoTrading.Protection (PortfolioRiskManager)
open CryptoTrading.Session (SessionManager TradingSession)

/-! ## §1 Sizing formulas -/

structure PositionSizer where
  globalFormula : Option String
  globalParser : Option ExpressionParser
  assetParsers : Dict String ExpressionParser

namespace PositionSizer

variable (astParse : String → Except SyntaxError Expr)

/-- One round of the loop in `rebuild_asset_parsers`. -/
def parseAsset (sizer : PositionSizer) (asset : TradingAsset) : Raising PositionSizer String :=
  match formulaParser astParse asset.dynamicQuantity with
  | .error error => (sizer, some error)
  | .ok none => (sizer, none)
  | .ok (some parser) =>
    ({ sizer with assetParsers := sizer.assetParsers.set asset.key parser }, none)

/-- `rebuild_asset_parsers`. -/
def rebuildAssetParsers (sizer : PositionSizer) (assets : List TradingAsset) :
    Raising PositionSizer String :=
  forEach (parseAsset astParse) { sizer with assetParsers := Dict.empty } assets

/-- `__init__`.  Without assets there are no parsers either way. -/
def new (globalFormula : Option String) (assets : List TradingAsset) :
    Except String PositionSizer := do
  let globalParser ← formulaParser astParse globalFormula
  match rebuildAssetParsers astParse ⟨globalFormula, globalParser, Dict.empty⟩ assets with
  | (sizer, none) => .ok sizer
  | (_, some error) => .error error

/-- The first part of `update_config`: the formula is in place before it is parsed. -/
def updateFormula (sizer : PositionSizer) (dynamicQuantity : Option String) :
    Raising PositionSizer String :=
  if dynamicQuantity ≠ sizer.globalFormula then
    match formulaParser astParse dynamicQuantity with
    | .error error => ({ sizer with globalFormula := dynamicQuantity }, some error)
    | .ok parser =>
      ({ sizer with globalFormula := dynamicQuantity, globalParser := parser }, none)
  else (sizer, none)

/-- `update_config`. -/
def updateConfig (sizer : PositionSizer) (config : TradingConfig) :
    Raising PositionSizer String :=
  andThen (updateFormula astParse sizer config.dynamicQuantity) fun sizer =>
    rebuildAssetParsers astParse sizer config.assets

end PositionSizer

/-! ## §2 Registered strategies -/

/-- The strategy objects that the executor made and registered.  `nextObject` numbers them. -/
structure Registrations where
  consensusManager : ConsensusManager
  strategies : List (TradingStrategy × StrategyBody)
  nextObject : ℕ

/-- The object of a resolved strategy. -/
def ResolvedStrategy.toStrategy (strategy : ResolvedStrategy) (object : ℕ) : TradingStrategy where
  object := object
  name := strategy.name
  action := strategy.action
  tickerSymbols := strategy.tickerSymbols
  weight := strategy.weight
  schedule := strategy.schedule
  enabled := strategy.enabled

namespace Registrations

/-- A manager that has just been made. -/
def new : Registrations := ⟨ConsensusManager.new, [], 0⟩

/-- Register one strategy and note it. -/
def register (r : Registrations) (resolved : ResolvedStrategy) : Raising Registrations String :=
  let strategy := resolved.toStrategy r.nextObject
  match r.consensusManager.registerStrategy strategy with
  | (manager, some error) => ({ r with consensusManager := manager }, some error)
  | (manager, none) =>
    (⟨manager, r.strategies ++ [(strategy, resolved.body)], r.nextObject + 1⟩, none)

variable (astParse : String → Except SyntaxError Expr)
  (registry : Dict (Option String) StrategyConfig)

/-- One round of the outer loop in `_register_asset_strategies`. -/
def registerAsset (r : Registrations) (asset : TradingAsset) : Raising Registrations String :=
  match resolveAsset astParse registry asset with
  | .error error => (r, some error)
  | .ok strategies => forEach register r strategies

/-- `_register_asset_strategies`. -/
def registerAssetStrategies (r : Registrations) (assets : List TradingAsset) :
    Raising Registrations String :=
  forEach (registerAsset astParse registry) r assets

/-- `_unregister_asset_strategies`. -/
def unregisterAssetStrategies (r : Registrations) : Registrations :=
  { r with
    consensusManager := r.strategies.foldl (fun m s => m.unregisterStrategy s.1) r.consensusManager
    strategies := [] }

end Registrations

/-! ## §3 The executor -/

structure TradingExecutor extends Registrations where
  assets : List TradingAsset
  positionSizer : PositionSizer
  portfolioRiskManager : Option PortfolioRiskManager

section Executor

variable (astParse : String → Except SyntaxError Expr)
  (registry : Dict (Option String) StrategyConfig)

/-- `_startup_live`: the managers are made without the portfolio configuration. -/
def startExecutor (config : TradingConfig) : Except String TradingExecutor := do
  let positionSizer ← PositionSizer.new astParse config.dynamicQuantity config.assets
  let blank := { Registrations.new with
    consensusManager := ConsensusManager.new.setFactors (factorsOf config.assets) }
  match blank.registerAssetStrategies astParse registry config.assets with
  | (registrations, none) =>
    .ok
      { registrations with
        assets := config.assets
        positionSizer := positionSizer
        portfolioRiskManager := some
          (PortfolioRiskManager.init (config.assets.map (·.toAsset)) none none none) }
  | (_, some error) => .error error

namespace TradingExecutor

/-- The part of `update_config` that cannot fail: the factors and the portfolio configuration.
    A configuration always has the latter. -/
def updateManagers (e : TradingExecutor) (config : TradingConfig) : TradingExecutor :=
  { e with
    consensusManager := e.consensusManager.setFactors (factorsOf config.assets)
    portfolioRiskManager := e.portfolioRiskManager.map (·.updateConfig config.portfolio) }

/-- The update of the position sizer. -/
def updateSizer (e : TradingExecutor) (config : TradingConfig) : Raising TradingExecutor String :=
  let r := e.positionSizer.updateConfig astParse config
  ({ e with positionSizer := r.1 }, r.2)

/-- The replacement of the assets and their strategies. -/
def replaceAssets (e : TradingExecutor) (assets : List TradingAsset) :
    Raising TradingExecutor String :=
  let r := e.unregisterAssetStrategies.registerAssetStrategies astParse registry assets
  ({ e with toRegistrations := r.1, assets := assets }, r.2)

/-- `update_config`. -/
def updateConfig (e : TradingExecutor) (config : TradingConfig) :
    Raising TradingExecutor String :=
  andThen ((e.updateManagers config).updateSizer astParse config) fun e =>
    if assetsChanged config.assets e.assets then e.replaceAssets astParse registry config.assets
    else (e, none)

end TradingExecutor

/-! ## §4 The application -/

/-- `SessionManager.update_commit_hash`. -/
def updateCommitHash (sm : SessionManager) (commitHash : String) : SessionManager :=
  { sm with currentSession := sm.currentSession.map fun session =>
      { session with commitHash := some commitHash } }

structure Application where
  executor : TradingExecutor
  sessionManager : SessionManager

/-- `_apply_config_update`, from what checking out and validating the commit gives.  A commit
    that cannot be read is logged; an error of the executor goes up to the caller. -/
def applyConfigUpdate (app : Application) (checkedOut : Except String TradingConfig)
    (commitHash : String) : Raising Application String :=
  match checkedOut with
  | .error _ => (app, none)
  | .ok updated =>
    let r := app.executor.updateConfig astParse registry updated
    andThen ({ app with executor := r.1 }, r.2) fun app =>
      ({ app with sessionManager := updateCommitHash app.sessionManager commitHash }, none)

end Executor

/-! ## §5 What decisions depend on -/

/-- A registered strategy, without the number of its object. -/
structure StrategyView where
  name : String
  action : Option TradeAction
  tickerSymbols : Option (Finset String)
  weight : ℚ
  schedule : Option StrategySchedule
  enabled : Bool
  body : Option StrategyBody

namespace Registrations

/-- What a registered object votes by. -/
def bodyOf (r : Registrations) (strategy : TradingStrategy) : Option StrategyBody :=
  (r.strategies.find? fun s => s.1.object = strategy.object).map Prod.snd

def view (r : Registrations) (strategy : TradingStrategy) : StrategyView where
  name := strategy.name
  action := strategy.action
  tickerSymbols := strategy.tickerSymbols
  weight := strategy.weight
  schedule := strategy.schedule
  enabled := strategy.enabled
  body := r.bodyOf strategy

/-- The strategies registered for an action. -/
def registered (r : Registrations) (action : Option TradeAction) : List StrategyView :=
  (r.consensusManager.strategies.getD action []).map r.view

end Registrations

/-- Two executors decide by the same data: objects are compared by what is in them. -/
structure SameDecisions (e f : TradingExecutor) : Prop where
  assets : e.assets = f.assets
  registered : ∀ action, e.registered action = f.registered action
  factors : ∀ ticker, e.consensusManager.factorFor ticker = f.consensusManager.factorFor ticker
  globalFormula : e.positionSizer.globalFormula = f.positionSizer.globalFormula
  globalParser : e.positionSizer.globalParser = f.positionSizer.globalParser
  assetParsers : ∀ key,
    e.positionSizer.assetParsers.get? key = f.positionSizer.assetParsers.get? key
  portfolio : e.portfolioRiskManager.map (·.portfolioConfig) =
    f.portfolioRiskManager.map (·.portfolioConfig)

end CryptoTrading.Trading
