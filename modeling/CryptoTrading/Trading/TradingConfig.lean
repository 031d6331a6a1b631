import CryptoTrading.Consensus.Manager
import CryptoTrading.Expressions.StrictValidation

/-!
# Trading configurations

Embeds `api/interfaces/asset.py`, `src/configuration/strategy_config.py` and
`src/configuration/trading_config.py`, with the parser's constructor and the resolver that turns
the strategies of an asset into objects (`src/trading/strategies/strategy_resolver.py`).

What Python's `ast.parse` answers is a parameter.  Left out: the health configuration, which the
executor does not read, and the ranges that the fields of a loaded configuration are in.
-/

namespace CryptoTrading.Trading

open CryptoTrading.Lib
open CryptoTrading.Consensus (ConsensusFactor StrategySchedule TradingWindow actionValue)
open CryptoTrading.Expressions (Expr SyntaxError strip validate)

/-! ## §1 Strategies and assets -/

deriving instance DecidableEq for TradingWindow
deriving instance DecidableEq for StrategySchedule
deriving instance DecidableEq for ConsensusFactor

inductive StrategyType where
  | static
  | dynamic
  deriving DecidableEq

structure StrategyConfig where
  name : Option String
  type : StrategyType
  action : Option TradeAction
  expression : Option String
  className : Option String
  enabled : Bool
  weight : ℚ
  schedule : Option StrategySchedule
  deriving DecidableEq

inductive AssetSchedule where
  | everySecond
  | everyMinute
  | everyHour
  | everyDay
  | everyWeek
  | everyMonth
  deriving DecidableEq

inductive Timeframe where
  | min1
  | min5
  | min15
  | min30
  | hour1
  | hour2
  | hour4
  | hour12
  | day1
  | day7
  | mon1
  deriving DecidableEq

structure GuardConfig where
  cooldownTimeout : Option ℚ
  maxDrawdownPercentage : Option ℚ
  maxDrawdownPeriod : Option ℕ
  deriving DecidableEq

/-- `Asset`, with all that is configured for it. -/
structure TradingAsset extends Asset where
  name : String
  minQuantity : ℚ
  quantityDecimals : ℤ
  schedule : AssetSchedule
  candlesTimeframe : Timeframe
  guardConfig : Option GuardConfig
  keywords : Option (List String)
  strategies : Option (List StrategyConfig)
  consensus : Option ConsensusFactor
  dynamicQuantity : Option String
  enabled : Bool
  deriving DecidableEq

/-- `asset.strategies or []`. -/
def TradingAsset.strategyList (asset : TradingAsset) : List StrategyConfig :=
  asset.strategies.getD []

/-- `TradingConfig`, as its validators leave it. -/
structure TradingConfig where
  assets : List TradingAsset
  dynamicQuantity : Option String
  portfolio : PortfolioConfig
  uniqueStrategies : ∀ asset ∈ assets, (asset.strategyList.map (·.name)).Nodup
  dynamicQuantity_ne_empty : dynamicQuantity ≠ some ""
  deriving DecidableEq

/-- What `set_factors` reads of the assets. -/
def factorsOf (assets : List TradingAsset) : List (String × Option ConsensusFactor) :=
  assets.map fun asset => (asset.tickerSymbol, asset.consensus)

/-- `_assets_changed`. -/
def assetsChanged (configAssets currentAssets : List TradingAsset) : Bool :=
  configAssets.length ≠ currentAssets.length ||
    (configAssets.zip currentAssets).any fun pair =>
      pair.1.tickerSymbol ≠ pair.2.tickerSymbol || pair.1.enabled ≠ pair.2.enabled ||
        pair.1.strategyList ≠ pair.2.strategyList ||
        pair.1.dynamicQuantity ≠ pair.2.dynamicQuantity

/-! ## §2 Parsers -/

structure ExpressionParser where
  expression : String
  tree : Option Expr

section Parsers

variable (astParse : String → Except SyntaxError Expr)

/-- `ExpressionParser.__init__`. -/
def ExpressionParser.new (expression : String) : Except String ExpressionParser :=
  if strip expression = "" then .ok ⟨expression, none⟩
  else do
    validate astParse expression
    match astParse expression with
    | .error exc => .error exc.toText
    | .ok tree => .ok ⟨expression, some tree⟩

/-- The parser of a formula, if there is one that is not blank. -/
def formulaParser : Option String → Except String (Option ExpressionParser)
  | none => .ok none
  | some formula =>
    if strip formula = "" then .ok none
    else (ExpressionParser.new astParse (strip formula)).map some

/-! ## §3 The resolver -/

/-- What a strategy votes by: an expression, or a class of the package. -/
inductive StrategyBody where
  | expression (parser : ExpressionParser)
  | builtin (className : String)

/-- A strategy that the resolver made, before it is told from the other objects. -/
structure ResolvedStrategy where
  name : String
  action : Option TradeAction
  tickerSymbols : Option (Finset String)
  weight : ℚ
  schedule : Option StrategySchedule
  enabled : Bool
  body : StrategyBody

/-- An optional text in a message. -/
def printOption (text : Option String) : String := text.getD "None"

/-- `_validate_strategy`. -/
def StrategyConfig.validateStrategy (config : StrategyConfig) : Except String StrategyConfig :=
  match config.type with
  | .dynamic =>
    if config.name = none then .error "Dynamic strategy must define a name"
    else if config.className ≠ none then
      .error s!"Dynamic strategy '{printOption config.name}' cannot define a class_name"
    else
      match config.expression with
      | none => .ok config
      | some expression =>
        if config.action = none then
          .error s!"Strategy '{printOption config.name}' defines an expression but no action"
        else (validate astParse expression).map fun _ => config
  | .static =>
    if config.expression ≠ none then
      .error (s!"Strategy '{printOption config.name}' defines an expression but type is not " ++
        "DYNAMIC")
    else if config.className = none then
      let name := config.name.getD ""
      .error s!"Strategy '{name}' of type STATIC must define a class_name"
    else .ok { config with name := config.name <|> config.className }

/-- `_static_classes`: the strategies of the package, and what they vote on. -/
def builtinStrategyClasses : Dict String TradeAction :=
  Dict.ofList
    [("BearishEngulfingSellStrategy", .sell), ("BuyActiveOpenPositionsCountStrategy", .buy),
      ("BuyContextAwareGridStrategy", .buy), ("BuyLowerThanLowestBuyStrategy", .buy),
      ("BuyRebalanceStrategy", .buy), ("BuyVolatilityRiskStrategy", .buy),
      ("HammerAccumulationStrategy", .buy), ("RiskManagementBuyStrategy", .buy),
      ("SellHigherThanHighestBuyStrategy", .sell), ("SellProfitTakingStrategy", .sell),
      ("SellStopLossStrategy", .sell), ("ShootingStarSellStrategy", .sell)]

/-- `_bind_to_asset`. -/
def bindToAsset (strategy : ResolvedStrategy) (asset : TradingAsset) :
    Except String ResolvedStrategy :=
  if asset.tickerSymbol = "" then
    .error (s!"Cannot bind strategy '{strategy.name}': asset '{asset.name}' has no ticker " ++
      "symbol")
  else .ok { strategy with tickerSymbols := some {asset.tickerSymbol} }

variable (registry : Dict (Option String) StrategyConfig)

/-- `_resolve_dynamic`. -/
def resolveDynamic (entry : StrategyConfig) (asset : TradingAsset) :
    Except String ResolvedStrategy :=
  let predefined := registry.get? entry.name
  match entry.expression <|> predefined.bind (·.expression) with
  | none =>
    .error (s!"Dynamic strategy '{printOption entry.name}' for asset {asset.tickerSymbol} has " ++
      "no expression: define it inline or list it in the strategies file")
  | some expression =>
    match entry.action <|> predefined.bind (·.action) with
    | none =>
      .error (s!"Dynamic strategy '{printOption entry.name}' for asset {asset.tickerSymbol} " ++
        "has no action")
    | some action => do
      let config ← StrategyConfig.validateStrategy astParse
        { name := entry.name
          type := .dynamic
          action := some action
          expression := some expression
          className := none
          enabled := entry.enabled
          weight := entry.weight
          schedule := entry.schedule }
      let parser ← ExpressionParser.new astParse expression
      bindToAsset
        { name := printOption config.name
          action := config.action
          tickerSymbols := none
          weight := config.weight
          schedule := config.schedule
          enabled := config.enabled
          body := .expression parser } asset

/-- `_resolve_static`. -/
def resolveStatic (entry : StrategyConfig) (asset : TradingAsset) :
    Except String ResolvedStrategy :=
  match entry.className.bind fun className =>
      (builtinStrategyClasses.get? className).map fun action => (className, action) with
  | none =>
    .error (s!"Static strategy '{printOption entry.name}' for asset {asset.tickerSymbol} " ++
      s!"references unknown class '{printOption entry.className}'")
  | some (className, action) =>
    match entry.action.filter fun configured => configured ≠ action with
    | some configured =>
      .error (s!"Static strategy '{printOption entry.name}' for asset {asset.tickerSymbol} " ++
        s!"votes {actionValue action} but is configured as {actionValue configured}")
    | none =>
      bindToAsset
        { name := className
          action := some action
          tickerSymbols := none
          weight := entry.weight
          schedule := entry.schedule
          enabled := entry.enabled
          body := .builtin className } asset

/-- `_resolve_entry`. -/
def resolveEntry (entry : StrategyConfig) (asset : TradingAsset) :
    Except String ResolvedStrategy :=
  match entry.type with
  | .dynamic => resolveDynamic astParse registry entry asset
  | .static => resolveStatic entry asset

/-- `resolve_asset`. -/
def resolveAsset (asset : TradingAsset) : Except String (List ResolvedStrategy) :=
  if asset.enabled = false then .ok []
  else (asset.strategyList.filter (·.enabled)).mapM fun entry =>
    resolveEntry astParse registry entry asset

end Parsers

/-! ## §4 What is compared -/

@[simp] theorem assetsChanged_self (assets : List TradingAsset) :
    assetsChanged assets assets = false := by
  have hzip : assets.zip assets = assets.map fun asset => (asset, asset) := by
    simpa using List.zip_map' (f := id) (g := id) (l := assets)
  simp [assetsChanged, hzip]

/-- Assets of which `_assets_changed` sees no change agree, pair by pair, in what is compared. -/
theorem forall₂_of_assetsChanged_eq_false {configAssets currentAssets : List TradingAsset}
    (h : assetsChanged configAssets currentAssets = false) :
    List.Forall₂ (fun a b => a.tickerSymbol = b.tickerSymbol ∧ a.enabled = b.enabled ∧
      a.strategyList = b.strategyList ∧ a.dynamicQuantity = b.dynamicQuantity)
      configAssets currentAssets := by
  unfold assetsChanged at h
  rw [Bool.or_eq_false_iff, decide_eq_false_iff_not, not_not, List.any_eq_false] at h
  rw [List.forall₂_iff_zip]
  refine ⟨h.1, ?_⟩
  intro a b hab
  have hpair := h.2 (a, b) hab
  simp only [ne_eq, Bool.or_eq_true, decide_eq_true_eq, not_or, not_not] at hpair
  exact ⟨hpair.1.1.1, hpair.1.1.2, hpair.1.2, hpair.2⟩

/-! ## §5 What the resolver looks at -/

section Resolver

variable {A B : Type}

theorem toOption_bind (x : Except String A) (f : A → Except String B) :
    (x >>= f).toOption = x.toOption.bind fun a => (f a).toOption := by
  cases x <;> rfl

theorem toOption_mapM (f : A → Except String B) (as : List A) :
    (as.mapM f).toOption = as.mapM fun a => (f a).toOption := by
  induction as with
  | nil => rfl
  | cons a rest ih =>
    simp only [List.mapM_cons, toOption_bind, ih]
    rfl

variable {astParse : String → Except SyntaxError Expr}
  {registry : Dict (Option String) StrategyConfig} {a b : TradingAsset}

/-- Beyond its ticker, an asset is only mentioned in messages. -/
theorem toOption_bindToAsset (hticker : a.tickerSymbol = b.tickerSymbol)
    (strategy : ResolvedStrategy) :
    (bindToAsset strategy a).toOption = (bindToAsset strategy b).toOption := by
  unfold bindToAsset
  rw [hticker]
  split <;> rfl

theorem toOption_resolveEntry (hticker : a.tickerSymbol = b.tickerSymbol)
    (entry : StrategyConfig) :
    (resolveEntry astParse registry entry a).toOption =
      (resolveEntry astParse registry entry b).toOption := by
  unfold resolveEntry
  cases entry.type with
  | dynamic =>
    simp only [resolveDynamic]
    split
    · rfl
    · split
      · rfl
      · simp only [toOption_bind, toOption_bindToAsset hticker]
  | static =>
    simp only [resolveStatic]
    split
    · rfl
    · split
      · rfl
      · exact toOption_bindToAsset hticker _

variable (astParse registry) in
/-- What is compared of an asset decides what the resolver makes of it. -/
theorem toOption_resolveAsset (hticker : a.tickerSymbol = b.tickerSymbol)
    (henabled : a.enabled = b.enabled) (hstrategies : a.strategyList = b.strategyList) :
    (resolveAsset astParse registry a).toOption =
      (resolveAsset astParse registry b).toOption := by
  unfold resolveAsset
  rw [henabled, hstrategies]
  split
  · rfl
  · rw [toOption_mapM, toOption_mapM]
    simp only [toOption_resolveEntry hticker]

end Resolver

end CryptoTrading.Trading
