import CryptoTrading.Accounts.AccountState
import CryptoTrading.Protection.Guard
import CryptoTrading.Protection.QuotePortfolio

/-!
# The portfolio risk manager

Embeds `src/trading/protection/portfolio_risk_manager.py`: one quote portfolio for each
exchange and quote currency, the reservations of open orders, and the decision whether
an order may be placed.

`get_portfolio` creates a missing portfolio, so asking for one may extend the
dictionary.  `upper` is the upper-casing of strings.  Left out: the lock (each method
body is one step) and the log lines.

Decimals are exact rationals: the rounding of a context to 28 digits is left out.
-/

namespace CryptoTrading.Protection

open CryptoTrading.Lib CryptoTrading.Accounts

/-- Exchange and quote currency. -/
abbrev PortfolioKey := String × String

structure PortfolioRiskManager where
  portfolios : Dict PortfolioKey QuotePortfolio
  portfolioConfig : PortfolioConfig
  explicitDrawdown : Option ℚ
  explicitConcentration : Option ℚ

namespace PortfolioRiskManager

/-! ## §1 Portfolios -/

/-- The portfolio under the key, a new one when it is missing. -/
def portfolioAt (m : PortfolioRiskManager) (key : PortfolioKey) : QuotePortfolio :=
  (m.portfolios.get? key).getD (QuotePortfolio.new key.1 key.2)

/-- Store a portfolio under its key. -/
def setPortfolio (m : PortfolioRiskManager) (key : PortfolioKey) (pf : QuotePortfolio) :
    PortfolioRiskManager :=
  { m with portfolios := m.portfolios.set key pf }

/-- `PortfolioRiskManager.get_portfolio`, as far as the dictionary is concerned. -/
def ensurePortfolio (m : PortfolioRiskManager) (key : PortfolioKey) : PortfolioRiskManager :=
  m.setPortfolio key (m.portfolioAt key)

/-- `PortfolioRiskManager.register_asset`. -/
def registerAsset (m : PortfolioRiskManager) (asset : Asset) : PortfolioRiskManager :=
  m.ensurePortfolio asset.portfolioKey

/-- `PortfolioRiskManager.__init__`; a missing configuration is the default one. -/
def init (assets : List Asset) (portfolioConfig : Option PortfolioConfig)
    (maxPortfolioDrawdown maxAssetConcentration : Option ℚ) : PortfolioRiskManager :=
  assets.foldl registerAsset
    { portfolios := Dict.empty
      portfolioConfig := portfolioConfig.getD PortfolioConfig.default
      explicitDrawdown := maxPortfolioDrawdown
      explicitConcentration := maxAssetConcentration }

/-- `PortfolioRiskManager.update_config`. -/
def updateConfig (m : PortfolioRiskManager) (portfolioConfig : PortfolioConfig) :
    PortfolioRiskManager :=
  { m with portfolioConfig := portfolioConfig }

theorem portfolioAt_setPortfolio (m : PortfolioRiskManager) (key key' : PortfolioKey)
    (pf : QuotePortfolio) :
    (m.setPortfolio key pf).portfolioAt key' = if key' = key then pf else m.portfolioAt key' := by
  unfold portfolioAt setPortfolio
  rw [Dict.get?_set]
  split <;> rfl

@[simp] theorem portfolioAt_setPortfolio_self (m : PortfolioRiskManager) (key : PortfolioKey)
    (pf : QuotePortfolio) : (m.setPortfolio key pf).portfolioAt key = pf := by
  rw [portfolioAt_setPortfolio, if_pos rfl]

theorem portfolioAt_setPortfolio_of_ne (m : PortfolioRiskManager) {key key' : PortfolioKey}
    (pf : QuotePortfolio) (h : key' ≠ key) :
    (m.setPortfolio key pf).portfolioAt key' = m.portfolioAt key' := by
  rw [portfolioAt_setPortfolio, if_neg h]

theorem portfolioAt_of_notMem (m : PortfolioRiskManager) {key : PortfolioKey}
    (h : key ∉ m.portfolios.keys) : m.portfolioAt key = QuotePortfolio.new key.1 key.2 := by
  unfold portfolioAt
  rw [(Dict.get?_eq_none_iff m.portfolios key).mpr h]
  rfl

/-! ## §2 Balances, prices and positions -/

def updateCashBalance (m : PortfolioRiskManager) (exchange quoteCurrency : String) (balance : ℚ) :
    PortfolioRiskManager :=
  let pf := m.portfolioAt (exchange, quoteCurrency)
  m.setPortfolio (exchange, quoteCurrency)
    (if pf.totalCash ≠ balance then pf.updateCash balance else pf)

def updateMarketData (m : PortfolioRiskManager) (asset : Asset) (closePrice : ℚ) :
    PortfolioRiskManager :=
  m.setPortfolio asset.portfolioKey
    ((m.portfolioAt asset.portfolioKey).updateAssetMarkPrice asset.tickerSymbol closePrice)

def updatePosition (m : PortfolioRiskManager) (asset : Asset) (positionQty : ℚ) :
    PortfolioRiskManager :=
  m.setPortfolio asset.portfolioKey
    ((m.portfolioAt asset.portfolioKey).updateAssetPosition asset.tickerSymbol positionQty)

/-! ## §3 Reservations -/

/-- `PortfolioRiskManager.reserve_order_cash`. -/
def reserveOrderCash (m : PortfolioRiskManager) (asset : Asset) (orderUuid : String) (amount : ℚ) :
    PortfolioRiskManager × Bool :=
  let (pf, reserved) := (m.portfolioAt asset.portfolioKey).reserveCash orderUuid amount
  (m.setPortfolio asset.portfolioKey pf, reserved)

/-- `PortfolioRiskManager.release_order_cash`. -/
def releaseOrderCash (m : PortfolioRiskManager) (exchange quoteCurrency orderUuid : String) :
    PortfolioRiskManager × ℚ :=
  let (pf, released) := (m.portfolioAt (exchange, quoteCurrency)).releaseCash orderUuid
  (m.setPortfolio (exchange, quoteCurrency) pf, released)

/-- `PortfolioRiskManager.release_order_cash_by_uuid`: the loop stops at the first portfolio
    that releases something.  The ones before it hold nothing for the order and stay as
    they are. -/
def releaseOrderCashByUuid (m : PortfolioRiskManager) (orderUuid : String) :
    PortfolioRiskManager × ℚ :=
  match m.portfolios.keys.find? fun key => 0 < ((m.portfolioAt key).releaseCash orderUuid).2 with
  | some key =>
    let (pf, released) := (m.portfolioAt key).releaseCash orderUuid
    (m.setPortfolio key pf, released)
  | none => (m, 0)

/-- `PortfolioRiskManager.reconcile_open_orders`. -/
def reconcileOpenOrders (m : PortfolioRiskManager) (activeOrderUuids : List String) :
    PortfolioRiskManager × ℚ :=
  ({ m with
      portfolios := m.portfolios.mapValues fun pf => (pf.reconcileOrders activeOrderUuids).1 },
    (m.portfolios.values.map fun pf => (pf.reconcileOrders activeOrderUuids).2).sum)

/-! ## §4 Events -/

/-- `ticker_symbol.split("_")[-1] if "_" in ticker_symbol else None`. -/
def quoteOfTicker (tickerSymbol : String) : Option String :=
  if tickerSymbol.toList.contains '_' then
    some (String.ofList (tickerSymbol.toList.reverse.takeWhile (· ≠ '_')).reverse)
  else none

/-- The portfolio an `OrderSubmittedEvent` is booked in: the first one of the exchange whose
    quote currency is the one in the ticker symbol, if the symbol shows one. -/
def submittedTarget (m : PortfolioRiskManager) (order : Order) : Option PortfolioKey :=
  let quote := quoteOfTicker order.tickerSymbol
  m.portfolios.keys.find? fun key =>
    key.1 = order.providerName && (quote = none || quote = some key.2)

/-- `fill_price or price`: a missing and a zero fill price are false. -/
def submittedPrice (order : Order) : ℚ :=
  match order.fillPrice with
  | some p => if p = 0 then order.price else p
  | none => order.price

/-- `PortfolioRiskManager._on_order_submitted`. -/
def onOrderSubmitted (m : PortfolioRiskManager) (order : Order) : PortfolioRiskManager :=
  if order.tradeAction = .buy then
    let cost := submittedPrice order * order.quantity
    match m.submittedTarget order with
    | some key =>
      let pf := m.portfolioAt key
      -- only this portfolio is asked whether it has the order
      if pf.openOrders.contains order.uuid then m
      else m.setPortfolio key (pf.reserveCash order.uuid cost).1
    | none => m
  else m

/-- The terminal events of an order.  Their three handlers are the same. -/
inductive TerminalEvent where
  | filled | cancelled | rejected
  deriving DecidableEq, Repr

/-- `PortfolioRiskManager._on_order_filled`, `_on_order_cancelled`, `_on_order_rejected`. -/
def onTerminalEvent (m : PortfolioRiskManager) (_event : TerminalEvent) (orderUuid : String) :
    PortfolioRiskManager :=
  (m.releaseOrderCashByUuid orderUuid).1

/-- `PortfolioRiskManager._on_market_data`: every portfolio that knows the symbol is updated. -/
def onMarketData (m : PortfolioRiskManager) (tickerSymbol : String) (closePrice : ℚ) :
    PortfolioRiskManager :=
  { m with portfolios := m.portfolios.mapValues fun pf =>
      if pf.assetPositions.contains tickerSymbol || pf.assetMarkPrices.contains tickerSymbol then
        pf.updateAssetMarkPrice tickerSymbol closePrice
      else pf }

/-- Whether a balance event is about the portfolio under the key. -/
def balanceTarget (upper : String → String) (event : BalanceChangedEvent) (key : PortfolioKey) :
    Bool :=
  (isFalsyStr event.exchange || upper key.1 = upper (event.exchange.getD "")) &&
    upper key.2 = upper event.currency

/-- `PortfolioRiskManager._on_balance_changed`. -/
def onBalanceChanged (upper : String → String) (m : PortfolioRiskManager)
    (event : BalanceChangedEvent) : PortfolioRiskManager :=
  { m with portfolios := m.portfolios.mapEntries fun key pf =>
      -- whichever event comes, its amount is taken; the version is not looked at
      if balanceTarget upper event key && pf.totalCash ≠ event.available then
        pf.updateCash event.available
      else pf }

/-! ## §5 Risk metrics and the trade decision -/

/-- The metrics of a portfolio as the guard sees them for one asset. -/
def riskMetricsOf (pf : QuotePortfolio) (tickerSymbol : String) : PortfolioRiskMetrics where
  totalEquity := pf.getTotalEquity
  totalCash := pf.totalCash
  reservedCash := pf.reservedCash
  availableCash := pf.availableCash
  investedNotional := pf.getTotalHoldingsNotional
  totalExposurePct :=
    if pf.getTotalEquity > 0 then pf.getTotalHoldingsNotional / pf.getTotalEquity else 0
  assetNotional := pf.getAssetNotional tickerSymbol
  assetConcentrationPct :=
    if pf.getTotalEquity > 0 then pf.getAssetNotional tickerSymbol / pf.getTotalEquity else 0
  peakEquity := pf.peakEquity
  drawdownPct := pf.getDrawdown
  dailyLossPct := 0
  openPositionCount := (pf.assetPositions.values.filter (0 < ·)).length

/-- The limits of an order: the resolved configuration with the explicit limits of the
    manager on top. -/
def effectiveConfig (m : PortfolioRiskManager) (asset : Asset) (regime : MarketRegime) :
    EffectivePortfolioConfig :=
  let config := PortfolioPolicyResolver.resolve m.portfolioConfig asset (some regime)
  { config with
    exposure := { config.exposure with
      maxPerAsset := m.explicitConcentration.orElse fun _ => config.exposure.maxPerAsset }
    guard := { config.guard with
      maxDrawdown := m.explicitDrawdown.orElse fun _ => config.guard.maxDrawdown } }

/-- `PortfolioRiskManager.can_trade`: `marketData` is the close price that comes along. -/
def canTrade (m : PortfolioRiskManager) (asset : Asset) (tradeAction : TradeAction)
    (proposedOrderCost : ℚ) (marketData : Option ℚ) (regime : Option MarketRegime) :
    PortfolioRiskManager × GuardDecision :=
  if tradeAction = .sell then (m, ⟨true, []⟩)
  else
    -- the decision stores the price before it values the portfolio
    let m := match marketData with
      | some closePrice => m.updateMarketData asset closePrice
      | none => m.ensurePortfolio asset.portfolioKey
    let currentRegime := regime.getD .unknown
    let pf := m.portfolioAt asset.portfolioKey
    (m, QuotePortfolioGuard.evaluate asset.tickerSymbol proposedOrderCost
      (riskMetricsOf pf asset.tickerSymbol) currentRegime (m.effectiveConfig asset currentRegime))

end PortfolioRiskManager

end CryptoTrading.Protection
