import CryptoTrading.Analytics.TradeAttribution
import CryptoTrading.Api.MarketData
import CryptoTrading.Orders.OrderManager
import CryptoTrading.Session.PositionReconciler
import CryptoTrading.Trading.TradingExecutor

/-!
# Order passes

Embeds the passes of `src/trading/trading_executor.py`: `create_buy_order` and `create_sell_order`
go through the assets one by one, and each asset comes to an order, to a decision against one, or
to nothing.  With them `calculate_quantity` of `src/trading/sizing/position_sizer.py`.

A pass works on the session, the order manager and the portfolios of the earlier modules.  What the
other components answer in a round is given with it (`Answers`), and so is where one of them
raises; the pass logs the error and goes on with the next asset, and what was changed stays.

Events are delivered where they are published.  Left out: the events that none of these components
listens to, log lines, the snapshots that a decision keeps of the market, the regime, the votes,
the portfolio and the health conditions, and the regime figures that are only stored.
-/

namespace CryptoTrading.Trading

open CryptoTrading.Analytics (resolveStrategyAttributions)
open CryptoTrading.Consensus (ConsensusDecision)
open CryptoTrading.Lib
open CryptoTrading.Orders (Execution OrderManager)
open CryptoTrading.Protection (GuardDecision MarketRegime PortfolioRiskManager)
open CryptoTrading.Session (SessionManager TradingContext)

/-! ## §1 Decisions -/

inductive DecisionStatus where
  | executed | rejected | skipped
  deriving DecidableEq, Repr

/-- The members of `DecisionRejectedReason` that a pass records. -/
inductive DecisionRejectedReason where
  | noQuorum | riskRejected | insufficientBalance | negativeEdge | outstandingIntent | healthHalt
  deriving DecidableEq, Repr

def DecisionRejectedReason.value : DecisionRejectedReason → String
  | .noQuorum => "NO_QUORUM"
  | .riskRejected => "RISK_REJECTED"
  | .insufficientBalance => "INSUFFICIENT_BALANCE"
  | .negativeEdge => "NEGATIVE_EDGE"
  | .outstandingIntent => "OUTSTANDING_INTENT"
  | .healthHalt => "HEALTH_HALT"

structure SizingSnapshot where
  formula : Option String
  calculatedQuantity : Option ℚ
  minQuantity : ℚ
  finalQuantity : Option ℚ
  orderCost : Option ℚ
  price : Option ℚ
  deriving DecidableEq

structure RiskEvaluation where
  passed : Bool
  rejectionReason : Option String
  deriving DecidableEq

structure TradingDecision where
  decisionId : String
  tickerSymbol : String
  exchange : String
  tradeAction : TradeAction
  status : DecisionStatus
  rejectionReason : Option String
  commitHash : String
  winningStrategy : Option String
  strategyAttributions : Option (List (String × ℚ))
  sizingSnapshot : SizingSnapshot
  riskEvaluation : RiskEvaluation
  healthAllowed : Option Bool
  resultingOrderId : Option String
  deriving DecidableEq

/-! ## §2 What a round is given -/

structure Fees where
  makerFeePct : ℚ
  takerFeePct : ℚ
  deriving DecidableEq

/-- What `init_asset_balance` puts in a new context. -/
structure InitialBalance where
  openingBalance : ℚ
  positionQty : ℚ
  entryPrice : ℚ
  timestamp : ℚ
  deriving DecidableEq

/-- How `_evaluate_decision` ends: the protection manager halts the asset, or the strategies come
    to a decision. -/
inductive ConsensusAnswer where
  | raises
  | guardHalt
  | decided (decision : ConsensusDecision)

/-- What a sizing formula gives.  An error of the evaluation is caught. -/
inductive FormulaResult where
  | raises
  | nothing
  | quantity (q : ℚ)
  deriving DecidableEq

/-- The answers of the other components; `none` where one raises. -/
structure Answers where
  /-- `none` when `init_asset_balance` gives up. -/
  initialBalance : Option InitialBalance
  quoteBalance : Option ℚ
  marketData : Option MarketData
  /-- The fees may be missing. -/
  fees : Option (Option Fees)
  candlesRaise : Bool
  regime : Option MarketRegime
  consensus : ConsensusAnswer
  intentQueryRaises : Bool
  /-- The formula of the asset with its result, if there is a formula.  Fetching the parser and
      the balance comes before the evaluation and may raise. -/
  formula : Option (Option (String × FormulaResult))
  /-- Whether the health monitor permits the order, if there is a monitor. -/
  healthAllowed : Option (Option Bool)
  baseBalance : Option ℚ
  decisionId : String
  orderUuid : String
  execution : Execution

/-- One asset of a pass. -/
structure Round where
  asset : TradingAsset
  answers : Answers

/-! ## §3 Prices and quantities -/

/-- `quantize` to a number of digits, away from zero. -/
def roundUp (digits : ℤ) (x : ℚ) : ℚ :=
  (if 0 ≤ x then (⌈x * 10 ^ digits⌉ : ℚ) else ⌊x * 10 ^ digits⌋) / 10 ^ digits

/-- `quantize` to a number of digits, towards zero. -/
def roundDown (digits : ℤ) (x : ℚ) : ℚ :=
  (if 0 ≤ x then (⌊x * 10 ^ digits⌋ : ℚ) else ⌈x * 10 ^ digits⌉) / 10 ^ digits

/-- `_calculate_price`; without fees it raises. -/
def calculatePrice (asset : TradingAsset) (marketData : MarketData) (fees : Option Fees) :
    Option ℚ :=
  fees.map fun fees =>
    roundUp asset.quoteDecimals (marketData.closePrice * (1 + fees.makerFeePct / 100))

/-- The spread in percent of the bid price, zero when it is not known. -/
def spreadPct (marketData : MarketData) : ℚ :=
  match marketData.bidPrice, marketData.askPrice with
  | some bid, some ask => if bid > 0 then (ask - bid) / bid * 100 else 0
  | _, _ => 0

/-- `_validate_execution_edge`. -/
def validateExecutionEdge (marketData : MarketData) (fees : Option Fees) : Bool :=
  match fees with
  | none => true
  | some fees => ¬ (fees.makerFeePct + fees.takerFeePct + spreadPct marketData > 10)

/-- `PositionSizer.calculate_quantity`. -/
def calculateQuantity (asset : TradingAsset) (formula : Option (String × FormulaResult))
    (tradingContext : Option TradingContext) : ℚ :=
  match formula, tradingContext with
  | some (_, .quantity q), some _ =>
    let quantity := roundDown asset.quantityDecimals q
    if quantity < asset.minQuantity then asset.minQuantity else max quantity asset.minQuantity
  | _, _ => asset.minQuantity

/-- The strategies in favour with their weights. -/
def positiveVotes (d : ConsensusDecision) : List (String × ℚ) :=
  (d.votes.entries.filter (·.2)).map fun e => (e.1, d.weights.getD e.1 1)

/-- The heavier one of two, the first by name when they weigh the same. -/
def heavier (a b : String × ℚ) : String × ℚ :=
  if a.2 > b.2 ∨ (a.2 = b.2 ∧ a.1 < b.1) then a else b

/-- `_resolve_winning_strategy`: the first one in the order of the source. -/
def resolveWinningStrategy (d : ConsensusDecision) : Option String :=
  match positiveVotes d with
  | [] => none
  | vote :: rest => some (rest.foldl heavier vote).1

/-- `_format_strategy_votes`. -/
def formatStrategyVotes (d : ConsensusDecision) : Option (List (String × String)) :=
  if d.votes.entries = [] then none
  else some (d.votes.entries.map fun e => (e.1, if e.2 then "TRUE" else "FALSE"))

/-- The value of a regime. -/
def regimeValue : MarketRegime → String
  | .trendingUp => "TRENDING_UP"
  | .trendingDown => "TRENDING_DOWN"
  | .ranging => "RANGING"
  | .highVolatility => "HIGH_VOLATILITY"
  | .lowVolatility => "LOW_VOLATILITY"
  | .illiquid => "ILLIQUID"
  | .normal => "NORMAL"
  | .extreme => "EXTREME"
  | .unknown => "UNKNOWN"

/-! ## §4 The managers -/

/-- `SessionManager.update_available_balance`. -/
def updateAvailableBalance (sm : SessionManager) (assetKey : String) (availableBalance : ℚ) :
    SessionManager :=
  match sm.getTradingContext assetKey with
  | none => sm
  | some ctx => sm.setContext assetKey { ctx with availableBalance := availableBalance }

/-- What the executor changes: the session is that of the order manager, `decisions` are those it
    recorded, in order, and `activityQueue` are the orders it reported as opened. -/
structure Managers where
  orderManager : OrderManager
  portfolioRiskManager : Option PortfolioRiskManager
  decisions : List TradingDecision
  activityQueue : List Order

namespace Managers

def sessionManager (s : Managers) : SessionManager := s.orderManager.sessionManager

def setSession (s : Managers) (sm : SessionManager) : Managers :=
  { s with orderManager := { s.orderManager with sessionManager := sm } }

def updatePortfolios (s : Managers) (f : PortfolioRiskManager → PortfolioRiskManager) : Managers :=
  { s with portfolioRiskManager := s.portfolioRiskManager.map f }

/-- `_record_decision`. -/
def recordDecision (s : Managers) (decision : TradingDecision) : Managers :=
  { s with decisions := s.decisions ++ [decision] }

/-- The trading context of an asset, which `init_asset_balance` makes when there is none; `none`
    when it gives up. -/
def initContext (s : Managers) (r : Round) : Option Managers :=
  match s.sessionManager.getTradingContext r.asset.key with
  | some _ => some s
  | none => do
    let balance ← r.answers.initialBalance
    let sm ← s.sessionManager.initAssetBalance r.asset.toAsset balance.openingBalance
      balance.positionQty balance.entryPrice balance.timestamp
    return s.setSession sm

/-- What `_prepare_trade_context` returns, without the candles. -/
structure TradeContext where
  availableBalance : ℚ
  marketData : MarketData
  fees : Option Fees

/-- What a round makes of the portfolios before the strategies are asked: the reported cash, and
    the price, which also reaches them with the `MarketDataEvent`. -/
def valuePortfolios (r : Round) (availableBalance closePrice : ℚ) (m : PortfolioRiskManager) :
    PortfolioRiskManager :=
  ((m.updateCashBalance r.asset.exchange r.asset.quoteTickerSymbol
    availableBalance).updateMarketData r.asset.toAsset closePrice).onMarketData
      r.asset.tickerSymbol closePrice

/-- `_prepare_trade_context`: the session has the balance before the rest is fetched. -/
def prepareTradeContext (s : Managers) (r : Round) : Managers × Option TradeContext :=
  match r.answers.quoteBalance with
  | none => (s, none)
  | some balance =>
    let s := s.setSession (updateAvailableBalance s.sessionManager r.asset.key balance)
    match r.answers.marketData, r.answers.fees, r.answers.candlesRaise with
    | some marketData, some fees, false =>
      (s.updatePortfolios (valuePortfolios r balance marketData.closePrice),
        some ⟨balance, marketData, fees⟩)
    | _, _, _ => (s, none)

/-! ## §5 Submitting an order -/

/-- A decision, before the order it may lead to. -/
def decisionOf (s : Managers) (r : Round) (action : TradeAction) (status : DecisionStatus)
    (reason : Option DecisionRejectedReason) (consensus : Option ConsensusDecision)
    (sizing : SizingSnapshot) (risk : RiskEvaluation) (healthAllowed : Option Bool) :
    TradingDecision where
  decisionId := r.answers.decisionId
  tickerSymbol := r.asset.tickerSymbol
  exchange := r.asset.exchange
  tradeAction := action
  status := status
  rejectionReason := reason.map (·.value)
  commitHash := s.sessionManager.getCurrentCommitHash
  winningStrategy := consensus.bind resolveWinningStrategy
  strategyAttributions := resolveStrategyAttributions consensus
  sizingSnapshot := sizing
  riskEvaluation := risk
  healthAllowed := healthAllowed
  resultingOrderId := none

/-- The snapshot of a decision that came before the quantity. -/
def unsized (asset : TradingAsset) : SizingSnapshot :=
  ⟨none, none, asset.minQuantity, none, none, none⟩

/-- The order that is handed to `open_order`. -/
def orderOf (s : Managers) (r : Round) (action : TradeAction) (marketData : MarketData)
    (regime : MarketRegime) (d : ConsensusDecision) (price quantity : ℚ) : Order where
  uuid := r.answers.orderUuid
  providerName := r.asset.exchange
  tickerSymbol := r.asset.tickerSymbol
  price := price
  quantity := quantity
  tradeAction := action
  createdTime := marketData.timestamp
  commitHash := some s.sessionManager.getCurrentCommitHash
  executedTime := none
  status := some .pending
  fees := none
  fillPrice := none
  winningStrategy := resolveWinningStrategy d
  strategyVotes := formatStrategyVotes d
  strategyAttributions := resolveStrategyAttributions (some d)
  slippage := none
  decisionId := some r.answers.decisionId
  regime := some (regimeValue regime)

/-- `_submit_buy_order` and `_submit_sell_order`, which differ in the reservation of the cash.
    When opening the order raises, it is neither decided nor reserved nor reported. -/
def submitOrder (s : Managers) (r : Round) (decision : TradingDecision) (order : Order) :
    Managers :=
  match s.orderManager.openOrder order r.answers.execution with
  | (orderManager, true) => { s with orderManager := orderManager }
  | (orderManager, false) =>
    let order := s.orderManager.openedOrder order
    let s := { s with orderManager := orderManager }
    let s := s.recordDecision { decision with resultingOrderId := some order.uuid }
    let s :=
      if order.tradeAction = .buy then
        s.updatePortfolios fun m =>
          (m.reserveOrderCash r.asset.toAsset order.uuid (order.price * order.quantity)).1
      else s
    let s := { s with activityQueue := s.activityQueue ++ [order] }
    s.updatePortfolios (·.onOrderSubmitted order)

/-! ## §6 The BUY round -/

section Rounds

variable (decimal percent : ℚ → String)

/-- The risk check: without a risk manager nothing is asked.  The manager stores the price. -/
def askRisk (s : Managers) (r : Round) (cost closePrice : ℚ) (regime : MarketRegime) :
    Managers × GuardDecision :=
  match s.portfolioRiskManager with
  | none => (s, ⟨true, []⟩)
  | some m =>
    let verdict := m.canTrade r.asset.toAsset .buy cost (some closePrice) (some regime)
    ({ s with portfolioRiskManager := some verdict.1 }, verdict.2)

/-- The end of `_process_buy_asset`, from the quantity on. -/
def finishBuy (s : Managers) (r : Round) (t : TradeContext) (regime : MarketRegime)
    (d : ConsensusDecision) (price : ℚ) (formula : Option (String × FormulaResult)) : Managers :=
  let quantity := calculateQuantity r.asset formula
    (s.sessionManager.getTradingContext r.asset.key)
  let cost := price * quantity
  let sizing : SizingSnapshot :=
    ⟨formula.map (·.1), some quantity, r.asset.minQuantity, some quantity, some cost, some price⟩
  if cost > t.availableBalance then
    s.recordDecision (s.decisionOf r .buy .rejected (some .insufficientBalance) (some d) sizing
      ⟨false, some "Order cost exceeds available balance"⟩ none)
  else
    let (s, verdict) := s.askRisk r cost t.marketData.closePrice regime
    if !verdict.allowed then
      s.recordDecision (s.decisionOf r .buy .rejected (some .riskRejected) (some d) sizing
        ⟨false, verdict.reason decimal percent⟩ none)
    else
      match r.answers.healthAllowed with
      | none => s
      | some (some false) =>
        s.recordDecision (s.decisionOf r .buy .rejected (some .healthHalt) (some d) sizing
          ⟨true, none⟩ (some false))
      | some health =>
        s.submitOrder r (s.decisionOf r .buy .executed none (some d) sizing ⟨true, none⟩ health)
          (s.orderOf r .buy t.marketData regime d price quantity)

/-- `_process_buy_asset` from the answer of the strategies on. -/
def judgeBuy (s : Managers) (r : Round) (t : TradeContext) (regime : MarketRegime) : Managers :=
  let unsized := unsized r.asset
  let noQuorum := s.decisionOf r .buy .rejected (some .noQuorum) none unsized
    ⟨false, some "No consensus quorum"⟩ none
  match r.answers.consensus with
  | .raises => s
  | .guardHalt => s.recordDecision noQuorum
  | .decided d =>
    if !d.quorum then s.recordDecision noQuorum
    else
      match calculatePrice r.asset t.marketData t.fees with
      | none => s
      | some price =>
        if s.orderManager.hasOutstandingIntent r.asset.tickerSymbol (some .buy)
            r.answers.intentQueryRaises then
          s.recordDecision (s.decisionOf r .buy .skipped (some .outstandingIntent) (some d) unsized
            ⟨true, none⟩ none)
        else if !validateExecutionEdge t.marketData t.fees then
          s.recordDecision (s.decisionOf r .buy .rejected (some .negativeEdge) (some d) unsized
            ⟨false, some "Negative execution edge after fees"⟩ none)
        else
          match r.answers.formula with
          | none => s
          | some formula => s.finishBuy decimal percent r t regime d price formula

/-- The regime is stored in the context, and the position in the portfolio. -/
def enterRegime (s : Managers) (r : Round) (ctx : TradingContext) (regime : MarketRegime) :
    Managers :=
  (s.setSession (s.sessionManager.setContext r.asset.key
    { ctx with regime := some (regimeValue regime) })).updatePortfolios
      (·.updatePosition r.asset.toAsset ctx.positionQty)

/-- `_process_buy_asset`. -/
def processBuyAsset (s : Managers) (r : Round) : Managers :=
  match s.initContext r with
  | none => s
  | some s =>
    match s.prepareTradeContext r with
    | (s, none) => s
    | (s, some t) =>
      if t.availableBalance ≤ 0 then s
      else
        match s.sessionManager.getTradingContext r.asset.key, r.answers.regime with
        | some ctx, some regime =>
          (s.enterRegime r ctx regime).judgeBuy decimal percent r t regime
        | _, _ => s

/-! ## §7 The SELL round -/

/-- The end of `_process_sell_asset`, from the quantity on.  What the base balance does not cover
    ends the round without a decision. -/
def finishSell (s : Managers) (r : Round) (t : TradeContext) (baseBalance : ℚ)
    (regime : MarketRegime) (d : ConsensusDecision) (price : ℚ)
    (formula : Option (String × FormulaResult)) : Managers :=
  let quantity := calculateQuantity r.asset formula
    (s.sessionManager.getTradingContext r.asset.key)
  let sizing : SizingSnapshot :=
    ⟨none, some quantity, r.asset.minQuantity, some quantity, none, some price⟩
  match r.answers.healthAllowed with
  | none => s
  | some (some false) =>
    s.recordDecision (s.decisionOf r .sell .rejected (some .healthHalt) (some d) sizing
      ⟨true, none⟩ (some false))
  | some health =>
    if baseBalance ≥ quantity then
      s.submitOrder r (s.decisionOf r .sell .executed none (some d) sizing ⟨true, none⟩ health)
        (s.orderOf r .sell t.marketData regime d price quantity)
    else s

/-- `_process_sell_asset` from the answer of the strategies on.  Without a quorum there is no
    decision. -/
def judgeSell (s : Managers) (r : Round) (t : TradeContext) (baseBalance price : ℚ)
    (regime : MarketRegime) : Managers :=
  match r.answers.consensus with
  | .decided d =>
    if !d.quorum then s
    else if !validateExecutionEdge t.marketData t.fees then
      s.recordDecision (s.decisionOf r .sell .rejected (some .negativeEdge) (some d)
        (unsized r.asset) ⟨false, some "Negative execution edge after fees"⟩ none)
    else
      match r.answers.formula with
      | none => s
      | some formula => s.finishSell r t baseBalance regime d price formula
  | _ => s

/-- `_process_sell_asset`: an outstanding intent is looked for before anything is fetched. -/
def processSellAsset (s : Managers) (r : Round) : Managers :=
  match s.initContext r with
  | none => s
  | some s =>
    match s.sessionManager.getTradingContext r.asset.key with
    | none => s
    | some ctx =>
      if ctx.openPositions = [] then s
      else if s.orderManager.hasOutstandingIntent r.asset.tickerSymbol (some .sell)
          r.answers.intentQueryRaises then s
      else
        match s.prepareTradeContext r with
        | (s, none) => s
        | (s, some t) =>
          match r.answers.baseBalance, calculatePrice r.asset t.marketData t.fees,
            r.answers.regime with
          | some baseBalance, some price, some regime => s.judgeSell r t baseBalance price regime
          | _, _, _ => s

/-! ## §8 Passes -/

/-- One asset of a BUY or of a SELL pass; disabled assets are passed over. -/
def processAsset (s : Managers) : TradeAction × Round → Managers
  | (.buy, r) => if r.asset.enabled then s.processBuyAsset decimal percent r else s
  | (.sell, r) => if r.asset.enabled then s.processSellAsset r else s

/-- `create_buy_order`. -/
def createBuyOrder (s : Managers) (rounds : List Round) : Managers :=
  run (processAsset decimal percent) s (rounds.map fun r => (.buy, r))

/-- `create_sell_order`. -/
def createSellOrder (s : Managers) (rounds : List Round) : Managers :=
  run (processAsset decimal percent) s (rounds.map fun r => (.sell, r))

end Rounds

end Managers

end CryptoTrading.Trading
