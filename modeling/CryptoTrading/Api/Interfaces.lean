import Mathlib.Data.Rat.Defs

/-!
# Orders, assets and portfolio configuration

The data the components exchange: `api/interfaces/trade_action.py`, `order.py`,
`asset.py` and `src/configuration/portfolio_config.py`.

Decimal amounts, prices and timestamps are rational numbers; `Order.quantity`, a
decimal string in the source, is the number it denotes.  Exchanges are their string
values.  Of `Asset` only the fields that the modelled components read are kept.
-/

namespace CryptoTrading

/-! ## §1 Orders -/

inductive TradeAction where
  | buy | sell
  deriving DecidableEq, Repr

inductive OrderStatus where
  | pending | processing | completed | cancelled | rejected | unknown | reconciliationRequired
  deriving DecidableEq, Repr

structure Order where
  uuid : String
  providerName : String
  tickerSymbol : String
  price : ℚ
  quantity : ℚ
  tradeAction : TradeAction
  createdTime : ℚ
  commitHash : Option String
  executedTime : Option ℚ
  status : Option OrderStatus
  fees : Option ℚ
  fillPrice : Option ℚ
  winningStrategy : Option String
  strategyVotes : Option (List (String × String))
  strategyAttributions : Option (List (String × ℚ))
  slippage : Option ℚ
  decisionId : Option String
  regime : Option String
  deriving DecidableEq

/-- An order with the defaults of the source in every optional field. -/
def Order.new (uuid providerName tickerSymbol : String) (price quantity : ℚ)
    (tradeAction : TradeAction) (createdTime : ℚ) : Order where
  uuid := uuid
  providerName := providerName
  tickerSymbol := tickerSymbol
  price := price
  quantity := quantity
  tradeAction := tradeAction
  createdTime := createdTime
  commitHash := none
  executedTime := none
  status := some .pending
  fees := none
  fillPrice := none
  winningStrategy := none
  strategyVotes := none
  strategyAttributions := none
  slippage := none
  decisionId := none
  regime := none

/-- The price a fill is booked at: the fill price when it is there and positive. -/
def Order.effectivePrice (order : Order) : ℚ :=
  match order.fillPrice with
  | some p => if p > 0 then p else order.price
  | none => order.price

/-! ## §2 Truth values of optional texts and lists -/

/-- `a or b` on optional strings: missing and empty strings are false. -/
def orElseStr (a b : Option String) : Option String :=
  match a with
  | some s => if s = "" then b else some s
  | none => b

/-- `not a` on optional strings. -/
def isFalsyStr (a : Option String) : Bool :=
  match a with
  | some s => s = ""
  | none => true

/-- `a or b` on optional collections: missing and empty ones are false. -/
def orElseList {α : Type} (a b : Option (List α)) : Option (List α) :=
  match a with
  | some (x :: xs) => some (x :: xs)
  | _ => b

/-! ## §3 Portfolio configuration -/

structure PortfolioExposureConfig where
  maxTotal : Option ℚ
  maxPerAsset : Option ℚ
  maxPerQuote : Option ℚ
  deriving DecidableEq

def PortfolioExposureConfig.default : PortfolioExposureConfig where
  maxTotal := some (80 / 100)
  maxPerAsset := some (25 / 100)
  maxPerQuote := some (50 / 100)

structure MarketRegimeConfig where
  enabled : Bool
  period : ℤ
  highVolatilityThreshold : ℚ
  lowVolatilityThreshold : ℚ
  trendThreshold : ℚ
  illiquidSpreadThreshold : ℚ
  minDataPoints : ℤ
  deriving DecidableEq

def MarketRegimeConfig.default : MarketRegimeConfig where
  enabled := true
  period := 20
  highVolatilityThreshold := 3 / 100
  lowVolatilityThreshold := 5 / 1000
  trendThreshold := 5 / 1000
  illiquidSpreadThreshold := 5 / 100
  minDataPoints := 3

structure QuotePortfolioGuardConfig where
  enabled : Bool
  maxDrawdown : Option ℚ
  maxDailyLoss : Option ℚ
  maxPositionCount : Option ℤ
  minQuoteReserve : ℚ
  maxQuoteExposure : ℚ
  deriving DecidableEq

def QuotePortfolioGuardConfig.default : QuotePortfolioGuardConfig where
  enabled := true
  maxDrawdown := some (10 / 100)
  maxDailyLoss := some (5 / 100)
  maxPositionCount := some 10
  minQuoteReserve := 10 / 100
  maxQuoteExposure := 80 / 100

structure PortfolioConfig where
  exposure : PortfolioExposureConfig
  regime : MarketRegimeConfig
  guard : QuotePortfolioGuardConfig
  deriving DecidableEq

def PortfolioConfig.default : PortfolioConfig :=
  ⟨PortfolioExposureConfig.default, MarketRegimeConfig.default, QuotePortfolioGuardConfig.default⟩

structure AssetPortfolioOverride where
  exposure : Option PortfolioExposureConfig
  regime : Option MarketRegimeConfig
  guard : Option QuotePortfolioGuardConfig
  deriving DecidableEq

/-! ## §4 Assets -/

structure Asset where
  baseTickerSymbol : String
  quoteTickerSymbol : String
  quoteDecimals : ℤ
  exchange : String
  separator : Option String
  portfolio : Option AssetPortfolioOverride
  deriving DecidableEq

namespace Asset

def tickerSymbol (asset : Asset) : String :=
  asset.baseTickerSymbol ++ asset.separator.getD "_" ++ asset.quoteTickerSymbol

/-- The text whose hash is the source's `key`. -/
def key (asset : Asset) : String := asset.tickerSymbol ++ "-" ++ asset.exchange

/-- The key of the quote portfolio the asset belongs to. -/
def portfolioKey (asset : Asset) : String × String := (asset.exchange, asset.quoteTickerSymbol)

end Asset

end CryptoTrading
