import CryptoTrading.Api.Interfaces
import CryptoTrading.Lib.Dict

/-!
# What a backtest reports

The records of `src/backtest/domain/result.py` that the calculators of
`src/backtest/analysis` read: the fills of a run and the snapshots of its portfolio.
Amounts are rational numbers.
-/

namespace CryptoTrading.Backtest

open CryptoTrading.Lib

structure BacktestFill where
  orderUuid : String
  tickerSymbol : String
  tradeAction : TradeAction
  requestedPrice : ℚ
  marketPrice : ℚ
  executionPrice : ℚ
  quantity : ℚ
  fee : ℚ
  slippagePerUnit : ℚ
  slippageCost : ℚ
  submittedAt : ℚ
  executedAt : ℚ
  deriving DecidableEq

structure PortfolioSnapshot where
  timestamp : ℤ
  cash : ℚ
  positions : Dict String ℚ
  equity : ℚ
  deriving DecidableEq

end CryptoTrading.Backtest
