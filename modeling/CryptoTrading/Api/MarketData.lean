import Mathlib.Algebra.Order.Floor.Ring
import Mathlib.Data.Rat.Floor

/-!
# Market observations

The records of `api/interfaces/market_data.py` and `candle.py`.  Prices, volumes and times
are rational numbers.
-/

namespace CryptoTrading

structure MarketData where
  volume : ℚ
  highPrice : ℚ
  lowPrice : ℚ
  closePrice : ℚ
  timestamp : ℚ
  bidPrice : Option ℚ
  askPrice : Option ℚ
  deriving DecidableEq

structure Candle where
  «open» : ℚ
  low : ℚ
  high : ℚ
  close : ℚ
  startTime : ℚ
  volume : ℚ
  deriving DecidableEq

/-- `int(timestamp)`: the part after the point is cut off. -/
def MarketData.epoch (data : MarketData) : ℤ :=
  if 0 ≤ data.timestamp then ⌊data.timestamp⌋ else ⌈data.timestamp⌉

end CryptoTrading
