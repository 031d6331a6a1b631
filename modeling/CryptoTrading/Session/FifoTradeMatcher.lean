import Mathlib.Algebra.Order.Field.Rat
import CryptoTrading.Api.Interfaces

/-!
# Matching sales against position lots

Embeds `src/trading/session/fifo_trade_matcher.py` with the lots and trades of
`api/interfaces/position_lot.py` and `api/interfaces/trade.py`.

A sale consumes the open lots in the order in which they were bought and yields one
trade for each lot it touches.  Left out: the random `lot_id` and `trade_id`.

Decimals are exact rationals: the rounding of a context to 28 digits is left out.
-/

namespace CryptoTrading.Session

structure PositionLot where
  orderUuid : String
  tickerSymbol : String
  price : ℚ
  quantity : ℚ
  remainingQuantity : ℚ
  feePerUnit : ℚ
  timestamp : ℚ
  slippagePerUnit : ℚ
  winningStrategy : Option String
  strategyVotes : Option (List (String × String))
  strategyAttributions : Option (List (String × ℚ))
  regime : Option String
  deriving DecidableEq

/-- `x / quantity`, zero when the quantity is not positive. -/
def perUnit (x quantity : ℚ) : ℚ := if quantity > 0 then x / quantity else 0

structure Trade where
  tickerSymbol : String
  entryOrderUuid : String
  exitOrderUuid : String
  entryPrice : ℚ
  exitPrice : ℚ
  quantity : ℚ
  grossPnl : ℚ
  fees : ℚ
  netPnl : ℚ
  returnPct : ℚ
  durationSeconds : ℚ
  entryTimestamp : ℚ
  exitTimestamp : ℚ
  slippage : ℚ
  commitHash : Option String
  winningStrategy : Option String
  strategyVotes : Option (List (String × String))
  entryStrategyAttributions : Option (List (String × ℚ))
  exitStrategyAttributions : Option (List (String × ℚ))
  exitWinningStrategy : Option String
  exitStrategyVotes : Option (List (String × String))
  entryRegime : Option String
  exitRegime : Option String
  deriving DecidableEq

/-- The sale that lots are matched against. -/
structure Exit where
  tickerSymbol : String
  orderUuid : String
  price : ℚ
  quantity : ℚ
  fee : ℚ
  timestamp : ℚ
  commitHash : Option String
  winningStrategy : Option String
  strategyVotes : Option (List (String × String))
  strategyAttributions : Option (List (String × ℚ))
  slippage : ℚ
  regime : Option String

/-- `Trade.create` as `match_lots` calls it for `matchedQty` units of the lot. -/
def Trade.create (lot : PositionLot) (exit : Exit) (matchedQty : ℚ) : Trade :=
  let entryFee := lot.feePerUnit * matchedQty
  let exitFee := perUnit exit.fee exit.quantity * matchedQty
  let slippage := lot.slippagePerUnit * matchedQty +
    perUnit exit.slippage exit.quantity * matchedQty
  let grossPnl := (exit.price - lot.price) * matchedQty
  let totalFees := entryFee + exitFee
  let netPnl := grossPnl - totalFees - slippage
  let costBasis := lot.price * matchedQty + entryFee
  { tickerSymbol := exit.tickerSymbol
    entryOrderUuid := lot.orderUuid
    exitOrderUuid := exit.orderUuid
    entryPrice := lot.price
    exitPrice := exit.price
    quantity := matchedQty
    grossPnl := grossPnl
    fees := totalFees
    netPnl := netPnl
    returnPct := if costBasis > 0 then netPnl / costBasis * 100 else 0
    durationSeconds := max 0 (exit.timestamp - lot.timestamp)
    entryTimestamp := lot.timestamp
    exitTimestamp := exit.timestamp
    slippage := slippage
    commitHash := exit.commitHash
    winningStrategy := orElseStr lot.winningStrategy exit.winningStrategy
    strategyVotes := orElseList lot.strategyVotes exit.strategyVotes
    entryStrategyAttributions := lot.strategyAttributions
    exitStrategyAttributions := exit.strategyAttributions
    exitWinningStrategy := exit.winningStrategy
    exitStrategyVotes := exit.strategyVotes
    entryRegime := lot.regime
    exitRegime := exit.regime }

namespace FifoTradeMatcher

/-- The remaining lots, the completed trades and the quantity without a lot. -/
structure Matched where
  lots : List PositionLot
  trades : List Trade
  sellRemaining : ℚ

/-- The loop of `match_lots`.  A lot that is not used up stays in front; it has then taken
    all that was left to sell, so the loop ends there and the recursion is on the lots. -/
def matchFrom (exit : Exit) (sellRemaining : ℚ) : List PositionLot → Matched
  | [] => ⟨[], [], sellRemaining⟩
  | lot :: rest =>
    if sellRemaining > 0 then
      let matchedQty := min sellRemaining lot.remainingQuantity
      let trade := Trade.create lot exit matchedQty
      let lot := { lot with remainingQuantity := lot.remainingQuantity - matchedQty }
      if lot.remainingQuantity ≤ 0 then
        let tail := matchFrom exit (sellRemaining - matchedQty) rest
        { tail with trades := trade :: tail.trades }
      else ⟨lot :: rest, [trade], sellRemaining - matchedQty⟩
    else ⟨lot :: rest, [], sellRemaining⟩

/-- `FifoTradeMatcher.match_lots`. -/
def matchLots (lots : List PositionLot) (exit : Exit) : Matched :=
  matchFrom exit exit.quantity lots

/-- A lot that survives the match has taken all that was left to sell. -/
theorem sellRemaining_of_lot_kept {sellRemaining remainingQuantity : ℚ}
    (h : 0 < remainingQuantity - min sellRemaining remainingQuantity) :
    sellRemaining - min sellRemaining remainingQuantity = 0 := by
  have hlt : min sellRemaining remainingQuantity < remainingQuantity := sub_pos.mp h
  have hmin : min sellRemaining remainingQuantity = sellRemaining :=
    min_eq_left (le_of_not_ge fun hge => absurd (min_eq_right hge) hlt.ne)
  rw [hmin, sub_self]

/-- The recursion is the loop of the source: one pass matches the first lot, pops it if it
    is used up, and the loop goes on with what is left of both. -/
theorem matchFrom_loop (exit : Exit) {sellRemaining : ℚ} (hpos : sellRemaining > 0)
    (lot : PositionLot) (rest : List PositionLot) :
    matchFrom exit sellRemaining (lot :: rest) =
      (let matchedQty := min sellRemaining lot.remainingQuantity
      let left := lot.remainingQuantity - matchedQty
      let tail := matchFrom exit (sellRemaining - matchedQty)
        (if left ≤ 0 then rest else { lot with remainingQuantity := left } :: rest)
      { tail with trades := Trade.create lot exit matchedQty :: tail.trades }) := by
  simp only [matchFrom, if_pos hpos]
  split
  · rfl
  -- the next pass of the loop finds nothing left to sell and ends it
  · rename_i hkept
    rw [sellRemaining_of_lot_kept (not_le.mp hkept)]
    simp [matchFrom]

end FifoTradeMatcher

end CryptoTrading.Session
