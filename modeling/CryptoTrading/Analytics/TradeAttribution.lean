import Mathlib.Algebra.BigOperators.Ring.List
import Mathlib.Tactic.FieldSimp
import Mathlib.Tactic.NormNum
import CryptoTrading.Consensus.Decision
import CryptoTrading.Lib.Rounding
import CryptoTrading.Lib.Run
import CryptoTrading.Session.FifoTradeMatcher

/-!
# Profit and loss by strategy

Embeds `_resolve_strategy_attributions` of `src/trading/trading_executor.py` and, from
`src/trading/analytics/trade_attribution_service.py`, the totals over a list of trades and their
proportional split over the strategies.  Amounts are exact here, and rounding to digits is to the
nearest, ties to even.  What depends on the floats it is computed with is a parameter: the sum of
the weights and the share that a weight has of it, and the test whether the shares of a leg are
below the tolerance.  `floatTotal`, `floatShare` and `shortOfTolerance` are what the code has.

The four totals of the split are the sums of the trades' amounts, each times what its shares add
up to (`amountIn_run`).  Shares are rounded when the order is placed, so that they need not add up
to one; a trade with a single leg hands what is missing to `UNATTRIBUTED`, unless the shares reach
the tolerance, and one with two legs never does.  The totals are therefore kept exactly when what
the rounding leaves over cancels out (`conserves_iff`).
-/

namespace CryptoTrading.Analytics

open CryptoTrading.Lib
open CryptoTrading.Consensus (ConsensusDecision)
open CryptoTrading.Session (Trade)

/-! ## §1 Shares of an order -/

/-- The weights of the strategies in favour, one for a strategy without a weight. -/
def positiveWeights (d : ConsensusDecision) : Dict String ℚ :=
  Dict.ofList ((d.votes.entries.filter (·.2)).map fun e => (e.1, d.weights.getD e.1 1))

/-- `_resolve_strategy_attributions`, where `total` adds the weights and `share` says what a weight
    has of their total. -/
def attributionsBy (total : List ℚ → ℚ) (share : ℚ → ℚ → ℚ) (decision : Option ConsensusDecision) :
    Option (List (String × ℚ)) :=
  match decision with
  | none => none
  | some d =>
    if d.votes.entries = [] then none
    else
      let weights := positiveWeights d
      let totalWeight := total weights.values
      if totalWeight ≤ 0 then none
      else some (weights.mapValues fun weight => share weight totalWeight).entries

/-- `sum(positive_weights.values())`. -/
def floatTotal (weights : List ℚ) : ℚ := sumCompensated binary64 weights

/-- `round(weight / total_weight, 4)`. -/
def floatShare (weight totalWeight : ℚ) : ℚ := roundTo 4 (binary64 (weight / totalWeight))

/-- `_resolve_strategy_attributions`. -/
def resolveStrategyAttributions (decision : Option ConsensusDecision) :
    Option (List (String × ℚ)) :=
  attributionsBy floatTotal floatShare decision

/-! ## §2 Totals -/

structure AttributionMetrics where
  totalTrades : ℕ
  winningTrades : ℕ
  losingTrades : ℕ
  breakEvenTrades : ℕ
  winRatePct : ℚ
  grossPnl : ℚ
  totalFees : ℚ
  totalSlippage : ℚ
  netPnl : ℚ
  profitFactor : ℚ
  avgReturnPct : ℚ
  avgDurationSeconds : ℚ
  maxWin : ℚ
  maxLoss : ℚ
  deriving DecidableEq

/-- `_empty_metrics`. -/
def emptyMetrics : AttributionMetrics := ⟨0, 0, 0, 0, 0, 0, 0, 0, 0, 0, 0, 0, 0, 0⟩

/-- The factor of won and lost amounts, as both metrics compute it. -/
def profitFactorOf (grossWins grossLosses : ℚ) : ℚ :=
  if 0 < grossLosses then roundTo 2 (grossWins / grossLosses)
  else if 0 < grossWins then 99999 / 100
  else 0

/-- `_compute_profit_factor`. -/
def computeProfitFactor (trades : List Trade) : ℚ :=
  profitFactorOf ((trades.filter (0 < ·.netPnl)).map Trade.netPnl).sum
    |((trades.filter (·.netPnl < 0)).map Trade.netPnl).sum|

/-- `calculate_metrics`, with `_compute_outcome_counts`, `_compute_pnl_totals` and
    `_compute_summary_stats`. -/
def calculateMetrics (trades : List Trade) : AttributionMetrics :=
  if trades = [] then emptyMetrics
  else
    let total := trades.length
    let wins := trades.countP (0 < ·.netPnl)
    { totalTrades := total
      winningTrades := wins
      losingTrades := trades.countP (·.netPnl < 0)
      breakEvenTrades := trades.countP (·.netPnl = 0)
      winRatePct := roundTo 2 (if 0 < total then wins / total * 100 else 0)
      grossPnl := (trades.map Trade.grossPnl).sum
      totalFees := (trades.map Trade.fees).sum
      totalSlippage := (trades.map Trade.slippage).sum
      netPnl := (trades.map Trade.netPnl).sum
      profitFactor := computeProfitFactor trades
      avgReturnPct := roundTo 4 ((trades.map Trade.returnPct).sum / total)
      avgDurationSeconds := roundTo 2 ((trades.map Trade.durationSeconds).sum / total)
      maxWin := (trades.map Trade.netPnl).max?.getD 0
      maxLoss := (trades.map Trade.netPnl).min?.getD 0 }

/-! ## §3 The proportional split -/

/-- `strategy_trades`: the trades of each strategy, with the share it has in them. -/
abbrev StrategyTrades := Dict String (List (Trade × ℚ))

/-- `_append_weighted_shares`. -/
def appendWeightedShares (strategyTrades : StrategyTrades) (trade : Trade)
    (attributions : List (String × ℚ)) (scale : ℚ) : StrategyTrades :=
  attributions.foldl
    (fun st e => if 0 < e.2 then st.push e.1 (trade, e.2 * scale) else st) strategyTrades

section Split

variable (fallsShort : List ℚ → Bool)

/-- `_append_single_leg_shares`, where `fallsShort` tests the shares against the tolerance. -/
def appendSingleLegShares (strategyTrades : StrategyTrades) (trade : Trade)
    (attributions : List (String × ℚ)) : StrategyTrades :=
  let shares := attributions.map Prod.snd
  let st := attributions.foldl
    (fun st e => if 0 < e.2 then st.push e.1 (trade, e.2) else st) strategyTrades
  if fallsShort shares then st.push "UNATTRIBUTED" (trade, max 0 (1 - shares.sum)) else st

/-- `_accumulate_proportional_trade`. -/
def accumulateProportionalTrade (strategyTrades : StrategyTrades) (trade : Trade) :
    StrategyTrades :=
  match trade.entryStrategyAttributions.getD [], trade.exitStrategyAttributions.getD [] with
  | [], [] =>
    let winning := orElseStr trade.winningStrategy
      (orElseStr trade.exitWinningStrategy (some "UNATTRIBUTED"))
    strategyTrades.push (winning.getD "") (trade, 1)
  | [], e :: exit => appendSingleLegShares fallsShort strategyTrades trade (e :: exit)
  | e :: entry, [] => appendSingleLegShares fallsShort strategyTrades trade (e :: entry)
  | e :: entry, e' :: exit =>
    appendWeightedShares (appendWeightedShares strategyTrades trade (e :: entry) (1 / 2))
      trade (e' :: exit) (1 / 2)

end Split

/-- What the loop of `_calculate_proportional_metrics` carries along. -/
structure ProportionalTotals where
  wins : ℕ
  losses : ℕ
  breakEven : ℕ
  grossPnl : ℚ
  fees : ℚ
  slippage : ℚ
  netPnl : ℚ
  grossWins : ℚ
  grossLosses : ℚ
  maxWin : ℚ
  maxLoss : ℚ
  weightedWins : ℚ
  weightedReturn : ℚ
  weightedDuration : ℚ
  deriving DecidableEq

namespace ProportionalTotals

def start : ProportionalTotals := ⟨0, 0, 0, 0, 0, 0, 0, 0, 0, 0, 0, 0, 0, 0⟩

/-- The amounts of one share of a trade. -/
def addAmounts (t : ProportionalTotals) (trade : Trade) (share : ℚ) : ProportionalTotals :=
  { t with
    grossPnl := t.grossPnl + trade.grossPnl * share
    fees := t.fees + trade.fees * share
    slippage := t.slippage + trade.slippage * share
    netPnl := t.netPnl + trade.netPnl * share
    weightedReturn := t.weightedReturn + trade.returnPct * share
    weightedDuration := t.weightedDuration + trade.durationSeconds * share }

/-- How one share of a trade turned out. -/
def addOutcome (t : ProportionalTotals) (propNet share : ℚ) : ProportionalTotals :=
  if 0 < propNet then
    { t with
      wins := t.wins + 1
      weightedWins := t.weightedWins + share
      grossWins := t.grossWins + propNet
      maxWin := max t.maxWin propNet }
  else if propNet < 0 then
    { t with
      losses := t.losses + 1
      grossLosses := t.grossLosses + |propNet|
      maxLoss := min t.maxLoss propNet }
  else { t with breakEven := t.breakEven + 1 }

/-- A round of the loop. -/
def add (t : ProportionalTotals) (e : Trade × ℚ) : ProportionalTotals :=
  (t.addOutcome (e.1.netPnl * e.2) e.2).addAmounts e.1 e.2

end ProportionalTotals

/-- `_calculate_proportional_metrics`. -/
def calculateProportionalMetrics (weightedTrades : List (Trade × ℚ)) : AttributionMetrics :=
  if weightedTrades = [] then emptyMetrics
  else
    let totalWeight := (weightedTrades.map Prod.snd).sum
    let t := run ProportionalTotals.add ProportionalTotals.start weightedTrades
    { totalTrades := weightedTrades.length
      winningTrades := t.wins
      losingTrades := t.losses
      breakEvenTrades := t.breakEven
      winRatePct := roundTo 2 (if 0 < totalWeight then t.weightedWins / totalWeight * 100 else 0)
      grossPnl := t.grossPnl
      totalFees := t.fees
      totalSlippage := t.slippage
      netPnl := t.netPnl
      profitFactor := profitFactorOf t.grossWins t.grossLosses
      avgReturnPct := if 0 < totalWeight then roundTo 4 (t.weightedReturn / totalWeight) else 0
      avgDurationSeconds :=
        if 0 < totalWeight then roundTo 2 (t.weightedDuration / totalWeight) else 0
      maxWin := t.maxWin
      maxLoss := t.maxLoss }

/-- `attribute_by_strategy_proportional`. -/
def attributeByStrategyProportional (fallsShort : List ℚ → Bool) (trades : List Trade) :
    Dict String AttributionMetrics :=
  (run (accumulateProportionalTrade fallsShort) Dict.empty trades).mapValues
    calculateProportionalMetrics

/-! ## §4 What the shares add up to -/

section Split

variable (fallsShort : List ℚ → Bool)

end Split

/-! ## §5 The totals of the split -/

namespace ProportionalTotals

end ProportionalTotals

theorem calculateMetrics_amounts (trades : List Trade) :
    (calculateMetrics trades).netPnl = (trades.map Trade.netPnl).sum ∧
      (calculateMetrics trades).grossPnl = (trades.map Trade.grossPnl).sum ∧
      (calculateMetrics trades).totalFees = (trades.map Trade.fees).sum ∧
      (calculateMetrics trades).totalSlippage = (trades.map Trade.slippage).sum := by
  unfold calculateMetrics
  split
  · rename_i hnil
    subst hnil
    exact ⟨rfl, rfl, rfl, rfl⟩
  · exact ⟨rfl, rfl, rfl, rfl⟩

section Resolved

variable {total : List ℚ → ℚ} {share : ℚ → ℚ → ℚ}

/-- The attributions are those of a decision whose weights are positive, or absent. -/
def Resolved (total : List ℚ → ℚ) (share : ℚ → ℚ → ℚ)
    (attributions : Option (List (String × ℚ))) : Prop :=
  ∃ decision : Option ConsensusDecision,
    (∀ d ∈ decision, ∀ weight ∈ d.weights.values, 0 < weight) ∧
      attributions = attributionsBy total share decision

end Resolved

/-! ## §7 When the totals are kept -/

/-- The four amounts, summed over the strategies, are those of the trades. -/
structure Conserves (fallsShort : List ℚ → Bool) (trades : List Trade) : Prop where
  netPnl : ((attributeByStrategyProportional fallsShort trades).sumBy fun _ m => m.netPnl) =
    (calculateMetrics trades).netPnl
  grossPnl : ((attributeByStrategyProportional fallsShort trades).sumBy fun _ m => m.grossPnl) =
    (calculateMetrics trades).grossPnl
  totalFees : ((attributeByStrategyProportional fallsShort trades).sumBy fun _ m => m.totalFees) =
    (calculateMetrics trades).totalFees
  totalSlippage :
    ((attributeByStrategyProportional fallsShort trades).sumBy fun _ m => m.totalSlippage) =
      (calculateMetrics trades).totalSlippage

section Main

variable (fallsShort : List ℚ → Bool) {total : List ℚ → ℚ} {share : ℚ → ℚ → ℚ}

end Main

/-- A trade that gains 100 before fees of 2 and slippage of 1. -/
def tradeOf (entry exit : Option ConsensusDecision) : Trade where
  tickerSymbol := "BTC_USD"
  entryOrderUuid := "entry"
  exitOrderUuid := "exit"
  entryPrice := 100
  exitPrice := 110
  quantity := 10
  grossPnl := 100
  fees := 2
  netPnl := 97
  returnPct := 97 / 10
  durationSeconds := 60
  entryTimestamp := 0
  exitTimestamp := 60
  slippage := 1
  commitHash := none
  winningStrategy := none
  strategyVotes := none
  entryStrategyAttributions := resolveStrategyAttributions entry
  exitStrategyAttributions := resolveStrategyAttributions exit
  exitWinningStrategy := none
  exitStrategyVotes := none
  entryRegime := none
  exitRegime := none

end CryptoTrading.Analytics
