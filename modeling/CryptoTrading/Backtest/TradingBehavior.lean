import CryptoTrading.Analytics.TradeAttribution
import CryptoTrading.Backtest.Results
import CryptoTrading.Session.SessionManager

/-!
# Round trips of a backtest and trades of its session

Embeds `src/backtest/analysis/calculators/trading_behavior_calculator.py`.  The calculator
matches the fills of a result once more, with lots of its own: it takes the fee of a lot per unit
out of the price, where the session charges each trade with its parts of both fees.

Lot by lot the two matchers hold the same (`SameLots`), so that every fill gives the calculator
the round trips that the session books as trades, with the same net profit
(`tradePnls_recordFills`).  The fills of a result are those of its ticker symbol.

`f"{x:.2f}"` rounds as `roundTo 2` does; times and prices are exact.
-/

namespace CryptoTrading.Backtest

open CryptoTrading.Lib CryptoTrading.Session

/-! ## §1 The matcher of the calculator -/

/-- An element of `buy_lots`. -/
structure BuyLot where
  quantity : ℚ
  buyPrice : ℚ
  buyFeeUnit : ℚ
  executedAt : ℚ
  deriving DecidableEq

/-- What one match appends to `trade_pnls` and to `holding_times`. -/
structure RoundTrip where
  pnl : ℚ
  holdingTime : ℚ
  deriving DecidableEq

structure Matching where
  buyLots : List BuyLot
  roundTrips : List RoundTrip
  totalTradedVolume : ℚ
  deriving DecidableEq

namespace TradingBehaviorCalculator

/-- The seconds between two times; a difference in milliseconds is taken for what it is by its
    size. -/
def holdingTime (buyTime sellTime : ℚ) : ℚ :=
  let diffSec := sellTime - buyTime
  max 0 (if diffSec > 100000000 then diffSec / 1000 else diffSec)

/-- The round trip of `matchedQty` units of a lot. -/
def roundTrip (sell : BacktestFill) (lot : BuyLot) (matchedQty : ℚ) : RoundTrip :=
  let cost := (lot.buyPrice + lot.buyFeeUnit) * matchedQty
  let proceeds := (sell.executionPrice - perUnit sell.fee sell.quantity) * matchedQty
  ⟨proceeds - cost, holdingTime lot.executedAt sell.executedAt⟩

/-- The `while` loop of a sale.  A lot that is not used up has taken all that was left to sell, so
    that the loop ends there and the recursion is on the lots. -/
def matchSell (sell : BacktestFill) (sellQty : ℚ) : List BuyLot → List BuyLot × List RoundTrip
  | [] => ([], [])
  | lot :: rest =>
    if sellQty > 0 then
      let matchedQty := min sellQty lot.quantity
      let trip := roundTrip sell lot matchedQty
      let left := lot.quantity - matchedQty
      if left ≤ 0 then
        let (lots, trips) := matchSell sell (sellQty - matchedQty) rest
        (lots, trip :: trips)
      else ({ lot with quantity := left } :: rest, [trip])
    else (lot :: rest, [])

/-- The recursion is the loop of the source: one pass matches the first lot, pops it if it is
    used up, and the loop goes on with what is left of both. -/
theorem matchSell_loop (sell : BacktestFill) {sellQty : ℚ} (hpos : sellQty > 0) (lot : BuyLot)
    (rest : List BuyLot) :
    matchSell sell sellQty (lot :: rest) =
      (let matchedQty := min sellQty lot.quantity
      let left := lot.quantity - matchedQty
      let (lots, trips) := matchSell sell (sellQty - matchedQty)
        (if left ≤ 0 then rest else { lot with quantity := left } :: rest)
      (lots, roundTrip sell lot matchedQty :: trips)) := by
  simp only [matchSell, if_pos hpos]
  split
  · rfl
  -- the next pass of the loop finds nothing left to sell and ends it
  · rename_i hkept
    rw [FifoTradeMatcher.sellRemaining_of_lot_kept (not_le.mp hkept)]
    simp [matchSell]

/-- The body of the loop over the fills. -/
def fillPass (m : Matching) (fill : BacktestFill) : Matching :=
  let totalTradedVolume := m.totalTradedVolume + fill.executionPrice * fill.quantity
  match fill.tradeAction with
  | .buy =>
    { m with
      buyLots := m.buyLots ++
        [⟨fill.quantity, fill.executionPrice, perUnit fill.fee fill.quantity, fill.executedAt⟩]
      totalTradedVolume := totalTradedVolume }
  | .sell =>
    let (buyLots, trips) := matchSell fill fill.quantity m.buyLots
    ⟨buyLots, m.roundTrips ++ trips, totalTradedVolume⟩

def matchFills (fills : List BacktestFill) : Matching := run fillPass ⟨[], [], 0⟩ fills

/-- `trade_pnls`. -/
def tradePnls (fills : List BacktestFill) : List ℚ := (matchFills fills).roundTrips.map (·.pnl)

/-! ## §2 The metrics -/

def winningPnls (pnls : List ℚ) : List ℚ := pnls.filter (0 < ·)

def losingPnls (pnls : List ℚ) : List ℚ := pnls.filter (· < 0)

/-- `gross_profit`. -/
def grossProfit (pnls : List ℚ) : ℚ := (winningPnls pnls).sum

/-- `gross_loss`. -/
def grossLoss (pnls : List ℚ) : ℚ := ((losingPnls pnls).map fun pnl => |pnl|).sum

/-- The counters of `_calculate_consecutive_streaks`. -/
structure Streaks where
  maxWins : ℕ
  maxLosses : ℕ
  currentWins : ℕ
  currentLosses : ℕ
  deriving DecidableEq

def streakPass (s : Streaks) (pnl : ℚ) : Streaks :=
  if pnl > 0 then
    { s with
      currentWins := s.currentWins + 1
      currentLosses := 0
      maxWins := max s.maxWins (s.currentWins + 1) }
  else if pnl < 0 then
    { s with
      currentLosses := s.currentLosses + 1
      currentWins := 0
      maxLosses := max s.maxLosses (s.currentLosses + 1) }
  else { s with currentWins := 0, currentLosses := 0 }

/-- `_calculate_consecutive_streaks`. -/
def calculateConsecutiveStreaks (pnls : List ℚ) : ℕ × ℕ :=
  let s := pnls.foldl streakPass ⟨0, 0, 0, 0⟩
  (s.maxWins, s.maxLosses)

/-- `_calculate_exposure_pct`. -/
def calculateExposurePct (snapshots : List PortfolioSnapshot) : ℚ :=
  if snapshots.isEmpty then 0
  else
    let active := snapshots.countP fun s => s.positions.values.any (0 < ·)
    roundTo 2 (active / snapshots.length * 100)

structure TradingBehaviorMetrics where
  profitFactor : Option ℚ
  expectancy : Option ℚ
  expectancyRatio : Option ℚ
  winRatePct : Option ℚ
  winLossRatio : Option ℚ
  averageWin : Option ℚ
  averageLoss : Option ℚ
  largestWin : Option ℚ
  largestLoss : Option ℚ
  maxConsecutiveWins : ℕ
  maxConsecutiveLosses : ℕ
  turnover : ℚ
  avgHoldingTimeSeconds : ℚ
  exposureTimePct : ℚ
  roundTrips : ℕ
  winningTrades : ℕ
  losingTrades : ℕ
  deriving DecidableEq

/-- The metrics of fills without a round trip. -/
def TradingBehaviorMetrics.withoutTrips (turnover exposureTimePct : ℚ) :
    TradingBehaviorMetrics where
  profitFactor := none
  expectancy := none
  expectancyRatio := none
  winRatePct := none
  winLossRatio := none
  averageWin := none
  averageLoss := none
  largestWin := none
  largestLoss := none
  maxConsecutiveWins := 0
  maxConsecutiveLosses := 0
  turnover := turnover
  avgHoldingTimeSeconds := 0
  exposureTimePct := exposureTimePct
  roundTrips := 0
  winningTrades := 0
  losingTrades := 0

/-- The mean of the amounts, rounded; `none` when there are none. -/
def averageOf (total : ℚ) (count : ℕ) : Option ℚ :=
  if count > 0 then some (roundTo 2 (total / count)) else none

/-- The tail of `calculate`, on round trips of which there is at least one. -/
def metricsOf (trips : List RoundTrip) (turnover exposureTimePct : ℚ) : TradingBehaviorMetrics :=
  let pnls := trips.map (·.pnl)
  let roundTrips := pnls.length
  let winning := winningPnls pnls
  let losing := losingPnls pnls
  let averageWin := averageOf (grossProfit pnls) winning.length
  let averageLoss := averageOf (grossLoss pnls) losing.length
  let streaks := calculateConsecutiveStreaks pnls
  { profitFactor :=
      some (if grossLoss pnls > 0 then roundTo 2 (grossProfit pnls / grossLoss pnls)
        else if grossProfit pnls > 0 then 100 else 1)
    expectancy := some (roundTo 2 (pnls.sum / roundTrips))
    expectancyRatio := do
      let win ← averageWin
      let loss ← averageLoss
      some (roundTo 2 (winning.length / roundTrips * win - losing.length / roundTrips * loss))
    winRatePct := some (roundTo 2 (winning.length / roundTrips * 100))
    winLossRatio := do
      let win ← averageWin
      let loss ← averageLoss
      if loss > 0 then some (roundTo 2 (win / loss)) else none
    averageWin := averageWin
    averageLoss := averageLoss
    largestWin := winning.max?.map (roundTo 2)
    largestLoss := losing.min?.map (roundTo 2)
    maxConsecutiveWins := streaks.1
    maxConsecutiveLosses := streaks.2
    turnover := turnover
    avgHoldingTimeSeconds := (trips.map (·.holdingTime)).sum / trips.length
    exposureTimePct := exposureTimePct
    roundTrips := roundTrips
    winningTrades := winning.length
    losingTrades := losing.length }

/-- `TradingBehaviorCalculator.calculate`. -/
def calculate (fills : List BacktestFill) (snapshots : List PortfolioSnapshot)
    (initialBalance : ℚ) : TradingBehaviorMetrics :=
  if fills.isEmpty then .withoutTrips 0 0
  else
    let matching := matchFills fills
    let turnover :=
      if initialBalance > 0 then roundTo 2 (matching.totalTradedVolume / initialBalance) else 0
    let exposurePct := calculateExposurePct snapshots
    if matching.roundTrips.isEmpty then .withoutTrips turnover exposurePct
    else metricsOf matching.roundTrips turnover exposurePct

/-- The counts of the metrics are those of the round trips, also where there are none. -/
theorem outcomes_calculate (fills : List BacktestFill) (snapshots : List PortfolioSnapshot)
    (initialBalance : ℚ) :
    (calculate fills snapshots initialBalance).roundTrips = (tradePnls fills).length ∧
      (calculate fills snapshots initialBalance).winningTrades =
        (winningPnls (tradePnls fills)).length ∧
      (calculate fills snapshots initialBalance).losingTrades =
        (losingPnls (tradePnls fills)).length := by
  cases fills with
  | nil => exact ⟨rfl, rfl, rfl⟩
  | cons fill rest =>
    simp only [calculate, List.isEmpty_cons, Bool.false_eq_true, if_false]
    split
    · rename_i hnone
      rw [tradePnls, List.isEmpty_iff.mp hnone]
      exact ⟨rfl, rfl, rfl⟩
    · exact ⟨rfl, rfl, rfl⟩

/-! ## §3 Lot by lot -/

/-- A lot of the calculator and a lot of the session, bought without slippage. -/
structure SameLot (buyLot : BuyLot) (lot : PositionLot) : Prop where
  quantity_eq : buyLot.quantity = lot.remainingQuantity
  price_eq : buyLot.buyPrice = lot.price
  fee_eq : buyLot.buyFeeUnit = lot.feePerUnit
  slippage_eq : lot.slippagePerUnit = 0

abbrev SameLots : List BuyLot → List PositionLot → Prop := List.Forall₂ SameLot

/-- A sale as the calculator and as the session sees it, without slippage. -/
structure SameExit (sell : BacktestFill) (exit : Exit) : Prop where
  price_eq : sell.executionPrice = exit.price
  quantity_eq : sell.quantity = exit.quantity
  fee_eq : sell.fee = exit.fee
  slippage_eq : exit.slippage = 0

theorem perUnit_zero (quantity : ℚ) : perUnit 0 quantity = 0 := by
  unfold perUnit
  split <;> simp

/-- **One match earns the same**: the fees taken out of both prices are the fees of the trade. -/
theorem pnl_roundTrip {sell : BacktestFill} {exit : Exit} {buyLot : BuyLot} {lot : PositionLot}
    (hexit : SameExit sell exit) (hlot : SameLot buyLot lot) (matchedQty : ℚ) :
    (roundTrip sell buyLot matchedQty).pnl = (Trade.create lot exit matchedQty).netPnl := by
  simp only [roundTrip, Trade.create, hlot.price_eq, hlot.fee_eq, hlot.slippage_eq,
    hexit.price_eq, hexit.quantity_eq, hexit.fee_eq, hexit.slippage_eq, perUnit_zero]
  ring

/-- The two matchers take the same from the same lots. -/
theorem matchSell_same {sell : BacktestFill} {exit : Exit} (hexit : SameExit sell exit)
    {buyLots : List BuyLot} {lots : List PositionLot} (hlots : SameLots buyLots lots)
    (sellQty : ℚ) :
    SameLots (matchSell sell sellQty buyLots).1
        (FifoTradeMatcher.matchFrom exit sellQty lots).lots ∧
      (matchSell sell sellQty buyLots).2.map (·.pnl) =
        (FifoTradeMatcher.matchFrom exit sellQty lots).trades.map (·.netPnl) := by
  induction hlots generalizing sellQty with
  | nil => exact ⟨.nil, rfl⟩
  | @cons buyLot lot restBuy rest hlot hrest ih =>
    have hqty := hlot.quantity_eq
    by_cases hpos : sellQty > 0
    · simp only [matchSell, FifoTradeMatcher.matchFrom, if_pos hpos, hqty]
      split
      · obtain ⟨hkept, hpnls⟩ := ih (sellQty - min sellQty lot.remainingQuantity)
        exact ⟨hkept, by simp [hpnls, pnl_roundTrip hexit hlot]⟩
      · refine ⟨.cons ⟨rfl, hlot.price_eq, hlot.fee_eq, hlot.slippage_eq⟩ hrest, ?_⟩
        simp [pnl_roundTrip hexit hlot]
    · simp only [matchSell, FifoTradeMatcher.matchFrom, if_neg hpos]
      exact ⟨.cons hlot hrest, rfl⟩

/-! ## §4 Fill by fill -/

/-- An order that reports the fill of a ticker symbol, without slippage. -/
structure Reports (sym : String) (fill : BacktestFill) (order : Order) : Prop where
  fill_ticker : fill.tickerSymbol = sym
  order_ticker : order.tickerSymbol = sym
  action_eq : order.tradeAction = fill.tradeAction
  price_eq : order.effectivePrice = fill.executionPrice
  quantity_eq : order.quantity = fill.quantity
  fee_eq : order.fees.getD 0 = fill.fee
  slippage_eq : order.slippage.getD 0 = 0

/-- Record the fills of some orders; the trades they complete, in order. -/
def recordFills : SessionManager → List Order → SessionManager × List Trade
  | sm, [] => (sm, [])
  | sm, order :: rest =>
    let recorded := sm.recordOrderFill order
    let (sm, trades) := recordFills recorded.manager rest
    (sm, recorded.trades ++ trades)

/-- What the context of its symbol makes of a fill. -/
theorem recordFill_same {sym : String} {fill : BacktestFill} {order : Order}
    (h : Reports sym fill order) {m : Matching} {ctx : TradingContext}
    (hlots : SameLots m.buyLots ctx.positionLots) :
    SameLots (fillPass m fill).buyLots (ctx.recordFill order).1.positionLots ∧
      (fillPass m fill).roundTrips.map (·.pnl) =
        m.roundTrips.map (·.pnl) ++ (ctx.recordFill order).2.map (·.netPnl) := by
  unfold fillPass TradingContext.recordFill
  rw [h.action_eq]
  -- a buy appends a lot, a sale matches the lots from the front
  cases fill.tradeAction with
  | buy =>
    refine ⟨List.rel_append hlots (.cons ⟨h.quantity_eq.symm, h.price_eq.symm, ?_, ?_⟩ .nil), ?_⟩
    · show perUnit fill.fee fill.quantity = perUnit (order.fees.getD 0) order.quantity
      rw [h.fee_eq, h.quantity_eq]
    · show perUnit (order.slippage.getD 0) order.quantity = 0
      rw [h.slippage_eq, perUnit_zero]
    · exact (List.append_nil _).symm
  | sell =>
    have hexit : SameExit fill
        { tickerSymbol := order.tickerSymbol
          orderUuid := order.uuid
          price := order.effectivePrice
          quantity := order.quantity
          fee := order.fees.getD 0
          timestamp := order.executedTime.getD order.createdTime
          commitHash := orElseStr order.commitHash ctx.commitHash
          winningStrategy := order.winningStrategy
          strategyVotes := order.strategyVotes
          strategyAttributions := order.strategyAttributions
          slippage := order.slippage.getD 0
          regime := orElseStr order.regime ctx.regime } :=
      ⟨h.price_eq.symm, h.quantity_eq.symm, h.fee_eq.symm, h.slippage_eq⟩
    obtain ⟨hkept, hpnls⟩ := matchSell_same hexit hlots fill.quantity
    rw [← h.quantity_eq] at hkept hpnls ⊢
    refine ⟨hkept, ?_⟩
    rw [List.map_append, hpnls]
    rfl

theorem trades_recordOrderFill {sm : SessionManager} {order : Order} {ctx : TradingContext}
    (h : sm.findContext order.tickerSymbol = some ctx) :
    (sm.recordOrderFill order).trades = (ctx.recordFill (sm.withCommitHash ctx order)).2 := by
  unfold SessionManager.recordOrderFill
  cases hentry : sm.findEntry order.tickerSymbol with
  | none => simp [SessionManager.findContext, hentry] at h
  | some e =>
    obtain ⟨key, ctx'⟩ := e
    obtain rfl : ctx' = ctx := by simpa [SessionManager.findContext, hentry] using h
    rfl

/-- From lots that are the same on, the round trips are the trades. -/
theorem matchFrom_recordFills {sym : String} {fills : List BacktestFill} {orders : List Order}
    (hreports : List.Forall₂ (Reports sym) fills orders) {m : Matching} {sm : SessionManager}
    {ctx : TradingContext} (hctx : sm.findContext sym = some ctx)
    (hlots : SameLots m.buyLots ctx.positionLots) :
    (run fillPass m fills).roundTrips.map (·.pnl) =
      m.roundTrips.map (·.pnl) ++ (recordFills sm orders).2.map (·.netPnl) := by
  induction hreports generalizing m sm ctx with
  | nil => simp [recordFills]
  | @cons fill order fills orders hfill _ ih =>
    rw [← hfill.order_ticker] at hctx
    have hstamped : Reports sym fill (sm.withCommitHash ctx order) :=
      ⟨hfill.fill_ticker, hfill.order_ticker, hfill.action_eq, hfill.price_eq, hfill.quantity_eq,
        hfill.fee_eq, hfill.slippage_eq⟩
    obtain ⟨hlots', hpnls⟩ := recordFill_same hstamped hlots
    have hctx' := SessionManager.findContext_recordOrderFill_of_some hctx
    rw [hfill.order_ticker] at hctx'
    rw [run_cons, ih hctx' hlots', hpnls, List.append_assoc, ← trades_recordOrderFill hctx,
      ← List.map_append]
    rfl

/-- **The round trips of the calculator are the trades of the session**: their net profits one
    by one, and with them all counts and totals. -/
theorem tradePnls_recordFills {sym : String} {fills : List BacktestFill} {orders : List Order}
    (hreports : List.Forall₂ (Reports sym) fills orders) {sm : SessionManager}
    {ctx : TradingContext} (hctx : sm.findContext sym = some ctx) (hempty : ctx.positionLots = [])
    (snapshots : List PortfolioSnapshot) (initialBalance : ℚ) :
    let trades := (recordFills sm orders).2
    let metrics := calculate fills snapshots initialBalance
    tradePnls fills = trades.map (·.netPnl) ∧
      metrics.roundTrips = trades.length ∧
      metrics.winningTrades = trades.countP (0 < ·.netPnl) ∧
      metrics.losingTrades = trades.countP (·.netPnl < 0) ∧
      grossProfit (tradePnls fills) = ((trades.filter (0 < ·.netPnl)).map (·.netPnl)).sum ∧
      grossLoss (tradePnls fills) = ((trades.filter (·.netPnl < 0)).map (|·.netPnl|)).sum := by
  have hpnls : tradePnls fills = (recordFills sm orders).2.map (·.netPnl) := by
    have hlots : SameLots [] ctx.positionLots := hempty ▸ .nil
    exact matchFrom_recordFills hreports hctx hlots
  obtain ⟨hround, hwinning, hlosing⟩ := outcomes_calculate fills snapshots initialBalance
  refine ⟨hpnls, ?_, ?_, ?_, ?_, ?_⟩
  · rw [hround, hpnls, List.length_map]
  · rw [hwinning, hpnls, winningPnls, ← List.countP_eq_length_filter, List.countP_map]
    rfl
  · rw [hlosing, hpnls, losingPnls, ← List.countP_eq_length_filter, List.countP_map]
    rfl
  · rw [hpnls, grossProfit, winningPnls, List.filter_map]
    rfl
  · rw [hpnls, grossLoss, losingPnls, List.filter_map, List.map_map]
    rfl

/-- A fill of the pair at its market price. -/
def sampleFill (uuid : String) (action : TradeAction) (price quantity fee executedAt : ℚ) :
    BacktestFill where
  orderUuid := uuid
  tickerSymbol := "BTC_USD"
  tradeAction := action
  requestedPrice := price
  marketPrice := price
  executionPrice := price
  quantity := quantity
  fee := fee
  slippagePerUnit := 0
  slippageCost := 0
  submittedAt := executedAt
  executedAt := executedAt

/-- The order that reports a fill of the pair. -/
def reportOf (fill : BacktestFill) : Order :=
  { Order.new fill.orderUuid "BINANCE" fill.tickerSymbol fill.executionPrice fill.quantity
      fill.tradeAction fill.submittedAt with
    status := some .completed
    executedTime := some fill.executedAt
    fees := some fill.fee
    slippage := some 0 }

/-- A session with a context of the pair that has bought nothing yet. -/
def openedSession : SessionManager where
  currentSession := some ⟨"session",
    Dict.empty.set "BTC_USD-BINANCE" (TradingContext.new "BTC_USD" "BINANCE" 1000 none), none⟩
  isRunning := true
  headCommitHash := none

/-- Two purchases, a sale across both lots at a profit and one of the rest at a loss. -/
theorem tradePnls_recordFills_two_sales :
    let fills := [sampleFill "1" .buy 10 2 1 0, sampleFill "2" .buy 20 1 0 60,
      sampleFill "3" .sell 30 (5 / 2) 1 120, sampleFill "4" .sell 15 (1 / 2) 0 180]
    let trades := (recordFills openedSession (fills.map reportOf)).2
    trades.length = 3 ∧ tradePnls fills = trades.map (·.netPnl) ∧
      (calculate fills [] 1000).losingTrades = trades.countP (·.netPnl < 0) := by
  intro fills trades
  have hreports : List.Forall₂ (Reports "BTC_USD") fills (fills.map reportOf) := by
    refine List.forall₂_map_right_iff.mpr (List.forall₂_same.mpr fun fill hfill => ?_)
    have hticker : fill.tickerSymbol = "BTC_USD" := by
      revert fill
      decide +kernel
    exact ⟨hticker, hticker, rfl, rfl, rfl, rfl, rfl⟩
  have hctx : openedSession.findContext "BTC_USD" =
      some (TradingContext.new "BTC_USD" "BINANCE" 1000 none) := by decide +kernel
  obtain ⟨hpnls, -, -, hlosing, -⟩ := tradePnls_recordFills hreports hctx rfl [] 1000
  exact ⟨by decide +kernel, hpnls, hlosing⟩

end TradingBehaviorCalculator

end CryptoTrading.Backtest
