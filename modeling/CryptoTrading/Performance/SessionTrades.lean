import CryptoTrading.Performance.LotMatching
import CryptoTrading.Session.CashFlow

/-!
# The report and the books of the session

A session books a fill when it is reported (`SessionManager.record_order_fill`, with
`FifoTradeMatcher`); the performance report replays the stored orders with a loop of its own.  When
the fills of a symbol are reported in the order of their execution, both come to the same trades.

The two differ in what a trade says besides its figures: the report rounds the times to
microseconds, takes the commit of the purchase for a sale without one, does not keep the votes of
the sale, and knows the regime of an order only.
-/

namespace CryptoTrading.Performance

open CryptoTrading.Lib CryptoTrading.Session

/-- What a trade says about its orders, its amounts and the strategies behind it. -/
def figures (trade : Trade) : Trade :=
  { trade with
    durationSeconds := 0
    entryTimestamp := 0
    exitTimestamp := 0
    commitHash := none
    exitStrategyVotes := none
    entryRegime := none
    exitRegime := none }

/-- A lot of a session and a lot of the report for the same purchase, equally used up. -/
structure SameLot (positionLot : PositionLot) (lot : BuyLot) : Prop where
  orderUuid : positionLot.orderUuid = lot.orderUuid
  remaining : positionLot.remainingQuantity = lot.remainingQty
  price : positionLot.price = lot.buyPrice
  feePerUnit : positionLot.feePerUnit = lot.feePerUnit
  slippagePerUnit : positionLot.slippagePerUnit = lot.slippagePerUnit
  winningStrategy : positionLot.winningStrategy = lot.winningStrategy
  strategyVotes : positionLot.strategyVotes = lot.strategyVotes
  strategyAttributions : positionLot.strategyAttributions = lot.strategyAttributions

theorem SameLot.take {positionLot : PositionLot} {lot : BuyLot} (h : SameLot positionLot lot)
    (quantity : ℚ) :
    SameLot { positionLot with remainingQuantity := positionLot.remainingQuantity - quantity }
      { lot with remainingQty := lot.remainingQty - quantity } :=
  { h with remaining := congrArg (· - quantity) h.remaining }

/-! ## §1 One fill -/

/-- The sale of an order as the session hands it to its matcher. -/
structure SameSale (exit : Exit) (order : Order) : Prop where
  tickerSymbol : exit.tickerSymbol = order.tickerSymbol
  orderUuid : exit.orderUuid = order.uuid
  price : exit.price = fillPriceVal order
  quantity : exit.quantity = order.quantity
  fee : exit.fee = feeVal order
  slippage : exit.slippage = slippageVal order
  winningStrategy : exit.winningStrategy = order.winningStrategy
  strategyVotes : exit.strategyVotes = order.strategyVotes
  strategyAttributions : exit.strategyAttributions = order.strategyAttributions

theorem figures_create {exit : Exit} {order : Order} (hsale : SameSale exit order)
    {positionLot : PositionLot} {lot : BuyLot} (hlot : SameLot positionLot lot)
    (matchedQty : ℚ) :
    figures (Trade.create positionLot exit matchedQty) =
      figures (tradeOf order.tickerSymbol order lot matchedQty) := by
  simp only [figures, Trade.create, tradeOf, hsale.tickerSymbol, hsale.orderUuid, hsale.price,
    hsale.quantity, hsale.fee, hsale.slippage, hsale.winningStrategy, hsale.strategyVotes,
    hsale.strategyAttributions, hlot.orderUuid, hlot.price, hlot.feePerUnit,
    hlot.slippagePerUnit, hlot.winningStrategy, hlot.strategyVotes, hlot.strategyAttributions]

/-- The two loops of a sale take the same lots, in the same amounts. -/
theorem matchFrom_same {exit : Exit} {order : Order} (hsale : SameSale exit order) (q : ℚ)
    {positionLots : List PositionLot} {lots : List BuyLot}
    (h : List.Forall₂ SameLot positionLots lots) :
    let matched := FifoTradeMatcher.matchFrom exit q positionLots
    let sale := matchSale order.tickerSymbol order q lots
    List.Forall₂ SameLot matched.lots sale.buyLots ∧
      matched.trades.map figures = sale.trades.map figures ∧
      matched.sellRemaining = sale.remainingSellQty := by
  induction h generalizing q with
  | nil => exact ⟨.nil, rfl, rfl⟩
  | @cons positionLot lot positionRest rest hlot hrest ih =>
    simp only [FifoTradeMatcher.matchFrom, matchSale, hlot.remaining, min_comm q]
    by_cases hpos : q > 0
    · simp only [if_pos hpos]
      by_cases hused : lot.remainingQty - min lot.remainingQty q ≤ 0
      · obtain ⟨hlots, htrades, hleft⟩ := ih (q - min lot.remainingQty q)
        simp only [if_pos hused, List.map_cons, figures_create hsale hlot]
        exact ⟨hlots, congrArg _ htrades, hleft⟩
      · have htake := hlot.take (min lot.remainingQty q)
        rw [hlot.remaining] at htake
        simp only [if_neg hused, List.map_cons, figures_create hsale hlot]
        exact ⟨.cons htake hrest, trivial, trivial⟩
    · simp only [if_neg hpos]
      exact ⟨.cons hlot hrest, trivial, trivial⟩

/-- A session context and a replay that have come to the same trades and lots. -/
structure SameBooks (ctx : TradingContext) (s : Extraction) : Prop where
  lots : List.Forall₂ SameLot ctx.positionLots s.buyLots
  trades : ctx.trades.map figures = s.matchedTrades.map figures

theorem effectivePrice_eq {order : Order} (h : ∀ price ∈ order.fillPrice, 0 ≤ price) :
    order.effectivePrice = fillPriceVal order := by
  unfold Order.effectivePrice fillPriceVal
  cases hfill : order.fillPrice with
  | none => rfl
  | some price =>
    have hnonneg : 0 ≤ price := h price (by rw [hfill]; rfl)
    rcases hnonneg.eq_or_lt with rfl | hpos
    · simp
    · simp [hpos, hpos.ne']

/-- **One fill is booked alike**, also a sale of more than is held, and whatever commit hash the
    session fills in. -/
theorem SameBooks.recordFill {ctx : TradingContext} {s : Extraction} (h : SameBooks ctx s)
    {order : Order} (hprice : ∀ price ∈ order.fillPrice, 0 ≤ price) (commitHash : Option String) :
    SameBooks (ctx.recordFill { order with commitHash := commitHash }).1
      (extractOrder order.tickerSymbol s order) := by
  unfold TradingContext.recordFill extractOrder
  -- a buy gives both books the same lot, a sale takes the same lots from both
  cases haction : order.tradeAction with
  | buy =>
    have hlot : SameLot
        { orderUuid := order.uuid
          tickerSymbol := order.tickerSymbol
          price := order.effectivePrice
          quantity := order.quantity
          remainingQuantity := order.quantity
          feePerUnit := perUnit (order.fees.getD 0) order.quantity
          timestamp := order.executedTime.getD order.createdTime
          slippagePerUnit := perUnit (order.slippage.getD 0) order.quantity
          winningStrategy := order.winningStrategy
          strategyVotes := order.strategyVotes
          strategyAttributions := order.strategyAttributions
          regime := orElseStr order.regime ctx.regime } (lotOf order) :=
      ⟨rfl, rfl, effectivePrice_eq hprice, rfl, rfl, rfl, rfl, rfl⟩
    exact ⟨List.rel_append h.lots (.cons hlot .nil), h.trades⟩
  | sell =>
    have hsale : SameSale
        { tickerSymbol := order.tickerSymbol
          orderUuid := order.uuid
          price := order.effectivePrice
          quantity := order.quantity
          fee := order.fees.getD 0
          timestamp := order.executedTime.getD order.createdTime
          commitHash := orElseStr commitHash ctx.commitHash
          winningStrategy := order.winningStrategy
          strategyVotes := order.strategyVotes
          strategyAttributions := order.strategyAttributions
          slippage := order.slippage.getD 0
          regime := orElseStr order.regime ctx.regime } order :=
      ⟨rfl, rfl, effectivePrice_eq hprice, rfl, rfl, rfl, rfl, rfl, rfl⟩
    obtain ⟨hlots, htrades, -⟩ := matchFrom_same hsale order.quantity h.lots
    refine ⟨hlots, ?_⟩
    show (ctx.trades ++ (FifoTradeMatcher.matchFrom _ order.quantity ctx.positionLots).trades).map
      figures = (s.matchedTrades ++ _).map figures
    rw [List.map_append, List.map_append, h.trades]
    exact congrArg (s.matchedTrades.map figures ++ ·) htrades

/-! ## §2 Runs of a session -/

/-- The orders of a symbol. -/
def ordersOf (tickerSymbol : String) (orders : List Order) : List Order :=
  orders.filter fun order => order.tickerSymbol = tickerSymbol

/-- The times of execution never go back. -/
def InOrder (orders : List Order) : Prop :=
  orders.Pairwise fun a b => (getExecDt a).microseconds ≤ (getExecDt b).microseconds

instance (orders : List Order) : Decidable (InOrder orders) := by
  unfold InOrder
  infer_instance

theorem sortedOrders_eq {orders : List Order} (h : InOrder orders) :
    sortedOrders orders = orders := by
  apply List.mergeSort_of_pairwise
  exact h.imp fun hle => decide_eq_true hle

/-- No order was filled at a price below zero. -/
def NonnegFillPrices (orders : List Order) : Prop :=
  ∀ order ∈ orders, ∀ price ∈ order.fillPrice, 0 ≤ price

instance (orders : List Order) : Decidable (NonnegFillPrices orders) := by
  unfold NonnegFillPrices
  infer_instance

theorem SameBooks.run {sm : SessionManager} {tickerSymbol : String} {ctx : TradingContext}
    (hctx : sm.findContext tickerSymbol = some ctx) {s : Extraction} (h : SameBooks ctx s)
    {orders : List Order} (hprices : NonnegFillPrices (ordersOf tickerSymbol orders)) :
    ∃ ctx', (Lib.run SessionManager.fillStep sm orders).findContext tickerSymbol = some ctx' ∧
      SameBooks ctx' ((ordersOf tickerSymbol orders).foldl (extractOrder tickerSymbol) s) := by
  induction orders generalizing sm ctx s with
  | nil => exact ⟨ctx, hctx, h⟩
  | cons order rest ih =>
    rcases SessionManager.fillStep_context hctx order with ⟨hne, hstep⟩ | ⟨heq, hstep⟩
    · have hrest : ordersOf tickerSymbol (order :: rest) = ordersOf tickerSymbol rest := by
        simp [ordersOf, hne]
      rw [hrest] at hprices ⊢
      exact ih hstep h hprices
    · subst heq
      have hrest : ordersOf order.tickerSymbol (order :: rest) =
          order :: ordersOf order.tickerSymbol rest := by simp [ordersOf]
      rw [hrest] at hprices ⊢
      obtain ⟨hprice, hprices⟩ := List.forall_mem_cons.mp hprices
      have hbooks := h.recordFill hprice
        (orElseStr order.commitHash (orElseStr ctx.commitHash (some sm.getCurrentCommitHash)))
      exact ih hstep hbooks hprices

/-- **The report shows the trades of the session.**  From a flat context, over fills of any
    symbols, when those of this one have nonnegative prices and are reported in the order of
    their execution: the trades that the session has closed and the trades that the report
    extracts from the same orders agree, trade for trade, in their `figures`, whether or not the
    sales were covered.

    The orders are those that the session has in memory.  What is stored of an order has no
    slippage, so a report on stored orders shows another net profit. -/
theorem sessionTrades_eq_extractTrades {sm : SessionManager} {tickerSymbol : String}
    {ctx : TradingContext} (hctx : sm.findContext tickerSymbol = some ctx) (hflat : ctx.Flat)
    {orders : List Order} (hprices : NonnegFillPrices (ordersOf tickerSymbol orders))
    (horder : InOrder (ordersOf tickerSymbol orders)) :
    ∃ ctx', (run SessionManager.fillStep sm orders).findContext tickerSymbol = some ctx' ∧
      ctx'.trades.map figures =
        (extractTrades tickerSymbol (ordersOf tickerSymbol orders)).map figures := by
  have hstart : SameBooks ctx ⟨[], [], 0, 0⟩ :=
    ⟨hflat.positionLots_eq ▸ .nil, by rw [hflat.trades_eq]⟩
  obtain ⟨ctx', hctx', hbooks⟩ := SameBooks.run hctx hstart hprices
  refine ⟨ctx', hctx', ?_⟩
  rw [hbooks.trades, extractTrades, extractTradesWithAudit, sortedOrders_eq horder, replay]

/-- Four fills of the pair in order, the last one not covered, and one of a symbol without a
    context between them. -/
def sampleFills : List Order :=
  [sampleOrder "1" .buy 10 2 10, sampleOrder "2" .buy 20 1 20,
    { sampleOrder "x" .buy 5 7 25 with tickerSymbol := "ETH_USD" },
    sampleOrder "3" .sell 30 (5 / 2) 30, sampleOrder "4" .sell 40 1 40]

theorem sessionTrades_eq_extractTrades_sampleFills :
    ∃ ctx', (run SessionManager.fillStep SessionManager.flatSession sampleFills).findContext
        "BTC_USD" = some ctx' ∧
      ctx'.trades.map figures =
        (extractTrades "BTC_USD" (ordersOf "BTC_USD" sampleFills)).map figures := by
  have hctx : SessionManager.flatSession.findContext "BTC_USD" =
      some (TradingContext.new "BTC_USD" "BINANCE" 1000 none) := by decide +kernel
  exact sessionTrades_eq_extractTrades hctx (TradingContext.flat_new _ _ _ _) (by decide +kernel)
    (by decide +kernel)

end CryptoTrading.Performance
