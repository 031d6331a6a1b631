import CryptoTrading.Lib.Dict
import CryptoTrading.Session.FifoTradeMatcher

/-!
# Trading sessions and the trading journal

Embeds the accounting of fills in `src/trading/session/session_manager.py`
(`record_order_fill` and what it calls) and `in_memory_trading_journal.py`.

A session has one trading context for each asset.  A fill is booked in the first
context of its ticker symbol, as often as it is reported; the journal keeps one copy
of each order.  Left out: the lock, wall-clock times, and the regime and portfolio
figures that the executor only stores in a context.

Decimals are exact rationals: the rounding of a context to 28 digits is left out.
-/

namespace CryptoTrading.Session

open CryptoTrading.Lib

/-! ## §1 Trading contexts -/

structure PositionEntry where
  price : ℚ
  quantity : ℚ
  timestamp : ℚ
  deriving DecidableEq

/-- The extreme prices are missing before the first fill (infinite in the source). -/
structure TradingContext where
  tickerSymbol : String
  exchange : String
  startingBalance : ℚ
  availableBalance : ℚ
  closingBalance : ℚ
  lowestBuy : Option ℚ
  highestBuy : Option ℚ
  lowestSell : Option ℚ
  highestSell : Option ℚ
  openPositions : List PositionEntry
  closePositions : List PositionEntry
  positionLots : List PositionLot
  trades : List Trade
  positionQty : ℚ
  avgEntryPrice : ℚ
  exitQty : ℚ
  avgExitPrice : ℚ
  realizedPnl : ℚ
  lastMarketActivityTime : Option ℚ
  commitHash : Option String
  regime : Option String
  deriving DecidableEq

/-- The minimum with a value that may be missing. -/
def minWith (a : Option ℚ) (x : ℚ) : Option ℚ := some ((a.map (min · x)).getD x)

/-- The maximum with a value that may be missing. -/
def maxWith (a : Option ℚ) (x : ℚ) : Option ℚ := some ((a.map (max · x)).getD x)

namespace TradingContext

def new (tickerSymbol exchange : String) (startingBalance : ℚ) (commitHash : Option String) :
    TradingContext where
  tickerSymbol := tickerSymbol
  exchange := exchange
  startingBalance := startingBalance
  availableBalance := startingBalance
  closingBalance := 0
  lowestBuy := none
  highestBuy := none
  lowestSell := none
  highestSell := none
  openPositions := []
  closePositions := []
  positionLots := []
  trades := []
  positionQty := 0
  avgEntryPrice := 0
  exitQty := 0
  avgExitPrice := 0
  realizedPnl := 0
  lastMarketActivityTime := none
  commitHash := commitHash
  regime := none

/-- `SessionManager._record_buy_fill`. -/
def recordBuyFill (ctx : TradingContext) (order : Order)
    (fillPrice quantity fee slippage timestamp : ℚ) : TradingContext :=
  let lot : PositionLot :=
    { orderUuid := order.uuid
      tickerSymbol := order.tickerSymbol
      price := fillPrice
      quantity := quantity
      remainingQuantity := quantity
      feePerUnit := perUnit fee quantity
      timestamp := timestamp
      slippagePerUnit := perUnit slippage quantity
      winningStrategy := order.winningStrategy
      strategyVotes := order.strategyVotes
      strategyAttributions := order.strategyAttributions
      regime := orElseStr order.regime ctx.regime }
  let totalCost := ctx.positionQty * ctx.avgEntryPrice + quantity * fillPrice
  let positionQty := ctx.positionQty + quantity
  { ctx with
    lowestBuy := minWith ctx.lowestBuy fillPrice
    highestBuy := maxWith ctx.highestBuy fillPrice
    openPositions := ctx.openPositions ++ [⟨fillPrice, quantity, timestamp⟩]
    positionLots := ctx.positionLots ++ [lot]
    -- a fill without a quantity adds a lot but moves no average
    positionQty := if quantity > 0 then positionQty else ctx.positionQty
    avgEntryPrice := if quantity > 0 then totalCost / positionQty else ctx.avgEntryPrice }

/-- `SessionManager._match_fifo_lots`. -/
def matchFifoLots (ctx : TradingContext) (order : Order)
    (fillPrice quantity fee slippage timestamp : ℚ) : TradingContext × List Trade :=
  let matched := FifoTradeMatcher.matchLots ctx.positionLots
    { tickerSymbol := order.tickerSymbol
      orderUuid := order.uuid
      price := fillPrice
      quantity := quantity
      fee := fee
      timestamp := timestamp
      commitHash := orElseStr order.commitHash ctx.commitHash
      winningStrategy := order.winningStrategy
      strategyVotes := order.strategyVotes
      strategyAttributions := order.strategyAttributions
      slippage := slippage
      regime := orElseStr order.regime ctx.regime }
  let tradesPnl := (matched.trades.map (·.netPnl)).sum
  let remaining := matched.sellRemaining
  -- what no lot covers is settled against the average entry price
  let fallbackGross := (fillPrice - ctx.avgEntryPrice) * remaining
  let fallbackExitFee := perUnit fee quantity * remaining
  let fallbackSlippage := perUnit slippage quantity * remaining
  let fallbackPnl :=
    if remaining > 0 then fallbackGross - fallbackExitFee - fallbackSlippage else 0
  ({ ctx with
      positionLots := matched.lots
      trades := ctx.trades ++ matched.trades
      realizedPnl := ctx.realizedPnl + tradesPnl + fallbackPnl }, matched.trades)

/-- `SessionManager._record_sell_fill`. -/
def recordSellFill (ctx : TradingContext) (order : Order)
    (fillPrice quantity fee slippage timestamp : ℚ) : TradingContext × List Trade :=
  let totalExitValue := ctx.exitQty * ctx.avgExitPrice + quantity * fillPrice
  let exitQty := ctx.exitQty + quantity
  let ctx : TradingContext := { ctx with
    lowestSell := minWith ctx.lowestSell fillPrice
    highestSell := maxWith ctx.highestSell fillPrice
    closePositions := ctx.closePositions ++ [⟨fillPrice, quantity, timestamp⟩]
    exitQty := if quantity > 0 then exitQty else ctx.exitQty
    avgExitPrice := if quantity > 0 then totalExitValue / exitQty else ctx.avgExitPrice }
  let (ctx, completedTrades) := ctx.matchFifoLots order fillPrice quantity fee slippage timestamp
  -- selling more than the position leaves none
  let positionQty := max 0 (ctx.positionQty - quantity)
  ({ ctx with
      positionQty := positionQty
      avgEntryPrice := if positionQty = 0 then 0 else ctx.avgEntryPrice }, completedTrades)

/-- What `record_order_fill` does to the context it found. -/
def recordFill (ctx : TradingContext) (order : Order) : TradingContext × List Trade :=
  let fillPrice := order.effectivePrice
  let quantity := order.quantity
  let fee := order.fees.getD 0
  let slippage := order.slippage.getD 0
  let timestamp := order.executedTime.getD order.createdTime
  let ctx := { ctx with lastMarketActivityTime := some timestamp }
  match order.tradeAction with
  | .buy => (ctx.recordBuyFill order fillPrice quantity fee slippage timestamp, [])
  | .sell => ctx.recordSellFill order fillPrice quantity fee slippage timestamp

/-- The number of fills booked in a context. -/
def entryCount (ctx : TradingContext) : ℕ := ctx.openPositions.length + ctx.closePositions.length

@[simp] theorem recordFill_tickerSymbol (ctx : TradingContext) (order : Order) :
    (ctx.recordFill order).1.tickerSymbol = ctx.tickerSymbol := by
  unfold recordFill
  cases order.tradeAction <;> rfl

/-- Every fill adds one entry. -/
theorem recordFill_entryCount (ctx : TradingContext) (order : Order) :
    (ctx.recordFill order).1.entryCount = ctx.entryCount + 1 := by
  unfold recordFill entryCount
  cases order.tradeAction with
  | buy =>
    simp only [recordBuyFill, List.length_append, List.length_singleton]
    omega
  | sell =>
    simp only [recordSellFill, matchFifoLots, List.length_append, List.length_singleton]
    omega

end TradingContext

/-! ## §2 Sessions -/

/-- Contexts are kept under the key of their asset. -/
structure TradingSession where
  sessionId : String
  tradingContexts : Dict String TradingContext
  commitHash : Option String
  deriving DecidableEq

/-- `headCommitHash` is what the configuration repository answers for its head, if it
    answers at all. -/
structure SessionManager where
  currentSession : Option TradingSession
  isRunning : Bool
  headCommitHash : Option String
  deriving DecidableEq

namespace SessionManager

/-- `SessionManager.get_current_commit_hash`. -/
def getCurrentCommitHash (sm : SessionManager) : String :=
  let head := (orElseStr sm.headCommitHash (some "HEAD")).getD "HEAD"
  match sm.currentSession with
  | some session => (orElseStr session.commitHash (some head)).getD head
  | none => head

/-- Fill in the commit hash of an order that has none. -/
def fillCommitHash (sm : SessionManager) (order : Order) : Order :=
  if isFalsyStr order.commitHash then { order with commitHash := some sm.getCurrentCommitHash }
  else order

/-- The entry of the first context of a ticker symbol. -/
def findEntry (sm : SessionManager) (tickerSymbol : String) : Option (String × TradingContext) :=
  match sm.currentSession with
  | some session => session.tradingContexts.findValue? fun ctx => ctx.tickerSymbol = tickerSymbol
  | none => none

/-- `SessionManager._find_context`, and `get_trading_context_by_symbol`. -/
def findContext (sm : SessionManager) (tickerSymbol : String) : Option TradingContext :=
  (sm.findEntry tickerSymbol).map Prod.snd

/-- Store a context of the current session. -/
def setContext (sm : SessionManager) (key : String) (ctx : TradingContext) : SessionManager :=
  { sm with
    currentSession := sm.currentSession.map fun session =>
      { session with tradingContexts := session.tradingContexts.set key ctx } }

/-- The context of an asset that enters the session with a position. -/
def bootstrapContext (ctx : TradingContext) (initialPositionQty initialEntryPrice timestamp : ℚ) :
    TradingContext :=
  let lot : PositionLot :=
    { orderUuid := "BOOTSTRAP_" ++ ctx.tickerSymbol
      tickerSymbol := ctx.tickerSymbol
      price := initialEntryPrice
      quantity := initialPositionQty
      remainingQuantity := initialPositionQty
      feePerUnit := perUnit 0 initialPositionQty
      timestamp := timestamp
      slippagePerUnit := perUnit 0 initialPositionQty
      winningStrategy := some "BOOTSTRAP"
      strategyVotes := none
      strategyAttributions := none
      regime := none }
  { ctx with
    positionQty := initialPositionQty
    avgEntryPrice := initialEntryPrice
    positionLots := ctx.positionLots ++ [lot]
    openPositions := ctx.openPositions ++ [⟨initialEntryPrice, initialPositionQty, timestamp⟩] }

/-- `SessionManager.init_asset_balance`; without a session it raises. -/
def initAssetBalance (sm : SessionManager) (asset : Asset)
    (startingBalance initialPositionQty initialEntryPrice timestamp : ℚ) : Option SessionManager :=
  match sm.currentSession with
  | none => none
  | some session =>
    -- a context that is there keeps its balance and its position
    if session.tradingContexts.contains asset.key then some sm
    else
      let ctx := TradingContext.new asset.tickerSymbol asset.exchange startingBalance
        session.commitHash
      let ctx := if initialPositionQty > 0 then
          bootstrapContext ctx initialPositionQty initialEntryPrice timestamp
        else ctx
      some (sm.setContext asset.key ctx)

/-- `SessionManager.create_session`; it raises while a session is running. -/
def createSession (sm : SessionManager) (sessionId : String) (commitHash : Option String) :
    Option SessionManager :=
  if sm.isRunning then none
  else
    let commitHash := commitHash.orElse fun _ => sm.headCommitHash
    some { sm with currentSession := some ⟨sessionId, Dict.empty, commitHash⟩ }

/-- `SessionManager.start_session`; it raises without a session. -/
def startSession (sm : SessionManager) : Option SessionManager :=
  sm.currentSession.map fun _ => { sm with isRunning := true }

/-- `SessionManager.end_session`. -/
def endSession (sm : SessionManager) : SessionManager :=
  if sm.currentSession.isNone || !sm.isRunning then sm
  else { sm with currentSession := none, isRunning := false }

/-- What `record_order_fill` returns: the manager, the order with its commit hash filled
    in, and the completed trades. -/
structure Recorded where
  manager : SessionManager
  order : Order
  trades : List Trade

/-- The order with a commit hash: its own, that of the context, or the current one. -/
def withCommitHash (sm : SessionManager) (ctx : TradingContext) (order : Order) : Order :=
  { order with
    commitHash := orElseStr order.commitHash
      (orElseStr ctx.commitHash (some sm.getCurrentCommitHash)) }

/-- `SessionManager.record_order_fill`. -/
def recordOrderFill (sm : SessionManager) (order : Order) : Recorded :=
  match sm.findEntry order.tickerSymbol with
  -- a fill of a symbol without a context is dropped
  | none => ⟨sm, order, []⟩
  | some (key, ctx) =>
    let order := sm.withCommitHash ctx order
    let (ctx, trades) := ctx.recordFill order
    ⟨sm.setContext key ctx, order, trades⟩

/-! ## §3 What a fill does to the contexts -/

theorem findEntry_some {sm : SessionManager} {sym : String} {e : String × TradingContext}
    (h : sm.findEntry sym = some e) :
    ∃ session, sm.currentSession = some session ∧ session.tradingContexts.get? e.1 = some e.2 ∧
      e.2.tickerSymbol = sym := by
  unfold findEntry at h
  split at h
  · rename_i session hsession
    have hsym := Dict.of_findValue? h
    exact ⟨session, hsession, Dict.get?_of_findValue? h, by simpa using hsym⟩
  · cases h

/-- The fill of an order with a context is booked there and nowhere else. -/
theorem findEntry_setContext {sm : SessionManager} {key sym : String} {ctx ctx' : TradingContext}
    (h : sm.findEntry sym = some (key, ctx)) (hsym : ctx'.tickerSymbol = ctx.tickerSymbol)
    (other : String) :
    (sm.setContext key ctx').findEntry other =
      (sm.findEntry other).map fun e => if e.1 = key then (key, ctx') else e := by
  obtain ⟨session, hsession, hget, -⟩ := findEntry_some h
  simp only [findEntry, setContext, hsession, Option.map_some]
  exact Dict.findValue?_set (by rw [hsym]) hget

theorem findContext_recordOrderFill_of_ne (sm : SessionManager) (order : Order) {sym : String}
    (hne : order.tickerSymbol ≠ sym) :
    (sm.recordOrderFill order).manager.findContext sym = sm.findContext sym := by
  unfold recordOrderFill
  cases hentry : sm.findEntry order.tickerSymbol with
  | none => rfl
  | some e =>
    obtain ⟨key, ctx⟩ := e
    simp only [findContext]
    rw [findEntry_setContext hentry (TradingContext.recordFill_tickerSymbol _ _) sym]
    cases hother : sm.findEntry sym with
    | none => rfl
    | some e' =>
      -- a context of another symbol sits under another key
      obtain ⟨session, hsession, hget, hsym⟩ := findEntry_some hentry
      obtain ⟨session', hsession', hget', hsym'⟩ := findEntry_some hother
      have hkey : e'.1 ≠ key := by
        intro heq
        rw [hsession] at hsession'
        obtain rfl := Option.some.inj hsession'
        rw [heq, hget] at hget'
        obtain rfl : ctx = e'.2 := Option.some.inj hget'
        exact hne (hsym.symm.trans hsym')
      simp [hkey]

/-- The context of the order's own symbol takes the fill of the order with its commit hash. -/
theorem findContext_recordOrderFill_of_some {sm : SessionManager} {order : Order}
    {ctx : TradingContext} (h : sm.findContext order.tickerSymbol = some ctx) :
    (sm.recordOrderFill order).manager.findContext order.tickerSymbol =
      some (ctx.recordFill (sm.withCommitHash ctx order)).1 := by
  unfold recordOrderFill
  cases hentry : sm.findEntry order.tickerSymbol with
  | none => simp [findContext, hentry] at h
  | some e =>
    obtain ⟨key, ctx'⟩ := e
    obtain rfl : ctx' = ctx := by simpa [findContext, hentry] using h
    simp only [findContext]
    rw [findEntry_setContext hentry (TradingContext.recordFill_tickerSymbol _ _), hentry]
    simp

/-- The context of the order's own symbol takes the fill. -/
theorem findContext_recordOrderFill_self (sm : SessionManager) (order : Order) :
    ∃ order' : Order, order'.tradeAction = order.tradeAction ∧ order'.quantity = order.quantity ∧
      (sm.recordOrderFill order).manager.findContext order.tickerSymbol =
        (sm.findContext order.tickerSymbol).map fun ctx => (ctx.recordFill order').1 := by
  cases hctx : sm.findContext order.tickerSymbol with
  | none =>
    have hentry : sm.findEntry order.tickerSymbol = none := by simpa [findContext] using hctx
    exact ⟨order, rfl, rfl, by simp [recordOrderFill, findContext, hentry]⟩
  | some ctx =>
    refine ⟨sm.withCommitHash ctx order, rfl, rfl, ?_⟩
    rw [findContext_recordOrderFill_of_some hctx]
    rfl

/-- A fill without a context changes nothing. -/
theorem recordOrderFill_of_none {sm : SessionManager} {order : Order}
    (h : sm.findContext order.tickerSymbol = none) :
    (sm.recordOrderFill order).manager = sm := by
  have hentry : sm.findEntry order.tickerSymbol = none := by
    simpa [findContext] using h
  simp only [recordOrderFill, hentry]

/-- The figures of a symbol that exactly-once accounting is about. -/
structure FillSummary where
  openCount : ℕ
  closeCount : ℕ
  positionQty : ℚ
  realizedPnl : ℚ
  deriving DecidableEq

def fillSummary (sm : SessionManager) (sym : String) : Option FillSummary :=
  (sm.findContext sym).map fun ctx =>
    ⟨ctx.openPositions.length, ctx.closePositions.length, ctx.positionQty, ctx.realizedPnl⟩

/-- The number of fills booked for a symbol. -/
def entryCount (sm : SessionManager) (sym : String) : ℕ :=
  ((sm.findContext sym).map TradingContext.entryCount).getD 0

theorem entryCount_of_fillSummary_eq {sm sm' : SessionManager} {sym : String}
    (h : sm.fillSummary sym = sm'.fillSummary sym) : sm.entryCount sym = sm'.entryCount sym := by
  unfold fillSummary at h
  unfold entryCount TradingContext.entryCount
  cases hctx : sm.findContext sym with
  | none =>
    cases hctx' : sm'.findContext sym with
    | none => rfl
    | some ctx' => simp [hctx, hctx'] at h
  | some ctx =>
    cases hctx' : sm'.findContext sym with
    | none => simp [hctx, hctx'] at h
    | some ctx' =>
      simp only [hctx, hctx', Option.map_some, Option.some.injEq, FillSummary.mk.injEq] at h
      simp [h.1, h.2.1]

/-- A fill adds one entry to its symbol, if the symbol has a context. -/
theorem entryCount_recordOrderFill (sm : SessionManager) (order : Order) (sym : String) :
    (sm.recordOrderFill order).manager.entryCount sym =
      sm.entryCount sym +
        if order.tickerSymbol = sym ∧ (sm.findContext sym).isSome then 1 else 0 := by
  by_cases hsym : order.tickerSymbol = sym
  · subst hsym
    obtain ⟨order', -, -, hctx⟩ := findContext_recordOrderFill_self sm order
    unfold entryCount
    rw [hctx]
    cases sm.findContext order.tickerSymbol with
    | none => simp
    | some ctx => simp [TradingContext.recordFill_entryCount]
  · unfold entryCount
    rw [findContext_recordOrderFill_of_ne sm order hsym]
    simp [hsym]

theorem isSome_findContext_recordOrderFill (sm : SessionManager) (order : Order) (sym : String) :
    ((sm.recordOrderFill order).manager.findContext sym).isSome = (sm.findContext sym).isSome := by
  by_cases hsym : order.tickerSymbol = sym
  · subst hsym
    obtain ⟨order', -, -, hctx⟩ := findContext_recordOrderFill_self sm order
    rw [hctx]
    simp
  · rw [findContext_recordOrderFill_of_ne sm order hsym]

end SessionManager

/-! ## §4 The journal -/

/-- `_recorded_order_ids` and `_entries_by_ticker` are determined by the entries. -/
structure InMemoryTradingJournal where
  entries : List Order
  deriving DecidableEq

namespace InMemoryTradingJournal

def empty : InMemoryTradingJournal := ⟨[]⟩

/-- Whether the order id is in `_recorded_order_ids`. -/
def isRecorded (journal : InMemoryTradingJournal) (uuid : String) : Bool :=
  journal.entries.any fun entry => entry.uuid = uuid

/-- `InMemoryTradingJournal.record_fill`. -/
def recordFill (journal : InMemoryTradingJournal) (order : Order) : InMemoryTradingJournal :=
  if order.status ≠ some .completed then journal
  else if journal.isRecorded order.uuid then journal
  else ⟨journal.entries ++ [order]⟩

end InMemoryTradingJournal

end CryptoTrading.Session
