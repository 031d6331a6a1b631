import CryptoTrading.Lib.Run
import CryptoTrading.Session.SessionManager

/-!
# The order manager

Embeds `src/trading/orders/order_manager.py` with the parts of the order repository
(`postgres_order_repository.py`, `noop_database_manager.py`) that decide what a later
query sees.

Every database statement may raise; which ones do is an argument (`DbFault`).  A unit of
work that raises is rolled back, but what the loop has already done to the session, the
journal, the in-flight orders and the event bus stays.

Left out: threads and locks (each method body is one step; the queue worker is
`processOrderQueue`), log lines, and the text of rejection reasons.
-/

namespace CryptoTrading.Orders

open CryptoTrading.Lib CryptoTrading.Session

/-! ## §1 The order repository -/

/-- The statuses an order does not leave. -/
def isTerminal : Option OrderStatus → Bool
  | some .completed | some .cancelled | some .rejected => true
  | _ => false

/-- `OrderManager.OPEN_STATUSES`. -/
def isOpenStatus : Option OrderStatus → Bool
  | some .pending | some .processing => true
  | _ => false

/-- A row is the order it was written from; slippage is not stored. -/
inductive Database where
  | noop
  | sql (orders : Dict String Order) (trades : List Trade)

/-- The statements of one call that may raise: opening the unit of work, the `j`-th trade
    and the row of the `i`-th order, the commit. -/
inductive DbOp where
  | begin
  | tradeUpsert (i j : ℕ)
  | orderUpsert (i : ℕ)
  | commit
  deriving DecidableEq

/-- Which statements raise. -/
abbrev DbFault := DbOp → Bool

/-- A call in which the database works. -/
def noFault : DbFault := fun _ => false

namespace Database

/-- The database that does nothing never raises. -/
def raises (db : Database) (fault : DbFault) (op : DbOp) : Bool :=
  match db with
  | .noop => false
  | .sql _ _ => fault op

/-- The row after an upsert that hits an existing row. -/
def mergeRow (row order : Order) : Order :=
  if isTerminal row.status then row
  else
    -- the metadata are replaced together, as soon as the order has any of them
    let hasMetadata := order.winningStrategy.isSome || order.strategyVotes.isSome ||
      order.strategyAttributions.isSome || order.regime.isSome
    { row with
      price := order.price
      tickerSymbol := order.tickerSymbol
      status := order.status
      commitHash := order.commitHash.orElse fun _ => row.commitHash
      decisionId := order.decisionId.orElse fun _ => row.decisionId
      winningStrategy := if hasMetadata then order.winningStrategy else row.winningStrategy
      strategyVotes := if hasMetadata then order.strategyVotes else row.strategyVotes
      strategyAttributions :=
        if hasMetadata then order.strategyAttributions else row.strategyAttributions
      regime := if hasMetadata then order.regime else row.regime
      fees := order.fees.orElse fun _ => row.fees
      fillPrice := order.fillPrice.orElse fun _ => row.fillPrice
      executedTime := order.executedTime.orElse fun _ => row.executedTime }

theorem mergeRow_of_terminal {row : Order} (h : isTerminal row.status = true) (order : Order) :
    mergeRow row order = row := by
  unfold mergeRow
  rw [if_pos h]

theorem mergeRow_of_not_terminal {row : Order} (h : ¬ isTerminal row.status = true)
    (order : Order) :
    (mergeRow row order).tickerSymbol = order.tickerSymbol ∧
      (mergeRow row order).tradeAction = row.tradeAction ∧
      (mergeRow row order).status = order.status := by
  unfold mergeRow
  rw [if_neg h]
  exact ⟨rfl, rfl, rfl⟩

/-- The row that an upsert leaves under its order id. -/
def upsertedRow (orders : Dict String Order) (order : Order) : Order :=
  match orders.get? order.uuid with
  | some row => mergeRow row order
  | none => { order with slippage := none }

/-- `PostgresOrderRepository.upsert`; an order without a status cannot be mapped to a row. -/
def upsertOrder (db : Database) (order : Order) : Option Database :=
  match db with
  | .noop => some .noop
  | .sql orders trades =>
    if order.status.isNone then none
    else some (.sql (orders.set order.uuid (upsertedRow orders order)) trades)

/-- `PostgresTradeRepository.upsert` for each trade: trade ids are new, so rows are added. -/
def insertTrades (db : Database) (newTrades : List Trade) : Database :=
  match db with
  | .noop => .noop
  | .sql orders trades => .sql orders (trades ++ newTrades)

/-- `PostgresOrderRepository.get_non_terminal`. -/
def getNonTerminal (db : Database) : List Order :=
  match db with
  | .noop => []
  | .sql orders _ => orders.values.filter fun row => !isTerminal row.status

end Database

/-! ## §2 State and events -/

inductive OrderEvent where
  | tradeClosed (symbol : String) (trade : Trade)
  | positionChanged (symbol : String) (action : TradeAction)
      (quantity price positionQty realizedPnl : ℚ)
  | orderFilled (symbol : String) (order : Order)
  | orderCancelled (symbol : String) (order : Order)
  | orderRejected (symbol : String) (order : Order)
  deriving DecidableEq

/-- How an execution goes: whether the exchange refuses the order, whether saving the
    accepted order raises, whether saving the rejected one does. -/
structure Execution where
  placeRaises : Bool
  saveRaises : Bool
  rejectSaveRaises : Bool
  deriving DecidableEq

structure OrderManager where
  database : Database
  tradingJournal : InMemoryTradingJournal
  sessionManager : SessionManager
  published : List OrderEvent
  orderQueue : List Order
  inFlightOrders : Dict String (String × TradeAction)
  synchronousExecution : Bool

namespace OrderManager

def new (database : Database) (sessionManager : SessionManager) (synchronousExecution : Bool) :
    OrderManager where
  database := database
  tradingJournal := InMemoryTradingJournal.empty
  sessionManager := sessionManager
  published := []
  orderQueue := []
  inFlightOrders := Dict.empty
  synchronousExecution := synchronousExecution

def publish (m : OrderManager) (events : List OrderEvent) : OrderManager :=
  { m with published := m.published ++ events }

/-- Forget the in-flight entry of an order that is reported in no open status. -/
def popInFlight (m : OrderManager) (order : Order) : OrderManager :=
  if isOpenStatus order.status then m
  else { m with inFlightOrders := m.inFlightOrders.erase order.uuid }

/-! ## §3 Saving order updates -/

/-- The events of a fill: closed trades, the new position, the fill itself. -/
def fillEvents (sm : SessionManager) (order : Order) (trades : List Trade) : List OrderEvent :=
  trades.map (OrderEvent.tradeClosed order.tickerSymbol) ++
    (match sm.findContext order.tickerSymbol with
      | some ctx => [.positionChanged order.tickerSymbol order.tradeAction order.quantity
          order.effectivePrice ctx.positionQty ctx.realizedPnl]
      | none => []) ++
    [.orderFilled order.tickerSymbol order]

/-- Write the row of the `i`-th order; `none` when the statement raises. -/
def writeRow (m : OrderManager) (fault : DbFault) (i : ℕ) (uow : Database) (order : Order) :
    OrderManager × Option Database :=
  if uow.raises fault (.orderUpsert i) then (m, none) else (m, uow.upsertOrder order)

/-- The body of the loop in `_save_orders_to_database` for the `i`-th order. -/
def processUpdate (m : OrderManager) (fault : DbFault) (i : ℕ) (uow : Database) (order : Order) :
    OrderManager × Option Database :=
  let order := m.sessionManager.fillCommitHash order
  let m := m.popInFlight order
  match order.status with
  | some .completed =>
    -- both books are written before the first statement of the unit of work
    let recorded := m.sessionManager.recordOrderFill order
    let m := { m with
      tradingJournal := m.tradingJournal.recordFill order
      sessionManager := recorded.manager }
    if (List.range recorded.trades.length).any fun j => uow.raises fault (.tradeUpsert i j) then
      (m, none)
    else
      -- the events go out before the row is written, and are not taken back
      let m := m.publish (fillEvents m.sessionManager recorded.order recorded.trades)
      m.writeRow fault i (uow.insertTrades recorded.trades) recorded.order
  | some .cancelled =>
    (m.publish [.orderCancelled order.tickerSymbol order]).writeRow fault i uow order
  | _ => m.writeRow fault i uow order

/-- The loop of `_save_orders_to_database`; `none` when a statement raised. -/
def saveLoop (fault : DbFault) : ℕ → OrderManager → Database → List Order →
    OrderManager × Option Database
  | _, m, uow, [] => (m, some uow)
  | i, m, uow, order :: rest =>
    match m.processUpdate fault i uow order with
    | (m, none) => (m, none)
    | (m, some uow) => saveLoop fault (i + 1) m uow rest

/-- `OrderManager._save_orders_to_database`: the flag says that it raised. -/
def saveOrdersToDatabase (m : OrderManager) (orders : List Order) (fault : DbFault) :
    OrderManager × Bool :=
  if m.database.raises fault .begin then (m, true)
  else
    match saveLoop fault 0 m m.database orders with
    -- rolled back: the rows are those of before, the rest of the manager is not
    | (m', none) => (m', true)
    | (m', some uow) =>
      if m.database.raises fault .commit then (m', true)
      else ({ m' with database := uow }, false)

/-! ## §4 Outstanding intents -/

/-- Whether the recorded symbol and side are the ones asked for. -/
def intentMatches (tickerSymbol : String) (tradeAction : Option TradeAction) (symbol : String)
    (action : TradeAction) : Bool :=
  symbol = tickerSymbol && (tradeAction = none || tradeAction = some action)

/-- `OrderManager.has_outstanding_intent`; a query that raises counts as no row. -/
def hasOutstandingIntent (m : OrderManager) (tickerSymbol : String)
    (tradeAction : Option TradeAction) (queryRaises : Bool) : Bool :=
  m.inFlightOrders.values.any (fun e => intentMatches tickerSymbol tradeAction e.1 e.2) ||
    (!queryRaises && m.database.getNonTerminal.any fun row =>
      intentMatches tickerSymbol tradeAction row.tickerSymbol row.tradeAction &&
        isOpenStatus row.status)

/-! ## §5 Opening and executing orders -/

/-- Save one order in a unit of work of its own. -/
def saveOrder (m : OrderManager) (order : Order) (raises : Bool) : OrderManager × Bool :=
  if m.database.raises (fun _ => raises) (.orderUpsert 0) then (m, true)
  else
    match m.database.upsertOrder order with
    | some db => ({ m with database := db }, false)
    | none => (m, true)

/-- `OrderManager.execute_order`: the flag says that it raised. -/
def executeOrder (m : OrderManager) (order : Order) (ex : Execution) : OrderManager × Bool :=
  let order := m.sessionManager.fillCommitHash order
  let rejected : Order := { order with status := some .rejected }
  if ex.placeRaises then ((m.saveOrder rejected ex.rejectSaveRaises).1, true)
  else
    match m.saveOrder order ex.saveRaises with
    | (m, false) => (m, false)
    -- the exchange has the order, but it is saved as rejected
    | (m, true) => ((m.saveOrder rejected ex.rejectSaveRaises).1, true)

/-- The order `open_order` builds: its commit hash is the given one or the current one. -/
def openedOrder (m : OrderManager) (order : Order) : Order :=
  { order with
    commitHash := orElseStr order.commitHash (some m.sessionManager.getCurrentCommitHash)
    status := some .pending
    executedTime := none
    fees := none
    fillPrice := none
    slippage := none }

/-- `OrderManager.open_order`: the flag says that the execution raised. -/
def openOrder (m : OrderManager) (order : Order) (ex : Execution) : OrderManager × Bool :=
  let order := m.openedOrder order
  let m := { m with
    inFlightOrders := m.inFlightOrders.set order.uuid (order.tickerSymbol, order.tradeAction) }
  -- an error of the execution leaves the entry where it is
  if m.synchronousExecution then m.executeOrder order ex
  else ({ m with orderQueue := m.orderQueue ++ [order] }, false)

/-- One round of `OrderManager.process_order_queue`. -/
def processOrderQueue (m : OrderManager) (ex : Execution) : OrderManager :=
  match m.orderQueue with
  | [] => m
  | order :: rest =>
    match OrderManager.executeOrder { m with orderQueue := rest } order ex with
    | (m, false) => m
    | (m, true) =>
      -- only the worker has an error handler that forgets the intent
      let rejected : Order :=
        { m.sessionManager.fillCommitHash order with status := some .rejected }
      OrderManager.publish { m with inFlightOrders := m.inFlightOrders.erase order.uuid }
        [.orderRejected order.tickerSymbol rejected]

/-! ## §6 Reconciliation, cancellation and shutdown -/

/-- What `get_order` answers: nothing usable, no order or no status, or a report. -/
inductive ExchangeReply where
  | unreachable
  | noStatus
  | report (status : OrderStatus) (fillPrice fees executedTime : Option ℚ)

/-- The order that is saved for a reply, if any. -/
def reconciledOrder (order : Order) : ExchangeReply → Option Order
  | .unreachable => none
  | .noStatus => some { order with status := some .reconciliationRequired }
  | .report status fillPrice fees executedTime =>
    some { order with
      status := some status
      fillPrice := fillPrice
      fees := fees
      executedTime := executedTime }

/-- Save the orders one by one, each in a call of its own; errors are logged only. -/
def saveEach (fault : String → DbFault) (m : OrderManager) (orders : List Order) : OrderManager :=
  orders.foldl (fun m order => (m.saveOrdersToDatabase [order] (fault order.uuid)).1) m

/-- `OrderManager.reconcile_pending_orders`. -/
def reconcilePendingOrders (m : OrderManager) (registered : List String)
    (reply : Order → ExchangeReply) (loadRaises : Bool) (fault : String → DbFault) : OrderManager :=
  if m.database.raises (fun _ => loadRaises) .begin then m
  else
    let pending := m.database.getNonTerminal.filter fun row => row.providerName ∈ registered
    m.saveEach fault (pending.filterMap fun row => reconciledOrder row (reply row))

/-- `OrderManager._cancel_open_orders`: `accepted` are the cancellations the exchange takes. -/
def cancelOpenOrders (m : OrderManager) (accepted : Order → Bool) (loadRaises : Bool)
    (fault : String → DbFault) : OrderManager :=
  if m.database.raises (fun _ => loadRaises) .begin then m
  else
    let openOrders := m.database.getNonTerminal.filter fun row => isOpenStatus row.status
    m.saveEach fault ((openOrders.filter accepted).map fun row =>
      { row with status := some .cancelled })

/-- `OrderManager.shutdown`, after the worker has stopped. -/
def shutdown (m : OrderManager) (registered : List String) (reply : Order → ExchangeReply)
    (accepted : Order → Bool) (reconcileRaises cancelRaises : Bool)
    (fault : String → DbFault) : OrderManager :=
  let m := m.reconcilePendingOrders registered reply reconcileRaises fault
  let m := m.cancelOpenOrders accepted cancelRaises fault
  { m with inFlightOrders := Dict.empty }

end OrderManager

end CryptoTrading.Orders
