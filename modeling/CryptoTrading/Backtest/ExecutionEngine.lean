import Mathlib.Algebra.Order.Ring.Abs
import Mathlib.Algebra.Order.Ring.Rat
import Mathlib.Data.List.Sort
import CryptoTrading.Api.Interfaces
import CryptoTrading.Lib.Dict

/-!
# The backtest execution engine

Embeds `src/backtest/execution/backtest_execution_engine.py` with its execution model
(`fixed_latency.py`, `fixed_tick_slippage.py`, `percentage_fee.py`), `backtest_clock.py`,
`backtest_data_set.py` and the order creation of `backtest_rest_service.py`.

The engine publishes its events while it works; no subscriber calls back into it, so an
operation returns the events in the order in which they are published.  Left out: balance
updates, log lines and the reason texts that only they show.
-/

namespace CryptoTrading.Backtest

open CryptoTrading.Lib

/-! ## §1 Data and clock -/

structure HistoricalDataPoint where
  timestamp : ℤ
  closePrice : ℚ
  deriving DecidableEq

/-- Data points in strictly increasing time, as `__post_init__` checks. -/
structure BacktestDataSet where
  dataPoints : List HistoricalDataPoint
  ordered : (dataPoints.map (·.timestamp)).Pairwise (· < ·)

namespace BacktestDataSet

def timestamps (dataset : BacktestDataSet) : List ℤ := dataset.dataPoints.map (·.timestamp)

def get (dataset : BacktestDataSet) (timestamp : ℤ) : Option HistoricalDataPoint :=
  dataset.dataPoints.find? fun point => point.timestamp = timestamp

end BacktestDataSet

/-- The timestamps of each asset, sorted. -/
structure BacktestClock where
  timestamps : Dict String (List ℤ)

namespace BacktestClock

def new (timestamps : Dict String (List ℤ)) : BacktestClock :=
  ⟨timestamps.mapValues fun ts => ts.insertionSort (· ≤ ·)⟩

/-- `BacktestClock.next_timestamp_at_or_after`: the first one in the sorted list. -/
def nextTimestampAtOrAfter (clock : BacktestClock) (key : String) (target : ℚ) : Option ℤ :=
  (clock.timestamps.getD key []).find? fun ts => target ≤ ts

end BacktestClock

/-! ## §2 The execution model -/

/-- `ExecutionConfiguration`, and the model `build_execution_model` makes of it. -/
structure ExecutionModel where
  latencyMs : ℚ
  slippageTicks : ℤ
  feeRate : ℚ

namespace ExecutionModel

/-- `FixedLatencyModel.get_latency`, in seconds. -/
def getLatency (model : ExecutionModel) : ℚ := model.latencyMs / 1000

/-- `FixedTickSlippage.apply`. -/
def applySlippage (model : ExecutionModel) (tradeAction : TradeAction) (price : ℚ) (asset : Asset) :
    ℚ :=
  let tickSize : ℚ := 1 / 10 ^ asset.quoteDecimals
  let slippage := model.slippageTicks * tickSize
  match tradeAction with
  | .buy => price + slippage
  | .sell => price - slippage

/-- `PercentageFee.calculate`. -/
def calculateFee (model : ExecutionModel) (notional : ℚ) : ℚ := |notional| * model.feeRate

end ExecutionModel

/-! ## §3 Orders and the account -/

structure PendingOrder where
  orderUuid : String
  tickerSymbol : String
  tradeAction : TradeAction
  quantity : ℚ
  requestedPrice : ℚ
  signalAt : ℚ
  submittedAt : ℚ
  eligibleAt : ℚ
  commitHash : Option String
  executionTimestamp : Option ℤ
  deriving DecidableEq

structure ExecutionResult where
  orderUuid : String
  tickerSymbol : String
  tradeAction : TradeAction
  status : OrderStatus
  requestedPrice : ℚ
  marketPrice : ℚ
  executionPrice : ℚ
  requestedQuantity : ℚ
  executedQuantity : ℚ
  slippagePerUnit : ℚ
  slippageCost : ℚ
  fee : ℚ
  signalAt : ℚ
  submittedAt : ℚ
  eligibleAt : ℚ
  executedAt : ℚ
  commitHash : Option String
  deriving DecidableEq

structure SimulatedAccount where
  balanceUsd : ℚ
  positions : Dict String ℚ
  orders : List Order

/-- The order objects are shared: a change is seen through the list. -/
def updateOrder (uuid : String) (f : Order → Order) : List Order → List Order
  | [] => []
  | order :: rest => if order.uuid = uuid then f order :: rest else order :: updateOrder uuid f rest

namespace SimulatedAccount

def new (initialBalance : ℚ) : SimulatedAccount := ⟨initialBalance, Dict.empty, []⟩

/-- `BacktestExecutionEngine._find_order`. -/
def findOrder (account : SimulatedAccount) (uuid : String) : Option Order :=
  account.orders.find? fun order => order.uuid = uuid

def update (account : SimulatedAccount) (uuid : String) (f : Order → Order) : SimulatedAccount :=
  { account with orders := updateOrder uuid f account.orders }

/-- `BacktestExecutionEngine._apply_to_account`; `none` when the funds do not suffice.
    Quantities are positive, so a symbol that can be sold has an entry. -/
def apply (account : SimulatedAccount) (pending : PendingOrder) (price fee : ℚ) :
    Option SimulatedAccount :=
  let total := pending.quantity * price
  let position := account.positions.getD pending.tickerSymbol 0
  match pending.tradeAction with
  | .buy =>
    -- the fee is paid on top of a purchase and taken out of the proceeds of a sale
    let cost := total + fee
    if account.balanceUsd < cost then none
    else some { account with
      balanceUsd := account.balanceUsd - cost
      positions := account.positions.set pending.tickerSymbol (position + pending.quantity) }
  | .sell =>
    if position < pending.quantity then none
    else some { account with
      balanceUsd := account.balanceUsd + (total - fee)
      positions := account.positions.set pending.tickerSymbol (position - pending.quantity) }

end SimulatedAccount

/-! ## §4 The engine -/

inductive EngineEvent where
  | orderSubmitted (order : Order)
  | orderFilled (order : Order) (execution : ExecutionResult)
  | orderCancelled (order : Order)

structure BacktestExecutionEngine where
  clock : BacktestClock
  datasets : Dict String BacktestDataSet
  model : ExecutionModel
  assets : Dict String Asset
  account : SimulatedAccount
  pending : Dict String (List PendingOrder)
  results : List ExecutionResult

/-- The provider name of the backtest services. -/
def backtestProvider : String := "BACKTEST"

namespace BacktestExecutionEngine

/-- The pending order that `submit` builds: it is executed at the first tick after the
    latency has passed. -/
def pendingOrder (e : BacktestExecutionEngine) (order : Order) (tickerSymbol : String) :
    PendingOrder :=
  let eligibleAt := order.createdTime + e.model.getLatency
  { orderUuid := order.uuid
    tickerSymbol := tickerSymbol
    tradeAction := order.tradeAction
    quantity := order.quantity
    requestedPrice := order.price
    signalAt := order.createdTime
    submittedAt := order.createdTime
    eligibleAt := eligibleAt
    commitHash := order.commitHash
    executionTimestamp := e.clock.nextTimestampAtOrAfter tickerSymbol eligibleAt }

/-- `BacktestExecutionEngine.submit`. -/
def submit (e : BacktestExecutionEngine) (order : Order) (tickerSymbol : String) :
    BacktestExecutionEngine × List EngineEvent :=
  let pendingList := e.pending.getD tickerSymbol [] ++ [e.pendingOrder order tickerSymbol]
  let orders :=
    -- the backtest service has added the order already
    if (e.account.findOrder order.uuid).isSome then e.account.orders
    else e.account.orders ++ [order]
  ({ e with
      pending := e.pending.set tickerSymbol pendingList
      account := { e.account with orders := orders } }, [.orderSubmitted order])

/-- The order `BacktestRestService._handle_create_order` builds from one that `execute_order`
    places: what is not in its arguments or in the metadata is lost. -/
def createdOrder (placed : Order) : Order :=
  { Order.new placed.uuid backtestProvider placed.tickerSymbol placed.price placed.quantity
      placed.tradeAction placed.createdTime with
    commitHash := orElseStr placed.commitHash (some "HEAD")
    winningStrategy := placed.winningStrategy
    strategyVotes := placed.strategyVotes
    strategyAttributions := placed.strategyAttributions }

def addOrder (e : BacktestExecutionEngine) (order : Order) : BacktestExecutionEngine :=
  { e with account := { e.account with orders := e.account.orders ++ [order] } }

/-- `BacktestRestService._handle_create_order`. -/
def createOrder (e : BacktestExecutionEngine) (placed : Order) :
    BacktestExecutionEngine × List EngineEvent :=
  (e.addOrder (createdOrder placed)).submit (createdOrder placed) placed.tickerSymbol

/-- `BacktestExecutionEngine._make_cancelled_order`. -/
def makeCancelledOrder (pending : PendingOrder) : Order :=
  { Order.new pending.orderUuid backtestProvider pending.tickerSymbol pending.requestedPrice
      pending.quantity pending.tradeAction pending.signalAt with
    commitHash := pending.commitHash
    status := some .cancelled }

/-- `BacktestExecutionEngine._cancel_order`. -/
def cancelOrder (e : BacktestExecutionEngine) (pending : PendingOrder) :
    BacktestExecutionEngine × List EngineEvent :=
  let cancel (order : Order) : Order := { order with status := some .cancelled }
  match e.account.findOrder pending.orderUuid with
  | some order =>
    ({ e with account := e.account.update pending.orderUuid cancel },
      [.orderCancelled (cancel order)])
  | none => (e, [.orderCancelled (makeCancelledOrder pending)])

/-- The account after the fill and the result of the fill, in `_fill_order`; `none` where it
    cancels the order: no data at the tick, an unknown asset, or insufficient funds. -/
def execution (e : BacktestExecutionEngine) (pending : PendingOrder) :
    Option (SimulatedAccount × ExecutionResult) := do
  let timestamp ← pending.executionTimestamp
  let dataset ← e.datasets.get? pending.tickerSymbol
  -- the price is the close of the execution tick, not of the current one
  let data ← dataset.get timestamp
  let asset ← e.assets.get? pending.tickerSymbol
  let executedPrice := e.model.applySlippage pending.tradeAction data.closePrice asset
  let fee := e.model.calculateFee (pending.quantity * executedPrice)
  let account ← e.account.apply pending executedPrice fee
  let slippagePerUnit := executedPrice - data.closePrice
  some (account,
    { orderUuid := pending.orderUuid
      tickerSymbol := pending.tickerSymbol
      tradeAction := pending.tradeAction
      status := .completed
      requestedPrice := pending.requestedPrice
      marketPrice := data.closePrice
      executionPrice := executedPrice
      requestedQuantity := pending.quantity
      executedQuantity := pending.quantity
      slippagePerUnit := slippagePerUnit
      slippageCost := slippagePerUnit * pending.quantity
      fee := fee
      signalAt := pending.signalAt
      submittedAt := pending.submittedAt
      eligibleAt := pending.eligibleAt
      executedAt := timestamp
      commitHash := pending.commitHash })

/-- What a fill writes into its order. -/
def completeOrder (result : ExecutionResult) (order : Order) : Order :=
  { order with
    status := some .completed
    executedTime := some result.executedAt
    fees := some result.fee
    fillPrice := some result.executionPrice }

/-- `BacktestExecutionEngine._fill_order`. -/
def fillOrder (e : BacktestExecutionEngine) (pending : PendingOrder) :
    BacktestExecutionEngine × List EngineEvent :=
  match e.execution pending with
  | none => e.cancelOrder pending
  | some (account, result) =>
    match account.findOrder pending.orderUuid with
    | some order =>
      ({ e with
          account := account.update pending.orderUuid (completeOrder result)
          results := e.results ++ [result] }, [.orderFilled (completeOrder result order) result])
    -- the funds have moved, but without its order the fill is not published
    | none => ({ e with account := account, results := e.results ++ [result] }, [])

/-- Whether a pending order is executed by the time of a tick. -/
def isDue (timestamp : ℤ) (pending : PendingOrder) : Bool :=
  match pending.executionTimestamp with
  | some ts => ts ≤ timestamp
  | none => false

/-- The orders of a symbol that a tick executes. -/
def due (e : BacktestExecutionEngine) (tickerSymbol : String) (timestamp : ℤ) : List PendingOrder :=
  (e.pending.getD tickerSymbol []).filter (isDue timestamp)

/-- The loop of `process`. -/
def fillAll (e : BacktestExecutionEngine) : List PendingOrder →
    BacktestExecutionEngine × List EngineEvent
  | [] => (e, [])
  | pending :: rest =>
    let (e, events) := e.fillOrder pending
    let (e, later) := fillAll e rest
    (e, events ++ later)

/-- `BacktestExecutionEngine.process`. -/
def process (e : BacktestExecutionEngine) (tickerSymbol : String) (currentTimestamp : ℤ) :
    BacktestExecutionEngine × List EngineEvent :=
  let due := e.due tickerSymbol currentTimestamp
  let rest := (e.pending.getD tickerSymbol []).filter fun pending => !isDue currentTimestamp pending
  -- orders of other symbols wait for ticks of their own symbol
  fillAll { e with pending := e.pending.set tickerSymbol rest } due

end BacktestExecutionEngine

/-! ## §5 What an update of an order leaves alone -/

/-- An update that leaves the identity of an order alone. -/
structure KeepsIdentity (f : Order → Order) : Prop where
  uuid_eq : ∀ order, (f order).uuid = order.uuid
  tickerSymbol_eq : ∀ order, (f order).tickerSymbol = order.tickerSymbol

theorem find?_updateOrder {f : Order → Order} (hf : KeepsIdentity f) (uuid v : String)
    (orders : List Order) :
    (updateOrder uuid f orders).find? (fun order => order.uuid = v) =
      (orders.find? fun order => order.uuid = v).map fun order =>
        if v = uuid then f order else order := by
  induction orders with
  | nil => rfl
  | cons order rest ih =>
    unfold updateOrder
    rcases eq_or_ne order.uuid uuid with rfl | hne
    -- the first order with this id is the one that changes
    · rw [if_pos rfl, List.find?_cons, List.find?_cons, hf.uuid_eq]
      rcases eq_or_ne order.uuid v with rfl | hv
      · simp
      · have hv' : ¬ v = order.uuid := fun h => hv h.symm
        simp only [hv, hv', decide_false, if_false]
        rw [Option.map_id']
    · rw [if_neg hne, List.find?_cons, List.find?_cons]
      rcases eq_or_ne order.uuid v with rfl | hv
      · simp [hne]
      -- neither the changed order nor the one looked for
      · simp only [hv, decide_false]
        exact ih

namespace SimulatedAccount

theorem findOrder_update (account : SimulatedAccount) {f : Order → Order} (hf : KeepsIdentity f)
    (uuid v : String) :
    (account.update uuid f).findOrder v =
      (account.findOrder v).map fun order => if v = uuid then f order else order :=
  find?_updateOrder hf uuid v account.orders

/-- Funds do not depend on the orders. -/
theorem apply_update (account : SimulatedAccount) (uuid : String) (f : Order → Order)
    (pending : PendingOrder) (price fee : ℚ) :
    (account.update uuid f).apply pending price fee =
      (account.apply pending price fee).map (·.update uuid f) := by
  unfold apply update
  cases pending.tradeAction with
  | buy =>
    simp only
    split <;> rfl
  | sell =>
    simp only
    split <;> rfl

theorem apply_orders {account account' : SimulatedAccount} {pending : PendingOrder} {price fee : ℚ}
    (h : account.apply pending price fee = some account') : account'.orders = account.orders := by
  unfold apply at h
  cases hside : pending.tradeAction with
  | buy =>
    simp only [hside] at h
    split at h
    · cases h
    · obtain rfl := Option.some.inj h
      rfl
  | sell =>
    simp only [hside] at h
    split at h
    · cases h
    · obtain rfl := Option.some.inj h
      rfl

end SimulatedAccount

namespace BacktestExecutionEngine

/-! ## §6 What a tick fills -/

/-- Whether a pending order would be filled now. -/
def canFill (e : BacktestExecutionEngine) (pending : PendingOrder) : Bool :=
  (e.execution pending).isSome

theorem execution_update (e : BacktestExecutionEngine) (uuid : String) (f : Order → Order)
    (pending : PendingOrder) :
    execution { e with account := e.account.update uuid f } pending =
      (e.execution pending).map fun r => (r.1.update uuid f, r.2) := by
  unfold execution
  cases pending.executionTimestamp with
  | none => rfl
  | some ts =>
    cases e.datasets.get? pending.tickerSymbol with
    | none => rfl
    | some dataset =>
      simp only [Option.bind_eq_bind, Option.bind_some]
      cases dataset.get ts with
      | none => rfl
      | some data =>
        cases e.assets.get? pending.tickerSymbol with
        | none => rfl
        | some asset =>
          simp only [Option.bind_some, SimulatedAccount.apply_update]
          cases e.account.apply pending
            (e.model.applySlippage pending.tradeAction data.closePrice asset)
            (e.model.calculateFee (pending.quantity *
              e.model.applySlippage pending.tradeAction data.closePrice asset)) <;> rfl

theorem canFill_update (e : BacktestExecutionEngine) (uuid : String) (f : Order → Order)
    (pending : PendingOrder) :
    canFill { e with account := e.account.update uuid f } pending = e.canFill pending := by
  unfold canFill
  rw [execution_update, Option.isSome_map]

/-- A fill is a fill of the pending order, and touches no order. -/
theorem execution_some {e : BacktestExecutionEngine} {pending : PendingOrder}
    {account : SimulatedAccount} {result : ExecutionResult}
    (h : e.execution pending = some (account, result)) :
    account.orders = e.account.orders ∧ result.tickerSymbol = pending.tickerSymbol := by
  unfold execution at h
  simp only [Option.bind_eq_bind, Option.bind_eq_some_iff, Option.some.injEq, Prod.mk.injEq] at h
  obtain ⟨ts, -, dataset, -, data, -, asset, -, applied, happly, rfl, rfl⟩ := h
  exact ⟨SimulatedAccount.apply_orders happly, rfl⟩

/-- The orders a list of events reports as filled. -/
def filledOrders (events : List EngineEvent) : List Order :=
  events.filterMap fun
    | .orderFilled order _ => some order
    | _ => none

theorem filledOrders_append (events later : List EngineEvent) :
    filledOrders (events ++ later) = filledOrders events ++ filledOrders later :=
  List.filterMap_append

/-- A pending order of the symbol whose order is known to the account. -/
def Backed (e : BacktestExecutionEngine) (sym : String) (pending : PendingOrder) : Prop :=
  pending.tickerSymbol = sym ∧
    ∃ order, e.account.findOrder pending.orderUuid = some order ∧ order.tickerSymbol = sym

/-- Nothing but the account and the results has changed, and no order has lost its
    identity. -/
structure FillFrame (e e' : BacktestExecutionEngine) : Prop where
  assets_eq : e'.assets = e.assets
  pending_eq : e'.pending = e.pending
  uuids_eq : e'.account.orders.map (·.uuid) = e.account.orders.map (·.uuid)
  backed : ∀ sym pending, e.Backed sym pending → e'.Backed sym pending

theorem FillFrame.refl (e : BacktestExecutionEngine) : FillFrame e e :=
  ⟨rfl, rfl, rfl, fun _ _ h => h⟩

theorem FillFrame.trans {a b c : BacktestExecutionEngine} (h₁ : FillFrame a b)
    (h₂ : FillFrame b c) : FillFrame a c :=
  ⟨h₂.assets_eq.trans h₁.assets_eq, h₂.pending_eq.trans h₁.pending_eq,
    h₂.uuids_eq.trans h₁.uuids_eq, fun sym p h => h₂.backed sym p (h₁.backed sym p h)⟩

theorem map_uuid_updateOrder {f : Order → Order} (hf : KeepsIdentity f) (uuid : String)
    (orders : List Order) :
    (updateOrder uuid f orders).map (·.uuid) = orders.map (·.uuid) := by
  induction orders with
  | nil => rfl
  | cons order rest ih =>
    unfold updateOrder
    split
    · rw [List.map_cons, List.map_cons, hf.uuid_eq]
    · rw [List.map_cons, List.map_cons, ih]

/-- An update of one order in an account with the same orders. -/
theorem fillFrame_update {e : BacktestExecutionEngine} {account : SimulatedAccount}
    (horders : account.orders = e.account.orders) {f : Order → Order} (hf : KeepsIdentity f)
    (uuid : String) (results : List ExecutionResult) :
    FillFrame e { e with account := account.update uuid f, results := results } where
  assets_eq := rfl
  pending_eq := rfl
  uuids_eq := by
    show (updateOrder uuid f account.orders).map (·.uuid) = _
    rw [map_uuid_updateOrder hf, horders]
  backed := by
    intro sym pending h
    obtain ⟨hsym, order, hfind, horder⟩ := h
    have hfind' : account.findOrder pending.orderUuid = some order := by
      unfold SimulatedAccount.findOrder at hfind ⊢
      rw [horders]
      exact hfind
    refine ⟨hsym, if pending.orderUuid = uuid then f order else order, ?_, ?_⟩
    · show (account.update uuid f).findOrder pending.orderUuid = _
      rw [account.findOrder_update hf, hfind']
      rfl
    · split
      · rw [hf.tickerSymbol_eq, horder]
      · exact horder

theorem keepsIdentity_cancel :
    KeepsIdentity fun order : Order => { order with status := some .cancelled } :=
  ⟨fun _ => rfl, fun _ => rfl⟩

theorem keepsIdentity_completeOrder (result : ExecutionResult) :
    KeepsIdentity (completeOrder result) :=
  ⟨fun _ => rfl, fun _ => rfl⟩

/-- What `_fill_order` does with a pending order that is backed. -/
theorem fillOrder_spec {e : BacktestExecutionEngine} {sym : String} {pending : PendingOrder}
    (h : e.Backed sym pending) :
    FillFrame e (e.fillOrder pending).1 ∧
      ((e.canFill pending = false ∧ (e.fillOrder pending).1.results = e.results ∧
          filledOrders (e.fillOrder pending).2 = [] ∧
          ∀ other, (e.fillOrder pending).1.canFill other = e.canFill other) ∨
        (e.canFill pending = true ∧ ∃ result order,
          (e.fillOrder pending).1.results = e.results ++ [result] ∧ result.tickerSymbol = sym ∧
          filledOrders (e.fillOrder pending).2 = [order] ∧ order.tickerSymbol = sym ∧
          order.status = some .completed)) := by
  obtain ⟨hsym, order, hfind, horder⟩ := h
  unfold fillOrder canFill
  -- an order that cannot be executed is cancelled, any other is completed
  cases hexec : e.execution pending with
  | none =>
    simp only [cancelOrder, hfind]
    refine ⟨fillFrame_update rfl keepsIdentity_cancel pending.orderUuid e.results,
      .inl ⟨rfl, trivial, rfl, fun other => ?_⟩⟩
    exact canFill_update e pending.orderUuid _ other
  | some r =>
    obtain ⟨account, result⟩ := r
    obtain ⟨horders, hresult⟩ := execution_some hexec
    have hfind' : account.findOrder pending.orderUuid = some order := by
      unfold SimulatedAccount.findOrder at hfind ⊢
      rw [horders]
      exact hfind
    simp only [hfind']
    refine ⟨fillFrame_update horders (keepsIdentity_completeOrder result) _ _, .inr ⟨rfl, ?_⟩⟩
    exact ⟨result, completeOrder result order, rfl, hresult.trans hsym, rfl, horder, rfl⟩

/-- What a tick fills: as many orders are reported filled as there are new results, all of
    the symbol, and there are none exactly when nothing could be filled to begin with. -/
theorem fillAll_spec {e : BacktestExecutionEngine} {sym : String} {ps : List PendingOrder}
    (h : ∀ pending ∈ ps, e.Backed sym pending) :
    FillFrame e (e.fillAll ps).1 ∧ ∃ results,
      (e.fillAll ps).1.results = e.results ++ results ∧
      (∀ result ∈ results, result.tickerSymbol = sym) ∧
      (filledOrders (e.fillAll ps).2).length = results.length ∧
      (∀ order ∈ filledOrders (e.fillAll ps).2,
        order.tickerSymbol = sym ∧ order.status = some .completed) ∧
      (results = [] ↔ ∀ pending ∈ ps, e.canFill pending = false) := by
  induction ps generalizing e with
  | nil =>
    refine ⟨FillFrame.refl e, [], (List.append_nil _).symm, ?_, rfl, ?_, ?_⟩
    · intro result hmem
      cases hmem
    · intro order hmem
      cases hmem
    · exact ⟨fun _ pending hmem => absurd hmem List.not_mem_nil, fun _ => rfl⟩
  | cons pending rest ih =>
    obtain ⟨hframe, hcases⟩ := fillOrder_spec (h pending List.mem_cons_self)
    -- the first fill may use up the funds of the later ones, but leaves them backed
    have hrest : ∀ p ∈ rest, (e.fillOrder pending).1.Backed sym p := fun p hp =>
      hframe.backed sym p (h p (List.mem_cons_of_mem pending hp))
    obtain ⟨hframe', results, hresults, hticker, hlength, hfilled, hnil⟩ := ih hrest
    simp only [fillAll, filledOrders_append]
    refine ⟨hframe.trans hframe', ?_⟩
    rcases hcases with ⟨hno, hsame, hevents, hcan⟩ | ⟨hyes, result, order, hnew, hsym, hevents,
      hosym, hstatus⟩
    -- cancelled: the rest is as if it had come first
    · refine ⟨results, ?_, hticker, ?_, ?_, ?_⟩
      · rw [hresults, hsame]
      · rw [hevents, List.nil_append, hlength]
      · rw [hevents, List.nil_append]
        exact hfilled
      · rw [hnil, List.forall_mem_cons]
        simp only [hcan]
        exact ⟨fun hall => ⟨hno, hall⟩, fun hall => hall.2⟩
    -- filled: there is a result, and something could be filled
    · refine ⟨result :: results, ?_, ?_, ?_, ?_, ?_⟩
      · rw [hresults, hnew, List.append_assoc]
        rfl
      · rw [List.forall_mem_cons]
        exact ⟨hsym, hticker⟩
      · rw [hevents, List.length_append, hlength, List.length_singleton, List.length_cons,
          Nat.add_comm]
      · rw [hevents]
        intro o ho
        rcases List.mem_append.mp ho with ho | ho
        · obtain rfl := List.mem_singleton.mp ho
          exact ⟨hosym, hstatus⟩
        · exact hfilled o ho
      · constructor
        · intro habsurd
          cases habsurd
        · intro hall
          rw [hall pending List.mem_cons_self] at hyes
          cases hyes

/-- Only orders of known assets are filled. -/
theorem isSome_asset_of_canFill {e : BacktestExecutionEngine} {pending : PendingOrder}
    (h : e.canFill pending = true) : (e.assets.get? pending.tickerSymbol).isSome := by
  unfold canFill at h
  obtain ⟨r, hr⟩ := Option.isSome_iff_exists.mp h
  unfold execution at hr
  simp only [Option.bind_eq_bind, Option.bind_eq_some_iff] at hr
  obtain ⟨ts, -, dataset, -, data, -, asset, hasset, -⟩ := hr
  rw [hasset]
  rfl

/-! ## §7 Pending orders are backed -/

/-- Every pending order stands under its symbol and belongs to an order of the account. -/
def AllBacked (e : BacktestExecutionEngine) : Prop :=
  ∀ sym, ∀ pending ∈ e.pending.getD sym [], e.Backed sym pending

/-- A symbol with a due order that can be filled is that of a known asset. -/
theorem isSome_asset_of_due {e : BacktestExecutionEngine} (h : e.AllBacked) {sym : String} {ts : ℤ}
    (hsome : ¬ ∀ pending ∈ e.due sym ts, e.canFill pending = false) :
    (e.assets.get? sym).isSome := by
  push Not at hsome
  obtain ⟨pending, hmem, hcan⟩ := hsome
  have hsym := (h sym pending (List.mem_filter.mp hmem).1).1
  rw [← hsym]
  exact isSome_asset_of_canFill (Bool.ne_false_iff.mp hcan)

/-- A tick keeps the pending orders backed, and does what `fillAll_spec` says to those that
    are due. -/
theorem process_spec {e : BacktestExecutionEngine} (h : e.AllBacked) (sym : String) (ts : ℤ) :
    (e.process sym ts).1.AllBacked ∧ (e.process sym ts).1.assets = e.assets ∧
      (e.process sym ts).1.account.orders.map (·.uuid) = e.account.orders.map (·.uuid) ∧
      ∃ results, (e.process sym ts).1.results = e.results ++ results ∧
        (∀ result ∈ results, result.tickerSymbol = sym) ∧
        (filledOrders (e.process sym ts).2).length = results.length ∧
        (∀ order ∈ filledOrders (e.process sym ts).2,
          order.tickerSymbol = sym ∧ order.status = some .completed) ∧
        (results = [] ↔ ∀ pending ∈ e.due sym ts, e.canFill pending = false) := by
  have hdue : ∀ pending ∈ e.due sym ts, e.Backed sym pending := fun pending hmem =>
    h sym pending (List.mem_filter.mp hmem).1
  obtain ⟨hframe, hresults⟩ := fillAll_spec (e := { e with
    pending := e.pending.set sym
      ((e.pending.getD sym []).filter fun pending => !isDue ts pending) }) hdue
  refine ⟨?_, hframe.assets_eq, hframe.uuids_eq, hresults⟩
  intro sym' pending hmem
  apply hframe.backed
  have hpending : (e.process sym ts).1.pending = e.pending.set sym
      ((e.pending.getD sym []).filter fun pending => !isDue ts pending) := hframe.pending_eq
  unfold Dict.getD at hmem
  rw [hpending, Dict.get?_set] at hmem
  split at hmem
  · rename_i heq
    subst heq
    exact h sym' pending (List.mem_filter.mp hmem).1
  · exact h sym' pending hmem

/-- The order is in the account when it is submitted, so that it is not added again. -/
theorem createOrder_eq (e : BacktestExecutionEngine) (placed : Order) :
    (e.createOrder placed).1 = { e.addOrder (createdOrder placed) with
      pending := e.pending.set placed.tickerSymbol (e.pending.getD placed.tickerSymbol [] ++
        [e.pendingOrder (createdOrder placed) placed.tickerSymbol]) } := by
  have hsome : ((e.addOrder (createdOrder placed)).account.findOrder
      (createdOrder placed).uuid).isSome = true := by
    unfold SimulatedAccount.findOrder addOrder
    rw [List.find?_isSome]
    exact ⟨createdOrder placed, by simp, by simp⟩
  unfold createOrder submit
  simp only [hsome, if_true]
  rfl

/-- A new order is appended to the account and becomes pending. -/
theorem createOrder_spec {e : BacktestExecutionEngine} (h : e.AllBacked) {placed : Order}
    (hnew : ∀ order ∈ e.account.orders, order.uuid ≠ placed.uuid) :
    (e.createOrder placed).1.AllBacked ∧ (e.createOrder placed).1.assets = e.assets ∧
      (e.createOrder placed).1.results = e.results ∧
      (e.createOrder placed).1.account.orders.map (·.uuid) =
        e.account.orders.map (·.uuid) ++ [placed.uuid] := by
  -- the new order is the first one with its id
  have hnone : e.account.orders.find? (fun order => order.uuid = placed.uuid) = none := by
    rw [List.find?_eq_none]
    intro order horder
    simpa using hnew order horder
  have hfind : (e.addOrder (createdOrder placed)).account.findOrder placed.uuid =
      some (createdOrder placed) := by
    show (e.account.orders ++ [createdOrder placed]).find? _ = _
    rw [List.find?_append, hnone, Option.none_or]
    apply List.find?_cons_of_pos
    exact decide_eq_true (show (createdOrder placed).uuid = placed.uuid from rfl)
  -- earlier orders are found as before
  have hkept : ∀ sym pending, e.Backed sym pending →
      (e.addOrder (createdOrder placed)).Backed sym pending := by
    intro sym pending hbacked
    obtain ⟨hsym, order, horder, hticker⟩ := hbacked
    refine ⟨hsym, order, ?_, hticker⟩
    show (e.account.orders ++ [createdOrder placed]).find? _ = _
    unfold SimulatedAccount.findOrder at horder
    rw [List.find?_append, horder]
    rfl
  rw [createOrder_eq]
  refine ⟨?_, rfl, rfl, ?_⟩
  · intro sym pending hmem
    unfold Dict.getD at hmem
    rw [Dict.get?_set] at hmem
    split at hmem
    · rename_i heq
      subst heq
      rcases List.mem_append.mp hmem with hold | hadded
      · exact hkept _ pending (h placed.tickerSymbol pending hold)
      · obtain rfl := List.mem_singleton.mp hadded
        exact ⟨rfl, createdOrder placed, hfind, rfl⟩
    · exact hkept sym pending (h sym pending hmem)
  · show (e.account.orders ++ [createdOrder placed]).map (·.uuid) = _
    rw [List.map_append]
    rfl

end BacktestExecutionEngine

end CryptoTrading.Backtest
