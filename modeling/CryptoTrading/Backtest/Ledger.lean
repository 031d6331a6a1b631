import Mathlib.Algebra.BigOperators.Group.List.Basic
import Mathlib.Tactic.Ring
import CryptoTrading.Backtest.ExecutionEngine

/-!
# The account and the results

What the engine does to a pending order that is due: it executes it, books the account and adds
a result, or it cancels its order (`fillOrder_cases`).  The account is at all times what the
results make of the initial balance (`Booked`).
-/

namespace CryptoTrading.Backtest

open CryptoTrading.Lib

/-! ## §1 Accounts by results -/

namespace ExecutionResult

/-- What an execution adds to the balance. -/
def cash (result : ExecutionResult) : ℚ :=
  match result.tradeAction with
  | .buy => -(result.executedQuantity * result.executionPrice + result.fee)
  | .sell => result.executedQuantity * result.executionPrice - result.fee

/-- What an execution adds to the position in a symbol. -/
def held (symbol : String) (result : ExecutionResult) : ℚ :=
  if result.tickerSymbol = symbol then
    match result.tradeAction with
    | .buy => result.executedQuantity
    | .sell => -result.executedQuantity
  else 0

end ExecutionResult

/-- The account is the initial balance and what the results add to it. -/
structure Booked (initialBalance : ℚ) (account : SimulatedAccount)
    (results : List ExecutionResult) : Prop where
  balance : account.balanceUsd = initialBalance + (results.map (·.cash)).sum
  positions : ∀ symbol,
    account.positions.getD symbol 0 = (results.map (·.held symbol)).sum

theorem booked_new (initialBalance : ℚ) : Booked initialBalance (.new initialBalance) [] :=
  ⟨by simp [SimulatedAccount.new], fun symbol => by simp [SimulatedAccount.new, Dict.getD]⟩

/-- The orders of the account are not booked. -/
theorem Booked.of_eq {initialBalance : ℚ} {account account' : SimulatedAccount}
    {results : List ExecutionResult} (h : Booked initialBalance account results)
    (hbalance : account'.balanceUsd = account.balanceUsd)
    (hpositions : account'.positions = account.positions) :
    Booked initialBalance account' results :=
  ⟨hbalance.trans h.balance, by rw [hpositions]; exact h.positions⟩

/-- What `_apply_to_account` books is what the result of the execution says. -/
theorem Booked.apply {initialBalance : ℚ} {account account' : SimulatedAccount}
    {results : List ExecutionResult} {pending : PendingOrder} {price fee : ℚ}
    {result : ExecutionResult} (h : Booked initialBalance account results)
    (happly : account.apply pending price fee = some account')
    (haction : result.tradeAction = pending.tradeAction)
    (hsymbol : result.tickerSymbol = pending.tickerSymbol)
    (hquantity : result.executedQuantity = pending.quantity)
    (hprice : result.executionPrice = price) (hfee : result.fee = fee) :
    Booked initialBalance account' (results ++ [result]) := by
  have hposition : ∀ (position : ℚ) symbol,
      (account.positions.set pending.tickerSymbol position).getD symbol 0 =
        if symbol = pending.tickerSymbol then position
        else (results.map (·.held symbol)).sum := by
    intro position symbol
    unfold Dict.getD
    rw [Dict.get?_set, ← h.positions symbol]
    split <;> rfl
  subst hprice hfee
  -- each side pays out of one book into the other, and is refused if the book is short
  cases hside : pending.tradeAction with
  | buy =>
    simp only [SimulatedAccount.apply, hside] at happly
    split at happly
    · cases happly
    · obtain rfl := Option.some.inj happly
      constructor
      · simp [ExecutionResult.cash, haction, hside, hquantity, h.balance]
        ring
      · intro symbol
        rw [hposition, h.positions]
        by_cases hsym : symbol = pending.tickerSymbol
        · simp [ExecutionResult.held, haction, hside, hquantity, hsymbol, hsym]
        · simp [ExecutionResult.held, hsymbol, hsym, Ne.symm hsym]
  | sell =>
    simp only [SimulatedAccount.apply, hside] at happly
    split at happly
    · cases happly
    · obtain rfl := Option.some.inj happly
      constructor
      · simp [ExecutionResult.cash, haction, hside, hquantity, h.balance]
        ring
      · intro symbol
        rw [hposition, h.positions]
        by_cases hsym : symbol = pending.tickerSymbol
        · simp [ExecutionResult.held, haction, hside, hquantity, hsymbol, hsym]
          ring
        · simp [ExecutionResult.held, hsymbol, hsym, Ne.symm hsym]

namespace BacktestExecutionEngine

/-- `BacktestExecutionEngine.__init__`. -/
def start (clock : BacktestClock) (datasets : Dict String BacktestDataSet) (model : ExecutionModel)
    (assets : Dict String Asset) (initialBalance : ℚ) : BacktestExecutionEngine :=
  ⟨clock, datasets, model, assets, .new initialBalance, Dict.empty, []⟩

/-! ## §2 Executions -/

/-- What is known of an execution: the tick it is made at, its price, and the result. -/
theorem execution_eq_some {e : BacktestExecutionEngine} {pending : PendingOrder}
    {account : SimulatedAccount} {result : ExecutionResult}
    (h : e.execution pending = some (account, result)) :
    ∃ timestamp dataset data asset,
      pending.executionTimestamp = some timestamp ∧
      e.datasets.get? pending.tickerSymbol = some dataset ∧ dataset.get timestamp = some data ∧
      e.assets.get? pending.tickerSymbol = some asset ∧
      e.account.apply pending result.executionPrice result.fee = some account ∧
      result.executionPrice =
        e.model.applySlippage pending.tradeAction data.closePrice asset ∧
      result.fee = e.model.calculateFee (pending.quantity * result.executionPrice) ∧
      result.marketPrice = data.closePrice ∧ result.executedAt = timestamp ∧
      result.orderUuid = pending.orderUuid ∧ result.tickerSymbol = pending.tickerSymbol ∧
      result.tradeAction = pending.tradeAction ∧
      result.executedQuantity = pending.quantity ∧ result.signalAt = pending.signalAt := by
  unfold execution at h
  simp only [Option.bind_eq_bind, Option.bind_eq_some_iff, Option.some.injEq, Prod.mk.injEq] at h
  obtain ⟨timestamp, htimestamp, dataset, hdataset, data, hdata, asset, hasset, applied, happly,
    rfl, rfl⟩ := h
  exact ⟨timestamp, dataset, data, asset, htimestamp, hdataset, hdata, hasset, happly, rfl, rfl,
    rfl, rfl, rfl, rfl, rfl, rfl, rfl⟩

theorem booked_execution {initialBalance : ℚ} {e : BacktestExecutionEngine}
    {pending : PendingOrder} {account : SimulatedAccount} {result : ExecutionResult}
    (h : Booked initialBalance e.account e.results)
    (hexec : e.execution pending = some (account, result)) :
    Booked initialBalance account (e.results ++ [result]) := by
  obtain ⟨timestamp, dataset, data, asset, -, -, -, -, happly, -, -, -, -, -, hsymbol, haction,
    hquantity, -⟩ := execution_eq_some hexec
  exact h.apply happly haction hsymbol hquantity rfl rfl

/-! ## §3 Fills -/

/-- What a cancellation writes into its order. -/
def markCancelled (order : Order) : Order := { order with status := some .cancelled }

theorem updateOrder_of_find?_none {uuid : String} {f : Order → Order} {orders : List Order}
    (h : orders.find? (fun order => order.uuid = uuid) = none) :
    updateOrder uuid f orders = orders := by
  induction orders with
  | nil => rfl
  | cons order rest ih =>
    rw [List.find?_eq_none, List.forall_mem_cons] at h
    have hne : order.uuid ≠ uuid := by simpa using h.1
    rw [updateOrder, if_neg hne, ih (List.find?_eq_none.mpr h.2)]

/-- An order that the account does not have is not updated. -/
theorem update_of_findOrder_none {account : SimulatedAccount} {uuid : String} {f : Order → Order}
    (h : account.findOrder uuid = none) : account.update uuid f = account := by
  unfold SimulatedAccount.update
  rw [updateOrder_of_find?_none h]

/-- A pending order that is due is cancelled or executed. -/
theorem fillOrder_cases (e : BacktestExecutionEngine) (pending : PendingOrder) :
    (e.execution pending = none ∧
      (e.fillOrder pending).1 =
        { e with account := e.account.update pending.orderUuid markCancelled }) ∨
    ∃ account result, e.execution pending = some (account, result) ∧
      (e.fillOrder pending).1 =
        { e with
          account := account.update pending.orderUuid (completeOrder result)
          results := e.results ++ [result] } := by
  unfold fillOrder
  cases hexec : e.execution pending with
  | none =>
    refine .inl ⟨rfl, ?_⟩
    unfold cancelOrder
    cases hfind : e.account.findOrder pending.orderUuid with
    | none => simp only [update_of_findOrder_none hfind]
    | some order => rfl
  | some r =>
    obtain ⟨account, result⟩ := r
    refine .inr ⟨account, result, rfl, ?_⟩
    cases hfind : account.findOrder pending.orderUuid with
    | none => simp only [hfind, update_of_findOrder_none hfind]
    | some order => simp only [hfind]

theorem booked_fillOrder {initialBalance : ℚ} {e : BacktestExecutionEngine}
    (h : Booked initialBalance e.account e.results) (pending : PendingOrder) :
    Booked initialBalance (e.fillOrder pending).1.account (e.fillOrder pending).1.results := by
  rcases e.fillOrder_cases pending with ⟨-, heq⟩ | ⟨account, result, hexec, heq⟩
  · rw [heq]
    exact h.of_eq rfl rfl
  · rw [heq]
    exact (booked_execution h hexec).of_eq rfl rfl

/-- An invariant of the loop of `process`, over the orders that are still to come. -/
theorem fillAll_invariant (Inv : BacktestExecutionEngine → List PendingOrder → Prop)
    (hstep : ∀ e pending rest, Inv e (pending :: rest) → Inv (e.fillOrder pending).1 rest)
    {e : BacktestExecutionEngine} {ps : List PendingOrder} (h : Inv e ps) :
    Inv (e.fillAll ps).1 [] := by
  induction ps generalizing e with
  | nil => exact h
  | cons pending rest ih =>
    simp only [fillAll]
    exact ih (hstep e pending rest h)

/-- The entries that a tick leaves in the queue of its symbol. -/
def remaining (e : BacktestExecutionEngine) (symbol : String) (timestamp : ℤ) :
    List PendingOrder :=
  (e.pending.getD symbol []).filter fun pending => !isDue timestamp pending

/-- An invariant of the fills is an invariant of a tick: the orders that are due are taken out
    of the queue, and settled one after the other. -/
theorem process_invariant (Inv : BacktestExecutionEngine → List PendingOrder → Prop)
    (hstep : ∀ e pending rest, Inv e (pending :: rest) → Inv (e.fillOrder pending).1 rest)
    {e : BacktestExecutionEngine} {symbol : String} {timestamp : ℤ}
    (h : Inv { e with pending := e.pending.set symbol (e.remaining symbol timestamp) }
      (e.due symbol timestamp)) :
    Inv (e.process symbol timestamp).1 [] :=
  fillAll_invariant Inv hstep h

theorem booked_process {initialBalance : ℚ} {e : BacktestExecutionEngine}
    (h : Booked initialBalance e.account e.results) (symbol : String) (timestamp : ℤ) :
    Booked initialBalance (e.process symbol timestamp).1.account
      (e.process symbol timestamp).1.results :=
  process_invariant (fun e _ => Booked initialBalance e.account e.results)
    (fun _ pending _ hbooked => booked_fillOrder hbooked pending) h

end BacktestExecutionEngine

end CryptoTrading.Backtest
