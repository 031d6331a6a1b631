import Mathlib.Algebra.Order.Field.Rat
import Mathlib.Tactic.Linarith
import CryptoTrading.Backtest.Ledger
import CryptoTrading.Lib.Run

/-!
# Solvency of the simulated account

The account of the engine over runs of `submit` and `process`.  Every result comes from an order
that was submitted and is executed at the first tick the latency allows (`Traced`), so that no
fill looks ahead.

The account never pays what it does not have (`Solvent`), with one exception: slippage is taken
off the price of a sale without a limit, and a sale below zero costs money.
-/

namespace CryptoTrading.Backtest

open CryptoTrading.Lib

namespace BacktestExecutionEngine

/-! ## §1 Runs of the engine -/

inductive EngineCall where
  | submit (order : Order) (tickerSymbol : String)
  | process (tickerSymbol : String) (timestamp : ℤ)

def engineStep (e : BacktestExecutionEngine) : EngineCall → BacktestExecutionEngine
  | .submit order tickerSymbol => (e.submit order tickerSymbol).1
  | .process tickerSymbol timestamp => (e.process tickerSymbol timestamp).1

def PositiveQuantity : EngineCall → Prop
  | .submit order _ => 0 < order.quantity
  | .process _ _ => True

/-- The close of the tick at which a pending order is executed, and its asset. -/
def tickOf (e : BacktestExecutionEngine) (pending : PendingOrder) : Option (ℚ × Asset) := do
  let timestamp ← pending.executionTimestamp
  let dataset ← e.datasets.get? pending.tickerSymbol
  let data ← dataset.get timestamp
  let asset ← e.assets.get? pending.tickerSymbol
  some (data.closePrice, asset)

/-- The amount that slippage takes off a price. -/
def slippageAmount (model : ExecutionModel) (asset : Asset) : ℚ :=
  model.slippageTicks * (1 / 10 ^ asset.quoteDecimals)

/-- No sale is due at a tick whose close is below the slippage. -/
def SellsAboveSlippage (e : BacktestExecutionEngine) : EngineCall → Prop
  | .submit _ _ => True
  | .process tickerSymbol timestamp =>
    ∀ pending ∈ e.due tickerSymbol timestamp, pending.tradeAction = .sell →
      ∀ tick ∈ e.tickOf pending, slippageAmount e.model tick.2 ≤ tick.1

/-! ## §2 What is true of the account -/

/-- The first tick at or after a time. -/
structure FirstTick (ticks : List ℤ) (target : ℚ) (timestamp : ℤ) : Prop where
  mem : timestamp ∈ ticks
  reached : target ≤ timestamp
  first : ∀ tick ∈ ticks, target ≤ tick → timestamp ≤ tick

/-- The result of an order, executed at the close of the first tick after the latency. -/
structure ExecutedOnTime (e : BacktestExecutionEngine) (order : Order)
    (result : ExecutionResult) : Prop where
  orderUuid : result.orderUuid = order.uuid
  tradeAction : result.tradeAction = order.tradeAction
  quantity : result.executedQuantity = order.quantity
  tick : ∃ timestamp : ℤ, result.executedAt = timestamp ∧
    FirstTick (e.clock.timestamps.getD result.tickerSymbol [])
      (order.createdTime + e.model.getLatency) timestamp ∧
    ∃ dataset data, e.datasets.get? result.tickerSymbol = some dataset ∧
      dataset.get timestamp = some data ∧ result.marketPrice = data.closePrice

/-- Nothing is owed. -/
structure Solvent (account : SimulatedAccount) : Prop where
  balance : 0 ≤ account.balanceUsd
  positions : ∀ symbol, 0 ≤ account.positions.getD symbol 0

/-- The account is conserved and solvent, and every result belongs to an order submitted by one
    of the calls.  The market is that of the engine at the start. -/
structure AccountSound (initialBalance : ℚ) (calls : List EngineCall)
    (market e : BacktestExecutionEngine) : Prop where
  booked : Booked initialBalance e.account e.results
  solvent : Solvent e.account
  onTime : ∀ result ∈ e.results, ∃ order,
    .submit order result.tickerSymbol ∈ calls ∧ market.ExecutedOnTime order result

/-- The results that a tick adds are not later than the tick. -/
def NoLookAhead (e : BacktestExecutionEngine) : EngineCall → Prop
  | .submit _ _ => True
  | .process tickerSymbol timestamp =>
    ∃ added, (e.process tickerSymbol timestamp).1.results = e.results ++ added ∧
      ∀ result ∈ added, result.executedAt ≤ timestamp

/-! ## §3 The market does not change -/

structure SameMarket (e e' : BacktestExecutionEngine) : Prop where
  clock : e'.clock = e.clock
  datasets : e'.datasets = e.datasets
  model : e'.model = e.model
  assets : e'.assets = e.assets

theorem SameMarket.refl (e : BacktestExecutionEngine) : SameMarket e e := ⟨rfl, rfl, rfl, rfl⟩

theorem SameMarket.trans {e₁ e₂ e₃ : BacktestExecutionEngine} (h₁ : SameMarket e₁ e₂)
    (h₂ : SameMarket e₂ e₃) : SameMarket e₁ e₃ :=
  ⟨h₂.clock.trans h₁.clock, h₂.datasets.trans h₁.datasets, h₂.model.trans h₁.model,
    h₂.assets.trans h₁.assets⟩

theorem sameMarket_fillOrder (e : BacktestExecutionEngine) (pending : PendingOrder) :
    SameMarket e (e.fillOrder pending).1 := by
  rcases e.fillOrder_cases pending with ⟨-, heq⟩ | ⟨account, result, -, heq⟩ <;> rw [heq] <;>
    exact ⟨rfl, rfl, rfl, rfl⟩

theorem sameMarket_engineStep (e : BacktestExecutionEngine) (call : EngineCall) :
    SameMarket e (e.engineStep call) := by
  cases call with
  | submit order symbol => exact ⟨rfl, rfl, rfl, rfl⟩
  | process symbol timestamp =>
    exact process_invariant (fun e' _ => SameMarket e e')
      (fun e' pending _ h => h.trans (sameMarket_fillOrder e' pending)) ⟨rfl, rfl, rfl, rfl⟩

/-! ## §4 No fill looks ahead -/

/-- The first member of a sorted list that reaches the target. -/
theorem firstTick_of_find? {ticks : List ℤ} (hsorted : ticks.Pairwise (· ≤ ·)) {target : ℚ}
    {timestamp : ℤ} (h : ticks.find? (fun ts : ℤ => target ≤ ts) = some timestamp) :
    FirstTick ticks target timestamp := by
  obtain ⟨hreached, before, after, rfl, hbefore⟩ := List.find?_eq_some_iff_append.mp h
  refine ⟨by simp, by simpa using hreached, ?_⟩
  intro tick htick htarget
  rcases List.mem_append.mp htick with hmem | hmem
  · have hnot := hbefore tick hmem
    simp [htarget] at hnot
  · rcases List.mem_cons.mp hmem with rfl | hlater
    · exact le_refl _
    · exact List.rel_of_pairwise_cons (List.pairwise_append.mp hsorted).2.1 hlater

theorem pairwise_clock (timestamps : Dict String (List ℤ)) (symbol : String) :
    ((BacktestClock.new timestamps).timestamps.getD symbol []).Pairwise (· ≤ ·) := by
  unfold BacktestClock.new Dict.getD
  rw [Dict.get?_mapValues]
  cases timestamps.get? symbol with
  | none => exact List.Pairwise.nil
  | some ticks => exact List.pairwise_insertionSort _ _

section Tracing

variable {market e : BacktestExecutionEngine} {calls : List EngineCall}

/-- What waits and what has been executed was submitted. -/
structure Traced (market : BacktestExecutionEngine) (calls : List EngineCall)
    (e : BacktestExecutionEngine) : Prop where
  sameMarket : SameMarket market e
  pending : ∀ symbol, ∀ pending ∈ e.pending.getD symbol [], ∃ order,
    .submit order symbol ∈ calls ∧ pending = market.pendingOrder order symbol
  onTime : ∀ result ∈ e.results, ∃ order,
    .submit order result.tickerSymbol ∈ calls ∧ market.ExecutedOnTime order result

theorem SameMarket.pendingOrder (h : SameMarket market e) (order : Order) (symbol : String) :
    e.pendingOrder order symbol = market.pendingOrder order symbol := by
  simp [BacktestExecutionEngine.pendingOrder, h.clock, h.model]

/-- The ticks of every symbol are in order. -/
def SortedClock (market : BacktestExecutionEngine) : Prop :=
  ∀ symbol, (market.clock.timestamps.getD symbol []).Pairwise (· ≤ ·)

/-- The execution of a pending order that was made by `submit`. -/
theorem executedOnTime_execution (hsorted : market.SortedClock) (h : SameMarket market e)
    {order : Order} {symbol : String} {account : SimulatedAccount} {result : ExecutionResult}
    (hexec : e.execution (market.pendingOrder order symbol) = some (account, result)) :
    result.tickerSymbol = symbol ∧ market.ExecutedOnTime order result := by
  obtain ⟨timestamp, dataset, data, asset, htimestamp, hdataset, hdata, -, -, -, -, hmarket,
    hexecuted, huuid, hsymbol, haction, hquantity, -⟩ := execution_eq_some hexec
  have hticker : result.tickerSymbol = symbol := hsymbol
  rw [h.datasets] at hdataset
  refine ⟨hticker, huuid, haction, hquantity, timestamp, hexecuted, ?_, dataset, data, ?_, hdata,
    hmarket⟩
  · rw [hticker]
    exact firstTick_of_find? (hsorted symbol) htimestamp
  · rw [hticker]
    exact hdataset

/-- The loop over the orders that are due at a tick. -/
structure FillingOnTime (market : BacktestExecutionEngine) (calls : List EngineCall)
    (old : List ExecutionResult) (timestamp : ℤ) (e : BacktestExecutionEngine)
    (todo : List PendingOrder) : Prop where
  traced : Traced market calls e
  todo : ∀ pending ∈ todo, isDue timestamp pending = true ∧
    ∃ order symbol, .submit order symbol ∈ calls ∧ pending = market.pendingOrder order symbol
  added : ∃ added, e.results = old ++ added ∧ ∀ result ∈ added, result.executedAt ≤ timestamp

/-- A result of an order that was due. -/
theorem executedAt_le {timestamp : ℤ} {pending : PendingOrder} {account : SimulatedAccount}
    {result : ExecutionResult} (hdue : isDue timestamp pending = true)
    (hexec : e.execution pending = some (account, result)) : result.executedAt ≤ timestamp := by
  obtain ⟨ts, -, -, -, hts, -, -, -, -, -, -, -, hexecuted, -⟩ := execution_eq_some hexec
  rw [isDue, hts] at hdue
  rw [hexecuted]
  exact_mod_cast of_decide_eq_true hdue

theorem FillingOnTime.fillOrder (hsorted : market.SortedClock) {old : List ExecutionResult}
    {timestamp : ℤ} {pending : PendingOrder} {rest : List PendingOrder}
    (h : FillingOnTime market calls old timestamp e (pending :: rest)) :
    FillingOnTime market calls old timestamp (e.fillOrder pending).1 rest := by
  have hmarket := h.traced.sameMarket.trans (sameMarket_fillOrder e pending)
  obtain ⟨⟨hdue, order, symbol, hsubmit, rfl⟩, hrest⟩ := List.forall_mem_cons.mp h.todo
  rcases e.fillOrder_cases (market.pendingOrder order symbol) with
    ⟨-, heq⟩ | ⟨account, result, hexec, heq⟩
  · rw [heq] at hmarket ⊢
    exact ⟨⟨hmarket, h.traced.pending, h.traced.onTime⟩, hrest, h.added⟩
  · obtain ⟨hticker, honTime⟩ := executedOnTime_execution hsorted h.traced.sameMarket hexec
    rw [heq] at hmarket ⊢
    refine ⟨⟨hmarket, h.traced.pending, ?_⟩, hrest, ?_⟩
    · intro r hr
      rcases List.mem_append.mp hr with hold | hnew
      · exact h.traced.onTime r hold
      · obtain rfl := List.mem_singleton.mp hnew
        exact ⟨order, hticker ▸ hsubmit, honTime⟩
    · obtain ⟨added, hadded, hbefore⟩ := h.added
      refine ⟨added ++ [result], ?_, ?_⟩
      · show e.results ++ [result] = _
        rw [hadded, List.append_assoc]
      · intro r hr
        rcases List.mem_append.mp hr with hold | hnew
        · exact hbefore r hold
        · obtain rfl := List.mem_singleton.mp hnew
          exact executedAt_le hdue hexec

theorem Traced.process (hsorted : market.SortedClock) (h : Traced market calls e)
    (symbol : String) (timestamp : ℤ) :
    Traced market calls (e.process symbol timestamp).1 ∧
      e.NoLookAhead (.process symbol timestamp) := by
  have hfilling :
      FillingOnTime market calls e.results timestamp (e.process symbol timestamp).1 [] := by
    apply process_invariant (FillingOnTime market calls e.results timestamp)
      (fun _ _ _ hfilling => hfilling.fillOrder hsorted)
    refine ⟨⟨h.sameMarket.trans ⟨rfl, rfl, rfl, rfl⟩, ?_, h.onTime⟩, ?_, [], by simp, by simp⟩
    · intro symbol' pending hpending
      unfold Dict.getD at hpending
      rw [Dict.get?_set] at hpending
      split at hpending
      · rename_i heq
        subst heq
        exact h.pending symbol' pending (List.mem_filter.mp hpending).1
      · exact h.pending symbol' pending hpending
    · intro pending hpending
      obtain ⟨hqueue, hdue⟩ := List.mem_filter.mp hpending
      obtain ⟨order, hsubmit, heq⟩ := h.pending symbol pending hqueue
      exact ⟨hdue, order, symbol, hsubmit, heq⟩
  exact ⟨hfilling.traced, hfilling.added⟩

theorem Traced.mono {calls' : List EngineCall} (h : Traced market calls e)
    (hcalls : calls ⊆ calls') : Traced market calls' e where
  sameMarket := h.sameMarket
  pending := by
    intro symbol pending hpending
    obtain ⟨order, hsubmit, heq⟩ := h.pending symbol pending hpending
    exact ⟨order, hcalls hsubmit, heq⟩
  onTime := by
    intro result hresult
    obtain ⟨order, hsubmit, honTime⟩ := h.onTime result hresult
    exact ⟨order, hcalls hsubmit, honTime⟩

theorem Traced.submit (h : Traced market calls e) {order : Order} {symbol : String}
    (hsubmit : .submit order symbol ∈ calls) : Traced market calls (e.submit order symbol).1 where
  sameMarket := h.sameMarket.trans ⟨rfl, rfl, rfl, rfl⟩
  pending := by
    intro symbol' pending hpending
    have hset : pending ∈ (e.pending.set symbol (e.pending.getD symbol [] ++
        [e.pendingOrder order symbol])).getD symbol' [] := hpending
    unfold Dict.getD at hset
    rw [Dict.get?_set] at hset
    split at hset
    · rename_i heq
      subst heq
      rcases List.mem_append.mp hset with hold | hnew
      · exact h.pending symbol' pending hold
      · rw [h.sameMarket.pendingOrder] at hnew
        exact ⟨order, hsubmit, List.mem_singleton.mp hnew⟩
    · exact h.pending symbol' pending hset
  onTime := h.onTime

theorem Traced.engineStep (hsorted : market.SortedClock) (h : Traced market calls e)
    (call : EngineCall) :
    Traced market (calls ++ [call]) (e.engineStep call) ∧ e.NoLookAhead call := by
  have hmono := h.mono (List.subset_append_left calls [call])
  cases call with
  | submit order symbol => exact ⟨hmono.submit (by simp), trivial⟩
  | process symbol timestamp => exact hmono.process hsorted symbol timestamp

/-- **Every fill is on time**, after every run of the engine. -/
theorem traced_run (hsorted : market.SortedClock) (h : Traced market [] market)
    (calls : List EngineCall) :
    Traced market calls (run BacktestExecutionEngine.engineStep market calls) := by
  induction calls using List.reverseRecOn with
  | nil => exact h
  | append_singleton calls call ih =>
    rw [run_concat]
    exact (ih.engineStep hsorted call).1

theorem noLookAhead_run (hsorted : market.SortedClock) (h : Traced market [] market)
    (calls : List EngineCall) :
    Along BacktestExecutionEngine.engineStep NoLookAhead market calls := by
  apply along_of_invariant (P := fun _ _ => True) (fun e => ∃ done, Traced market done e) _ ⟨[], h⟩
    (along_of_forall (fun _ _ => trivial) market)
  rintro e call ⟨done, htraced⟩ -
  have hstep := htraced.engineStep hsorted call
  exact ⟨⟨_, hstep.1⟩, hstep.2⟩

end Tracing

/-! ## §5 Nothing is owed -/

/-- A purchase is paid for and a sale is delivered; the proceeds of a sale must not be
    negative. -/
theorem Solvent.apply {account account' : SimulatedAccount} {pending : PendingOrder}
    {price fee : ℚ} (h : Solvent account) (hquantity : 0 < pending.quantity)
    (hsell : pending.tradeAction = .sell → 0 ≤ pending.quantity * price - fee)
    (happly : account.apply pending price fee = some account') : Solvent account' := by
  have hposition : ∀ position : ℚ, 0 ≤ position → ∀ symbol,
      0 ≤ (account.positions.set pending.tickerSymbol position).getD symbol 0 := by
    intro position hnonneg symbol
    unfold Dict.getD
    rw [Dict.get?_set]
    split
    · exact hnonneg
    · exact h.positions symbol
  have hheld := h.positions pending.tickerSymbol
  -- the check before each side is what keeps its book from going below zero
  cases hside : pending.tradeAction with
  | buy =>
    simp only [SimulatedAccount.apply, hside] at happly
    split at happly
    · cases happly
    · rename_i henough
      obtain rfl := Option.some.inj happly
      exact ⟨sub_nonneg.mpr (not_lt.mp henough), hposition _ (by linarith)⟩
  | sell =>
    simp only [SimulatedAccount.apply, hside] at happly
    split at happly
    · cases happly
    · rename_i henough
      obtain rfl := Option.some.inj happly
      exact ⟨add_nonneg h.balance (hsell hside), hposition _ (sub_nonneg.mpr (not_lt.mp henough))⟩

/-- What is left of the proceeds after a fee of less than the whole. -/
theorem proceeds_nonneg {model : ExecutionModel} (hrate : model.feeRate < 1) {quantity price : ℚ}
    (hquantity : 0 < quantity) (hprice : 0 ≤ price) :
    0 ≤ quantity * price - model.calculateFee (quantity * price) := by
  have hnotional : 0 ≤ quantity * price := mul_nonneg hquantity.le hprice
  have hleft : quantity * price - model.calculateFee (quantity * price) =
      quantity * price * (1 - model.feeRate) := by
    rw [ExecutionModel.calculateFee, abs_of_nonneg hnotional]
    ring
  rw [hleft]
  exact mul_nonneg hnotional (by linarith)

/-- The order can be executed without a loss of money to the slippage. -/
def SellsWell (market : BacktestExecutionEngine) (pending : PendingOrder) : Prop :=
  pending.tradeAction = .sell →
    ∀ tick ∈ market.tickOf pending, slippageAmount market.model tick.2 ≤ tick.1

section Solvency

variable {market e : BacktestExecutionEngine}

theorem Solvent.execution (hrate : market.model.feeRate < 1) (hmarket : SameMarket market e)
    (h : Solvent e.account) {pending : PendingOrder} (hquantity : 0 < pending.quantity)
    (hsell : market.SellsWell pending) {account : SimulatedAccount} {result : ExecutionResult}
    (hexec : e.execution pending = some (account, result)) : Solvent account := by
  obtain ⟨timestamp, dataset, data, asset, htimestamp, hdataset, hdata, hasset, happly, hprice,
    hfee, -⟩ := execution_eq_some hexec
  apply h.apply hquantity _ happly
  intro hside
  have htick : (data.closePrice, asset) ∈ market.tickOf pending := by
    simp [tickOf, htimestamp, ← hmarket.datasets, hdataset, hdata, ← hmarket.assets, hasset]
  have habove := hsell hside _ htick
  rw [hfee, hmarket.model]
  apply proceeds_nonneg hrate hquantity
  rw [hprice, hside, hmarket.model]
  exact sub_nonneg.mpr habove

/-- The orders that wait have positive quantities. -/
def PositiveQueues (e : BacktestExecutionEngine) : Prop :=
  ∀ symbol, ∀ pending ∈ e.pending.getD symbol [], 0 < pending.quantity

theorem Solvent.process (hrate : e.model.feeRate < 1) (h : Solvent e.account)
    (hqueues : e.PositiveQueues) {symbol : String} {timestamp : ℤ}
    (hsell : e.SellsAboveSlippage (.process symbol timestamp)) :
    Solvent (e.process symbol timestamp).1.account := by
  refine (process_invariant (fun e' todo => SameMarket e e' ∧ Solvent e'.account ∧
    ∀ pending ∈ todo, 0 < pending.quantity ∧ e.SellsWell pending) ?_
    ⟨⟨rfl, rfl, rfl, rfl⟩, h, ?_⟩).2.1
  · rintro e' pending rest ⟨hmarket, hsolvent, htodo⟩
    obtain ⟨⟨hquantity, hwell⟩, hrest⟩ := List.forall_mem_cons.mp htodo
    refine ⟨hmarket.trans (sameMarket_fillOrder e' pending), ?_, hrest⟩
    rcases e'.fillOrder_cases pending with ⟨-, heq⟩ | ⟨account, result, hexec, heq⟩
    · rw [heq]
      exact ⟨hsolvent.balance, hsolvent.positions⟩
    · have haccount := hsolvent.execution hrate hmarket hquantity hwell hexec
      rw [heq]
      exact ⟨haccount.balance, haccount.positions⟩
  · intro pending hpending
    exact ⟨hqueues symbol pending (List.mem_filter.mp hpending).1, hsell pending hpending⟩

/-- A submission touches neither balance nor positions. -/
theorem Solvent.submit (h : Solvent e.account) (order : Order) (symbol : String) :
    Solvent (e.submit order symbol).1.account :=
  ⟨h.balance, h.positions⟩

/-- Quantities stay positive: a queue only ever gets what is submitted. -/
theorem Traced.positiveQueues {calls : List EngineCall} (h : Traced market calls e)
    (hcalls : ∀ call ∈ calls, PositiveQuantity call) : e.PositiveQueues := by
  intro symbol pending hpending
  obtain ⟨order, hsubmit, rfl⟩ := h.pending symbol pending hpending
  exact hcalls _ hsubmit

end Solvency

/-! ## §6 The account over a run -/

/-- What the backtest is fed with. -/
structure MarketAssumptions (datasets : Dict String BacktestDataSet) (model : ExecutionModel)
    (initialBalance : ℚ) (calls : List EngineCall) : Prop where
  initialBalance_nonneg : 0 ≤ initialBalance
  prices_pos : ∀ symbol dataset, datasets.get? symbol = some dataset →
    ∀ point ∈ dataset.dataPoints, 0 < point.closePrice
  feeRate_nonneg : 0 ≤ model.feeRate
  feeRate_lt_one : model.feeRate < 1
  slippage_nonneg : 0 ≤ model.slippageTicks
  quantities_pos : ∀ call ∈ calls, PositiveQuantity call

theorem booked_engineStep {initialBalance : ℚ} {e : BacktestExecutionEngine}
    (h : Booked initialBalance e.account e.results) (call : EngineCall) :
    Booked initialBalance (e.engineStep call).account (e.engineStep call).results := by
  cases call with
  | submit order symbol => exact h.of_eq rfl rfl
  | process symbol timestamp => exact booked_process h symbol timestamp

theorem traced_start (timestamps : Dict String (List ℤ)) (datasets : Dict String BacktestDataSet)
    (model : ExecutionModel) (assets : Dict String Asset) (initialBalance : ℚ) :
    Traced (start (.new timestamps) datasets model assets initialBalance) []
      (start (.new timestamps) datasets model assets initialBalance) where
  sameMarket := SameMarket.refl _
  pending := by
    intro symbol pending hpending
    cases hpending
  onTime := by
    intro result hresult
    cases hresult

/-- **The account is conserved, solvent and never ahead of its time** in every state of a run in
    which no sale falls on a tick whose close is below the slippage. -/
theorem account_sound_of_sells_above_slippage (timestamps : Dict String (List ℤ))
    (datasets : Dict String BacktestDataSet) (model : ExecutionModel) (assets : Dict String Asset)
    (initialBalance : ℚ) (calls : List EngineCall)
    (hassumptions : MarketAssumptions datasets model initialBalance calls)
    (hsells : Along engineStep SellsAboveSlippage
      (start (.new timestamps) datasets model assets initialBalance) calls) :
    let e := start (.new timestamps) datasets model assets initialBalance
    (∀ first, first <+: calls →
      AccountSound initialBalance first e (run engineStep e first)) ∧
    Along engineStep NoLookAhead e calls := by
  intro e
  have hsorted : e.SortedClock := pairwise_clock timestamps
  have htraced := traced_run hsorted (traced_start timestamps datasets model assets initialBalance)
  have hbooked : ∀ first, Booked initialBalance (run engineStep e first).account
      (run engineStep e first).results :=
    run_invariant (fun e : BacktestExecutionEngine => Booked initialBalance e.account e.results)
      (fun _ call h => booked_engineStep h call) (booked_new initialBalance)
  have hsolvent : ∀ first, first <+: calls → Solvent (run engineStep e first).account := by
    intro first
    -- along the run; the queues of the state reached hold positive quantities only
    induction first using List.reverseRecOn with
    | nil =>
      intro _
      exact ⟨hassumptions.initialBalance_nonneg, fun symbol => le_refl 0⟩
    | append_singleton first call ih =>
      intro hprefix
      obtain ⟨later, rfl⟩ := hprefix
      rw [List.append_assoc] at ih hsells hassumptions
      have hfirst := ih (List.prefix_append first _)
      have hcall := (along_append.mp hsells).2.1
      rw [run_concat]
      cases call with
      | submit order symbol => exact hfirst.submit order symbol
      | process symbol timestamp =>
        have hrate : (run engineStep e first).model.feeRate < 1 := by
          rw [(htraced first).sameMarket.model]
          exact hassumptions.feeRate_lt_one
        have hpositive : ∀ call ∈ first, PositiveQuantity call := fun call hmem =>
          hassumptions.quantities_pos call (List.mem_append_left _ hmem)
        exact hfirst.process hrate ((htraced first).positiveQueues hpositive) hcall
  exact ⟨fun first hfirst => ⟨hbooked first, hsolvent first hfirst, (htraced first).onTime⟩,
    noLookAhead_run hsorted (traced_start timestamps datasets model assets initialBalance) calls⟩

/-- Two ticks, of which the second closes far below the first; slippage of ten dollars. -/
def fallingMarket : BacktestExecutionEngine :=
  start (.new (Dict.ofList [("BTC_USD", [1000, 2000])]))
    (Dict.ofList [("BTC_USD", ⟨[⟨1000, 100⟩, ⟨2000, 5⟩], by decide⟩)]) ⟨0, 1000, 0⟩
    (Dict.ofList [("BTC_USD", ⟨"BTC", "USD", 2, "BACKTEST", none, none⟩)]) 110

/-- Buy one coin at the first tick and sell it at a later one. -/
def buyAndSell (sellAt : ℤ) : List EngineCall :=
  [.submit (Order.new "buy-1" "BACKTEST" "BTC_USD" 100 1 .buy 1000) "BTC_USD",
    .process "BTC_USD" 1000,
    .submit (Order.new "sell-1" "BACKTEST" "BTC_USD" 100 1 .sell sellAt) "BTC_USD",
    .process "BTC_USD" sellAt]

theorem marketAssumptions_fallingMarket (sellAt : ℤ) :
    MarketAssumptions fallingMarket.datasets fallingMarket.model 110 (buyAndSell sellAt) where
  initialBalance_nonneg := by norm_num
  prices_pos := by
    intro symbol dataset hget point hpoint
    have hmem := Dict.mem_of_get?_ofList hget
    simp only [List.mem_singleton, Prod.mk.injEq] at hmem
    obtain ⟨-, rfl⟩ := hmem
    revert point
    decide +kernel
  feeRate_nonneg := le_refl 0
  feeRate_lt_one := zero_lt_one
  slippage_nonneg := by decide
  quantities_pos := by
    simp [buyAndSell, PositiveQuantity, Order.new]

/-- Sold at the price of the first tick, the coin brings ninety dollars. -/
theorem account_sound_on_first_tick :
    AccountSound 110 (buyAndSell 1000) fallingMarket
      (run engineStep fallingMarket (buyAndSell 1000)) ∧
    (run engineStep fallingMarket (buyAndSell 1000)).account.balanceUsd = 90 := by
  have hsells : Along engineStep SellsAboveSlippage fallingMarket (buyAndSell 1000) := by
    refine ⟨trivial, ?_, trivial, ?_, trivial⟩
    · unfold SellsAboveSlippage
      decide +kernel
    · unfold SellsAboveSlippage
      decide +kernel
  exact ⟨(account_sound_of_sells_above_slippage _ _ _ _ _ _
    (marketAssumptions_fallingMarket 1000) hsells).1 _ (List.prefix_refl _), by decide +kernel⟩

/-- Sold at the second tick, the coin costs another five dollars, which are not there. -/
theorem sale_below_slippage_overdraws :
    MarketAssumptions fallingMarket.datasets fallingMarket.model 110 (buyAndSell 2000) ∧
    (run engineStep fallingMarket (buyAndSell 2000)).account.balanceUsd = -5 ∧
    ¬ AccountSound 110 (buyAndSell 2000) fallingMarket
      (run engineStep fallingMarket (buyAndSell 2000)) := by
  have hbalance : (run engineStep fallingMarket (buyAndSell 2000)).account.balanceUsd = -5 := by
    decide +kernel
  refine ⟨marketAssumptions_fallingMarket 2000, hbalance, ?_⟩
  intro hsound
  have hnonneg := hsound.solvent.balance
  rw [hbalance] at hnonneg
  norm_num at hnonneg

end BacktestExecutionEngine

end CryptoTrading.Backtest
