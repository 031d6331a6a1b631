import CryptoTrading.Backtest.SessionIsolation
import CryptoTrading.Orders.ExecutedQuantity
import CryptoTrading.Session.LotMatching

/-!
# Later sessions of a run

A later session of a run uses the engine that the earlier ones have used, and leaves its fills to
their callbacks as well.  Its result is that of a run of its own exactly if the two go through its
ticks alike (`Alike`): they count the same ticks to the warm-up, and at the others they find the
same cash and the same positions and can fill the same orders on the same terms, none of which is
a sale.

Without a sale the callbacks of the earlier sessions find nothing to publish.  A sale is published
once for each callback (`tradedQuantity_processTick`), so that the trades give it away.
-/

namespace CryptoTrading.Backtest

open CryptoTrading.Lib CryptoTrading.Session CryptoTrading.Orders BacktestExecutionEngine

/-! ## §1 The orders that can be filled -/

namespace BacktestExecutionEngine

/-- The orders of a list that can be filled one after the other, with their terms. -/
def fillableAmong (e : BacktestExecutionEngine) : List PendingOrder → List BacktestFill
  | [] => []
  | pending :: rest =>
    match e.execution pending with
    | none => fillableAmong e rest
    | some (account, result) => toFill result :: fillableAmong { e with account := account } rest

/-- The orders that are due at a tick and can be filled. -/
def fillable (e : BacktestExecutionEngine) (sym : String) (timestamp : ℤ) : List BacktestFill :=
  e.fillableAmong (e.due sym timestamp)

/-- Cash and positions. -/
def funds (e : BacktestExecutionEngine) : ℚ × Dict String ℚ :=
  (e.account.balanceUsd, e.account.positions)

end BacktestExecutionEngine

/-- What a deal adds to the position. -/
def moved : TradeAction → ℚ → ℚ
  | .buy, quantity => quantity
  | .sell, quantity => -quantity

/-- What a deal sells. -/
def sold : TradeAction → ℚ → ℚ
  | .buy, _ => 0
  | .sell, quantity => quantity

namespace BacktestFill

def moved (fill : BacktestFill) : ℚ := Backtest.moved fill.tradeAction fill.quantity

def sold (fill : BacktestFill) : ℚ := Backtest.sold fill.tradeAction fill.quantity

/-- What a fill adds to the cash. -/
def cash (fill : BacktestFill) : ℚ :=
  match fill.tradeAction with
  | .buy => -(fill.quantity * fill.executionPrice + fill.fee)
  | .sell => fill.quantity * fill.executionPrice - fill.fee

end BacktestFill

/-- The funds after a fill. -/
def bookFill (funds : ℚ × Dict String ℚ) (fill : BacktestFill) : ℚ × Dict String ℚ :=
  (funds.1 + fill.cash,
    funds.2.set fill.tickerSymbol (funds.2.getD fill.tickerSymbol 0 + fill.moved))

theorem getD_bookFill (funds : ℚ × Dict String ℚ) (fill : BacktestFill) :
    (bookFill funds fill).2.getD fill.tickerSymbol 0 =
      funds.2.getD fill.tickerSymbol 0 + fill.moved := by
  simp [bookFill, Dict.getD]

/-- Fills of a symbol with positive quantities, of which no sale exceeds the position. -/
def CoveredFrom (sym : String) : ℚ → List BacktestFill → Prop
  | _, [] => True
  | position, fill :: rest =>
    fill.tickerSymbol = sym ∧ 0 < fill.quantity ∧
      (fill.tradeAction = .sell → fill.quantity ≤ position) ∧
      CoveredFrom sym (position + fill.moved) rest

theorem CoveredFrom.quantity_pos {sym : String} {position : ℚ} {fills : List BacktestFill}
    (h : CoveredFrom sym position fills) : ∀ fill ∈ fills, 0 < fill.quantity := by
  induction fills generalizing position with
  | nil => simp
  | cons fill rest ih =>
    obtain ⟨-, hq, -, hrest⟩ := h
    exact List.forall_mem_cons.mpr ⟨hq, ih hrest⟩

/-- The order of a fill. -/
structure SameDeal (order : Order) (fill : BacktestFill) : Prop where
  symbol : order.tickerSymbol = fill.tickerSymbol
  action : order.tradeAction = fill.tradeAction
  quantity : order.quantity = fill.quantity
  status : order.status = some .completed

/-- A pending order of the symbol, and the order of the account that it was made of. -/
structure Agreed (sym : String) (account : SimulatedAccount) (pending : PendingOrder) : Prop where
  symbol : pending.tickerSymbol = sym
  positive : 0 < pending.quantity
  order : ∃ order, account.findOrder pending.orderUuid = some order ∧
    order.tickerSymbol = sym ∧ order.tradeAction = pending.tradeAction ∧
    order.quantity = pending.quantity

/-- Two engines that differ in their orders, queues and results at most. -/
structure SameFunds (e e' : BacktestExecutionEngine) : Prop where
  model : e'.model = e.model
  datasets : e'.datasets = e.datasets
  assets : e'.assets = e.assets
  funds : e'.funds = e.funds

section Filling

variable {sym : String} {e e' : BacktestExecutionEngine} {pending : PendingOrder}

theorem apply_of_funds {account account' : SimulatedAccount} {price fee : ℚ}
    (hbalance : account'.balanceUsd = account.balanceUsd)
    (hpositions : account'.positions = account.positions) :
    account'.apply pending price fee =
      (account.apply pending price fee).map fun a => { a with orders := account'.orders } := by
  unfold SimulatedAccount.apply
  rw [hbalance, hpositions]
  cases pending.tradeAction with
  | buy =>
    simp only
    split <;> rfl
  | sell =>
    simp only
    split <;> rfl

/-- What can be filled depends on the funds. -/
theorem SameFunds.execution (h : SameFunds e e') (pending : PendingOrder) :
    e'.execution pending =
      (e.execution pending).map fun r => ({ r.1 with orders := e'.account.orders }, r.2) := by
  have hfunds := Prod.mk.inj h.funds
  unfold BacktestExecutionEngine.execution
  rw [h.datasets, h.assets, h.model]
  simp only [apply_of_funds hfunds.1 hfunds.2, Option.bind_eq_bind, Option.map_bind,
    Option.bind_map, Function.comp_def, Option.map_some]

/-- What the account books is what the fill says. -/
theorem funds_execution {account : SimulatedAccount} {result : ExecutionResult}
    (h : e.execution pending = some (account, result)) :
    (account.balanceUsd, account.positions) = bookFill e.funds (toFill result) ∧
      (result.tradeAction = .sell →
        result.executedQuantity ≤ e.account.positions.getD result.tickerSymbol 0) := by
  obtain ⟨_, _, _, _, -, -, -, -, happly, -, -, -, -, -, hsymbol, haction, hquantity, -⟩ :=
    execution_eq_some h
  rw [haction, hquantity, hsymbol]
  unfold SimulatedAccount.apply at happly
  cases hside : pending.tradeAction with
  | buy =>
    simp only [hside] at happly
    split at happly
    · cases happly
    · obtain rfl := Option.some.inj happly
      refine ⟨?_, fun hsell => by cases hsell⟩
      simp [bookFill, toFill, BacktestFill.cash, BacktestFill.moved, moved, funds, haction, hside,
        hsymbol, hquantity, sub_eq_add_neg]
  | sell =>
    simp only [hside] at happly
    split at happly
    · cases happly
    · rename_i hcovered
      obtain rfl := Option.some.inj happly
      refine ⟨?_, fun _ => not_lt.mp hcovered⟩
      simp [bookFill, toFill, BacktestFill.cash, BacktestFill.moved, moved, funds, haction, hside,
        hsymbol, hquantity, sub_eq_add_neg]

theorem fillsOfEvents_append (events later : List EngineEvent) :
    fillsOfEvents (events ++ later) = fillsOfEvents events ++ fillsOfEvents later :=
  List.filterMap_append

/-- A pending order with its order: it is cancelled, or filled and published with its terms. -/
theorem fillOrder_agreed (h : Agreed sym e.account pending) :
    (e.execution pending = none ∧
      (e.fillOrder pending).1 =
        { e with account := e.account.update pending.orderUuid markCancelled } ∧
      filledOrders (e.fillOrder pending).2 = [] ∧ fillsOfEvents (e.fillOrder pending).2 = []) ∨
    ∃ account result order, e.execution pending = some (account, result) ∧
      (e.fillOrder pending).1 =
        { e with
          account := account.update pending.orderUuid (completeOrder result)
          results := e.results ++ [result] } ∧
      filledOrders (e.fillOrder pending).2 = [order] ∧
      fillsOfEvents (e.fillOrder pending).2 = [toFill result] ∧ SameDeal order (toFill result) := by
  obtain ⟨order, hfind, hsymbol, haction, hquantity⟩ := h.order
  -- the engine cancels the order without an event, or completes it with one
  rcases e.fillOrder_cases pending with ⟨hnone, heq⟩ | ⟨account, result, hexec, heq⟩
  · refine .inl ⟨hnone, heq, ?_⟩
    unfold fillOrder
    simp only [hnone, cancelOrder, hfind]
    exact ⟨rfl, rfl⟩
  · obtain ⟨_, _, _, _, -, -, -, -, -, -, -, -, -, -, hsymbol', haction', hquantity', -⟩ :=
      execution_eq_some hexec
    have hfind' : account.findOrder pending.orderUuid = some order := by
      unfold SimulatedAccount.findOrder at hfind ⊢
      rw [(execution_some hexec).1]
      exact hfind
    refine .inr ⟨account, result, completeOrder result order, hexec, heq, ?_⟩
    unfold fillOrder
    simp only [hexec, hfind']
    exact ⟨rfl, rfl, hsymbol.trans (h.symbol.symm.trans hsymbol'.symm),
      haction.trans haction'.symm, hquantity.trans hquantity'.symm, rfl⟩

/-- An update that leaves alone what is traded. -/
structure KeepsDeal (f : Order → Order) : Prop extends KeepsIdentity f where
  tradeAction_eq : ∀ order, (f order).tradeAction = order.tradeAction
  quantity_eq : ∀ order, (f order).quantity = order.quantity

theorem keepsDeal_markCancelled : KeepsDeal markCancelled :=
  ⟨⟨fun _ => rfl, fun _ => rfl⟩, fun _ => rfl, fun _ => rfl⟩

theorem keepsDeal_completeOrder (result : ExecutionResult) : KeepsDeal (completeOrder result) :=
  ⟨⟨fun _ => rfl, fun _ => rfl⟩, fun _ => rfl, fun _ => rfl⟩

theorem Agreed.update {account account' : SimulatedAccount} (h : Agreed sym account pending)
    {f : Order → Order} (hf : KeepsDeal f) (horders : account'.orders = account.orders)
    (uuid : String) : Agreed sym (account'.update uuid f) pending := by
  obtain ⟨order, hfind, hsymbol, haction, hquantity⟩ := h.order
  have hfind' : account'.findOrder pending.orderUuid = some order := by
    unfold SimulatedAccount.findOrder at hfind ⊢
    rw [horders]
    exact hfind
  refine ⟨h.symbol, h.positive, if pending.orderUuid = uuid then f order else order, ?_, ?_⟩
  · rw [account'.findOrder_update hf.toKeepsIdentity, hfind']
    rfl
  · split
    · exact ⟨(hf.tickerSymbol_eq order).trans hsymbol, (hf.tradeAction_eq order).trans haction,
        (hf.quantity_eq order).trans hquantity⟩
    · exact ⟨hsymbol, haction, hquantity⟩

theorem Agreed.fillOrder (h : Agreed sym e.account pending) {other : PendingOrder}
    (hother : Agreed sym e.account other) : Agreed sym (e.fillOrder pending).1.account other := by
  rcases fillOrder_agreed h with ⟨-, heq, -⟩ | ⟨account, result, order, hexec, heq, -⟩
  · rw [heq]
    exact hother.update keepsDeal_markCancelled rfl _
  · rw [heq]
    exact hother.update (keepsDeal_completeOrder result) (execution_some hexec).1 _

/-- What the loop of `process` does: it fills what can be filled. -/
structure FillsAsFillable (sym : String) (e : BacktestExecutionEngine) (fills : List BacktestFill)
    (out : BacktestExecutionEngine × List EngineEvent) : Prop where
  fills_eq : fillsOfEvents out.2 = fills
  orders : List.Forall₂ SameDeal (filledOrders out.2) fills
  funds_eq : out.1.funds = fills.foldl bookFill e.funds
  covered : CoveredFrom sym (e.account.positions.getD sym 0) fills
  known : fills ≠ [] → (e.assets.get? sym).isSome
  agreed : ∀ pending, Agreed sym e.account pending → Agreed sym out.1.account pending

theorem fillAll_fillable {ps : List PendingOrder} (hsame : SameFunds e' e)
    (h : ∀ pending ∈ ps, Agreed sym e.account pending) :
    FillsAsFillable sym e (e'.fillableAmong ps) (e.fillAll ps) := by
  induction ps generalizing e e' with
  | nil => exact ⟨rfl, .nil, rfl, trivial, fun hne => absurd rfl hne, fun _ h => h⟩
  | cons pending rest ih =>
    obtain ⟨hpending, hrest⟩ := List.forall_mem_cons.mp h
    -- what is agreed of the orders behind survives the filling of this one
    have hrest' : ∀ p ∈ rest, Agreed sym (e.fillOrder pending).1.account p := fun p hp =>
      hpending.fillOrder (hrest p hp)
    have hexec' := hsame.execution pending
    rcases fillOrder_agreed hpending with ⟨hnone, heq, horders, hfills⟩ |
      ⟨account, result, order, hexec, heq, horders, hfills, hdeal⟩
    -- cancelled: the funds are those before
    · rw [hnone, eq_comm, Option.map_eq_none_iff] at hexec'
      have hsame' : SameFunds e' (e.fillOrder pending).1 := by
        rw [heq]
        exact ⟨hsame.model, hsame.datasets, hsame.assets, hsame.funds⟩
      have hframe : (e.fillOrder pending).1.assets = e.assets ∧
          (e.fillOrder pending).1.funds = e.funds := by
        rw [heq]
        exact ⟨rfl, rfl⟩
      obtain ⟨hfills', horders', hfunds, hcovered, hknown, hagreed⟩ := ih hsame' hrest'
      have hpositions := (Prod.mk.inj hframe.2).2
      rw [hframe.2] at hfunds
      rw [hpositions] at hcovered
      rw [hframe.1] at hknown
      simp only [fillAll, fillableAmong, hexec']
      refine ⟨?_, ?_, hfunds, hcovered, hknown, fun p hp => hagreed p (hpending.fillOrder hp)⟩
      · rw [fillsOfEvents_append, hfills, hfills', List.nil_append]
      · rw [filledOrders_append, horders, List.nil_append]
        exact horders'
    -- filled
    · rw [hexec] at hexec'
      obtain ⟨r, hr, hreq⟩ := Option.map_eq_some_iff.mp hexec'.symm
      obtain ⟨account', result'⟩ := r
      obtain ⟨haccount, rfl⟩ := Prod.mk.inj hreq
      obtain ⟨hbooked, hcover⟩ := funds_execution hexec
      have hsymbol : result'.tickerSymbol = sym :=
        (execution_some hexec).2.trans hpending.symbol
      have hsame' : SameFunds { e' with account := account' } (e.fillOrder pending).1 := by
        rw [heq]
        refine ⟨hsame.model, hsame.datasets, hsame.assets, ?_⟩
        rw [← haccount]
        rfl
      have hfunds₁ : (e.fillOrder pending).1.funds = bookFill e.funds (toFill result') := by
        rw [heq]
        exact hbooked
      have hassets : (e.fillOrder pending).1.assets = e.assets := by
        rw [heq]
      obtain ⟨hfills', horders', hfunds, hcovered, -, hagreed⟩ := ih hsame' hrest'
      simp only [fillAll, fillableAmong, hr]
      refine ⟨?_, ?_, ?_, ?_, ?_, fun p hp => hagreed p (hpending.fillOrder hp)⟩
      · rw [fillsOfEvents_append, hfills, hfills']
        rfl
      · rw [filledOrders_append, horders]
        exact .cons hdeal horders'
      · rw [hfunds, hfunds₁]
        rfl
      · -- the fill is covered: it has a quantity, a sale has its position
        refine ⟨hsymbol, ?_, ?_, ?_⟩
        · obtain ⟨_, _, _, _, -, -, -, -, -, -, -, -, -, -, -, -, hquantity, -⟩ :=
            execution_eq_some hexec
          exact lt_of_lt_of_eq hpending.positive hquantity.symm
        · intro hsell
          exact hsymbol ▸ hcover hsell
        · have hposition := congrArg (fun funds : ℚ × Dict String ℚ => funds.2.getD sym 0) hfunds₁
          have hbook := getD_bookFill e.funds (toFill result')
          rw [show (toFill result').tickerSymbol = sym from hsymbol] at hbook
          rw [← show _ = e.account.positions.getD sym 0 + (toFill result').moved from
            hposition.trans hbook]
          exact hcovered
      · intro _
        obtain ⟨_, _, _, asset, -, -, -, hasset, -⟩ := execution_eq_some hexec
        rw [hpending.symbol] at hasset
        rw [hasset]
        rfl

/-- A tick fills what is due and can be filled, and leaves the rest in the queue. -/
theorem process_fillable (hbacked : e.AllBacked)
    (hagreed : ∀ pending ∈ e.pending.getD sym [], Agreed sym e.account pending) (timestamp : ℤ) :
    FillsAsFillable sym e (e.fillable sym timestamp) (e.process sym timestamp) ∧
      (e.process sym timestamp).1.pending = e.pending.set sym (e.remaining sym timestamp) := by
  have hdue : ∀ pending ∈ e.due sym timestamp, Agreed sym e.account pending :=
    fun pending hmem => hagreed pending (List.mem_filter.mp hmem).1
  have hsame : SameFunds e { e with pending := e.pending.set sym (e.remaining sym timestamp) } :=
    ⟨rfl, rfl, rfl, rfl⟩
  obtain ⟨hfills, horders, hfunds, hcovered, hknown, hstill⟩ := fillAll_fillable hsame hdue
  obtain ⟨hframe, -⟩ := fillAll_spec
    (e := { e with pending := e.pending.set sym (e.remaining sym timestamp) })
    fun pending (hmem : pending ∈ e.due sym timestamp) =>
      hbacked sym pending (List.mem_filter.mp hmem).1
  exact ⟨⟨hfills, horders, hfunds, hcovered, hknown, hstill⟩, hframe.pending_eq⟩

end Filling

/-! ## §2 What is published for a fill -/

/-- The quantity of a list of trades. -/
def tradedQuantity (trades : List Trade) : ℚ := (trades.map (·.quantity)).sum

@[simp] theorem tradedQuantity_append (xs ys : List Trade) :
    tradedQuantity (xs ++ ys) = tradedQuantity xs + tradedQuantity ys := by
  simp [tradedQuantity]

/-- A context with its two records in step, which holds a quantity. -/
def Holds (sym : String) (sm : SessionManager) (quantity : ℚ) : Prop :=
  ∃ ctx, sm.findContext sym = some ctx ∧ ctx.Booked ∧ ctx.positionQty = quantity

section Publishing

variable {sym : String} {sm : SessionManager} {held : ℚ} {order : Order}

@[simp] theorem quantity_recordOrderFill (sm : SessionManager) (order : Order) :
    (sm.recordOrderFill order).order.quantity = order.quantity := by
  unfold SessionManager.recordOrderFill
  split <;> rfl

/-- A covered sale closes trades of its quantity. -/
theorem tradedQuantity_recordSellFill {ctx : TradingContext} (h : ctx.Booked) (order : Order)
    (hq : 0 < order.quantity) (hle : order.quantity ≤ ctx.positionQty)
    (fillPrice fee slippage timestamp : ℚ) :
    tradedQuantity
      (ctx.recordSellFill order fillPrice order.quantity fee slippage timestamp).2 =
        order.quantity := by
  have hleft := TradingContext.saleMatch_sellRemaining order fillPrice fee slippage timestamp h
    hq hle
  obtain ⟨takes, hexplains⟩ := FifoTradeMatcher.exists_explains
    (ctx.exitOf order fillPrice order.quantity fee slippage timestamp) hq.le h.lotsOpen
  have htaken := hexplains.sellRemaining_eq.symm.trans hleft
  have htrades : (ctx.saleMatch order fillPrice order.quantity fee slippage timestamp).trades =
      takes.map (FifoTradeMatcher.Take.trade _) := hexplains.trades_eq
  show tradedQuantity
    (ctx.saleMatch order fillPrice order.quantity fee slippage timestamp).trades = _
  rw [htrades, sub_eq_zero.mp htaken, tradedQuantity, List.map_map]
  rfl

/-- One booking of a covered fill. -/
theorem holds_recordOrderFill (h : Holds sym sm held) (order : Order)
    (hsym : order.tickerSymbol = sym) (hq : 0 < order.quantity)
    (hle : order.tradeAction = .sell → order.quantity ≤ held) :
    Holds sym (sm.recordOrderFill order).manager
        (held + moved order.tradeAction order.quantity) ∧
      tradedQuantity (sm.recordOrderFill order).trades =
        sold order.tradeAction order.quantity := by
  subst hsym
  obtain ⟨ctx, hctx, hbooked, rfl⟩ := h
  refine ⟨⟨_, SessionManager.findContext_recordOrderFill_of_some hctx,
    TradingContext.recordFill_booked hbooked hq, ?_⟩, ?_⟩
  · -- the position moves by the fill: a covered sale is not cut at zero
    have hposition : (ctx.recordFill (sm.withCommitHash ctx order)).1.positionQty =
        applyFill order.tradeAction ctx.positionQty order.quantity := positionQty_recordFill ctx hq
    rw [hposition]
    cases haction : order.tradeAction with
    | buy => rfl
    | sell =>
      simp only [applyFill, moved]
      rw [max_eq_right (sub_nonneg.mpr (hle haction)), sub_eq_add_neg]
  · -- a buy closes no trade, a covered sale closes its whole quantity
    have hentry : ∃ key, sm.findEntry order.tickerSymbol = some (key, ctx) := by
      obtain ⟨entry, hentry, rfl⟩ := Option.map_eq_some_iff.mp hctx
      exact ⟨entry.1, hentry⟩
    obtain ⟨key, hentry⟩ := hentry
    unfold SessionManager.recordOrderFill
    simp only [hentry]
    unfold TradingContext.recordFill
    cases haction : order.tradeAction with
    | buy => simp [SessionManager.withCommitHash, haction, tradedQuantity, sold]
    | sell =>
      simp only [SessionManager.withCommitHash, haction, sold]
      have hbooked' : TradingContext.Booked { ctx with
          lastMarketActivityTime := some (order.executedTime.getD order.createdTime) } :=
        ⟨hbooked.lotsOpen, hbooked.positionQty_eq⟩
      exact tradedQuantity_recordSellFill hbooked' (sm.withCommitHash ctx order) hq (hle haction)
        _ _ _ _

/-- A sale that is covered as often as it is booked. -/
def CoveredTimes (order : Order) (n : ℕ) (held : ℚ) : Prop :=
  order.tradeAction = .sell → n * order.quantity ≤ held

theorem CoveredTimes.first {n : ℕ} (h : CoveredTimes order (n + 1) held)
    (hq : 0 < order.quantity) (haction : order.tradeAction = .sell) : order.quantity ≤ held := by
  have hall := h haction
  have hrest : 0 ≤ n * order.quantity := mul_nonneg n.cast_nonneg hq.le
  push_cast at hall
  linarith

theorem CoveredTimes.rest {n : ℕ} (h : CoveredTimes order (n + 1) held) :
    CoveredTimes order n (held + moved order.tradeAction order.quantity) := by
  intro haction
  have hall := h haction
  push_cast at hall
  rw [haction, moved]
  linarith

/-- The callbacks of the sessions: each books the fill, and publishes the trades it closes. -/
theorem holds_iterate_onOrderFilled (n : ℕ) {p : OrderManager × Order} {held : ℚ}
    (h : Holds sym p.1.sessionManager held) (hsym : p.2.tickerSymbol = sym)
    (hq : 0 < p.2.quantity) (hle : CoveredTimes p.2 n held) :
    Holds sym (onOrderFilled^[n] p).1.sessionManager
        (held + n * moved p.2.tradeAction p.2.quantity) ∧
      tradedQuantity (publishedTrades n p) = n * sold p.2.tradeAction p.2.quantity := by
  -- the callbacks that are left book the order as the first one returns it
  induction n generalizing p held with
  | zero => simpa [publishedTrades, tradedQuantity] using h
  | succ n ih =>
    obtain ⟨hbooked, htraded⟩ := holds_recordOrderFill h p.2 hsym hq (hle.first hq)
    have hreport := sameReport_recordOrderFill p.1.sessionManager p.2
    have haction : (onOrderFilled p).2.tradeAction = p.2.tradeAction := hreport.tradeAction_eq
    have hquantity : (onOrderFilled p).2.quantity = p.2.quantity :=
      quantity_recordOrderFill p.1.sessionManager p.2
    obtain ⟨hend, hpublished⟩ := ih (p := onOrderFilled p) hbooked
      (hreport.tickerSymbol_eq.trans hsym) (by rwa [hquantity])
      (by
        unfold CoveredTimes
        rw [haction, hquantity]
        exact hle.rest)
    rw [haction, hquantity] at hend hpublished
    refine ⟨?_, ?_⟩
    · rw [Function.iterate_succ_apply]
      convert hend using 1
      push_cast
      ring
    · show tradedQuantity ((p.1.sessionManager.recordOrderFill p.2).trades ++
        publishedTrades n (onOrderFilled p)) = _
      rw [tradedQuantity_append, htraded, hpublished]
      push_cast
      ring

/-- The books of the session against the position of the engine: every unit is booked by the order
    manager and by each callback. -/
def Books (sym : String) (s : BacktestState) (position : ℚ) : Prop :=
  Holds sym s.orderManager.sessionManager ((s.fillCallbacks + 1) * position)

/-- A fill reaches the books, and each callback publishes its trades. -/
theorem books_publishFill {s : BacktestState} {position : ℚ} {fill : BacktestFill}
    (hknown : (s.engine.assets.get? sym).isSome) (h : Books sym s position)
    (hdeal : SameDeal order fill) (hsym : fill.tickerSymbol = sym) (hq : 0 < fill.quantity)
    (hle : fill.tradeAction = .sell → fill.quantity ≤ position) :
    Books sym (publishFill s order) (position + fill.moved) ∧
      tradedQuantity (publishedTrades s.fillCallbacks (handledFill s order)) =
        s.fillCallbacks * fill.sold := by
  obtain ⟨hsymbol, haction, hquantity, hstatus⟩ := hdeal
  -- the order manager books the fill first
  have hhandled : handledFill s order = handleOrderFillEvent (s.orderManager, order) := by
    unfold handledFill
    rw [hsymbol, hsym, if_pos hknown]
  -- each booking of a sale is covered, as the books hold the position once for each
  have hall : CoveredTimes order (s.fillCallbacks + 1) ((s.fillCallbacks + 1) * position) := by
    intro hsell
    rw [hquantity]
    push_cast
    exact mul_le_mul_of_nonneg_left (hle (haction ▸ hsell)) (by positivity)
  have hq' : 0 < (s.orderManager.sessionManager.fillCommitHash order).quantity := by
    rw [fillCommitHash_quantity, hquantity]
    exact hq
  have hreport := (sameReport_fillCommitHash s.orderManager.sessionManager order).trans
    (sameReport_recordOrderFill s.orderManager.sessionManager
      (s.orderManager.sessionManager.fillCommitHash order))
  have hfirst := (holds_recordOrderFill h (s.orderManager.sessionManager.fillCommitHash order)
    ((sameReport_fillCommitHash _ order).tickerSymbol_eq.trans (hsymbol.trans hsym)) hq' (by
      rw [(sameReport_fillCommitHash _ order).tradeAction_eq, fillCommitHash_quantity]
      exact hall.first (by rw [hquantity]; exact hq))).1
  rw [(sameReport_fillCommitHash _ order).tradeAction_eq, fillCommitHash_quantity,
    ← handleOrderFillEvent_session s.orderManager hstatus] at hfirst
  -- then the callbacks
  have haction' : (handleOrderFillEvent (s.orderManager, order)).2.tradeAction =
      order.tradeAction := hreport.tradeAction_eq
  have hquantity' : (handleOrderFillEvent (s.orderManager, order)).2.quantity =
      order.quantity := by
    show (s.orderManager.sessionManager.recordOrderFill _).order.quantity = _
    rw [quantity_recordOrderFill, fillCommitHash_quantity]
  obtain ⟨hend, htraded⟩ := holds_iterate_onOrderFilled s.fillCallbacks hfirst
    (hreport.tickerSymbol_eq.trans (hsymbol.trans hsym)) (by rw [hquantity', hquantity]; exact hq)
    (by
      unfold CoveredTimes
      rw [haction', hquantity']
      exact hall.rest)
  rw [haction', hquantity', haction, hquantity] at hend htraded
  refine ⟨?_, ?_⟩
  · show Holds sym (onOrderFilled^[s.fillCallbacks] (handledFill s order)).1.sessionManager _
    rw [hhandled]
    convert hend using 1
    show ((s.fillCallbacks : ℚ) + 1) * (position + moved fill.tradeAction fill.quantity) = _
    ring
  · rw [hhandled]
    exact htraded

/-- What fills move together. -/
def totalMoved (fills : List BacktestFill) : ℚ := (fills.map BacktestFill.moved).sum

/-- What fills sell together. -/
def totalSold (fills : List BacktestFill) : ℚ := (fills.map BacktestFill.sold).sum

theorem books_collectTrades {s : BacktestState} {position : ℚ} {orders : List Order}
    {fills : List BacktestFill} (hdeals : List.Forall₂ SameDeal orders fills)
    (hknown : fills ≠ [] → (s.engine.assets.get? sym).isSome) (h : Books sym s position)
    (hcovered : CoveredFrom sym position fills) (trades : List Trade) :
    Books sym (orders.foldl collectTrades (s, trades)).1 (position + totalMoved fills) ∧
      tradedQuantity (orders.foldl collectTrades (s, trades)).2 =
        tradedQuantity trades + s.fillCallbacks * totalSold fills := by
  induction hdeals generalizing s position trades with
  | nil => simpa [totalMoved, totalSold] using h
  | cons hdeal _ ih =>
    obtain ⟨hsym, hq, hle, hrest⟩ := hcovered
    have hasset := hknown (List.cons_ne_nil _ _)
    obtain ⟨hbooks, htraded⟩ := books_publishFill hasset h hdeal hsym hq hle
    obtain ⟨hend, hpublished⟩ := ih (s := publishFill s _) (fun _ => hasset) hbooks hrest
      (trades ++ publishedTrades s.fillCallbacks (handledFill s _))
    refine ⟨?_, ?_⟩
    · simp only [totalMoved, List.map_cons, List.sum_cons, ← add_assoc]
      exact hend
    · rw [List.foldl_cons]
      refine hpublished.trans ?_
      have hcallbacks : ∀ o, (publishFill s o).fillCallbacks = s.fillCallbacks := fun _ => rfl
      rw [tradedQuantity_append, htraded, hcallbacks]
      simp only [totalSold, List.map_cons, List.sum_cons]
      ring

/-- Purchases close nothing. -/
theorem publishedTrades_of_buy (n : ℕ) {p : OrderManager × Order}
    (h : p.2.tradeAction = .buy) : publishedTrades n p = [] := by
  induction n generalizing p with
  | zero => rfl
  | succ n ih =>
    have hrest := ih (p := onOrderFilled p)
      ((sameReport_recordOrderFill p.1.sessionManager p.2).tradeAction_eq.trans h)
    have htrades : (p.1.sessionManager.recordOrderFill p.2).trades = [] := by
      unfold SessionManager.recordOrderFill
      split
      · rfl
      · simp [TradingContext.recordFill, SessionManager.withCommitHash, h]
    simp [publishedTrades, hrest, htrades]

theorem buys_of_deals {orders : List Order} {fills : List BacktestFill}
    (hdeals : List.Forall₂ SameDeal orders fills)
    (h : ∀ fill ∈ fills, fill.tradeAction = .buy) :
    ∀ order ∈ orders, order.tradeAction = .buy := by
  induction hdeals with
  | nil => simp
  | cons hdeal _ ih =>
    obtain ⟨hfill, hrest⟩ := List.forall_mem_cons.mp h
    exact List.forall_mem_cons.mpr ⟨hdeal.action.trans hfill, ih hrest⟩

theorem foldl_collectTrades_of_buy {orders : List Order}
    (h : ∀ order ∈ orders, order.tradeAction = .buy) (p : BacktestState × List Trade) :
    (orders.foldl collectTrades p).2 = p.2 := by
  induction orders generalizing p with
  | nil => rfl
  | cons order rest ih =>
    obtain ⟨horder, hrest⟩ := List.forall_mem_cons.mp h
    have hhandled : (handledFill p.1 order).2.tradeAction = .buy := by
      unfold handledFill
      split
      · exact ((sameReport_fillCommitHash p.1.orderManager.sessionManager order).trans
          (sameReport_recordOrderFill _ _)).tradeAction_eq.trans horder
      · exact horder
    rw [List.foldl_cons, ih hrest]
    simp [collectTrades, publishedTrades_of_buy _ hhandled]

end Publishing

/-! ## §3 One tick -/

/-- A session while it runs: its pending orders agree with those of the account, and its books with
    the position.

    Both are needed to tell from what is collected what the engine did. -/
structure InTrade (newUuid : ℕ → String) (sym : String) (s : BacktestState) : Prop where
  session : InSession newUuid sym s
  agreed : ∀ pending ∈ s.engine.pending.getD sym [], Agreed sym s.engine.account pending
  books : Books sym s (s.engine.account.positions.getD sym 0)

theorem getD_foldl_bookFill {sym : String} {position : ℚ} {fills : List BacktestFill}
    (h : CoveredFrom sym position fills) (funds : ℚ × Dict String ℚ) :
    (fills.foldl bookFill funds).2.getD sym 0 = funds.2.getD sym 0 + totalMoved fills := by
  induction fills generalizing position funds with
  | nil => simp [totalMoved]
  | cons fill rest ih =>
    obtain ⟨rfl, -, -, hrest⟩ := h
    rw [List.foldl_cons, ih hrest, getD_bookFill]
    simp only [totalMoved, List.map_cons, List.sum_cons, add_assoc]

/-- What is collected at a tick, and what it leaves. -/
structure TickOf (newUuid : ℕ → String) (sym : String) (s : BacktestState)
    (fills : List BacktestFill) (tick : TickFills) : Prop where
  fills_eq : tick.fills = fills
  funds_eq : tick.state.engine.funds = fills.foldl bookFill s.engine.funds
  covered : CoveredFrom sym (s.engine.account.positions.getD sym 0) fills
  traded : tradedQuantity tick.trades = s.fillCallbacks * totalSold fills
  bought : (∀ fill ∈ fills, fill.tradeAction = .buy) → tick.trades = []
  inTrade : InTrade newUuid sym tick.state
  fillCallbacks_eq : tick.state.fillCallbacks = s.fillCallbacks
  warmupCutoff_eq : tick.state.warmupCutoff = s.warmupCutoff

/-- An executor that never trades. -/
def idle (_ : BacktestState) (_ : Asset) (_ : ℤ) : List OrderRequest := []

section Ticks

variable {newUuid : ℕ → String} {trade : BacktestState → Asset → ℤ → List OrderRequest}
  {asset : Asset} {s : BacktestState}

/-- A tick fills what can be filled. -/
theorem tickOf_processTick (hinj : Function.Injective newUuid)
    (h : InTrade newUuid asset.tickerSymbol s) (timestamp : ℤ)
    (hwarm : isWarmup s timestamp = false) :
    TickOf newUuid asset.tickerSymbol s (s.engine.fillable asset.tickerSymbol timestamp)
      (processTick s asset timestamp) := by
  obtain ⟨hfilled, hpending⟩ := process_fillable h.session.engineInv.backed h.agreed timestamp
  -- publishing leaves the engine alone
  obtain ⟨hengine, hcallbacks, -, -, hcutoff⟩ := publishFrame_foldl
    (filledOrders (s.engine.process asset.tickerSymbol timestamp).2)
    { s with engine := (s.engine.process asset.tickerSymbol timestamp).1 }
  rw [← foldl_collectTrades_fst _ (_, [])] at hengine hcallbacks hcutoff
  have hassets : (s.engine.process asset.tickerSymbol timestamp).1.assets = s.engine.assets :=
    (sameMarket_engineStep s.engine (.process asset.tickerSymbol timestamp)).assets
  have hposition : (s.engine.process asset.tickerSymbol timestamp).1.account.positions.getD
      asset.tickerSymbol 0 = s.engine.account.positions.getD asset.tickerSymbol 0 +
        totalMoved (s.engine.fillable asset.tickerSymbol timestamp) := by
    have hfunds := congrArg (fun funds : ℚ × Dict String ℚ => funds.2.getD asset.tickerSymbol 0)
      hfilled.funds_eq
    exact hfunds.trans (getD_foldl_bookFill hfilled.covered s.engine.funds)
  obtain ⟨hbooks, htraded⟩ := books_collectTrades
    (s := { s with engine := (s.engine.process asset.tickerSymbol timestamp).1 })
    hfilled.orders (fun hne => by rw [hassets]; exact hfilled.known hne) h.books hfilled.covered []
  have hsession : (processTick s asset timestamp).state =
      simulatorStep newUuid idle asset s timestamp := by
    unfold simulatorStep processTick handleEvents
    rw [hwarm]
    simp only [foldl_collectTrades_fst, idle, Bool.false_eq_true, if_false, List.foldl_nil]
  refine
    { fills_eq := hfilled.fills_eq
      funds_eq := (congrArg BacktestExecutionEngine.funds hengine).trans hfilled.funds_eq
      covered := hfilled.covered
      traded := htraded.trans (zero_add _)
      bought := ?_
      inTrade := ⟨?_, ?_, ?_⟩
      fillCallbacks_eq := hcallbacks
      warmupCutoff_eq := hcutoff }
  · intro hbuy
    exact foldl_collectTrades_of_buy (buys_of_deals hfilled.orders hbuy) _
  · rw [hsession]
    exact inSession_simulatorStep hinj idle h.session timestamp
  · rw [processTick_engine, hpending]
    intro pending hmem
    have hqueue : pending ∈ s.engine.remaining asset.tickerSymbol timestamp := by
      simpa [Dict.getD] using hmem
    exact hfilled.agreed pending (h.agreed pending (List.mem_filter.mp hqueue).1)
  · rw [processTick_engine, hposition]
    exact hbooks

/-- What opening orders leaves alone, of what a session shows. -/
structure SameShown (s s' : BacktestState) : Prop where
  funds_eq : s'.engine.funds = s.engine.funds
  fillCallbacks_eq : s'.fillCallbacks = s.fillCallbacks
  warmupCutoff_eq : s'.warmupCutoff = s.warmupCutoff

theorem Agreed.addOrder {sym : String} {e : BacktestExecutionEngine} {pending : PendingOrder}
    (h : Agreed sym e.account pending) (order : Order) :
    Agreed sym (e.addOrder order).account pending := by
  obtain ⟨found, hfind, hfound⟩ := h.order
  refine ⟨h.symbol, h.positive, found, ?_, hfound⟩
  show (e.account.orders ++ [order]).find? _ = _
  unfold SimulatedAccount.findOrder at hfind
  rw [List.find?_append, hfind]
  rfl

/-- An order that is opened waits with the order of the account. -/
theorem inTrade_openRequest (hinj : Function.Injective newUuid)
    (h : InTrade newUuid asset.tickerSymbol s) (timestamp : ℤ) (request : OrderRequest) :
    InTrade newUuid asset.tickerSymbol (openRequest newUuid asset timestamp s request) ∧
      SameShown s (openRequest newUuid asset timestamp s request) := by
  have hopened : OpeningFrame newUuid s s := ⟨rfl, rfl, rfl, rfl, h.session.engineInv⟩
  have hframe := openingFrame_openRequest hinj hopened asset timestamp request
  have hlive : Live (openRequest newUuid asset timestamp s request).orderManager.sessionManager
      asset.tickerSymbol := by
    rw [hframe.session_eq]
    exact h.session.live
  -- opening an order moves no money
  have hfunds : (openRequest newUuid asset timestamp s request).engine.funds =
      s.engine.funds := by
    unfold openRequest
    simp only [createOrder_eq]
    rfl
  refine ⟨⟨⟨hframe.engineInv, hlive⟩, ?_, ?_⟩, hfunds, hframe.fillCallbacks_eq, rfl⟩
  · unfold openRequest
    simp only [createOrder_eq]
    generalize hplaced : s.orderManager.sessionManager.fillCommitHash _ = placed
    have hsymbol : placed.tickerSymbol = asset.tickerSymbol := by
      rw [← hplaced, fillCommitHash_tickerSymbol]
      rfl
    have huuid : placed.uuid = newUuid s.issued := by
      rw [← hplaced, fillCommitHash_uuid]
      rfl
    have hquantity : placed.quantity = request.quantity := by
      rw [← hplaced, fillCommitHash_quantity]
      rfl
    -- the orders that wait are those before and the one that is opened
    intro pending hmem
    rw [hsymbol] at hmem
    have hqueue : pending ∈ s.engine.pending.getD asset.tickerSymbol [] ++
        [s.engine.pendingOrder (createdOrder placed) asset.tickerSymbol] := by
      simpa [Dict.getD] using hmem
    rcases List.mem_append.mp hqueue with hold | hnew
    · exact (h.agreed pending hold).addOrder (createdOrder placed)
    · obtain rfl := List.mem_singleton.mp hnew
      refine ⟨rfl, ?_, createdOrder placed, ?_, hsymbol, rfl, rfl⟩
      · show 0 < placed.quantity
        rw [hquantity]
        exact request.quantity_pos
      · -- no earlier order has the id
        have hnone : s.engine.account.orders.find? (fun order => order.uuid = placed.uuid) =
            none := by
          rw [List.find?_eq_none]
          intro order horder
          rw [huuid]
          simpa using h.session.engineInv.fresh hinj order horder
        show (s.engine.account.orders ++ [createdOrder placed]).find? _ = _
        have hid : (createdOrder placed).uuid = placed.uuid := rfl
        simp [pendingOrder, hid, List.find?_append, hnone]
  · unfold Books
    rw [hframe.session_eq, hframe.fillCallbacks_eq,
      show (openRequest newUuid asset timestamp s request).engine.account.positions =
        s.engine.account.positions from (Prod.mk.inj hfunds).2]
    exact h.books

theorem inTrade_tradingCycle (trade : BacktestState → Asset → ℤ → List OrderRequest)
    (hinj : Function.Injective newUuid)
    (h : InTrade newUuid asset.tickerSymbol s) (timestamp : ℤ) :
    InTrade newUuid asset.tickerSymbol (tradingCycle newUuid trade s asset timestamp) ∧
      SameShown s (tradingCycle newUuid trade s asset timestamp) := by
  refine run_invariant (fun s' => InTrade newUuid asset.tickerSymbol s' ∧ SameShown s s') ?_
    ⟨h, rfl, rfl, rfl⟩ (trade s asset timestamp)
  rintro s' request ⟨h', hsame⟩
  obtain ⟨hopened, hshown⟩ := inTrade_openRequest hinj h' timestamp request
  exact ⟨hopened, hshown.funds_eq.trans hsame.funds_eq,
    hshown.fillCallbacks_eq.trans hsame.fillCallbacks_eq,
    hshown.warmupCutoff_eq.trans hsame.warmupCutoff_eq⟩

/-! ## §4 What a session collects -/

namespace Collector

def empty : Collector := ⟨[], [], []⟩

def append (c d : Collector) : Collector :=
  ⟨c.snapshots ++ d.snapshots, c.fills ++ d.fills, c.trades ++ d.trades⟩

end Collector

/-- What is collected at a tick. -/
def addedAt (newUuid : ℕ → String) (trade : BacktestState → Asset → ℤ → List OrderRequest)
    (asset : Asset) (s : BacktestState) (timestamp : ℤ) : Collector :=
  (collectorStep newUuid trade asset (s, .empty) timestamp).2

/-- The market stays what it is. -/
theorem sameMarket_simulatorStep (newUuid : ℕ → String)
    (trade : BacktestState → Asset → ℤ → List OrderRequest) (asset : Asset) (s : BacktestState)
    (timestamp : ℤ) :
    SameMarket s.engine (simulatorStep newUuid trade asset s timestamp).engine := by
  have hprocess := sameMarket_engineStep s.engine (.process asset.tickerSymbol timestamp)
  unfold simulatorStep handleEvents
  split
  · exact SameMarket.refl s.engine
  · refine run_invariant (fun s' : BacktestState => SameMarket s.engine s'.engine)
      (fun s' request h => h.trans (sameMarket_createOrder s'.engine _)) ?_
      (trade _ asset timestamp)
    rw [(publishFrame_foldl _ _).engine_eq]
    exact hprocess

/-- A tick of the warm-up does nothing. -/
theorem warmup_step (newUuid : ℕ → String)
    (trade : BacktestState → Asset → ℤ → List OrderRequest) (asset : Asset) {timestamp : ℤ}
    (h : isWarmup s timestamp = true) :
    simulatorStep newUuid trade asset s timestamp = s ∧
      addedAt newUuid trade asset s timestamp = .empty := by
  unfold addedAt simulatorStep collectorStep
  simp [h]

/-- The snapshot of funds. -/
def shownFunds (asset : Asset) (e : BacktestExecutionEngine) (timestamp : ℤ)
    (funds : ℚ × Dict String ℚ) : PortfolioSnapshot :=
  let dataPoint := (e.datasets.get? asset.tickerSymbol).bind fun d => d.get timestamp
  let close := (dataPoint.map (·.closePrice)).getD 0
  ⟨timestamp, funds.1, funds.2, funds.1 + funds.2.getD asset.tickerSymbol 0 * close⟩

/-- What a tick after the warm-up does, and what is collected at it. -/
structure StepOf (newUuid : ℕ → String) (trade : BacktestState → Asset → ℤ → List OrderRequest)
    (asset : Asset) (s : BacktestState) (timestamp : ℤ) (fills : List BacktestFill) : Prop where
  snapshots_eq : (addedAt newUuid trade asset s timestamp).snapshots =
    [shownFunds asset s.engine timestamp (fills.foldl bookFill s.engine.funds)]
  fills_eq : (addedAt newUuid trade asset s timestamp).fills = fills
  covered : CoveredFrom asset.tickerSymbol
    (s.engine.account.positions.getD asset.tickerSymbol 0) fills
  traded : tradedQuantity (addedAt newUuid trade asset s timestamp).trades =
    s.fillCallbacks * totalSold fills
  bought : (∀ fill ∈ fills, fill.tradeAction = .buy) →
    (addedAt newUuid trade asset s timestamp).trades = []
  inTrade : InTrade newUuid asset.tickerSymbol (simulatorStep newUuid trade asset s timestamp)
  funds_eq : (simulatorStep newUuid trade asset s timestamp).engine.funds =
    fills.foldl bookFill s.engine.funds
  fillCallbacks_eq : (simulatorStep newUuid trade asset s timestamp).fillCallbacks =
    s.fillCallbacks
  warmupCutoff_eq : (simulatorStep newUuid trade asset s timestamp).warmupCutoff = s.warmupCutoff

theorem stepOf_simulatorStep (trade : BacktestState → Asset → ℤ → List OrderRequest)
    (hinj : Function.Injective newUuid)
    (h : InTrade newUuid asset.tickerSymbol s) {timestamp : ℤ}
    (hwarm : isWarmup s timestamp = false) :
    StepOf newUuid trade asset s timestamp (s.engine.fillable asset.tickerSymbol timestamp) := by
  -- the tick fills what was open; the cycle after it only opens orders
  have htick := tickOf_processTick hinj h timestamp hwarm
  obtain ⟨hinTrade, hshown⟩ := inTrade_tradingCycle trade hinj htick.inTrade timestamp
  have hstep : simulatorStep newUuid trade asset s timestamp =
      tradingCycle newUuid trade (processTick s asset timestamp).state asset timestamp := by
    rw [← collectorStep_fst asset (s, .empty)]
    unfold collectorStep
    rw [hwarm]
    rfl
  have hadded : addedAt newUuid trade asset s timestamp =
      ⟨[snapshot (simulatorStep newUuid trade asset s timestamp).engine asset timestamp],
        (processTick s asset timestamp).fills, (processTick s asset timestamp).trades⟩ := by
    rw [hstep]
    unfold addedAt collectorStep
    rw [hwarm]
    rfl
  have hfunds : (simulatorStep newUuid trade asset s timestamp).engine.funds =
      (s.engine.fillable asset.tickerSymbol timestamp).foldl bookFill s.engine.funds := by
    rw [hstep]
    exact hshown.funds_eq.trans htick.funds_eq
  have hdatasets := (sameMarket_simulatorStep newUuid trade asset s
    timestamp).datasets
  refine
    { snapshots_eq := ?_
      fills_eq := by rw [hadded]; exact htick.fills_eq
      covered := htick.covered
      traded := by rw [hadded]; exact htick.traded
      bought := by rw [hadded]; exact htick.bought
      inTrade := hstep ▸ hinTrade
      funds_eq := hfunds
      fillCallbacks_eq := by rw [hstep]; exact hshown.fillCallbacks_eq.trans htick.fillCallbacks_eq
      warmupCutoff_eq := by rw [hstep]; exact hshown.warmupCutoff_eq.trans htick.warmupCutoff_eq }
  rw [hadded]
  unfold snapshot
  rw [hdatasets, ← hfunds]
  rfl

end Ticks

/-! ## §5 Two sessions tick by tick -/

/-- Two sessions that go through a tick alike: both or neither count it to the warm-up, and after
    the warm-up they have the same cash and positions, and can fill the same orders on the same
    terms, which are no sales. -/
def AlikeAt (sym : String) (s own : BacktestState) (timestamp : ℤ) : Prop :=
  isWarmup s timestamp = isWarmup own timestamp ∧
    (isWarmup own timestamp = false →
      s.engine.funds = own.engine.funds ∧
        s.engine.fillable sym timestamp = own.engine.fillable sym timestamp ∧
        ∀ fill ∈ own.engine.fillable sym timestamp, fill.tradeAction = .buy)

instance AlikeAt.decidable (sym : String) (s own : BacktestState) (timestamp : ℤ) :
    Decidable (AlikeAt sym s own timestamp) :=
  inferInstanceAs (Decidable (_ ∧ (_ → _)))

/-- One step of two sessions. -/
def stepBoth (newUuid : ℕ → String) (trade : BacktestState → Asset → ℤ → List OrderRequest)
    (asset : Asset) (p : BacktestState × BacktestState) (timestamp : ℤ) :
    BacktestState × BacktestState :=
  (simulatorStep newUuid trade asset p.1 timestamp, simulatorStep newUuid trade asset p.2 timestamp)

/-- Two sessions that go through the ticks alike. -/
def AlikeThrough (newUuid : ℕ → String) (trade : BacktestState → Asset → ℤ → List OrderRequest)
    (asset : Asset) (s own : BacktestState) (timestamps : List ℤ) : Prop :=
  Along (stepBoth newUuid trade asset) (fun p => AlikeAt asset.tickerSymbol p.1 p.2) (s, own)
    timestamps

instance AlikeThrough.decidable (newUuid : ℕ → String)
    (trade : BacktestState → Asset → ℤ → List OrderRequest) (asset : Asset)
    (s own : BacktestState) (timestamps : List ℤ) :
    Decidable (AlikeThrough newUuid trade asset s own timestamps) :=
  Along.decidable _ _

section TwoSessions

variable {newUuid : ℕ → String} {trade : BacktestState → Asset → ℤ → List OrderRequest}
  {asset : Asset} {s own : BacktestState}

/-- Nothing waits for the symbol. -/
def NoneWaiting (sym : String) (s : BacktestState) : Prop := s.engine.pending.getD sym [] = []

theorem NoneWaiting.fillable {sym : String} (h : NoneWaiting sym s) (timestamp : ℤ) :
    s.engine.fillable sym timestamp = [] := by
  unfold BacktestExecutionEngine.fillable due
  rw [h]
  rfl

end TwoSessions

/-! ## §6 The sessions before -/

/-- Nothing of a symbol waits or is held. -/
structure Untouched (sym : String) (s : BacktestState) : Prop where
  waiting : NoneWaiting sym s
  position : s.engine.account.positions.getD sym 0 = 0

section Sessions

variable {newUuid : ℕ → String} {trade : BacktestState → Asset → ℤ → List OrderRequest}
  {asset : Asset} {s : BacktestState} {request : BacktestRequest} {sym : String}

theorem getD_foldl_bookFill_of_ne {other : String} {position : ℚ} {fills : List BacktestFill}
    (h : CoveredFrom other position fills) (hne : sym ≠ other) (funds : ℚ × Dict String ℚ) :
    (fills.foldl bookFill funds).2.getD sym 0 = funds.2.getD sym 0 := by
  induction fills generalizing position funds with
  | nil => rfl
  | cons fill rest ih =>
    obtain ⟨rfl, -, -, hrest⟩ := h
    rw [List.foldl_cons, ih hrest]
    simp [bookFill, Dict.getD, Dict.get?_set_of_ne _ _ hne]

/-- A tick of one symbol leaves the queues of the others alone. -/
theorem pending_simulatorStep (h : InTrade newUuid asset.tickerSymbol s)
    (hne : sym ≠ asset.tickerSymbol) (timestamp : ℤ) :
    (simulatorStep newUuid trade asset s timestamp).engine.pending.getD sym [] =
      s.engine.pending.getD sym [] := by
  obtain ⟨-, hprocess⟩ := process_fillable h.session.engineInv.backed h.agreed timestamp
  unfold simulatorStep handleEvents
  split
  · rfl
  · refine run_invariant
      (fun s' : BacktestState => s'.engine.pending.getD sym [] = s.engine.pending.getD sym []) ?_ ?_
      (trade _ asset timestamp)
    · intro s' request hsame
      rw [← hsame]
      unfold openRequest
      simp only [createOrder_eq, fillCommitHash_tickerSymbol]
      show Dict.getD (Dict.set _ asset.tickerSymbol _) sym [] = _
      simp [Dict.getD, Dict.get?_set_of_ne _ _ hne]
    · rw [(publishFrame_foldl _ _).engine_eq]
      show (s.engine.process asset.tickerSymbol timestamp).1.pending.getD sym [] = _
      rw [hprocess]
      simp [Dict.getD, Dict.get?_set_of_ne _ _ hne]

theorem untouched_simulatorStep (hinj : Function.Injective newUuid)
    (h : InTrade newUuid asset.tickerSymbol s) (hne : sym ≠ asset.tickerSymbol)
    (hsym : Untouched sym s) (timestamp : ℤ) :
    Untouched sym (simulatorStep newUuid trade asset s timestamp) := by
  refine ⟨(pending_simulatorStep h hne timestamp).trans hsym.waiting, ?_⟩
  cases hwarm : isWarmup s timestamp with
  | true =>
    rw [(warmup_step newUuid trade asset hwarm).1]
    exact hsym.position
  | false =>
    have hspec := stepOf_simulatorStep trade hinj h hwarm
    have hpositions := (Prod.mk.inj hspec.funds_eq).2
    rw [hpositions]
    exact (getD_foldl_bookFill_of_ne hspec.covered hne s.engine.funds).trans hsym.position

/-- What holds during the session of a request. -/
structure During (newUuid : ℕ → String) (request : BacktestRequest) (s s' : BacktestState) :
    Prop where
  inTrade : InTrade newUuid request.tickerSymbol s'
  fillCallbacks_eq : s'.fillCallbacks = s.fillCallbacks + 1
  sameMarket : SameMarket s.engine s'.engine
  untouched : ∀ sym, sym ≠ request.tickerSymbol → Untouched sym s → Untouched sym s'

theorem During.simulatorStep (trade : BacktestState → Asset → ℤ → List OrderRequest)
    (hinj : Function.Injective newUuid) {s' : BacktestState} (h : During newUuid request s s')
    (timestamp : ℤ) :
    During newUuid request s
      (simulatorStep newUuid trade (asBacktestAsset request.asset) s' timestamp) := by
  cases hwarm : isWarmup s' timestamp with
  | true =>
    rw [(warmup_step newUuid trade (asBacktestAsset request.asset) hwarm).1]
    exact h
  | false =>
    have hspec := stepOf_simulatorStep trade hinj h.inTrade hwarm
    exact
      { inTrade := hspec.inTrade
        fillCallbacks_eq := hspec.fillCallbacks_eq.trans h.fillCallbacks_eq
        sameMarket := h.sameMarket.trans
          (sameMarket_simulatorStep newUuid trade (asBacktestAsset request.asset) s' timestamp)
        untouched := fun sym hne hsym =>
          untouched_simulatorStep hinj h.inTrade hne (h.untouched sym hne hsym) timestamp }

end Sessions

/-! ## §7 Independent results -/

/-- The session of a request goes through its ticks as in a run of its own.

    It is said of the ticks one by one, and of the state in front of each: what counts to the
    warm-up, what cash and positions there are, and what can be filled. -/
def Alike (newUuid : ℕ → String) (trade : BacktestState → Asset → ℤ → List OrderRequest)
    (request : BacktestRequest) (s own : BacktestState) : Prop :=
  AlikeThrough newUuid trade (asBacktestAsset request.asset) (started s request)
    (started own request) (ticks own request.tickerSymbol)

instance Alike.decidable (newUuid : ℕ → String)
    (trade : BacktestState → Asset → ℤ → List OrderRequest) (request : BacktestRequest)
    (s own : BacktestState) : Decidable (Alike newUuid trade request s own) :=
  AlikeThrough.decidable _ _ _ _ _ _

section Results

variable {newUuid : ℕ → String} {trade : BacktestState → Asset → ℤ → List OrderRequest}
  {s own : BacktestState} {request : BacktestRequest}

end Results

end CryptoTrading.Backtest
