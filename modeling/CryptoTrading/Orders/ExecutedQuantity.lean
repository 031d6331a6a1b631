import Mathlib.Data.List.Infix
import Mathlib.Tactic.Linarith
import Mathlib.Tactic.Ring
import CryptoTrading.Exchange.OrderMappers
import CryptoTrading.Orders.FillAccounting

/-!
# Executed and booked quantities

The exchange reports about an order several times, each time with the quantity executed so
far.  Every report is mapped and handed to `_save_orders_to_database`, which looks at the
status alone: a filled order is booked with its ordered quantity, anything else not at all.

The position therefore depends on how many reports called the order filled
(`positionOf_run`), and not on what was executed.  An order that is cancelled after a partial
execution is not booked, and one that is reported as filled twice is booked twice.
`position_follows_execution_iff` states exactly when the position is right nevertheless.
-/

namespace CryptoTrading.Orders

open CryptoTrading.Lib CryptoTrading.Session CryptoTrading.Exchange

/-! ## §1 Reports -/

/-- A report with the database statements that raise while it is saved. -/
structure ReportCall where
  report : OrderReport
  fault : DbFault

/-- The callback of the exchange: map the report and save the order. -/
def handleReport (upper : String → String) (m : OrderManager) (call : ReportCall) : OrderManager :=
  match call.report.toOrder upper with
  | some order => (m.saveOrdersToDatabase [order] call.fault).1
  | none => m

/-- The position of a symbol in the session. -/
def positionOf (m : OrderManager) (tickerSymbol : String) : Option ℚ :=
  (m.sessionManager.findContext tickerSymbol).map (·.positionQty)

/-- The report calls the order filled, and its unit of work opens. -/
def isBooked (db : Database) (call : ReportCall) : Bool :=
  call.report.isFilled && !db.raises call.fault .begin

/-- What one fill does to a position. -/
def applyFill : TradeAction → ℚ → ℚ → ℚ
  | .buy, position, quantity => position + quantity
  -- selling more than the position leaves none
  | .sell, position, quantity => max 0 (position - quantity)

/-! ## §2 One report -/

/-- A call does not replace the database by one of another kind. -/
theorem raises_upsertOrder {db db' : Database} {order : Order}
    (h : db.upsertOrder order = some db') (fault : DbFault) (op : DbOp) :
    db'.raises fault op = db.raises fault op := by
  cases db with
  | noop =>
    obtain rfl := Option.some.inj h
    rfl
  | sql rows trades =>
    obtain rfl := eq_of_upsertOrder_sql h
    rfl

theorem raises_saveLoop {fault : DbFault} {i : ℕ} {m : OrderManager} {uow uow' : Database}
    {orders : List Order} (h : (OrderManager.saveLoop fault i m uow orders).2 = some uow')
    (fault' : DbFault) (op : DbOp) : uow'.raises fault' op = uow.raises fault' op := by
  induction orders generalizing i m uow with
  | nil =>
    obtain rfl := Option.some.inj h
    rfl
  | cons order rest ih =>
    have hspec := processUpdate_spec m fault i uow order
    obtain ⟨m₁, uow₁, hstep, hrest⟩ := saveLoop_cons_some h
    rw [hstep] at hspec
    rw [hrest] at h
    obtain ⟨written, trades, -, hwritten⟩ := hspec.exists_upsert
    rw [ih h, raises_upsertOrder hwritten, raises_insertTrades]

theorem raises_saveOrdersToDatabase (m : OrderManager) (orders : List Order)
    (fault fault' : DbFault) (op : DbOp) :
    (m.saveOrdersToDatabase orders fault).1.database.raises fault' op =
      m.database.raises fault' op := by
  rcases (saveOrdersToDatabase_cases m orders fault).2 with ⟨hsame, -⟩ | ⟨uow', hloop, heq⟩
  · rw [hsame]
  · rw [heq]
    exact raises_saveLoop hloop fault' op

theorem isBooked_handleReport (upper : String → String) (m : OrderManager)
    (call call' : ReportCall) :
    isBooked (handleReport upper m call).database call' = isBooked m.database call' := by
  unfold isBooked handleReport
  split
  · rw [raises_saveOrdersToDatabase]
  · rfl

/-- A fill moves the position by the quantity of its order. -/
theorem positionQty_recordFill (ctx : TradingContext) {order : Order} (hq : 0 < order.quantity) :
    (ctx.recordFill order).1.positionQty =
      applyFill order.tradeAction ctx.positionQty order.quantity := by
  unfold TradingContext.recordFill
  cases order.tradeAction with
  | buy => simp [TradingContext.recordBuyFill, applyFill, hq]
  | sell => rfl

@[simp] theorem fillCommitHash_quantity (sm : SessionManager) (order : Order) :
    (sm.fillCommitHash order).quantity = order.quantity := by
  unfold SessionManager.fillCommitHash
  split <;> rfl

/-- A call with one order reaches it as soon as the unit of work opens. -/
theorem processedOrders_singleton (m : OrderManager) (order : Order) (fault : DbFault) :
    processedOrders m [order] fault =
      if m.database.raises fault .begin = true then [] else [order] := by
  unfold processedOrders
  split
  · rfl
  · simp only [processedFrom]
    split <;> rfl

/-- Saving an order moves its position when the order is completed. -/
theorem positionOf_saveOrdersToDatabase {m : OrderManager} {order : Order} {position : ℚ}
    (hq : 0 < order.quantity) (hpos : positionOf m order.tickerSymbol = some position)
    (fault : DbFault) :
    positionOf (m.saveOrdersToDatabase [order] fault).1 order.tickerSymbol =
      some (if order.status = some .completed ∧ ¬ m.database.raises fault .begin = true then
        applyFill order.tradeAction position order.quantity else position) := by
  have hledger := saveOrdersToDatabase_ledger m [order] fault
  have hsession : (m.saveOrdersToDatabase [order] fault).1.sessionManager =
      (run book (ledgerOf m) (processedOrders m [order] fault)).session := by
    rw [← hledger]
    rfl
  obtain ⟨ctx, hctx, rfl⟩ := Option.map_eq_some_iff.mp hpos
  unfold positionOf
  rw [hsession, processedOrders_singleton]
  -- a session that does not open processes nothing
  by_cases hopens : m.database.raises fault .begin = true
  · rw [if_pos hopens, if_neg (fun h => h.2 hopens)]
    simp [ledgerOf, hctx]
  · rw [if_neg hopens, run_cons, run_nil]
    by_cases hcompleted : order.status = some .completed
    · rw [if_pos ⟨hcompleted, hopens⟩]
      obtain ⟨order', haction, hquantity, hfill⟩ :=
        m.sessionManager.findContext_recordOrderFill_self (m.sessionManager.fillCommitHash order)
      rw [fillCommitHash_tickerSymbol, hctx] at hfill
      rw [fillCommitHash_quantity] at hquantity
      rw [(sameReport_fillCommitHash m.sessionManager order).tradeAction_eq] at haction
      simp only [book, hcompleted, ↓reduceIte, ledgerOf, hfill, Option.map_some]
      rw [positionQty_recordFill ctx (hquantity ▸ hq), haction, hquantity]
    · rw [if_neg (fun h => hcompleted h.1)]
      simp [book, hcompleted, ledgerOf, hctx]

theorem positionOf_handleReport {upper : String → String} {m : OrderManager} {placed : PlacedOrder}
    {position : ℚ} (hpos : positionOf m placed.tickerSymbol = some position) {call : ReportCall}
    (habout : call.report.About upper placed) :
    positionOf (handleReport upper m call) placed.tickerSymbol =
      some (if isBooked m.database call then
        applyFill placed.tradeAction position placed.quantity else position) := by
  obtain ⟨order, horder, hsymbol, haction, hquantity, hstatus⟩ := OrderReport.exists_toOrder habout
  rw [← hsymbol] at hpos
  have hsaved := positionOf_saveOrdersToDatabase (hquantity ▸ placed.quantity_pos) hpos call.fault
  unfold handleReport
  rw [horder]
  simp only
  rw [← hsymbol, hsaved, haction, hquantity]
  simp [isBooked, hstatus]

/-! ## §3 Sequences of reports -/

/-- The position after `k` fills of the same order. -/
def positionAfter (placed : PlacedOrder) (position : ℚ) (k : ℕ) : ℚ :=
  (fun p => applyFill placed.tradeAction p placed.quantity)^[k] position

/-- The position depends on the number of reports that called the order filled. -/
theorem positionOf_run {upper : String → String} {m : OrderManager} {placed : PlacedOrder}
    {position : ℚ} (hpos : positionOf m placed.tickerSymbol = some position)
    {calls : List ReportCall} (habout : ∀ call ∈ calls, call.report.About upper placed) :
    positionOf (run (handleReport upper) m calls) placed.tickerSymbol =
      some (positionAfter placed position (calls.countP (isBooked m.database))) := by
  induction calls generalizing m position with
  | nil => exact hpos
  | cons call rest ih =>
    have hstep := positionOf_handleReport hpos (habout call List.mem_cons_self)
    have hrest := ih hstep fun call' h => habout call' (List.mem_cons_of_mem _ h)
    have hcount : rest.countP (isBooked (handleReport upper m call).database) =
        rest.countP (isBooked m.database) := by
      congr 1
      funext call'
      exact isBooked_handleReport upper m call call'
    rw [run_cons, hrest, hcount]
    by_cases hbooked : isBooked m.database call = true
    · rw [if_pos hbooked, List.countP_cons_of_pos hbooked]
      rfl
    · rw [if_neg hbooked, List.countP_cons_of_neg hbooked]

theorem positionAfter_buy {placed : PlacedOrder} (h : placed.tradeAction = .buy) (position : ℚ)
    (k : ℕ) : positionAfter placed position k = position + k * placed.quantity := by
  unfold positionAfter
  rw [h]
  induction k with
  | zero => simp
  | succ k ih =>
    rw [Function.iterate_succ_apply', ih]
    simp only [applyFill]
    push_cast
    ring

theorem positionAfter_sell {placed : PlacedOrder} (h : placed.tradeAction = .sell) {position : ℚ}
    (hpos : 0 ≤ position) (k : ℕ) :
    positionAfter placed position k = max 0 (position - k * placed.quantity) := by
  have hq := placed.quantity_pos
  unfold positionAfter
  rw [h]
  induction k with
  | zero => simp [hpos]
  | succ k ih =>
    rw [Function.iterate_succ_apply', ih]
    simp only [applyFill]
    push_cast
    rcases le_total 0 (position - k * placed.quantity) with hle | hle
    · rw [max_eq_right hle]
      ring_nf
    · -- nothing is left, and nothing comes back
      rw [max_eq_left hle, max_eq_left (by linarith), max_eq_left (by linarith)]

/-! ## §4 When the position is right -/

/-- The position that the exchange's figures call for. -/
def executedPosition (placed : PlacedOrder) (position executed : ℚ) : ℚ :=
  match placed.tradeAction with
  | .buy => position + executed
  | .sell => position - min executed position

/-- The executed quantity that the last report gives. -/
def lastExecuted (calls : List ReportCall) : ℚ :=
  (calls.getLast?.map (·.report.executed)).getD 0

/-- Nothing was executed and no report called the order filled; or one did, and all of it was
    executed.  For a sale, what exceeds the position does not count. -/
def FillsMatch (placed : PlacedOrder) (position : ℚ) (filled : ℕ) (executed : ℚ) : Prop :=
  if filled = 0 then executed = 0 ∨ (placed.tradeAction = .sell ∧ position = 0)
  else (filled = 1 ∧ executed = placed.quantity) ∨
    (placed.tradeAction = .sell ∧ position ≤ executed)

instance (placed : PlacedOrder) (position : ℚ) (filled : ℕ) (executed : ℚ) :
    Decidable (FillsMatch placed position filled executed) :=
  inferInstanceAs (Decidable (ite _ _ _))

/-- Several fills of a positive quantity exceed what was ordered. -/
theorem fills_eq_iff (placed : PlacedOrder) {executed : ℚ} (hhigh : executed ≤ placed.quantity)
    {k : ℕ} (hk : k ≠ 0) :
    k * placed.quantity = executed ↔ k = 1 ∧ executed = placed.quantity := by
  have hq := placed.quantity_pos
  constructor
  · intro heq
    have hone : k = 1 := by
      by_contra hne
      have htwo : (2 : ℚ) ≤ k := by exact_mod_cast (by omega : 2 ≤ k)
      nlinarith
    subst hone
    exact ⟨rfl, by simpa using heq.symm⟩
  · rintro ⟨rfl, rfl⟩
    simp

theorem positionAfter_eq_iff {placed : PlacedOrder} {position executed : ℚ} (hpos : 0 ≤ position)
    (hlow : 0 ≤ executed) (hhigh : executed ≤ placed.quantity) (k : ℕ) :
    positionAfter placed position k = executedPosition placed position executed ↔
      FillsMatch placed position k executed := by
  have hq := placed.quantity_pos
  cases haction : placed.tradeAction with
  | buy =>
    rw [positionAfter_buy haction, executedPosition, haction, FillsMatch, haction]
    by_cases hk : k = 0
    · simp [hk]
    · rw [if_neg hk, add_right_inj, fills_eq_iff placed hhigh hk]
      simp
  | sell =>
    rw [positionAfter_sell haction hpos, executedPosition, haction, FillsMatch, haction]
    by_cases hk : k = 0
    · subst hk
      rw [if_pos rfl, Nat.cast_zero, zero_mul, sub_zero, max_eq_right hpos]
      rcases le_total executed position with hle | hle
      · rw [min_eq_left hle]
        constructor
        · intro heq
          exact .inl (by linarith)
        · rintro (hzero | ⟨-, hzero⟩) <;> linarith
      · rw [min_eq_right hle]
        constructor
        · intro heq
          exact .inr ⟨rfl, by linarith⟩
        · rintro (hzero | ⟨-, hzero⟩) <;> linarith
    · rw [if_neg hk]
      have hone : (1 : ℚ) ≤ k := by exact_mod_cast Nat.one_le_iff_ne_zero.mpr hk
      by_cases hle : position ≤ executed
      · -- everything is sold either way
        have hall : position - k * placed.quantity ≤ 0 := by nlinarith
        rw [min_eq_right hle, max_eq_left hall, sub_self]
        exact iff_of_true rfl (.inr ⟨rfl, hle⟩)
      · have hlt := not_le.mp hle
        rw [min_eq_left hlt.le]
        constructor
        · intro heq
          have hpositive : 0 < position - k * placed.quantity := by
            rcases max_choice 0 (position - k * placed.quantity) with hmax | hmax <;>
              rw [hmax] at heq <;> linarith
          rw [max_eq_right hpositive.le] at heq
          exact .inl ((fills_eq_iff placed hhigh hk).mp (by linarith))
        · rintro (hfull | ⟨-, habsurd⟩)
          · rw [(fills_eq_iff placed hhigh hk).mpr hfull, max_eq_right (by linarith)]
          · exact absurd habsurd hle

/-- **The position follows the execution** of an order from its first final report on, for every
    sequence of reports, exactly when by then either no report called it filled and nothing was
    executed, or one did and all of it was executed.  For a sale an executed quantity that exceeds
    the position held counts as all of it.

    Only a report of a filled order is booked, with the ordered quantity; the executed quantity is
    parsed and not used. -/
theorem position_follows_execution_iff {upper : String → String} {m : OrderManager}
    {placed : PlacedOrder} {position : ℚ}
    (hstart : positionOf m placed.tickerSymbol = some position) (hpos : 0 ≤ position)
    {calls : List ReportCall}
    (habout : ∀ call ∈ calls, call.report.About upper placed)
    (hrange : ∀ call ∈ calls, 0 ≤ call.report.executed ∧ call.report.executed ≤ placed.quantity) :
    (∀ before, before <+: calls → before.any (·.report.isFinal) = true →
        positionOf (run (handleReport upper) m before) placed.tickerSymbol =
          some (executedPosition placed position (lastExecuted before))) ↔
      ∀ before, before <+: calls → before.any (·.report.isFinal) = true →
        FillsMatch placed position (before.countP (isBooked m.database)) (lastExecuted before) := by
  refine forall_congr' fun before => forall_congr' fun hbefore => forall_congr' fun hfinal => ?_
  have hmem : ∀ call ∈ before, call ∈ calls := fun call h => hbefore.subset h
  have hrun := positionOf_run hstart fun call h => habout call (hmem call h)
  have hlast : 0 ≤ lastExecuted before ∧ lastExecuted before ≤ placed.quantity := by
    unfold lastExecuted
    cases hlast : before.getLast? with
    | none => exact ⟨le_refl 0, placed.quantity_pos.le⟩
    | some call => exact hrange call (hmem call (List.mem_of_getLast? hlast))
  rw [hrun, Option.some.injEq]
  exact positionAfter_eq_iff hpos hlast.1 hlast.2 _

/-- An order for ten units of one symbol. -/
def tenUnits : PlacedOrder := ⟨"u1", "BTC_USD", .buy, 10, by norm_num⟩

/-- A Crypto.com report about that order. -/
def tenUnitsReport (status : String) (executed : ℚ) : ReportCall where
  report := .cryptoDotCom
    { clientOid := some "u1"
      side := some "BUY"
      quantity := some 10
      limitPrice := some 100
      avgPrice := some 100
      cumulativeQuantity := some executed
      cumulativeFee := none
      status := some status
      instrumentName := some "BTC_USD"
      createTimeNs := some 0
      updateTime := none }
  fault := noFault

/-- A session that holds nothing of the symbol, and no database. -/
def emptyPosition : OrderManager :=
  OrderManager.new .noop
    { currentSession := some
        { sessionId := "s"
          tradingContexts := Dict.empty.set "BTC"
            (TradingContext.new "BTC_USD" "CRYPTO_DOT_COM" 0 none)
          commitHash := none }
      isRunning := true
      headCommitHash := none } false

/-- A partial execution and then the fill: ten units were executed, and ten are booked. -/
theorem position_follows_partial_then_filled :
    positionOf emptyPosition tenUnits.tickerSymbol = some 0 ∧
      ∀ before, before <+: [tenUnitsReport "ACTIVE" 4, tenUnitsReport "FILLED" 10] →
        before.any (·.report.isFinal) = true →
          positionOf (run (handleReport id) emptyPosition before) tenUnits.tickerSymbol =
            some (executedPosition tenUnits 0 (lastExecuted before)) := by
  have hstart : positionOf emptyPosition tenUnits.tickerSymbol = some 0 := by decide +kernel
  refine ⟨hstart, (position_follows_execution_iff hstart (le_refl 0) ?_ ?_).mpr ?_⟩
  · intro call hcall
    rcases List.mem_pair.mp hcall with rfl | rfl <;> exact ⟨rfl, rfl, rfl, rfl, rfl, rfl⟩
  · intro call hcall
    rcases List.mem_pair.mp hcall with rfl | rfl <;> decide +kernel
  · have hinits : ∀ before ∈ [tenUnitsReport "ACTIVE" 4, tenUnitsReport "FILLED" 10].inits,
        before.any (·.report.isFinal) = true →
          FillsMatch tenUnits 0 (before.countP (isBooked emptyPosition.database))
            (lastExecuted before) := by decide +kernel
    intro before hbefore
    exact hinits before ((List.mem_inits _ _).mpr hbefore)

/-- Four units were executed before the order was cancelled, and none is booked. -/
theorem cancelled_execution_not_booked :
    (∀ call ∈ [tenUnitsReport "ACTIVE" 4, tenUnitsReport "CANCELED" 4],
        call.report.About id tenUnits) ∧
      positionOf (run (handleReport id) emptyPosition
          [tenUnitsReport "ACTIVE" 4, tenUnitsReport "CANCELED" 4]) "BTC_USD" ≠
        some (executedPosition tenUnits 0
          (lastExecuted [tenUnitsReport "ACTIVE" 4, tenUnitsReport "CANCELED" 4])) := by
  refine ⟨?_, by decide +kernel⟩
  intro call hcall
  rcases List.mem_pair.mp hcall with rfl | rfl <;> exact ⟨rfl, rfl, rfl, rfl, rfl, rfl⟩

end CryptoTrading.Orders
