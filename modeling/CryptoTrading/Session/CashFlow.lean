import Mathlib.Algebra.Order.BigOperators.Group.List
import Mathlib.Tactic.Linarith
import Mathlib.Tactic.LinearCombination
import Mathlib.Tactic.Ring
import CryptoTrading.Lib.Run
import CryptoTrading.Session.SessionManager

/-!
# Realized profit and loss as cash flow

A sale takes units from the front of the lots, so everything a match does is a statement
about the first `quantity` units held.  `consumed w q lots` is what these units are worth
when a unit of a lot is worth `w lot`:

- with weight one it is the quantity that finds a lot;
- with the unit cost of a lot it is the cost basis that the sale turns into realized profit.

`matchFrom_spec` states the match in these terms.  The books of a context then balance
after every fill: realized profit is the cash received less the cash paid plus the cost
basis of what is still held.

Decimals are exact rationals: the rounding of a context to 28 digits is left out.
-/

namespace CryptoTrading.Session

open CryptoTrading.Lib

/-! ## §1 The worth of lots -/

/-- What the open lots are worth when a unit of a lot is worth `w lot`. -/
def lotsValue (w : PositionLot → ℚ) (lots : List PositionLot) : ℚ :=
  (lots.map fun lot => lot.remainingQuantity * w lot).sum

/-- What the first `q` units of the lots are worth. -/
def consumed (w : PositionLot → ℚ) : ℚ → List PositionLot → ℚ
  | _, [] => 0
  | q, lot :: rest =>
    let matchedQty := min q lot.remainingQuantity
    matchedQty * w lot + consumed w (q - matchedQty) rest

/-- The quantity of the open lots. -/
def heldQuantity (lots : List PositionLot) : ℚ := (lots.map (·.remainingQuantity)).sum

/-- What a unit of the lot has cost with its share of fees and slippage. -/
def PositionLot.unitCost (lot : PositionLot) : ℚ :=
  lot.price + lot.feePerUnit + lot.slippagePerUnit

/-- What the open lots have cost. -/
def costBasis (lots : List PositionLot) : ℚ := lotsValue PositionLot.unitCost lots

/-- What a sold unit brings in after its share of fees and slippage. -/
def Exit.unitProceeds (exit : Exit) : ℚ :=
  exit.price - perUnit exit.fee exit.quantity - perUnit exit.slippage exit.quantity

/-- Every open lot has something left. -/
def LotsOpen (lots : List PositionLot) : Prop := ∀ lot ∈ lots, 0 < lot.remainingQuantity

/-- A weight that reads only what a match leaves alone. -/
def Unaffected (w : PositionLot → ℚ) : Prop :=
  ∀ lot q, w { lot with remainingQuantity := q } = w lot

theorem unaffected_one : Unaffected fun _ => 1 := fun _ _ => rfl

theorem unaffected_unitCost : Unaffected PositionLot.unitCost := fun _ _ => rfl

theorem unaffected_price : Unaffected PositionLot.price := fun _ _ => rfl

@[simp] theorem lotsValue_nil (w : PositionLot → ℚ) : lotsValue w [] = 0 := rfl

@[simp] theorem lotsValue_cons (w : PositionLot → ℚ) (lot : PositionLot)
    (rest : List PositionLot) :
    lotsValue w (lot :: rest) = lot.remainingQuantity * w lot + lotsValue w rest := by
  simp [lotsValue]

theorem lotsValue_append (w : PositionLot → ℚ) (xs ys : List PositionLot) :
    lotsValue w (xs ++ ys) = lotsValue w xs + lotsValue w ys := by
  simp [lotsValue]

theorem lotsValue_one (lots : List PositionLot) :
    lotsValue (fun _ => 1) lots = heldQuantity lots := by
  simp [lotsValue, heldQuantity]

@[simp] theorem heldQuantity_cons (lot : PositionLot) (rest : List PositionLot) :
    heldQuantity (lot :: rest) = lot.remainingQuantity + heldQuantity rest := by
  simp [heldQuantity]

theorem heldQuantity_nonneg {lots : List PositionLot} (h : LotsOpen lots) :
    0 ≤ heldQuantity lots := by
  apply List.sum_nonneg
  intro x hx
  obtain ⟨lot, hlot, rfl⟩ := List.mem_map.mp hx
  exact (h lot hlot).le

theorem lotsOpen_cons {lot : PositionLot} {rest : List PositionLot} :
    LotsOpen (lot :: rest) ↔ 0 < lot.remainingQuantity ∧ LotsOpen rest :=
  List.forall_mem_cons

/-- Selling nothing takes nothing. -/
theorem consumed_zero (w : PositionLot → ℚ) {lots : List PositionLot} (h : LotsOpen lots) :
    consumed w 0 lots = 0 := by
  induction lots with
  | nil => rfl
  | cons lot rest ih =>
    obtain ⟨hlot, hrest⟩ := lotsOpen_cons.mp h
    simp only [consumed, min_eq_left hlot.le, sub_zero, zero_mul, zero_add]
    exact ih hrest

/-- The units that find a lot: all of them, or all that is held. -/
theorem consumed_one {q : ℚ} (hq : 0 ≤ q) {lots : List PositionLot} (h : LotsOpen lots) :
    consumed (fun _ => 1) q lots = min q (heldQuantity lots) := by
  induction lots generalizing q with
  | nil => simp [consumed, heldQuantity, hq]
  | cons lot rest ih =>
    obtain ⟨hlot, hrest⟩ := lotsOpen_cons.mp h
    have hnonneg := heldQuantity_nonneg hrest
    simp only [consumed, mul_one, heldQuantity_cons]
    by_cases hle : q ≤ lot.remainingQuantity
    · rw [min_eq_left hle, sub_self, consumed_zero _ hrest, add_zero, min_eq_left (by linarith)]
    · have hge : lot.remainingQuantity ≤ q := (not_le.mp hle).le
      rw [min_eq_right hge, ih (sub_nonneg.mpr hge) hrest, ← min_add_add_left,
        add_sub_cancel]

/-- The quantity is the worth with weight one, and nothing more can be taken. -/
theorem consumed_heldQuantity (w : PositionLot → ℚ) {lots : List PositionLot}
    (h : LotsOpen lots) : consumed w (heldQuantity lots) lots = lotsValue w lots := by
  induction lots with
  | nil => rfl
  | cons lot rest ih =>
    obtain ⟨hlot, hrest⟩ := lotsOpen_cons.mp h
    have hnonneg := heldQuantity_nonneg hrest
    simp only [consumed, heldQuantity_cons, lotsValue_cons]
    rw [min_eq_right (by linarith), add_sub_cancel_left, ih hrest]

/-! ## §2 What a match does -/

theorem netPnl_create (lot : PositionLot) (exit : Exit) (matchedQty : ℚ) :
    (Trade.create lot exit matchedQty).netPnl =
      matchedQty * exit.unitProceeds - matchedQty * lot.unitCost := by
  simp only [Trade.create, Exit.unitProceeds, PositionLot.unitCost]
  ring

/-- The net profit of a list of trades. -/
def tradesPnl (trades : List Trade) : ℚ := (trades.map (·.netPnl)).sum

theorem tradesPnl_cons (trade : Trade) (rest : List Trade) :
    tradesPnl (trade :: rest) = trade.netPnl + tradesPnl rest := by
  simp [tradesPnl]

theorem tradesPnl_append (xs ys : List Trade) :
    tradesPnl (xs ++ ys) = tradesPnl xs + tradesPnl ys := by
  simp [tradesPnl]

/-- A match in terms of the units it takes.

    The lots that are left are old ones with less in them; what was taken is weighed by any weight
    that a match leaves alone; and the trades earn the proceeds of the units less their cost. -/
structure MatchSpec (exit : Exit) (q : ℚ) (lots : List PositionLot)
    (out : FifoTradeMatcher.Matched) : Prop where
  lotsOpen : LotsOpen out.lots
  lots_from : ∀ lot ∈ out.lots, ∃ old ∈ lots, ∃ left, lot = { old with remainingQuantity := left }
  lotsValue_eq : ∀ w, Unaffected w → lotsValue w out.lots = lotsValue w lots - consumed w q lots
  sellRemaining_eq : out.sellRemaining = q - consumed (fun _ => 1) q lots
  tradesPnl_eq : tradesPnl out.trades =
    consumed (fun _ => 1) q lots * exit.unitProceeds - consumed PositionLot.unitCost q lots

/-- **The match loop sells the first units held**, whatever the lots. -/
theorem matchFrom_spec (exit : Exit) {q : ℚ} (hq : 0 ≤ q) {lots : List PositionLot}
    (h : LotsOpen lots) : MatchSpec exit q lots (FifoTradeMatcher.matchFrom exit q lots) := by
  induction lots generalizing q with
  | nil =>
    refine ⟨h, ?_, ?_, ?_, ?_⟩ <;> simp [FifoTradeMatcher.matchFrom, consumed, tradesPnl]
  | cons lot rest ih =>
    obtain ⟨hlot, hrest⟩ := lotsOpen_cons.mp h
    simp only [FifoTradeMatcher.matchFrom]
    by_cases hpos : q > 0
    · rw [if_pos hpos]
      by_cases hused : lot.remainingQuantity - min q lot.remainingQuantity ≤ 0
      · -- the lot is used up and the loop goes on with the rest
        rw [if_pos hused]
        have hmin : min q lot.remainingQuantity = lot.remainingQuantity :=
          le_antisymm (min_le_right _ _) (by linarith)
        have hge : lot.remainingQuantity ≤ q := min_eq_right_iff.mp hmin
        obtain ⟨hopen, hfrom, hvalue, hleft, hpnl⟩ := ih (sub_nonneg.mpr hge) hrest
        refine ⟨?_, ?_, ?_, ?_, ?_⟩
        · simpa only [hmin] using hopen
        · intro l hl
          obtain ⟨old, hold, heq⟩ := hfrom l (by simpa only [hmin] using hl)
          exact ⟨old, List.mem_cons_of_mem _ hold, heq⟩
        · intro w hw
          simp only [consumed, hmin, lotsValue_cons, hvalue w hw]
          ring
        · simp only [consumed, hmin, hleft]
          ring
        · simp only [consumed, hmin, tradesPnl_cons, netPnl_create, hpnl]
          ring
      · -- the lot takes all that is left to sell
        rw [if_neg hused]
        have hlt : 0 < lot.remainingQuantity - min q lot.remainingQuantity := not_le.mp hused
        have hzero := FifoTradeMatcher.sellRemaining_of_lot_kept hlt
        refine ⟨?_, ?_, ?_, ?_, ?_⟩
        · exact lotsOpen_cons.mpr ⟨hlt, hrest⟩
        · intro l hl
          rcases List.mem_cons.mp hl with rfl | hl
          · exact ⟨lot, List.mem_cons_self, _, rfl⟩
          · exact ⟨l, List.mem_cons_of_mem _ hl, _, rfl⟩
        · intro w hw
          simp only [consumed, hzero, lotsValue_cons, hw lot, consumed_zero w hrest]
          ring
        · simp only [consumed, hzero, consumed_zero _ hrest]
          linarith
        · simp only [consumed, hzero, consumed_zero _ hrest, tradesPnl_cons, netPnl_create]
          simp [tradesPnl]
    · -- nothing to sell
      rw [if_neg hpos]
      obtain rfl : q = 0 := le_antisymm (not_lt.mp hpos) hq
      refine ⟨h, fun l hl => ⟨l, hl, _, rfl⟩, ?_, ?_, ?_⟩ <;>
        simp [consumed_zero _ h, tradesPnl]

/-! ## §3 The books of a context -/

namespace TradingContext

/-- The two records of the position agree and every open lot has something left. -/
structure Booked (ctx : TradingContext) : Prop where
  lotsOpen : LotsOpen ctx.positionLots
  positionQty_eq : ctx.positionQty = heldQuantity ctx.positionLots

/-- A context without a position and without a history of trades. -/
structure Flat (ctx : TradingContext) : Prop where
  positionQty_eq : ctx.positionQty = 0
  positionLots_eq : ctx.positionLots = []
  trades_eq : ctx.trades = []
  realizedPnl_eq : ctx.realizedPnl = 0

theorem flat_new (tickerSymbol exchange : String) (startingBalance : ℚ)
    (commitHash : Option String) : (new tickerSymbol exchange startingBalance commitHash).Flat :=
  ⟨rfl, rfl, rfl, rfl⟩

theorem Flat.booked {ctx : TradingContext} (h : ctx.Flat) : ctx.Booked := by
  refine ⟨?_, ?_⟩
  · simp [h.positionLots_eq, LotsOpen]
  · simp [h.positionLots_eq, h.positionQty_eq, heldQuantity]

theorem perUnit_mul {x q : ℚ} (hq : 0 < q) : perUnit x q * q = x := by
  rw [perUnit, if_pos hq, div_mul_cancel₀ x hq.ne']

/-- A purchase adds one lot; its value is the quantity bought times the weight of the lot. -/
theorem recordBuyFill_lots (ctx : TradingContext) (order : Order)
    (fillPrice quantity fee slippage timestamp : ℚ) :
    ∃ lot : PositionLot,
      (ctx.recordBuyFill order fillPrice quantity fee slippage timestamp).positionLots =
        ctx.positionLots ++ [lot] ∧
      lot.remainingQuantity = quantity ∧ lot.price = fillPrice ∧
      lot.feePerUnit = perUnit fee quantity ∧ lot.slippagePerUnit = perUnit slippage quantity :=
  ⟨_, rfl, rfl, rfl, rfl, rfl⟩

/-- A purchase adds its quantity on both records. -/
theorem recordBuyFill_booked {ctx : TradingContext} (h : ctx.Booked) (order : Order)
    (fillPrice fee slippage timestamp : ℚ) {quantity : ℚ} (hq : 0 < quantity) :
    (ctx.recordBuyFill order fillPrice quantity fee slippage timestamp).Booked := by
  obtain ⟨lot, hlots, hrem, -⟩ :=
    recordBuyFill_lots ctx order fillPrice quantity fee slippage timestamp
  refine ⟨?_, ?_⟩
  · rw [hlots]
    intro l hl
    rcases List.mem_append.mp hl with hl | hl
    · exact h.lotsOpen l hl
    · rw [List.mem_singleton.mp hl, hrem]
      exact hq
  · have hqty : (ctx.recordBuyFill order fillPrice quantity fee slippage timestamp).positionQty =
        ctx.positionQty + quantity := by simp [recordBuyFill, hq]
    rw [hqty, hlots, ← lotsValue_one, lotsValue_append, lotsValue_one, h.positionQty_eq]
    simp [hrem]

/-- What a purchase does to the profit and to the cost of the lots. -/
theorem recordBuyFill_books (ctx : TradingContext) (order : Order)
    (fillPrice fee slippage timestamp : ℚ) {quantity : ℚ} (hq : 0 < quantity) :
    (ctx.recordBuyFill order fillPrice quantity fee slippage timestamp).realizedPnl =
        ctx.realizedPnl ∧
      (ctx.recordBuyFill order fillPrice quantity fee slippage timestamp).trades = ctx.trades ∧
      costBasis (ctx.recordBuyFill order fillPrice quantity fee slippage timestamp).positionLots =
        costBasis ctx.positionLots + (fillPrice * quantity + fee + slippage) := by
  obtain ⟨lot, hlots, hrem, hprice, hfee, hslip⟩ :=
    recordBuyFill_lots ctx order fillPrice quantity fee slippage timestamp
  refine ⟨rfl, rfl, ?_⟩
  rw [hlots, costBasis, lotsValue_append]
  simp only [lotsValue_cons, lotsValue_nil, PositionLot.unitCost, hrem, hprice, hfee, hslip,
    costBasis]
  have hfees : perUnit fee quantity * quantity = fee := perUnit_mul hq
  have hslips : perUnit slippage quantity * quantity = slippage := perUnit_mul hq
  linear_combination hfees + hslips

/-- The sale as the matcher sees it. -/
def exitOf (ctx : TradingContext) (order : Order)
    (fillPrice quantity fee slippage timestamp : ℚ) : Exit where
  tickerSymbol := order.tickerSymbol
  orderUuid := order.uuid
  price := fillPrice
  quantity := quantity
  fee := fee
  timestamp := timestamp
  commitHash := orElseStr order.commitHash ctx.commitHash
  winningStrategy := order.winningStrategy
  strategyVotes := order.strategyVotes
  strategyAttributions := order.strategyAttributions
  slippage := slippage
  regime := orElseStr order.regime ctx.regime

/-- The match that a sale makes. -/
def saleMatch (ctx : TradingContext) (order : Order)
    (fillPrice quantity fee slippage timestamp : ℚ) : FifoTradeMatcher.Matched :=
  FifoTradeMatcher.matchLots ctx.positionLots
    (ctx.exitOf order fillPrice quantity fee slippage timestamp)

section Sale

variable {ctx : TradingContext} (order : Order) (fillPrice fee slippage timestamp : ℚ)
  {quantity : ℚ}

theorem recordSellFill_lots :
    (ctx.recordSellFill order fillPrice quantity fee slippage timestamp).1.positionLots =
      (ctx.saleMatch order fillPrice quantity fee slippage timestamp).lots := rfl

theorem saleMatch_spec (h : ctx.Booked) (hq : 0 < quantity) :
    MatchSpec (ctx.exitOf order fillPrice quantity fee slippage timestamp) quantity
      ctx.positionLots (ctx.saleMatch order fillPrice quantity fee slippage timestamp) :=
  matchFrom_spec _ hq.le h.lotsOpen

/-- A sale takes its quantity from both records, down to nothing when it sells more than
    is held. -/
theorem recordSellFill_booked (h : ctx.Booked) (hq : 0 < quantity) :
    (ctx.recordSellFill order fillPrice quantity fee slippage timestamp).1.Booked := by
  have hspec := saleMatch_spec order fillPrice fee slippage timestamp h hq
  refine ⟨?_, ?_⟩
  · rw [recordSellFill_lots]
    exact hspec.lotsOpen
  · have hqty : (ctx.recordSellFill order fillPrice quantity fee slippage timestamp).1.positionQty =
        max 0 (ctx.positionQty - quantity) := rfl
    rw [hqty, recordSellFill_lots, ← lotsValue_one, hspec.lotsValue_eq _ unaffected_one,
      consumed_one hq.le h.lotsOpen, lotsValue_one, h.positionQty_eq]
    rcases le_total quantity (heldQuantity ctx.positionLots) with hle | hle
    · rw [min_eq_left hle, max_eq_right (sub_nonneg.mpr hle)]
    · rw [min_eq_right hle, sub_self, max_eq_left (sub_nonpos.mpr hle)]

/-- A sale that is covered finds a lot for every unit. -/
theorem saleMatch_sellRemaining (h : ctx.Booked) (hq : 0 < quantity)
    (hle : quantity ≤ ctx.positionQty) :
    (ctx.saleMatch order fillPrice quantity fee slippage timestamp).sellRemaining = 0 := by
  have hspec := saleMatch_spec order fillPrice fee slippage timestamp h hq
  rw [hspec.sellRemaining_eq, consumed_one hq.le h.lotsOpen,
    min_eq_left (h.positionQty_eq ▸ hle), sub_self]

/-- What a covered sale does to the profit and to the cost of the lots. -/
theorem recordSellFill_books (h : ctx.Booked) (hq : 0 < quantity)
    (hle : quantity ≤ ctx.positionQty) :
    let ctx' := (ctx.recordSellFill order fillPrice quantity fee slippage timestamp).1
    ctx'.realizedPnl - costBasis ctx'.positionLots =
        ctx.realizedPnl - costBasis ctx.positionLots + (fillPrice * quantity - fee - slippage) ∧
      ctx'.realizedPnl - tradesPnl ctx'.trades = ctx.realizedPnl - tradesPnl ctx.trades := by
  have hspec := saleMatch_spec order fillPrice fee slippage timestamp h hq
  have hleft := saleMatch_sellRemaining order fillPrice fee slippage timestamp h hq hle
  have hone : consumed (fun _ => 1) quantity ctx.positionLots = quantity := by
    rw [consumed_one hq.le h.lotsOpen, min_eq_left (h.positionQty_eq ▸ hle)]
  -- without an uncovered rest the profit of the sale is that of its trades
  have hpnl : (ctx.recordSellFill order fillPrice quantity fee slippage timestamp).1.realizedPnl =
      ctx.realizedPnl +
        tradesPnl (ctx.saleMatch order fillPrice quantity fee slippage timestamp).trades := by
    show ctx.realizedPnl +
        tradesPnl (ctx.saleMatch order fillPrice quantity fee slippage timestamp).trades +
        (if (ctx.saleMatch order fillPrice quantity fee slippage timestamp).sellRemaining > 0
          then _ else 0) = _
    rw [if_neg (by rw [hleft]; exact lt_irrefl 0), add_zero]
  have htrades : (ctx.recordSellFill order fillPrice quantity fee slippage timestamp).1.trades =
      ctx.trades ++ (ctx.saleMatch order fillPrice quantity fee slippage timestamp).trades := rfl
  have hfees : perUnit fee quantity * quantity = fee := perUnit_mul hq
  have hslips : perUnit slippage quantity * quantity = slippage := perUnit_mul hq
  refine ⟨?_, ?_⟩
  · rw [hpnl, recordSellFill_lots, costBasis, hspec.lotsValue_eq _ unaffected_unitCost,
      hspec.tradesPnl_eq, hone]
    simp only [Exit.unitProceeds, exitOf, costBasis]
    linear_combination -hfees - hslips
  · rw [hpnl, htrades, tradesPnl_append]
    ring

end Sale

/-- The cash a fill moves: what a sale brings in, less what a purchase costs. -/
def fillCash (order : Order) : ℚ :=
  match order.tradeAction with
  | .buy => -(order.effectivePrice * order.quantity + order.fees.getD 0 + order.slippage.getD 0)
  | .sell => order.effectivePrice * order.quantity - order.fees.getD 0 - order.slippage.getD 0

/-- **Every fill keeps the two records of the position in step**, also a sale of more than
    is held. -/
theorem recordFill_booked {ctx : TradingContext} (h : ctx.Booked) {order : Order}
    (hq : 0 < order.quantity) : (ctx.recordFill order).1.Booked := by
  have h' : Booked { ctx with
      lastMarketActivityTime := some (order.executedTime.getD order.createdTime) } :=
    ⟨h.lotsOpen, h.positionQty_eq⟩
  unfold recordFill
  cases order.tradeAction with
  | buy => exact recordBuyFill_booked h' order _ _ _ _ hq
  | sell => exact recordSellFill_booked order _ _ _ _ h' hq

/-- **Every covered fill balances the books**: profit less the cost of the lots moves by the
    cash of the fill, and profit moves by the trades it closes. -/
theorem recordFill_books {ctx : TradingContext} (h : ctx.Booked) {order : Order}
    (hq : 0 < order.quantity)
    (hle : order.tradeAction = .sell → order.quantity ≤ ctx.positionQty) :
    let ctx' := (ctx.recordFill order).1
    ctx'.realizedPnl - costBasis ctx'.positionLots =
        ctx.realizedPnl - costBasis ctx.positionLots + fillCash order ∧
      ctx'.realizedPnl - tradesPnl ctx'.trades = ctx.realizedPnl - tradesPnl ctx.trades := by
  have h' : Booked { ctx with
      lastMarketActivityTime := some (order.executedTime.getD order.createdTime) } :=
    ⟨h.lotsOpen, h.positionQty_eq⟩
  unfold recordFill fillCash
  cases haction : order.tradeAction with
  | buy =>
    obtain ⟨hpnl, htrades, hcost⟩ := recordBuyFill_books { ctx with
      lastMarketActivityTime := some (order.executedTime.getD order.createdTime) } order
      order.effectivePrice (order.fees.getD 0) (order.slippage.getD 0)
      (order.executedTime.getD order.createdTime) hq
    refine ⟨?_, ?_⟩
    · simp only [hpnl, hcost]
      ring
    · simp only [hpnl, htrades]
  | sell => exact recordSellFill_books order _ _ _ _ h' hq (hle haction)

end TradingContext

/-! ## §4 The books of a session -/

namespace SessionManager

/-- One reported fill. -/
def fillStep (sm : SessionManager) (order : Order) : SessionManager :=
  (sm.recordOrderFill order).manager

/-- A fill with a quantity that sells no more than the position held. -/
def Covered (sm : SessionManager) (order : Order) : Prop :=
  0 < order.quantity ∧
    (order.tradeAction = .sell →
      ∀ ctx ∈ sm.findContext order.tickerSymbol, order.quantity ≤ ctx.positionQty)

instance (sm : SessionManager) (order : Order) : Decidable (sm.Covered order) := by
  unfold Covered
  infer_instance

/-- The fills of a symbol in one direction. -/
def fillsOf (sym : String) (action : TradeAction) (orders : List Order) : List Order :=
  orders.filter fun order => order.tickerSymbol = sym ∧ order.tradeAction = action

/-- The cash received for the sales of a symbol. -/
def sellProceeds (sym : String) (orders : List Order) : ℚ :=
  ((fillsOf sym .sell orders).map fun order =>
    order.effectivePrice * order.quantity - order.fees.getD 0 - order.slippage.getD 0).sum

/-- The cash paid for the purchases of a symbol. -/
def buyPayments (sym : String) (orders : List Order) : ℚ :=
  ((fillsOf sym .buy orders).map fun order =>
    order.effectivePrice * order.quantity + order.fees.getD 0 + order.slippage.getD 0).sum

/-- The first fill of a list moves its cash, if it is one of the symbol. -/
theorem cash_cons (sym : String) (order : Order) (rest : List Order) :
    sellProceeds sym (order :: rest) - buyPayments sym (order :: rest) =
      (if order.tickerSymbol = sym then TradingContext.fillCash order else 0) +
        (sellProceeds sym rest - buyPayments sym rest) := by
  simp only [sellProceeds, buyPayments, fillsOf, TradingContext.fillCash, List.filter_cons]
  by_cases hsym : order.tickerSymbol = sym
  · cases haction : order.tradeAction with
    | buy =>
      simp [hsym]
      ring
    | sell =>
      simp [hsym]
      ring
  · simp [hsym]

/-- A fill of another symbol leaves the context alone; one of the symbol is booked in it
    under the same figures. -/
theorem fillStep_context {sm : SessionManager} {sym : String} {ctx : TradingContext}
    (hctx : sm.findContext sym = some ctx) (order : Order) :
    (order.tickerSymbol ≠ sym ∧ (sm.fillStep order).findContext sym = some ctx) ∨
      (order.tickerSymbol = sym ∧
        (sm.fillStep order).findContext sym =
          some (ctx.recordFill (sm.withCommitHash ctx order)).1) := by
  by_cases hsym : order.tickerSymbol = sym
  · right
    subst hsym
    exact ⟨rfl, findContext_recordOrderFill_of_some hctx⟩
  · left
    exact ⟨hsym, (findContext_recordOrderFill_of_ne sm order hsym).trans hctx⟩

/-- The books of a symbol after a run of covered fills: the position is kept in step, and
    profit has moved by the cash of the fills and by the trades they closed. -/
structure BooksMoved (sym : String) (orders : List Order) (ctx ctx' : TradingContext) : Prop where
  booked : ctx'.Booked
  cash : ctx'.realizedPnl - costBasis ctx'.positionLots =
    ctx.realizedPnl - costBasis ctx.positionLots +
      (sellProceeds sym orders - buyPayments sym orders)
  trades : ctx'.realizedPnl - tradesPnl ctx'.trades = ctx.realizedPnl - tradesPnl ctx.trades

/-- One covered fill, whatever its symbol, in front of a run. -/
theorem BooksMoved.cons {sm : SessionManager} {sym : String} {order : Order}
    {ctx : TradingContext} (hctx : sm.findContext sym = some ctx) (hb : ctx.Booked)
    (hcov : sm.Covered order) (rest : List Order) :
    ∃ ctx₁, (sm.fillStep order).findContext sym = some ctx₁ ∧ ctx₁.Booked ∧
      ∀ ctx', BooksMoved sym rest ctx₁ ctx' → BooksMoved sym (order :: rest) ctx ctx' := by
  rcases fillStep_context hctx order with ⟨hsym, hstep⟩ | ⟨hsym, hstep⟩
  · refine ⟨ctx, hstep, hb, ?_⟩
    intro ctx' h
    refine ⟨h.booked, ?_, h.trades⟩
    rw [cash_cons, if_neg hsym, zero_add]
    exact h.cash
  · have hle : order.tradeAction = .sell → order.quantity ≤ ctx.positionQty :=
      fun hsell => hcov.2 hsell ctx (hsym ▸ hctx)
    obtain ⟨hcash, htrades⟩ :=
      @TradingContext.recordFill_books ctx hb (sm.withCommitHash ctx order) hcov.1 hle
    refine ⟨_, hstep, TradingContext.recordFill_booked hb hcov.1, ?_⟩
    intro ctx' h
    refine ⟨h.booked, ?_, h.trades.trans htrades⟩
    rw [cash_cons, if_pos hsym, h.cash, hcash]
    exact add_assoc _ _ _

/-- The books of a symbol balance over every run of covered fills. -/
theorem booksMoved_run {sm : SessionManager} {sym : String} {ctx : TradingContext}
    (hctx : sm.findContext sym = some ctx) (hb : ctx.Booked) {orders : List Order}
    (hcov : Along fillStep Covered sm orders) :
    ∃ ctx', (run fillStep sm orders).findContext sym = some ctx' ∧
      BooksMoved sym orders ctx ctx' := by
  induction orders generalizing sm ctx with
  | nil => exact ⟨ctx, hctx, hb, by simp [sellProceeds, buyPayments, fillsOf], rfl⟩
  | cons order rest ih =>
    obtain ⟨ctx₁, hctx₁, hb₁, hmoved⟩ := BooksMoved.cons hctx hb hcov.1 rest
    obtain ⟨ctx', hctx', h⟩ := ih hctx₁ hb₁ hcov.2
    exact ⟨ctx', hctx', hmoved ctx' h⟩

/-- **Realized profit is cash flow.**  From a flat context and through any fills of which
    none sells more than is held, realized profit is the cash received less the cash paid
    plus the cost of the lots still open, and it is the sum of the closed trades. -/
theorem realizedPnl_eq_cashFlow {sm : SessionManager} {sym : String} {ctx : TradingContext}
    (hctx : sm.findContext sym = some ctx) (hflat : ctx.Flat) {orders : List Order}
    (hcov : Along fillStep Covered sm orders) :
    ∃ ctx', (run fillStep sm orders).findContext sym = some ctx' ∧
      ctx'.realizedPnl = sellProceeds sym orders - buyPayments sym orders +
        (ctx'.positionLots.map fun lot => lot.remainingQuantity *
          (lot.price + lot.feePerUnit + lot.slippagePerUnit)).sum ∧
      ctx'.realizedPnl = (ctx'.trades.map (·.netPnl)).sum := by
  obtain ⟨ctx', hctx', hmoved⟩ := booksMoved_run hctx hflat.booked hcov
  refine ⟨ctx', hctx', ?_, ?_⟩
  · have hcash := hmoved.cash
    rw [hflat.realizedPnl_eq, hflat.positionLots_eq] at hcash
    show _ = _ + costBasis ctx'.positionLots
    simp only [costBasis, lotsValue_nil] at hcash ⊢
    linarith
  · have htrades := hmoved.trades
    rw [hflat.realizedPnl_eq, hflat.trades_eq] at htrades
    simp only [tradesPnl, List.map_nil, List.sum_nil, sub_zero] at htrades
    exact sub_eq_zero.mp htrades

/-- A session with one flat context. -/
def flatSession : SessionManager where
  currentSession := some ⟨"session",
    Dict.empty.set "BTC_USD-BINANCE" (TradingContext.new "BTC_USD" "BINANCE" 1000 none), none⟩
  isRunning := true
  headCommitHash := none

/-- A completed fill of the pair with the given costs. -/
def sampleFill (uuid : String) (action : TradeAction) (price quantity fee slippage : ℚ) : Order :=
  { Order.new uuid "BINANCE" "BTC_USD" price quantity action 0 with
    status := some .completed
    fees := some fee
    slippage := some slippage }

/-- Two purchases with fees, then a sale across both lots that leaves part of the second. -/
theorem realizedPnl_eq_cashFlow_partial_sale :
    let orders := [sampleFill "1" .buy 10 2 1 0, sampleFill "2" .buy 20 1 0 1,
      sampleFill "3" .sell 30 (5 / 2) 1 (1 / 2)]
    Along fillStep Covered flatSession orders ∧
      ∃ ctx', (run fillStep flatSession orders).findContext "BTC_USD" = some ctx' ∧
        ctx'.realizedPnl = sellProceeds "BTC_USD" orders - buyPayments "BTC_USD" orders +
          (ctx'.positionLots.map fun lot => lot.remainingQuantity *
            (lot.price + lot.feePerUnit + lot.slippagePerUnit)).sum ∧
        ctx'.realizedPnl = (ctx'.trades.map (·.netPnl)).sum := by
  intro orders
  have hcov : Along fillStep Covered flatSession orders := by decide +kernel
  have hctx : flatSession.findContext "BTC_USD" =
      some (TradingContext.new "BTC_USD" "BINANCE" 1000 none) := by decide +kernel
  exact ⟨hcov, realizedPnl_eq_cashFlow hctx (TradingContext.flat_new _ _ _ _) hcov⟩

end SessionManager

end CryptoTrading.Session
