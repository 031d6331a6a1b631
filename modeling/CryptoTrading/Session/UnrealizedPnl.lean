import Mathlib.Algebra.Order.Field.Basic
import CryptoTrading.Session.CashFlow

/-!
# Realized and unrealized profit together

Embeds the `pnl` variable of `src/trading/factories/trading_expression_factory.py`.

Realized profit is matched lot by lot, oldest first, while the average entry price is a
running average that a partial sale leaves alone.  The two agree as long as the average
is that of the lots still open (`AverageHolds`).  A purchase keeps this; a partial sale
keeps it exactly when the units it takes were bought at the average price.

Decimals are exact rationals: the rounding of a context to 28 digits is left out.
-/

namespace CryptoTrading.Session

open CryptoTrading.Lib

namespace TradingContext

/-- The `pnl` variable of `TradingExpressionFactory._build_position_variables`. -/
def pnlVariable (ctx : TradingContext) (close : ℚ) : ℚ :=
  if ctx.positionQty > 0 then (close - ctx.avgEntryPrice) * ctx.positionQty else 0

/-- The average entry price is the average price of the units held. -/
def AverageHolds (ctx : TradingContext) : Prop :=
  ctx.avgEntryPrice * ctx.positionQty = lotsValue PositionLot.price ctx.positionLots

/-- No lot carries fees or slippage. -/
def CostFree (ctx : TradingContext) : Prop :=
  ∀ lot ∈ ctx.positionLots, lot.feePerUnit = 0 ∧ lot.slippagePerUnit = 0

/-- The sale closes the position, or the oldest units, which it takes, were bought at the
    average entry price. -/
def SellsAtAverage (ctx : TradingContext) (quantity : ℚ) : Prop :=
  quantity = ctx.positionQty ∨
    consumed PositionLot.price quantity ctx.positionLots = ctx.avgEntryPrice * quantity

theorem Booked.positionQty_nonneg {ctx : TradingContext} (h : ctx.Booked) :
    0 ≤ ctx.positionQty := by
  rw [h.positionQty_eq]
  exact heldQuantity_nonneg h.lotsOpen

theorem Booked.pnlVariable_eq {ctx : TradingContext} (h : ctx.Booked) (close : ℚ) :
    ctx.pnlVariable close = (close - ctx.avgEntryPrice) * ctx.positionQty := by
  unfold pnlVariable
  split
  · rfl
  · rename_i hpos
    have hzero : ctx.positionQty = 0 := le_antisymm (not_lt.mp hpos) h.positionQty_nonneg
    rw [hzero, mul_zero]

/-- Without fees and slippage the lots cost their price. -/
theorem CostFree.costBasis_eq {ctx : TradingContext} (h : ctx.CostFree) :
    costBasis ctx.positionLots = lotsValue PositionLot.price ctx.positionLots := by
  unfold costBasis lotsValue
  congr 1
  apply List.map_congr_left
  intro lot hlot
  simp [PositionLot.unitCost, h lot hlot]

/-! ## §1 What one fill does to the average -/

/-- A purchase moves the average to that of the larger position. -/
theorem averageHolds_recordBuyFill {ctx : TradingContext} (h : ctx.Booked)
    (havg : ctx.AverageHolds) (order : Order) (fillPrice fee slippage timestamp : ℚ)
    {quantity : ℚ} (hq : 0 < quantity) :
    (ctx.recordBuyFill order fillPrice quantity fee slippage timestamp).AverageHolds := by
  obtain ⟨lot, hlots, hrem, hprice, -⟩ :=
    recordBuyFill_lots ctx order fillPrice quantity fee slippage timestamp
  have hpos : ctx.positionQty + quantity ≠ 0 :=
    (add_pos_of_nonneg_of_pos h.positionQty_nonneg hq).ne'
  unfold AverageHolds
  rw [hlots, lotsValue_append, ← havg]
  simp only [recordBuyFill, if_pos hq, lotsValue_cons, lotsValue_nil, hrem, hprice]
  rw [div_mul_cancel₀ _ hpos]
  ring

/-- A covered sale keeps the average exactly when it sells at the average. -/
theorem averageHolds_recordSellFill {ctx : TradingContext} (h : ctx.Booked)
    (havg : ctx.AverageHolds) (order : Order) (fillPrice fee slippage timestamp : ℚ)
    {quantity : ℚ} (hq : 0 < quantity) (hle : quantity ≤ ctx.positionQty) :
    (ctx.recordSellFill order fillPrice quantity fee slippage timestamp).1.AverageHolds ↔
      ctx.SellsAtAverage quantity := by
  have hspec := saleMatch_spec order fillPrice fee slippage timestamp h hq
  have hqty : (ctx.recordSellFill order fillPrice quantity fee slippage timestamp).1.positionQty =
      max 0 (ctx.positionQty - quantity) := rfl
  have haverage :
      (ctx.recordSellFill order fillPrice quantity fee slippage timestamp).1.avgEntryPrice =
        if max 0 (ctx.positionQty - quantity) = 0 then 0 else ctx.avgEntryPrice := rfl
  unfold AverageHolds SellsAtAverage
  rw [recordSellFill_lots, hspec.lotsValue_eq _ unaffected_price, hqty, haverage,
    max_eq_right (sub_nonneg.mpr hle)]
  by_cases hall : quantity = ctx.positionQty
  · -- nothing is left on either side
    have hused : consumed PositionLot.price quantity ctx.positionLots =
        lotsValue PositionLot.price ctx.positionLots := by
      rw [hall, h.positionQty_eq, consumed_heldQuantity _ h.lotsOpen]
    simp [hall, ← hused]
  · have hne : ctx.positionQty - quantity ≠ 0 := sub_ne_zero.mpr (Ne.symm hall)
    rw [if_neg hne, ← havg]
    constructor
    · intro heq
      right
      linear_combination heq
    · intro hsells
      rcases hsells with hsells | hsells
      · exact absurd hsells hall
      · linear_combination hsells

/-- Fills without costs leave only lots without costs. -/
theorem costFree_recordFill {ctx : TradingContext} (h : ctx.Booked) (hfree : ctx.CostFree)
    {order : Order} (hq : 0 < order.quantity) (hfee : order.fees.getD 0 = 0)
    (hslip : order.slippage.getD 0 = 0) : (ctx.recordFill order).1.CostFree := by
  have h' : Booked { ctx with
      lastMarketActivityTime := some (order.executedTime.getD order.createdTime) } :=
    ⟨h.lotsOpen, h.positionQty_eq⟩
  unfold recordFill
  cases order.tradeAction with
  | buy =>
    intro lot hlot
    rcases List.mem_append.mp hlot with hlot | hlot
    · exact hfree lot hlot
    · rw [List.mem_singleton.mp hlot]
      simp [hfee, hslip, perUnit]
  | sell =>
    have hspec := saleMatch_spec order order.effectivePrice (order.fees.getD 0)
      (order.slippage.getD 0) (order.executedTime.getD order.createdTime) h' hq
    intro lot hlot
    obtain ⟨old, hold, left, rfl⟩ := hspec.lots_from lot hlot
    exact hfree old hold

/-- A covered fill keeps the average exactly when, as a sale, it sells at the average. -/
theorem averageHolds_recordFill {ctx : TradingContext} (h : ctx.Booked) (havg : ctx.AverageHolds)
    {order : Order} (hq : 0 < order.quantity)
    (hle : order.tradeAction = .sell → order.quantity ≤ ctx.positionQty) :
    (ctx.recordFill order).1.AverageHolds ↔
      (order.tradeAction = .sell → ctx.SellsAtAverage order.quantity) := by
  have h' : Booked { ctx with
      lastMarketActivityTime := some (order.executedTime.getD order.createdTime) } :=
    ⟨h.lotsOpen, h.positionQty_eq⟩
  unfold recordFill
  cases haction : order.tradeAction with
  | buy =>
    constructor
    · intro _ hsell
      cases hsell
    · intro _
      exact averageHolds_recordBuyFill h' havg order _ _ _ _ hq
  | sell =>
    rw [averageHolds_recordSellFill h' havg order _ _ _ _ hq (hle haction)]
    constructor
    · intro hsells _
      exact hsells
    · intro hsells
      exact hsells rfl

/-- Where the books balance, total profit is consistent exactly when the average holds. -/
theorem totalPnl_iff_averageHolds {ctx : TradingContext} (h : ctx.Booked) (hfree : ctx.CostFree)
    {cash : ℚ} (hcash : ctx.realizedPnl - costBasis ctx.positionLots = cash) :
    (∀ close, ctx.realizedPnl + ctx.pnlVariable close = cash + close * ctx.positionQty) ↔
      ctx.AverageHolds := by
  rw [hfree.costBasis_eq] at hcash
  unfold AverageHolds
  constructor
  · intro htotal
    have hzero := htotal 0
    rw [h.pnlVariable_eq] at hzero
    linear_combination hcash - hzero
  · intro havg close
    rw [h.pnlVariable_eq]
    linear_combination hcash - havg

end TradingContext

/-! ## §2 Runs of fills -/

namespace SessionManager

/-- A fill without fees and slippage. -/
def FreeOfCosts (order : Order) : Prop := order.fees.getD 0 = 0 ∧ order.slippage.getD 0 = 0

/-- Realized and unrealized profit add up to the cash of the fills and the worth of the
    position, at every market price, and the average is that of the lots. -/
def PnlConsistent (sym : String) (sm : SessionManager) (orders : List Order) : Prop :=
  ∀ ctx ∈ sm.findContext sym,
    (∀ close, ctx.realizedPnl + ctx.pnlVariable close =
      sellProceeds sym orders - buyPayments sym orders + close * ctx.positionQty) ∧
    ctx.avgEntryPrice * ctx.positionQty =
      (ctx.positionLots.map fun lot => lot.remainingQuantity * lot.price).sum

/-- A sale of the symbol closes the position or takes units bought at the average price. -/
def KeepsAverage (sym : String) (sm : SessionManager) (order : Order) : Prop :=
  order.tickerSymbol = sym → order.tradeAction = .sell →
    ∀ ctx ∈ sm.findContext sym, ctx.SellsAtAverage order.quantity

instance (order : Order) : Decidable (FreeOfCosts order) := by
  unfold FreeOfCosts
  infer_instance

instance (sym : String) (sm : SessionManager) (order : Order) :
    Decidable (KeepsAverage sym sm order) := by
  unfold KeepsAverage TradingContext.SellsAtAverage
  infer_instance

/-- The context of the symbol keeps its books, without costs. -/
def CostFreeBooks (sym : String) (sm : SessionManager) : Prop :=
  ∃ ctx, sm.findContext sym = some ctx ∧ ctx.Booked ∧ ctx.CostFree

/-- The average of the symbol holds. -/
def AverageAt (sym : String) (sm : SessionManager) : Prop :=
  ∀ ctx ∈ sm.findContext sym, ctx.AverageHolds

/-- The fills that are considered: covered and without costs. -/
def CoveredFree (sm : SessionManager) (order : Order) : Prop :=
  sm.Covered order ∧ FreeOfCosts order

theorem costFreeBooks_of_flat {sym : String} {sm : SessionManager} {ctx : TradingContext}
    (hctx : sm.findContext sym = some ctx) (hflat : ctx.Flat) : CostFreeBooks sym sm := by
  refine ⟨ctx, hctx, hflat.booked, ?_⟩
  intro lot hlot
  simp [hflat.positionLots_eq] at hlot

theorem averageAt_of_flat {sym : String} {sm : SessionManager} {ctx : TradingContext}
    (hctx : sm.findContext sym = some ctx) (hflat : ctx.Flat) : AverageAt sym sm := by
  intro ctx' hctx'
  obtain rfl : ctx = ctx' := Option.some.inj (hctx.symm.trans hctx')
  simp [TradingContext.AverageHolds, hflat.positionQty_eq, hflat.positionLots_eq]

theorem costFreeBooks_fillStep {sym : String} {sm : SessionManager} {order : Order}
    (hbooks : CostFreeBooks sym sm) (hfill : sm.CoveredFree order) :
    CostFreeBooks sym (sm.fillStep order) := by
  obtain ⟨ctx, hctx, hb, hctxfree⟩ := hbooks
  obtain ⟨hcov, hfree⟩ := hfill
  rcases fillStep_context hctx order with ⟨-, hstep⟩ | ⟨-, hstep⟩
  · exact ⟨ctx, hstep, hb, hctxfree⟩
  · exact ⟨_, hstep, TradingContext.recordFill_booked hb hcov.1,
      TradingContext.costFree_recordFill hb hctxfree hcov.1 hfree.1 hfree.2⟩

/-- One covered fill keeps the average exactly when it sells at the average. -/
theorem averageAt_fillStep {sym : String} {sm : SessionManager} {order : Order}
    (hbooks : CostFreeBooks sym sm) (havg : AverageAt sym sm) (hcov : sm.Covered order) :
    AverageAt sym (sm.fillStep order) ↔ KeepsAverage sym sm order := by
  obtain ⟨ctx, hctx, hb, -⟩ := hbooks
  have hctxavg := havg ctx hctx
  unfold AverageAt KeepsAverage
  rcases fillStep_context hctx order with ⟨hsym, hstep⟩ | ⟨hsym, hstep⟩
  · simp [hstep, hsym, hctxavg]
  · have hle : order.tradeAction = .sell → order.quantity ≤ ctx.positionQty :=
      fun hsell => hcov.2 hsell ctx (hsym ▸ hctx)
    have hiff := @TradingContext.averageHolds_recordFill ctx hb hctxavg
      (sm.withCommitHash ctx order) hcov.1 hle
    simp only [hstep, hctx, hsym, Option.mem_some_iff, forall_eq', forall_const]
    exact hiff

/-- After a run from a flat context the total is consistent exactly when the average holds. -/
theorem pnlConsistent_iff_averageAt {sym : String} {sm : SessionManager} {ctx : TradingContext}
    (hctx : sm.findContext sym = some ctx) (hflat : ctx.Flat) {orders : List Order}
    (hfills : Along fillStep CoveredFree sm orders) :
    PnlConsistent sym (run fillStep sm orders) orders ↔
      AverageAt sym (run fillStep sm orders) := by
  obtain ⟨ctx', hctx', hmoved⟩ := booksMoved_run hctx hflat.booked (along_and.mp hfills).1
  obtain ⟨ctx'', hctx'', hb, hfree⟩ :=
    run_invariant_along (CostFreeBooks sym) (fun _ _ => costFreeBooks_fillStep)
      (costFreeBooks_of_flat hctx hflat) hfills
  obtain rfl : ctx' = ctx'' := Option.some.inj (hctx'.symm.trans hctx'')
  have hcash : ctx'.realizedPnl - costBasis ctx'.positionLots =
      sellProceeds sym orders - buyPayments sym orders := by
    rw [hmoved.cash, hflat.realizedPnl_eq, hflat.positionLots_eq]
    simp [costBasis]
  unfold PnlConsistent AverageAt
  simp only [hctx', Option.mem_some_iff, forall_eq']
  rw [TradingContext.totalPnl_iff_averageHolds hb hfree hcash]
  exact and_self_iff

/-- **Total profit is consistent exactly as long as every sale sells at the average.**
    From a flat context and through fills without costs of which none sells more than is
    held, realized and unrealized profit agree with the cash flow after every fill if and
    only if every sale closes the position or takes units bought at the average price. -/
theorem pnlConsistent_iff_keepsAverage {sm : SessionManager} {sym : String}
    {ctx : TradingContext} (hctx : sm.findContext sym = some ctx) (hflat : ctx.Flat)
    {orders : List Order} (hcov : Along fillStep Covered sm orders)
    (hfree : ∀ order ∈ orders, FreeOfCosts order) :
    (∀ done, done <+: orders → PnlConsistent sym (run fillStep sm done) done) ↔
      Along fillStep (KeepsAverage sym) sm orders := by
  have hfills : Along fillStep CoveredFree sm orders :=
    along_and.mpr ⟨hcov, along_of_forall hfree sm⟩
  -- consistency of the total is a property of the state reached
  have hstates : (∀ done, done <+: orders → PnlConsistent sym (run fillStep sm done) done) ↔
      ∀ done, done <+: orders → AverageAt sym (run fillStep sm done) := by
    apply forall_congr'
    intro done
    apply forall_congr'
    intro hdone
    obtain ⟨rest, rfl⟩ := hdone
    exact pnlConsistent_iff_averageAt hctx hflat (along_append.mp hfills).1
  rw [hstates, forall_prefix_iff_along, and_iff_right (averageAt_of_flat hctx hflat)]
  -- and step by step it is the condition on the sales
  have hsteps := along_iff_of_invariant
    (P := fun sm order => sm.CoveredFree order ∧ AverageAt sym (sm.fillStep order))
    (Q := fun sm order => sm.CoveredFree order ∧ KeepsAverage sym sm order)
    (fun sm => CostFreeBooks sym sm ∧ AverageAt sym sm)
    (fun s order hinv => and_congr_right fun hfill => averageAt_fillStep hinv.1 hinv.2 hfill.1)
    (fun s order hinv hfill => ⟨costFreeBooks_fillStep hinv.1 hfill.1,
      (averageAt_fillStep hinv.1 hinv.2 hfill.1.1).mpr hfill.2⟩)
    ⟨costFreeBooks_of_flat hctx hflat, averageAt_of_flat hctx hflat⟩ orders
  rw [along_and, along_and, and_iff_right hfills, and_iff_right hfills] at hsteps
  exact hsteps

/-- Two purchases at one price, a partial sale, a purchase at another price and a sale of
    everything. -/
theorem pnlConsistent_one_price :
    let orders := [sampleFill "1" .buy 10 2 0 0, sampleFill "2" .buy 10 1 0 0,
      sampleFill "3" .sell 30 1 0 0, sampleFill "4" .buy 20 1 0 0, sampleFill "5" .sell 30 3 0 0]
    ∀ done, done <+: orders → PnlConsistent "BTC_USD" (run fillStep flatSession done) done := by
  intro orders
  have hctx : flatSession.findContext "BTC_USD" =
      some (TradingContext.new "BTC_USD" "BINANCE" 1000 none) := by decide +kernel
  have hcov : Along fillStep Covered flatSession orders := by decide +kernel
  have hfree : ∀ order ∈ orders, FreeOfCosts order := by decide +kernel
  apply (pnlConsistent_iff_keepsAverage hctx (TradingContext.flat_new _ _ _ _) hcov hfree).mpr
  decide +kernel

/-- One unit bought at 10 and one at 20, then one sold at 30: the sale realizes 20 against
    the first lot, while the unit left, which cost 20, is carried at the average of 15. -/
theorem pnl_inconsistent_across_prices :
    let orders := [sampleFill "1" .buy 10 1 0 0, sampleFill "2" .buy 20 1 0 0,
      sampleFill "3" .sell 30 1 0 0]
    Along fillStep Covered flatSession orders ∧ (∀ order ∈ orders, FreeOfCosts order) ∧
      ¬ PnlConsistent "BTC_USD" (run fillStep flatSession orders) orders := by
  intro orders
  refine ⟨by decide +kernel, by decide +kernel, ?_⟩
  intro h
  have hsome : ((run fillStep flatSession orders).findContext "BTC_USD").isSome := by
    decide +kernel
  have hne : ∀ ctx ∈ (run fillStep flatSession orders).findContext "BTC_USD",
      ctx.realizedPnl + ctx.pnlVariable 0 ≠
        sellProceeds "BTC_USD" orders - buyPayments "BTC_USD" orders + 0 * ctx.positionQty := by
    decide +kernel
  exact hne _ (Option.get_mem hsome) ((h _ (Option.get_mem hsome)).1 0)

end SessionManager

end CryptoTrading.Session
