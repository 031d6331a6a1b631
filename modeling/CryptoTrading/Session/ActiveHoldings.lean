import Mathlib.Data.List.Sort
import CryptoTrading.Lib.Depletion
import CryptoTrading.Session.CashFlow

/-!
# Holdings replayed from the position entries

Embeds `PortfolioHelper._get_active_holdings` of
`src/trading/helpers/portfolio_helper.py`.

The session manager matches every sale against the open lots when it is filled; the
helper starts from the lists of purchases and sales and replays all sales over all
purchases.  Both deplete a queue of `(price, quantity)` entries, so the two agree on
every context whose entries are in the order of time and whose sales were covered when
they were made (`Replays`).
-/

namespace CryptoTrading.Session

open CryptoTrading.Lib

/-! ## §1 The helper -/

namespace PortfolioHelper

/-- `sorted` on the timestamp. -/
def sortedByTime (entries : List PositionEntry) : List PositionEntry :=
  entries.insertionSort fun x y => x.timestamp ≤ y.timestamp

/-- The `while` loop for one sale: entries are `(price, quantity)`.  An entry that is not
    used up takes the rest of the sale and ends the loop. -/
def sellFrom (sellQty : ℚ) : List (ℚ × ℚ) → List (ℚ × ℚ)
  | [] => []
  | (price, quantity) :: rest =>
    if sellQty > 0 then
      if quantity ≤ sellQty then sellFrom (sellQty - quantity) rest
      else (price, quantity - sellQty) :: rest
    else (price, quantity) :: rest

/-- `PortfolioHelper._get_active_holdings`. -/
def getActiveHoldings (openPositions closePositions : List PositionEntry) : List (ℚ × ℚ) :=
  let buys := sortedByTime openPositions
  let sells := sortedByTime closePositions
  let inventory := buys.map fun b => (b.price, b.quantity)
  let inventory := sells.foldl (fun inventory s => sellFrom s.quantity inventory) inventory
  inventory.filter fun item => item.2 > 0

/-- Sorting entries that are in the order of time leaves them alone. -/
theorem sortedByTime_eq {entries : List PositionEntry}
    (h : entries.Pairwise fun x y => x.timestamp ≤ y.timestamp) : sortedByTime entries = entries :=
  h.insertionSort_eq

/-- The loop for one sale depletes the inventory. -/
theorem sellFrom_eq_deplete {q : ℚ} (hq : 0 ≤ q) {inventory : List (ℚ × ℚ)}
    (hpos : AllPositive inventory) : sellFrom q inventory = deplete q inventory := by
  induction inventory generalizing q with
  | nil => rfl
  | cons e rest ih =>
    obtain ⟨price, quantity⟩ := e
    obtain ⟨-, hrest⟩ := allPositive_cons.mp hpos
    by_cases hsell : q > 0
    · simp only [sellFrom, deplete, if_pos hsell]
      split
      · rename_i hle
        exact ih (sub_nonneg.mpr hle) hrest
      · rfl
    · obtain rfl : q = 0 := le_antisymm (not_lt.mp hsell) hq
      rw [deplete_zero hpos]
      simp [sellFrom]

/-- Nothing used up is in a depleted queue, so the last filter keeps everything. -/
theorem filter_pos {inventory : List (ℚ × ℚ)} (hpos : AllPositive inventory) :
    (inventory.filter fun item => item.2 > 0) = inventory := by
  rw [List.filter_eq_self]
  intro e he
  simpa using hpos e he

/-- The inventory after the sales. -/
theorem foldl_sellFrom {sells : List PositionEntry} (hsells : ∀ s ∈ sells, 0 < s.quantity)
    {inventory : List (ℚ × ℚ)} (hpos : AllPositive inventory) :
    sells.foldl (fun inventory s => sellFrom s.quantity inventory) inventory =
      deplete (sells.map (·.quantity)).sum inventory := by
  have hnonneg : ∀ q ∈ sells.map (·.quantity), 0 ≤ q := by
    intro q hq
    obtain ⟨s, hs, rfl⟩ := List.mem_map.mp hq
    exact (hsells s hs).le
  rw [← foldl_deplete hnonneg hpos, List.foldl_map]
  clear hnonneg
  induction sells generalizing inventory with
  | nil => rfl
  | cons s rest ih =>
    obtain ⟨hs, hrest⟩ := List.forall_mem_cons.mp hsells
    rw [List.foldl_cons, List.foldl_cons, sellFrom_eq_deplete hs.le hpos]
    exact ih hrest (hpos.deplete s.quantity)

end PortfolioHelper

/-! ## §2 The matcher as a depletion -/

/-- The price and the quantity left of a lot. -/
def PositionLot.holding (lot : PositionLot) : ℚ × ℚ := (lot.price, lot.remainingQuantity)

/-- The price and the quantity of a position entry. -/
def PositionEntry.holding (entry : PositionEntry) : ℚ × ℚ := (entry.price, entry.quantity)

theorem queueTotal_holdings (lots : List PositionLot) :
    queueTotal (lots.map PositionLot.holding) = heldQuantity lots := by
  simp [queueTotal, heldQuantity, PositionLot.holding, Function.comp_def]

theorem LotsOpen.allPositive {lots : List PositionLot} (h : LotsOpen lots) :
    AllPositive (lots.map PositionLot.holding) := by
  intro e he
  obtain ⟨lot, hlot, rfl⟩ := List.mem_map.mp he
  exact h lot hlot

/-- The lots that a match leaves are the lots depleted by the exit. -/
theorem matchFrom_holdings (exit : Exit) {q : ℚ} (hq : 0 ≤ q) {lots : List PositionLot}
    (hopen : LotsOpen lots) :
    (FifoTradeMatcher.matchFrom exit q lots).lots.map PositionLot.holding =
      deplete q (lots.map PositionLot.holding) := by
  induction lots generalizing q with
  | nil => rfl
  | cons lot rest ih =>
    obtain ⟨hlot, hrest⟩ := lotsOpen_cons.mp hopen
    by_cases hpos : q > 0
    · simp only [FifoTradeMatcher.matchFrom, if_pos hpos, List.map_cons]
      by_cases hle : lot.remainingQuantity ≤ q
      · simp only [min_eq_right hle, sub_self, le_refl, ↓reduceIte]
        rw [ih (sub_nonneg.mpr hle) hrest]
        simp [deplete, PositionLot.holding, hle]
      · have hmin : min q lot.remainingQuantity = q := min_eq_left (not_le.mp hle).le
        have hkept : ¬ lot.remainingQuantity - q ≤ 0 := by linarith
        simp [hmin, hkept, deplete, PositionLot.holding, hle]
    · obtain rfl : q = 0 := le_antisymm (not_lt.mp hpos) hq
      rw [deplete_zero hopen.allPositive]
      simp [FifoTradeMatcher.matchFrom]

/-! ## §3 Contexts whose lots are the replayed entries -/

namespace TradingContext

/-- The quantity sold so far. -/
def soldQuantity (ctx : TradingContext) : ℚ := (ctx.closePositions.map (·.quantity)).sum

/-- The lots are the purchases depleted by everything sold, entries are in the order of
    time, and the purchases cover the sales. -/
structure Replays (ctx : TradingContext) : Prop where
  booked : ctx.Booked
  holdings_eq : ctx.positionLots.map PositionLot.holding =
    deplete ctx.soldQuantity (ctx.openPositions.map PositionEntry.holding)
  openPositive : ∀ b ∈ ctx.openPositions, 0 < b.quantity
  closePositive : ∀ s ∈ ctx.closePositions, 0 < s.quantity
  covered : ctx.soldQuantity ≤ queueTotal (ctx.openPositions.map PositionEntry.holding)
  openSorted : ctx.openPositions.Pairwise fun x y => x.timestamp ≤ y.timestamp
  closeSorted : ctx.closePositions.Pairwise fun x y => x.timestamp ≤ y.timestamp

theorem Replays.soldQuantity_nonneg {ctx : TradingContext} (h : ctx.Replays) :
    0 ≤ ctx.soldQuantity := by
  apply List.sum_nonneg
  intro q hq
  obtain ⟨s, hs, rfl⟩ := List.mem_map.mp hq
  exact (h.closePositive s hs).le

theorem Replays.allPositive {ctx : TradingContext} (h : ctx.Replays) :
    AllPositive (ctx.openPositions.map PositionEntry.holding) := by
  intro e he
  obtain ⟨b, hb, rfl⟩ := List.mem_map.mp he
  exact h.openPositive b hb

/-- On such a context the helper finds the lots. -/
theorem Replays.getActiveHoldings_eq {ctx : TradingContext} (h : ctx.Replays) :
    PortfolioHelper.getActiveHoldings ctx.openPositions ctx.closePositions =
      ctx.positionLots.map PositionLot.holding := by
  have hinventory : (ctx.openPositions.map fun b => (b.price, b.quantity)) =
      ctx.openPositions.map PositionEntry.holding := rfl
  simp only [PortfolioHelper.getActiveHoldings, PortfolioHelper.sortedByTime_eq h.openSorted,
    PortfolioHelper.sortedByTime_eq h.closeSorted]
  rw [hinventory, PortfolioHelper.foldl_sellFrom h.closePositive h.allPositive,
    PortfolioHelper.filter_pos (h.allPositive.deplete _), h.holdings_eq]
  rfl

/-- The time a fill is booked under. -/
def fillTime (order : Order) : ℚ := order.executedTime.getD order.createdTime

/-- No entry is later than `t`. -/
def BookedBy (ctx : TradingContext) (t : ℚ) : Prop :=
  (∀ b ∈ ctx.openPositions, b.timestamp ≤ t) ∧ ∀ s ∈ ctx.closePositions, s.timestamp ≤ t

theorem pairwise_concat {entries : List PositionEntry} {e : PositionEntry}
    (h : entries.Pairwise fun x y => x.timestamp ≤ y.timestamp)
    (hle : ∀ x ∈ entries, x.timestamp ≤ e.timestamp) :
    (entries ++ [e]).Pairwise fun x y => x.timestamp ≤ y.timestamp := by
  rw [List.pairwise_append]
  refine ⟨h, List.pairwise_singleton _ _, ?_⟩
  intro x hx y hy
  rw [List.mem_singleton.mp hy]
  exact hle x hx

/-- A purchase is appended on both sides. -/
theorem Replays.recordBuyFill {ctx : TradingContext} (h : ctx.Replays) (order : Order)
    (fillPrice fee slippage : ℚ) {quantity timestamp : ℚ} (hq : 0 < quantity)
    (htime : ctx.BookedBy timestamp) :
    (ctx.recordBuyFill order fillPrice quantity fee slippage timestamp).Replays := by
  obtain ⟨lot, hlots, hrem, hprice, -⟩ :=
    recordBuyFill_lots ctx order fillPrice quantity fee slippage timestamp
  have hentry : AllPositive [(fillPrice, quantity)] := by
    intro e he
    rw [List.mem_singleton.mp he]
    exact hq
  refine ⟨recordBuyFill_booked h.booked order fillPrice fee slippage timestamp hq, ?_, ?_,
    h.closePositive, ?_, ?_, h.closeSorted⟩
  -- the sold units come off the front, so an appended purchase stays whole
  · show List.map _ _ = deplete ctx.soldQuantity
      ((ctx.openPositions ++ [(⟨fillPrice, quantity, timestamp⟩ : PositionEntry)]).map
        PositionEntry.holding)
    have hlot : PositionLot.holding lot = (fillPrice, quantity) := by
      rw [PositionLot.holding, hprice, hrem]
    rw [hlots, List.map_append, List.map_append, h.holdings_eq, List.map_singleton, hlot]
    exact (deplete_append hentry h.soldQuantity_nonneg h.covered).symm
  · intro b hb
    rcases List.mem_append.mp hb with hb | hb
    · exact h.openPositive b hb
    · rw [List.mem_singleton.mp hb]
      exact hq
  · show ctx.soldQuantity ≤ queueTotal
      ((ctx.openPositions ++ [(⟨fillPrice, quantity, timestamp⟩ : PositionEntry)]).map
        PositionEntry.holding)
    rw [List.map_append, queueTotal_append]
    refine h.covered.trans (le_add_of_nonneg_right ?_)
    simpa [PositionEntry.holding] using hq.le
  · exact pairwise_concat h.openSorted htime.1

/-- A covered sale depletes both sides. -/
theorem Replays.recordSellFill {ctx : TradingContext} (h : ctx.Replays) (order : Order)
    (fillPrice fee slippage : ℚ) {quantity timestamp : ℚ} (hq : 0 < quantity)
    (hle : quantity ≤ ctx.positionQty) (htime : ctx.BookedBy timestamp) :
    (ctx.recordSellFill order fillPrice quantity fee slippage timestamp).1.Replays := by
  have hsold : (ctx.recordSellFill order fillPrice quantity fee slippage timestamp).1.soldQuantity =
      ctx.soldQuantity + quantity := by
    simp [TradingContext.recordSellFill, matchFifoLots, soldQuantity]
  refine ⟨recordSellFill_booked order fillPrice fee slippage timestamp h.booked hq, ?_,
    h.openPositive, ?_, ?_, h.openSorted, ?_⟩
  · rw [hsold, recordSellFill_lots]
    show List.map _ (FifoTradeMatcher.matchFrom _ quantity ctx.positionLots).lots =
      deplete _ (ctx.openPositions.map PositionEntry.holding)
    rw [matchFrom_holdings _ hq.le h.booked.lotsOpen, h.holdings_eq,
      deplete_deplete h.soldQuantity_nonneg hq.le]
  · intro s hs
    rcases List.mem_append.mp hs with hs | hs
    · exact h.closePositive s hs
    · rw [List.mem_singleton.mp hs]
      exact hq
  · rw [hsold]
    show _ ≤ queueTotal (ctx.openPositions.map PositionEntry.holding)
    -- what is held is what the purchases have left
    have hheld : ctx.positionQty =
        queueTotal (ctx.openPositions.map PositionEntry.holding) - ctx.soldQuantity := by
      rw [h.booked.positionQty_eq, ← queueTotal_holdings, h.holdings_eq,
        queueTotal_deplete h.soldQuantity_nonneg h.covered]
    linarith
  · exact pairwise_concat h.closeSorted htime.2

/-- One covered fill that is not earlier than what is booked. -/
theorem Replays.recordFill {ctx : TradingContext} (h : ctx.Replays) {order : Order}
    (hq : 0 < order.quantity)
    (hle : order.tradeAction = .sell → order.quantity ≤ ctx.positionQty)
    (htime : ctx.BookedBy (fillTime order)) :
    (ctx.recordFill order).1.Replays ∧ (ctx.recordFill order).1.BookedBy (fillTime order) := by
  have hstamped : Replays { ctx with lastMarketActivityTime := some (fillTime order) } :=
    ⟨⟨h.booked.lotsOpen, h.booked.positionQty_eq⟩, h.holdings_eq, h.openPositive,
      h.closePositive, h.covered, h.openSorted, h.closeSorted⟩
  unfold TradingContext.recordFill
  cases haction : order.tradeAction with
  | buy =>
    refine ⟨hstamped.recordBuyFill order _ _ _ hq htime, ?_, htime.2⟩
    intro b hb
    rcases List.mem_append.mp hb with hb | hb
    · exact htime.1 b hb
    · rw [List.mem_singleton.mp hb]
      exact le_rfl
  | sell =>
    refine ⟨hstamped.recordSellFill order _ _ _ hq (hle haction) htime, htime.1, ?_⟩
    intro s hs
    rcases List.mem_append.mp hs with hs | hs
    · exact htime.2 s hs
    · rw [List.mem_singleton.mp hs]
      exact le_rfl

theorem BookedBy.mono {ctx : TradingContext} {t u : ℚ} (h : ctx.BookedBy t) (hle : t ≤ u) :
    ctx.BookedBy u :=
  ⟨fun b hb => (h.1 b hb).trans hle, fun s hs => (h.2 s hs).trans hle⟩

/-- A context as `init_asset_balance` puts it into a session. -/
inductive JustOpened : TradingContext → Prop
  | flat (tickerSymbol exchange : String) (startingBalance : ℚ) (commitHash : Option String) :
      JustOpened (new tickerSymbol exchange startingBalance commitHash)
  | bootstrapped (tickerSymbol exchange : String) (startingBalance : ℚ)
      (commitHash : Option String) (quantity price timestamp : ℚ) (hq : 0 < quantity) :
      JustOpened (SessionManager.bootstrapContext
        (new tickerSymbol exchange startingBalance commitHash) quantity price timestamp)

/-- A context that starts with one lot or with none. -/
theorem JustOpened.replays {ctx : TradingContext} (h : ctx.JustOpened) :
    ctx.Replays ∧ ctx.closePositions = [] := by
  -- nothing is sold yet, so the lots are the purchases
  cases h with
  | flat tickerSymbol exchange startingBalance commitHash =>
    refine ⟨⟨(flat_new _ _ _ _).booked, rfl, ?_, ?_, le_rfl, List.Pairwise.nil,
      List.Pairwise.nil⟩, rfl⟩
    · intro b hb
      cases hb
    · intro s hs
      cases hs
  | bootstrapped tickerSymbol exchange startingBalance commitHash quantity price timestamp hq =>
    have hentry : AllPositive [(price, quantity)] := by
      intro e he
      rw [List.mem_singleton.mp he]
      exact hq
    refine ⟨⟨⟨?_, ?_⟩, (deplete_zero hentry).symm, ?_, ?_, ?_, List.pairwise_singleton _ _,
      List.Pairwise.nil⟩, rfl⟩
    · intro lot hlot
      rw [List.mem_singleton.mp hlot]
      exact hq
    · show quantity = heldQuantity _
      simp [SessionManager.bootstrapContext, new, heldQuantity]
    · intro b hb
      rw [List.mem_singleton.mp hb]
      exact hq
    · intro s hs
      cases hs
    · show 0 ≤ queueTotal [(price, quantity)]
      exact hentry.queueTotal_nonneg

end TradingContext

/-! ## §4 The two implementations agree -/

namespace SessionManager

open TradingContext

/-- The times of the fills of a symbol, in the order in which they are reported. -/
def fillTimes (sym : String) (orders : List Order) : List ℚ :=
  (orders.filter fun order => order.tickerSymbol = sym).map fillTime

theorem fillTimes_cons_of_eq {sym : String} {order : Order} (h : order.tickerSymbol = sym)
    (rest : List Order) : fillTimes sym (order :: rest) = fillTime order :: fillTimes sym rest := by
  simp [fillTimes, h]

theorem fillTimes_cons_of_ne {sym : String} {order : Order} (h : order.tickerSymbol ≠ sym)
    (rest : List Order) : fillTimes sym (order :: rest) = fillTimes sym rest := by
  simp [fillTimes, h]

/-- Covered fills in the order of time keep the context of a symbol replayable. -/
theorem replays_run {sm : SessionManager} {sym : String} {ctx : TradingContext}
    (hctx : sm.findContext sym = some ctx) (h : ctx.Replays) {orders : List Order}
    (hcov : Along fillStep Covered sm orders)
    (hsorted : (fillTimes sym orders).Pairwise (· ≤ ·))
    (hafter : ∀ t ∈ fillTimes sym orders, ctx.BookedBy t) :
    ∃ ctx', (run fillStep sm orders).findContext sym = some ctx' ∧ ctx'.Replays := by
  induction orders generalizing sm ctx with
  | nil => exact ⟨ctx, hctx, h⟩
  | cons order rest ih =>
    rcases fillStep_context hctx order with ⟨hsym, hstep⟩ | ⟨hsym, hstep⟩
    · rw [fillTimes_cons_of_ne hsym] at hsorted hafter
      exact ih hstep h hcov.2 hsorted hafter
    · rw [fillTimes_cons_of_eq hsym] at hsorted hafter
      obtain ⟨hle, hrest⟩ := List.pairwise_cons.mp hsorted
      have hheld : order.tradeAction = .sell → order.quantity ≤ ctx.positionQty :=
        fun hsell => hcov.1.2 hsell ctx (hsym ▸ hctx)
      have hrecorded : (ctx.recordFill (sm.withCommitHash ctx order)).1.Replays ∧
          (ctx.recordFill (sm.withCommitHash ctx order)).1.BookedBy (fillTime order) :=
        h.recordFill hcov.1.1 hheld (hafter _ List.mem_cons_self)
      obtain ⟨hreplays, hbooked⟩ := hrecorded
      exact ih hstep hreplays hcov.2 hrest fun t ht => hbooked.mono (hle t ht)

/-- **The two FIFO implementations agree**: for a context as it enters the session and any
    covered fills in the order of time, the replayed holdings are those of the open lots. -/
theorem activeHoldings_eq_positionLots {sm : SessionManager} {sym : String}
    {ctx : TradingContext} (hctx : sm.findContext sym = some ctx) (hopen : ctx.JustOpened)
    {orders : List Order} (hcov : Along fillStep Covered sm orders)
    (htime : (ctx.openPositions.map (·.timestamp) ++ fillTimes sym orders).Pairwise (· ≤ ·)) :
    ∃ ctx', (run fillStep sm orders).findContext sym = some ctx' ∧
      PortfolioHelper.getActiveHoldings ctx'.openPositions ctx'.closePositions =
        ctx'.positionLots.map fun lot => (lot.price, lot.remainingQuantity) := by
  obtain ⟨hreplays, hclose⟩ := hopen.replays
  obtain ⟨-, hsorted, hafter⟩ := List.pairwise_append.mp htime
  have hbooked : ∀ t ∈ fillTimes sym orders, ctx.BookedBy t := by
    intro t ht
    refine ⟨?_, ?_⟩
    · intro b hb
      exact hafter _ (List.mem_map_of_mem hb) t ht
    · intro s hs
      rw [hclose] at hs
      cases hs
  obtain ⟨ctx', hctx', h⟩ := replays_run hctx hreplays hcov hsorted hbooked
  exact ⟨ctx', hctx', h.getActiveHoldings_eq⟩

/-- Two purchases and a sale at one instant, the sale across both lots. -/
theorem activeHoldings_eq_positionLots_partial_sale :
    let orders := [sampleFill "1" .buy 10 2 1 0, sampleFill "2" .buy 20 1 0 1,
      sampleFill "3" .sell 30 (5 / 2) 1 (1 / 2)]
    ∃ ctx', (run fillStep flatSession orders).findContext "BTC_USD" = some ctx' ∧
      PortfolioHelper.getActiveHoldings ctx'.openPositions ctx'.closePositions =
        ctx'.positionLots.map fun lot => (lot.price, lot.remainingQuantity) := by
  intro orders
  have hcov : Along fillStep Covered flatSession orders := by decide +kernel
  have hctx : flatSession.findContext "BTC_USD" =
      some (TradingContext.new "BTC_USD" "BINANCE" 1000 none) := by decide +kernel
  exact activeHoldings_eq_positionLots hctx (.flat _ _ _ _) hcov (by decide +kernel)

end SessionManager

end CryptoTrading.Session
