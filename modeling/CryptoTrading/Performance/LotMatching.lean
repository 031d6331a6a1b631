import CryptoTrading.Consensus.StrategyWeight
import CryptoTrading.Lib.Shortfall
import CryptoTrading.Session.FifoTradeMatcher

/-!
# The trades of the performance report

Embeds `AssetPerformanceService.extract_trades_with_audit` of
`src/server/services/asset_performance_service.py`.

The report replays the completed orders of a symbol in the order of their execution.  A purchase
opens a lot; a sale takes from the oldest lots, with one trade for each lot it touches, and what
it finds no lot for is only counted.  `extractTrades_sourced` says which units a trade sells, and
`unmatchedExitQuantity_eq` how much the audit counts.

Decimals are rational numbers.  Left out: the random `trade_id`.
-/

namespace CryptoTrading.Performance

open CryptoTrading.Consensus CryptoTrading.Lib CryptoTrading.Session

/-! ## §1 Orders -/

/-- `get_exec_dt`. -/
def getExecDt (order : Order) : DateTime :=
  fromTimestamp (order.executedTime.getD order.createdTime)

/-- `exec_dt.timestamp()`. -/
def execTimestamp (order : Order) : ℚ := (getExecDt order).microseconds / 1000000

/-- `sorted(orders, key=get_exec_dt)`. -/
def sortedOrders (orders : List Order) : List Order :=
  orders.mergeSort fun a b => (getExecDt a).microseconds ≤ (getExecDt b).microseconds

/-- `order.fill_price or order.price`. -/
def fillPriceVal (order : Order) : ℚ :=
  match order.fillPrice with
  | some price => if price ≠ 0 then price else order.price
  | none => order.price

/-- `order.fees or "0"`. -/
def feeVal (order : Order) : ℚ := order.fees.getD 0

/-- `order.slippage or "0"`. -/
def slippageVal (order : Order) : ℚ := order.slippage.getD 0

/-! ## §2 Lots and trades -/

structure BuyLot where
  orderUuid : String
  remainingQty : ℚ
  buyPrice : ℚ
  feePerUnit : ℚ
  entryTimestamp : ℚ
  slippagePerUnit : ℚ
  commitHash : Option String
  winningStrategy : Option String
  strategyVotes : Option (List (String × String))
  strategyAttributions : Option (List (String × ℚ))
  regime : Option String

/-- The lot that a purchase opens. -/
def lotOf (order : Order) : BuyLot where
  orderUuid := order.uuid
  remainingQty := order.quantity
  buyPrice := fillPriceVal order
  feePerUnit := perUnit (feeVal order) order.quantity
  entryTimestamp := execTimestamp order
  slippagePerUnit := perUnit (slippageVal order) order.quantity
  commitHash := order.commitHash
  winningStrategy := order.winningStrategy
  strategyVotes := order.strategyVotes
  strategyAttributions := order.strategyAttributions
  regime := order.regime

/-- `Trade.create` for what a sale takes from a lot.  The votes of the sale are not passed on. -/
def tradeOf (tickerSymbol : String) (order : Order) (lot : BuyLot) (matchQty : ℚ) : Trade :=
  let entryFee := lot.feePerUnit * matchQty
  let exitFee := perUnit (feeVal order) order.quantity * matchQty
  let slippage := lot.slippagePerUnit * matchQty +
    perUnit (slippageVal order) order.quantity * matchQty
  let grossPnl := (fillPriceVal order - lot.buyPrice) * matchQty
  let totalFees := entryFee + exitFee
  let netPnl := grossPnl - totalFees - slippage
  let costBasis := lot.buyPrice * matchQty + entryFee
  { tickerSymbol := tickerSymbol
    entryOrderUuid := lot.orderUuid
    exitOrderUuid := order.uuid
    entryPrice := lot.buyPrice
    exitPrice := fillPriceVal order
    quantity := matchQty
    grossPnl := grossPnl
    fees := totalFees
    netPnl := netPnl
    returnPct := if costBasis > 0 then netPnl / costBasis * 100 else 0
    durationSeconds := max 0 (execTimestamp order - lot.entryTimestamp)
    entryTimestamp := lot.entryTimestamp
    exitTimestamp := execTimestamp order
    slippage := slippage
    commitHash := orElseStr order.commitHash lot.commitHash
    winningStrategy := orElseStr lot.winningStrategy order.winningStrategy
    strategyVotes := orElseList lot.strategyVotes order.strategyVotes
    entryStrategyAttributions := lot.strategyAttributions
    exitStrategyAttributions := order.strategyAttributions
    exitWinningStrategy := order.winningStrategy
    exitStrategyVotes := none
    entryRegime := lot.regime
    exitRegime := order.regime }

/-! ## §3 The replay -/

/-- The lots that a sale leaves, its trades and what it found no lot for. -/
structure MatchedSale where
  buyLots : List BuyLot
  trades : List Trade
  remainingSellQty : ℚ

/-- The loop over the lots.  A lot that stays in front has given all that was left to sell, so
    the loop ends there and the recursion is on the lots. -/
def matchSale (tickerSymbol : String) (order : Order) (remainingSellQty : ℚ) :
    List BuyLot → MatchedSale
  | [] => ⟨[], [], remainingSellQty⟩
  | oldestLot :: rest =>
    if remainingSellQty > 0 then
      let matchQty := min oldestLot.remainingQty remainingSellQty
      let trade := tradeOf tickerSymbol order oldestLot matchQty
      let oldestLot := { oldestLot with remainingQty := oldestLot.remainingQty - matchQty }
      if oldestLot.remainingQty ≤ 0 then
        let tail := matchSale tickerSymbol order (remainingSellQty - matchQty) rest
        { tail with trades := trade :: tail.trades }
      else ⟨oldestLot :: rest, [trade], remainingSellQty - matchQty⟩
    else ⟨oldestLot :: rest, [], remainingSellQty⟩

structure Extraction where
  buyLots : List BuyLot
  matchedTrades : List Trade
  unmatchedExitQuantity : ℚ
  unmatchedExitOrders : ℕ

/-- The body of the loop over the orders. -/
def extractOrder (tickerSymbol : String) (s : Extraction) (order : Order) : Extraction :=
  match order.tradeAction with
  | .buy => { s with buyLots := s.buyLots ++ [lotOf order] }
  | .sell =>
    let sale := matchSale tickerSymbol order order.quantity s.buyLots
    { buyLots := sale.buyLots
      matchedTrades := s.matchedTrades ++ sale.trades
      unmatchedExitQuantity :=
        if sale.remainingSellQty > 0 then s.unmatchedExitQuantity + sale.remainingSellQty
        else s.unmatchedExitQuantity
      unmatchedExitOrders :=
        if sale.remainingSellQty > 0 then s.unmatchedExitOrders + 1 else s.unmatchedExitOrders }

/-- The loop over orders that are sorted. -/
def replay (tickerSymbol : String) (sorted : List Order) : Extraction :=
  sorted.foldl (extractOrder tickerSymbol) ⟨[], [], 0, 0⟩

structure TradeExtractionResult where
  trades : List Trade
  unmatchedExitQuantity : ℚ
  unmatchedExitOrders : ℕ

/-- `AssetPerformanceService.extract_trades_with_audit`. -/
def extractTradesWithAudit (tickerSymbol : String) (orders : List Order) :
    TradeExtractionResult :=
  let s := replay tickerSymbol (sortedOrders orders)
  ⟨s.matchedTrades, s.unmatchedExitQuantity, s.unmatchedExitOrders⟩

/-- `AssetPerformanceService.extract_trades`. -/
def extractTrades (tickerSymbol : String) (orders : List Order) : List Trade :=
  (extractTradesWithAudit tickerSymbol orders).trades

theorem replay_concat (tickerSymbol : String) (orders : List Order) (order : Order) :
    replay tickerSymbol (orders ++ [order]) =
      extractOrder tickerSymbol (replay tickerSymbol orders) order := by
  rw [replay, List.foldl_append]
  rfl

/-- A trade does not depend on how much of its lot is left. -/
theorem tradeOf_remainingQty (tickerSymbol : String) (order : Order) (lot : BuyLot)
    (remainingQty matchQty : ℚ) :
    tradeOf tickerSymbol order { lot with remainingQty := remainingQty } matchQty =
      tradeOf tickerSymbol order lot matchQty := rfl

@[simp] theorem tradeOf_quantity (tickerSymbol : String) (order : Order) (lot : BuyLot)
    (matchQty : ℚ) : (tradeOf tickerSymbol order lot matchQty).quantity = matchQty := rfl

/-! ## §4 What the audit counts -/

/-- The quantity that the lots hold. -/
def heldQty (lots : List BuyLot) : ℚ := (lots.map (·.remainingQty)).sum

/-- The quantity that trades have closed. -/
def tradedQty (trades : List Trade) : ℚ := (trades.map (·.quantity)).sum

/-- No lot has given more than it had. -/
def NoneOverdrawn (lots : List BuyLot) : Prop := ∀ lot ∈ lots, 0 ≤ lot.remainingQty

@[simp] theorem heldQty_nil : heldQty [] = 0 := rfl

@[simp] theorem heldQty_cons (lot : BuyLot) (rest : List BuyLot) :
    heldQty (lot :: rest) = lot.remainingQty + heldQty rest := by
  simp [heldQty]

@[simp] theorem tradedQty_nil : tradedQty [] = 0 := rfl

@[simp] theorem tradedQty_cons (trade : Trade) (rest : List Trade) :
    tradedQty (trade :: rest) = trade.quantity + tradedQty rest := by
  simp [tradedQty]

theorem tradedQty_append (xs ys : List Trade) :
    tradedQty (xs ++ ys) = tradedQty xs + tradedQty ys := by
  simp [tradedQty]

theorem noneOverdrawn_cons {lot : BuyLot} {rest : List BuyLot} :
    NoneOverdrawn (lot :: rest) ↔ 0 ≤ lot.remainingQty ∧ NoneOverdrawn rest :=
  List.forall_mem_cons

theorem NoneOverdrawn.heldQty_nonneg {lots : List BuyLot} (h : NoneOverdrawn lots) :
    0 ≤ heldQty lots := by
  apply List.sum_nonneg
  intro qty hqty
  obtain ⟨lot, hlot, rfl⟩ := List.mem_map.mp hqty
  exact h lot hlot

/-- What a sale of `q` does to the quantities of the lots. -/
structure SaleSpec (q : ℚ) (lots : List BuyLot) (sale : MatchedSale) : Prop where
  noneOverdrawn : NoneOverdrawn sale.buyLots
  heldQty_eq : heldQty sale.buyLots = max 0 (heldQty lots - q)
  remaining_eq : sale.remainingSellQty = max 0 (q - heldQty lots)
  tradedQty_eq : tradedQty sale.trades = q - sale.remainingSellQty

/-- A lot that is used up leaves the rest of the sale to the lots behind it. -/
theorem SaleSpec.used {lot : BuyLot} {rest : List BuyLot} {q : ℚ} {tail : MatchedSale}
    (h : SaleSpec (q - lot.remainingQty) rest tail) {trade : Trade}
    (htrade : trade.quantity = lot.remainingQty) :
    SaleSpec q (lot :: rest) { tail with trades := trade :: tail.trades } := by
  refine ⟨h.noneOverdrawn, ?_, ?_, ?_⟩
  · show heldQty tail.buyLots = _
    rw [h.heldQty_eq, heldQty_cons, sub_sub_eq_add_sub, add_comm]
  · show tail.remainingSellQty = _
    rw [h.remaining_eq, heldQty_cons, sub_sub]
  · show tradedQty (trade :: tail.trades) = q - tail.remainingSellQty
    rw [tradedQty_cons, h.tradedQty_eq, htrade]
    ring

theorem matchSale_spec (tickerSymbol : String) (order : Order) {q : ℚ} (hq : 0 ≤ q)
    {lots : List BuyLot} (h : NoneOverdrawn lots) :
    SaleSpec q lots (matchSale tickerSymbol order q lots) := by
  induction lots generalizing q with
  | nil => exact ⟨h, by simp [matchSale, hq], by simp [matchSale, hq], by simp [matchSale]⟩
  | cons lot rest ih =>
    obtain ⟨hlot, hrest⟩ := noneOverdrawn_cons.mp h
    have hheld := hrest.heldQty_nonneg
    unfold matchSale
    by_cases hpos : q > 0
    · rw [if_pos hpos]
      rcases le_or_gt lot.remainingQty q with hle | hlt
      · have hmin : min lot.remainingQty q = lot.remainingQty := min_eq_left hle
        simp only [hmin, sub_self, le_refl, if_true]
        exact (ih (sub_nonneg.mpr hle) hrest).used rfl
      · -- the lot has more than the sale asks for
        have hmin : min lot.remainingQty q = q := min_eq_right hlt.le
        have hkept : ¬ lot.remainingQty - q ≤ 0 := not_le.mpr (sub_pos.mpr hlt)
        simp only [hmin, if_neg hkept]
        have hcover : q - (lot.remainingQty + heldQty rest) ≤ 0 := by linarith
        refine ⟨noneOverdrawn_cons.mpr ⟨(sub_pos.mpr hlt).le, hrest⟩, ?_, ?_, ?_⟩
        · rw [heldQty_cons, heldQty_cons, max_eq_right (by linarith)]
          ring
        · rw [heldQty_cons, max_eq_left hcover, sub_self]
        · simp [tradeOf]
    · rw [if_neg hpos]
      obtain rfl : q = 0 := le_antisymm (not_lt.mp hpos) hq
      have hall : 0 ≤ heldQty (lot :: rest) := h.heldQty_nonneg
      refine ⟨h, ?_, ?_, by simp⟩
      · rw [sub_zero, max_eq_right hall]
      · rw [zero_sub, max_eq_left (neg_nonpos.mpr hall)]

/-- What an order does to the quantity held. -/
def stockChange (order : Order) : ℚ :=
  match order.tradeAction with
  | .buy => order.quantity
  | .sell => -order.quantity

/-- The lots and the audit as a stock with its shortfall. -/
def Extraction.stock (s : Extraction) : Stock ℚ := ⟨heldQty s.buyLots, s.unmatchedExitQuantity⟩

/-- **The replay refines the stock**: an order moves the quantity held by its own, and what the
    lots do not cover is what the audit adds. -/
theorem extractOrder_stock (tickerSymbol : String) {s : Extraction}
    (h : NoneOverdrawn s.buyLots) {order : Order} (hq : 0 ≤ order.quantity) :
    NoneOverdrawn (extractOrder tickerSymbol s order).buyLots ∧
      (extractOrder tickerSymbol s order).stock = s.stock.move (stockChange order) := by
  have hheld := h.heldQty_nonneg
  -- a purchase covers itself, a sale leaves what the lots do not cover
  cases haction : order.tradeAction with
  | buy =>
    have hout : extractOrder tickerSymbol s order =
        { s with buyLots := s.buyLots ++ [lotOf order] } := by
      simp only [extractOrder, haction]
    rw [hout]
    refine ⟨?_, ?_⟩
    · intro lot hlot
      rcases List.mem_append.mp hlot with hlot | hlot
      · exact h lot hlot
      · rw [List.mem_singleton.mp hlot]
        exact hq
    · have hsum : heldQty (s.buyLots ++ [lotOf order]) = heldQty s.buyLots + order.quantity := by
        simp [heldQty, lotOf]
      have hnonneg : 0 ≤ heldQty s.buyLots + order.quantity := add_nonneg hheld hq
      simp only [Extraction.stock, Stock.move, stockChange, haction, hsum, max_eq_right hnonneg,
        max_eq_left (neg_nonpos.mpr hnonneg), add_zero]
  | sell =>
    have hspec := matchSale_spec tickerSymbol order hq h
    have hunmatched : (extractOrder tickerSymbol s order).unmatchedExitQuantity =
        s.unmatchedExitQuantity + max 0 (order.quantity - heldQty s.buyLots) := by
      simp only [extractOrder, haction, hspec.remaining_eq]
      split
      · rfl
      · rename_i hnot
        rw [max_eq_left (le_of_not_gt fun hgt => hnot (lt_max_of_lt_right hgt)), add_zero]
    have hlots : (extractOrder tickerSymbol s order).buyLots =
        (matchSale tickerSymbol order order.quantity s.buyLots).buyLots := by
      simp only [extractOrder, haction]
    refine ⟨hlots ▸ hspec.noneOverdrawn, ?_⟩
    simp only [Extraction.stock, Stock.move, stockChange, haction, hunmatched, hlots,
      hspec.heldQty_eq, ← sub_eq_add_neg, neg_sub]

/-- The quantities are never negative. -/
def NonnegQuantities (orders : List Order) : Prop := ∀ order ∈ orders, 0 ≤ order.quantity

instance (orders : List Order) : Decidable (NonnegQuantities orders) := by
  unfold NonnegQuantities
  infer_instance

theorem replay_stock (tickerSymbol : String) {orders : List Order} (h : NonnegQuantities orders) :
    NoneOverdrawn (replay tickerSymbol orders).buyLots ∧
      (replay tickerSymbol orders).stock =
        (⟨0, 0⟩ : Stock ℚ).after (orders.map stockChange) := by
  induction orders using List.reverseRecOn with
  | nil => exact ⟨by simp [replay, NoneOverdrawn], rfl⟩
  | append_singleton orders order ih =>
    obtain ⟨hnone, hstock⟩ := ih fun o ho => h o (List.mem_append_left _ ho)
    have hq : 0 ≤ order.quantity := h order (List.mem_append_right _ (List.mem_singleton_self _))
    rw [replay_concat]
    obtain ⟨hnone', hstock'⟩ := extractOrder_stock tickerSymbol hnone hq
    refine ⟨hnone', ?_⟩
    rw [hstock', hstock, List.map_append, Stock.after, Stock.after, List.foldl_append]
    rfl

/-- The quantity bought. -/
def boughtQty (orders : List Order) : ℚ :=
  ((orders.filter fun order => order.tradeAction = .buy).map (·.quantity)).sum

/-- The quantity sold. -/
def soldQty (orders : List Order) : ℚ :=
  ((orders.filter fun order => order.tradeAction = .sell).map (·.quantity)).sum

/-- The quantity sold that no purchase before it covers. -/
def shortfallQty (orders : List Order) : ℚ :=
  ((⟨0, 0⟩ : Stock ℚ).after (orders.map stockChange)).shortfall

/-- The quantity sold from a lot. -/
def matchedQty (orders : List Order) : ℚ := soldQty orders - shortfallQty orders

@[simp] theorem boughtQty_nil : boughtQty [] = 0 := rfl

theorem boughtQty_append (xs ys : List Order) :
    boughtQty (xs ++ ys) = boughtQty xs + boughtQty ys := by
  simp [boughtQty]

theorem soldQty_append (xs ys : List Order) : soldQty (xs ++ ys) = soldQty xs + soldQty ys := by
  simp [soldQty]

theorem replay_unmatched (tickerSymbol : String) {orders : List Order}
    (h : NonnegQuantities orders) :
    (replay tickerSymbol orders).unmatchedExitQuantity = shortfallQty orders :=
  congrArg Stock.shortfall (replay_stock tickerSymbol h).2

/-- What is sold is traded or counted as unmatched. -/
theorem replay_traded (tickerSymbol : String) {orders : List Order} (h : NonnegQuantities orders) :
    tradedQty (replay tickerSymbol orders).matchedTrades = matchedQty orders := by
  rw [matchedQty, ← replay_unmatched tickerSymbol h]
  induction orders using List.reverseRecOn with
  | nil => simp [replay, soldQty]
  | append_singleton orders order ih =>
    have hinit : NonnegQuantities orders := fun o ho => h o (List.mem_append_left _ ho)
    have hq : 0 ≤ order.quantity := h order (List.mem_append_right _ (List.mem_singleton_self _))
    have htraded := ih hinit
    rw [replay_concat, soldQty_append]
    cases haction : order.tradeAction with
    | buy =>
      have hsold : soldQty [order] = 0 := by simp [soldQty, haction]
      simpa only [extractOrder, haction, hsold, add_zero] using htraded
    | sell =>
      have hspec := matchSale_spec tickerSymbol order hq (replay_stock tickerSymbol hinit).1
      have hsold : soldQty [order] = order.quantity := by simp [soldQty, haction]
      simp only [extractOrder, haction, hsold, tradedQty_append, htraded, hspec.tradedQty_eq]
      split
      · ring
      · rename_i hnot
        have hzero : (matchSale tickerSymbol order order.quantity
            (replay tickerSymbol orders).buyLots).remainingSellQty = 0 :=
          le_antisymm (not_lt.mp hnot) (hspec.remaining_eq ▸ le_max_left _ _)
        rw [hzero]
        ring

theorem nonnegQuantities_sorted {orders : List Order} (h : NonnegQuantities orders) :
    NonnegQuantities (sortedOrders orders) :=
  fun order horder => h order ((List.mergeSort_perm _ _).mem_iff.mp horder)

theorem sum_stockChange (orders : List Order) :
    (orders.map stockChange).sum = boughtQty orders - soldQty orders := by
  induction orders with
  | nil => simp [boughtQty, soldQty]
  | cons order rest ih =>
    cases haction : order.tradeAction with
    | buy =>
      simp only [boughtQty, soldQty] at ih
      simp [boughtQty, soldQty, stockChange, haction, ih]
      ring
    | sell =>
      simp only [boughtQty, soldQty] at ih
      simp [boughtQty, soldQty, stockChange, haction, ih]
      ring

/-- **The audit counts the deepest deficit.**  Whatever the orders, the quantity without a lot is
    the furthest that the sales have ever been ahead of the purchases. -/
theorem isGreatest_unmatchedExitQuantity (tickerSymbol : String) {orders : List Order}
    (h : NonnegQuantities orders) :
    IsGreatest {deficit | ∃ past, past <+: sortedOrders orders ∧
        deficit = soldQty past - boughtQty past}
      (extractTradesWithAudit tickerSymbol orders).unmatchedExitQuantity := by
  have hsorted := nonnegQuantities_sorted h
  have hgreatest := Stock.isGreatest_shortfall ((sortedOrders orders).map stockChange)
  have hcounted : (extractTradesWithAudit tickerSymbol orders).unmatchedExitQuantity =
      ((⟨0, 0⟩ : Stock ℚ).after ((sortedOrders orders).map stockChange)).shortfall :=
    replay_unmatched tickerSymbol hsorted
  rw [hcounted]
  have hsets : {deficit | ∃ past, past <+: sortedOrders orders ∧
        deficit = soldQty past - boughtQty past} =
      {deficit | ∃ past, past <+: (sortedOrders orders).map stockChange ∧
        deficit = -past.sum} := by
    ext deficit
    constructor
    · rintro ⟨past, hpast, rfl⟩
      exact ⟨past.map stockChange, hpast.map stockChange, by rw [sum_stockChange, neg_sub]⟩
    · rintro ⟨changes, hchanges, rfl⟩
      obtain ⟨past, hpast, rfl⟩ := List.prefix_map_iff.mp hchanges
      exact ⟨past, hpast, by rw [sum_stockChange, neg_sub]⟩
  rw [hsets]
  exact hgreatest

/-- A completed order of the pair. -/
def sampleOrder (uuid : String) (action : TradeAction) (price quantity executedTime : ℚ) : Order :=
  { Order.new uuid "BINANCE" "BTC_USD" price quantity action 0 with
    executedTime := some executedTime
    status := some .completed
    fees := some 1 }

/-- Two purchases; a sale across both, and one of more than is left, reported out of order. -/
def sampleOrders : List Order :=
  [sampleOrder "4" .sell 40 1 40, sampleOrder "1" .buy 10 2 10, sampleOrder "2" .buy 20 1 20,
    sampleOrder "3" .sell 30 (5 / 2) 30]

theorem isGreatest_unmatchedExitQuantity_sampleOrders :
    IsGreatest {deficit | ∃ past, past <+: sortedOrders sampleOrders ∧
        deficit = soldQty past - boughtQty past}
      (extractTradesWithAudit "BTC_USD" sampleOrders).unmatchedExitQuantity :=
  isGreatest_unmatchedExitQuantity "BTC_USD" (by decide +kernel)

/-! ## §5 Which units a trade sells -/

/-- The units of a lot that begins at unit `start` are the last ones of a purchase. -/
def BoughtAt (orders : List Order) (start : ℚ) (lot : BuyLot) : Prop :=
  ∃ before b behind, orders = before ++ b :: behind ∧ b.tradeAction = .buy ∧
    { lot with remainingQty := b.quantity } = lotOf b ∧ boughtQty before ≤ start ∧
    start + lot.remainingQty = boughtQty before + b.quantity

/-- The lots hold the units from unit `start` on, in the order in which they were bought. -/
def Backed (orders : List Order) : ℚ → List BuyLot → Prop
  | start, [] => start = boughtQty orders
  | start, lot :: rest =>
    BoughtAt orders start lot ∧ Backed orders (start + lot.remainingQty) rest

theorem BoughtAt.concat {orders : List Order} {start : ℚ} {lot : BuyLot}
    (h : BoughtAt orders start lot) (order : Order) : BoughtAt (orders ++ [order]) start lot := by
  obtain ⟨before, b, behind, rfl, hrest⟩ := h
  exact ⟨before, b, behind ++ [order], by simp, hrest⟩

/-- A sale takes nothing from the purchases. -/
theorem Backed.concat_sell {orders : List Order} {start : ℚ} {lots : List BuyLot}
    (h : Backed orders start lots) {order : Order} (haction : order.tradeAction = .sell) :
    Backed (orders ++ [order]) start lots := by
  induction lots generalizing start with
  | nil =>
    have hnone : boughtQty [order] = 0 := by simp [boughtQty, haction]
    show start = _
    rw [boughtQty_append, hnone, add_zero]
    exact h
  | cons lot rest ih => exact ⟨h.1.concat order, ih h.2⟩

/-- A purchase goes behind all units that were bought before. -/
theorem Backed.concat_buy {orders : List Order} {start : ℚ} {lots : List BuyLot}
    (h : Backed orders start lots) {order : Order} (haction : order.tradeAction = .buy) :
    Backed (orders ++ [order]) start (lots ++ [lotOf order]) := by
  induction lots generalizing start with
  | nil =>
    obtain rfl : start = boughtQty orders := h
    have hall : boughtQty (orders ++ [order]) = boughtQty orders + order.quantity := by
      simp [boughtQty, haction]
    exact ⟨⟨orders, order, [], rfl, haction, rfl, le_rfl, rfl⟩, hall.symm⟩
  | cons lot rest ih => exact ⟨h.1.concat order, ih h.2⟩

/-- Trades that are laid end to end from unit `start` on satisfy `P`, each at the unit at which
    it begins. -/
def Laid (P : ℚ → Trade → Prop) : ℚ → List Trade → Prop
  | _, [] => True
  | start, trade :: rest => P start trade ∧ Laid P (start + trade.quantity) rest

section Laid

variable {P Q : ℚ → Trade → Prop} {start : ℚ} {trades : List Trade}

theorem Laid.imp (h : Laid P start trades) (himp : ∀ s t, P s t → Q s t) :
    Laid Q start trades := by
  induction trades generalizing start with
  | nil => trivial
  | cons trade rest ih => exact ⟨himp _ _ h.1, ih h.2⟩

theorem Laid.and (hp : Laid P start trades) (hq : Laid Q start trades) :
    Laid (fun s t => P s t ∧ Q s t) start trades := by
  induction trades generalizing start with
  | nil => trivial
  | cons trade rest ih => exact ⟨⟨hp.1, hq.1⟩, ih hp.2 hq.2⟩

theorem Laid.forall_mem (h : Laid P start trades) {R : Trade → Prop}
    (himp : ∀ s t, P s t → R t) : ∀ trade ∈ trades, R trade := by
  induction trades generalizing start with
  | nil => simp
  | cons trade rest ih => exact List.forall_mem_cons.mpr ⟨himp _ _ h.1, ih h.2⟩

theorem laid_append {later : List Trade} :
    Laid P start (trades ++ later) ↔
      Laid P start trades ∧ Laid P (start + tradedQty trades) later := by
  induction trades generalizing start with
  | nil => simp [Laid]
  | cons trade rest ih =>
    rw [List.cons_append, Laid, Laid, ih, tradedQty_cons, and_assoc, add_assoc]

/-- Trades of nonnegative quantities stay between where they begin and where they end. -/
theorem laid_within {low high : ℚ} (hnonneg : ∀ trade ∈ trades, 0 ≤ trade.quantity)
    (hlow : low ≤ start) (hhigh : start + tradedQty trades ≤ high) :
    Laid (fun s t => low ≤ s ∧ s + t.quantity ≤ high) start trades := by
  induction trades generalizing start with
  | nil => trivial
  | cons trade rest ih =>
    obtain ⟨htrade, hrest⟩ := List.forall_mem_cons.mp hnonneg
    have hsum : 0 ≤ tradedQty rest := by
      apply List.sum_nonneg
      intro qty hqty
      obtain ⟨t, ht, rfl⟩ := List.mem_map.mp hqty
      exact hrest t ht
    rw [tradedQty_cons] at hhigh
    exact ⟨⟨hlow, by linarith⟩, ih hrest (by linarith) (by linarith)⟩

/-- The trade behind some of the trades begins where they end. -/
theorem Laid.of_split (h : Laid P start trades) {earlier later : List Trade} {trade : Trade}
    (hsplit : trades = earlier ++ trade :: later) : P (start + tradedQty earlier) trade := by
  rw [hsplit, laid_append] at h
  exact h.2.1

end Laid

/-- What a sale sells from unit `start` on was bought before it, and in one purchase. -/
def BoughtBefore (tickerSymbol : String) (orders : List Order) (exit : Order) (start : ℚ)
    (trade : Trade) : Prop :=
  ∃ before b behind, orders = before ++ b :: behind ∧ b.tradeAction = .buy ∧
    trade = tradeOf tickerSymbol exit (lotOf b) trade.quantity ∧ 0 ≤ trade.quantity ∧
    boughtQty before ≤ start ∧ start + trade.quantity ≤ boughtQty before + b.quantity

theorem BoughtBefore.quantity_nonneg {tickerSymbol : String} {orders : List Order}
    {exit : Order} {start : ℚ} {trade : Trade}
    (h : BoughtBefore tickerSymbol orders exit start trade) : 0 ≤ trade.quantity := by
  obtain ⟨-, -, -, -, -, -, hnonneg, -⟩ := h
  exact hnonneg

theorem BoughtAt.boughtBefore {tickerSymbol : String} {orders : List Order} {start : ℚ}
    {lot : BuyLot} (h : BoughtAt orders start lot) (exit : Order) {matchQty : ℚ}
    (hnonneg : 0 ≤ matchQty) (hle : matchQty ≤ lot.remainingQty) :
    BoughtBefore tickerSymbol orders exit start (tradeOf tickerSymbol exit lot matchQty) := by
  obtain ⟨before, b, behind, rfl, hbuy, hlot, hstart, hend⟩ := h
  have htrade : tradeOf tickerSymbol exit lot matchQty =
      tradeOf tickerSymbol exit (lotOf b) matchQty := by
    rw [← hlot]
    exact (tradeOf_remainingQty tickerSymbol exit lot b.quantity matchQty).symm
  refine ⟨before, b, behind, rfl, hbuy, htrade, hnonneg, hstart, ?_⟩
  show start + matchQty ≤ _
  linarith

/-- The loop of a sale sells the oldest units, one after the other. -/
theorem matchSale_bought (tickerSymbol : String) {orders : List Order} (exit : Order) {q : ℚ}
    (hq : 0 ≤ q) {lots : List BuyLot} (hnone : NoneOverdrawn lots) {start : ℚ}
    (h : Backed orders start lots) :
    let sale := matchSale tickerSymbol exit q lots
    Backed orders (start + tradedQty sale.trades) sale.buyLots ∧
      Laid (BoughtBefore tickerSymbol orders exit) start sale.trades := by
  induction lots generalizing q start with
  | nil => exact ⟨by simpa [matchSale] using h, trivial⟩
  | cons lot rest ih =>
    obtain ⟨hlot, hrest⟩ := noneOverdrawn_cons.mp hnone
    obtain ⟨hbought, hbacked⟩ := h
    intro sale
    by_cases hpos : q > 0
    · rcases le_or_gt lot.remainingQty q with hle | hlt
      · have hsale : sale =
            { matchSale tickerSymbol exit (q - lot.remainingQty) rest with
              trades := tradeOf tickerSymbol exit lot lot.remainingQty ::
                (matchSale tickerSymbol exit (q - lot.remainingQty) rest).trades } := by
          simp only [sale, matchSale, if_pos hpos, min_eq_left hle, sub_self, le_refl, if_true]
        obtain ⟨hlots, htrades⟩ := ih (sub_nonneg.mpr hle) hrest hbacked
        rw [hsale]
        refine ⟨?_, hbought.boughtBefore exit hlot le_rfl, htrades⟩
        rw [add_assoc] at hlots
        simpa only [tradedQty_cons, tradeOf_quantity] using hlots
      · have hkept : ¬ lot.remainingQty - q ≤ 0 := not_le.mpr (sub_pos.mpr hlt)
        have hsale : sale = ⟨{ lot with remainingQty := lot.remainingQty - q } :: rest,
            [tradeOf tickerSymbol exit lot q], q - q⟩ := by
          simp only [sale, matchSale, if_pos hpos, min_eq_right hlt.le, if_neg hkept]
        have hsold : tradedQty [tradeOf tickerSymbol exit lot q] = q := by simp [tradeOf]
        rw [hsale]
        refine ⟨⟨?_, ?_⟩, hbought.boughtBefore exit hq hlt.le, trivial⟩
        · -- the lot that stays begins where the sale has ended
          obtain ⟨before, b, behind, horders, hbuy, heq, hstart, hend⟩ := hbought
          refine ⟨before, b, behind, horders, hbuy, heq, ?_, ?_⟩
          · rw [hsold]
            linarith
          · simp only [hsold]
            linarith
        · have hnext : start + q + (lot.remainingQty - q) = start + lot.remainingQty := by ring
          simpa only [hsold, hnext] using hbacked
    · have hsale : sale = ⟨lot :: rest, [], q⟩ := by simp only [sale, matchSale, if_neg hpos]
      rw [hsale]
      exact ⟨by simpa using ⟨hbought, hbacked⟩, trivial⟩

/-- The units that a trade sells, counted among all that were bought and among all that were
    sold from a lot, lie in one purchase and in one sale behind it; the trade is made from these
    two. -/
def Sourced (tickerSymbol : String) (orders : List Order) (start : ℚ) (trade : Trade) : Prop :=
  ∃ before b between exit behind, orders = before ++ b :: (between ++ exit :: behind) ∧
    b.tradeAction = .buy ∧ exit.tradeAction = .sell ∧
    trade = tradeOf tickerSymbol exit (lotOf b) trade.quantity ∧ 0 ≤ trade.quantity ∧
    boughtQty before ≤ start ∧ start + trade.quantity ≤ boughtQty before + b.quantity ∧
    matchedQty (before ++ b :: between) ≤ start ∧
    start + trade.quantity ≤ matchedQty (before ++ b :: (between ++ [exit]))

theorem Sourced.concat {tickerSymbol : String} {orders : List Order} {start : ℚ} {trade : Trade}
    (h : Sourced tickerSymbol orders start trade) (order : Order) :
    Sourced tickerSymbol (orders ++ [order]) start trade := by
  obtain ⟨before, b, between, exit, behind, rfl, hrest⟩ := h
  exact ⟨before, b, between, exit, behind ++ [order], by simp, hrest⟩

theorem BoughtBefore.sourced {tickerSymbol : String} {orders : List Order} {exit : Order}
    {start : ℚ} {trade : Trade} (h : BoughtBefore tickerSymbol orders exit start trade)
    (hexit : exit.tradeAction = .sell) (hlow : matchedQty orders ≤ start)
    (hhigh : start + trade.quantity ≤ matchedQty (orders ++ [exit])) :
    Sourced tickerSymbol (orders ++ [exit]) start trade := by
  obtain ⟨before, b, behind, rfl, hbuy, htrade, hnonneg, hstart, hend⟩ := h
  exact ⟨before, b, behind, exit, [], by simp, hbuy, hexit, htrade, hnonneg, hstart, hend, hlow,
    by simpa using hhigh⟩

/-- The lots and the trades of a replay are the units bought, in their order. -/
theorem replay_sourced (tickerSymbol : String) {orders : List Order}
    (h : NonnegQuantities orders) :
    Backed orders (matchedQty orders) (replay tickerSymbol orders).buyLots ∧
      Laid (Sourced tickerSymbol orders) 0 (replay tickerSymbol orders).matchedTrades := by
  -- along the orders; the units a sale takes are the next ones in the line of the bought
  induction orders using List.reverseRecOn with
  | nil => exact ⟨by simp [replay, Backed, matchedQty, soldQty, shortfallQty, Stock.after], trivial⟩
  | append_singleton orders order ih =>
    have hinit : NonnegQuantities orders := fun o ho => h o (List.mem_append_left _ ho)
    have hq : 0 ≤ order.quantity := h order (List.mem_append_right _ (List.mem_singleton_self _))
    obtain ⟨hbacked, hlaid⟩ := ih hinit
    have hkept := hlaid.imp fun s t hs => Sourced.concat hs order
    have htraded := replay_traded tickerSymbol hinit
    have htraded' := replay_traded tickerSymbol h
    rw [replay_concat] at htraded' ⊢
    cases haction : order.tradeAction with
    | buy =>
      simp only [extractOrder, haction] at htraded' ⊢
      rw [← htraded', htraded]
      exact ⟨hbacked.concat_buy haction, hkept⟩
    | sell =>
      obtain ⟨hlots, htrades⟩ := matchSale_bought tickerSymbol order hq
        (replay_stock tickerSymbol hinit).1 hbacked
      simp only [extractOrder, haction, tradedQty_append, htraded] at htraded' ⊢
      rw [htraded'] at hlots
      refine ⟨hlots.concat_sell haction, laid_append.mpr ⟨hkept, ?_⟩⟩
      rw [zero_add, htraded]
      have hnonneg := htrades.forall_mem fun s t hs => BoughtBefore.quantity_nonneg hs
      have hwithin := laid_within hnonneg le_rfl htraded'.le
      exact (htrades.and hwithin).imp fun s t hs => hs.1.sourced haction hs.2.1 hs.2.2

/-- **First bought, first sold.**  Line up all units bought and all units sold from a lot, each
    in the order of execution.  The trades of the report cut the line of the units sold into
    pieces, end to end and without a gap; the units of a trade have the same places in the line of
    the units bought, where they lie in one purchase, in front of the sale; and price, fees and
    slippage of the trade are those of this purchase and this sale. -/
theorem extractTrades_sourced (tickerSymbol : String) {orders : List Order}
    (h : NonnegQuantities orders) :
    tradedQty (extractTrades tickerSymbol orders) = matchedQty (sortedOrders orders) ∧
      ∀ earlier trade later,
        extractTrades tickerSymbol orders = earlier ++ trade :: later →
        Sourced tickerSymbol (sortedOrders orders) (tradedQty earlier) trade := by
  have hsorted := nonnegQuantities_sorted h
  refine ⟨replay_traded tickerSymbol hsorted, ?_⟩
  intro earlier trade later hsplit
  have hlaid := (replay_sourced tickerSymbol hsorted).2
  have hplace := hlaid.of_split hsplit
  rwa [zero_add] at hplace

theorem extractTrades_sourced_sampleOrders :
    tradedQty (extractTrades "BTC_USD" sampleOrders) = matchedQty (sortedOrders sampleOrders) ∧
      ∀ earlier trade later,
        extractTrades "BTC_USD" sampleOrders = earlier ++ trade :: later →
        Sourced "BTC_USD" (sortedOrders sampleOrders) (tradedQty earlier) trade :=
  extractTrades_sourced "BTC_USD" (by decide +kernel)

end CryptoTrading.Performance
