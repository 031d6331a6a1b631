import CryptoTrading.Analytics.TradeAttribution
import CryptoTrading.Lib.Grouping
import CryptoTrading.Lib.Rounding
import CryptoTrading.Performance.LotMatching

/-!
# The performance report

Embeds `AssetPerformanceService.compute_metrics` of
`src/server/services/asset_performance_service.py`, with `attribute_by_commit` of
`src/trading/analytics/trade_attribution_service.py`.

The report has a loop of its own over the orders: it matches lots as the extraction does and, on
the way, counts and sums for the summary and for each day.  `computeMetrics_consistent` says how
its parts fit together and fit the extracted trades.

A day stands for its date text, and the text of an amount for the number that it shows: two digits
of a volume or a profit, and four of a fee, to the nearest and to the even one of two.  Left out:
the attribution by strategy, and the four groups of robustness metrics that are computed from the
trades and the orders.
-/

namespace CryptoTrading.Performance

open CryptoTrading.Analytics CryptoTrading.Consensus CryptoTrading.Lib CryptoTrading.Session

/-! ## §1 Rounding -/

/-- `x.quantize(Decimal("0.01"), rounding=ROUND_HALF_UP)`. -/
def toCents (x : ℚ) : ℚ := roundHalfUp (x * 100) / 100

/-- An amount and its cents differ by half a cent at most. -/
theorem abs_toCents_sub_le (x : ℚ) : |toCents x - x| ≤ 1 / 200 := by
  have hclose := abs_scaled_sub_le abs_roundHalfUp_sub_le (by norm_num : (0 : ℚ) < 100) x
  norm_num at hclose ⊢
  exact hclose

/-- The amount is a number of cents. -/
def WholeCents (x : ℚ) : Prop := ∃ n : ℤ, x = n / 100

theorem wholeCents_zero : WholeCents 0 := ⟨0, by norm_num⟩

theorem wholeCents_toCents (x : ℚ) : WholeCents (toCents x) := ⟨roundHalfUp (x * 100), rfl⟩

theorem WholeCents.add {x y : ℚ} (hx : WholeCents x) (hy : WholeCents y) : WholeCents (x + y) := by
  obtain ⟨m, rfl⟩ := hx
  obtain ⟨n, rfl⟩ := hy
  exact ⟨m + n, by push_cast; ring⟩

/-- Cents are shown as they are. -/
theorem WholeCents.roundTo_two {x : ℚ} (h : WholeCents x) : roundTo 2 x = x := by
  obtain ⟨n, rfl⟩ := h
  exact roundTo_of_scaled (n := n) (by ring)

/-! ## §2 The loop over the lots -/

/-- Won and lost amounts, and how many trades there are of each. -/
structure Outcomes where
  grossProfit : ℚ
  grossLoss : ℚ
  winningTrades : ℕ
  losingTrades : ℕ

/-- Count a lot by its net profit; one that breaks even counts nowhere. -/
def Outcomes.add (o : Outcomes) (lotNetPnl : ℚ) : Outcomes :=
  if lotNetPnl > 0 then
    { o with grossProfit := o.grossProfit + lotNetPnl, winningTrades := o.winningTrades + 1 }
  else if lotNetPnl < 0 then
    { o with grossLoss := o.grossLoss + |lotNetPnl|, losingTrades := o.losingTrades + 1 }
  else o

/-- `lot_net_pnl`. -/
def lotNetPnl (order : Order) (lot : BuyLot) (matchQty : ℚ) : ℚ :=
  let grossGain := (fillPriceVal order - lot.buyPrice) * matchQty
  let buyFeePortion := lot.feePerUnit * matchQty
  let sellFeePortion := perUnit (feeVal order) order.quantity * matchQty
  let totalMatchedSlippage := lot.slippagePerUnit * matchQty +
    perUnit (slippageVal order) order.quantity * matchQty
  grossGain - buyFeePortion - sellFeePortion - totalMatchedSlippage

structure ClosedSale where
  buyLots : List BuyLot
  trades : List Trade
  sellPnl : ℚ
  outcomes : Outcomes

/-- The loop over the lots of `compute_metrics`; its recursion is that of `matchSale`. -/
def closeSale (tickerSymbol : String) (order : Order) (remainingSellQty sellPnl : ℚ)
    (outcomes : Outcomes) : List BuyLot → ClosedSale
  | [] => ⟨[], [], sellPnl, outcomes⟩
  | oldestLot :: rest =>
    if remainingSellQty > 0 then
      let matchQty := min oldestLot.remainingQty remainingSellQty
      let lotNet := lotNetPnl order oldestLot matchQty
      let trade := tradeOf tickerSymbol order oldestLot matchQty
      let oldestLot := { oldestLot with remainingQty := oldestLot.remainingQty - matchQty }
      if oldestLot.remainingQty ≤ 0 then
        let tail := closeSale tickerSymbol order (remainingSellQty - matchQty)
          (sellPnl + lotNet) (outcomes.add lotNet) rest
        { tail with trades := trade :: tail.trades }
      else ⟨oldestLot :: rest, [trade], sellPnl + lotNet, outcomes.add lotNet⟩
    else ⟨oldestLot :: rest, [], sellPnl, outcomes⟩

/-! ## §3 The loop over the orders -/

structure DayBucket where
  trades : ℕ
  volume : ℚ
  fees : ℚ
  realizedPnl : ℚ

/-- What the `defaultdict` starts a day with. -/
def DayBucket.empty : DayBucket := ⟨0, 0, 0, 0⟩

structure TradeExecutionItem where
  orderId : String
  timestamp : DateTime
  side : TradeAction
  price : ℚ
  fillPrice : ℚ
  quantity : ℚ
  fees : ℚ
  realizedPnl : Option ℚ

structure Tally where
  buyLots : List BuyLot
  totalVolume : ℚ
  totalFees : ℚ
  totalRealizedPnl : ℚ
  buyCount : ℕ
  sellCount : ℕ
  outcomes : Outcomes
  dailyBuckets : Dict ℤ DayBucket
  matchedTrades : List Trade
  executionItems : List TradeExecutionItem

def Tally.start : Tally where
  buyLots := []
  totalVolume := 0
  totalFees := 0
  totalRealizedPnl := 0
  buyCount := 0
  sellCount := 0
  outcomes := ⟨0, 0, 0, 0⟩
  dailyBuckets := Dict.empty
  matchedTrades := []
  executionItems := []

/-- `exec_dt.strftime("%Y-%m-%d")`, as the number of the day. -/
def dateOf (order : Order) : ℤ := (getExecDt order).microseconds / DateTime.microsecondsPerDay

/-- Update the bucket of a day. -/
def bump (buckets : Dict ℤ DayBucket) (date : ℤ) (update : DayBucket → DayBucket) :
    Dict ℤ DayBucket :=
  buckets.set date (update (buckets.getD date DayBucket.empty))

/-- The body of the loop over the orders. -/
def tallyOrder (tickerSymbol : String) (s : Tally) (order : Order) : Tally :=
  let orderVolume := toCents (order.quantity * fillPriceVal order)
  let date := dateOf order
  let dailyBuckets := bump s.dailyBuckets date fun b =>
    { b with trades := b.trades + 1, volume := b.volume + orderVolume,
             fees := b.fees + feeVal order }
  let s := { s with
    totalVolume := s.totalVolume + orderVolume
    totalFees := s.totalFees + feeVal order
    dailyBuckets := dailyBuckets }
  let item (realizedPnl : Option ℚ) : TradeExecutionItem :=
    { orderId := order.uuid
      timestamp := getExecDt order
      side := order.tradeAction
      price := order.price
      fillPrice := fillPriceVal order
      quantity := order.quantity
      fees := roundTo 4 (feeVal order)
      realizedPnl := realizedPnl.map (roundTo 2) }
  match order.tradeAction with
  | .buy =>
    { s with
      buyCount := s.buyCount + 1
      buyLots := s.buyLots ++ [lotOf order]
      executionItems := s.executionItems ++ [item none] }
  | .sell =>
    let sale := closeSale tickerSymbol order order.quantity 0 s.outcomes s.buyLots
    let orderRealizedPnl := toCents sale.sellPnl
    { s with
      sellCount := s.sellCount + 1
      buyLots := sale.buyLots
      outcomes := sale.outcomes
      matchedTrades := s.matchedTrades ++ sale.trades
      totalRealizedPnl := s.totalRealizedPnl + orderRealizedPnl
      dailyBuckets := bump s.dailyBuckets date fun b =>
        { b with realizedPnl := b.realizedPnl + orderRealizedPnl }
      executionItems := s.executionItems ++ [item (some orderRealizedPnl)] }

def tally (tickerSymbol : String) (sorted : List Order) : Tally :=
  sorted.foldl (tallyOrder tickerSymbol) Tally.start

/-! ## §4 The report -/

structure PerformanceSummary where
  trades : ℕ
  winningTrades : ℕ
  losingTrades : ℕ
  winRate : ℚ
  volume : ℚ
  fees : ℚ
  realizedPnl : ℚ
  averageTradePnl : ℚ
  profitFactor : ℚ
  buyCount : ℕ
  sellCount : ℕ

structure DailyPerformance where
  date : ℤ
  trades : ℕ
  volume : ℚ
  fees : ℚ
  realizedPnl : ℚ

/-- `TradeAttributionService.attribute_by_commit`. -/
def attributeByCommit (trades : List Trade) : Dict String AttributionMetrics :=
  (Dict.groupBy (fun trade : Trade => (orElseStr trade.commitHash (some "UNKNOWN")).getD "UNKNOWN")
    id trades).mapValues calculateMetrics

/-- `from_attribution_metrics`. -/
def fromAttributionMetrics (metrics : AttributionMetrics) : AttributionMetrics :=
  { metrics with
    grossPnl := roundTo 2 metrics.grossPnl
    totalFees := roundTo 4 metrics.totalFees
    totalSlippage := roundTo 4 metrics.totalSlippage
    netPnl := roundTo 2 metrics.netPnl
    maxWin := roundTo 2 metrics.maxWin
    maxLoss := roundTo 2 metrics.maxLoss }

/-- `matchedTrades` is what the attributions and the metrics of the response are computed from. -/
structure AssetPerformanceResponse where
  tickerSymbol : String
  summary : PerformanceSummary
  daily : List DailyPerformance
  trades : List TradeExecutionItem
  commitAttribution : Dict String AttributionMetrics
  matchedTrades : List Trade

/-- `profit_factor`. -/
def profitFactor (o : Outcomes) : ℚ :=
  if o.grossLoss > 0 then roundTo 2 (o.grossProfit / o.grossLoss)
  else if o.grossProfit > 0 then 999
  else 0

def summaryOf (sorted : List Order) (s : Tally) : PerformanceSummary :=
  let totalClosedTrades := s.outcomes.winningTrades + s.outcomes.losingTrades
  { trades := sorted.length
    winningTrades := s.outcomes.winningTrades
    losingTrades := s.outcomes.losingTrades
    winRate :=
      if totalClosedTrades > 0 then
        roundTo 2 ((s.outcomes.winningTrades / totalClosedTrades : ℚ) * 100)
      else 0
    volume := roundTo 2 s.totalVolume
    fees := roundTo 4 s.totalFees
    realizedPnl := roundTo 2 s.totalRealizedPnl
    averageTradePnl := roundTo 2
      (if totalClosedTrades > 0 then toCents (s.totalRealizedPnl / totalClosedTrades) else 0)
    profitFactor := profitFactor s.outcomes
    buyCount := s.buyCount
    sellCount := s.sellCount }

/-- `daily_list`, in the order of the dates. -/
def dailyOf (buckets : Dict ℤ DayBucket) : List DailyPerformance :=
  (buckets.entries.mergeSort fun a b => a.1 ≤ b.1).map fun e =>
    ⟨e.1, e.2.trades, roundTo 2 e.2.volume, roundTo 4 e.2.fees, roundTo 2 e.2.realizedPnl⟩

/-- `AssetPerformanceService.compute_metrics`. -/
def computeMetrics (tickerSymbol : String) (orders : List Order) : AssetPerformanceResponse :=
  let sorted := sortedOrders orders
  let s := tally tickerSymbol sorted
  { tickerSymbol := tickerSymbol
    summary := summaryOf sorted s
    daily := dailyOf s.dailyBuckets
    trades := s.executionItems
    commitAttribution := (attributeByCommit s.matchedTrades).mapValues fromAttributionMetrics
    matchedTrades := s.matchedTrades }

/-! ## §5 The loop of the report against the replay -/

theorem lotNetPnl_eq (tickerSymbol : String) (order : Order) (lot : BuyLot) (matchQty : ℚ) :
    lotNetPnl order lot matchQty = (tradeOf tickerSymbol order lot matchQty).netPnl := by
  simp only [lotNetPnl, tradeOf]
  ring

/-- The net profit of trades. -/
def netPnlOf (trades : List Trade) : ℚ := (trades.map Trade.netPnl).sum

theorem netPnlOf_append (xs ys : List Trade) :
    netPnlOf (xs ++ ys) = netPnlOf xs + netPnlOf ys := by
  simp [netPnlOf]

/-- The outcomes of trades, added to some. -/
def Outcomes.addAll (o : Outcomes) (trades : List Trade) : Outcomes :=
  trades.foldl (fun o trade => o.add trade.netPnl) o

/-- **The two loops over the lots are the same matching.**  The one of the report sums the net
    profits on the way. -/
theorem closeSale_eq (tickerSymbol : String) (order : Order) (q sellPnl : ℚ)
    (outcomes : Outcomes) (lots : List BuyLot) :
    let sale := matchSale tickerSymbol order q lots
    closeSale tickerSymbol order q sellPnl outcomes lots =
      ⟨sale.buyLots, sale.trades, sellPnl + netPnlOf sale.trades,
        outcomes.addAll sale.trades⟩ := by
  induction lots generalizing q sellPnl outcomes with
  | nil => simp [closeSale, matchSale, netPnlOf, Outcomes.addAll]
  | cons lot rest ih =>
    simp only [closeSale, matchSale]
    by_cases hpos : q > 0
    · simp only [if_pos hpos]
      by_cases hused : lot.remainingQty - min lot.remainingQty q ≤ 0
      · simp only [if_pos hused, ih, lotNetPnl_eq tickerSymbol]
        simp only [netPnlOf, Outcomes.addAll, List.map_cons, List.sum_cons, List.foldl_cons,
          add_assoc]
      · simp only [if_neg hused, lotNetPnl_eq tickerSymbol]
        simp [netPnlOf, Outcomes.addAll]
    · simp [if_neg hpos, netPnlOf, Outcomes.addAll]

/-- The trades that the outcomes count, and the amount between won and lost. -/
theorem Outcomes.addAll_counts (o : Outcomes) (trades : List Trade) :
    (o.addAll trades).winningTrades =
        o.winningTrades + trades.countP (fun trade => 0 < trade.netPnl) ∧
      (o.addAll trades).losingTrades =
        o.losingTrades + trades.countP (fun trade => trade.netPnl < 0) ∧
      (o.addAll trades).grossProfit - (o.addAll trades).grossLoss =
        o.grossProfit - o.grossLoss + netPnlOf trades := by
  induction trades generalizing o with
  | nil => simp [Outcomes.addAll, netPnlOf]
  | cons trade rest ih =>
    obtain ⟨hwon, hlost, hnet⟩ := ih (o.add trade.netPnl)
    have hstep : o.addAll (trade :: rest) = (o.add trade.netPnl).addAll rest := rfl
    have hsum : netPnlOf (trade :: rest) = trade.netPnl + netPnlOf rest := by simp [netPnlOf]
    rw [hstep, hwon, hlost, hnet, hsum, List.countP_cons, List.countP_cons]
    rcases lt_trichotomy trade.netPnl 0 with hneg | hzero | hpos
    · simp only [Outcomes.add, hneg, hneg.not_gt, if_true, if_false, decide_true, decide_false,
        abs_of_neg hneg, Bool.false_eq_true]
      refine ⟨by omega, by omega, by ring⟩
    · simp [Outcomes.add, hzero]
    · simp only [Outcomes.add, hpos, hpos.not_gt, if_true, if_false, decide_true, decide_false,
        Bool.false_eq_true]
      refine ⟨by omega, by omega, by ring⟩

/-- An update that raises an amount of a day raises the sum of the days by as much. -/
theorem sumBy_bump {M : Type} [AddCommGroup M] (buckets : Dict ℤ DayBucket) (date : ℤ)
    {update : DayBucket → DayBucket} {amount : DayBucket → M} {x : M}
    (hempty : amount DayBucket.empty = 0)
    (hupdate : ∀ b, amount (update b) = amount b + x) :
    (bump buckets date update).sumBy (fun _ b => amount b) =
      buckets.sumBy (fun _ b => amount b) + x := by
  unfold bump
  rw [Dict.sumBy_set, hupdate]
  unfold Dict.getD
  cases buckets.get? date with
  | none =>
    simp only [Option.elim_none, Option.getD_none, hempty]
    abel
  | some b =>
    simp only [Option.elim_some, Option.getD_some]
    abel

/-- What the days add up to. -/
structure DaysAdd (buckets : Dict ℤ DayBucket) (trades : ℕ) (volume fees realizedPnl : ℚ) :
    Prop where
  trades : (buckets.sumBy fun _ b => (b.trades : ℤ)) = trades
  volume : (buckets.sumBy fun _ b => b.volume) = volume
  fees : (buckets.sumBy fun _ b => b.fees) = fees
  realizedPnl : (buckets.sumBy fun _ b => b.realizedPnl) = realizedPnl

/-- The state of the loop after some orders. -/
structure Tallied (tickerSymbol : String) (orders : List Order) (s : Tally) : Prop where
  buyLots : s.buyLots = (replay tickerSymbol orders).buyLots
  matchedTrades : s.matchedTrades = (replay tickerSymbol orders).matchedTrades
  outcomes : s.outcomes = (⟨0, 0, 0, 0⟩ : Outcomes).addAll s.matchedTrades
  counts : s.buyCount + s.sellCount = orders.length
  days : DaysAdd s.dailyBuckets orders.length s.totalVolume s.totalFees s.totalRealizedPnl
  realized : |s.totalRealizedPnl - netPnlOf s.matchedTrades| ≤ s.sellCount / 200

section Days

variable {buckets : Dict ℤ DayBucket} {trades : ℕ} {volume fees realizedPnl : ℚ}

theorem DaysAdd.order (h : DaysAdd buckets trades volume fees realizedPnl) (date : ℤ) (x y : ℚ) :
    DaysAdd (bump buckets date fun b =>
        { b with trades := b.trades + 1, volume := b.volume + x, fees := b.fees + y })
      (trades + 1) (volume + x) (fees + y) realizedPnl := by
  refine ⟨?_, ?_, ?_, ?_⟩
  · rw [sumBy_bump (x := 1) buckets date rfl fun b => Nat.cast_succ b.trades, h.trades]
    exact (Nat.cast_succ trades).symm
  · rw [sumBy_bump buckets date rfl fun b => rfl, h.volume]
  · rw [sumBy_bump buckets date rfl fun b => rfl, h.fees]
  · rw [sumBy_bump buckets date rfl fun b => (add_zero _).symm, h.realizedPnl, add_zero]

theorem DaysAdd.sale (h : DaysAdd buckets trades volume fees realizedPnl) (date : ℤ) (x : ℚ) :
    DaysAdd (bump buckets date fun b => { b with realizedPnl := b.realizedPnl + x })
      trades volume fees (realizedPnl + x) := by
  refine ⟨?_, ?_, ?_, ?_⟩
  · rw [sumBy_bump buckets date rfl fun b => (add_zero _).symm, h.trades, add_zero]
  · rw [sumBy_bump buckets date rfl fun b => (add_zero _).symm, h.volume, add_zero]
  · rw [sumBy_bump buckets date rfl fun b => (add_zero _).symm, h.fees, add_zero]
  · rw [sumBy_bump buckets date rfl fun b => rfl, h.realizedPnl]

end Days

/-- One order is tallied as it is replayed. -/
theorem Tallied.tallyOrder {tickerSymbol : String} {orders : List Order} {s : Tally}
    (h : Tallied tickerSymbol orders s) (order : Order) :
    Tallied tickerSymbol (orders ++ [order]) (tallyOrder tickerSymbol s order) := by
  have hcounts := h.counts
  have hdays := h.days.order (dateOf order) (toCents (order.quantity * fillPriceVal order))
    (feeVal order)
  have hlength : (orders ++ [order]).length = orders.length + 1 := by simp
  unfold Performance.tallyOrder
  cases haction : order.tradeAction with
  | buy =>
    refine ⟨?_, ?_, h.outcomes, ?_, ?_, h.realized⟩
    · simp only [replay_concat, extractOrder, haction, h.buyLots]
    · simp only [replay_concat, extractOrder, haction, h.matchedTrades]
    · simp only [hlength]
      omega
    · rw [hlength]
      exact hdays
  | sell =>
    have hclose := closeSale_eq tickerSymbol order order.quantity 0 s.outcomes s.buyLots
    simp only [hclose]
    refine ⟨?_, ?_, ?_, ?_, ?_, ?_⟩
    · simp only [replay_concat, extractOrder, haction, h.buyLots]
    · simp only [replay_concat, extractOrder, haction, h.buyLots, h.matchedTrades]
    · rw [Outcomes.addAll, Outcomes.addAll, List.foldl_append]
      exact congrArg (fun o => Outcomes.addAll o _) h.outcomes
    · simp only [hlength]
      omega
    · rw [hlength]
      exact hdays.sale (dateOf order) _
    · -- the cents of this sale add half a cent at most
      have hcents := abs_toCents_sub_le
        (0 + netPnlOf (matchSale tickerSymbol order order.quantity s.buyLots).trades)
      have hreal := h.realized
      rw [abs_le] at hcents hreal ⊢
      simp only [netPnlOf_append]
      push_cast
      constructor <;> linarith

theorem tallied (tickerSymbol : String) (orders : List Order) :
    Tallied tickerSymbol orders (tally tickerSymbol orders) := by
  induction orders using List.reverseRecOn with
  | nil =>
    refine ⟨rfl, rfl, rfl, rfl, ⟨rfl, rfl, rfl, rfl⟩, ?_⟩
    simp [tally, Tally.start, netPnlOf]
  | append_singleton orders order ih =>
    have hstep : tally tickerSymbol (orders ++ [order]) =
        tallyOrder tickerSymbol (tally tickerSymbol orders) order := by
      rw [tally, List.foldl_append]
      rfl
    rw [hstep]
    exact ih.tallyOrder order

/-! ## §6 Amounts in cents -/

/-- Volumes and profits are sums of cents. -/
structure InCents (s : Tally) : Prop where
  totalVolume : WholeCents s.totalVolume
  totalRealizedPnl : WholeCents s.totalRealizedPnl
  days : ∀ date b, s.dailyBuckets.get? date = some b →
    WholeCents b.volume ∧ WholeCents b.realizedPnl

/-- What holds of the start of a day, and is kept by an update, holds of all days after it. -/
theorem forall_bump {P : DayBucket → Prop} {buckets : Dict ℤ DayBucket}
    (hempty : P DayBucket.empty) (hdays : ∀ date b, buckets.get? date = some b → P b)
    {update : DayBucket → DayBucket} (hupdate : ∀ b, P b → P (update b)) (date : ℤ) :
    ∀ date' b, (bump buckets date update).get? date' = some b → P b := by
  intro date' b hget
  rw [bump, Dict.get?_set] at hget
  split at hget
  case isTrue =>
    obtain rfl := Option.some.inj hget
    apply hupdate
    unfold Dict.getD
    cases hday : buckets.get? date with
    | none => exact hempty
    | some day => exact hdays date day hday
  case isFalse => exact hdays date' b hget

theorem InCents.tallyOrder {s : Tally} (h : InCents s) (tickerSymbol : String) (order : Order) :
    InCents (tallyOrder tickerSymbol s order) := by
  have hvolume := wholeCents_toCents (order.quantity * fillPriceVal order)
  have hdays : ∀ date b, (bump s.dailyBuckets (dateOf order) fun b =>
      { b with trades := b.trades + 1,
               volume := b.volume + toCents (order.quantity * fillPriceVal order),
               fees := b.fees + feeVal order }).get? date = some b →
      WholeCents b.volume ∧ WholeCents b.realizedPnl := by
    refine forall_bump ⟨wholeCents_zero, wholeCents_zero⟩ h.days ?_ (dateOf order)
    exact fun b hb => ⟨hb.1.add hvolume, hb.2⟩
  unfold Performance.tallyOrder
  cases order.tradeAction with
  | buy => exact ⟨h.totalVolume.add hvolume, h.totalRealizedPnl, hdays⟩
  | sell =>
    -- the day of a sale is updated a second time, by its profit
    have hprofit := wholeCents_toCents
      (closeSale tickerSymbol order order.quantity 0 s.outcomes s.buyLots).sellPnl
    refine ⟨h.totalVolume.add hvolume, h.totalRealizedPnl.add hprofit, ?_⟩
    refine forall_bump ⟨wholeCents_zero, wholeCents_zero⟩ hdays ?_ (dateOf order)
    exact fun b hb => ⟨hb.1, hb.2.add hprofit⟩

theorem inCents (tickerSymbol : String) (orders : List Order) :
    InCents (tally tickerSymbol orders) := by
  induction orders using List.reverseRecOn with
  | nil => exact ⟨wholeCents_zero, wholeCents_zero, fun date b hget => by cases hget⟩
  | append_singleton orders order ih =>
    rw [tally, List.foldl_append]
    exact ih.tallyOrder tickerSymbol order

/-! ## §7 The parts of the report -/

/-- How the parts of a report fit together and fit the trades of the orders. -/
structure Consistent (tickerSymbol : String) (orders : List Order)
    (r : AssetPerformanceResponse) : Prop where
  matchedTrades : r.matchedTrades = extractTrades tickerSymbol orders
  trades : r.summary.trades = orders.length
  counts : r.summary.buyCount + r.summary.sellCount = r.summary.trades
  winningTrades : r.summary.winningTrades = r.matchedTrades.countP fun trade => 0 < trade.netPnl
  losingTrades : r.summary.losingTrades = r.matchedTrades.countP fun trade => trade.netPnl < 0
  /-- Each order is rounded to cents once, by half a cent at most. -/
  realizedPnl : |r.summary.realizedPnl - netPnlOf r.matchedTrades| ≤ r.summary.sellCount / 200
  dates : r.daily.Pairwise fun a b => a.date < b.date
  dailyTrades : (r.daily.map fun day => (day.trades : ℤ)).sum = r.summary.trades
  dailyVolume : (r.daily.map (·.volume)).sum = r.summary.volume
  /-- The fees of each day are rounded to four digits, and so is their total. -/
  dailyFees : |(r.daily.map (·.fees)).sum - r.summary.fees| ≤ (r.daily.length + 1) / 20000
  dailyRealizedPnl : (r.daily.map (·.realizedPnl)).sum = r.summary.realizedPnl
  commitTrades : (r.commitAttribution.sumBy fun _ m => (m.totalTrades : ℤ)) =
    r.matchedTrades.length
  /-- The profit of each commit is rounded to cents. -/
  commitNetPnl : |(r.commitAttribution.sumBy fun _ m => m.netPnl) - netPnlOf r.matchedTrades| ≤
    r.commitAttribution.entries.length / 200

/-- The days in their order have the sums of the buckets. -/
theorem sum_dailyOf {M : Type} [AddCommGroup M] (buckets : Dict ℤ DayBucket)
    (amount : DailyPerformance → M) :
    ((dailyOf buckets).map amount).sum =
      buckets.sumBy fun date b =>
        amount ⟨date, b.trades, roundTo 2 b.volume, roundTo 4 b.fees, roundTo 2 b.realizedPnl⟩ := by
  rw [dailyOf, List.map_map]
  exact ((List.mergeSort_perm _ _).map _).sum_eq

theorem pairwise_dailyOf (buckets : Dict ℤ DayBucket) :
    (dailyOf buckets).Pairwise fun a b => a.date < b.date := by
  rw [dailyOf, List.pairwise_map]
  have hsorted := @List.pairwise_mergeSort _ (fun a b : ℤ × DayBucket => decide (a.1 ≤ b.1))
    (fun a b c hab hbc => by simp only [decide_eq_true_eq] at *; omega)
    (fun a b => by simp only [Bool.or_eq_true, decide_eq_true_eq]; omega) buckets.entries
  have hnodup : ((buckets.entries.mergeSort fun a b => a.1 ≤ b.1).map Prod.fst).Nodup :=
    ((List.mergeSort_perm _ _).map Prod.fst).nodup_iff.mpr buckets.nodupKeys
  rw [List.Nodup, List.pairwise_map] at hnodup
  refine (hsorted.and hnodup).imp ?_
  rintro a b ⟨hle, hne⟩
  exact lt_of_le_of_ne (of_decide_eq_true hle) hne

theorem calculateMetrics_totalTrades (trades : List Trade) :
    (calculateMetrics trades).totalTrades = trades.length := by
  unfold calculateMetrics
  split
  · rename_i hnil
    rw [hnil]
    rfl
  · rfl

/-- An amount of the metrics that is a sum of the trades', summed by commit. -/
theorem sumBy_attributeByCommit {M : Type} [AddCommGroup M] {amount : AttributionMetrics → M}
    {f : Trade → M} (hamount : ∀ trades, amount (calculateMetrics trades) = (trades.map f).sum)
    (trades : List Trade) :
    ((attributeByCommit trades).sumBy fun _ m => amount m) = (trades.map f).sum := by
  rw [attributeByCommit, Dict.sumBy_mapValues]
  simp only [hamount]
  exact Dict.sumBy_groupBy _ id f trades

/-- An amount of the days that is shown as it is. -/
theorem sum_dailyOf_exact {buckets : Dict ℤ DayBucket} {shown : DailyPerformance → ℚ}
    {amount : DayBucket → ℚ}
    (h : ∀ date b, buckets.get? date = some b →
      shown ⟨date, b.trades, roundTo 2 b.volume, roundTo 4 b.fees, roundTo 2 b.realizedPnl⟩ =
        amount b) :
    ((dailyOf buckets).map shown).sum = buckets.sumBy fun _ b => amount b := by
  rw [sum_dailyOf]
  unfold Dict.sumBy
  congr 1
  apply List.map_congr_left
  exact fun e he => h e.1 e.2 ((Dict.get?_eq_some_iff _ _ _).mpr he)

/-- Fees of the days, each rounded, against their rounded total. -/
theorem dailyFees_close (buckets : Dict ℤ DayBucket) :
    |((dailyOf buckets).map (·.fees)).sum - roundTo 4 (buckets.sumBy fun _ b => b.fees)| ≤
      ((dailyOf buckets).length + 1) / 20000 := by
  have hdays := abs_sum_map_sub_le (fun e : ℤ × DayBucket => abs_roundTo_sub_le 4 e.2.fees)
    buckets.entries
  have htotal := abs_roundTo_sub_le 4 (buckets.sumBy fun _ b => b.fees)
  have hlength : (dailyOf buckets).length = buckets.entries.length := by
    rw [dailyOf, List.length_map, (List.mergeSort_perm _ _).length_eq]
  rw [sum_dailyOf, hlength]
  unfold Dict.sumBy at htotal ⊢
  rw [abs_le] at hdays htotal ⊢
  constructor <;> linarith [hdays.1, hdays.2, htotal.1, htotal.2]

/-- Profits of the commits, each rounded. -/
theorem commitNetPnl_close (trades : List Trade) :
    |(((attributeByCommit trades).mapValues fromAttributionMetrics).sumBy fun _ m => m.netPnl) -
        netPnlOf trades| ≤
      ((attributeByCommit trades).mapValues fromAttributionMetrics).entries.length / 200 := by
  have hexact := sumBy_attributeByCommit
    (fun trades => (calculateMetrics_amounts trades).1) trades
  have hclose := abs_sum_map_sub_le
    (fun e : String × AttributionMetrics => abs_roundTo_sub_le 2 e.2.netPnl)
    (attributeByCommit trades).entries
  have hlength : ((attributeByCommit trades).mapValues fromAttributionMetrics).entries.length =
      (attributeByCommit trades).entries.length := by
    rw [Dict.mapValues, List.length_map]
  rw [Dict.sumBy_mapValues, hlength, netPnlOf, ← hexact]
  unfold Dict.sumBy
  calc
    _ ≤ ((attributeByCommit trades).entries.length : ℚ) * (1 / (2 * 10 ^ 2)) := hclose
    _ = _ := by ring

/-- **The report is consistent.**  Whatever the orders: the trades it is computed from are the
    extracted ones; the summary counts each order once and each trade by its net profit; the
    realized profit is that of the trades up to half a cent for each sale.  The days, one for each
    date and in order, add up to the summary, and the commits to the trades: counts, volumes and
    realized profits of days exactly, the fees of days and the profits of commits up to what the
    rounding of each and of the total went. -/
theorem computeMetrics_consistent (tickerSymbol : String) (orders : List Order) :
    Consistent tickerSymbol orders (computeMetrics tickerSymbol orders) := by
  have h := tallied tickerSymbol (sortedOrders orders)
  have hcents := inCents tickerSymbol (sortedOrders orders)
  have hlength : (sortedOrders orders).length = orders.length :=
    (List.mergeSort_perm _ _).length_eq
  have hvolume := hcents.totalVolume.roundTo_two
  have hprofit := hcents.totalRealizedPnl.roundTo_two
  obtain ⟨hwon, hlost, -⟩ := Outcomes.addAll_counts ⟨0, 0, 0, 0⟩
    (tally tickerSymbol (sortedOrders orders)).matchedTrades
  rw [← h.outcomes, zero_add] at hwon hlost
  exact
    { matchedTrades := h.matchedTrades
      trades := hlength
      counts := h.counts
      winningTrades := hwon
      losingTrades := hlost
      realizedPnl := by
        have hclose := h.realized
        rwa [← hprofit] at hclose
      dates := pairwise_dailyOf _
      dailyTrades := (sum_dailyOf _ _).trans h.days.trades
      dailyVolume := by
        refine ((sum_dailyOf_exact fun date b hget => ?_).trans h.days.volume).trans hvolume.symm
        exact (hcents.days date b hget).1.roundTo_two
      dailyFees := by
        have hclose := dailyFees_close (tally tickerSymbol (sortedOrders orders)).dailyBuckets
        rwa [h.days.fees] at hclose
      dailyRealizedPnl := by
        refine ((sum_dailyOf_exact fun date b hget => ?_).trans h.days.realizedPnl).trans
          hprofit.symm
        exact (hcents.days date b hget).2.roundTo_two
      commitTrades := by
        have hcount : ∀ trades : List Trade, ((calculateMetrics trades).totalTrades : ℤ) =
            (trades.map fun _ => (1 : ℤ)).sum := by
          intro trades
          simp [calculateMetrics_totalTrades]
        refine (Dict.sumBy_mapValues _ _ _).trans ((sumBy_attributeByCommit hcount _).trans ?_)
        simp [computeMetrics]
      commitNetPnl := commitNetPnl_close _ }

end CryptoTrading.Performance
