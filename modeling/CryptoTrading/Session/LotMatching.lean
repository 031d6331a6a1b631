import Mathlib.Algebra.BigOperators.Ring.List
import CryptoTrading.Session.CashFlow

/-!
# What a FIFO match takes from the lots

`FifoTradeMatcher.match_lots` is a `while` loop over a list of lots that it changes in
place.  Here the loop is written pass by pass, shown to end with the recursion of the
model, and the match is described by what it takes from each lot:

- lots from the front are taken whole, at most the next one in part;
- every taken quantity becomes one trade, in the order of the lots;
- quantity, fees and slippage of the exit are shared out among the trades.
-/

namespace CryptoTrading.Session

namespace FifoTradeMatcher

/-! ## §1 The loop, pass by pass -/

/-- One pass of the `while` loop of `match_lots`; `none` when its condition fails. -/
def pass (exit : Exit) (m : Matched) : Option Matched :=
  match m.lots with
  | [] => none
  | lot :: rest =>
    if m.sellRemaining > 0 then
      let matchedQty := min m.sellRemaining lot.remainingQuantity
      let left := lot.remainingQuantity - matchedQty
      some
        { lots := if left ≤ 0 then rest else { lot with remainingQuantity := left } :: rest
          trades := m.trades ++ [Trade.create lot exit matchedQty]
          sellRemaining := m.sellRemaining - matchedQty }
    else none

/-- The loop with a bound on its passes; `none` when the bound is reached. -/
def loop (exit : Exit) : ℕ → Matched → Option Matched
  | 0, _ => none
  | fuel + 1, m =>
    match pass exit m with
    | none => some m
    | some m' => loop exit fuel m'

/-- The loop makes at most one pass for each lot and ends with what the recursion finds. -/
theorem loop_eq (exit : Exit) (trades : List Trade) (q : ℚ) {lots : List PositionLot} {fuel : ℕ}
    (hfuel : lots.length < fuel) :
    loop exit fuel ⟨lots, trades, q⟩ =
      some ⟨(matchFrom exit q lots).lots, trades ++ (matchFrom exit q lots).trades,
        (matchFrom exit q lots).sellRemaining⟩ := by
  induction lots generalizing trades q fuel with
  | nil =>
    obtain ⟨n, rfl⟩ := Nat.exists_eq_succ_of_ne_zero (Nat.ne_of_gt hfuel)
    simp [loop, pass, matchFrom]
  | cons lot rest ih =>
    obtain ⟨n, rfl⟩ := Nat.exists_eq_succ_of_ne_zero (Nat.ne_zero_of_lt hfuel)
    have hrest : rest.length < n := by simpa using hfuel
    by_cases hpos : q > 0
    · simp only [loop, pass, matchFrom, if_pos hpos]
      by_cases hused : lot.remainingQuantity - min q lot.remainingQuantity ≤ 0
      · simp only [if_pos hused]
        rw [ih _ _ hrest]
        simp
      · -- the lot stays, nothing is left to sell, and the condition fails next time
        simp only [if_neg hused]
        obtain ⟨k, rfl⟩ := Nat.exists_eq_succ_of_ne_zero (Nat.ne_zero_of_lt hrest)
        simp [loop, pass, sellRemaining_of_lot_kept (not_le.mp hused)]
    · simp [loop, pass, matchFrom, hpos]

/-! ## §2 What is taken from each lot -/

/-- A lot as the exit found it, and the quantity taken from it. -/
structure Take where
  lot : PositionLot
  matchedQty : ℚ
  deriving DecidableEq

/-- The trade made of it. -/
def Take.trade (exit : Exit) (t : Take) : Trade := Trade.create t.lot exit t.matchedQty

/-- The exit fee passed to `Trade.create`. -/
def Take.exitFee (exit : Exit) (t : Take) : ℚ := perUnit exit.fee exit.quantity * t.matchedQty

/-- The exit slippage in the slippage passed to `Trade.create`. -/
def Take.exitSlippage (exit : Exit) (t : Take) : ℚ :=
  perUnit exit.slippage exit.quantity * t.matchedQty

/-- All of what is left of a lot. -/
def Take.whole (lot : PositionLot) : Take := ⟨lot, lot.remainingQuantity⟩

/-- The takes empty lots from the front, and then at most part of the first lot that stays. -/
inductive TakenInOrder : List PositionLot → List Take → List PositionLot → Prop
  | whole (used kept : List PositionLot) : TakenInOrder (used ++ kept) (used.map Take.whole) kept
  | part (used : List PositionLot) (lot : PositionLot) (rest : List PositionLot) (q : ℚ)
      (hpos : 0 < q) (hlt : q < lot.remainingQuantity) :
      TakenInOrder (used ++ lot :: rest) (used.map Take.whole ++ [⟨lot, q⟩])
        ({ lot with remainingQuantity := lot.remainingQuantity - q } :: rest)

/-- A lot taken whole before all others. -/
theorem TakenInOrder.cons {lots : List PositionLot} {takes : List Take}
    {kept : List PositionLot} (h : TakenInOrder lots takes kept) (lot : PositionLot) :
    TakenInOrder (lot :: lots) (Take.whole lot :: takes) kept := by
  cases h with
  | whole used => exact .whole (lot :: used) kept
  | part used l rest q hpos hlt => exact .part (lot :: used) l rest q hpos hlt

/-- The quantity of all takes. -/
def takenQuantity (takes : List Take) : ℚ := (takes.map (·.matchedQty)).sum

theorem heldQuantity_append (xs ys : List PositionLot) :
    heldQuantity (xs ++ ys) = heldQuantity xs + heldQuantity ys := by
  simp [heldQuantity]

theorem takenQuantity_whole (used : List PositionLot) :
    takenQuantity (used.map Take.whole) = heldQuantity used := by
  simp [takenQuantity, heldQuantity, Take.whole, Function.comp_def]

/-- What is taken is what the lots lose. -/
theorem TakenInOrder.takenQuantity_eq {lots : List PositionLot} {takes : List Take}
    {kept : List PositionLot} (h : TakenInOrder lots takes kept) :
    takenQuantity takes = heldQuantity lots - heldQuantity kept := by
  cases h with
  | whole used =>
    rw [takenQuantity_whole, heldQuantity_append]
    ring
  | part used lot rest q =>
    have hconcat : takenQuantity (used.map Take.whole ++ [⟨lot, q⟩]) = heldQuantity used + q := by
      rw [← takenQuantity_whole]
      simp [takenQuantity]
    rw [hconcat, heldQuantity_append, heldQuantity_cons, heldQuantity_cons]
    ring

/-- A quantity shared out at a fixed rate. -/
theorem sum_rate (rate : ℚ) (takes : List Take) :
    (takes.map fun t => rate * t.matchedQty).sum = rate * takenQuantity takes := by
  rw [takenQuantity, List.sum_map_mul_left]

/-- The takes behind a match. -/
structure Explains (exit : Exit) (q : ℚ) (lots : List PositionLot) (out : Matched)
    (takes : List Take) : Prop where
  inOrder : TakenInOrder lots takes out.lots
  trades_eq : out.trades = takes.map (Take.trade exit)
  sellRemaining_eq : out.sellRemaining = q - takenQuantity takes
  sellRemaining_nonneg : 0 ≤ out.sellRemaining
  exhausted : 0 < out.sellRemaining → out.lots = []

/-- Every match of open lots is explained by takes in their order. -/
theorem exists_explains (exit : Exit) {q : ℚ} (hq : 0 ≤ q) {lots : List PositionLot}
    (hopen : LotsOpen lots) : ∃ takes, Explains exit q lots (matchFrom exit q lots) takes := by
  induction lots generalizing q with
  | nil => exact ⟨[], .whole [] [], rfl, by simp [matchFrom, takenQuantity], hq, fun _ => rfl⟩
  | cons lot rest ih =>
    obtain ⟨hlot, hrest⟩ := lotsOpen_cons.mp hopen
    by_cases hpos : q > 0
    · by_cases hle : lot.remainingQuantity ≤ q
      · -- the lot is used up
        obtain ⟨takes, h⟩ := ih (sub_nonneg.mpr hle) hrest
        have hmin : min q lot.remainingQuantity = lot.remainingQuantity := min_eq_right hle
        have hrun : matchFrom exit q (lot :: rest) =
            { matchFrom exit (q - lot.remainingQuantity) rest with
              trades := Trade.create lot exit lot.remainingQuantity ::
                (matchFrom exit (q - lot.remainingQuantity) rest).trades } := by
          simp [matchFrom, hpos, hmin]
        rw [hrun]
        refine ⟨Take.whole lot :: takes, h.inOrder.cons lot, ?_, ?_, h.sellRemaining_nonneg,
          h.exhausted⟩
        · simp only [h.trades_eq, List.map_cons]
          rfl
        · have hsum : takenQuantity (Take.whole lot :: takes) =
              lot.remainingQuantity + takenQuantity takes := by simp [takenQuantity, Take.whole]
          simp only [h.sellRemaining_eq, hsum]
          ring
      · -- the lot covers the rest of the exit and stays with what it has left
        have hlt : q < lot.remainingQuantity := not_le.mp hle
        have hmin : min q lot.remainingQuantity = q := min_eq_left hlt.le
        have hrun : matchFrom exit q (lot :: rest) =
            ⟨{ lot with remainingQuantity := lot.remainingQuantity - q } :: rest,
              [Trade.create lot exit q], 0⟩ := by
          simp [matchFrom, hpos, hmin, hlt]
        rw [hrun]
        exact ⟨[⟨lot, q⟩], .part [] lot rest q hpos hlt, rfl, by simp [takenQuantity], le_rfl,
          fun h => absurd h (lt_irrefl 0)⟩
    · -- nothing to sell
      have hzero : q = 0 := le_antisymm (not_lt.mp hpos) hq
      have hrun : matchFrom exit q (lot :: rest) = ⟨lot :: rest, [], q⟩ := by
        simp [matchFrom, hpos]
      rw [hrun]
      exact ⟨[], .whole [] (lot :: rest), rfl, by simp [takenQuantity], hq,
        fun h => absurd h hpos⟩

/-! ## §3 Conservation -/

/-- The result of matching an exit against lots conserves quantity, fees and slippage. -/
structure Conserves (lots : List PositionLot) (exit : Exit) (out : Matched)
    (takes : List Take) : Prop where
  /-- The traded quantities are the exit quantity less the remainder. -/
  traded : (out.trades.map (·.quantity)).sum = exit.quantity - out.sellRemaining
  /-- So is the quantity that the lots have lost. -/
  lost : heldQuantity lots - heldQuantity out.lots = exit.quantity - out.sellRemaining
  remainder_nonneg : 0 ≤ out.sellRemaining
  /-- A remainder is left only when no lot is. -/
  remainder : 0 < out.sellRemaining → out.lots = []
  /-- Lots are used up from the front, at most the first remaining one is used in part. -/
  inOrder : TakenInOrder lots takes out.lots
  /-- The trades follow the lots. -/
  trades : out.trades = takes.map (Take.trade exit)
  exitFees : (takes.map (Take.exitFee exit)).sum =
    exit.fee * (exit.quantity - out.sellRemaining) / exit.quantity
  exitSlippages : (takes.map (Take.exitSlippage exit)).sum =
    exit.slippage * (exit.quantity - out.sellRemaining) / exit.quantity
  fees : ∀ t ∈ takes, (t.trade exit).fees = t.lot.feePerUnit * t.matchedQty + t.exitFee exit
  slippage : ∀ t ∈ takes,
    (t.trade exit).slippage = t.lot.slippagePerUnit * t.matchedQty + t.exitSlippage exit
  netPnl : ∀ t ∈ takes, (t.trade exit).quantity = t.matchedQty ∧
    (t.trade exit).netPnl = (exit.price - t.lot.price) * t.matchedQty - (t.trade exit).fees -
      (t.trade exit).slippage

theorem Explains.conserves {exit : Exit} (hq : 0 < exit.quantity) {lots : List PositionLot}
    {out : Matched} {takes : List Take} (h : Explains exit exit.quantity lots out takes) :
    Conserves lots exit out takes := by
  have htaken : takenQuantity takes = exit.quantity - out.sellRemaining := by
    rw [h.sellRemaining_eq]
    ring
  -- a cost of the whole exit, shared out by quantity
  have hshare : ∀ cost : ℚ, (takes.map fun t => perUnit cost exit.quantity * t.matchedQty).sum =
      cost * (exit.quantity - out.sellRemaining) / exit.quantity := by
    intro cost
    rw [sum_rate, htaken, perUnit, if_pos hq]
    ring
  refine
    { traded := ?_
      lost := (h.inOrder.takenQuantity_eq.symm.trans htaken)
      remainder_nonneg := h.sellRemaining_nonneg
      remainder := h.exhausted
      inOrder := h.inOrder
      trades := h.trades_eq
      exitFees := hshare exit.fee
      exitSlippages := hshare exit.slippage
      fees := fun t _ => rfl
      slippage := fun t _ => rfl
      netPnl := fun t _ => ⟨rfl, rfl⟩ }
  rw [h.trades_eq, List.map_map, ← htaken]
  rfl

/-- **FIFO matching conserves** quantity, fees and slippage: for open lots and a positive
    exit the loop ends, and what it returns is made of takes in the order of the lots. -/
theorem matchLots_conserves {lots : List PositionLot} (hopen : LotsOpen lots) {exit : Exit}
    (hq : 0 < exit.quantity) :
    (∀ fuel, lots.length < fuel →
      loop exit fuel ⟨lots, [], exit.quantity⟩ = some (matchLots lots exit)) ∧
    ∃ takes, Conserves lots exit (matchLots lots exit) takes := by
  constructor
  · intro fuel hfuel
    rw [loop_eq exit [] exit.quantity hfuel]
    rfl
  · obtain ⟨takes, h⟩ := exists_explains exit hq.le hopen
    exact ⟨takes, h.conserves hq⟩

/-- A lot of ten units bought at the given price. -/
def sampleLot (price : ℚ) : PositionLot where
  orderUuid := "entry"
  tickerSymbol := "BTC_USD"
  price := price
  quantity := 10
  remainingQuantity := 10
  feePerUnit := 1 / 10
  timestamp := 0
  slippagePerUnit := 0
  winningStrategy := none
  strategyVotes := none
  strategyAttributions := none
  regime := none

/-- A sale of fifteen units. -/
def sampleExit : Exit where
  tickerSymbol := "BTC_USD"
  orderUuid := "exit"
  price := 30
  quantity := 15
  fee := 3
  timestamp := 60
  commitHash := none
  winningStrategy := none
  strategyVotes := none
  strategyAttributions := none
  slippage := 1
  regime := none

/-- The sale takes the first of two lots and half of the second. -/
theorem matchLots_conserves_two_lots :
    (∀ fuel, 2 < fuel →
      loop sampleExit fuel ⟨[sampleLot 20, sampleLot 25], [], sampleExit.quantity⟩ =
        some (matchLots [sampleLot 20, sampleLot 25] sampleExit)) ∧
    ∃ takes, Conserves [sampleLot 20, sampleLot 25] sampleExit
      (matchLots [sampleLot 20, sampleLot 25] sampleExit) takes := by
  have hopen : LotsOpen [sampleLot 20, sampleLot 25] := by
    intro lot hlot
    simp only [List.mem_cons, List.not_mem_nil, or_false] at hlot
    rcases hlot with rfl | rfl <;> norm_num [sampleLot]
  have hq : 0 < sampleExit.quantity := by norm_num [sampleExit]
  exact matchLots_conserves hopen hq

end FifoTradeMatcher

end CryptoTrading.Session
