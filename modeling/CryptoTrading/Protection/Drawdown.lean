import Mathlib.Tactic.NormNum
import Mathlib.Tactic.Ring
import CryptoTrading.Lib.Run
import CryptoTrading.Protection.QuotePortfolio

/-!
# Drawdown of value-neutral fills

A fill at the mark price moves value between cash and position, but reaches a quote
portfolio as two updates.  The peak equity is refreshed after each of them, so an
intermediate state that looks richer than both ends stays in the peak for good.

`applyFill_of_safe` and `applyFill_of_not_safe` say which fills leave the peak alone; the
result over whole sequences follows because the peak never comes down
(`peakEquity_le_applyFill`).
-/

namespace CryptoTrading.Protection

open CryptoTrading.Lib QuotePortfolio

/-! ## §1 Fills at the mark price -/

/-- A fill at the current mark price, without fees, and the order in which its two
    updates are reported. -/
structure MarkFill where
  action : TradeAction
  tickerSymbol : String
  quantity : ℚ
  cashFirst : Bool
  quantity_nonneg : 0 ≤ quantity

namespace MarkFill

/-- The cash that changes hands. -/
def cost (f : MarkFill) (pf : QuotePortfolio) : ℚ := pf.markPrice f.tickerSymbol * f.quantity

/-- The amount reported to `update_cash`. -/
def newCash (f : MarkFill) (pf : QuotePortfolio) : ℚ :=
  match f.action with
  | .buy => pf.totalCash - f.cost pf
  | .sell => pf.totalCash + f.cost pf

/-- The quantity reported to `update_asset_position`. -/
def newPosition (f : MarkFill) (pf : QuotePortfolio) : ℚ :=
  match f.action with
  | .buy => pf.position f.tickerSymbol + f.quantity
  | .sell => pf.position f.tickerSymbol - f.quantity

theorem cost_nonneg (f : MarkFill) (pf : QuotePortfolio) : 0 ≤ f.cost pf :=
  mul_nonneg (pf.markPrice_nonneg _) f.quantity_nonneg

end MarkFill

/-- Both updates of a fill, in the reported order. -/
def applyFill (pf : QuotePortfolio) (f : MarkFill) : QuotePortfolio :=
  if f.cashFirst then
    (pf.updateCash (f.newCash pf)).updateAssetPosition f.tickerSymbol (f.newPosition pf)
  else
    (pf.updateAssetPosition f.tickerSymbol (f.newPosition pf)).updateCash (f.newCash pf)

/-- The fills that pass unnoticed: a buy that is paid first and covered by the cash, a
    sale that is delivered first and covered by the position, anything worth nothing. -/
def FillSafe (pf : QuotePortfolio) (f : MarkFill) : Prop :=
  f.cost pf = 0 ∨
    match f.action with
    | .buy => f.cashFirst = true ∧ f.cost pf ≤ pf.totalCash
    | .sell => f.cashFirst = false ∧ f.quantity ≤ pf.position f.tickerSymbol

/-! ## §2 One fill -/

/-- The peak never comes down. -/
theorem peakEquity_le_applyFill (pf : QuotePortfolio) (f : MarkFill) :
    pf.peakEquity ≤ (applyFill pf f).peakEquity := by
  unfold applyFill
  split
  · calc pf.peakEquity
        ≤ (pf.updateCash (f.newCash pf)).peakEquity := le_max_right _ _
      _ ≤ _ := le_max_right _ _
  · calc pf.peakEquity
        ≤ (pf.updateAssetPosition f.tickerSymbol (f.newPosition pf)).peakEquity :=
          le_max_right _ _
      _ ≤ _ := le_max_right _ _

/-- The equity after a fill, whichever update comes first. -/
theorem applyFill_equity (pf : QuotePortfolio) (f : MarkFill) :
    (applyFill pf f).getTotalEquity =
      max 0 (f.newCash pf) + (pf.getTotalHoldingsNotional - pf.getAssetNotional f.tickerSymbol +
        max 0 (f.newPosition pf) * pf.markPrice f.tickerSymbol) := by
  unfold applyFill getTotalEquity
  split
  · rw [updateAssetPosition_totalCash, updateAssetPosition_holdings, updateCash_totalCash,
      updateCash_holdings, updateCash_markPrice]
    rfl
  · rw [updateCash_totalCash, updateCash_holdings, updateAssetPosition_holdings]

/-- The peak after a fill: the equity between the two updates and the final one count. -/
theorem applyFill_peakEquity (pf : QuotePortfolio) (f : MarkFill) :
    (applyFill pf f).peakEquity =
      max (applyFill pf f).getTotalEquity
        (max (if f.cashFirst then max 0 (f.newCash pf) + pf.getTotalHoldingsNotional
          else pf.totalCash + (pf.getTotalHoldingsNotional -
            pf.getAssetNotional f.tickerSymbol +
            max 0 (f.newPosition pf) * pf.markPrice f.tickerSymbol)) pf.peakEquity) := by
  rw [applyFill_equity]
  unfold applyFill
  split
  · rw [updateAssetPosition_peakEquity, updateCash_peakEquity]
    rfl
  · rw [updateCash_peakEquity, updateAssetPosition_peakEquity, updateAssetPosition_holdings]

/-- The value of the position after a fill: a buy adds the cost, a sale takes it away as
    far as the position reaches. -/
theorem newPosition_value (pf : QuotePortfolio) (f : MarkFill) :
    max 0 (f.newPosition pf) * pf.markPrice f.tickerSymbol =
      match f.action with
      | .buy => pf.getAssetNotional f.tickerSymbol + f.cost pf
      | .sell => max 0 (pf.getAssetNotional f.tickerSymbol - f.cost pf) := by
  have hpos := pf.position_nonneg f.tickerSymbol
  have hprice := pf.markPrice_nonneg f.tickerSymbol
  have hqty := f.quantity_nonneg
  unfold MarkFill.newPosition MarkFill.cost getAssetNotional
  cases f.action with
  | buy =>
    -- the position grows, so nothing is clamped
    have hsum : 0 ≤ pf.position f.tickerSymbol + f.quantity := add_nonneg hpos hqty
    simp only [max_eq_right hsum]
    ring
  | sell =>
    simp only
    -- the clamp at zero moves from the quantity to the value
    rw [max_mul_of_nonneg _ _ hprice, zero_mul]
    congr 1
    ring

/-- A safe fill moves value between cash and position without loss, and its first update
    does not raise the equity. -/
theorem fillSafe_conserves {pf : QuotePortfolio} {f : MarkFill} (hsafe : FillSafe pf f) :
    max 0 (f.newCash pf) + max 0 (f.newPosition pf) * pf.markPrice f.tickerSymbol =
        pf.totalCash + pf.getAssetNotional f.tickerSymbol ∧
      (f.cashFirst = true → max 0 (f.newCash pf) ≤ pf.totalCash) ∧
      (f.cashFirst = false → max 0 (f.newPosition pf) * pf.markPrice f.tickerSymbol ≤
        pf.getAssetNotional f.tickerSymbol) := by
  have hcost := f.cost_nonneg pf
  have hcash := pf.totalCash_nonneg
  have hnotional : 0 ≤ pf.getAssetNotional f.tickerSymbol :=
    mul_nonneg (pf.position_nonneg _) (pf.markPrice_nonneg _)
  rw [newPosition_value]
  unfold MarkFill.newCash
  rcases hsafe with hzero | hsafe
  -- nothing changes hands
  · rw [hzero]
    cases f.action with
    | buy => simp [max_eq_right hcash]
    | sell => simp [max_eq_right hcash, max_eq_right hnotional]
  · cases hact : f.action with
    | buy =>
      rw [hact] at hsafe
      obtain ⟨hfirst, hcovered⟩ := hsafe
      have hleft : 0 ≤ pf.totalCash - f.cost pf := sub_nonneg.mpr hcovered
      simp only [max_eq_right hleft]
      refine ⟨by ring, fun _ => by linarith, fun hlast => ?_⟩
      rw [hfirst] at hlast
      cases hlast
    | sell =>
      rw [hact] at hsafe
      obtain ⟨hlast, hcovered⟩ := hsafe
      have hheld : f.cost pf ≤ pf.getAssetNotional f.tickerSymbol := by
        unfold MarkFill.cost getAssetNotional
        rw [mul_comm (pf.position _)]
        exact mul_le_mul_of_nonneg_left hcovered (pf.markPrice_nonneg _)
      have hgain : 0 ≤ pf.totalCash + f.cost pf := add_nonneg hcash hcost
      simp only [max_eq_right hgain, max_eq_right (sub_nonneg.mpr hheld)]
      refine ⟨by ring, fun hfirst => ?_, fun _ => by linarith⟩
      rw [hlast] at hfirst
      cases hfirst

/-- A safe fill keeps the equity and does not move the peak. -/
theorem applyFill_of_safe {pf : QuotePortfolio} {f : MarkFill}
    (hpeak : pf.peakEquity = pf.getTotalEquity) (hsafe : FillSafe pf f) :
    (applyFill pf f).peakEquity = pf.peakEquity ∧
      (applyFill pf f).getTotalEquity = pf.getTotalEquity := by
  obtain ⟨hsum, hcashFirst, hcashLast⟩ := fillSafe_conserves hsafe
  have hequity : pf.getTotalEquity = pf.totalCash + pf.getTotalHoldingsNotional := rfl
  have hkept : (applyFill pf f).getTotalEquity = pf.getTotalEquity := by
    rw [applyFill_equity]
    linarith
  refine ⟨?_, hkept⟩
  rw [applyFill_peakEquity, hkept, hpeak]
  -- neither the state between the updates nor the final one exceeds the old equity
  refine max_eq_left (max_le ?_ (le_refl _))
  cases hfirst : f.cashFirst with
  | true =>
    have hmid := hcashFirst hfirst
    simp only [↓reduceIte]
    linarith
  | false =>
    have hmid := hcashLast hfirst
    simp only [Bool.false_eq_true, ↓reduceIte]
    linarith

/-- Any other fill raises the peak for good. -/
theorem applyFill_of_not_safe {pf : QuotePortfolio} {f : MarkFill}
    (hpeak : pf.peakEquity = pf.getTotalEquity) (hrisky : ¬ FillSafe pf f) :
    pf.peakEquity < (applyFill pf f).peakEquity := by
  have hcash := pf.totalCash_nonneg
  have hequity : pf.getTotalEquity = pf.totalCash + pf.getTotalHoldingsNotional := rfl
  have hvalue := newPosition_value pf f
  unfold FillSafe at hrisky
  obtain ⟨hne, hrisky⟩ := not_or.mp hrisky
  have hcost : 0 < f.cost pf := lt_of_le_of_ne (f.cost_nonneg pf) (Ne.symm hne)
  have hfinal := applyFill_equity pf f
  rw [applyFill_peakEquity, hpeak, lt_max_iff, lt_max_iff]
  unfold MarkFill.newCash at *
  cases hact : f.action with
  | buy =>
    rw [hact] at hrisky hvalue hfinal
    simp only at hrisky hvalue hfinal
    cases hfirst : f.cashFirst with
    | true =>
      -- paid first, but the cash does not cover it: clamping at zero creates money
      have hshort : pf.totalCash < f.cost pf := not_le.mp fun h => hrisky ⟨hfirst, h⟩
      have hclamp : max 0 (pf.totalCash - f.cost pf) = 0 := max_eq_left (by linarith)
      left
      rw [hfinal, hclamp, hvalue]
      linarith
    | false =>
      -- delivered first: the position counts before the cash is gone
      right
      left
      simp only [Bool.false_eq_true, ↓reduceIte]
      rw [hvalue]
      linarith
  | sell =>
    rw [hact] at hrisky hvalue hfinal
    simp only at hrisky hvalue hfinal
    have hgain : 0 ≤ pf.totalCash + f.cost pf := add_nonneg hcash hcost.le
    cases hfirst : f.cashFirst with
    | true =>
      right
      left
      -- paid first: the cash counts before the position is gone
      simp only [↓reduceIte, max_eq_right hgain]
      linarith
    | false =>
      -- more sold than held: the clamped position leaves the surplus in cash
      have hshort : pf.position f.tickerSymbol < f.quantity :=
        not_le.mp fun h => hrisky ⟨hfirst, h⟩
      have hprice : 0 < pf.markPrice f.tickerSymbol := by
        refine lt_of_le_of_ne (pf.markPrice_nonneg _) (fun h => hne ?_)
        unfold MarkFill.cost
        rw [← h, zero_mul]
      have hless : pf.getAssetNotional f.tickerSymbol < f.cost pf := by
        unfold MarkFill.cost getAssetNotional
        rw [mul_comm (pf.position _)]
        exact mul_lt_mul_of_pos_left hshort hprice
      left
      rw [hfinal, hvalue, max_eq_right hgain, max_eq_left (by linarith)]
      linarith

/-! ## §3 Sequences of fills -/

theorem peakEquity_le_run (pf : QuotePortfolio) (fills : List MarkFill) :
    pf.peakEquity ≤ (run applyFill pf fills).peakEquity :=
  run_invariant (fun pf' => pf.peakEquity ≤ pf'.peakEquity)
    (fun pf' f h => le_trans h (peakEquity_le_applyFill pf' f)) (le_refl _) fills

theorem getDrawdown_of_peak {pf : QuotePortfolio} (hpeak : pf.peakEquity = pf.getTotalEquity) :
    pf.getDrawdown = 0 := by
  unfold getDrawdown
  rw [hpeak, sub_self, zero_div, ite_self]

/-- **Value-neutral fills create no drawdown** exactly when every one of them is safe in the state
    it finds: buys are paid before they are delivered and covered by the cash, sales are delivered
    before they are paid and covered by the position.

    The two halves of a fill arrive one after the other, and the peak is refreshed in between.  An
    order of the halves that shows too much equity leaves a peak that the second half does not take
    back. -/
theorem noDrawdown_iff_fillsSafe (pf : QuotePortfolio) (fills : List MarkFill)
    (hpeak : pf.peakEquity = pf.getTotalEquity) :
    ((run applyFill pf fills).getDrawdown = 0 ∧
        (run applyFill pf fills).peakEquity = pf.peakEquity) ↔
      Along applyFill FillSafe pf fills := by
  induction fills generalizing pf with
  | nil =>
    have hzero : pf.getDrawdown = 0 := getDrawdown_of_peak hpeak
    simp [Along, hzero]
  | cons f rest ih =>
    by_cases hsafe : FillSafe pf f
    · obtain ⟨hpeak', hequity'⟩ := applyFill_of_safe hpeak hsafe
      have hnext : (applyFill pf f).peakEquity = (applyFill pf f).getTotalEquity := by
        rw [hpeak', hequity', hpeak]
      have hrest := ih (applyFill pf f) hnext
      rw [hpeak'] at hrest
      rw [run_cons, hrest]
      exact ⟨fun h => ⟨hsafe, h⟩, fun h => h.2⟩
    -- the peak is already too high and never comes down
    · have hraised := applyFill_of_not_safe hpeak hsafe
      have hstays := peakEquity_le_run (applyFill pf f) rest
      constructor
      · rintro ⟨-, hsame⟩
        rw [run_cons] at hsame
        rw [hsame] at hstays
        exact absurd hraised (not_lt.mpr hstays)
      · intro h
        exact absurd h.1 hsafe

/-- Cash of 100 and one asset marked at 10, nothing held; the peak is the equity. -/
def hundredCash : QuotePortfolio :=
  ((QuotePortfolio.new "BINANCE" "USD").updateCash 100).updateAssetMarkPrice "BTC_USD" 10

/-- Buying two units at the mark price of 10. -/
def buyTwo (cashFirst : Bool) : MarkFill :=
  ⟨.buy, "BTC_USD", 2, cashFirst, by norm_num⟩

/-- Paid first, a purchase within the cash leaves no drawdown. -/
theorem noDrawdown_iff_fillsSafe_paid_first :
    hundredCash.peakEquity = hundredCash.getTotalEquity ∧
      (((run applyFill hundredCash [buyTwo true]).getDrawdown = 0 ∧
          (run applyFill hundredCash [buyTwo true]).peakEquity = hundredCash.peakEquity) ↔
        Along applyFill FillSafe hundredCash [buyTwo true]) :=
  ⟨by decide +kernel, noDrawdown_iff_fillsSafe hundredCash [buyTwo true] (by decide +kernel)⟩

/-- Delivered first, the same purchase raises the peak to 120 and leaves a drawdown. -/
theorem drawdown_of_delivered_first :
    hundredCash.peakEquity = hundredCash.getTotalEquity ∧
      ¬ ((run applyFill hundredCash [buyTwo false]).getDrawdown = 0 ∧
        (run applyFill hundredCash [buyTwo false]).peakEquity = hundredCash.peakEquity) := by
  decide +kernel

end CryptoTrading.Protection
