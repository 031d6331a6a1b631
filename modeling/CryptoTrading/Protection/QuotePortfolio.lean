import Mathlib.Algebra.Order.Field.Rat
import Mathlib.Tactic.Linarith
import CryptoTrading.Api.Interfaces
import CryptoTrading.Lib.Dict

/-!
# Quote portfolios

Embeds `src/trading/protection/quote_portfolio.py`: cash, reservations, positions and
mark prices of all assets that share a quote currency, with a running maximum of the
equity.

The setters clamp at zero, so cash, reservations, positions and prices are never
negative; these facts are fields of the structure.  Left out:
`unavailable_price_assets` and `valuation_timestamp`, which nothing here reads.

Decimals are exact rationals: the rounding of a context to 28 digits is left out.
-/

namespace CryptoTrading.Protection

open CryptoTrading.Lib

/-! ## §1 The portfolio -/

structure QuotePortfolio where
  exchange : String
  quoteCurrency : String
  totalCash : ℚ
  reservedCash : ℚ
  openOrders : Dict String ℚ
  assetPositions : Dict String ℚ
  assetMarkPrices : Dict String ℚ
  peakEquity : ℚ
  totalCash_nonneg : 0 ≤ totalCash
  reservedCash_nonneg : 0 ≤ reservedCash
  openOrders_pos : ∀ uuid amount, openOrders.get? uuid = some amount → 0 < amount
  positions_nonneg : ∀ sym qty, assetPositions.get? sym = some qty → 0 ≤ qty
  prices_nonneg : ∀ sym price, assetMarkPrices.get? sym = some price → 0 ≤ price
  deriving DecidableEq

/-- Writing a clamped value keeps the values of a dictionary non-negative. -/
theorem nonneg_set_max {d : Dict String ℚ} (h : ∀ k v, d.get? k = some v → 0 ≤ v)
    (key : String) (value : ℚ) : ∀ k v, (d.set key (max 0 value)).get? k = some v → 0 ≤ v := by
  intro k v hv
  rw [Dict.get?_set] at hv
  split at hv
  · obtain rfl := Option.some.inj hv
    exact le_max_left 0 value
  · exact h k v hv

namespace QuotePortfolio

def new (exchange quoteCurrency : String) : QuotePortfolio where
  exchange := exchange
  quoteCurrency := quoteCurrency
  totalCash := 0
  reservedCash := 0
  openOrders := Dict.empty
  assetPositions := Dict.empty
  assetMarkPrices := Dict.empty
  peakEquity := 0
  totalCash_nonneg := le_refl 0
  reservedCash_nonneg := le_refl 0
  openOrders_pos := by simp
  positions_nonneg := by simp
  prices_nonneg := by simp

/-! ## §2 Valuation -/

def availableCash (pf : QuotePortfolio) : ℚ := max 0 (pf.totalCash - pf.reservedCash)

/-- The held quantity, zero for an unknown symbol. -/
def position (pf : QuotePortfolio) (tickerSymbol : String) : ℚ :=
  pf.assetPositions.getD tickerSymbol 0

/-- The mark price, zero for an unknown symbol. -/
def markPrice (pf : QuotePortfolio) (tickerSymbol : String) : ℚ :=
  pf.assetMarkPrices.getD tickerSymbol 0

def getAssetNotional (pf : QuotePortfolio) (tickerSymbol : String) : ℚ :=
  pf.position tickerSymbol * pf.markPrice tickerSymbol

def getTotalHoldingsNotional (pf : QuotePortfolio) : ℚ :=
  pf.assetPositions.sumBy fun sym qty => qty * pf.markPrice sym

def getTotalEquity (pf : QuotePortfolio) : ℚ := pf.totalCash + pf.getTotalHoldingsNotional

def getDrawdown (pf : QuotePortfolio) : ℚ :=
  if pf.peakEquity ≤ 0 then 0
  else (pf.getTotalEquity - pf.peakEquity) / pf.peakEquity

/-! ## §3 Updates -/

/-- `QuotePortfolio._refresh_peak_equity`. -/
def refreshPeakEquity (pf : QuotePortfolio) : QuotePortfolio :=
  { pf with peakEquity := max pf.getTotalEquity pf.peakEquity }

def updateCash (pf : QuotePortfolio) (amount : ℚ) : QuotePortfolio :=
  refreshPeakEquity { pf with
    totalCash := max 0 amount
    totalCash_nonneg := le_max_left 0 amount }

def updateAssetPosition (pf : QuotePortfolio) (tickerSymbol : String) (quantity : ℚ) :
    QuotePortfolio :=
  refreshPeakEquity { pf with
    assetPositions := pf.assetPositions.set tickerSymbol (max 0 quantity)
    positions_nonneg := nonneg_set_max pf.positions_nonneg tickerSymbol quantity }

def updateAssetMarkPrice (pf : QuotePortfolio) (tickerSymbol : String) (price : ℚ) :
    QuotePortfolio :=
  refreshPeakEquity { pf with
    assetMarkPrices := pf.assetMarkPrices.set tickerSymbol (max 0 price)
    prices_nonneg := nonneg_set_max pf.prices_nonneg tickerSymbol price }

/-- `reserve_cash` when the amount is positive and covered. -/
def withReservation (pf : QuotePortfolio) (orderUuid : String) (amount : ℚ) (hpos : 0 < amount) :
    QuotePortfolio :=
  { pf with
    reservedCash := pf.reservedCash + amount
    openOrders := pf.openOrders.set orderUuid amount
    reservedCash_nonneg := add_nonneg pf.reservedCash_nonneg hpos.le
    openOrders_pos := by
      intro uuid a ha
      rw [Dict.get?_set] at ha
      split at ha
      · obtain rfl := Option.some.inj ha
        exact hpos
      · exact pf.openOrders_pos uuid a ha }

/-- `QuotePortfolio.reserve_cash`: the flag is the returned value. -/
def reserveCash (pf : QuotePortfolio) (orderUuid : String) (amount : ℚ) : QuotePortfolio × Bool :=
  if hpos : amount ≤ 0 then (pf, true)
  -- nothing to reserve counts as reserved
  else if amount > pf.availableCash then (pf, false)
  else (pf.withReservation orderUuid amount (not_le.mp hpos), true)

/-- `QuotePortfolio.release_cash`: returns the released amount. -/
def releaseCash (pf : QuotePortfolio) (orderUuid : String) : QuotePortfolio × ℚ :=
  match pf.openOrders.get? orderUuid with
  | none => (pf, 0)
  | some amount =>
    ({ pf with
        -- the reservation is given back, the cash itself stays
        reservedCash := max 0 (pf.reservedCash - amount)
        openOrders := pf.openOrders.erase orderUuid
        reservedCash_nonneg := le_max_left 0 _
        openOrders_pos := by
          intro uuid a ha
          rw [Dict.get?_erase] at ha
          split at ha
          · cases ha
          · exact pf.openOrders_pos uuid a ha }, amount)

/-- `QuotePortfolio.reconcile_orders`: releases the orders that are not active, and returns
    what they held together. -/
def reconcileOrders (pf : QuotePortfolio) (activeOrderUuids : List String) : QuotePortfolio × ℚ :=
  let orphaned := pf.openOrders.keys.filter fun uuid => uuid ∉ activeOrderUuids
  orphaned.foldl (fun (pf, released) uuid =>
    ((pf.releaseCash uuid).1, released + (pf.releaseCash uuid).2)) (pf, 0)

/-! ## §4 What the updates do to cash, holdings and peak -/

/-- Where some cash is available, nothing is clamped. -/
theorem availableCash_of_pos {pf : QuotePortfolio} (h : 0 < pf.availableCash) :
    pf.availableCash = pf.totalCash - pf.reservedCash := by
  unfold availableCash at h ⊢
  rcases lt_max_iff.mp h with habsurd | hdiff
  · exact absurd habsurd (lt_irrefl 0)
  · exact max_eq_right hdiff.le

theorem position_nonneg (pf : QuotePortfolio) (sym : String) : 0 ≤ pf.position sym := by
  unfold position Dict.getD
  cases hq : pf.assetPositions.get? sym with
  | none => exact le_refl 0
  | some qty => exact pf.positions_nonneg sym qty hq

theorem markPrice_nonneg (pf : QuotePortfolio) (sym : String) : 0 ≤ pf.markPrice sym := by
  unfold markPrice Dict.getD
  cases hp : pf.assetMarkPrices.get? sym with
  | none => exact le_refl 0
  | some price => exact pf.prices_nonneg sym price hp

@[simp] theorem updateCash_totalCash (pf : QuotePortfolio) (amount : ℚ) :
    (pf.updateCash amount).totalCash = max 0 amount := rfl

@[simp] theorem updateCash_holdings (pf : QuotePortfolio) (amount : ℚ) :
    (pf.updateCash amount).getTotalHoldingsNotional = pf.getTotalHoldingsNotional := rfl

@[simp] theorem updateCash_position (pf : QuotePortfolio) (amount : ℚ) (sym : String) :
    (pf.updateCash amount).position sym = pf.position sym := rfl

@[simp] theorem updateCash_markPrice (pf : QuotePortfolio) (amount : ℚ) (sym : String) :
    (pf.updateCash amount).markPrice sym = pf.markPrice sym := rfl

/-- Every cash update folds the equity it produces into the peak. -/
theorem updateCash_peakEquity (pf : QuotePortfolio) (amount : ℚ) :
    (pf.updateCash amount).peakEquity =
      max (max 0 amount + pf.getTotalHoldingsNotional) pf.peakEquity := rfl

@[simp] theorem updateAssetPosition_totalCash (pf : QuotePortfolio) (sym : String) (qty : ℚ) :
    (pf.updateAssetPosition sym qty).totalCash = pf.totalCash := rfl

@[simp] theorem updateAssetPosition_markPrice (pf : QuotePortfolio) (sym : String) (qty : ℚ)
    (other : String) : (pf.updateAssetPosition sym qty).markPrice other = pf.markPrice other := rfl

/-- A position update replaces the notional of its asset. -/
@[simp] theorem updateAssetPosition_holdings (pf : QuotePortfolio) (sym : String) (qty : ℚ) :
    (pf.updateAssetPosition sym qty).getTotalHoldingsNotional =
      pf.getTotalHoldingsNotional - pf.getAssetNotional sym + max 0 qty * pf.markPrice sym := by
  have hsum := Dict.sumBy_set (fun s q => q * pf.markPrice s) pf.assetPositions sym (max 0 qty)
  -- the contribution that the write replaces
  have hold : (pf.assetPositions.get? sym).elim 0 (fun q => q * pf.markPrice sym) =
      pf.getAssetNotional sym := by
    unfold getAssetNotional position Dict.getD
    cases pf.assetPositions.get? sym <;> simp
  rw [hold] at hsum
  exact hsum

/-- Every position update folds the equity it produces into the peak. -/
theorem updateAssetPosition_peakEquity (pf : QuotePortfolio) (sym : String) (qty : ℚ) :
    (pf.updateAssetPosition sym qty).peakEquity =
      max (pf.totalCash + (pf.getTotalHoldingsNotional - pf.getAssetNotional sym +
        max 0 qty * pf.markPrice sym)) pf.peakEquity := by
  rw [← updateAssetPosition_holdings]
  rfl

/-! ## §5 What reserving and releasing does -/

/-- The amounts that `reserve_cash` really sets aside. -/
def Reservable (pf : QuotePortfolio) (amount : ℚ) : Prop := 0 < amount ∧ amount ≤ pf.availableCash

instance (pf : QuotePortfolio) (amount : ℚ) : Decidable (pf.Reservable amount) :=
  inferInstanceAs (Decidable (_ ∧ _))

theorem reserveCash_of_reservable {pf : QuotePortfolio} {amount : ℚ} (h : pf.Reservable amount)
    (orderUuid : String) :
    pf.reserveCash orderUuid amount = (pf.withReservation orderUuid amount h.1, true) := by
  unfold reserveCash
  rw [dif_neg (not_le.mpr h.1), if_neg (not_lt.mpr h.2)]

theorem reserveCash_of_not_reservable {pf : QuotePortfolio} {amount : ℚ}
    (h : ¬ pf.Reservable amount) (orderUuid : String) :
    (pf.reserveCash orderUuid amount).1 = pf := by
  unfold reserveCash
  split
  · rfl
  · rename_i hpos
    have hmore : amount > pf.availableCash := not_le.mp fun hle => h ⟨not_le.mp hpos, hle⟩
    rw [if_pos hmore]

theorem releaseCash_of_none {pf : QuotePortfolio} {orderUuid : String}
    (h : pf.openOrders.get? orderUuid = none) : pf.releaseCash orderUuid = (pf, 0) := by
  unfold releaseCash
  split
  · rfl
  · rename_i amount hsome
    rw [h] at hsome
    cases hsome

/-- Releasing an open order returns its amount and forgets the order. -/
theorem releaseCash_of_some {pf : QuotePortfolio} {orderUuid : String} {amount : ℚ}
    (h : pf.openOrders.get? orderUuid = some amount) :
    (pf.releaseCash orderUuid).2 = amount ∧
      (pf.releaseCash orderUuid).1.openOrders = pf.openOrders.erase orderUuid ∧
      (pf.releaseCash orderUuid).1.reservedCash = max 0 (pf.reservedCash - amount) ∧
      (pf.releaseCash orderUuid).1.totalCash = pf.totalCash := by
  unfold releaseCash
  split
  · rename_i hnone
    rw [h] at hnone
    cases hnone
  · rename_i a hsome
    rw [h] at hsome
    obtain rfl := Option.some.inj hsome
    exact ⟨rfl, rfl, rfl, rfl⟩

/-- Exactly the open orders release something. -/
theorem releaseCash_pos_iff (pf : QuotePortfolio) (orderUuid : String) :
    0 < (pf.releaseCash orderUuid).2 ↔ (pf.openOrders.get? orderUuid).isSome := by
  cases h : pf.openOrders.get? orderUuid with
  | none =>
    rw [releaseCash_of_none h]
    simp
  | some amount =>
    rw [(releaseCash_of_some h).1]
    simp [pf.openOrders_pos orderUuid amount h]

/-- A new portfolio has nothing to reserve. -/
theorem new_not_reservable (exchange quoteCurrency : String) (amount : ℚ) :
    ¬ (new exchange quoteCurrency).Reservable amount := by
  rintro ⟨hpos, hle⟩
  simp only [availableCash, new, sub_self, max_self] at hle
  exact absurd hpos (not_lt.mpr hle)

end QuotePortfolio

end CryptoTrading.Protection
