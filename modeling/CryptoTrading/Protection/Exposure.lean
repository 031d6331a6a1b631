import Mathlib.Algebra.Order.BigOperators.Group.List
import Mathlib.Tactic.Ring
import CryptoTrading.Lib.Run
import CryptoTrading.Protection.PortfolioRiskManager

/-!
# Exposure after pending orders fill

A sequence of buy proposals on the assets of one quote portfolio, each approved by
`can_trade` and reserved before the next one is made.  When all open orders fill at
their reserved cost, the reserved cash turns into holdings and the equity stays.

The guard subtracts reservations from the available cash, so the minimum reserve
survives (checks 1 and 2); its exposure checks look at holdings only, so they hold
after the fills exactly when the last proposal passes them with the reserved cash
counted as invested.
-/

namespace CryptoTrading.Protection

open CryptoTrading.Lib QuotePortfolio PortfolioRiskManager QuotePortfolioGuard

/-! ## §1 Filling open orders -/

/-- The amount reserved for an order, zero when there is none. -/
def reservedFor (pf : QuotePortfolio) (orderUuid : String) : ℚ := pf.openOrders.getD orderUuid 0

/-- An open order fills at its reserved cost: the reservation is released, the cash is
    paid, the position grows by the quantity the cost buys at the mark price. -/
def fillReserved (assetOf : String → String) (pf : QuotePortfolio) (orderUuid : String) :
    QuotePortfolio :=
  let (pf, amount) := pf.releaseCash orderUuid
  let pf := pf.updateCash (pf.totalCash - amount)
  let sym := assetOf orderUuid
  pf.updateAssetPosition sym (pf.position sym + amount / pf.markPrice sym)

/-- All open orders fill, in the order of their reservation. -/
def fillAllReserved (assetOf : String → String) (pf : QuotePortfolio) : QuotePortfolio :=
  run (fillReserved assetOf) pf pf.openOrders.keys

/-- Reservations are backed by open orders. -/
def Consistent (pf : QuotePortfolio) : Prop :=
  pf.reservedCash = pf.openOrders.sumBy fun _ amount => amount

instance (pf : QuotePortfolio) : Decidable (Consistent pf) :=
  inferInstanceAs (Decidable (_ = _))

@[simp] theorem releaseCash_markPrice (pf : QuotePortfolio) (orderUuid sym : String) :
    (pf.releaseCash orderUuid).1.markPrice sym = pf.markPrice sym := by
  unfold releaseCash
  split <;> rfl

@[simp] theorem releaseCash_holdings (pf : QuotePortfolio) (orderUuid : String) :
    (pf.releaseCash orderUuid).1.getTotalHoldingsNotional = pf.getTotalHoldingsNotional := by
  unfold releaseCash
  split <;> rfl

@[simp] theorem releaseCash_totalCash (pf : QuotePortfolio) (orderUuid : String) :
    (pf.releaseCash orderUuid).1.totalCash = pf.totalCash := by
  unfold releaseCash
  split <;> rfl

theorem releaseCash_amount (pf : QuotePortfolio) (orderUuid : String) :
    (pf.releaseCash orderUuid).2 = reservedFor pf orderUuid := by
  unfold reservedFor Dict.getD
  cases h : pf.openOrders.get? orderUuid with
  | none => rw [releaseCash_of_none h]; rfl
  | some amount => rw [(releaseCash_of_some h).1]; rfl

theorem releaseCash_openOrders_of_ne (pf : QuotePortfolio) {orderUuid other : String}
    (h : other ≠ orderUuid) :
    reservedFor (pf.releaseCash orderUuid).1 other = reservedFor pf other := by
  unfold reservedFor Dict.getD
  cases hget : pf.openOrders.get? orderUuid with
  | none => rw [releaseCash_of_none hget]
  | some amount => rw [(releaseCash_of_some hget).2.1, Dict.get?_erase_of_ne _ h]

theorem reservedFor_nonneg (pf : QuotePortfolio) (orderUuid : String) :
    0 ≤ reservedFor pf orderUuid := by
  unfold reservedFor Dict.getD
  cases h : pf.openOrders.get? orderUuid with
  | none => exact le_refl 0
  | some amount => exact (pf.openOrders_pos orderUuid amount h).le

/-- One fill that the cash covers moves its amount from cash to holdings. -/
theorem fillReserved_spec (assetOf : String → String) (pf : QuotePortfolio) (orderUuid : String)
    (hcash : reservedFor pf orderUuid ≤ pf.totalCash)
    (hprice : 0 < pf.markPrice (assetOf orderUuid)) :
    (fillReserved assetOf pf orderUuid).totalCash = pf.totalCash - reservedFor pf orderUuid ∧
      (fillReserved assetOf pf orderUuid).getTotalHoldingsNotional =
        pf.getTotalHoldingsNotional + reservedFor pf orderUuid ∧
      (∀ sym, (fillReserved assetOf pf orderUuid).markPrice sym = pf.markPrice sym) ∧
      ∀ other, other ≠ orderUuid →
        reservedFor (fillReserved assetOf pf orderUuid) other = reservedFor pf other := by
  have hamount := reservedFor_nonneg pf orderUuid
  have hleft : 0 ≤ pf.totalCash - reservedFor pf orderUuid := sub_nonneg.mpr hcash
  have hpos := (pf.releaseCash orderUuid).1.position_nonneg (assetOf orderUuid)
  have hgrown : 0 ≤ (pf.releaseCash orderUuid).1.position (assetOf orderUuid) +
      reservedFor pf orderUuid / pf.markPrice (assetOf orderUuid) :=
    add_nonneg hpos (div_nonneg hamount hprice.le)
  refine ⟨?_, ?_, ?_, ?_⟩
  · simp only [fillReserved, updateAssetPosition_totalCash, updateCash_totalCash,
      releaseCash_totalCash, releaseCash_amount, max_eq_right hleft]
  · simp only [fillReserved, updateAssetPosition_holdings, updateCash_holdings,
      releaseCash_holdings, updateCash_markPrice, releaseCash_markPrice, releaseCash_amount,
      updateCash_position, max_eq_right hgrown]
    have hnotional : ((pf.releaseCash orderUuid).1.updateCash
        ((pf.releaseCash orderUuid).1.totalCash - reservedFor pf orderUuid)).getAssetNotional
          (assetOf orderUuid) =
        (pf.releaseCash orderUuid).1.position (assetOf orderUuid) *
          pf.markPrice (assetOf orderUuid) := by
      unfold getAssetNotional
      rw [updateCash_position, updateCash_markPrice, releaseCash_markPrice]
    -- the bought quantity is worth its cost at the mark price
    rw [hnotional, add_mul, div_mul_cancel₀ _ hprice.ne']
    ring
  · intro sym
    simp only [fillReserved, updateAssetPosition_markPrice, updateCash_markPrice,
      releaseCash_markPrice]
  · intro other hne
    exact releaseCash_openOrders_of_ne pf hne

/-- Filling a list of open orders that the cash covers. -/
theorem fillReserved_run (assetOf : String → String) (uuids : List String) (hnodup : uuids.Nodup)
    (pf : QuotePortfolio) (hcash : (uuids.map (reservedFor pf)).sum ≤ pf.totalCash)
    (hprice : ∀ uuid ∈ uuids, 0 < pf.markPrice (assetOf uuid)) :
    (run (fillReserved assetOf) pf uuids).totalCash =
        pf.totalCash - (uuids.map (reservedFor pf)).sum ∧
      (run (fillReserved assetOf) pf uuids).getTotalHoldingsNotional =
        pf.getTotalHoldingsNotional + (uuids.map (reservedFor pf)).sum := by
  induction uuids generalizing pf with
  | nil => simp
  | cons uuid rest ih =>
    obtain ⟨hnotMem, hnodup'⟩ := List.nodup_cons.mp hnodup
    rw [List.map_cons, List.sum_cons] at hcash ⊢
    have hrest : 0 ≤ (rest.map (reservedFor pf)).sum :=
      List.sum_nonneg (by
        intro amount hmem
        obtain ⟨u, -, rfl⟩ := List.mem_map.mp hmem
        exact reservedFor_nonneg pf u)
    obtain ⟨htotal, hholdings, hmark, hothers⟩ := fillReserved_spec assetOf pf uuid
      (by linarith) (hprice uuid List.mem_cons_self)
    -- the remaining orders still have their amounts
    have hsame : rest.map (reservedFor (fillReserved assetOf pf uuid)) =
        rest.map (reservedFor pf) := by
      refine List.map_congr_left ?_
      intro other hmem
      exact hothers other fun heq => hnotMem (heq ▸ hmem)
    obtain ⟨htotal', hholdings'⟩ := ih hnodup' (fillReserved assetOf pf uuid)
      (by rw [hsame, htotal]; linarith)
      (by
        intro u hmem
        rw [hmark]
        exact hprice u (List.mem_cons_of_mem uuid hmem))
    rw [run_cons, htotal', hholdings', hsame, htotal, hholdings]
    exact ⟨by ring, by ring⟩

/-- When all reservations fill, the reserved cash becomes holdings. -/
theorem fillAllReserved_spec (assetOf : String → String) {pf : QuotePortfolio}
    (hcons : Consistent pf) (hcash : pf.reservedCash ≤ pf.totalCash)
    (hprice : ∀ uuid ∈ pf.openOrders.keys, 0 < pf.markPrice (assetOf uuid)) :
    (fillAllReserved assetOf pf).totalCash = pf.totalCash - pf.reservedCash ∧
      (fillAllReserved assetOf pf).getTotalHoldingsNotional =
        pf.getTotalHoldingsNotional + pf.reservedCash ∧
      (fillAllReserved assetOf pf).getTotalEquity = pf.getTotalEquity := by
  have hsum : (pf.openOrders.keys.map (reservedFor pf)).sum = pf.reservedCash := by
    rw [hcons]
    exact Dict.sum_map_keys_getD pf.openOrders (fun amount => amount) 0
  obtain ⟨htotal, hholdings⟩ := fillReserved_run assetOf pf.openOrders.keys
    pf.openOrders.nodupKeys pf (by rw [hsum]; exact hcash) hprice
  rw [hsum] at htotal hholdings
  refine ⟨htotal, hholdings, ?_⟩
  unfold getTotalEquity fillAllReserved
  rw [htotal, hholdings]
  ring

/-! ## §2 Proposals -/

/-- A buy proposal: `marketData` is the close price handed to `can_trade`. -/
structure Proposal where
  asset : Asset
  orderUuid : String
  cost : ℚ
  marketData : Option ℚ
  regime : Option MarketRegime

/-- The answer of `can_trade`. -/
def Proposal.decision (p : Proposal) (m : PortfolioRiskManager) : GuardDecision :=
  (m.canTrade p.asset .buy p.cost p.marketData p.regime).2

/-- The limits that apply to a proposal. -/
def Proposal.config (p : Proposal) (m : PortfolioRiskManager) : EffectivePortfolioConfig :=
  m.effectiveConfig p.asset (p.regime.getD .unknown)

/-- The decision and the reservation of a proposal. -/
def propose (m : PortfolioRiskManager) (p : Proposal) : PortfolioRiskManager :=
  ((m.canTrade p.asset .buy p.cost p.marketData p.regime).1.reserveOrderCash p.asset p.orderUuid
    p.cost).1

/-- The proposals of the sequence: on an asset of the portfolio, with a positive cost and a
    new order id, at an unchanged price, under an enabled guard that approves. -/
structure Approved (key : PortfolioKey) (m : PortfolioRiskManager) (p : Proposal) : Prop where
  key_eq : p.asset.portfolioKey = key
  cost_pos : 0 < p.cost
  uuid_new : (m.portfolioAt key).openOrders.get? p.orderUuid = none
  price_eq : ∀ price, p.marketData = some price →
    price = (m.portfolioAt key).markPrice p.asset.tickerSymbol
  guard_enabled : (p.config m).guard.enabled = true
  allowed : (p.decision m).allowed = true

theorem approved_iff (key : PortfolioKey) (m : PortfolioRiskManager) (p : Proposal) :
    Approved key m p ↔
      p.asset.portfolioKey = key ∧ 0 < p.cost ∧
        (m.portfolioAt key).openOrders.get? p.orderUuid = none ∧
        (∀ price ∈ p.marketData, price = (m.portfolioAt key).markPrice p.asset.tickerSymbol) ∧
        (p.config m).guard.enabled = true ∧ (p.decision m).allowed = true :=
  ⟨fun ⟨h₁, h₂, h₃, h₄, h₅, h₆⟩ => ⟨h₁, h₂, h₃, h₄, h₅, h₆⟩,
    fun ⟨h₁, h₂, h₃, h₄, h₅, h₆⟩ => ⟨h₁, h₂, h₃, h₄, h₅, h₆⟩⟩

instance (key : PortfolioKey) (m : PortfolioRiskManager) (p : Proposal) :
    Decidable (Approved key m p) :=
  decidable_of_iff _ (approved_iff key m p).symm

/-- What the valuation and the cash checks read of a portfolio. -/
structure SameValues (pf pf' : QuotePortfolio) : Prop where
  totalCash_eq : pf'.totalCash = pf.totalCash
  reservedCash_eq : pf'.reservedCash = pf.reservedCash
  openOrders_eq : pf'.openOrders = pf.openOrders
  positions_eq : pf'.assetPositions = pf.assetPositions
  markPrice_eq : ∀ sym, pf'.markPrice sym = pf.markPrice sym

theorem SameValues.holdings {pf pf' : QuotePortfolio} (h : SameValues pf pf') :
    pf'.getTotalHoldingsNotional = pf.getTotalHoldingsNotional := by
  unfold getTotalHoldingsNotional
  rw [h.positions_eq]
  congr 1
  funext sym qty
  rw [h.markPrice_eq]

theorem SameValues.equity {pf pf' : QuotePortfolio} (h : SameValues pf pf') :
    pf'.getTotalEquity = pf.getTotalEquity := by
  unfold getTotalEquity
  rw [h.totalCash_eq, h.holdings]

theorem SameValues.availableCash {pf pf' : QuotePortfolio} (h : SameValues pf pf') :
    pf'.availableCash = pf.availableCash := by
  unfold QuotePortfolio.availableCash
  rw [h.totalCash_eq, h.reservedCash_eq]

/-- Writing the price that is already there changes no value. -/
theorem sameValues_updateAssetMarkPrice (pf : QuotePortfolio) (sym : String) :
    SameValues pf (pf.updateAssetMarkPrice sym (pf.markPrice sym)) where
  totalCash_eq := rfl
  reservedCash_eq := rfl
  openOrders_eq := rfl
  positions_eq := rfl
  markPrice_eq := by
    intro other
    have hset : (pf.updateAssetMarkPrice sym (pf.markPrice sym)).markPrice other =
        (pf.assetMarkPrices.set sym (max 0 (pf.markPrice sym))).getD other 0 := rfl
    rw [hset, Dict.getD, Dict.get?_set]
    split
    · rename_i heq
      subst heq
      exact max_eq_right (pf.markPrice_nonneg other)
    · rfl

variable {key : PortfolioKey} {m : PortfolioRiskManager} {p : Proposal}

/-- The manager after the decision: the portfolio has the same values, and the limits are
    the same. -/
theorem canTrade_spec (h : Approved key m p) :
    SameValues (m.portfolioAt key)
        ((m.canTrade p.asset .buy p.cost p.marketData p.regime).1.portfolioAt key) ∧
      (m.canTrade p.asset .buy p.cost p.marketData p.regime).1.portfolioConfig =
        m.portfolioConfig ∧
      (m.canTrade p.asset .buy p.cost p.marketData p.regime).1.explicitDrawdown =
        m.explicitDrawdown ∧
      (m.canTrade p.asset .buy p.cost p.marketData p.regime).1.explicitConcentration =
        m.explicitConcentration := by
  obtain rfl := h.key_eq
  simp only [canTrade, reduceCtorEq, ↓reduceIte]
  cases hdata : p.marketData with
  | none =>
    simp only [ensurePortfolio, portfolioAt_setPortfolio_self]
    exact ⟨⟨rfl, rfl, rfl, rfl, fun _ => rfl⟩, rfl, rfl, rfl⟩
  | some price =>
    obtain rfl := h.price_eq price hdata
    simp only [updateMarketData, portfolioAt_setPortfolio_self]
    exact ⟨sameValues_updateAssetMarkPrice _ _, rfl, rfl, rfl⟩

/-- What approval means for the portfolio before the proposal. -/
theorem approved_checks (h : Approved key m p) (hequity : 0 < (m.portfolioAt key).getTotalEquity) :
    p.cost ≤ (m.portfolioAt key).availableCash ∧
      (m.portfolioAt key).getTotalEquity * (p.config m).guard.minQuoteReserve ≤
        (m.portfolioAt key).availableCash - p.cost := by
  obtain ⟨hvalues, hconfig, hdrawdown, hconcentration⟩ := canTrade_spec h
  have hallowed := h.allowed
  have henabled := h.guard_enabled
  obtain rfl := h.key_eq
  -- storing the price changes no limit
  have heffective : (m.canTrade p.asset .buy p.cost p.marketData p.regime).1.effectiveConfig
      p.asset (p.regime.getD .unknown) = p.config m := by
    unfold Proposal.config effectiveConfig
    rw [hconfig, hdrawdown, hconcentration]
  have hdecision : p.decision m =
      evaluate p.asset.tickerSymbol p.cost
        (riskMetricsOf ((m.canTrade p.asset .buy p.cost p.marketData p.regime).1.portfolioAt
          p.asset.portfolioKey) p.asset.tickerSymbol) (p.regime.getD .unknown) (p.config m) := by
    rw [← heffective]
    rfl
  rw [hdecision] at hallowed
  have hchecks := evaluate_allowed henabled (by
    change 0 < QuotePortfolio.getTotalEquity _
    rw [hvalues.equity]
    exact hequity) hallowed
  simp only [riskMetricsOf, hvalues.equity, hvalues.availableCash] at hchecks
  exact ⟨hchecks.1, hchecks.2.1⟩

/-- An approved proposal adds its cost to the reservations and changes nothing else that the
    checks read. -/
theorem propose_spec (h : Approved key m p) (hequity : 0 < (m.portfolioAt key).getTotalEquity) :
    ((propose m p).portfolioAt key).totalCash = (m.portfolioAt key).totalCash ∧
      ((propose m p).portfolioAt key).reservedCash = (m.portfolioAt key).reservedCash + p.cost ∧
      ((propose m p).portfolioAt key).openOrders =
        (m.portfolioAt key).openOrders.set p.orderUuid p.cost ∧
      ((propose m p).portfolioAt key).getTotalHoldingsNotional =
        (m.portfolioAt key).getTotalHoldingsNotional ∧
      (propose m p).effectiveConfig = m.effectiveConfig := by
  obtain ⟨hvalues, hconfig, hdrawdown, hconcentration⟩ := canTrade_spec h
  obtain ⟨hcovered, -⟩ := approved_checks h hequity
  obtain rfl := h.key_eq
  -- the guard has seen the cash after the price was stored, and that is not changed by it
  have hres : ((m.canTrade p.asset .buy p.cost p.marketData p.regime).1.portfolioAt
      p.asset.portfolioKey).Reservable p.cost :=
    ⟨h.cost_pos, by rw [hvalues.availableCash]; exact hcovered⟩
  have heq : (propose m p).portfolioAt p.asset.portfolioKey =
      ((m.canTrade p.asset .buy p.cost p.marketData p.regime).1.portfolioAt
        p.asset.portfolioKey).withReservation p.orderUuid p.cost hres.1 := by
    simp only [propose, reserveOrderCash, reserveCash_of_reservable hres p.orderUuid,
      portfolioAt_setPortfolio_self]
  rw [heq]
  refine ⟨hvalues.totalCash_eq, ?_, ?_, hvalues.holdings, ?_⟩
  · simp only [withReservation, hvalues.reservedCash_eq]
  · simp only [withReservation, hvalues.openOrders_eq]
  · funext asset regime
    have hfields : (propose m p).effectiveConfig asset regime =
        (m.canTrade p.asset .buy p.cost p.marketData p.regime).1.effectiveConfig asset regime :=
      rfl
    rw [hfields]
    unfold effectiveConfig
    rw [hconfig, hdrawdown, hconcentration]

/-! ## §3 Sequences of proposals -/

/-- What every approved sequence preserves: reservations stay backed, the equity stays, and
    so do the limits. -/
structure ProposalInv (key : PortfolioKey) (start m : PortfolioRiskManager) : Prop where
  consistent : Consistent (m.portfolioAt key)
  equity_eq : (m.portfolioAt key).getTotalEquity = (start.portfolioAt key).getTotalEquity
  config_eq : m.effectiveConfig = start.effectiveConfig

theorem ProposalInv.propose {start : PortfolioRiskManager}
    (hpos : 0 < (start.portfolioAt key).getTotalEquity) (hinv : ProposalInv key start m)
    (h : Approved key m p) : ProposalInv key start (propose m p) := by
  obtain ⟨htotal, hreserved, hopen, hholdings, hconfig⟩ :=
    propose_spec h (by rw [hinv.equity_eq]; exact hpos)
  refine ⟨?_, ?_, hconfig.trans hinv.config_eq⟩
  · unfold Consistent
    -- a new order id: the sum grows by the cost
    rw [hreserved, hopen, Dict.sumBy_set, h.uuid_new, hinv.consistent]
    simp
  · unfold getTotalEquity at *
    rw [htotal, hholdings]
    exact hinv.equity_eq

theorem proposalInv_run (hcons : Consistent (m.portfolioAt key))
    (hpos : 0 < (m.portfolioAt key).getTotalEquity) {proposals : List Proposal}
    (h : Along propose (Approved key) m proposals) :
    ProposalInv key m (run propose m proposals) :=
  run_invariant_along (ProposalInv key m) (fun _ _ hinv happ => hinv.propose hpos happ)
    ⟨hcons, rfl, rfl⟩ h

/-- The limits of a configuration hold of a portfolio. -/
def LimitsHold (config : EffectivePortfolioConfig) (pf : QuotePortfolio) : Prop :=
  pf.getTotalHoldingsNotional / pf.getTotalEquity ≤ config.guard.maxQuoteExposure ∧
    WithinLimit (pf.getTotalHoldingsNotional / pf.getTotalEquity) config.totalLimit ∧
    config.guard.minQuoteReserve * pf.getTotalEquity ≤ pf.totalCash

/-- The exposure checks of the guard, with the cash that is already reserved counted as
    invested. -/
def ExposureWithReservations (config : EffectivePortfolioConfig) (pf : QuotePortfolio)
    (cost : ℚ) : Prop :=
  (pf.getTotalHoldingsNotional + pf.reservedCash + cost) / pf.getTotalEquity ≤
      config.guard.maxQuoteExposure ∧
    WithinLimit ((pf.getTotalHoldingsNotional + pf.reservedCash + cost) / pf.getTotalEquity)
      config.totalLimit

/-- **Exposure limits after pending orders fill.** After any sequence of approved and reserved
    proposals, the limits of the last one hold once all open orders have filled, exactly when the
    last proposal passes the exposure checks with the cash reserved before it counted as invested.
    The minimum reserve holds in any case.

    The guard itself projects the holdings and the one order that it is asked about; it takes the
    reservations off the available cash only. -/
theorem limitsHold_iff_exposureWithReservations (m : PortfolioRiskManager) (key : PortfolioKey)
    (hcons : Consistent (m.portfolioAt key)) (hequity : 0 < (m.portfolioAt key).getTotalEquity)
    (proposals : List Proposal) (last : Proposal)
    (happroved : Along propose (Approved key) m (proposals ++ [last])) (assetOf : String → String)
    (hprice : ∀ uuid ∈ ((run propose m (proposals ++ [last])).portfolioAt key).openOrders.keys,
      0 < ((run propose m (proposals ++ [last])).portfolioAt key).markPrice (assetOf uuid)) :
    LimitsHold (last.config m)
        (fillAllReserved assetOf ((run propose m (proposals ++ [last])).portfolioAt key)) ↔
      ExposureWithReservations (last.config m) ((run propose m proposals).portfolioAt key)
        last.cost := by
  obtain ⟨hbefore, hafter⟩ := along_append.mp happroved
  have hlast : Approved key (run propose m proposals) last := hafter.1
  have hinv := proposalInv_run hcons hequity hbefore
  have hinv' := proposalInv_run hcons hequity happroved
  have hpos : 0 < ((run propose m proposals).portfolioAt key).getTotalEquity := by
    rw [hinv.equity_eq]
    exact hequity
  obtain ⟨hcovered, hreserve⟩ := approved_checks hlast hpos
  obtain ⟨htotal, hreserved, -, hholdings, -⟩ := propose_spec hlast hpos
  have hconfig : last.config (run propose m proposals) = last.config m := by
    unfold Proposal.config
    rw [hinv.config_eq]
  rw [hconfig] at hreserve
  rw [run_concat] at hinv' hprice ⊢
  have hsame : ((propose (run propose m proposals) last).portfolioAt key).getTotalEquity =
      ((run propose m proposals).portfolioAt key).getTotalEquity :=
    hinv'.equity_eq.trans hinv.equity_eq.symm
  generalize run propose m proposals = m₁ at *
  -- the cost is positive and covered, so some cash is available
  have havailable := availableCash_of_pos (lt_of_lt_of_le hlast.cost_pos hcovered)
  obtain ⟨hcash', hholdings', hequity'⟩ := fillAllReserved_spec assetOf hinv'.consistent
    (by rw [htotal, hreserved]; linarith) hprice
  have hinvested : (fillAllReserved assetOf
        ((propose m₁ last).portfolioAt key)).getTotalHoldingsNotional =
      (m₁.portfolioAt key).getTotalHoldingsNotional + (m₁.portfolioAt key).reservedCash +
        last.cost := by
    rw [hholdings', hholdings, hreserved]
    ring
  -- check 2 was made on the unreserved cash, which is the cash after the fills
  have hremaining : (last.config m).guard.minQuoteReserve * (m₁.portfolioAt key).getTotalEquity ≤
      (fillAllReserved assetOf ((propose m₁ last).portfolioAt key)).totalCash := by
    rw [hcash', htotal, hreserved, mul_comm]
    linarith
  unfold LimitsHold ExposureWithReservations
  rw [hequity', hsame, hinvested]
  exact ⟨fun h => ⟨h.1, h.2.1⟩, fun h => ⟨h.1, h.2, hremaining⟩⟩

instance (config : EffectivePortfolioConfig) (pf : QuotePortfolio) :
    Decidable (LimitsHold config pf) :=
  inferInstanceAs (Decidable (_ ∧ _ ∧ _))

/-- Cash of 100 and one asset marked at 10, under the default configuration. -/
def exposureManager : PortfolioRiskManager where
  portfolios := Dict.empty.set ("BINANCE", "USD")
    (((QuotePortfolio.new "BINANCE" "USD").updateCash 100).updateAssetMarkPrice "BTC_USD" 10)
  portfolioConfig := PortfolioConfig.default
  explicitDrawdown := none
  explicitConcentration := none

/-- A proposal on the one asset. -/
def btcProposal (orderUuid : String) (cost : ℚ) : Proposal where
  asset := ⟨"BTC", "USD", 2, "BINANCE", none, none⟩
  orderUuid := orderUuid
  cost := cost
  marketData := some 10
  regime := some .normal

/-- Two orders of 25 keep all limits. -/
theorem limitsHold_iff_two_orders :
    Along propose (Approved ("BINANCE", "USD")) exposureManager
        ([btcProposal "u1" 25] ++ [btcProposal "u2" 25]) ∧
      (LimitsHold ((btcProposal "u2" 25).config exposureManager)
          (fillAllReserved (fun _ => "BTC_USD")
            ((run propose exposureManager ([btcProposal "u1" 25] ++
              [btcProposal "u2" 25])).portfolioAt ("BINANCE", "USD"))) ↔
        ExposureWithReservations ((btcProposal "u2" 25).config exposureManager)
          ((run propose exposureManager [btcProposal "u1" 25]).portfolioAt ("BINANCE", "USD"))
          (btcProposal "u2" 25).cost) :=
  have happroved : Along propose (Approved ("BINANCE", "USD")) exposureManager
      ([btcProposal "u1" 25] ++ [btcProposal "u2" 25]) := by decide +kernel
  ⟨happroved, limitsHold_iff_exposureWithReservations exposureManager ("BINANCE", "USD")
    (by decide +kernel) (by decide +kernel) [btcProposal "u1" 25] (btcProposal "u2" 25)
    happroved (fun _ => "BTC_USD") (by decide +kernel)⟩

/-- Four orders of 25, 25, 25 and 15 are all approved, and invest 90 of the 100 when they
    fill: more than the 80 that both exposure limits allow. -/
theorem limits_broken_by_pending_orders :
    Along propose (Approved ("BINANCE", "USD")) exposureManager
        [btcProposal "u1" 25, btcProposal "u2" 25, btcProposal "u3" 25, btcProposal "u4" 15] ∧
      ¬ LimitsHold ((btcProposal "u4" 15).config exposureManager)
        (fillAllReserved (fun _ => "BTC_USD")
          ((run propose exposureManager [btcProposal "u1" 25, btcProposal "u2" 25,
            btcProposal "u3" 25, btcProposal "u4" 15]).portfolioAt ("BINANCE", "USD"))) := by
  decide +kernel

end CryptoTrading.Protection
