import Mathlib.Algebra.Order.BigOperators.Group.List
import CryptoTrading.Lib.Run
import CryptoTrading.Protection.PortfolioRiskManager

/-!
# Reserved cash and open orders

A quote portfolio keeps the reservations twice: order by order in `open_orders`, and as
one total in `reserved_cash`.  The total is never recomputed from the orders, and
`release_cash` clamps it at zero, so a difference between the two stays unnoticed.

The only operation that can open a gap is `reserve_order_cash` for an order the portfolio
already holds: the total grows by the new amount, while the old amount of the order is
overwritten.  `_on_order_submitted` asks first whether the order is there; the direct entry
point does not.  `reservedCash_eq_sum_iff` says that runs without such a step, and no
others, keep the two in agreement.  Amounts are exact rationals here; sums of decimals of
less than 28 digits are.
-/

namespace CryptoTrading.Protection

open CryptoTrading.Lib CryptoTrading.Accounts QuotePortfolio PortfolioRiskManager

/-! ## §1 Operations of the manager -/

/-- The calls and events that may change a portfolio; the order of an event may be missing. -/
inductive RiskOp where
  | registerAsset (asset : Asset)
  | getPortfolio (exchange quoteCurrency : String)
  | updateConfig (portfolioConfig : PortfolioConfig)
  | updateCashBalance (exchange quoteCurrency : String) (balance : ℚ)
  | updateMarketData (asset : Asset) (closePrice : ℚ)
  | updatePosition (asset : Asset) (positionQty : ℚ)
  | canTrade (asset : Asset) (tradeAction : TradeAction) (proposedOrderCost : ℚ)
      (marketData : Option ℚ) (regime : Option MarketRegime)
  | reserveOrderCash (asset : Asset) (orderUuid : String) (amount : ℚ)
  | releaseOrderCash (exchange quoteCurrency orderUuid : String)
  | releaseOrderCashByUuid (orderUuid : String)
  | reconcileOpenOrders (activeOrderUuids : List String)
  | orderSubmitted (order : Option Order)
  | orderTerminal (event : TerminalEvent) (order : Option Order)
  | marketData (tickerSymbol : String) (closePrice : ℚ)
  | balanceChanged (event : BalanceChangedEvent)

variable (upper : String → String)

def riskStep (m : PortfolioRiskManager) : RiskOp → PortfolioRiskManager
  | .registerAsset asset => m.registerAsset asset
  | .getPortfolio exchange quoteCurrency => m.ensurePortfolio (exchange, quoteCurrency)
  | .updateConfig portfolioConfig => m.updateConfig portfolioConfig
  | .updateCashBalance exchange quoteCurrency balance =>
    m.updateCashBalance exchange quoteCurrency balance
  | .updateMarketData asset closePrice => m.updateMarketData asset closePrice
  | .updatePosition asset positionQty => m.updatePosition asset positionQty
  | .canTrade asset tradeAction cost marketData regime =>
    (m.canTrade asset tradeAction cost marketData regime).1
  | .reserveOrderCash asset orderUuid amount => (m.reserveOrderCash asset orderUuid amount).1
  | .releaseOrderCash exchange quoteCurrency orderUuid =>
    (m.releaseOrderCash exchange quoteCurrency orderUuid).1
  | .releaseOrderCashByUuid orderUuid => (m.releaseOrderCashByUuid orderUuid).1
  | .reconcileOpenOrders active => (m.reconcileOpenOrders active).1
  | .orderSubmitted order => order.elim m m.onOrderSubmitted
  | .orderTerminal event order => order.elim m fun o => m.onTerminalEvent event o.uuid
  | .marketData tickerSymbol closePrice => m.onMarketData tickerSymbol closePrice
  | .balanceChanged event => m.onBalanceChanged upper event

/-! ## §2 One portfolio -/

namespace QuotePortfolio

/-- The amounts of all open orders together. -/
def openTotal (pf : QuotePortfolio) : ℚ := pf.openOrders.sumBy fun _ amount => amount

/-- The reserved total is that of the open orders. -/
def Balanced (pf : QuotePortfolio) : Prop := pf.reservedCash = pf.openTotal

instance (pf : QuotePortfolio) : Decidable pf.Balanced :=
  inferInstanceAs (Decidable (_ = _))

theorem balanced_new (exchange quoteCurrency : String) : (new exchange quoteCurrency).Balanced :=
  rfl

/-- Balance depends on the two reservation fields only. -/
theorem Balanced.of_eq {pf pf' : QuotePortfolio} (h : pf.Balanced)
    (hreserved : pf'.reservedCash = pf.reservedCash) (hopen : pf'.openOrders = pf.openOrders) :
    pf'.Balanced := by
  unfold Balanced openTotal at *
  rw [hreserved, hopen]
  exact h

theorem openTotal_withReservation (pf : QuotePortfolio) (orderUuid : String) {amount : ℚ}
    (hpos : 0 < amount) :
    (pf.withReservation orderUuid amount hpos).openTotal =
      pf.openTotal - (pf.openOrders.get? orderUuid).getD 0 + amount := by
  unfold openTotal withReservation
  rw [Dict.sumBy_set]
  cases pf.openOrders.get? orderUuid <;> rfl

/-- A new reservation keeps the balance exactly when the order was not there. -/
theorem balanced_withReservation_iff {pf : QuotePortfolio} (h : pf.Balanced) (orderUuid : String)
    {amount : ℚ} (hpos : 0 < amount) :
    (pf.withReservation orderUuid amount hpos).Balanced ↔
      pf.openOrders.get? orderUuid = none := by
  have htotal := openTotal_withReservation pf orderUuid hpos
  have hreserved : (pf.withReservation orderUuid amount hpos).reservedCash =
      pf.openTotal + amount := by
    rw [← h]
    rfl
  unfold Balanced
  rw [htotal, hreserved]
  cases hget : pf.openOrders.get? orderUuid with
  | none => simp
  | some old =>
    -- the overwritten amount is positive and still counted in the total
    have hold := pf.openOrders_pos orderUuid old hget
    constructor
    · intro heq
      simp only [Option.getD_some] at heq
      linarith
    · intro habsurd
      cases habsurd

theorem balanced_reserveCash_iff {pf : QuotePortfolio} (h : pf.Balanced) (orderUuid : String)
    (amount : ℚ) :
    (pf.reserveCash orderUuid amount).1.Balanced ↔
      ¬ (pf.Reservable amount ∧ (pf.openOrders.get? orderUuid).isSome) := by
  by_cases hres : pf.Reservable amount
  · rw [reserveCash_of_reservable hres, balanced_withReservation_iff h]
    simp [hres]
  · rw [reserveCash_of_not_reservable hres]
    simp [hres, h]

/-- In a balanced portfolio no order holds more than the total. -/
theorem le_openTotal {pf : QuotePortfolio} {orderUuid : String} {amount : ℚ}
    (h : pf.openOrders.get? orderUuid = some amount) : amount ≤ pf.openTotal := by
  have hmem : (orderUuid, amount) ∈ pf.openOrders.entries :=
    (Dict.get?_eq_some_iff _ _ _).mp h
  unfold openTotal Dict.sumBy
  refine List.single_le_sum ?_ amount (List.mem_map.mpr ⟨_, hmem, rfl⟩)
  intro x hx
  obtain ⟨⟨uuid, a⟩, hentry, rfl⟩ := List.mem_map.mp hx
  exact (pf.openOrders_pos uuid a ((Dict.get?_eq_some_iff _ _ _).mpr hentry)).le

/-- What releasing an order does to the open orders. -/
theorem openOrders_releaseCash (pf : QuotePortfolio) (orderUuid : String) :
    (pf.releaseCash orderUuid).1.openOrders = pf.openOrders.erase orderUuid := by
  cases h : pf.openOrders.get? orderUuid with
  | none => rw [releaseCash_of_none h, Dict.erase_of_get?_none _ h]
  | some amount => exact (releaseCash_of_some h).2.1

/-- In a balanced portfolio the clamp never bites. -/
theorem Balanced.releaseCash {pf : QuotePortfolio} (h : pf.Balanced) (orderUuid : String) :
    (pf.releaseCash orderUuid).1.Balanced := by
  cases hget : pf.openOrders.get? orderUuid with
  | none =>
    rw [releaseCash_of_none hget]
    exact h
  | some amount =>
    have hle := le_openTotal hget
    have hreserved := (releaseCash_of_some hget).2.2.1
    unfold Balanced
    rw [hreserved, h, max_eq_right (by linarith)]
    unfold openTotal
    rw [openOrders_releaseCash, Dict.sumBy_erase, hget]
    rfl

/-- Releasing orders one after the other. -/
def releaseAll (pf : QuotePortfolio) (uuids : List String) : QuotePortfolio :=
  uuids.foldl (fun pf uuid => (pf.releaseCash uuid).1) pf

theorem Balanced.releaseAll {pf : QuotePortfolio} (h : pf.Balanced) (uuids : List String) :
    (pf.releaseAll uuids).Balanced :=
  run_invariant Balanced (fun _ uuid hpf => hpf.releaseCash uuid) h uuids

theorem get?_openOrders_releaseAll (pf : QuotePortfolio) (uuids : List String) (uuid : String) :
    (pf.releaseAll uuids).openOrders.get? uuid =
      if uuid ∈ uuids then none else pf.openOrders.get? uuid := by
  unfold QuotePortfolio.releaseAll
  induction uuids generalizing pf with
  | nil => simp
  | cons u rest ih =>
    rw [List.foldl_cons, ih, openOrders_releaseCash, Dict.get?_erase]
    by_cases hu : uuid = u
    · simp [hu]
    · simp [hu]

/-- Releasing every open order leaves nothing reserved. -/
theorem Balanced.reservedCash_releaseAll {pf : QuotePortfolio} (h : pf.Balanced)
    {uuids : List String} (hall : ∀ uuid ∈ pf.openOrders.keys, uuid ∈ uuids) :
    (pf.releaseAll uuids).reservedCash = 0 := by
  have hempty : (pf.releaseAll uuids).openOrders.entries = [] := by
    refine List.eq_nil_iff_forall_not_mem.mpr ?_
    intro e he
    have hget := (Dict.get?_eq_some_iff _ e.1 e.2).mpr he
    rw [get?_openOrders_releaseAll] at hget
    by_cases hmem : e.1 ∈ uuids
    · simp [hmem] at hget
    · have hkey : e.1 ∉ pf.openOrders.keys := fun hkey => hmem (hall e.1 hkey)
      simp [hmem, (Dict.get?_eq_none_iff _ _).mpr hkey] at hget
  rw [h.releaseAll uuids]
  unfold openTotal Dict.sumBy
  rw [hempty]
  rfl

theorem reconcileOrders_fst (pf : QuotePortfolio) (active : List String) :
    (pf.reconcileOrders active).1 =
      pf.releaseAll (pf.openOrders.keys.filter fun uuid => uuid ∉ active) := by
  unfold reconcileOrders QuotePortfolio.releaseAll
  generalize pf.openOrders.keys.filter (fun uuid => decide (uuid ∉ active)) = orphaned
  generalize (0 : ℚ) = released
  induction orphaned generalizing pf released with
  | nil => rfl
  | cons u rest ih => exact ih (pf.releaseCash u).1 _

end QuotePortfolio

/-! ## §3 All portfolios -/

/-- Every portfolio is balanced. -/
def AllBalanced (m : PortfolioRiskManager) : Prop := ∀ key, (m.portfolioAt key).Balanced

theorem AllBalanced.setPortfolio {m : PortfolioRiskManager} (h : AllBalanced m)
    {key : PortfolioKey} {pf : QuotePortfolio} (hpf : pf.Balanced) :
    AllBalanced (m.setPortfolio key pf) := by
  intro key'
  rw [portfolioAt_setPortfolio]
  split
  · exact hpf
  · exact h key'

theorem allBalanced_setPortfolio_iff {m : PortfolioRiskManager} (h : AllBalanced m)
    (key : PortfolioKey) (pf : QuotePortfolio) :
    AllBalanced (m.setPortfolio key pf) ↔ pf.Balanced := by
  refine ⟨fun hall => ?_, fun hpf => h.setPortfolio hpf⟩
  have hkey := hall key
  rwa [portfolioAt_setPortfolio_self] at hkey

theorem AllBalanced.ensurePortfolio {m : PortfolioRiskManager} (h : AllBalanced m)
    (key : PortfolioKey) : AllBalanced (m.ensurePortfolio key) :=
  h.setPortfolio (h key)

/-- What keeps each portfolio balanced keeps the manager balanced. -/
theorem AllBalanced.mapEntries {m : PortfolioRiskManager} (h : AllBalanced m)
    {f : PortfolioKey → QuotePortfolio → QuotePortfolio}
    (hf : ∀ key pf, pf.Balanced → (f key pf).Balanced) :
    AllBalanced { m with portfolios := m.portfolios.mapEntries f } := by
  intro key
  have hkey := h key
  unfold portfolioAt at *
  rw [Dict.get?_mapEntries]
  cases hget : m.portfolios.get? key with
  | none => exact balanced_new key.1 key.2
  | some pf =>
    rw [hget] at hkey
    exact hf key pf hkey

theorem AllBalanced.mapValues {m : PortfolioRiskManager} (h : AllBalanced m)
    {f : QuotePortfolio → QuotePortfolio} (hf : ∀ pf, pf.Balanced → (f pf).Balanced) :
    AllBalanced { m with portfolios := m.portfolios.mapValues f } := by
  have hentries := h.mapEntries fun _ pf hpf => hf pf hpf
  exact hentries

theorem AllBalanced.releaseOrderCashByUuid {m : PortfolioRiskManager} (h : AllBalanced m)
    (orderUuid : String) : AllBalanced (m.releaseOrderCashByUuid orderUuid).1 := by
  unfold PortfolioRiskManager.releaseOrderCashByUuid
  split
  · exact h.setPortfolio ((h _).releaseCash orderUuid)
  · exact h

/-- The handler reserves for orders it does not find, so it opens no gap. -/
theorem AllBalanced.onOrderSubmitted {m : PortfolioRiskManager} (h : AllBalanced m)
    (order : Order) : AllBalanced (m.onOrderSubmitted order) := by
  unfold PortfolioRiskManager.onOrderSubmitted
  split
  · split
    · rename_i key hkey
      simp only
      split
      · exact h
      · rename_i hheld
        refine h.setPortfolio ((balanced_reserveCash_iff (h key) order.uuid _).mpr ?_)
        exact fun hres => hheld hres.2
    · exact h
  · exact h

theorem AllBalanced.canTrade {m : PortfolioRiskManager} (h : AllBalanced m) (asset : Asset)
    (tradeAction : TradeAction) (cost : ℚ) (marketData : Option ℚ) (regime : Option MarketRegime) :
    AllBalanced (m.canTrade asset tradeAction cost marketData regime).1 := by
  unfold PortfolioRiskManager.canTrade
  split
  · exact h
  · cases marketData with
    | none => exact h.ensurePortfolio asset.portfolioKey
    | some closePrice => exact h.setPortfolio ((h asset.portfolioKey).of_eq rfl rfl)

theorem AllBalanced.onBalanceChanged {m : PortfolioRiskManager} (h : AllBalanced m)
    (event : BalanceChangedEvent) : AllBalanced (m.onBalanceChanged upper event) := by
  refine h.mapEntries ?_
  intro key pf hpf
  split
  · exact hpf.of_eq rfl rfl
  · exact hpf

theorem AllBalanced.onMarketData {m : PortfolioRiskManager} (h : AllBalanced m)
    (tickerSymbol : String) (closePrice : ℚ) :
    AllBalanced (m.onMarketData tickerSymbol closePrice) := by
  refine h.mapValues ?_
  intro pf hpf
  split
  · exact hpf.of_eq rfl rfl
  · exact hpf

theorem AllBalanced.reconcileOpenOrders {m : PortfolioRiskManager} (h : AllBalanced m)
    (active : List String) : AllBalanced (m.reconcileOpenOrders active).1 := by
  refine h.mapValues ?_
  intro pf hpf
  rw [reconcileOrders_fst]
  exact hpf.releaseAll _

/-! ## §4 Runs of the manager -/

/-- The call reserves cash for an order that its portfolio already holds. -/
def ReservesHeld (m : PortfolioRiskManager) : RiskOp → Prop
  | .reserveOrderCash asset orderUuid amount =>
    (m.portfolioAt asset.portfolioKey).Reservable amount ∧
      ((m.portfolioAt asset.portfolioKey).openOrders.get? orderUuid).isSome
  | _ => False

/-- Exactly the reservations for held orders open a gap. -/
theorem allBalanced_riskStep_iff {m : PortfolioRiskManager} (h : AllBalanced m) (op : RiskOp) :
    AllBalanced (riskStep upper m op) ↔ ¬ ReservesHeld m op := by
  -- only a reservation can open a gap; all other operations move both sides alike or neither
  cases op with
  | reserveOrderCash asset orderUuid amount =>
    exact (allBalanced_setPortfolio_iff h _ _).trans
      (balanced_reserveCash_iff (h _) orderUuid amount)
  | registerAsset asset => exact iff_of_true (h.ensurePortfolio _) id
  | getPortfolio exchange quoteCurrency => exact iff_of_true (h.ensurePortfolio _) id
  | updateConfig portfolioConfig => exact iff_of_true h id
  | updateCashBalance exchange quoteCurrency balance =>
    refine iff_of_true (h.setPortfolio ?_) id
    split
    · exact (h _).of_eq rfl rfl
    · exact h _
  | updateMarketData asset closePrice =>
    exact iff_of_true (h.setPortfolio ((h _).of_eq rfl rfl)) id
  | updatePosition asset positionQty =>
    exact iff_of_true (h.setPortfolio ((h _).of_eq rfl rfl)) id
  | canTrade asset tradeAction cost marketData regime =>
    exact iff_of_true (h.canTrade asset tradeAction cost marketData regime) id
  | releaseOrderCash exchange quoteCurrency orderUuid =>
    exact iff_of_true (h.setPortfolio ((h _).releaseCash orderUuid)) id
  | releaseOrderCashByUuid orderUuid => exact iff_of_true (h.releaseOrderCashByUuid orderUuid) id
  | reconcileOpenOrders active => exact iff_of_true (h.reconcileOpenOrders active) id
  | orderSubmitted order =>
    refine iff_of_true ?_ id
    cases order with
    | none => exact h
    | some order => exact h.onOrderSubmitted order
  | orderTerminal event order =>
    refine iff_of_true ?_ id
    cases order with
    | none => exact h
    | some order => exact h.releaseOrderCashByUuid order.uuid
  | marketData tickerSymbol closePrice =>
    exact iff_of_true (h.onMarketData tickerSymbol closePrice) id
  | balanceChanged event => exact iff_of_true (h.onBalanceChanged upper event) id

theorem allBalanced_init (assets : List Asset) (portfolioConfig : Option PortfolioConfig)
    (maxPortfolioDrawdown maxAssetConcentration : Option ℚ) :
    AllBalanced (init assets portfolioConfig maxPortfolioDrawdown maxAssetConcentration) := by
  refine run_invariant AllBalanced (fun _ asset h => h.ensurePortfolio asset.portfolioKey) ?_ assets
  intro key
  exact balanced_new key.1 key.2

/-- Calling `release_order_cash` for each of the orders. -/
def releaseEach (m : PortfolioRiskManager) (key : PortfolioKey) (uuids : List String) :
    PortfolioRiskManager :=
  run (riskStep upper) m (uuids.map fun uuid => .releaseOrderCash key.1 key.2 uuid)

theorem portfolioAt_releaseEach (m : PortfolioRiskManager) (key : PortfolioKey)
    (uuids : List String) :
    (releaseEach upper m key uuids).portfolioAt key = (m.portfolioAt key).releaseAll uuids := by
  induction uuids generalizing m with
  | nil => rfl
  | cons u rest ih =>
    have hstep : (riskStep upper m (.releaseOrderCash key.1 key.2 u)).portfolioAt key =
        ((m.portfolioAt key).releaseCash u).1 := portfolioAt_setPortfolio_self m key _
    have hrest := ih (riskStep upper m (.releaseOrderCash key.1 key.2 u))
    rw [hstep] at hrest
    exact hrest

/-- What a portfolio promises about its reservations: the total is the sum of the open
    orders, and it is zero again once all of them are released or reconciled away. -/
structure CashAccounted (m : PortfolioRiskManager) (key : PortfolioKey) : Prop where
  sum_eq : (m.portfolioAt key).reservedCash = (m.portfolioAt key).openTotal
  released : ∀ uuids, (∀ uuid ∈ (m.portfolioAt key).openOrders.keys, uuid ∈ uuids) →
    ((releaseEach upper m key uuids).portfolioAt key).reservedCash = 0
  reconciled : ∀ active, (∀ uuid ∈ (m.portfolioAt key).openOrders.keys, uuid ∉ active) →
    ((m.reconcileOpenOrders active).1.portfolioAt key).reservedCash = 0

theorem portfolioAt_reconcileOpenOrders (m : PortfolioRiskManager) (active : List String)
    (key : PortfolioKey) :
    (m.reconcileOpenOrders active).1.portfolioAt key =
      ((m.portfolioAt key).reconcileOrders active).1 := by
  unfold PortfolioRiskManager.reconcileOpenOrders portfolioAt
  rw [Dict.get?_mapValues]
  cases m.portfolios.get? key <;> rfl

/-- Balance gives all three promises. -/
theorem AllBalanced.cashAccounted {m : PortfolioRiskManager} (h : AllBalanced m)
    (key : PortfolioKey) : CashAccounted upper m key where
  sum_eq := h key
  released := by
    intro uuids hall
    rw [portfolioAt_releaseEach]
    exact (h key).reservedCash_releaseAll hall
  reconciled := by
    intro active hnone
    rw [portfolioAt_reconcileOpenOrders, reconcileOrders_fst]
    refine (h key).reservedCash_releaseAll ?_
    intro uuid hmem
    exact List.mem_filter.mpr ⟨hmem, by simpa using hnone uuid hmem⟩

/-- **Reserved cash is the sum of the open reservations** in every state of a run exactly when no
    step of the run reserves, by the direct call, cash for an order that its portfolio already
    holds.

    The direct call replaces the stored amount and adds the new one to the sum; the handler of
    submitted orders looks the order up first. -/
theorem reservedCash_eq_sum_iff (assets : List Asset) (portfolioConfig : Option PortfolioConfig)
    (maxPortfolioDrawdown maxAssetConcentration : Option ℚ) (ops : List RiskOp) :
    (∀ before, before <+: ops → ∀ key, CashAccounted upper
        (run (riskStep upper)
          (init assets portfolioConfig maxPortfolioDrawdown maxAssetConcentration) before) key) ↔
      Along (riskStep upper) (fun m op => ¬ ReservesHeld m op)
        (init assets portfolioConfig maxPortfolioDrawdown maxAssetConcentration) ops := by
  have hinit := allBalanced_init assets portfolioConfig maxPortfolioDrawdown maxAssetConcentration
  have hsteps := along_iff_of_invariant AllBalanced
    (fun m op hm => allBalanced_riskStep_iff upper hm op)
    (fun m op hm hop => (allBalanced_riskStep_iff upper hm op).mpr hop) hinit ops
  rw [← hsteps]
  constructor
  · intro h
    have hbalanced : ∀ before, before <+: ops → AllBalanced (run (riskStep upper)
        (init assets portfolioConfig maxPortfolioDrawdown maxAssetConcentration) before) :=
      fun before hbefore key => (h before hbefore key).sum_eq
    exact (forall_prefix_iff_along.mp hbalanced).2
  · intro h before hbefore key
    have hall := forall_prefix_iff_along.mpr ⟨hinit, h⟩ before hbefore
    exact hall.cashAccounted upper key

/-- Cash of 100, and the same order reserved twice, first 20 and then 30. -/
def reservedTwice : List RiskOp :=
  [.updateCashBalance "BINANCE" "USD" 100,
    .reserveOrderCash ⟨"BTC", "USD", 2, "BINANCE", none, none⟩ "u1" 20,
    .reserveOrderCash ⟨"BTC", "USD", 2, "BINANCE", none, none⟩ "u1" 30]

/-- The total then counts 50 for the one open order of 30, and 20 stay reserved for good. -/
theorem second_reservation_inflates_total :
    ¬ CashAccounted id (run (riskStep id) (init [] none none none) reservedTwice)
        ("BINANCE", "USD") ∧
      ((run (riskStep id) (init [] none none none)
        (reservedTwice ++ [.releaseOrderCash "BINANCE" "USD" "u1"])).portfolioAt
          ("BINANCE", "USD")).reservedCash = 20 := by
  refine ⟨fun h => ?_, by decide +kernel⟩
  have hgap : ¬ ((run (riskStep id) (init [] none none none) reservedTwice).portfolioAt
      ("BINANCE", "USD")).Balanced := by decide +kernel
  exact hgap h.sum_eq

end CryptoTrading.Protection
