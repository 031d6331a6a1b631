import CryptoTrading.Lib.History
import CryptoTrading.Orders.UpdateSpec
import CryptoTrading.Protection.Reservations
import CryptoTrading.Trading.OrderPasses

/-!
# What a pass submits

A round works on the managers quietly (`Quiet`) until it either stops or submits one order, and it
submits only what it has approved (`Approval`): this is all that a round can do
(`processAsset_ends`).

Over any BUY and SELL rounds the executed decisions are therefore those of the submitted orders,
one for one and in the same order, and each order has passed every check that its round makes on
the managers it finds and on the answers it gets (`submissions_run`).  No two of the orders are for
the same symbol and side, and none is for a symbol and side that was in flight before
(`submissions_unique`).
-/

namespace CryptoTrading.Trading

open CryptoTrading.Consensus (ConsensusDecision)
open CryptoTrading.Lib
open CryptoTrading.Orders (Execution OrderManager)
open CryptoTrading.Protection
open CryptoTrading.Session (SessionManager TradingContext)

namespace Managers

/-! ## §1 The cash of a portfolio -/

/-- The balance of a round on the portfolio is the one it has already. -/
def Reports (key : PortfolioKey) (m : PortfolioRiskManager) (r : Round) : Prop :=
  r.asset.portfolioKey = key → ∀ balance ∈ r.answers.quoteBalance,
    balance = (m.portfolioAt key).totalCash

/-- The portfolio has the same cash and reservations, and all limits are the same. -/
structure SameCash (key : PortfolioKey) (m m' : PortfolioRiskManager) : Prop where
  books_eq : books (m'.portfolioAt key) = books (m.portfolioAt key)
  limits_eq : m'.effectiveConfig = m.effectiveConfig

theorem SameCash.refl (key : PortfolioKey) (m : PortfolioRiskManager) : SameCash key m m :=
  ⟨rfl, rfl⟩

theorem SameCash.trans {key : PortfolioKey} {m₁ m₂ m₃ : PortfolioRiskManager}
    (h₁ : SameCash key m₁ m₂) (h₂ : SameCash key m₂ m₃) : SameCash key m₁ m₃ :=
  ⟨h₂.books_eq.trans h₁.books_eq, h₂.limits_eq.trans h₁.limits_eq⟩

theorem SameCash.totalCash_eq {key : PortfolioKey} {m m' : PortfolioRiskManager}
    (h : SameCash key m m') : (m'.portfolioAt key).totalCash = (m.portfolioAt key).totalCash :=
  (books_eq_iff.mp h.books_eq).1

theorem SameCash.reports {key : PortfolioKey} {m m' : PortfolioRiskManager} {r : Round}
    (h : SameCash key m m') (hr : Reports key m r) : Reports key m' r := by
  intro hkey balance hbalance
  rw [hr hkey balance hbalance, h.totalCash_eq]

/-- Storing a portfolio with the books of the one that is there. -/
theorem sameCash_setPortfolio (key : PortfolioKey) {m : PortfolioRiskManager} {key' : PortfolioKey}
    {pf : QuotePortfolio} (h : key' = key → books pf = books (m.portfolioAt key)) :
    SameCash key m (m.setPortfolio key' pf) where
  books_eq := by
    rw [PortfolioRiskManager.portfolioAt_setPortfolio]
    split
    · rename_i hkey
      exact h hkey.symm
    · rfl
  limits_eq := rfl

theorem sameCash_onMarketData (key : PortfolioKey) (m : PortfolioRiskManager) (ticker : String)
    (closePrice : ℚ) : SameCash key m (m.onMarketData ticker closePrice) where
  books_eq := by
    unfold PortfolioRiskManager.onMarketData PortfolioRiskManager.portfolioAt
    rw [Dict.get?_mapValues]
    cases m.portfolios.get? key with
    | none => rfl
    | some pf =>
      rw [Option.map_some, Option.getD_some, Option.getD_some]
      split <;> rfl
  limits_eq := rfl

theorem sameCash_updateMarketData (key : PortfolioKey) (m : PortfolioRiskManager) (asset : Asset)
    (closePrice : ℚ) : SameCash key m (m.updateMarketData asset closePrice) :=
  sameCash_setPortfolio key fun hkey => by rw [← hkey]; rfl

/-- What is reported is what the portfolio has, so that valuing it moves no cash. -/
theorem sameCash_valuePortfolios {key : PortfolioKey} {m : PortfolioRiskManager} {r : Round}
    (h : Reports key m r) {balance : ℚ} (hbalance : r.answers.quoteBalance = some balance)
    (closePrice : ℚ) : SameCash key m (valuePortfolios r balance closePrice m) := by
  have hcash : SameCash key m
      (m.updateCashBalance r.asset.exchange r.asset.quoteTickerSymbol balance) := by
    refine sameCash_setPortfolio key ?_
    intro hkey
    have htotal : (m.portfolioAt key).totalCash = balance := (h hkey balance hbalance).symm
    rw [← hkey] at htotal ⊢
    rw [if_neg (not_not.mpr htotal)]
  exact (hcash.trans (sameCash_updateMarketData key _ r.asset.toAsset closePrice)).trans
    (sameCash_onMarketData key _ _ _)

theorem sameCash_updatePosition (key : PortfolioKey) (m : PortfolioRiskManager) (asset : Asset)
    (positionQty : ℚ) : SameCash key m (m.updatePosition asset positionQty) :=
  sameCash_setPortfolio key fun hkey => by rw [← hkey]; rfl

/-! ## §2 Quiet work -/

/-- The decisions that led to an order. -/
def executed (s : Managers) : List TradingDecision := s.decisions.filter (·.status = .executed)

/-- What a round does while it submits nothing. -/
structure Quiet (r : Round) (s t : Managers) : Prop where
  activityQueue : t.activityQueue = s.activityQueue
  executed : t.executed = s.executed
  inFlight : t.orderManager.inFlightOrders = s.orderManager.inFlightOrders
  database : t.orderManager.database = s.orderManager.database
  portfolios : ∀ key m, s.portfolioRiskManager = some m → Reports key m r →
    ∃ m', t.portfolioRiskManager = some m' ∧ SameCash key m m'

theorem Quiet.refl (r : Round) (s : Managers) : Quiet r s s :=
  ⟨rfl, rfl, rfl, rfl, fun key m hm _ => ⟨m, hm, SameCash.refl key m⟩⟩

theorem Quiet.trans {r : Round} {s t u : Managers} (h₁ : Quiet r s t) (h₂ : Quiet r t u) :
    Quiet r s u where
  activityQueue := h₂.activityQueue.trans h₁.activityQueue
  executed := h₂.executed.trans h₁.executed
  inFlight := h₂.inFlight.trans h₁.inFlight
  database := h₂.database.trans h₁.database
  portfolios := by
    intro key m hm hr
    obtain ⟨m', hm', hsame⟩ := h₁.portfolios key m hm hr
    obtain ⟨m'', hm'', hsame'⟩ := h₂.portfolios key m' hm' (hsame.reports hr)
    exact ⟨m'', hm'', hsame.trans hsame'⟩

/-- Quiet work finds the same intents. -/
theorem Quiet.hasOutstandingIntent {r : Round} {s t : Managers} (h : Quiet r s t)
    (ticker : String) (action : Option TradeAction) (queryRaises : Bool) :
    t.orderManager.hasOutstandingIntent ticker action queryRaises =
      s.orderManager.hasOutstandingIntent ticker action queryRaises := by
  unfold OrderManager.hasOutstandingIntent
  rw [h.inFlight, h.database]

theorem quiet_setSession (r : Round) (s : Managers) (sm : Session.SessionManager) :
    Quiet r s (s.setSession sm) :=
  ⟨rfl, rfl, rfl, rfl, fun key m hm _ => ⟨m, hm, SameCash.refl key m⟩⟩

theorem quiet_updatePortfolios {r : Round} {s : Managers}
    {f : PortfolioRiskManager → PortfolioRiskManager}
    (h : ∀ key m, Reports key m r → SameCash key m (f m)) : Quiet r s (s.updatePortfolios f) where
  activityQueue := rfl
  executed := rfl
  inFlight := rfl
  database := rfl
  portfolios := by
    intro key m hm hr
    refine ⟨f m, ?_, h key m hr⟩
    change s.portfolioRiskManager.map f = some (f m)
    rw [hm]
    rfl

theorem quiet_recordDecision (r : Round) (s : Managers) {decision : TradingDecision}
    (h : decision.status ≠ .executed) : Quiet r s (s.recordDecision decision) where
  activityQueue := rfl
  executed := by
    unfold executed recordDecision
    rw [List.filter_append, List.filter_singleton, decide_eq_false h]
    simp
  inFlight := rfl
  database := rfl
  portfolios := fun key m hm _ => ⟨m, hm, SameCash.refl key m⟩

theorem quiet_initContext {r : Round} {s t : Managers} (h : s.initContext r = some t) :
    Quiet r s t := by
  unfold initContext at h
  split at h
  · obtain rfl := Option.some.inj h
    exact Quiet.refl r s
  · obtain ⟨balance, -, hrest⟩ := Option.bind_eq_some_iff.mp h
    obtain ⟨sm, -, heq⟩ := Option.bind_eq_some_iff.mp hrest
    obtain rfl := Option.some.inj heq
    exact quiet_setSession r s sm

/-- What a trade context is made of. -/
theorem prepareTradeContext_spec {r : Round} {s t : Managers} {c : Option TradeContext}
    (h : s.prepareTradeContext r = (t, c)) :
    Quiet r s t ∧ ∀ x ∈ c, r.answers.quoteBalance = some x.availableBalance ∧
      r.answers.marketData = some x.marketData ∧ r.answers.fees = some x.fees ∧
      t.sessionManager = updateAvailableBalance s.sessionManager r.asset.key x.availableBalance ∧
      t.portfolioRiskManager = s.portfolioRiskManager.map
        (valuePortfolios r x.availableBalance x.marketData.closePrice) := by
  unfold prepareTradeContext at h
  split at h
  · obtain ⟨rfl, rfl⟩ := Prod.mk.inj h
    exact ⟨Quiet.refl r s, by simp⟩
  · rename_i balance hbalance
    have hsession := quiet_setSession r s
      (updateAvailableBalance s.sessionManager r.asset.key balance)
    dsimp only at h
    split at h
    · rename_i marketData fees hdata hfees hcandles
      obtain ⟨rfl, rfl⟩ := Prod.mk.inj h
      refine ⟨hsession.trans (quiet_updatePortfolios ?_), ?_⟩
      · intro key m hr
        exact sameCash_valuePortfolios hr hbalance marketData.closePrice
      · intro x hx
        obtain rfl := Option.some.inj hx
        exact ⟨hbalance, hdata, hfees, rfl, rfl⟩
    · obtain ⟨rfl, rfl⟩ := Prod.mk.inj h
      exact ⟨hsession, by simp⟩

theorem quiet_enterRegime (r : Round) (s : Managers) (ctx : Session.TradingContext)
    (regime : MarketRegime) : Quiet r s (s.enterRegime r ctx regime) :=
  (quiet_setSession r s _).trans
    (quiet_updatePortfolios fun key m _ => sameCash_updatePosition key m _ _)

/-- Asking the risk manager stores a price; its answer is that of the guard on the portfolio as it
    is then. -/
theorem askRisk_spec {r : Round} {s t : Managers} {cost closePrice : ℚ} {regime : MarketRegime}
    {verdict : GuardDecision} (h : s.askRisk r cost closePrice regime = (t, verdict)) :
    Quiet r s t ∧ (∀ m ∈ s.portfolioRiskManager,
        verdict = (m.canTrade r.asset.toAsset .buy cost (some closePrice) (some regime)).2) ∧
      ∀ m ∈ t.portfolioRiskManager, verdict =
        QuotePortfolioGuard.evaluate r.asset.tickerSymbol cost
          (PortfolioRiskManager.riskMetricsOf (m.portfolioAt r.asset.portfolioKey)
            r.asset.tickerSymbol) regime (m.effectiveConfig r.asset.toAsset regime) := by
  unfold askRisk at h
  -- without a risk manager everything is permitted
  split at h
  · rename_i hnone
    obtain ⟨rfl, rfl⟩ := Prod.mk.inj h
    refine ⟨Quiet.refl r s, ?_, ?_⟩
    · intro m hm
      rw [hnone] at hm
      cases hm
    · intro m hm
      rw [hnone] at hm
      cases hm
  · rename_i m hm
    obtain ⟨rfl, rfl⟩ := Prod.mk.inj h
    refine ⟨⟨rfl, rfl, rfl, rfl, ?_⟩, ?_, ?_⟩
    · intro key m₀ hm₀ _
      obtain rfl := Option.some.inj (hm.symm.trans hm₀)
      exact ⟨_, rfl, sameCash_updateMarketData key m r.asset.toAsset closePrice⟩
    · intro m₀ hm₀
      obtain rfl := Option.some.inj (hm.symm.trans hm₀)
      rfl
    · intro m' hm'
      obtain rfl := Option.some.inj hm'
      rfl

/-! ## §3 What is approved -/

/-- The trading context that a round works with: the one that is there, or the one that it
    makes. -/
def contextOf (s : Managers) (r : Round) : Option TradingContext :=
  (s.initContext r).bind (·.sessionManager.getTradingContext r.asset.key)

/-- The portfolios as a BUY round has them when it asks about its order. -/
def asked (r : Round) (t : TradeContext) (ctx : TradingContext) (m : PortfolioRiskManager) :
    PortfolioRiskManager :=
  (valuePortfolios r t.availableBalance t.marketData.closePrice m).updatePosition r.asset.toAsset
    ctx.positionQty

/-- What a round that finds the managers `s` knows before it asks the strategies. -/
structure Prepared (s : Managers) (r : Round) (t : TradeContext) (ctx : TradingContext)
    (regime : MarketRegime) : Prop where
  enabled : r.asset.enabled = true
  context_eq : s.contextOf r = some ctx
  quoteBalance_eq : r.answers.quoteBalance = some t.availableBalance
  marketData_eq : r.answers.marketData = some t.marketData
  fees_eq : r.answers.fees = some t.fees
  regime_eq : r.answers.regime = some regime

/-- What it knows when the quantity is calculated. -/
structure Judged (s : Managers) (action : TradeAction) (r : Round) (t : TradeContext)
    (ctx : TradingContext) (regime : MarketRegime) (d : ConsensusDecision) (price : ℚ)
    (formula : Option (String × FormulaResult)) : Prop extends Prepared s r t ctx regime where
  consensus_eq : r.answers.consensus = .decided d
  quorum : d.quorum = true
  price_eq : calculatePrice r.asset t.marketData t.fees = some price
  noIntent : s.orderManager.hasOutstandingIntent r.asset.tickerSymbol (some action)
    r.answers.intentQueryRaises = false
  edge : validateExecutionEdge t.marketData t.fees = true
  formula_eq : r.answers.formula = some formula
  held : action = .sell → ctx.openPositions ≠ []

/-- Everything that it checks. -/
structure Checked (s : Managers) (action : TradeAction) (r : Round) (t : TradeContext)
    (ctx : TradingContext) (regime : MarketRegime) (d : ConsensusDecision) (price : ℚ)
    (formula : Option (String × FormulaResult)) (health : Option Bool) (quantity : ℚ) : Prop
    extends Judged s action r t ctx regime d price formula where
  quantity_eq : quantity = calculateQuantity r.asset formula (some ctx)
  health_eq : r.answers.healthAllowed = some health
  healthy : health ≠ some false
  funded : action = .buy → 0 < t.availableBalance ∧ price * quantity ≤ t.availableBalance
  permitted : action = .buy → ∀ m ∈ s.portfolioRiskManager,
    ((asked r t ctx m).canTrade r.asset.toAsset .buy (price * quantity)
      (some t.marketData.closePrice) (some regime)).2.allowed = true
  covered : action = .sell → ∃ balance ∈ r.answers.baseBalance, quantity ≤ balance

/-- An order that a round which found the managers `s₀` may submit when they are `s`, with what was
    found on the way. -/
structure Approval (s₀ s : Managers) (action : TradeAction) (r : Round) where
  context : TradeContext
  tradingContext : TradingContext
  regime : MarketRegime
  consensus : ConsensusDecision
  price : ℚ
  formula : Option (String × FormulaResult)
  health : Option Bool
  quantity : ℚ
  sizing : SizingSnapshot
  checked : Checked s₀ action r context tradingContext regime consensus price formula health
    quantity
  sizing_eq : sizing.finalQuantity = some quantity
  allowed : action = .buy → ∀ m ∈ s.portfolioRiskManager,
    (QuotePortfolioGuard.evaluate r.asset.tickerSymbol (price * quantity)
      (PortfolioRiskManager.riskMetricsOf (m.portfolioAt r.asset.portfolioKey)
        r.asset.tickerSymbol) regime (m.effectiveConfig r.asset.toAsset regime)).allowed = true

namespace Approval

variable {s₀ s : Managers} {action : TradeAction} {r : Round} (a : Approval s₀ s action r)

def decision : TradingDecision :=
  s.decisionOf r action .executed none (some a.consensus) a.sizing ⟨true, none⟩ a.health

def order : Order :=
  s.orderOf r action a.context.marketData a.regime a.consensus a.price a.quantity

end Approval

/-- A round that found `s₀` works from one state to the other, and then stops or submits what it
    has approved. -/
def Ends (s₀ : Managers) (action : TradeAction) (r : Round) (s t : Managers) : Prop :=
  Quiet r s t ∨
    ∃ u, Quiet r s u ∧ ∃ a : Approval s₀ u action r, t = u.submitOrder r a.decision a.order

theorem Quiet.ends {s₀ : Managers} {action : TradeAction} {r : Round} {s t u : Managers}
    (h : Quiet r s t) (hends : Ends s₀ action r t u) : Ends s₀ action r s u := by
  rcases hends with hquiet | ⟨v, hquiet, a, heq⟩
  · exact .inl (h.trans hquiet)
  · exact .inr ⟨v, h.trans hquiet, a, heq⟩

theorem Approval.ends {s₀ s : Managers} {action : TradeAction} {r : Round}
    (a : Approval s₀ s action r) : Ends s₀ action r s (s.submitOrder r a.decision a.order) :=
  .inr ⟨s, Quiet.refl r s, a, rfl⟩

section Contexts

variable {sm : SessionManager} {assetKey : String}

/-- The balance is all that changes in the context. -/
theorem getTradingContext_updateAvailableBalance (availableBalance : ℚ) :
    (updateAvailableBalance sm assetKey availableBalance).getTradingContext assetKey =
      (sm.getTradingContext assetKey).map fun ctx =>
        { ctx with availableBalance := availableBalance } := by
  unfold updateAvailableBalance
  cases hctx : sm.getTradingContext assetKey with
  | none => exact hctx
  | some ctx =>
    obtain ⟨session, hsession, -⟩ := Option.bind_eq_some_iff.mp hctx
    rw [Session.SessionManager.getTradingContext_setContext hsession, if_pos rfl]
    rfl

theorem getTradingContext_setContext_isSome (h : (sm.getTradingContext assetKey).isSome)
    (ctx : TradingContext) : ((sm.setContext assetKey ctx).getTradingContext assetKey).isSome := by
  obtain ⟨old, hold⟩ := Option.isSome_iff_exists.mp h
  obtain ⟨session, hsession, -⟩ := Option.bind_eq_some_iff.mp hold
  rw [Session.SessionManager.getTradingContext_setContext hsession, if_pos rfl]
  rfl

/-- The quantity depends on whether there is a context, not on which. -/
theorem calculateQuantity_of_isSome (asset : TradingAsset)
    (formula : Option (String × FormulaResult)) {c : Option TradingContext} (h : c.isSome)
    (ctx : TradingContext) :
    calculateQuantity asset formula c = calculateQuantity asset formula (some ctx) := by
  obtain ⟨old, rfl⟩ := Option.isSome_iff_exists.mp h
  rcases formula with _ | ⟨_, _ | _ | _⟩ <;> rfl

end Contexts

section Rounds

variable {decimal percent : ℚ → String} {s₀ s : Managers} {r : Round} {t : TradeContext}
  {ctx : TradingContext} {regime : MarketRegime} {d : ConsensusDecision} {price : ℚ}
  {formula : Option (String × FormulaResult)}

/-- The end of a BUY round: the cost is compared with the balance, then the risk manager and the
    health monitor are asked. -/
theorem finishBuy_ends (h : Judged s₀ .buy r t ctx regime d price formula)
    (hpos : 0 < t.availableBalance)
    (hsome : (s.sessionManager.getTradingContext r.asset.key).isSome)
    (hportfolios : s.portfolioRiskManager = s₀.portfolioRiskManager.map (asked r t ctx)) :
    Ends s₀ .buy r s (s.finishBuy decimal percent r t regime d price formula) := by
  unfold finishBuy
  dsimp only
  generalize hquantity : calculateQuantity r.asset formula
    (s.sessionManager.getTradingContext r.asset.key) = quantity
  rw [calculateQuantity_of_isSome r.asset formula hsome ctx] at hquantity
  split
  · -- the balance does not cover the cost
    exact .inl (quiet_recordDecision r s (by simp [decisionOf]))
  rename_i hfunded
  cases hask : s.askRisk r (price * quantity) t.marketData.closePrice regime with
  | mk u verdict =>
    obtain ⟨hquiet, hpermitted, hverdict⟩ := askRisk_spec hask
    dsimp only
    refine hquiet.ends ?_
    split
    · -- the risk manager rejects the order
      exact .inl (quiet_recordDecision r u (by simp [decisionOf]))
    rename_i hallowed
    have hallowed : verdict.allowed = true := by simpa using hallowed
    split
    · -- the health monitor raises
      exact .inl (Quiet.refl r u)
    · -- it forbids new orders
      exact .inl (quiet_recordDecision r u (by simp [decisionOf]))
    rename_i health hhealthy hhealth
    -- all checks are passed, and the approval is what they were made on
    let a : Approval s₀ u .buy r :=
      { context := t
        tradingContext := ctx
        regime := regime
        consensus := d
        price := price
        formula := formula
        health := health
        quantity := quantity
        sizing := ⟨formula.map (·.1), some quantity, r.asset.minQuantity, some quantity,
          some (price * quantity), some price⟩
        checked :=
          { h with
            quantity_eq := hquantity.symm
            health_eq := hhealth
            healthy := hhealthy
            funded := fun _ => ⟨hpos, not_lt.mp hfunded⟩
            permitted := by
              intro _ m hm
              have hasked : asked r t ctx m ∈ s.portfolioRiskManager := by
                rw [hportfolios]
                exact Option.mem_map_of_mem _ hm
              rw [← hpermitted _ hasked]
              exact hallowed
            covered := fun hsell => nomatch hsell }
        sizing_eq := rfl
        allowed := by
          intro _ m hm
          rw [← hverdict m hm]
          exact hallowed }
    exact a.ends

/-- A BUY round from the answer of the strategies on. -/
theorem judgeBuy_ends (h : Prepared s₀ r t ctx regime) (hpos : 0 < t.availableBalance)
    (hquiet : Quiet r s₀ s) (hsome : (s.sessionManager.getTradingContext r.asset.key).isSome)
    (hportfolios : s.portfolioRiskManager = s₀.portfolioRiskManager.map (asked r t ctx)) :
    Ends s₀ .buy r s (s.judgeBuy decimal percent r t regime) := by
  unfold judgeBuy
  dsimp only
  split
  · -- the strategies cannot be asked
    exact .inl (Quiet.refl r s)
  · -- the protections halt the asset
    exact .inl (quiet_recordDecision r s (by simp [decisionOf]))
  rename_i d hconsensus
  split
  · -- there is no quorum
    exact .inl (quiet_recordDecision r s (by simp [decisionOf]))
  rename_i hquorum
  split
  · -- there is no price
    exact .inl (Quiet.refl r s)
  rename_i price hprice
  split
  · -- there is an intent already
    exact .inl (quiet_recordDecision r s (by simp [decisionOf]))
  rename_i hintent
  split
  · -- the fees and the spread are too high
    exact .inl (quiet_recordDecision r s (by simp [decisionOf]))
  rename_i hedge
  split
  · -- the formula cannot be looked up
    exact .inl (Quiet.refl r s)
  rename_i formula hformula
  have hjudged : Judged s₀ .buy r t ctx regime d price formula :=
    { h with
      consensus_eq := hconsensus
      quorum := by simpa using hquorum
      price_eq := hprice
      noIntent := by
        rw [← hquiet.hasOutstandingIntent]
        simpa using hintent
      edge := by simpa using hedge
      formula_eq := hformula
      held := fun hsell => nomatch hsell }
  exact finishBuy_ends hjudged hpos hsome hportfolios

theorem portfolioRiskManager_initContext {s t : Managers} (h : s.initContext r = some t) :
    t.portfolioRiskManager = s.portfolioRiskManager := by
  unfold initContext at h
  split at h
  · obtain rfl := Option.some.inj h
    rfl
  · obtain ⟨balance, -, hrest⟩ := Option.bind_eq_some_iff.mp h
    obtain ⟨sm, -, heq⟩ := Option.bind_eq_some_iff.mp hrest
    obtain rfl := Option.some.inj heq
    rfl

/-- A BUY round, up to the answer of the strategies. -/
theorem processBuyAsset_ends (henabled : r.asset.enabled = true) :
    Ends s .buy r s (s.processBuyAsset decimal percent r) := by
  unfold processBuyAsset
  split
  · -- there is no context
    exact .inl (Quiet.refl r s)
  rename_i s₁ hinit
  have hinitQuiet := quiet_initContext hinit
  refine hinitQuiet.ends ?_
  cases hprepare : s₁.prepareTradeContext r with
  | mk s₂ c =>
    obtain ⟨hquiet, hcontext⟩ := prepareTradeContext_spec hprepare
    refine hquiet.ends ?_
    cases c with
    | none => exact .inl (Quiet.refl r s₂)
    | some t =>
      obtain ⟨hbalance, hdata, hfees, hsession, hportfolios⟩ := hcontext t rfl
      dsimp only
      split
      · -- there is nothing to buy with
        exact .inl (Quiet.refl r s₂)
      rename_i hpos
      split
      · rename_i ctx' regime hctx hregime
        -- the context is the one from before, with the reported balance
        have hbefore := hctx
        rw [hsession, getTradingContext_updateAvailableBalance] at hbefore
        obtain ⟨ctx, hfound, heq⟩ := Option.map_eq_some_iff.mp hbefore
        have hqty : ctx'.positionQty = ctx.positionQty := by rw [← heq]
        have hprepared : Prepared s r t ctx regime :=
          { enabled := henabled
            context_eq := Option.bind_eq_some_iff.mpr ⟨s₁, hinit, hfound⟩
            quoteBalance_eq := hbalance
            marketData_eq := hdata
            fees_eq := hfees
            regime_eq := hregime }
        have hentered := quiet_enterRegime r s₂ ctx' regime
        refine hentered.ends (judgeBuy_ends hprepared (not_le.mp hpos)
          (hinitQuiet.trans (hquiet.trans hentered)) ?_ ?_)
        · refine getTradingContext_setContext_isSome ?_ _
          rw [hctx]
          rfl
        · show s₂.portfolioRiskManager.map (·.updatePosition r.asset.toAsset ctx'.positionQty) = _
          rw [hportfolios, portfolioRiskManager_initContext hinit, Option.map_map, hqty]
          rfl
      · exact .inl (Quiet.refl r s₂)

/-- The end of a SELL round: the health monitor is asked, and the quantity is compared with the
    base balance. -/
theorem finishSell_ends {baseBalance : ℚ} (h : Judged s₀ .sell r t ctx regime d price formula)
    (hsome : (s.sessionManager.getTradingContext r.asset.key).isSome)
    (hbase : r.answers.baseBalance = some baseBalance) :
    Ends s₀ .sell r s (s.finishSell r t baseBalance regime d price formula) := by
  unfold finishSell
  dsimp only
  generalize hquantity : calculateQuantity r.asset formula
    (s.sessionManager.getTradingContext r.asset.key) = quantity
  rw [calculateQuantity_of_isSome r.asset formula hsome ctx] at hquantity
  split
  · -- the health monitor raises
    exact .inl (Quiet.refl r s)
  · -- it forbids new orders
    exact .inl (quiet_recordDecision r s (by simp [decisionOf]))
  rename_i health hhealthy hhealth
  split
  · rename_i hcovered
    let a : Approval s₀ s .sell r :=
      { context := t
        tradingContext := ctx
        regime := regime
        consensus := d
        price := price
        formula := formula
        health := health
        quantity := quantity
        sizing := ⟨none, some quantity, r.asset.minQuantity, some quantity, none, some price⟩
        checked :=
          { h with
            quantity_eq := hquantity.symm
            health_eq := hhealth
            healthy := hhealthy
            funded := fun hbuy => nomatch hbuy
            permitted := fun hbuy => nomatch hbuy
            covered := fun _ => ⟨baseBalance, hbase, hcovered⟩ }
        sizing_eq := rfl
        allowed := fun hbuy => nomatch hbuy }
    exact a.ends
  · -- there is not enough to sell
    exact .inl (Quiet.refl r s)

/-- A SELL round from the answer of the strategies on. -/
theorem judgeSell_ends {baseBalance : ℚ} (h : Prepared s₀ r t ctx regime)
    (hsome : (s.sessionManager.getTradingContext r.asset.key).isSome)
    (hheld : ctx.openPositions ≠ []) (hbase : r.answers.baseBalance = some baseBalance)
    (hprice : calculatePrice r.asset t.marketData t.fees = some price)
    (hintent : s₀.orderManager.hasOutstandingIntent r.asset.tickerSymbol (some .sell)
      r.answers.intentQueryRaises = false) :
    Ends s₀ .sell r s (s.judgeSell r t baseBalance price regime) := by
  unfold judgeSell
  split
  · rename_i d hconsensus
    split
    · -- there is no quorum
      exact .inl (Quiet.refl r s)
    rename_i hquorum
    split
    · -- the fees and the spread are too high
      exact .inl (quiet_recordDecision r s (by simp [decisionOf]))
    rename_i hedge
    split
    · -- the formula cannot be looked up
      exact .inl (Quiet.refl r s)
    rename_i formula hformula
    have hjudged : Judged s₀ .sell r t ctx regime d price formula :=
      { h with
        consensus_eq := hconsensus
        quorum := by simpa using hquorum
        price_eq := hprice
        noIntent := hintent
        edge := by simpa using hedge
        formula_eq := hformula
        held := fun _ => hheld }
    exact finishSell_ends hjudged hsome hbase
  · -- the strategies cannot be asked, or the protections halt the asset
    exact .inl (Quiet.refl r s)

/-- A SELL round, up to the answer of the strategies. -/
theorem processSellAsset_ends (henabled : r.asset.enabled = true) :
    Ends s .sell r s (s.processSellAsset r) := by
  unfold processSellAsset
  split
  · -- there is no context
    exact .inl (Quiet.refl r s)
  rename_i s₁ hinit
  have hinitQuiet := quiet_initContext hinit
  refine hinitQuiet.ends ?_
  split
  · exact .inl (Quiet.refl r s₁)
  rename_i ctx hctx
  split
  · -- there is no open position
    exact .inl (Quiet.refl r s₁)
  rename_i hheld
  split
  · -- there is an intent already
    exact .inl (Quiet.refl r s₁)
  rename_i hintent
  rw [hinitQuiet.hasOutstandingIntent] at hintent
  cases hprepare : s₁.prepareTradeContext r with
  | mk s₂ c =>
    obtain ⟨hquiet, hcontext⟩ := prepareTradeContext_spec hprepare
    refine hquiet.ends ?_
    cases c with
    | none => exact .inl (Quiet.refl r s₂)
    | some t =>
      obtain ⟨hbalance, hdata, hfees, hsession, -⟩ := hcontext t rfl
      dsimp only
      split
      · rename_i baseBalance price regime hbase hprice hregime
        have hprepared : Prepared s r t ctx regime :=
          { enabled := henabled
            context_eq := Option.bind_eq_some_iff.mpr ⟨s₁, hinit, hctx⟩
            quoteBalance_eq := hbalance
            marketData_eq := hdata
            fees_eq := hfees
            regime_eq := hregime }
        refine judgeSell_ends hprepared ?_ hheld hbase hprice (by simpa using hintent)
        rw [hsession, getTradingContext_updateAvailableBalance, hctx]
        rfl
      · exact .inl (Quiet.refl r s₂)

variable (decimal percent) in
/-- **All that a round can do.** -/
theorem processAsset_ends (s : Managers) (x : TradeAction × Round) :
    Ends s x.1 x.2 s (s.processAsset decimal percent x) := by
  obtain ⟨action, r⟩ := x
  cases action with
  | buy =>
    show Ends s .buy r s (if r.asset.enabled = true then s.processBuyAsset decimal percent r else s)
    split
    · rename_i henabled
      exact processBuyAsset_ends henabled
    · exact .inl (Quiet.refl r s)
  | sell =>
    show Ends s .sell r s (if r.asset.enabled = true then s.processSellAsset r else s)
    split
    · rename_i henabled
      exact processSellAsset_ends henabled
    · exact .inl (Quiet.refl r s)

/-! ## §4 What a submission changes -/

section Submit

variable {s₀ u : Managers} {action : TradeAction} {x : Round} (a : Approval s₀ u action x)

/-- The order as it is opened. -/
def Approval.opened : Order := u.orderManager.openedOrder a.order

/-- The decision as it is recorded with the order. -/
def Approval.recorded : TradingDecision :=
  { a.decision with resultingOrderId := some a.opened.uuid }

/-- What a submitted order makes of the portfolios. -/
def Approval.commit (m : PortfolioRiskManager) : PortfolioRiskManager :=
  (if action = .buy then
    (m.reserveOrderCash x.asset.toAsset x.answers.orderUuid (a.price * a.quantity)).1
  else m).onOrderSubmitted a.opened

theorem submitOrder_of_opened {orderManager : OrderManager}
    (h : u.orderManager.openOrder a.order x.answers.execution = (orderManager, false)) :
    u.submitOrder x a.decision a.order =
      { orderManager := orderManager
        portfolioRiskManager := u.portfolioRiskManager.map a.commit
        decisions := u.decisions ++ [a.recorded]
        activityQueue := u.activityQueue ++ [a.opened] } := by
  simp only [submitOrder, h]
  cases action with
  | buy =>
    have hmap := Option.map_map (fun m : PortfolioRiskManager => m.onOrderSubmitted a.opened)
      (fun m => (m.reserveOrderCash x.asset.toAsset x.answers.orderUuid (a.price * a.quantity)).1)
      u.portfolioRiskManager
    exact congrArg (fun portfolios => Managers.mk orderManager portfolios
      (u.decisions ++ [a.recorded]) (u.activityQueue ++ [a.opened])) hmap
  | sell => rfl

/-- Opening the order raises, or the decision, the reservation and the report follow. -/
theorem submitOrder_cases :
    (u.submitOrder x a.decision a.order).orderManager.inFlightOrders =
        u.orderManager.inFlightOrders.set x.answers.orderUuid (x.asset.tickerSymbol, action) ∧
      (((u.submitOrder x a.decision a.order).activityQueue = u.activityQueue ∧
          (u.submitOrder x a.decision a.order).executed = u.executed ∧
          (u.submitOrder x a.decision a.order).portfolioRiskManager = u.portfolioRiskManager) ∨
        ((u.submitOrder x a.decision a.order).activityQueue = u.activityQueue ++ [a.opened] ∧
          (u.submitOrder x a.decision a.order).executed = u.executed ++ [a.recorded] ∧
          (u.submitOrder x a.decision a.order).portfolioRiskManager =
            u.portfolioRiskManager.map a.commit)) := by
  have hframe := (Orders.openOrder_frame u.orderManager a.order x.answers.execution).1
  cases hopen : u.orderManager.openOrder a.order x.answers.execution with
  | mk orderManager raised =>
    rw [hopen] at hframe
    cases raised with
    | true =>
      have hstopped : u.submitOrder x a.decision a.order =
          { u with orderManager := orderManager } := by
        simp only [submitOrder, hopen]
      rw [hstopped]
      exact ⟨hframe, .inl ⟨rfl, rfl, rfl⟩⟩
    | false =>
      rw [submitOrder_of_opened a hopen]
      refine ⟨hframe, .inr ⟨rfl, ?_, rfl⟩⟩
      exact List.filter_append ..

end Submit

/-! ## §5 The submissions of a run -/

/-- An order that was reported, with the round it is from, the managers that the round found, and
    the decision that came with it. -/
structure Submission where
  found : Managers
  action : TradeAction
  round : Round
  order : Order
  decision : TradingDecision

section Runs

variable (decimal percent : ℚ → String)

/-- What one round adds to the reported orders and to the executed decisions. -/
def submissionOf (s : Managers) (x : TradeAction × Round) : Option Submission :=
  let t := s.processAsset decimal percent x
  match t.activityQueue.drop s.activityQueue.length, t.executed.drop s.executed.length with
  | [order], [decision] => some ⟨s, x.1, x.2, order, decision⟩
  | _, _ => none

/-- The submissions of the rounds, one after the other. -/
def submissions (s : Managers) (xs : List (TradeAction × Round)) : List Submission :=
  outputs (fun before x => (run (processAsset decimal percent) s before).submissionOf decimal
    percent x) [] xs

theorem submissions_concat (s : Managers) (xs : List (TradeAction × Round))
    (x : TradeAction × Round) :
    s.submissions decimal percent (xs ++ [x]) = s.submissions decimal percent xs ++
      ((run (processAsset decimal percent) s xs).submissionOf decimal percent x).toList :=
  outputs_concat _ [] xs x

/-- A round reports an order that it has approved, or none. -/
theorem submissionOf_cases (s : Managers) (x : TradeAction × Round) :
    (s.submissionOf decimal percent x = none ∧
        (s.processAsset decimal percent x).activityQueue = s.activityQueue ∧
        (s.processAsset decimal percent x).executed = s.executed ∧
        ∃ u, Quiet x.2 s u ∧ (s.processAsset decimal percent x).portfolioRiskManager =
          u.portfolioRiskManager) ∨
      ∃ u, Quiet x.2 s u ∧ ∃ a : Approval s u x.1 x.2,
        s.submissionOf decimal percent x = some ⟨s, x.1, x.2, a.opened, a.recorded⟩ ∧
        (s.processAsset decimal percent x).activityQueue = s.activityQueue ++ [a.opened] ∧
        (s.processAsset decimal percent x).executed = s.executed ++ [a.recorded] ∧
        (s.processAsset decimal percent x).orderManager.inFlightOrders =
          s.orderManager.inFlightOrders.set x.2.answers.orderUuid
            (x.2.asset.tickerSymbol, x.1) ∧
        (s.processAsset decimal percent x).portfolioRiskManager =
          u.portfolioRiskManager.map a.commit := by
  have hnone : (s.processAsset decimal percent x).activityQueue = s.activityQueue →
      s.submissionOf decimal percent x = none := by
    intro hqueue
    unfold submissionOf
    dsimp only
    rw [hqueue, List.drop_length]
  -- an approved order can still fail to open, and is then not reported
  rcases processAsset_ends decimal percent s x with hquiet | ⟨u, hquiet, a, heq⟩
  · exact .inl ⟨hnone hquiet.activityQueue, hquiet.activityQueue, hquiet.executed, _, hquiet, rfl⟩
  · obtain ⟨hinFlight, ⟨hqueue, hexecuted, hportfolios⟩ | ⟨hqueue, hexecuted, hportfolios⟩⟩ :=
      submitOrder_cases a
    · rw [← heq, hquiet.activityQueue] at hqueue
      rw [← heq, hquiet.executed] at hexecuted
      exact .inl ⟨hnone hqueue, hqueue, hexecuted, u, hquiet, by rw [heq]; exact hportfolios⟩
    · rw [← heq, hquiet.activityQueue] at hqueue
      rw [← heq, hquiet.executed] at hexecuted
      rw [← heq, hquiet.inFlight] at hinFlight
      refine .inr ⟨u, hquiet, a, ?_, hqueue, hexecuted, hinFlight, by rw [heq]; exact hportfolios⟩
      unfold submissionOf
      dsimp only
      rw [hqueue, hexecuted, List.drop_left, List.drop_left]

/-- A submission has passed every check of its round at its price and with its quantity, and its
    order and decision are about each other. -/
structure Submission.Sound (sub : Submission) : Prop where
  checked : ∃ t ctx regime d formula health, Checked sub.found sub.action sub.round t ctx regime d
    sub.order.price formula health sub.order.quantity
  order_eq : sub.order.uuid = sub.round.answers.orderUuid ∧
    sub.order.tickerSymbol = sub.round.asset.tickerSymbol ∧
    sub.order.providerName = sub.round.asset.exchange ∧ sub.order.tradeAction = sub.action ∧
    sub.order.decisionId = some sub.decision.decisionId
  decision_eq : sub.decision.decisionId = sub.round.answers.decisionId ∧
    sub.decision.tickerSymbol = sub.order.tickerSymbol ∧
    sub.decision.tradeAction = sub.order.tradeAction ∧ sub.decision.status = .executed ∧
    sub.decision.resultingOrderId = some sub.order.uuid ∧
    sub.decision.sizingSnapshot.finalQuantity = some sub.order.quantity

theorem Approval.sound {s₀ u : Managers} {action : TradeAction} {r : Round}
    (a : Approval s₀ u action r) : Submission.Sound ⟨s₀, action, r, a.opened, a.recorded⟩ where
  checked := ⟨_, _, _, _, _, _, a.checked⟩
  order_eq := ⟨rfl, rfl, rfl, rfl, rfl⟩
  decision_eq := ⟨rfl, rfl, rfl, rfl, rfl, a.sizing_eq⟩

theorem activityQueue_run (s : Managers) (xs : List (TradeAction × Round)) :
    (run (processAsset decimal percent) s xs).activityQueue =
        s.activityQueue ++ (s.submissions decimal percent xs).map (·.order) ∧
      (run (processAsset decimal percent) s xs).executed =
        s.executed ++ (s.submissions decimal percent xs).map (·.decision) := by
  induction xs using List.reverseRecOn with
  | nil => exact ⟨(List.append_nil _).symm, (List.append_nil _).symm⟩
  | append_singleton xs x ih =>
    rw [run_concat, submissions_concat, List.map_append, List.map_append, ← List.append_assoc,
      ← List.append_assoc, ← ih.1, ← ih.2]
    rcases submissionOf_cases decimal percent (run (processAsset decimal percent) s xs) x with
      ⟨hnone, hqueue, hexecuted, -⟩ | ⟨u, -, a, hsome, hqueue, hexecuted, -⟩
    · rw [hnone]
      exact ⟨hqueue.trans (List.append_nil _).symm, hexecuted.trans (List.append_nil _).symm⟩
    · rw [hsome]
      exact ⟨hqueue, hexecuted⟩

/-- A submission of a round is sound, and of that round. -/
theorem sound_of_submissionOf {s : Managers} {x : TradeAction × Round} {sub : Submission}
    (h : s.submissionOf decimal percent x = some sub) :
    sub.found = s ∧ (sub.action, sub.round) = x ∧ sub.Sound := by
  rcases submissionOf_cases decimal percent s x with ⟨hnone, -⟩ | ⟨u, -, a, hsome, -⟩
  · rw [hnone] at h
    cases h
  · obtain rfl := Option.some.inj (hsome.symm.trans h)
    exact ⟨rfl, rfl, a.sound⟩

/-- **Every reported order is accounted for.**  Over any BUY and SELL rounds, from any state, the
    reported orders and the executed decisions grow by the same submissions in the same order, at
    most one for each round, and each submission has passed every check that its round made on the
    managers it found. -/
theorem submissions_run (s : Managers) (xs : List (TradeAction × Round)) :
    (run (processAsset decimal percent) s xs).activityQueue =
        s.activityQueue ++ (s.submissions decimal percent xs).map (·.order) ∧
      (run (processAsset decimal percent) s xs).executed =
        s.executed ++ (s.submissions decimal percent xs).map (·.decision) ∧
      ((s.submissions decimal percent xs).map fun sub => (sub.action, sub.round)).Sublist xs ∧
      ∀ sub ∈ s.submissions decimal percent xs, sub.Sound ∧
        ∃ before, before ++ [(sub.action, sub.round)] <+: xs ∧
          sub.found = run (processAsset decimal percent) s before := by
  refine ⟨(activityQueue_run decimal percent s xs).1, (activityQueue_run decimal percent s xs).2,
    ?_, ?_⟩
  -- along the rounds: each adds its submission at the end, if it has one
  · induction xs using List.reverseRecOn with
    | nil => exact List.Sublist.refl _
    | append_singleton xs x ih =>
      rw [submissions_concat, List.map_append]
      refine ih.append ?_
      cases hsub : (run (processAsset decimal percent) s xs).submissionOf decimal percent x with
      | none => exact List.nil_sublist _
      | some sub =>
        rw [Option.toList_some, List.map_singleton,
          (sound_of_submissionOf decimal percent hsub).2.1]
  · induction xs using List.reverseRecOn with
    | nil => exact fun sub hsub => nomatch hsub
    | append_singleton xs x ih =>
      intro sub hsub
      rw [submissions_concat, List.mem_append] at hsub
      rcases hsub with hbefore | hnow
      · obtain ⟨hsound, before, hprefix, hfound⟩ := ih sub hbefore
        exact ⟨hsound, before, hprefix.trans (List.prefix_append _ _), hfound⟩
      · obtain ⟨hfound, hround, hsound⟩ :=
          sound_of_submissionOf decimal percent (Option.mem_toList.mp hnow)
        exact ⟨hsound, xs, by rw [hround], hfound⟩

/-- A BUY or a SELL pass. -/
def createOrders (s : Managers) : TradeAction × List Round → Managers
  | (.buy, rounds) => s.createBuyOrder decimal percent rounds
  | (.sell, rounds) => s.createSellOrder decimal percent rounds

/-- The rounds of passes. -/
def roundsOf (passes : List (TradeAction × List Round)) : List (TradeAction × Round) :=
  passes.flatMap fun pass => pass.2.map fun r => (pass.1, r)

/-- Passes are their rounds, one after the other. -/
theorem run_createOrders (s : Managers) (passes : List (TradeAction × List Round)) :
    run (createOrders decimal percent) s passes =
      run (processAsset decimal percent) s (roundsOf passes) := by
  induction passes generalizing s with
  | nil => rfl
  | cons pass passes ih =>
    obtain ⟨action, rounds⟩ := pass
    have hpass : s.createOrders decimal percent (action, rounds) =
        run (processAsset decimal percent) s (rounds.map fun r => (action, r)) := by
      cases action with
      | buy => rfl
      | sell => rfl
    have hrounds : roundsOf ((action, rounds) :: passes) =
        (rounds.map fun r => (action, r)) ++ roundsOf passes := List.flatMap_cons
    rw [run_cons, ih, hpass, hrounds, run_append]

/-- What any BUY and SELL passes report and decide are the submissions of their rounds. -/
theorem submissions_passes (s : Managers) (passes : List (TradeAction × List Round)) :
    (run (createOrders decimal percent) s passes).activityQueue = s.activityQueue ++
        (s.submissions decimal percent (roundsOf passes)).map (·.order) ∧
      (run (createOrders decimal percent) s passes).executed = s.executed ++
        (s.submissions decimal percent (roundsOf passes)).map (·.decision) := by
  rw [run_createOrders]
  exact activityQueue_run decimal percent s (roundsOf passes)

/-! ## §6 One order for a symbol and a side -/

/-- A round leaves the orders in flight, or adds its own. -/
theorem inFlight_processAsset (s : Managers) (x : TradeAction × Round) :
    (s.processAsset decimal percent x).orderManager.inFlightOrders =
        s.orderManager.inFlightOrders ∨
      (s.processAsset decimal percent x).orderManager.inFlightOrders =
        s.orderManager.inFlightOrders.set x.2.answers.orderUuid
          (x.2.asset.tickerSymbol, x.1) := by
  rcases processAsset_ends decimal percent s x with hquiet | ⟨u, hquiet, a, heq⟩
  · exact .inl hquiet.inFlight
  · refine .inr ?_
    rw [heq, (submitOrder_cases a).1, hquiet.inFlight]

/-- A submission is in flight, and nothing was in flight for its symbol and side. -/
theorem inFlight_of_submissionOf {s : Managers} {x : TradeAction × Round} {sub : Submission}
    (h : s.submissionOf decimal percent x = some sub) :
    (s.processAsset decimal percent x).orderManager.inFlightOrders.get? x.2.answers.orderUuid =
        some (sub.order.tickerSymbol, sub.order.tradeAction) ∧
      (sub.order.tickerSymbol, sub.order.tradeAction) ∉
        s.orderManager.inFlightOrders.values := by
  rcases submissionOf_cases decimal percent s x with
    ⟨hnone, -⟩ | ⟨u, hquiet, a, hsome, -, -, hinFlight, -⟩
  · rw [hnone] at h
    cases h
  · obtain rfl := Option.some.inj (hsome.symm.trans h)
    refine ⟨?_, ?_⟩
    · rw [hinFlight, Dict.get?_set_self]
      rfl
    · intro hmem
      have hnone := a.checked.noIntent
      unfold OrderManager.hasOutstandingIntent at hnone
      rw [Bool.or_eq_false_iff, List.any_eq_false] at hnone
      refine hnone.1 _ hmem ?_
      simp [OrderManager.intentMatches, Approval.opened, OrderManager.openedOrder, Approval.order,
        orderOf]

/-- What holds of the orders in flight after the rounds, when each has an order id of its own. -/
structure InFlightInv (s : Managers) (xs : List (TradeAction × Round)) : Prop where
  kept : ∀ uuid e, s.orderManager.inFlightOrders.get? uuid = some e →
    (run (processAsset decimal percent) s xs).orderManager.inFlightOrders.get? uuid = some e
  known : ∀ uuid e,
    (run (processAsset decimal percent) s xs).orderManager.inFlightOrders.get? uuid = some e →
    s.orderManager.inFlightOrders.get? uuid = some e ∨
      uuid ∈ xs.map fun x => x.2.answers.orderUuid
  submitted : ∀ sub ∈ s.submissions decimal percent xs,
    (sub.order.tickerSymbol, sub.order.tradeAction) ∈
      (run (processAsset decimal percent) s xs).orderManager.inFlightOrders.values

variable {decimal percent}

theorem InFlightInv.step {s : Managers} {xs : List (TradeAction × Round)}
    (h : InFlightInv decimal percent s xs) {x : TradeAction × Round}
    (hnew : x.2.answers.orderUuid ∉ xs.map fun x => x.2.answers.orderUuid)
    (hfresh : s.orderManager.inFlightOrders.get? x.2.answers.orderUuid = none) :
    InFlightInv decimal percent s (xs ++ [x]) := by
  -- the order id of the round is not in flight
  have hnone : (run (processAsset decimal percent) s xs).orderManager.inFlightOrders.get?
      x.2.answers.orderUuid = none := by
    by_contra hsome
    obtain ⟨e, he⟩ := Option.ne_none_iff_exists'.mp hsome
    rcases h.known _ e he with hold | hmem
    · rw [hfresh] at hold
      cases hold
    · exact hnew hmem
  -- a round takes no order out of the in-flight ones
  have hkept : ∀ uuid e,
      (run (processAsset decimal percent) s xs).orderManager.inFlightOrders.get? uuid = some e →
      ((run (processAsset decimal percent) s xs).processAsset decimal percent
        x).orderManager.inFlightOrders.get? uuid = some e := by
    intro uuid e he
    rcases inFlight_processAsset decimal percent (run (processAsset decimal percent) s xs) x with
      hsame | hset
    · rw [hsame]
      exact he
    · have hne : uuid ≠ x.2.answers.orderUuid := by
        rintro rfl
        rw [hnone] at he
        cases he
      rw [hset, Dict.get?_set_of_ne _ _ hne]
      exact he
  refine ⟨?_, ?_, ?_⟩
  · intro uuid e he
    rw [run_concat]
    exact hkept uuid e (h.kept uuid e he)
  · intro uuid e he
    rw [run_concat] at he
    rw [List.map_append, List.mem_append, List.map_singleton, List.mem_singleton]
    rcases inFlight_processAsset decimal percent (run (processAsset decimal percent) s xs) x with
      hsame | hset
    · rw [hsame] at he
      exact (h.known uuid e he).imp_right .inl
    · rw [hset, Dict.get?_set] at he
      split at he
      · rename_i heq
        exact .inr (.inr heq)
      · exact (h.known uuid e he).imp_right .inl
  · intro sub hsub
    rw [submissions_concat, List.mem_append] at hsub
    rw [run_concat]
    rcases hsub with hbefore | hnow
    · obtain ⟨uuid, he⟩ := (Dict.mem_values_iff _ _).mp (h.submitted sub hbefore)
      exact (Dict.mem_values_iff _ _).mpr ⟨uuid, hkept uuid _ he⟩
    · exact (Dict.mem_values_iff _ _).mpr
        ⟨_, (inFlight_of_submissionOf decimal percent (Option.mem_toList.mp hnow)).1⟩

theorem inFlightInv_run {s : Managers} {xs : List (TradeAction × Round)}
    (hnodup : (xs.map fun x => x.2.answers.orderUuid).Nodup)
    (hfresh : ∀ x ∈ xs, s.orderManager.inFlightOrders.get? x.2.answers.orderUuid = none) :
    InFlightInv decimal percent s xs := by
  induction xs using List.reverseRecOn with
  | nil => exact ⟨fun _ _ he => he, fun _ _ he => .inl he, fun _ hsub => nomatch hsub⟩
  | append_singleton xs x ih =>
    rw [List.map_append, List.map_singleton, List.nodup_append] at hnodup
    obtain ⟨hbefore, -, hdisjoint⟩ := hnodup
    refine (ih hbefore fun y hy => hfresh y (List.mem_append_left _ hy)).step ?_
      (hfresh x (List.mem_append_right _ (List.mem_singleton_self x)))
    intro hmem
    exact hdisjoint _ hmem _ (List.mem_singleton_self _) rfl

/-- **One order for a symbol and a side.**  When the order ids are new, no two orders that BUY and
    SELL rounds report are for the same symbol and side, and none is for a symbol and side that
    was in flight at the start. -/
theorem submissions_unique (s : Managers) (xs : List (TradeAction × Round))
    (hnodup : (xs.map fun x => x.2.answers.orderUuid).Nodup)
    (hfresh : ∀ x ∈ xs, s.orderManager.inFlightOrders.get? x.2.answers.orderUuid = none) :
    ((s.submissions decimal percent xs).map fun sub =>
        (sub.order.tickerSymbol, sub.order.tradeAction)).Nodup ∧
      ∀ sub ∈ s.submissions decimal percent xs,
        (sub.order.tickerSymbol, sub.order.tradeAction) ∉
          s.orderManager.inFlightOrders.values := by
  -- along the rounds: what was submitted before is still in flight, and the round asks for it
  induction xs using List.reverseRecOn with
  | nil => exact ⟨List.nodup_nil, fun _ hsub => nomatch hsub⟩
  | append_singleton xs x ih =>
    rw [List.map_append, List.nodup_append] at hnodup
    have hfresh' := fun y hy => hfresh y (List.mem_append_left [x] hy)
    have hinv : InFlightInv decimal percent s xs := inFlightInv_run hnodup.1 hfresh'
    obtain ⟨hunique, hstart⟩ := ih hnodup.1 hfresh'
    rw [submissions_concat]
    cases hsub : (run (processAsset decimal percent) s xs).submissionOf decimal percent x with
    | none =>
      rw [Option.toList_none, List.append_nil]
      exact ⟨hunique, hstart⟩
    | some sub =>
      obtain ⟨-, hnotMem⟩ := inFlight_of_submissionOf decimal percent hsub
      rw [Option.toList_some, List.map_append, List.map_singleton, List.nodup_append]
      refine ⟨⟨hunique, List.nodup_singleton _, ?_⟩, ?_⟩
      · rintro e he _ hsingle heq
        obtain ⟨earlier, hearlier, rfl⟩ := List.mem_map.mp he
        obtain rfl := List.mem_singleton.mp hsingle
        exact hnotMem (heq ▸ hinv.submitted earlier hearlier)
      · intro sub' hmem
        rcases List.mem_append.mp hmem with hbefore | hnow
        · exact hstart sub' hbefore
        · obtain rfl := List.mem_singleton.mp hnow
          intro hvalues
          obtain ⟨uuid, he⟩ := (Dict.mem_values_iff _ _).mp hvalues
          exact hnotMem ((Dict.mem_values_iff _ _).mpr ⟨uuid, hinv.kept uuid _ he⟩)

end Runs

end Rounds

/-! ## §7 Two coins -/

/-- An asset whose least order costs 60. -/
def coinAsset (base : String) : TradingAsset where
  baseTickerSymbol := base
  quoteTickerSymbol := "USD"
  quoteDecimals := 2
  exchange := "BINANCE"
  separator := none
  portfolio := none
  name := base
  minQuantity := 1
  quantityDecimals := 3
  schedule := .everyMinute
  candlesTimeframe := .min1
  guardConfig := none
  keywords := none
  strategies := none
  consensus := none
  dynamicQuantity := none
  enabled := true

/-- A round in which a single strategy is in favour. -/
def coinRound (base orderUuid : String) : Round where
  asset := coinAsset base
  answers :=
    { initialBalance := some ⟨100, 0, 0, 0⟩
      quoteBalance := some 100
      marketData := some ⟨1, 60, 60, 60, 0, none, none⟩
      fees := some (some ⟨0, 0⟩)
      candlesRaise := false
      regime := some .normal
      consensus := .decided
        ⟨.buy, base, Dict.empty.set "Hammer" true, Dict.empty.set "Hammer" 1, 1⟩
      intentQueryRaises := false
      formula := some none
      healthAllowed := some none
      baseBalance := none
      decisionId := "d-" ++ orderUuid
      orderUuid := orderUuid
      execution := ⟨false, false, false⟩ }

/-- One hundred in cash, and a guard that looks at nothing but cash. -/
def cashOnly : PortfolioRiskManager :=
  { hundredManager with
    portfolioConfig :=
      { exposure := ⟨none, none, none⟩
        regime := { MarketRegimeConfig.default with enabled := false }
        guard := ⟨true, none, none, none, 0, 1⟩ } }

def coinManagers : Managers where
  orderManager :=
    Orders.OrderManager.new .noop ⟨some ⟨"s", Dict.empty, some "c0"⟩, true, none⟩ false
  portfolioRiskManager := some cashOnly
  decisions := []
  activityQueue := []

/-- Two rounds for one coin and one for another. -/
def coinTwice : List (TradeAction × Round) :=
  [(.buy, coinRound "BTC" "u1"), (.buy, coinRound "BTC" "u2"), (.buy, coinRound "ETH" "u3")]

/-- A text for numbers that nothing is said about. -/
def noText : ℚ → String := fun _ => ""

/-- The managers without the guard on the cash. -/
def unguardedManagers : Managers := { coinManagers with portfolioRiskManager := none }

/-- The second round finds the order of the first in flight, and the third is for another coin. -/
theorem submissions_unique_coins :
    ((unguardedManagers.submissions noText noText coinTwice).map fun sub => sub.order.uuid) =
        ["u1", "u3"] ∧
      ((unguardedManagers.submissions noText noText coinTwice).map fun sub =>
        (sub.order.tickerSymbol, sub.order.tradeAction)).Nodup :=
  ⟨by decide +kernel,
    (submissions_unique unguardedManagers coinTwice (by decide +kernel) fun _ _ => rfl).1⟩

end Managers

end CryptoTrading.Trading
