import CryptoTrading.Trading.Submissions

/-!
# The cash that passes commit

The guard of a portfolio checks an order against the cash that is not reserved, and the executor
reserves the cost of an order before the next asset is looked at.  While the reported balance of a
portfolio stays what it is, the orders of any BUY and SELL rounds therefore cost together no more
than what was unreserved in the beginning, and all of it is reserved in the end
(`committed_le_availableCash`).

A guard that is not enabled lets every order pass, and a reservation that the cash does not cover
is not made; the order goes out all the same.
-/

namespace CryptoTrading.Trading

open CryptoTrading.Lib
open CryptoTrading.Protection
open QuotePortfolio PortfolioRiskManager

namespace Managers

/-! ## §1 Reservations -/

/-- The cash stays, and reservations are only added, as far as it covers them. -/
structure Reserves (key : PortfolioKey) (m m' : PortfolioRiskManager) : Prop where
  totalCash_eq : (m'.portfolioAt key).totalCash = (m.portfolioAt key).totalCash
  le : (m.portfolioAt key).reservedCash ≤ (m'.portfolioAt key).reservedCash
  covered : (m'.portfolioAt key).reservedCash ≤
    max (m.portfolioAt key).reservedCash (m.portfolioAt key).totalCash
  limits_eq : m'.effectiveConfig = m.effectiveConfig

variable {key : PortfolioKey} {m m' : PortfolioRiskManager}

theorem Reserves.trans {m₁ m₂ m₃ : PortfolioRiskManager} (h₁ : Reserves key m₁ m₂)
    (h₂ : Reserves key m₂ m₃) : Reserves key m₁ m₃ where
  totalCash_eq := h₂.totalCash_eq.trans h₁.totalCash_eq
  le := h₁.le.trans h₂.le
  covered := by
    refine h₂.covered.trans (max_le h₁.covered ?_)
    rw [h₁.totalCash_eq]
    exact le_max_right _ _
  limits_eq := h₂.limits_eq.trans h₁.limits_eq

theorem reserves_of_books (hbooks : books (m'.portfolioAt key) = books (m.portfolioAt key))
    (hlimits : m'.effectiveConfig = m.effectiveConfig) : Reserves key m m' := by
  obtain ⟨htotal, hreserved, -⟩ := books_eq_iff.mp hbooks
  exact ⟨htotal, hreserved.ge, hreserved.le.trans (le_max_left _ _), hlimits⟩

theorem Reserves.refl (key : PortfolioKey) (m : PortfolioRiskManager) : Reserves key m m :=
  reserves_of_books rfl rfl

/-- A reservation that the cash of its portfolio covers. -/
theorem reserves_of_reservedAt {key' : PortfolioKey} {orderUuid : String} {amount : ℚ}
    (hres : (m.portfolioAt key').Reservable amount) (h : ReservedAt m m' key' orderUuid amount)
    (hlimits : m'.effectiveConfig = m.effectiveConfig) : Reserves key m m' := by
  by_cases hkey : key = key'
  · subst hkey
    refine ⟨h.totalCash_eq, ?_, ?_, hlimits⟩
    · rw [h.reservedCash_eq]
      exact le_add_of_nonneg_right hres.1.le
    · have hcovered := availableCash_of_pos (hres.1.trans_le hres.2)
      rw [h.reservedCash_eq]
      refine le_max_of_le_right ?_
      have hle := hres.2
      rw [hcovered] at hle
      linarith
  · exact reserves_of_books (h.books_eq key hkey) hlimits

theorem limits_reserveOrderCash (asset : Asset) (orderUuid : String) (amount : ℚ) :
    (m.reserveOrderCash asset orderUuid amount).1.effectiveConfig = m.effectiveConfig := rfl

theorem limits_onOrderSubmitted (order : Order) :
    (m.onOrderSubmitted order).effectiveConfig = m.effectiveConfig := by
  unfold onOrderSubmitted
  split
  · split
    · dsimp only
      split <;> rfl
    · rfl
  · rfl

theorem reserves_reserveOrderCash (asset : Asset) (orderUuid : String) (amount : ℚ) :
    Reserves key m (m.reserveOrderCash asset orderUuid amount).1 := by
  obtain ⟨hreserved, hsame⟩ := reserveOrderCash_spec m asset orderUuid amount
  by_cases hres : (m.portfolioAt asset.portfolioKey).Reservable amount
  · exact reserves_of_reservedAt hres (hreserved hres) (limits_reserveOrderCash ..)
  · exact reserves_of_books ((hsame hres).books_eq key) (limits_reserveOrderCash ..)

/-- The cost of an order is reserved in its own portfolio, if it is positive and covered. -/
theorem reservedCash_reserveOrderCash {asset : Asset} {orderUuid : String} {amount : ℚ}
    (h : amount ≤ (m.portfolioAt asset.portfolioKey).availableCash) :
    (m.portfolioAt asset.portfolioKey).reservedCash + amount ≤
      ((m.reserveOrderCash asset orderUuid amount).1.portfolioAt
        asset.portfolioKey).reservedCash := by
  by_cases hpos : 0 < amount
  · rw [((reserveOrderCash_spec m asset orderUuid amount).1 ⟨hpos, h⟩).reservedCash_eq]
  · have hreserves : Reserves asset.portfolioKey m (m.reserveOrderCash asset orderUuid amount).1 :=
      reserves_reserveOrderCash asset orderUuid amount
    linarith [hreserves.le]

/-- The submitted event reserves where the cash covers it. -/
theorem reserves_onOrderSubmitted (sub : BuySubmission) :
    Reserves key m (m.onOrderSubmitted sub.order) := by
  by_cases hsame : ∀ key', SubmitsAt m sub key' →
      (m.portfolioAt key').openOrders.contains sub.order.uuid = true
  · exact reserves_of_books ((onOrderSubmitted_sameBooks hsame).books_eq key)
      (limits_onOrderSubmitted _)
  · push Not at hsame
    obtain ⟨key', hsub, hnot⟩ := hsame
    have hnone : (m.portfolioAt key').openOrders.get? sub.order.uuid = none := by
      unfold Dict.contains at hnot
      simpa using hnot
    exact reserves_of_reservedAt hsub.2 (onOrderSubmitted_reserves hsub hnone)
      (limits_onOrderSubmitted _)

/-! ## §2 One submission -/

/-- What the guard has checked, whatever the equity is. -/
theorem le_availableCash_of_allowed {assetSymbol : String} {orderCost : ℚ}
    {risk : PortfolioRiskMetrics} {regime : MarketRegime} {config : EffectivePortfolioConfig}
    (henabled : config.guard.enabled = true)
    (h : (QuotePortfolioGuard.evaluate assetSymbol orderCost risk regime config).allowed = true) :
    orderCost ≤ risk.availableCash := by
  unfold QuotePortfolioGuard.evaluate at h
  rw [henabled] at h
  simp only [Bool.not_true, Bool.false_eq_true, ↓reduceIte] at h
  split at h
  · rename_i hnone
    simp only [QuotePortfolioGuard.checkCash, List.isEmpty_iff, List.append_eq_nil_iff] at hnone
    by_contra hmore
    simp [not_le.mp hmore] at hnone
  · cases h

namespace Approval

variable {s₀ u : Managers} {action : TradeAction} {r : Round} (a : Approval s₀ u action r)

theorem reserves_commit (m : PortfolioRiskManager) : Reserves key m (a.commit m) := by
  unfold commit
  cases action with
  | buy =>
    let sub : BuySubmission :=
      { asset := r.asset.toAsset
        order := a.opened
        provider_eq := rfl
        ticker_eq := rfl
        action_eq := rfl
        fillPrice_eq := rfl }
    rw [if_pos rfl]
    exact (reserves_reserveOrderCash _ _ _).trans (reserves_onOrderSubmitted sub)
  | sell => exact Reserves.refl key m

/-- What a BUY order costs is reserved, when the guard is enabled. -/
theorem reservedCash_commit (hbuy : action = .buy) (hm : u.portfolioRiskManager = some m)
    (henabled : (m.effectiveConfig r.asset.toAsset a.regime).guard.enabled = true) :
    (m.portfolioAt r.asset.portfolioKey).reservedCash + a.price * a.quantity ≤
      ((a.commit m).portfolioAt r.asset.portfolioKey).reservedCash := by
  have hcovered := le_availableCash_of_allowed henabled (a.allowed hbuy m hm)
  subst hbuy
  let sub : BuySubmission :=
    { asset := r.asset.toAsset
      order := a.opened
      provider_eq := rfl
      ticker_eq := rfl
      action_eq := rfl
      fillPrice_eq := rfl }
  have hsubmitted : Reserves r.asset.portfolioKey
      (m.reserveOrderCash r.asset.toAsset r.answers.orderUuid (a.price * a.quantity)).1
      (a.commit m) := reserves_onOrderSubmitted sub
  exact (reservedCash_reserveOrderCash hcovered).trans hsubmitted.le

end Approval

/-! ## §3 Passes -/

/-- What the BUY orders on a portfolio cost together. -/
def committed (key : PortfolioKey) (subs : List Submission) : ℚ :=
  ((subs.filter fun sub => sub.action = .buy ∧ sub.round.asset.portfolioKey = key).map fun sub =>
    sub.order.price * sub.order.quantity).sum

theorem committed_append (key : PortfolioKey) (subs subs' : List Submission) :
    committed key (subs ++ subs') = committed key subs + committed key subs' := by
  unfold committed
  rw [List.filter_append, List.map_append, List.sum_append]

/-- The guard is enabled for the assets of the portfolio, in every regime. -/
def Guarded (key : PortfolioKey) (m : PortfolioRiskManager) (r : Round) : Prop :=
  r.asset.portfolioKey = key → ∀ regime,
    (m.effectiveConfig r.asset.toAsset regime).guard.enabled = true

variable (decimal percent : ℚ → String)

/-- One round: what its order costs is added to the reservations. -/
theorem reserves_processAsset {s : Managers} (hm : s.portfolioRiskManager = some m)
    {x : TradeAction × Round} (hreports : Reports key m x.2) (hguarded : Guarded key m x.2) :
    ∃ m', (s.processAsset decimal percent x).portfolioRiskManager = some m' ∧
      Reserves key m m' ∧
      (m.portfolioAt key).reservedCash +
          committed key (s.submissionOf decimal percent x).toList ≤
        (m'.portfolioAt key).reservedCash := by
  -- a round without an order keeps the reservations, one with an order adds its cost or more
  rcases submissionOf_cases decimal percent s x with
    ⟨hnone, -, -, u, hquiet, hportfolios⟩ | ⟨u, hquiet, a, hsome, -, -, -, hportfolios⟩
  · obtain ⟨m', hm', hsame⟩ := hquiet.portfolios key m hm hreports
    have hreserves := reserves_of_books hsame.books_eq hsame.limits_eq
    refine ⟨m', hportfolios.trans hm', hreserves, ?_⟩
    rw [hnone]
    exact (add_zero _).trans_le hreserves.le
  · obtain ⟨m₁, hm₁, hsame⟩ := hquiet.portfolios key m hm hreports
    have hquietly := reserves_of_books hsame.books_eq hsame.limits_eq
    have hreserves := hquietly.trans (a.reserves_commit m₁)
    refine ⟨a.commit m₁, by rw [hportfolios, hm₁]; rfl, hreserves, ?_⟩
    rw [hsome, Option.toList_some]
    by_cases hown : x.1 = .buy ∧ x.2.asset.portfolioKey = key
    · obtain ⟨hbuy, rfl⟩ := hown
      have hcost : committed x.2.asset.portfolioKey [⟨s, x.1, x.2, a.opened, a.recorded⟩] =
          a.price * a.quantity := by
        unfold committed
        rw [List.filter_singleton]
        simp [hbuy, Approval.opened, Orders.OrderManager.openedOrder, Approval.order, orderOf]
      have henabled : (m₁.effectiveConfig x.2.asset.toAsset a.regime).guard.enabled = true := by
        rw [hsame.limits_eq]
        exact hguarded rfl a.regime
      rw [hcost]
      exact (add_le_add_left hquietly.le _).trans (a.reservedCash_commit hbuy hm₁ henabled)
    · have hcost : committed key [⟨s, x.1, x.2, a.opened, a.recorded⟩] = 0 := by
        unfold committed
        rw [List.filter_singleton]
        simp [hown]
      rw [hcost, add_zero]
      exact hreserves.le

/-- **Passes commit no more than the unreserved cash.**  While the reported balance of a portfolio
    stays what it is and its guard is enabled, the BUY orders of any rounds cost together no more
    than the cash that was not reserved, and the reservations have grown by at least as much. -/
theorem committed_le_availableCash (s : Managers) (hm : s.portfolioRiskManager = some m)
    (xs : List (TradeAction × Round)) (hreports : ∀ x ∈ xs, Reports key m x.2)
    (hguarded : ∀ x ∈ xs, Guarded key m x.2) :
    committed key (s.submissions decimal percent xs) ≤ (m.portfolioAt key).availableCash ∧
      ∃ m', (run (processAsset decimal percent) s xs).portfolioRiskManager = some m' ∧
        (m.portfolioAt key).reservedCash + committed key (s.submissions decimal percent xs) ≤
          (m'.portfolioAt key).reservedCash := by
  have hrun : ∃ m', (run (processAsset decimal percent) s xs).portfolioRiskManager = some m' ∧
      Reserves key m m' ∧
      (m.portfolioAt key).reservedCash + committed key (s.submissions decimal percent xs) ≤
        (m'.portfolioAt key).reservedCash := by
    induction xs using List.reverseRecOn with
    | nil => exact ⟨m, hm, Reserves.refl key m, (add_zero _).le⟩
    | append_singleton xs x ih =>
      obtain ⟨m₁, hm₁, hreserves, hle⟩ := ih
        (fun y hy => hreports y (List.mem_append_left _ hy))
        (fun y hy => hguarded y (List.mem_append_left _ hy))
      have hx : x ∈ xs ++ [x] := List.mem_append_right _ (List.mem_singleton_self x)
      -- the balance that is reported is still the one of the portfolio
      have hreports₁ : Reports key m₁ x.2 := by
        intro hkey balance hbalance
        rw [hreserves.totalCash_eq]
        exact hreports x hx hkey balance hbalance
      have hguarded₁ : Guarded key m₁ x.2 := by
        intro hkey regime
        rw [hreserves.limits_eq]
        exact hguarded x hx hkey regime
      obtain ⟨m₂, hm₂, hreserves₂, hle₂⟩ :=
        reserves_processAsset decimal percent hm₁ hreports₁ hguarded₁
      rw [run_concat, submissions_concat, committed_append, ← add_assoc]
      exact ⟨m₂, hm₂, hreserves.trans hreserves₂, (add_le_add_left hle _).trans hle₂⟩
  obtain ⟨m', hm', hreserves, hle⟩ := hrun
  refine ⟨?_, m', hm', hle⟩
  have hcovered := hle.trans hreserves.covered
  unfold availableCash
  rcases le_total (m.portfolioAt key).reservedCash (m.portfolioAt key).totalCash with hunder | hmore
  · rw [max_eq_right hunder] at hcovered
    refine le_max_of_le_right ?_
    linarith
  · rw [max_eq_left hmore] at hcovered
    refine le_max_of_le_left ?_
    linarith

/-! ## §4 Two assets for one balance -/

def coinRounds : List (TradeAction × Round) :=
  [(.buy, coinRound "BTC" "u1"), (.buy, coinRound "ETH" "u2")]

/-- Both orders are within the balance of 100, and only one of them is reserved and goes out. -/
theorem committed_le_availableCash_coins :
    (coinManagers.processAsset noText noText (.buy, coinRound "ETH" "u2")).activityQueue.length =
        1 ∧
      committed ("BINANCE", "USD") (coinManagers.submissions noText noText coinRounds) = 60 ∧
      committed ("BINANCE", "USD") (coinManagers.submissions noText noText coinRounds) ≤
        (cashOnly.portfolioAt ("BINANCE", "USD")).availableCash := by
  refine ⟨by decide +kernel, by decide +kernel, ?_⟩
  refine (committed_le_availableCash noText noText coinManagers rfl coinRounds ?_ ?_).1
  · intro x hx _ balance hbalance
    have hreported : x.2.answers.quoteBalance = some 100 := by
      rcases List.mem_cons.mp hx with rfl | hx
      · rfl
      · obtain rfl := List.mem_singleton.mp hx
        rfl
    obtain rfl := Option.some.inj (hreported.symm.trans hbalance)
    decide +kernel
  · intro x hx _ regime
    rcases List.mem_cons.mp hx with rfl | hx
    · rfl
    · obtain rfl := List.mem_singleton.mp hx
      rfl

end Managers

end CryptoTrading.Trading
