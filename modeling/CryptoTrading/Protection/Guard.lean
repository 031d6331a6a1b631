import Mathlib.Algebra.Order.Field.Rat
import CryptoTrading.Api.Interfaces

/-!
# The quote portfolio guard

Embeds `src/trading/protection/portfolio_policy_resolver.py`,
`quote_portfolio_guard.py` and the exposure multipliers of
`src/trading/regimes/market_regime.py`.

The guard collects every violated limit of a proposed order.  A violation carries the
numbers that its text shows; how decimals are printed is left to the two formatters
of `Violation.text`.  The limits themselves are compared as exact rationals.
-/

namespace CryptoTrading.Protection

/-! ## §1 Market regimes -/

inductive MarketRegime where
  | trendingUp | trendingDown | ranging | highVolatility | lowVolatility | illiquid | normal
  | extreme | unknown
  deriving DecidableEq, Repr

def MarketRegime.getExposureMultiplier : MarketRegime → ℚ
  | .highVolatility => 1 / 2
  | .trendingDown => 3 / 4
  | .illiquid | .extreme => 1 / 8
  | _ => 1

/-! ## §2 Effective configuration -/

structure EffectivePortfolioConfig where
  exposure : PortfolioExposureConfig
  regime : MarketRegimeConfig
  guard : QuotePortfolioGuardConfig
  regimeMultiplier : ℚ
  deriving DecidableEq

namespace EffectivePortfolioConfig

def effectiveMaxTotal (config : EffectivePortfolioConfig) : Option ℚ :=
  config.exposure.maxTotal.map (· * config.regimeMultiplier)

def effectiveMaxPerAsset (config : EffectivePortfolioConfig) : Option ℚ :=
  config.exposure.maxPerAsset.map (· * config.regimeMultiplier)

/-- The limit on the total exposure that the guard applies. -/
def totalLimit (config : EffectivePortfolioConfig) : Option ℚ :=
  if config.regime.enabled then config.effectiveMaxTotal else config.exposure.maxTotal

/-- The limit on the concentration in one asset that the guard applies. -/
def perAssetLimit (config : EffectivePortfolioConfig) : Option ℚ :=
  if config.regime.enabled then config.effectiveMaxPerAsset else config.exposure.maxPerAsset

end EffectivePortfolioConfig

namespace PortfolioPolicyResolver

/-- `PortfolioPolicyResolver._resolve_exposure`. -/
def resolveExposure (globalExposure : PortfolioExposureConfig)
    (overrideExposure : Option PortfolioExposureConfig) : PortfolioExposureConfig :=
  match overrideExposure with
  | none => globalExposure
  | some o =>
    { maxTotal := o.maxTotal.orElse fun _ => globalExposure.maxTotal
      maxPerAsset := o.maxPerAsset.orElse fun _ => globalExposure.maxPerAsset
      maxPerQuote := o.maxPerQuote.orElse fun _ => globalExposure.maxPerQuote }

/-- `PortfolioPolicyResolver._resolve_regime`. -/
def resolveRegime (globalRegime : MarketRegimeConfig)
    (overrideRegime : Option MarketRegimeConfig) : MarketRegimeConfig :=
  match overrideRegime with
  | none => globalRegime
  -- no setting of an override is missing, and its number of data points is not asked for
  | some o =>
    { enabled := o.enabled
      period := o.period
      highVolatilityThreshold := o.highVolatilityThreshold
      lowVolatilityThreshold := o.lowVolatilityThreshold
      trendThreshold := o.trendThreshold
      illiquidSpreadThreshold := o.illiquidSpreadThreshold
      minDataPoints := globalRegime.minDataPoints }

/-- `PortfolioPolicyResolver._resolve_guard`. -/
def resolveGuard (globalGuard : QuotePortfolioGuardConfig)
    (overrideGuard : Option QuotePortfolioGuardConfig) : QuotePortfolioGuardConfig :=
  match overrideGuard with
  | none => globalGuard
  | some o =>
    { enabled := o.enabled
      maxDrawdown := o.maxDrawdown.orElse fun _ => globalGuard.maxDrawdown
      maxDailyLoss := o.maxDailyLoss.orElse fun _ => globalGuard.maxDailyLoss
      maxPositionCount := o.maxPositionCount.orElse fun _ => globalGuard.maxPositionCount
      -- never missing either
      minQuoteReserve := o.minQuoteReserve
      maxQuoteExposure := o.maxQuoteExposure }

/-- `PortfolioPolicyResolver.resolve`. -/
def resolve (globalConfig : PortfolioConfig) (asset : Asset) (regime : Option MarketRegime) :
    EffectivePortfolioConfig :=
  let override := asset.portfolio
  let regimeConfig := resolveRegime globalConfig.regime (override.bind (·.regime))
  { exposure := resolveExposure globalConfig.exposure (override.bind (·.exposure))
    regime := regimeConfig
    guard := resolveGuard globalConfig.guard (override.bind (·.guard))
    regimeMultiplier :=
      match regime with
      | some r => if regimeConfig.enabled then r.getExposureMultiplier else 1
      | none => 1 }

end PortfolioPolicyResolver

/-! ## §3 Guard -/

structure PortfolioRiskMetrics where
  totalEquity : ℚ
  totalCash : ℚ
  reservedCash : ℚ
  availableCash : ℚ
  investedNotional : ℚ
  totalExposurePct : ℚ
  assetNotional : ℚ
  assetConcentrationPct : ℚ
  peakEquity : ℚ
  drawdownPct : ℚ
  dailyLossPct : ℚ
  openPositionCount : ℕ

inductive Violation where
  | insufficientCash (required available : ℚ)
  | reserveBreached (remaining required : ℚ)
  | quoteExposure (projected limit : ℚ)
  | assetConcentration (assetSymbol : String) (projected limit : ℚ)
  | totalExposure (projected limit : ℚ)
  | drawdown (current limit : ℚ)
  | positionCount (projected limit : ℤ)
  | illiquidRegime
  deriving DecidableEq

/-- The text of a violation, given how a decimal and a percentage are printed. -/
def Violation.text (decimal percent : ℚ → String) : Violation → String
  | .insufficientCash required available =>
    "Insufficient unreserved cash: required " ++ decimal required ++ ", available " ++
      decimal available
  | .reserveBreached remaining required =>
    "Quote reserve breached: remaining unreserved cash " ++ decimal remaining ++
      " < required reserve " ++ decimal required
  | .quoteExposure projected limit =>
    "Max quote exposure exceeded: projected " ++ percent projected ++ " > limit " ++ percent limit
  | .assetConcentration assetSymbol projected limit =>
    "Asset concentration limit exceeded for " ++ assetSymbol ++ ": projected " ++
      percent projected ++ " > limit " ++ percent limit
  | .totalExposure projected limit =>
    "Max total portfolio exposure exceeded: projected " ++ percent projected ++ " > limit " ++
      percent limit
  | .drawdown current limit =>
    "Portfolio drawdown limit exceeded: current " ++ percent current ++ " < limit " ++
      percent limit
  | .positionCount projected limit =>
    "Max position count exceeded: projected " ++ toString projected ++ " > limit " ++
      toString limit
  | .illiquidRegime => "Market regime is ILLIQUID: new orders prohibited"

structure GuardDecision where
  allowed : Bool
  violations : List Violation
  deriving DecidableEq

/-- The reason of a refusal: the texts of all violations. -/
def GuardDecision.reason (decimal percent : ℚ → String) (decision : GuardDecision) :
    Option String :=
  if decision.violations.isEmpty then none
  else some (String.intercalate "; " (decision.violations.map (Violation.text decimal percent)))

namespace QuotePortfolioGuard

/-- An exposure limit: violated when the projected share of the equity exceeds it. -/
def checkShare (violation : ℚ → ℚ → Violation) (projected totalEquity : ℚ) (limit : Option ℚ) :
    List Violation :=
  match limit with
  | some l =>
    if totalEquity > 0 then
      if projected / totalEquity > l then [violation (projected / totalEquity) l] else []
    else []
  | none => []

/-- Checks 1 and 2: the unreserved cash covers the order and the reserve. -/
def checkCash (orderCost : ℚ) (risk : PortfolioRiskMetrics) (config : EffectivePortfolioConfig) :
    List Violation :=
  -- the available cash is without the reservations of open orders
  let requiredReserve := risk.totalEquity * config.guard.minQuoteReserve
  let remainingUnreserved := risk.availableCash - orderCost
  (if orderCost > risk.availableCash then [.insufficientCash orderCost risk.availableCash]
   else []) ++
  if remainingUnreserved < requiredReserve then
    [.reserveBreached remainingUnreserved requiredReserve]
  else []

/-- Checks 3 to 5: quote exposure, concentration in the asset, total exposure. -/
def checkExposure (assetSymbol : String) (orderCost : ℚ) (risk : PortfolioRiskMetrics)
    (config : EffectivePortfolioConfig) : List Violation :=
  -- the invested notional knows nothing of open orders
  let projectedInvested := risk.investedNotional + orderCost
  checkShare .quoteExposure projectedInvested risk.totalEquity
      (some config.guard.maxQuoteExposure) ++
    checkShare (.assetConcentration assetSymbol) (risk.assetNotional + orderCost)
      risk.totalEquity config.perAssetLimit ++
    checkShare .totalExposure projectedInvested risk.totalEquity config.totalLimit

/-- Checks 6 to 8: drawdown, position count, illiquid regime. -/
def checkState (risk : PortfolioRiskMetrics) (regime : MarketRegime)
    (config : EffectivePortfolioConfig) : List Violation :=
  (match config.guard.maxDrawdown with
    | some maxDrawdown =>
      if risk.drawdownPct < -|maxDrawdown| then [.drawdown risk.drawdownPct (-|maxDrawdown|)]
      else []
    | none => []) ++
  (match config.guard.maxPositionCount with
    | some maxCount =>
      -- an asset that is held already needs no new position
      let projectedCount : ℤ := risk.openPositionCount + if risk.assetNotional ≤ 0 then 1 else 0
      if projectedCount > maxCount then [.positionCount projectedCount maxCount] else []
    | none => []) ++
  if config.regime.enabled && regime = .illiquid then [.illiquidRegime] else []

/-- `QuotePortfolioGuard.evaluate`. -/
def evaluate (assetSymbol : String) (orderCost : ℚ) (risk : PortfolioRiskMetrics)
    (regime : MarketRegime) (config : EffectivePortfolioConfig) : GuardDecision :=
  if !config.guard.enabled then ⟨true, []⟩
  else
    let violations := checkCash orderCost risk config ++
      checkExposure assetSymbol orderCost risk config ++ checkState risk regime config
    if violations.isEmpty then ⟨true, []⟩ else ⟨false, violations⟩

/-- A share is within an optional limit. -/
def WithinLimit (share : ℚ) (limit : Option ℚ) : Prop :=
  ∀ l, limit = some l → share ≤ l

instance (share : ℚ) (limit : Option ℚ) : Decidable (WithinLimit share limit) :=
  inferInstanceAs (Decidable (∀ l ∈ limit, share ≤ l))

theorem checkShare_eq_nil_iff (violation : ℚ → ℚ → Violation) {projected totalEquity : ℚ}
    (hpos : 0 < totalEquity) (limit : Option ℚ) :
    checkShare violation projected totalEquity limit = [] ↔
      WithinLimit (projected / totalEquity) limit := by
  unfold checkShare WithinLimit
  cases limit with
  | none => simp
  | some l => simp [hpos]

/-- What the guard has checked when it lets an order pass. -/
theorem evaluate_allowed {assetSymbol : String} {orderCost : ℚ} {risk : PortfolioRiskMetrics}
    {regime : MarketRegime} {config : EffectivePortfolioConfig}
    (henabled : config.guard.enabled = true) (hpos : 0 < risk.totalEquity)
    (h : (evaluate assetSymbol orderCost risk regime config).allowed = true) :
    orderCost ≤ risk.availableCash ∧
      risk.totalEquity * config.guard.minQuoteReserve ≤ risk.availableCash - orderCost ∧
      (risk.investedNotional + orderCost) / risk.totalEquity ≤ config.guard.maxQuoteExposure ∧
      WithinLimit ((risk.investedNotional + orderCost) / risk.totalEquity) config.totalLimit := by
  unfold evaluate at h
  rw [henabled] at h
  simp only [Bool.not_true, Bool.false_eq_true, ↓reduceIte] at h
  split at h
  · rename_i hnone
    simp only [checkCash, checkExposure, List.isEmpty_iff, List.append_eq_nil_iff] at hnone
    obtain ⟨⟨⟨hcash, hreserve⟩, ⟨hquote, -⟩, htotal⟩, -⟩ := hnone
    rw [checkShare_eq_nil_iff _ hpos] at hquote htotal
    refine ⟨?_, ?_, hquote _ rfl, htotal⟩
    · by_contra hmore
      simp [not_le.mp hmore] at hcash
    · by_contra hless
      simp [not_le.mp hless] at hreserve
  · cases h

end QuotePortfolioGuard

end CryptoTrading.Protection
