import CryptoTrading.Protection.Guard

/-!
# What an asset override inherits

Embeds the models of `src/configuration/portfolio_config.py` as they read an override document;
`Guard.lean` has the resolver of `src/trading/protection/portfolio_policy_resolver.py`.

The sections of an override are of the classes of the global configuration.  A field that the
document leaves out takes the default of its class there, and the resolver, which looks for
`None`, finds a value: the global limit is replaced by that default.  `min_data_points` is the
other way round and is never taken from an override.

A document is inherited from field by field exactly when it leaves out no field whose global value
is another than the default (`resolve_inherits_iff`).

The spelling of keys and the conversion of values are left out.
-/

namespace CryptoTrading.Protection

/-! ## §1 Documents -/

/-- What a document says about a field or a section. -/
inductive Entry (α : Type) where
  | absent
  | null
  | value (v : α)
  deriving DecidableEq

variable {α : Type}

/-- The value that the document gives. -/
def Entry.given : Entry α → Option α
  | .value v => some v
  | _ => none

/-- A field of a type that has `None`; nothing when its value is rejected. -/
def readOptional (accepts : α → Bool) (default : α) : Entry α → Option (Option α)
  | .absent => some (some default)
  | .null => some none
  | .value v => if accepts v then some (some v) else none

/-- A field of a type without `None`. -/
def readRequired (accepts : α → Bool) (default : α) : Entry α → Option α
  | .absent => some default
  | .null => none
  | .value v => if accepts v then some v else none

/-- A section, which defaults to `None`. -/
def readSection {β : Type} (read : α → Option β) : Entry α → Option (Option β)
  | .absent => some none
  | .null => some none
  | .value doc => (read doc).map some

/-- `ge=0, le=1`. -/
def isFraction (x : ℚ) : Bool := 0 ≤ x && x ≤ 1

/-- `gt=0`. -/
def isPositive (x : ℚ) : Bool := 0 < x

/-- `ge=0`. -/
def isNonneg (x : ℚ) : Bool := 0 ≤ x

/-- `ge=2, le=500`. -/
def isPeriod (n : ℤ) : Bool := 2 ≤ n && n ≤ 500

/-- `ge=low`. -/
def isAtLeast (low x : ℤ) : Bool := low ≤ x

structure ExposureDocument where
  maxTotal : Entry ℚ
  maxPerAsset : Entry ℚ
  maxPerQuote : Entry ℚ
  deriving DecidableEq

/-- `PortfolioExposureConfig` of a document. -/
def ExposureDocument.read (doc : ExposureDocument) : Option PortfolioExposureConfig := do
  let maxTotal ← readOptional isFraction (80 / 100) doc.maxTotal
  let maxPerAsset ← readOptional isFraction (25 / 100) doc.maxPerAsset
  let maxPerQuote ← readOptional isFraction (50 / 100) doc.maxPerQuote
  some ⟨maxTotal, maxPerAsset, maxPerQuote⟩

structure RegimeDocument where
  enabled : Entry Bool
  period : Entry ℤ
  highVolatilityThreshold : Entry ℚ
  lowVolatilityThreshold : Entry ℚ
  trendThreshold : Entry ℚ
  illiquidSpreadThreshold : Entry ℚ
  minDataPoints : Entry ℤ
  deriving DecidableEq

/-- `MarketRegimeConfig` of a document. -/
def RegimeDocument.read (doc : RegimeDocument) : Option MarketRegimeConfig := do
  let enabled ← readRequired (fun _ => true) true doc.enabled
  let period ← readRequired isPeriod 20 doc.period
  let highVolatilityThreshold ← readRequired isPositive (3 / 100) doc.highVolatilityThreshold
  let lowVolatilityThreshold ← readRequired isNonneg (5 / 1000) doc.lowVolatilityThreshold
  let trendThreshold ← readRequired isNonneg (5 / 1000) doc.trendThreshold
  let illiquidSpreadThreshold ← readRequired isPositive (5 / 100) doc.illiquidSpreadThreshold
  let minDataPoints ← readRequired (isAtLeast 1) 3 doc.minDataPoints
  some ⟨enabled, period, highVolatilityThreshold, lowVolatilityThreshold, trendThreshold,
    illiquidSpreadThreshold, minDataPoints⟩

structure GuardDocument where
  enabled : Entry Bool
  maxDrawdown : Entry ℚ
  maxDailyLoss : Entry ℚ
  maxPositionCount : Entry ℤ
  minQuoteReserve : Entry ℚ
  maxQuoteExposure : Entry ℚ
  deriving DecidableEq

/-- `QuotePortfolioGuardConfig` of a document. -/
def GuardDocument.read (doc : GuardDocument) : Option QuotePortfolioGuardConfig := do
  let enabled ← readRequired (fun _ => true) true doc.enabled
  let maxDrawdown ← readOptional isFraction (10 / 100) doc.maxDrawdown
  let maxDailyLoss ← readOptional isFraction (5 / 100) doc.maxDailyLoss
  let maxPositionCount ← readOptional (isAtLeast 1) 10 doc.maxPositionCount
  let minQuoteReserve ← readRequired isFraction (10 / 100) doc.minQuoteReserve
  let maxQuoteExposure ← readRequired isFraction (80 / 100) doc.maxQuoteExposure
  some ⟨enabled, maxDrawdown, maxDailyLoss, maxPositionCount, minQuoteReserve, maxQuoteExposure⟩

structure OverrideDocument where
  exposure : Entry ExposureDocument
  regime : Entry RegimeDocument
  guard : Entry GuardDocument
  deriving DecidableEq

/-- `AssetPortfolioOverride` of a document. -/
def OverrideDocument.read (doc : OverrideDocument) : Option AssetPortfolioOverride := do
  let exposure ← readSection ExposureDocument.read doc.exposure
  let regime ← readSection RegimeDocument.read doc.regime
  let guard ← readSection GuardDocument.read doc.guard
  some ⟨exposure, regime, guard⟩

/-! ## §2 What the constructors accept -/

/-- The values that `PortfolioExposureConfig` accepts. -/
structure AcceptedExposure (c : PortfolioExposureConfig) : Prop where
  max_total : ∀ x ∈ c.maxTotal, isFraction x
  max_per_asset : ∀ x ∈ c.maxPerAsset, isFraction x
  max_per_quote : ∀ x ∈ c.maxPerQuote, isFraction x

structure AcceptedRegime (c : MarketRegimeConfig) : Prop where
  period : isPeriod c.period
  high_volatility_threshold : isPositive c.highVolatilityThreshold
  low_volatility_threshold : isNonneg c.lowVolatilityThreshold
  trend_threshold : isNonneg c.trendThreshold
  illiquid_spread_threshold : isPositive c.illiquidSpreadThreshold
  min_data_points : isAtLeast 1 c.minDataPoints

structure AcceptedGuard (c : QuotePortfolioGuardConfig) : Prop where
  max_drawdown : ∀ x ∈ c.maxDrawdown, isFraction x
  max_daily_loss : ∀ x ∈ c.maxDailyLoss, isFraction x
  max_position_count : ∀ n ∈ c.maxPositionCount, isAtLeast 1 n
  min_quote_reserve : isFraction c.minQuoteReserve
  max_quote_exposure : isFraction c.maxQuoteExposure

section Accepted

variable {accepts : α → Bool} {default : α} {entry : Entry α}

theorem accepted_optional (hdefault : accepts default) {r : Option α}
    (h : readOptional accepts default entry = some r) : ∀ x ∈ r, accepts x := by
  cases entry with
  | absent =>
    obtain rfl := Option.some.inj h
    rintro _ ⟨⟩
    exact hdefault
  | null =>
    obtain rfl := Option.some.inj h
    rintro _ ⟨⟩
  | value v =>
    by_cases hv : accepts v = true
    · simp only [readOptional, if_pos hv] at h
      obtain rfl := Option.some.inj h
      rintro _ ⟨⟩
      exact hv
    · simp only [readOptional, if_neg hv] at h
      cases h

theorem accepted_required (hdefault : accepts default) {r : α}
    (h : readRequired accepts default entry = some r) : accepts r := by
  cases entry with
  | absent =>
    obtain rfl := Option.some.inj h
    exact hdefault
  | null => cases h
  | value v =>
    by_cases hv : accepts v = true
    · simp only [readRequired, if_pos hv] at h
      obtain rfl := Option.some.inj h
      exact hv
    · simp only [readRequired, if_neg hv] at h
      cases h

theorem accepted_orElse {r g : Option α} (hr : ∀ x ∈ r, accepts x) (hg : ∀ x ∈ g, accepts x) :
    ∀ x ∈ r.orElse fun _ => g, accepts x := by
  cases r with
  | none => exact hg
  | some v => exact hr

end Accepted

/-- **Every default passes its own check**, and so does all that is read. -/
theorem ExposureDocument.accepted {doc : ExposureDocument} {c : PortfolioExposureConfig}
    (h : doc.read = some c) : AcceptedExposure c := by
  simp only [ExposureDocument.read, Option.bind_eq_bind, Option.bind_eq_some_iff] at h
  obtain ⟨maxTotal, htotal, maxPerAsset, hasset, maxPerQuote, hquote, ⟨⟩⟩ := h
  exact ⟨accepted_optional (by decide +kernel) htotal, accepted_optional (by decide +kernel) hasset,
    accepted_optional (by decide +kernel) hquote⟩

theorem RegimeDocument.accepted {doc : RegimeDocument} {c : MarketRegimeConfig}
    (h : doc.read = some c) : AcceptedRegime c := by
  simp only [RegimeDocument.read, Option.bind_eq_bind, Option.bind_eq_some_iff] at h
  obtain ⟨enabled, -, period, hperiod, high, hhigh, low, hlow, trend, htrend, spread, hspread,
    points, hpoints, ⟨⟩⟩ := h
  exact ⟨accepted_required (by decide +kernel) hperiod, accepted_required (by decide +kernel) hhigh,
    accepted_required (by decide +kernel) hlow, accepted_required (by decide +kernel) htrend,
    accepted_required (by decide +kernel) hspread, accepted_required (by decide +kernel) hpoints⟩

theorem GuardDocument.accepted {doc : GuardDocument} {c : QuotePortfolioGuardConfig}
    (h : doc.read = some c) : AcceptedGuard c := by
  simp only [GuardDocument.read, Option.bind_eq_bind, Option.bind_eq_some_iff] at h
  obtain ⟨enabled, -, drawdown, hdrawdown, loss, hloss, count, hcount, reserve, hreserve,
    exposure, hexposure, ⟨⟩⟩ := h
  exact ⟨accepted_optional (by decide +kernel) hdrawdown,
    accepted_optional (by decide +kernel) hloss, accepted_optional (by decide +kernel) hcount,
    accepted_required (by decide +kernel) hreserve,
    accepted_required (by decide +kernel) hexposure⟩

namespace PortfolioPolicyResolver

/-- **The constructors that the resolver calls accept what it hands them.** -/
theorem accepted_resolveExposure {g c : PortfolioExposureConfig} (hg : AcceptedExposure g)
    (hc : AcceptedExposure c) : AcceptedExposure (resolveExposure g (some c)) :=
  ⟨accepted_orElse hc.max_total hg.max_total, accepted_orElse hc.max_per_asset hg.max_per_asset,
    accepted_orElse hc.max_per_quote hg.max_per_quote⟩

theorem accepted_resolveRegime {g c : MarketRegimeConfig} (hg : AcceptedRegime g)
    (hc : AcceptedRegime c) : AcceptedRegime (resolveRegime g (some c)) :=
  { hc with min_data_points := hg.min_data_points }

theorem accepted_resolveGuard {g c : QuotePortfolioGuardConfig} (hg : AcceptedGuard g)
    (hc : AcceptedGuard c) : AcceptedGuard (resolveGuard g (some c)) :=
  ⟨accepted_orElse hc.max_drawdown hg.max_drawdown,
    accepted_orElse hc.max_daily_loss hg.max_daily_loss,
    accepted_orElse hc.max_position_count hg.max_position_count, hc.min_quote_reserve,
    hc.max_quote_exposure⟩

end PortfolioPolicyResolver

/-! ## §3 Inheriting field by field -/

/-- The fields that the document gives, over the global ones. -/
def ExposureDocument.over (doc : ExposureDocument) (g : PortfolioExposureConfig) :
    PortfolioExposureConfig where
  maxTotal := doc.maxTotal.given.or g.maxTotal
  maxPerAsset := doc.maxPerAsset.given.or g.maxPerAsset
  maxPerQuote := doc.maxPerQuote.given.or g.maxPerQuote

def RegimeDocument.over (doc : RegimeDocument) (g : MarketRegimeConfig) :
    MarketRegimeConfig where
  enabled := doc.enabled.given.getD g.enabled
  period := doc.period.given.getD g.period
  highVolatilityThreshold := doc.highVolatilityThreshold.given.getD g.highVolatilityThreshold
  lowVolatilityThreshold := doc.lowVolatilityThreshold.given.getD g.lowVolatilityThreshold
  trendThreshold := doc.trendThreshold.given.getD g.trendThreshold
  illiquidSpreadThreshold := doc.illiquidSpreadThreshold.given.getD g.illiquidSpreadThreshold
  minDataPoints := doc.minDataPoints.given.getD g.minDataPoints

def GuardDocument.over (doc : GuardDocument) (g : QuotePortfolioGuardConfig) :
    QuotePortfolioGuardConfig where
  enabled := doc.enabled.given.getD g.enabled
  maxDrawdown := doc.maxDrawdown.given.or g.maxDrawdown
  maxDailyLoss := doc.maxDailyLoss.given.or g.maxDailyLoss
  maxPositionCount := doc.maxPositionCount.given.or g.maxPositionCount
  minQuoteReserve := doc.minQuoteReserve.given.getD g.minQuoteReserve
  maxQuoteExposure := doc.maxQuoteExposure.given.getD g.maxQuoteExposure

/-- A section over the global one. -/
def Entry.sectionOver {β : Type} (overlay : α → β → β) (doc : Entry α) (g : β) : β :=
  match doc.given with
  | some d => overlay d g
  | none => g

/-- What was resolved, without the multiplier. -/
def EffectivePortfolioConfig.toPortfolioConfig (config : EffectivePortfolioConfig) :
    PortfolioConfig :=
  ⟨config.exposure, config.regime, config.guard⟩

/-- What an override should resolve to: for every field the value that the document gives, and
    the global one where it gives none. -/
def OverrideDocument.over (doc : OverrideDocument) (g : PortfolioConfig) : PortfolioConfig where
  exposure := doc.exposure.sectionOver ExposureDocument.over g.exposure
  regime := doc.regime.sectionOver RegimeDocument.over g.regime
  guard := doc.guard.sectionOver GuardDocument.over g.guard

/-- Where the document leaves a field out, the global value is the default of the class. -/
structure ExposureDocument.LeavesDefaults (doc : ExposureDocument) (g : PortfolioExposureConfig) :
    Prop where
  max_total : doc.maxTotal = .absent → g.maxTotal = PortfolioExposureConfig.default.maxTotal
  max_per_asset :
    doc.maxPerAsset = .absent → g.maxPerAsset = PortfolioExposureConfig.default.maxPerAsset
  max_per_quote :
    doc.maxPerQuote = .absent → g.maxPerQuote = PortfolioExposureConfig.default.maxPerQuote

/-- The same for the regime; a number of data points, where one is given, is the global one. -/
structure RegimeDocument.LeavesDefaults (doc : RegimeDocument) (g : MarketRegimeConfig) :
    Prop where
  enabled : doc.enabled = .absent → g.enabled = MarketRegimeConfig.default.enabled
  period : doc.period = .absent → g.period = MarketRegimeConfig.default.period
  high_volatility_threshold : doc.highVolatilityThreshold = .absent →
    g.highVolatilityThreshold = MarketRegimeConfig.default.highVolatilityThreshold
  low_volatility_threshold : doc.lowVolatilityThreshold = .absent →
    g.lowVolatilityThreshold = MarketRegimeConfig.default.lowVolatilityThreshold
  trend_threshold : doc.trendThreshold = .absent →
    g.trendThreshold = MarketRegimeConfig.default.trendThreshold
  illiquid_spread_threshold : doc.illiquidSpreadThreshold = .absent →
    g.illiquidSpreadThreshold = MarketRegimeConfig.default.illiquidSpreadThreshold
  min_data_points : ∀ n, doc.minDataPoints = .value n → n = g.minDataPoints

structure GuardDocument.LeavesDefaults (doc : GuardDocument) (g : QuotePortfolioGuardConfig) :
    Prop where
  enabled : doc.enabled = .absent → g.enabled = QuotePortfolioGuardConfig.default.enabled
  max_drawdown :
    doc.maxDrawdown = .absent → g.maxDrawdown = QuotePortfolioGuardConfig.default.maxDrawdown
  max_daily_loss :
    doc.maxDailyLoss = .absent → g.maxDailyLoss = QuotePortfolioGuardConfig.default.maxDailyLoss
  max_position_count : doc.maxPositionCount = .absent →
    g.maxPositionCount = QuotePortfolioGuardConfig.default.maxPositionCount
  min_quote_reserve : doc.minQuoteReserve = .absent →
    g.minQuoteReserve = QuotePortfolioGuardConfig.default.minQuoteReserve
  max_quote_exposure : doc.maxQuoteExposure = .absent →
    g.maxQuoteExposure = QuotePortfolioGuardConfig.default.maxQuoteExposure

/-- Every section that the document has leaves out nothing but defaults. -/
structure OverrideDocument.LeavesDefaults (doc : OverrideDocument) (g : PortfolioConfig) :
    Prop where
  exposure : ∀ d, doc.exposure = .value d → d.LeavesDefaults g.exposure
  regime : ∀ d, doc.regime = .value d → d.LeavesDefaults g.regime
  guard : ∀ d, doc.guard = .value d → d.LeavesDefaults g.guard

section Fields

variable {accepts : α → Bool} {default : α} {entry : Entry α}

/-- A field with `None` is inherited unless it is left out and the global value is not the
    default. -/
theorem inherits_optional {r : Option α} (h : readOptional accepts default entry = some r)
    (g : Option α) :
    (r.orElse fun _ => g) = entry.given.or g ↔ (entry = .absent → g = some default) := by
  cases entry with
  | absent =>
    obtain rfl := Option.some.inj h
    exact ⟨fun heq _ => heq.symm, fun hdefault => (hdefault rfl).symm⟩
  | null =>
    obtain rfl := Option.some.inj h
    exact iff_of_true rfl (by rintro ⟨⟩)
  | value v =>
    by_cases hv : accepts v = true
    · simp only [readOptional, if_pos hv] at h
      obtain rfl := Option.some.inj h
      exact iff_of_true rfl (by rintro ⟨⟩)
    · simp only [readOptional, if_neg hv] at h
      cases h

/-- So is a field without `None`. -/
theorem inherits_required {r : α} (h : readRequired accepts default entry = some r) (g : α) :
    r = entry.given.getD g ↔ (entry = .absent → g = default) := by
  cases entry with
  | absent =>
    obtain rfl := Option.some.inj h
    exact ⟨fun heq _ => heq.symm, fun hdefault => (hdefault rfl).symm⟩
  | null => cases h
  | value v =>
    by_cases hv : accepts v = true
    · simp only [readRequired, if_pos hv] at h
      obtain rfl := Option.some.inj h
      exact iff_of_true rfl (by rintro ⟨⟩)
    · simp only [readRequired, if_neg hv] at h
      cases h

/-- A field that the resolver takes from the global configuration. -/
theorem inherits_ignored (entry : Entry α) (g : α) :
    g = entry.given.getD g ↔ ∀ v, entry = .value v → v = g := by
  cases entry with
  | absent => exact iff_of_true rfl (by rintro _ ⟨⟩)
  | null => exact iff_of_true rfl (by rintro _ ⟨⟩)
  | value v => exact ⟨fun h _ hv => (Entry.value.inj hv) ▸ h.symm, fun h => (h v rfl).symm⟩

end Fields

/-! ## §4 The exact condition -/

namespace PortfolioPolicyResolver

theorem resolveExposure_eq_iff {doc : ExposureDocument} {c : PortfolioExposureConfig}
    (h : doc.read = some c) (g : PortfolioExposureConfig) :
    resolveExposure g (some c) = doc.over g ↔ doc.LeavesDefaults g := by
  simp only [ExposureDocument.read, Option.bind_eq_bind, Option.bind_eq_some_iff] at h
  obtain ⟨maxTotal, htotal, maxPerAsset, hasset, maxPerQuote, hquote, ⟨⟩⟩ := h
  simp only [resolveExposure, ExposureDocument.over, PortfolioExposureConfig.mk.injEq,
    inherits_optional htotal, inherits_optional hasset, inherits_optional hquote]
  exact ⟨fun ⟨h₁, h₂, h₃⟩ => ⟨h₁, h₂, h₃⟩, fun ⟨h₁, h₂, h₃⟩ => ⟨h₁, h₂, h₃⟩⟩

theorem resolveRegime_eq_iff {doc : RegimeDocument} {c : MarketRegimeConfig}
    (h : doc.read = some c) (g : MarketRegimeConfig) :
    resolveRegime g (some c) = doc.over g ↔ doc.LeavesDefaults g := by
  simp only [RegimeDocument.read, Option.bind_eq_bind, Option.bind_eq_some_iff] at h
  obtain ⟨enabled, henabled, period, hperiod, high, hhigh, low, hlow, trend, htrend, spread,
    hspread, points, -, ⟨⟩⟩ := h
  simp only [resolveRegime, RegimeDocument.over, MarketRegimeConfig.mk.injEq,
    inherits_required henabled, inherits_required hperiod,
    inherits_required hhigh, inherits_required hlow, inherits_required htrend,
    inherits_required hspread, inherits_ignored doc.minDataPoints]
  exact ⟨fun ⟨h₁, h₂, h₃, h₄, h₅, h₆, h₇⟩ => ⟨h₁, h₂, h₃, h₄, h₅, h₆, h₇⟩,
    fun ⟨h₁, h₂, h₃, h₄, h₅, h₆, h₇⟩ => ⟨h₁, h₂, h₃, h₄, h₅, h₆, h₇⟩⟩

theorem resolveGuard_eq_iff {doc : GuardDocument} {c : QuotePortfolioGuardConfig}
    (h : doc.read = some c) (g : QuotePortfolioGuardConfig) :
    resolveGuard g (some c) = doc.over g ↔ doc.LeavesDefaults g := by
  simp only [GuardDocument.read, Option.bind_eq_bind, Option.bind_eq_some_iff] at h
  obtain ⟨enabled, henabled, drawdown, hdrawdown, loss, hloss, count, hcount, reserve, hreserve,
    exposure, hexposure, ⟨⟩⟩ := h
  simp only [resolveGuard, GuardDocument.over, QuotePortfolioGuardConfig.mk.injEq,
    inherits_required henabled, inherits_optional hdrawdown, inherits_optional hloss,
    inherits_optional hcount, inherits_required hreserve, inherits_required hexposure]
  exact ⟨fun ⟨h₁, h₂, h₃, h₄, h₅, h₆⟩ => ⟨h₁, h₂, h₃, h₄, h₅, h₆⟩,
    fun ⟨h₁, h₂, h₃, h₄, h₅, h₆⟩ => ⟨h₁, h₂, h₃, h₄, h₅, h₆⟩⟩

/-- A section that is not there is inherited whole; one that is there, field by field. -/
theorem resolveSection_eq_iff {β γ : Type} {read : α → Option β} {overlay : α → γ → γ}
    (resolve : γ → Option β → γ) {Leaves : α → Prop} {entry : Entry α} {c : Option β} {g : γ}
    (hnone : resolve g none = g)
    (hsome : ∀ {doc c}, read doc = some c → (resolve g (some c) = overlay doc g ↔ Leaves doc))
    (h : readSection read entry = some c) :
    resolve g c = entry.sectionOver overlay g ↔ ∀ doc, entry = .value doc → Leaves doc := by
  cases entry with
  | absent =>
    obtain rfl := Option.some.inj h
    exact iff_of_true hnone (by rintro _ ⟨⟩)
  | null =>
    obtain rfl := Option.some.inj h
    exact iff_of_true hnone (by rintro _ ⟨⟩)
  | value doc =>
    obtain ⟨c, hc, rfl⟩ := Option.map_eq_some_iff.mp h
    show resolve g (some c) = overlay doc g ↔ _
    rw [hsome hc]
    exact ⟨fun hleaves _ hdoc => Entry.value.inj hdoc ▸ hleaves, fun hall => hall doc rfl⟩

/-- **An override inherits what it does not mention exactly when it leaves out no field whose global
    value is another than the default of its class**, and gives no number of data points but the
    global one.

    A section of the override is parsed by the class of the global one, so what it leaves out has
    the default of the class, which is not `None` and replaces the global value. -/
theorem resolve_inherits_iff {doc : OverrideDocument} {o : AssetPortfolioOverride}
    (hread : doc.read = some o) (g : PortfolioConfig) (asset : Asset)
    (regime : Option MarketRegime) :
    (resolve g { asset with portfolio := some o } regime).toPortfolioConfig = doc.over g ↔
      doc.LeavesDefaults g := by
  simp only [OverrideDocument.read, Option.bind_eq_bind, Option.bind_eq_some_iff] at hread
  obtain ⟨exposure, hexposure, regimeSection, hregime, guard, hguard, ⟨⟩⟩ := hread
  simp only [resolve, EffectivePortfolioConfig.toPortfolioConfig, OverrideDocument.over,
    PortfolioConfig.mk.injEq, Option.bind_some]
  rw [resolveSection_eq_iff resolveExposure rfl
      (fun h => resolveExposure_eq_iff h g.exposure) hexposure,
    resolveSection_eq_iff resolveRegime rfl
      (fun h => resolveRegime_eq_iff h g.regime) hregime,
    resolveSection_eq_iff resolveGuard rfl
      (fun h => resolveGuard_eq_iff h g.guard) hguard]
  exact ⟨fun ⟨h₁, h₂, h₃⟩ => ⟨h₁, h₂, h₃⟩, fun ⟨h₁, h₂, h₃⟩ => ⟨h₁, h₂, h₃⟩⟩

/-- A document that gives only the total exposure. -/
def totalExposureDocument : OverrideDocument where
  exposure := .value ⟨.value (1 / 2), .absent, .absent⟩
  regime := .absent
  guard := .null

/-- A document that gives only the number of data points. -/
def dataPointsDocument : OverrideDocument where
  exposure := .absent
  regime := .value ⟨.absent, .absent, .absent, .absent, .absent, .absent, .value 5⟩
  guard := .absent

def ethUsd (o : AssetPortfolioOverride) : Asset := ⟨"ETH", "USD", 2, "BINANCE", none, some o⟩

/-- Over the defaults, a document that gives the total exposure changes nothing else. -/
theorem resolve_inherits_defaults :
    (resolve PortfolioConfig.default
        (ethUsd ⟨some ⟨some (1 / 2), some (25 / 100), some (50 / 100)⟩, none, none⟩)
        (some .normal)).toPortfolioConfig =
      totalExposureDocument.over PortfolioConfig.default := by
  have hread : totalExposureDocument.read =
      some ⟨some ⟨some (1 / 2), some (25 / 100), some (50 / 100)⟩, none, none⟩ := by
    decide +kernel
  refine (resolve_inherits_iff hread _ (ethUsd ⟨none, none, none⟩) _).mpr ?_
  refine ⟨?_, by rintro _ ⟨⟩, by rintro _ ⟨⟩⟩
  rintro _ ⟨⟩
  exact ⟨fun _ => rfl, fun _ => rfl, fun _ => rfl⟩

/-- Over a limit of 10% for each asset, the same document loosens that limit to 25%; and the
    number of data points of an override is not used. -/
theorem resolve_loosens :
    let strict : PortfolioConfig := { PortfolioConfig.default with
      exposure := ⟨some (80 / 100), some (10 / 100), some (50 / 100)⟩ }
    (∃ o, totalExposureDocument.read = some o ∧
        (resolve strict (ethUsd o) none).exposure.maxPerAsset = some (25 / 100) ∧
        (totalExposureDocument.over strict).exposure.maxPerAsset = some (10 / 100)) ∧
      ∃ o, dataPointsDocument.read = some o ∧
        (resolve PortfolioConfig.default (ethUsd o) none).regime.minDataPoints = 3 ∧
        (dataPointsDocument.over PortfolioConfig.default).regime.minDataPoints = 5 := by
  refine ⟨⟨⟨some ⟨some (1 / 2), some (25 / 100), some (50 / 100)⟩, none, none⟩, ?_⟩,
    ⟨⟨none, some { MarketRegimeConfig.default with minDataPoints := 5 }, none⟩, ?_⟩⟩
  · decide +kernel
  · decide +kernel

end PortfolioPolicyResolver

end CryptoTrading.Protection
