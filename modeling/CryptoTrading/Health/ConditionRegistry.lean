import Mathlib.Data.Rat.Defs
import CryptoTrading.Lib.Dict
import CryptoTrading.Lib.Run

/-!
# Trading health: observations and the condition registry

Embeds `src/trading/health/enums.py`, `models.py`, `recovery_policy.py` and
`condition_registry.py`.

An observation reports one `(condition, scope)` pair as healthy or not.  The
registry keeps one `ActiveCondition` for each pair that is currently unhealthy,
rewrites it on every further observation of the pair, and drops it when the
recovery policy agrees.

Points in time are rational numbers of seconds.  The values the source types as
`Any` (`measured_value`, `threshold`, the `metadata` dictionary) are of an
arbitrary type `V` with decidable equality: the state machine compares them.
-/

namespace CryptoTrading.Health

open CryptoTrading.Lib

/-! ## §1 Enumerations -/

inductive TradingHealthState where
  | starting | syncing | ready | trading | degraded | paused | recovering | stopping | stopped
  deriving DecidableEq, Repr

inductive TradingHealthCondition where
  | exchangeUnavailable
  | marketDataStale
  | balanceMismatch
  | orderReconciliationFailed
  | databaseUnavailable
  | riskLimitBreached
  | configInvalid
  deriving DecidableEq, Repr

inductive ScopeType where
  | global | exchange | quotePortfolio | asset
  deriving DecidableEq, Repr

/-- `src/core/severity.py`. -/
inductive Severity where
  | debug | info | warning | error | critical | fatal
  deriving DecidableEq, Repr

def Severity.isCriticalOrHigher : Severity → Bool
  | .critical => true
  | .fatal => true
  | _ => false

/-! ## §2 Scopes -/

structure HealthScope where
  scopeType : ScopeType
  identifier : String
  deriving DecidableEq, Repr

namespace HealthScope

def globalScope : HealthScope := ⟨.global, "GLOBAL"⟩

def assetScope (tickerSymbol : String) : HealthScope := ⟨.asset, tickerSymbol⟩

/-- Whether a condition of scope `self` touches the scope that is being evaluated. -/
def matchesTarget (self targetScope : HealthScope)
    (exchangeName quotePortfolioKey : Option String) : Bool :=
  match self.scopeType with
  | .global => true
  | .exchange =>
    if targetScope.scopeType = .exchange then self.identifier = targetScope.identifier
    else match exchangeName with
      | some name => self.identifier = name
      | none => false
  | .quotePortfolio =>
    if targetScope.scopeType = .quotePortfolio then self.identifier = targetScope.identifier
    else match quotePortfolioKey with
      | some key => self.identifier = key
      | none => false
  | .asset => targetScope.scopeType = .asset && self.identifier = targetScope.identifier

theorem matchesTarget_of_global {scope : HealthScope} (h : scope.scopeType = .global)
    (target : HealthScope) (ex qp : Option String) :
    scope.matchesTarget target ex qp = true := by
  simp [matchesTarget, h]

end HealthScope

/-! ## §3 Observations and active conditions -/

structure HealthObservation (V : Type) where
  source : String
  condition : TradingHealthCondition
  scope : HealthScope
  healthy : Bool
  observedAt : ℚ
  severity : Severity
  measuredValue : Option V
  threshold : Option V
  metadata : V
  deriving DecidableEq

structure ActiveCondition (V : Type) where
  condition : TradingHealthCondition
  scope : HealthScope
  severity : Severity
  firstDetectedAt : ℚ
  lastObservedAt : ℚ
  measuredValue : Option V
  threshold : Option V
  consecutiveHealthyChecks : ℕ
  metadata : V
  deriving DecidableEq

variable {V : Type}

/-! ## §4 Recovery policy -/

structure RecoveryConfig where
  automatic : Bool
  stablePeriodSeconds : ℚ
  requiredSuccessfulChecks : ℤ
  deriving DecidableEq

/-- The field defaults of the source. -/
def RecoveryConfig.default : RecoveryConfig := ⟨true, 10, 3⟩

/-- `RecoveryPolicy.can_resolve`. -/
def RecoveryConfig.canResolve (config : RecoveryConfig) (condition : ActiveCondition V)
    (currentTime : ℚ) : Bool :=
  if condition.severity = .fatal then false
  else if !config.automatic then false
  else if (condition.consecutiveHealthyChecks : ℤ) < config.requiredSuccessfulChecks then false
  else
    -- compared with zero; `stable_period_seconds` is not read
    let elapsedSeconds := currentTime - condition.lastObservedAt
    decide (elapsedSeconds ≥ 0)

/-! ## §5 The registry -/

/-- Registry keys: condition, scope type and scope identifier. -/
abbrev ConditionKey := TradingHealthCondition × ScopeType × String

/-- `ConditionRegistry._make_key`. -/
def makeKey (condition : TradingHealthCondition) (scope : HealthScope) : ConditionKey :=
  (condition, scope.scopeType, scope.identifier)

theorem makeKey_inj {c c' : TradingHealthCondition} {s s' : HealthScope}
    (h : makeKey c s = makeKey c' s') : c = c' ∧ s = s' := by
  obtain ⟨t, i⟩ := s
  obtain ⟨t', i'⟩ := s'
  simp_all [makeKey]

/-- The key an observation is filed under. -/
def HealthObservation.key (o : HealthObservation V) : ConditionKey := makeKey o.condition o.scope

structure ConditionRegistry (V : Type) where
  recoveryConfig : RecoveryConfig
  activeConditions : Dict ConditionKey (ActiveCondition V)
  deriving DecidableEq

namespace ConditionRegistry

/-- A registry without conditions. -/
def new (config : RecoveryConfig) : ConditionRegistry V := ⟨config, Dict.empty⟩

def getActiveConditions (reg : ConditionRegistry V) : List (ActiveCondition V) :=
  reg.activeConditions.values

/-- The record of a pair that was not active before. -/
def detectedCondition (o : HealthObservation V) : ActiveCondition V where
  condition := o.condition
  scope := o.scope
  severity := o.severity
  firstDetectedAt := o.observedAt
  lastObservedAt := o.observedAt
  measuredValue := o.measuredValue
  threshold := o.threshold
  consecutiveHealthyChecks := 0
  metadata := o.metadata

/-- The record of an active pair after one more unhealthy observation. -/
def relapsedCondition (existing : ActiveCondition V) (o : HealthObservation V) :
    ActiveCondition V where
  condition := existing.condition
  scope := existing.scope
  severity := o.severity
  firstDetectedAt := existing.firstDetectedAt
  lastObservedAt := o.observedAt
  measuredValue := o.measuredValue
  threshold := o.threshold
  consecutiveHealthyChecks := 0
  metadata := o.metadata

/-- The record of an active pair after one more healthy observation. -/
def improvedCondition (existing : ActiveCondition V) (o : HealthObservation V) :
    ActiveCondition V where
  condition := existing.condition
  scope := existing.scope
  severity := existing.severity
  firstDetectedAt := existing.firstDetectedAt
  lastObservedAt := o.observedAt
  measuredValue := o.measuredValue
  threshold := o.threshold
  consecutiveHealthyChecks := existing.consecutiveHealthyChecks + 1
  metadata := existing.metadata

/-- What `record_observation` returns, next to the new registry. -/
structure Recorded (V : Type) where
  changed : Bool
  detected : Option (ActiveCondition V)
  resolved : Option (ActiveCondition V)

/-- `ConditionRegistry.record_observation`. -/
def recordObservation (reg : ConditionRegistry V) (o : HealthObservation V) :
    ConditionRegistry V × Recorded V :=
  let conditions := reg.activeConditions
  if !o.healthy then
    match conditions.get? o.key with
    | none =>
      ({ reg with activeConditions := conditions.set o.key (detectedCondition o) },
        ⟨true, some (detectedCondition o), none⟩)
    | some existing =>
      ({ reg with activeConditions := conditions.set o.key (relapsedCondition existing o) },
        ⟨false, none, none⟩)
  else
    match conditions.get? o.key with
    | some existing =>
      -- the record is overwritten before the policy looks at it
      let updated := improvedCondition existing o
      if reg.recoveryConfig.canResolve updated o.observedAt then
        ({ reg with activeConditions := conditions.erase o.key }, ⟨true, none, some updated⟩)
      else
        ({ reg with activeConditions := conditions.set o.key updated }, ⟨false, none, none⟩)
    -- a healthy report of a pair that is not active leaves no trace
    | none => (reg, ⟨false, none, none⟩)

/-- `ConditionRegistry.resolve_manually`. -/
def resolveManually (reg : ConditionRegistry V) (condition : TradingHealthCondition)
    (scope : HealthScope) : ConditionRegistry V × Option (ActiveCondition V) :=
  match reg.activeConditions.get? (makeKey condition scope) with
  | some existing =>
    ({ reg with activeConditions := reg.activeConditions.erase (makeKey condition scope) },
      some existing)
  | none => (reg, none)

/-! ## §6 What one observation does -/

/-- Only the registry part of `recordObservation`. -/
def observe (reg : ConditionRegistry V) (o : HealthObservation V) : ConditionRegistry V :=
  (reg.recordObservation o).1

/-- The record of the observed key afterwards, as a function of the record before. -/
def nextRecord (config : RecoveryConfig) (record : Option (ActiveCondition V))
    (o : HealthObservation V) : Option (ActiveCondition V) :=
  match record with
  | none => if !o.healthy then some (detectedCondition o) else none
  | some existing =>
    if !o.healthy then some (relapsedCondition existing o)
    else if config.canResolve (improvedCondition existing o) o.observedAt then none
    else some (improvedCondition existing o)

/-- An observation writes or deletes the record of its own key, and does nothing else. -/
theorem observe_eq (reg : ConditionRegistry V) (o : HealthObservation V) :
    reg.observe o =
      { reg with
        activeConditions :=
          match nextRecord reg.recoveryConfig (reg.activeConditions.get? o.key) o with
          | some c => reg.activeConditions.set o.key c
          | none => reg.activeConditions.erase o.key } := by
  cases hrec : reg.activeConditions.get? o.key with
  | none =>
    cases hh : o.healthy with
    | false => simp [observe, recordObservation, nextRecord, hrec, hh]
    | true =>
      -- nothing is active under the key, so deleting it is the identity
      simp [observe, recordObservation, nextRecord, hrec, hh, Dict.erase_of_get?_none _ hrec]
  | some existing =>
    cases hh : o.healthy with
    | false => simp [observe, recordObservation, nextRecord, hrec, hh]
    | true =>
      cases hres : reg.recoveryConfig.canResolve (improvedCondition existing o) o.observedAt <;>
        simp [observe, recordObservation, nextRecord, hrec, hh, hres]

@[simp] theorem observe_recoveryConfig (reg : ConditionRegistry V) (o : HealthObservation V) :
    (reg.observe o).recoveryConfig = reg.recoveryConfig := by
  rw [observe_eq]

/-- An observation touches no other key. -/
theorem observe_get?_of_ne (reg : ConditionRegistry V) (o : HealthObservation V)
    {k : ConditionKey} (h : k ≠ o.key) :
    (reg.observe o).activeConditions.get? k = reg.activeConditions.get? k := by
  rw [observe_eq]
  split
  · exact Dict.get?_set_of_ne _ _ h
  · exact Dict.get?_erase_of_ne _ h

theorem observe_get?_key (reg : ConditionRegistry V) (o : HealthObservation V) :
    (reg.observe o).activeConditions.get? o.key =
      nextRecord reg.recoveryConfig (reg.activeConditions.get? o.key) o := by
  rw [observe_eq]
  cases nextRecord reg.recoveryConfig (reg.activeConditions.get? o.key) o <;> simp

/-- Registry records sit under the key of their own condition and scope. -/
def KeysMatch (reg : ConditionRegistry V) : Prop :=
  ∀ k c, reg.activeConditions.get? k = some c → makeKey c.condition c.scope = k

theorem keysMatch_new (config : RecoveryConfig) : (new config : ConditionRegistry V).KeysMatch := by
  intro k c h
  simp [new] at h

theorem KeysMatch.observe {reg : ConditionRegistry V} (hreg : reg.KeysMatch)
    (o : HealthObservation V) : (reg.observe o).KeysMatch := by
  intro k c hc
  by_cases hk : k = o.key
  · subst hk
    rw [observe_get?_key] at hc
    unfold nextRecord at hc
    split at hc
    · split at hc
      · obtain rfl := Option.some.inj hc
        rfl
      · cases hc
    -- a record that is rewritten keeps its condition and scope
    · rename_i existing hrec
      have hkey := hreg _ _ hrec
      split at hc
      · obtain rfl := Option.some.inj hc
        exact hkey
      · split at hc
        · cases hc
        · obtain rfl := Option.some.inj hc
          exact hkey
  · rw [observe_get?_of_ne reg o hk] at hc
    exact hreg k c hc

theorem KeysMatch.resolveManually {reg : ConditionRegistry V} (hreg : reg.KeysMatch)
    (condition : TradingHealthCondition) (scope : HealthScope) :
    (reg.resolveManually condition scope).1.KeysMatch := by
  intro k c hc
  unfold ConditionRegistry.resolveManually at hc
  split at hc
  · rw [Dict.get?_erase] at hc
    split at hc
    · cases hc
    · exact hreg k c hc
  · exact hreg k c hc

end ConditionRegistry

end CryptoTrading.Health
