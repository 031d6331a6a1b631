import Mathlib.Data.Finset.Basic
import CryptoTrading.Health.ConditionRegistry

/-!
# Trading health: policies, state machine and monitor

Embeds `src/trading/health/permission_policy.py`, `transition_policy.py`,
`state_machine.py` and `health_monitor.py`.

The monitor forwards every report to the condition registry and then lets the state
machine recompute its state and its cached snapshot.  Permissions of a scope are
evaluated from that snapshot, never from the registry.

Published events are kept in order in `HealthMonitor.published`.  Left out: the lock
(each method body is one step), log lines and `updated_at`.
-/

namespace CryptoTrading.Health

open CryptoTrading.Lib

variable {V : Type}

/-! ## §1 Permission policy -/

inductive TradingPermission where
  | newOrders | modifyOrders | cancelOrders | reducePositions | closePositions
  deriving DecidableEq, Repr

namespace TradingPermissionPolicy

def allPermissions : Finset TradingPermission :=
  {.newOrders, .modifyOrders, .cancelOrders, .reducePositions, .closePositions}

def safeShutdownPermissions : Finset TradingPermission :=
  {.cancelOrders, .reducePositions, .closePositions}

def recoveryPermissions : Finset TradingPermission :=
  {.cancelOrders, .reducePositions}

/-- One turn of the loop over the matching conditions. -/
def discardFor (permissions : Finset TradingPermission) (c : ActiveCondition V) :
    Finset TradingPermission :=
  match c.condition with
  | .marketDataStale =>
    ((permissions.erase .newOrders).erase .modifyOrders).erase .closePositions
  | .balanceMismatch | .orderReconciliationFailed | .databaseUnavailable | .configInvalid =>
    (permissions.erase .newOrders).erase .modifyOrders
  | .riskLimitBreached => (permissions.erase .newOrders).erase .modifyOrders
  -- does not occur: the exchange is checked before the loop
  | .exchangeUnavailable => permissions

/-- The active conditions that touch the scope. -/
def matchingConditions (activeConditions : List (ActiveCondition V)) (scope : HealthScope)
    (exchangeName quotePortfolioKey : Option String) : List (ActiveCondition V) :=
  activeConditions.filter fun c => c.scope.matchesTarget scope exchangeName quotePortfolioKey

/-- Whether an active condition says that the exchange of the scope is unavailable. -/
def isExchangeDown (activeConditions : List (ActiveCondition V)) (scope : HealthScope)
    (exchangeName quotePortfolioKey : Option String) : Bool :=
  activeConditions.any fun c =>
    c.condition = .exchangeUnavailable &&
      c.scope.matchesTarget scope exchangeName quotePortfolioKey

/-- `TradingPermissionPolicy.evaluate`. -/
def evaluate (state : TradingHealthState) (activeConditions : List (ActiveCondition V))
    (targetScope : Option HealthScope) (exchangeName quotePortfolioKey : Option String) :
    Finset TradingPermission :=
  let evalScope := targetScope.getD HealthScope.globalScope
  let down := isExchangeDown activeConditions evalScope exchangeName quotePortfolioKey
  match state with
  | .starting | .syncing | .ready | .stopped => ∅
  | .stopping => if down then ∅ else safeShutdownPermissions
  | .paused => if down then ∅ else recoveryPermissions
  | .recovering => if down then ∅ else recoveryPermissions
  | .trading | .degraded =>
    let matching := matchingConditions activeConditions evalScope exchangeName quotePortfolioKey
    if matching.isEmpty then allPermissions
    else if down then ∅
    else matching.foldl discardFor allPermissions

end TradingPermissionPolicy

/-! ## §2 Transition policy -/

namespace TradingTransitionPolicy

/-- Some condition is critical or fatal. -/
def hasAnyCritical (activeConditions : List (ActiveCondition V)) : Bool :=
  activeConditions.any fun c => c.severity.isCriticalOrHigher

/-- Some condition of global scope is critical or fatal. -/
def hasCriticalGlobal (activeConditions : List (ActiveCondition V)) : Bool :=
  activeConditions.any fun c => c.severity.isCriticalOrHigher && c.scope.scopeType = .global

/-- `TradingTransitionPolicy._validate_manual_transition`. -/
def validateManualTransition (currentState requestedState : TradingHealthState)
    (activeConditions : List (ActiveCondition V)) : TradingHealthState :=
  match requestedState with
  | .paused => .paused
  | .stopping => .stopping
  | .stopped => .stopped
  | .syncing => if currentState = .starting then .syncing else currentState
  | .ready => if currentState = .starting ∨ currentState = .syncing then .ready else currentState
  | .trading =>
    if hasAnyCritical activeConditions then .paused
    else if activeConditions.length > 0 then .degraded
    else .trading
  | .recovering => .recovering
  | .starting | .degraded => currentState

/-- The automatic part of `TradingTransitionPolicy.evaluate`. -/
def evaluateAutomatic (currentState : TradingHealthState)
    (activeConditions : List (ActiveCondition V)) : TradingHealthState :=
  let criticalGlobal := hasCriticalGlobal activeConditions
  let anyCritical := hasAnyCritical activeConditions
  let hasConditions := decide (activeConditions.length > 0)
  match currentState with
  -- left by manual transitions only
  | .starting | .stopping | .stopped => currentState
  | .trading =>
    if criticalGlobal then .paused
    else if hasConditions then .degraded
    else .trading
  | .degraded =>
    if criticalGlobal then .paused
    else if !hasConditions then .trading
    else .degraded
  | .paused => if !criticalGlobal && !anyCritical then .recovering else .paused
  | .recovering =>
    if criticalGlobal then .paused
    else if !hasConditions then .trading
    else if !anyCritical then .degraded
    else .recovering
  | .ready =>
    if criticalGlobal then .paused
    else if hasConditions then .degraded
    else .ready
  | .syncing => if criticalGlobal then .paused else .syncing

/-- `TradingTransitionPolicy.evaluate`. -/
def evaluate (currentState : TradingHealthState) (activeConditions : List (ActiveCondition V))
    (manualOverride : Option TradingHealthState) : TradingHealthState :=
  match manualOverride with
  | some requested => validateManualTransition currentState requested activeConditions
  | none => evaluateAutomatic currentState activeConditions

end TradingTransitionPolicy

/-! ## §3 State machine -/

structure TradingHealthSnapshot (V : Type) where
  state : TradingHealthState
  activeConditions : List (ActiveCondition V)
  effectivePermissions : Finset TradingPermission
  version : ℕ

structure TradingHealthStateMachine (V : Type) where
  state : TradingHealthState
  version : ℕ
  snapshot : TradingHealthSnapshot V

namespace TradingHealthStateMachine

/-- `TradingHealthStateMachine._build_snapshot`. -/
def buildSnapshot (state : TradingHealthState) (activeConditions : List (ActiveCondition V))
    (version : ℕ) : TradingHealthSnapshot V where
  state := state
  activeConditions := activeConditions
  effectivePermissions :=
    TradingPermissionPolicy.evaluate state activeConditions (some HealthScope.globalScope) none none
  version := version

def new (initialState : TradingHealthState) : TradingHealthStateMachine V where
  state := initialState
  version := 1
  snapshot := buildSnapshot initialState [] 1

/-- `TradingHealthStateMachine.update`: the flag says whether anything changed. -/
def update [DecidableEq V] (sm : TradingHealthStateMachine V)
    (activeConditions : List (ActiveCondition V)) (manualOverride : Option TradingHealthState) :
    TradingHealthStateMachine V × Bool :=
  let nextState := TradingTransitionPolicy.evaluate sm.state activeConditions manualOverride
  let stateChanged := decide (nextState ≠ sm.state)
  let conditionsChanged := decide (activeConditions ≠ sm.snapshot.activeConditions)
  -- otherwise the old snapshot stays, which then shows the same conditions
  if stateChanged || conditionsChanged then
    ({ state := nextState
       version := sm.version + 1
       snapshot := buildSnapshot nextState activeConditions (sm.version + 1) }, true)
  else (sm, false)

/-- `TradingHealthStateMachine.evaluate_scope_permissions`. -/
def evaluateScopePermissions (sm : TradingHealthStateMachine V) (scope : HealthScope)
    (exchangeName quotePortfolioKey : Option String) : Finset TradingPermission :=
  TradingPermissionPolicy.evaluate sm.state sm.snapshot.activeConditions (some scope)
    exchangeName quotePortfolioKey

variable [DecidableEq V]

/-- An update leaves the machine in the state the transition policy chose. -/
@[simp] theorem update_state (sm : TradingHealthStateMachine V)
    (conditions : List (ActiveCondition V)) (manualOverride : Option TradingHealthState) :
    (sm.update conditions manualOverride).1.state =
      TradingTransitionPolicy.evaluate sm.state conditions manualOverride := by
  simp only [update]
  split
  · rfl
  · rename_i h
    simp only [Bool.or_eq_true, decide_eq_true_eq, not_or, not_not] at h
    exact h.1.symm

/-- An update leaves the conditions it was given in the snapshot. -/
@[simp] theorem update_activeConditions (sm : TradingHealthStateMachine V)
    (conditions : List (ActiveCondition V)) (manualOverride : Option TradingHealthState) :
    (sm.update conditions manualOverride).1.snapshot.activeConditions = conditions := by
  simp only [update]
  split
  · rfl
  · rename_i h
    simp only [Bool.or_eq_true, decide_eq_true_eq, not_or, not_not] at h
    exact h.2.symm

end TradingHealthStateMachine

/-! ## §4 Health monitor -/

inductive HealthEvent (V : Type) where
  | conditionDetected (condition : TradingHealthCondition) (scope : HealthScope)
      (severity : Severity) (measuredValue threshold : Option V) (actionTaken : String)
      (timestamp : ℚ)
  | conditionResolved (condition : TradingHealthCondition) (scope : HealthScope)
      (consecutiveHealthyChecks : ℕ) (timestamp : ℚ)
  | stateChanged (previousState currentState : TradingHealthState) (version : ℕ)
      (activeConditionsCount : ℕ) (timestamp : ℚ)
  | permissionsChanged (state : TradingHealthState) (permissions : Finset TradingPermission)
      (version : ℕ) (timestamp : ℚ)

structure HealthMonitor (V : Type) where
  conditionRegistry : ConditionRegistry V
  stateMachine : TradingHealthStateMachine V
  published : List (HealthEvent V)

namespace HealthMonitor

/-- `HealthMonitor.create`. -/
def create (recoveryConfig : RecoveryConfig) (initialState : TradingHealthState) :
    HealthMonitor V where
  conditionRegistry := ConditionRegistry.new recoveryConfig
  stateMachine := TradingHealthStateMachine.new initialState
  published := []

/-- `HealthMonitor._publish_snapshot_changes`. -/
def publishSnapshotChanges (prevSnapshot newSnapshot : TradingHealthSnapshot V) (timestamp : ℚ) :
    List (HealthEvent V) :=
  (if prevSnapshot.state ≠ newSnapshot.state then
    [.stateChanged prevSnapshot.state newSnapshot.state newSnapshot.version
      newSnapshot.activeConditions.length timestamp]
   else []) ++
  if prevSnapshot.effectivePermissions ≠ newSnapshot.effectivePermissions then
    [.permissionsChanged newSnapshot.state newSnapshot.effectivePermissions newSnapshot.version
      timestamp]
  else []

def detectedEvent (c : ActiveCondition V) (timestamp : ℚ) : HealthEvent V :=
  .conditionDetected c.condition c.scope c.severity c.measuredValue c.threshold "RECORD_INCIDENT"
    timestamp

def resolvedEvent (c : ActiveCondition V) (timestamp : ℚ) : HealthEvent V :=
  .conditionResolved c.condition c.scope c.consecutiveHealthyChecks timestamp

variable [DecidableEq V]

/-- The common tail of the three operations: recompute the state machine from the
    registry and publish what changed in the snapshot. -/
def refresh (m : HealthMonitor V) (manualOverride : Option TradingHealthState) (timestamp : ℚ) :
    HealthMonitor V :=
  let prevSnapshot := m.stateMachine.snapshot
  let (stateMachine, hasChanged) :=
    m.stateMachine.update m.conditionRegistry.getActiveConditions manualOverride
  { m with
    stateMachine := stateMachine
    published := m.published ++
      if hasChanged then publishSnapshotChanges prevSnapshot stateMachine.snapshot timestamp
      else [] }

/-- `HealthMonitor.report_observation`. -/
def reportObservation (m : HealthMonitor V) (observation : HealthObservation V) :
    HealthMonitor V :=
  let (registry, recorded) := m.conditionRegistry.recordObservation observation
  let detected := recorded.detected.toList.map (detectedEvent · observation.observedAt)
  let resolved := recorded.resolved.toList.map (resolvedEvent · observation.observedAt)
  refresh { m with
    conditionRegistry := registry
    published := m.published ++ detected ++ resolved } none observation.observedAt

/-- `HealthMonitor.set_state`. -/
def setState (m : HealthMonitor V) (targetState : TradingHealthState) (now : ℚ) :
    HealthMonitor V :=
  m.refresh (some targetState) now

/-- `HealthMonitor.resolve_condition`. -/
def resolveCondition (m : HealthMonitor V) (condition : TradingHealthCondition)
    (scope : HealthScope) (now : ℚ) : HealthMonitor V :=
  let (registry, resolved) := m.conditionRegistry.resolveManually condition scope
  refresh { m with
    conditionRegistry := registry
    published := m.published ++ resolved.toList.map (resolvedEvent · now) } none now

/-- `HealthMonitor.has_permission`. -/
def hasPermission (m : HealthMonitor V) (scope : HealthScope) (permission : TradingPermission)
    (exchangeName quotePortfolioKey : Option String) : Bool :=
  permission ∈ m.stateMachine.evaluateScopePermissions scope exchangeName quotePortfolioKey

/-! ## §5 What the operations do to registry, state and snapshot -/

@[simp] theorem refresh_conditionRegistry (m : HealthMonitor V)
    (manualOverride : Option TradingHealthState) (timestamp : ℚ) :
    (m.refresh manualOverride timestamp).conditionRegistry = m.conditionRegistry := rfl

@[simp] theorem refresh_state (m : HealthMonitor V) (manualOverride : Option TradingHealthState)
    (timestamp : ℚ) :
    (m.refresh manualOverride timestamp).stateMachine.state =
      TradingTransitionPolicy.evaluate m.stateMachine.state
        m.conditionRegistry.getActiveConditions manualOverride :=
  TradingHealthStateMachine.update_state _ _ _

@[simp] theorem refresh_activeConditions (m : HealthMonitor V)
    (manualOverride : Option TradingHealthState) (timestamp : ℚ) :
    (m.refresh manualOverride timestamp).stateMachine.snapshot.activeConditions =
      m.conditionRegistry.getActiveConditions :=
  TradingHealthStateMachine.update_activeConditions _ _ _

@[simp] theorem reportObservation_conditionRegistry (m : HealthMonitor V)
    (o : HealthObservation V) :
    (m.reportObservation o).conditionRegistry = m.conditionRegistry.observe o := rfl

@[simp] theorem reportObservation_state (m : HealthMonitor V) (o : HealthObservation V) :
    (m.reportObservation o).stateMachine.state =
      TradingTransitionPolicy.evaluateAutomatic m.stateMachine.state
        (m.conditionRegistry.observe o).getActiveConditions :=
  refresh_state _ none _

/-- The cached snapshot holds the conditions of the registry. -/
def InSync (m : HealthMonitor V) : Prop :=
  m.stateMachine.snapshot.activeConditions = m.conditionRegistry.getActiveConditions

theorem refresh_inSync (m : HealthMonitor V) (manualOverride : Option TradingHealthState)
    (timestamp : ℚ) : (m.refresh manualOverride timestamp).InSync := by
  unfold InSync
  rw [refresh_activeConditions, refresh_conditionRegistry]

theorem reportObservation_inSync (m : HealthMonitor V) (o : HealthObservation V) :
    (m.reportObservation o).InSync :=
  refresh_inSync _ _ _

/-! ## §6 Runs -/

inductive Action (V : Type) where
  | report (observation : HealthObservation V)
  | setState (targetState : TradingHealthState) (now : ℚ)
  | resolve (condition : TradingHealthCondition) (scope : HealthScope) (now : ℚ)

def step (m : HealthMonitor V) : Action V → HealthMonitor V
  | .report observation => m.reportObservation observation
  | .setState targetState now => m.setState targetState now
  | .resolve condition scope now => m.resolveCondition condition scope now

/-- The monitor after a sequence of calls. -/
def after (recoveryConfig : RecoveryConfig) (initialState : TradingHealthState)
    (actions : List (Action V)) : HealthMonitor V :=
  run step (create recoveryConfig initialState) actions

/-- Every operation ends with the recomputation, so the snapshot never lags behind. -/
theorem step_inSync (m : HealthMonitor V) (a : Action V) : (m.step a).InSync := by
  cases a with
  | report observation => exact reportObservation_inSync m observation
  | setState targetState now => exact refresh_inSync _ _ _
  | resolve condition scope now => exact refresh_inSync _ _ _

theorem after_inSync (recoveryConfig : RecoveryConfig) (initialState : TradingHealthState)
    (actions : List (Action V)) : (after recoveryConfig initialState actions).InSync :=
  run_invariant (InSync (V := V)) (fun m a _ => step_inSync m a) (by rfl) actions

theorem step_keysMatch (m : HealthMonitor V) (a : Action V)
    (h : m.conditionRegistry.KeysMatch) : (m.step a).conditionRegistry.KeysMatch := by
  cases a with
  | report observation => exact h.observe observation
  | setState targetState now => exact h
  | resolve condition scope now => exact h.resolveManually condition scope

theorem after_keysMatch (recoveryConfig : RecoveryConfig) (initialState : TradingHealthState)
    (actions : List (Action V)) :
    (after recoveryConfig initialState actions).conditionRegistry.KeysMatch :=
  run_invariant (fun m : HealthMonitor V => m.conditionRegistry.KeysMatch) step_keysMatch
    (ConditionRegistry.keysMatch_new recoveryConfig) actions

end HealthMonitor

end CryptoTrading.Health
