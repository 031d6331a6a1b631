import CryptoTrading.Health.Monitor

/-!
# Trading health: permissions over whole runs

What the permission policy grants is restated as "granted by the state and not blocked
by a matching condition" (`mem_evaluate_iff`).  From this and the invariants of the
monitor (snapshot in sync with the registry, records filed under their own key):

- `NEW_ORDERS` is granted exactly to the scopes without a matching condition while the
  monitor is trading or degraded;
- an unhealthy report keeps every earlier condition (`Covers`), so permissions only
  shrink, as long as the transition table does not move to a state that grants more.
-/

namespace CryptoTrading.Health

open CryptoTrading.Lib

variable {V : Type}

/-! ## §1 The permission policy, restated -/

namespace TradingPermissionPolicy

/-- What a state grants to a scope that no condition touches. -/
def granted : TradingHealthState → Finset TradingPermission
  | .starting | .syncing | .ready | .stopped => ∅
  | .stopping => safeShutdownPermissions
  | .paused | .recovering => recoveryPermissions
  | .trading | .degraded => allPermissions

/-- Whether a matching condition takes the permission away while trading. -/
def discards : TradingHealthCondition → TradingPermission → Bool
  | .exchangeUnavailable, _ => true
  | _, .newOrders | _, .modifyOrders => true
  | .marketDataStale, .closePositions => true
  | _, _ => false

/-- Whether a matching condition takes the permission away in the given state. -/
def blocks (state : TradingHealthState) (condition : TradingHealthCondition)
    (p : TradingPermission) : Bool :=
  match state with
  | .trading | .degraded => discards condition p
  | _ => condition = .exchangeUnavailable

theorem mem_discardFor (permissions : Finset TradingPermission) (c : ActiveCondition V)
    (hup : c.condition ≠ .exchangeUnavailable) (p : TradingPermission) :
    p ∈ discardFor permissions c ↔ p ∈ permissions ∧ discards c.condition p = false := by
  unfold discardFor
  cases hc : c.condition <;> cases p <;> simp_all [discards]

/-- The loop removes what some condition discards, in whatever order. -/
theorem mem_foldl_discardFor (conditions : List (ActiveCondition V))
    (hup : ∀ c ∈ conditions, c.condition ≠ .exchangeUnavailable)
    (permissions : Finset TradingPermission) (p : TradingPermission) :
    p ∈ conditions.foldl discardFor permissions ↔
      p ∈ permissions ∧ ∀ c ∈ conditions, discards c.condition p = false := by
  induction conditions generalizing permissions with
  | nil => simp
  | cons c rest ih =>
    rw [List.foldl_cons, ih (fun c' hc' => hup c' (List.mem_cons_of_mem c hc')),
      mem_discardFor permissions c (hup c List.mem_cons_self)]
    simp only [List.forall_mem_cons, and_assoc]

theorem isExchangeDown_iff (conditions : List (ActiveCondition V)) (scope : HealthScope)
    (ex qp : Option String) :
    isExchangeDown conditions scope ex qp = true ↔
      ∃ c ∈ conditions, c.condition = .exchangeUnavailable ∧
        c.scope.matchesTarget scope ex qp = true := by
  simp [isExchangeDown, List.any_eq_true]

theorem mem_matchingConditions (conditions : List (ActiveCondition V)) (scope : HealthScope)
    (ex qp : Option String) (c : ActiveCondition V) :
    c ∈ matchingConditions conditions scope ex qp ↔
      c ∈ conditions ∧ c.scope.matchesTarget scope ex qp = true := by
  simp [matchingConditions]

theorem mem_allPermissions (p : TradingPermission) : p ∈ allPermissions := by
  cases p <;> decide

/-- The branches that look only at the exchange. -/
theorem mem_unless_down (conditions : List (ActiveCondition V)) (scope : HealthScope)
    (ex qp : Option String) (permissions : Finset TradingPermission) (p : TradingPermission) :
    p ∈ (if isExchangeDown conditions scope ex qp then ∅ else permissions) ↔
      p ∈ permissions ∧ ∀ c ∈ conditions, c.scope.matchesTarget scope ex qp = true →
        c.condition ≠ .exchangeUnavailable := by
  cases hdown : isExchangeDown conditions scope ex qp with
  | true =>
    obtain ⟨c, hc, hcond, hmatch⟩ := (isExchangeDown_iff conditions scope ex qp).mp hdown
    simp only [↓reduceIte, Finset.notMem_empty, false_iff, not_and]
    intro _ hall
    exact hall c hc hmatch hcond
  | false =>
    simp only [Bool.false_eq_true, ↓reduceIte, iff_self_and]
    intro _ c hc hmatch hcond
    have hdown' := (isExchangeDown_iff conditions scope ex qp).mpr ⟨c, hc, hcond, hmatch⟩
    rw [hdown] at hdown'
    cases hdown'

/-- The branch of the trading states. -/
theorem mem_evaluate_trading (conditions : List (ActiveCondition V)) (scope : HealthScope)
    (ex qp : Option String) (p : TradingPermission) :
    p ∈ (if (matchingConditions conditions scope ex qp).isEmpty then allPermissions
        else if isExchangeDown conditions scope ex qp then ∅
        else (matchingConditions conditions scope ex qp).foldl discardFor allPermissions) ↔
      ∀ c ∈ conditions, c.scope.matchesTarget scope ex qp = true →
        discards c.condition p = false := by
  by_cases hnone : (matchingConditions conditions scope ex qp).isEmpty = true
  · rw [if_pos hnone]
    simp only [mem_allPermissions, true_iff]
    intro c hc hmatch
    have hmem := (mem_matchingConditions conditions scope ex qp c).mpr ⟨hc, hmatch⟩
    rw [List.isEmpty_iff.mp hnone] at hmem
    cases hmem
  · rw [if_neg hnone]
    cases hdown : isExchangeDown conditions scope ex qp with
    | true =>
      obtain ⟨c, hc, hcond, hmatch⟩ := (isExchangeDown_iff conditions scope ex qp).mp hdown
      simp only [↓reduceIte, Finset.notMem_empty, false_iff]
      intro hall
      -- an unavailable exchange discards every permission
      have := hall c hc hmatch
      simp [hcond, discards] at this
    | false =>
      have hup : ∀ c ∈ matchingConditions conditions scope ex qp,
          c.condition ≠ .exchangeUnavailable := by
        intro c hc hcond
        obtain ⟨hc, hmatch⟩ := (mem_matchingConditions conditions scope ex qp c).mp hc
        have hdown' := (isExchangeDown_iff conditions scope ex qp).mpr ⟨c, hc, hcond, hmatch⟩
        rw [hdown] at hdown'
        cases hdown'
      simp only [Bool.false_eq_true, ↓reduceIte]
      rw [mem_foldl_discardFor _ hup]
      simp only [mem_allPermissions, true_and, mem_matchingConditions, and_imp]

/-- A permission is granted when the state grants it and no matching condition blocks it. -/
theorem mem_evaluate_iff (state : TradingHealthState) (conditions : List (ActiveCondition V))
    (scope : HealthScope) (ex qp : Option String) (p : TradingPermission) :
    p ∈ evaluate state conditions (some scope) ex qp ↔
      p ∈ granted state ∧ ∀ c ∈ conditions, c.scope.matchesTarget scope ex qp = true →
        blocks state c.condition p = false := by
  cases state with
  | starting => simp [evaluate, granted]
  | syncing => simp [evaluate, granted]
  | ready => simp [evaluate, granted]
  | stopped => simp [evaluate, granted]
  | stopping => simpa [evaluate, granted, blocks] using mem_unless_down conditions scope ex qp _ p
  | paused => simpa [evaluate, granted, blocks] using mem_unless_down conditions scope ex qp _ p
  | recovering => simpa [evaluate, granted, blocks] using mem_unless_down conditions scope ex qp _ p
  | trading =>
    simpa [evaluate, granted, blocks, mem_allPermissions] using
      mem_evaluate_trading conditions scope ex qp p
  | degraded =>
    simpa [evaluate, granted, blocks, mem_allPermissions] using
      mem_evaluate_trading conditions scope ex qp p

end TradingPermissionPolicy

/-! ## §2 New orders -/

namespace HealthMonitor

open TradingPermissionPolicy

theorem mem_evaluateScopePermissions_iff {m : HealthMonitor V} (hsync : m.InSync)
    (scope : HealthScope) (ex qp : Option String) (p : TradingPermission) :
    p ∈ m.stateMachine.evaluateScopePermissions scope ex qp ↔
      p ∈ granted m.stateMachine.state ∧
        ∀ c ∈ m.conditionRegistry.getActiveConditions,
          c.scope.matchesTarget scope ex qp = true →
            blocks m.stateMachine.state c.condition p = false := by
  unfold TradingHealthStateMachine.evaluateScopePermissions
  rw [hsync, mem_evaluate_iff]

/-- Every condition blocks new orders in the states that grant them. -/
theorem newOrders_granted_iff (m : HealthMonitor V) (hsync : m.InSync) (scope : HealthScope)
    (ex qp : Option String) :
    m.hasPermission scope .newOrders ex qp = true ↔
      (m.stateMachine.state = .trading ∨ m.stateMachine.state = .degraded) ∧
        ∀ c ∈ m.conditionRegistry.getActiveConditions,
          c.scope.matchesTarget scope ex qp = false := by
  have hdiscards : ∀ c : TradingHealthCondition, discards c .newOrders = true := by
    intro c
    cases c <;> rfl
  unfold hasPermission
  rw [decide_eq_true_iff, mem_evaluateScopePermissions_iff hsync]
  cases m.stateMachine.state <;>
    simp [granted, blocks, hdiscards, mem_allPermissions, safeShutdownPermissions,
      recoveryPermissions]

/-- **New orders need a healthy scope.**  After any sequence of calls, a scope may place
    new orders exactly when the monitor is trading or degraded and no active condition
    matches the scope; a critical condition of global scope forbids them everywhere. -/
theorem hasPermission_newOrders_iff [DecidableEq V] (recoveryConfig : RecoveryConfig)
    (initialState : TradingHealthState) (actions : List (Action V)) (scope : HealthScope)
    (exchangeName quotePortfolioKey : Option String) :
    let m := after recoveryConfig initialState actions
    (m.hasPermission scope .newOrders exchangeName quotePortfolioKey = true ↔
      (m.stateMachine.state = .trading ∨ m.stateMachine.state = .degraded) ∧
        ¬ ∃ c ∈ m.conditionRegistry.getActiveConditions,
          c.scope.matchesTarget scope exchangeName quotePortfolioKey = true) ∧
    ((∃ c ∈ m.conditionRegistry.getActiveConditions,
        c.scope.scopeType = .global ∧ c.severity.isCriticalOrHigher = true) →
      m.hasPermission scope .newOrders exchangeName quotePortfolioKey = false) := by
  intro m
  have hiff := newOrders_granted_iff m (after_inSync recoveryConfig initialState actions)
    scope exchangeName quotePortfolioKey
  refine ⟨?_, ?_⟩
  · rw [hiff]
    simp only [not_exists, not_and, Bool.not_eq_true]
  · rintro ⟨c, hc, hglobal, -⟩
    rw [← Bool.not_eq_true, hiff]
    rintro ⟨-, hnone⟩
    have hmatch := HealthScope.matchesTarget_of_global hglobal scope exchangeName quotePortfolioKey
    rw [hnone c hc] at hmatch
    cases hmatch

/-! ## §3 Unhealthy reports -/

/-- The later conditions repeat every earlier one, up to severity and measurements. -/
def Covers (earlier later : List (ActiveCondition V)) : Prop :=
  ∀ c ∈ earlier, ∃ c' ∈ later, c'.condition = c.condition ∧ c'.scope = c.scope

/-- An unhealthy report leaves a record under its key. -/
theorem observe_unhealthy_isSome (reg : ConditionRegistry V) {o : HealthObservation V}
    (ho : o.healthy = false) : ((reg.observe o).activeConditions.get? o.key).isSome := by
  rw [ConditionRegistry.observe_get?_key]
  cases reg.activeConditions.get? o.key <;> simp [ConditionRegistry.nextRecord, ho]

/-- An unhealthy report forgets no condition. -/
theorem covers_observe_unhealthy {reg : ConditionRegistry V} (hreg : reg.KeysMatch)
    {o : HealthObservation V} (ho : o.healthy = false) :
    Covers reg.getActiveConditions (reg.observe o).getActiveConditions := by
  intro c hc
  obtain ⟨k, hk⟩ := (Dict.mem_values_iff _ _).mp hc
  have hkey := hreg k c hk
  by_cases hself : k = o.key
  -- the reported pair itself: its record is rewritten, not dropped
  · obtain ⟨c', hc'⟩ := Option.isSome_iff_exists.mp (observe_unhealthy_isSome reg ho)
    have hkey' := hreg.observe o o.key c' hc'
    obtain ⟨hcond, hscope⟩ := makeKey_inj (hkey'.trans (hself.symm.trans hkey.symm))
    exact ⟨c', (Dict.mem_values_iff _ _).mpr ⟨o.key, hc'⟩, hcond, hscope⟩
  · rw [← ConditionRegistry.observe_get?_of_ne reg o hself] at hk
    exact ⟨c, (Dict.mem_values_iff _ _).mpr ⟨k, hk⟩, rfl, rfl⟩

theorem observe_unhealthy_nonempty (reg : ConditionRegistry V) {o : HealthObservation V}
    (ho : o.healthy = false) : 0 < (reg.observe o).getActiveConditions.length := by
  obtain ⟨c, hc⟩ := Option.isSome_iff_exists.mp (observe_unhealthy_isSome reg ho)
  exact List.length_pos_of_mem ((Dict.mem_values_iff _ _).mpr ⟨o.key, hc⟩)

/-- The transitions of an unhealthy report that lead to a state with more permissions. -/
def WideningTransition (before later : TradingHealthState) : Prop :=
  (before = .ready ∧ later ≠ .ready) ∨ (before = .syncing ∧ later = .paused) ∨
    (before = .recovering ∧ later = .degraded)

instance (before later : TradingHealthState) : Decidable (WideningTransition before later) :=
  inferInstanceAs (Decidable (_ ∨ _))

/-- Some condition of the given kind matches the target. -/
def ConditionMatches (m : HealthMonitor V) (condition : TradingHealthCondition)
    (scope : HealthScope) (ex qp : Option String) : Prop :=
  ∃ c ∈ m.conditionRegistry.getActiveConditions,
    c.condition = condition ∧ c.scope.matchesTarget scope ex qp = true

/-- Away from the widening transitions, the table moves to a state that grants no more
    and blocks no less. -/
theorem evaluateAutomatic_narrows (state : TradingHealthState)
    (conditions : List (ActiveCondition V)) (hne : 0 < conditions.length)
    (hnw : ¬ WideningTransition state
      (TradingTransitionPolicy.evaluateAutomatic state conditions)) :
    granted (TradingTransitionPolicy.evaluateAutomatic state conditions) ⊆ granted state ∧
      ∀ condition p,
        p ∈ granted (TradingTransitionPolicy.evaluateAutomatic state conditions) →
        blocks state condition p = true →
        blocks (TradingTransitionPolicy.evaluateAutomatic state conditions) condition p = true := by
  -- the transitions that are left, with a condition active
  have htable : ∀ later, ¬ WideningTransition state later →
      (later = TradingTransitionPolicy.evaluateAutomatic state conditions) →
      later = state ∨ (state = .trading ∧ later = .degraded) ∨
        (state = .trading ∧ later = .paused) ∨ (state = .degraded ∧ later = .paused) ∨
        (state = .paused ∧ later = .recovering) ∨ (state = .recovering ∧ later = .paused) := by
    intro later hnw hlater
    have hne' : conditions.length ≠ 0 := Nat.pos_iff_ne_zero.mp hne
    cases state <;>
      simp only [TradingTransitionPolicy.evaluateAutomatic, hne, decide_true, Bool.not_true,
        Bool.false_eq_true, ↓reduceIte] at hlater <;>
      (try split at hlater) <;> (try split at hlater) <;>
      simp_all [WideningTransition]
  rcases htable _ hnw rfl with h | ⟨hs, h⟩ | ⟨hs, h⟩ | ⟨hs, h⟩ | ⟨hs, h⟩ | ⟨hs, h⟩
  · rw [h]
    exact ⟨Finset.Subset.refl _, fun _ _ _ hb => hb⟩
  all_goals
    rw [h, hs]
    refine ⟨by decide, ?_⟩
    intro condition p
    cases condition <;> cases p <;> decide

/-- A report outside the widening transitions shrinks the permissions of every target. -/
theorem subset_of_not_widening [DecidableEq V] {m : HealthMonitor V} (hsync : m.InSync)
    (hkeys : m.conditionRegistry.KeysMatch) {o : HealthObservation V} (ho : o.healthy = false)
    (hnw : ¬ WideningTransition m.stateMachine.state (m.reportObservation o).stateMachine.state)
    (scope : HealthScope) (ex qp : Option String) :
    (m.reportObservation o).stateMachine.evaluateScopePermissions scope ex qp ⊆
      m.stateMachine.evaluateScopePermissions scope ex qp := by
  rw [reportObservation_state] at hnw
  obtain ⟨hgranted, hblocks⟩ := evaluateAutomatic_narrows m.stateMachine.state _
    (observe_unhealthy_nonempty m.conditionRegistry ho) hnw
  intro p hp
  rw [mem_evaluateScopePermissions_iff (reportObservation_inSync m o), reportObservation_state,
    reportObservation_conditionRegistry] at hp
  rw [mem_evaluateScopePermissions_iff hsync]
  obtain ⟨hp, hfree⟩ := hp
  refine ⟨hgranted hp, ?_⟩
  intro c hc hmatch
  -- the old condition is still there, so it would block the permission afterwards too
  obtain ⟨c', hc', hcond, hscope⟩ := covers_observe_unhealthy hkeys ho c hc
  have hfree' := hfree c' hc' (by rw [hscope]; exact hmatch)
  rw [hcond] at hfree'
  rw [← Bool.not_eq_true]
  intro hblocked
  rw [hblocks c.condition p hp hblocked] at hfree'
  cases hfree'

/-- Nothing is granted to a target whose exchange is unavailable. -/
theorem permissions_eq_empty_of_down {m : HealthMonitor V} (hsync : m.InSync)
    {scope : HealthScope} {ex qp : Option String}
    (hdown : m.ConditionMatches .exchangeUnavailable scope ex qp) :
    m.stateMachine.evaluateScopePermissions scope ex qp = ∅ := by
  obtain ⟨c, hc, hcond, hmatch⟩ := hdown
  rw [Finset.eq_empty_iff_forall_notMem]
  intro p hp
  rw [mem_evaluateScopePermissions_iff hsync] at hp
  have hfree := hp.2 c hc hmatch
  rw [hcond] at hfree
  revert hfree
  cases m.stateMachine.state <;> simp [blocks, discards]

/-- Stale market data leaves a degraded target what recovery grants. -/
theorem degraded_subset_of_stale {m m' : HealthMonitor V} (hsync : m.InSync) (hsync' : m'.InSync)
    (hcovers : Covers m.conditionRegistry.getActiveConditions
      m'.conditionRegistry.getActiveConditions)
    (hrec : m.stateMachine.state = .recovering) (hdeg : m'.stateMachine.state = .degraded)
    {scope : HealthScope} {ex qp : Option String}
    (hstale : m'.ConditionMatches .marketDataStale scope ex qp) :
    m'.stateMachine.evaluateScopePermissions scope ex qp ⊆
      m.stateMachine.evaluateScopePermissions scope ex qp := by
  intro p hp
  rw [mem_evaluateScopePermissions_iff hsync', hdeg] at hp
  rw [mem_evaluateScopePermissions_iff hsync, hrec]
  obtain ⟨-, hfree⟩ := hp
  obtain ⟨s, hs, hcond, hmatch⟩ := hstale
  have hkept : discards .marketDataStale p = false := hcond ▸ hfree s hs hmatch
  refine ⟨by revert hkept; cases p <;> decide, ?_⟩
  intro c hc hmatch'
  obtain ⟨c', hc', hcond', hscope⟩ := hcovers c hc
  have hfree' := hfree c' hc' (by rw [hscope]; exact hmatch')
  rw [hcond'] at hfree'
  cases hc : c.condition <;> simp_all [blocks, discards]

/-- **Unhealthy reports do not widen permissions**, in any reachable monitor and for any
    target, unless the report makes one of the `WideningTransition`s; and even then not
    for a target whose exchange is unavailable after the report, nor, on the way from
    recovering to degraded, for a target with stale market data. -/
theorem unhealthyReport_permissions_subset [DecidableEq V] (recoveryConfig : RecoveryConfig)
    (initialState : TradingHealthState) (actions : List (Action V)) (o : HealthObservation V)
    (ho : o.healthy = false) (scope : HealthScope) (exchangeName quotePortfolioKey : Option String)
    (h : ¬ WideningTransition (after recoveryConfig initialState actions).stateMachine.state
          ((after recoveryConfig initialState actions).reportObservation o).stateMachine.state ∨
        ((after recoveryConfig initialState actions).reportObservation o).ConditionMatches
          .exchangeUnavailable scope exchangeName quotePortfolioKey ∨
        ((after recoveryConfig initialState actions).stateMachine.state = .recovering ∧
          ((after recoveryConfig initialState actions).reportObservation o).ConditionMatches
            .marketDataStale scope exchangeName quotePortfolioKey)) :
    ((after recoveryConfig initialState actions).reportObservation
        o).stateMachine.evaluateScopePermissions scope exchangeName quotePortfolioKey ⊆
      (after recoveryConfig initialState actions).stateMachine.evaluateScopePermissions
        scope exchangeName quotePortfolioKey := by
  have hsync := after_inSync recoveryConfig initialState actions
  have hkeys := after_keysMatch recoveryConfig initialState actions
  generalize after recoveryConfig initialState actions = m at *
  by_cases hnw : WideningTransition m.stateMachine.state
      (m.reportObservation o).stateMachine.state
  -- a widening transition: only the two kinds of targets are left
  · rcases h with hnot | hdown | ⟨hrec, hstale⟩
    · exact absurd hnw hnot
    · rw [permissions_eq_empty_of_down (reportObservation_inSync m o) hdown]
      exact Finset.empty_subset _
    · have hdeg : (m.reportObservation o).stateMachine.state = .degraded := by
        rcases hnw with ⟨h, -⟩ | ⟨h, -⟩ | ⟨-, h⟩
        · rw [hrec] at h
          cases h
        · rw [hrec] at h
          cases h
        · exact h
      exact degraded_subset_of_stale hsync (reportObservation_inSync m o)
        (covers_observe_unhealthy hkeys ho) hrec hdeg hstale
  · exact subset_of_not_widening hsync hkeys ho hnw scope exchangeName quotePortfolioKey

/-- An unhealthy report with the fields that matter here. -/
def unhealthyReport (condition : TradingHealthCondition) (scope : HealthScope)
    (severity : Severity) : HealthObservation Unit where
  source := "test"
  condition := condition
  scope := scope
  healthy := false
  observedAt := 0
  severity := severity
  measuredValue := none
  threshold := none
  metadata := ()

/-- A trading monitor that learns of stale data only takes permissions away. -/
theorem unhealthyReport_permissions_subset_trading :
    ((after RecoveryConfig.default .trading []).reportObservation
        (unhealthyReport .marketDataStale (HealthScope.assetScope "BTC_USD")
          .critical)).stateMachine.evaluateScopePermissions
        (HealthScope.assetScope "BTC_USD") none none ⊆
      (after RecoveryConfig.default .trading
        ([] : List (Action Unit))).stateMachine.evaluateScopePermissions
        (HealthScope.assetScope "BTC_USD") none none :=
  unhealthyReport_permissions_subset RecoveryConfig.default .trading [] _ rfl _ none none
    (.inl (by decide))

/-- The permissions of `target` before and after `o`, for a fresh monitor in `state` that
    has seen `earlier`. -/
def permissionsAround (state : TradingHealthState) (earlier : List (HealthObservation Unit))
    (o : HealthObservation Unit) (target : HealthScope) :
    Finset TradingPermission × Finset TradingPermission :=
  let m := after RecoveryConfig.default state (earlier.map Action.report)
  (m.stateMachine.evaluateScopePermissions target none none,
    (m.reportObservation o).stateMachine.evaluateScopePermissions target none none)

/-- Unhealthy reports can widen permissions: a synchronising monitor that pauses starts to
    grant the recovery permissions, a recovering one that degrades grants everything to an
    untouched asset, and so does a ready one. -/
theorem unhealthyReport_can_widen :
    permissionsAround .syncing []
        (unhealthyReport .databaseUnavailable HealthScope.globalScope .critical)
        (HealthScope.assetScope "ETH_USD") =
      (∅, TradingPermissionPolicy.recoveryPermissions) ∧
    permissionsAround .paused
        [unhealthyReport .marketDataStale (HealthScope.assetScope "BTC_USD") .warning]
        (unhealthyReport .marketDataStale (HealthScope.assetScope "BTC_USD") .warning)
        (HealthScope.assetScope "ETH_USD") =
      (TradingPermissionPolicy.recoveryPermissions, TradingPermissionPolicy.allPermissions) ∧
    permissionsAround .ready []
        (unhealthyReport .marketDataStale (HealthScope.assetScope "BTC_USD") .warning)
        (HealthScope.assetScope "ETH_USD") =
      (∅, TradingPermissionPolicy.allPermissions) := by
  decide

end HealthMonitor

end CryptoTrading.Health
