import Mathlib.Algebra.Order.Ring.Rat
import Mathlib.Data.List.Induction
import Mathlib.Tactic.Linarith
import CryptoTrading.Health.ConditionRegistry

/-!
# Trading health: automatic recovery against the observation history

`ConditionRegistry.record_observation` decides from the stored record alone.  This
module relates that record to the whole sequence of observations and derives when
an automatic removal obeys the configured hysteresis:

- `recordAfter_history`: the stored counter is the number of healthy observations
  of the key since its last unhealthy one, the stored severity is that of the
  unhealthy one;
- `canResolve_improvedCondition`: the time the policy measures is always zero, since
  `last_observed_at` has just been overwritten, so `stable_period_seconds` plays no
  part;
- `recordAfter_ofKey`: a key depends on its own observations only.
-/

namespace CryptoTrading.Health

open CryptoTrading.Lib ConditionRegistry

variable {V : Type}

/-! ## §1 The history of one key -/

/-- The observations filed under `k`, oldest first. -/
def ofKey (k : ConditionKey) (obs : List (HealthObservation V)) : List (HealthObservation V) :=
  obs.filter (fun o => o.key = k)

/-- The latest unhealthy observation of `k`. -/
def lastUnhealthy? (k : ConditionKey) (obs : List (HealthObservation V)) :
    Option (HealthObservation V) :=
  (ofKey k obs).reverse.find? (fun o => !o.healthy)

/-- How many healthy observations of `k` came after its latest unhealthy one. -/
def healthySince (k : ConditionKey) (obs : List (HealthObservation V)) : ℕ :=
  ((ofKey k obs).reverse.takeWhile (fun o => o.healthy)).length

theorem ofKey_concat_self (obs : List (HealthObservation V)) (o : HealthObservation V) :
    ofKey o.key (obs ++ [o]) = ofKey o.key obs ++ [o] := by
  simp [ofKey]

theorem ofKey_concat_of_ne {k : ConditionKey} (obs : List (HealthObservation V))
    {o : HealthObservation V} (h : o.key ≠ k) : ofKey k (obs ++ [o]) = ofKey k obs := by
  simp [ofKey, h]

theorem lastUnhealthy?_concat_unhealthy (obs : List (HealthObservation V))
    {o : HealthObservation V} (h : o.healthy = false) :
    lastUnhealthy? o.key (obs ++ [o]) = some o := by
  simp [lastUnhealthy?, ofKey_concat_self, h]

theorem lastUnhealthy?_concat_healthy (obs : List (HealthObservation V))
    {o : HealthObservation V} (h : o.healthy = true) :
    lastUnhealthy? o.key (obs ++ [o]) = lastUnhealthy? o.key obs := by
  simp [lastUnhealthy?, ofKey_concat_self, h]

theorem healthySince_concat_unhealthy (obs : List (HealthObservation V))
    {o : HealthObservation V} (h : o.healthy = false) : healthySince o.key (obs ++ [o]) = 0 := by
  simp [healthySince, ofKey_concat_self, h]

theorem healthySince_concat_healthy (obs : List (HealthObservation V))
    {o : HealthObservation V} (h : o.healthy = true) :
    healthySince o.key (obs ++ [o]) = healthySince o.key obs + 1 := by
  simp [healthySince, ofKey_concat_self, h]

/-! ## §2 The registry after a history -/

/-- The registry after feeding it the observations, starting without conditions. -/
def registryAfter (config : RecoveryConfig) (obs : List (HealthObservation V)) :
    ConditionRegistry V :=
  run ConditionRegistry.observe (ConditionRegistry.new config) obs

/-- The record of `k` after the observations. -/
def recordAfter (config : RecoveryConfig) (obs : List (HealthObservation V)) (k : ConditionKey) :
    Option (ActiveCondition V) :=
  (registryAfter config obs).activeConditions.get? k

@[simp] theorem registryAfter_recoveryConfig (config : RecoveryConfig)
    (obs : List (HealthObservation V)) : (registryAfter config obs).recoveryConfig = config :=
  run_invariant (fun reg : ConditionRegistry V => reg.recoveryConfig = config)
    (fun _ _ h => by rw [observe_recoveryConfig]; exact h) rfl obs

theorem recordAfter_concat_self (config : RecoveryConfig) (obs : List (HealthObservation V))
    (o : HealthObservation V) :
    recordAfter config (obs ++ [o]) o.key = nextRecord config (recordAfter config obs o.key) o := by
  have hcfg : (registryAfter config obs).recoveryConfig = config := registryAfter_recoveryConfig ..
  simp only [recordAfter, registryAfter, run_concat] at hcfg ⊢
  rw [observe_get?_key, hcfg]

theorem recordAfter_concat_of_ne (config : RecoveryConfig) (obs : List (HealthObservation V))
    (o : HealthObservation V) {k : ConditionKey} (h : k ≠ o.key) :
    recordAfter config (obs ++ [o]) k = recordAfter config obs k := by
  simp only [recordAfter, registryAfter, run_concat]
  exact observe_get?_of_ne _ _ h

/-- Observations of other keys never affect a key. -/
theorem recordAfter_ofKey (config : RecoveryConfig) (obs : List (HealthObservation V))
    (k : ConditionKey) : recordAfter config obs k = recordAfter config (ofKey k obs) k := by
  induction obs using List.reverseRecOn with
  | nil => rfl
  | append_singleton rest o ih =>
    by_cases hk : o.key = k
    · subst hk
      rw [ofKey_concat_self, recordAfter_concat_self, recordAfter_concat_self, ih]
    · rw [ofKey_concat_of_ne rest hk, recordAfter_concat_of_ne config rest o (Ne.symm hk), ih]

/-- What a stored record remembers of the history of its key. -/
theorem recordAfter_history (config : RecoveryConfig) (obs : List (HealthObservation V))
    (k : ConditionKey) (c : ActiveCondition V) (hc : recordAfter config obs k = some c) :
    ∃ u, lastUnhealthy? k obs = some u ∧ c.severity = u.severity ∧
      c.consecutiveHealthyChecks = healthySince k obs := by
  induction obs using List.reverseRecOn generalizing c with
  | nil => simp [recordAfter, registryAfter, ConditionRegistry.new] at hc
  | append_singleton rest o ih =>
    by_cases hk : o.key = k
    · subst hk
      rw [recordAfter_concat_self] at hc
      cases hh : o.healthy with
      | false =>
        -- an unhealthy report restarts the record, whatever was there
        rw [lastUnhealthy?_concat_unhealthy rest hh, healthySince_concat_unhealthy rest hh]
        refine ⟨o, rfl, ?_⟩
        cases hrec : recordAfter config rest o.key with
        | none =>
          simp only [nextRecord, hrec, hh, Bool.not_false, ↓reduceIte, Option.some.injEq] at hc
          subst hc
          exact ⟨rfl, rfl⟩
        | some existing =>
          simp only [nextRecord, hrec, hh, Bool.not_false, ↓reduceIte, Option.some.injEq] at hc
          subst hc
          exact ⟨rfl, rfl⟩
      | true =>
        rw [lastUnhealthy?_concat_healthy rest hh, healthySince_concat_healthy rest hh]
        cases hrec : recordAfter config rest o.key with
        | none => simp [nextRecord, hrec, hh] at hc
        | some existing =>
          -- the counter goes up by one, severity stays that of the unhealthy report
          obtain ⟨u, hu, hsev, hcount⟩ := ih existing hrec
          simp only [nextRecord, hrec, hh, Bool.not_true, Bool.false_eq_true, ↓reduceIte] at hc
          split at hc
          · cases hc
          · obtain rfl := Option.some.inj hc
            exact ⟨u, hu, hsev, by simp [improvedCondition, hcount]⟩
    · rw [recordAfter_concat_of_ne config rest o (Ne.symm hk)] at hc
      obtain ⟨u, hu, hsev, hcount⟩ := ih c hc
      refine ⟨u, ?_, hsev, ?_⟩
      · rw [lastUnhealthy?, ofKey_concat_of_ne rest hk]
        exact hu
      · rw [healthySince, ofKey_concat_of_ne rest hk]
        exact hcount

/-! ## §3 The recovery decision -/

/-- The policy compares the record with the very observation that wrote it, so it
    sees no elapsed time and the stable period is never consulted. -/
theorem canResolve_improvedCondition (config : RecoveryConfig) (existing : ActiveCondition V)
    (o : HealthObservation V) :
    config.canResolve (improvedCondition existing o) o.observedAt = true ↔
      existing.severity ≠ .fatal ∧ config.automatic = true ∧
        config.requiredSuccessfulChecks ≤ existing.consecutiveHealthyChecks + 1 := by
  simp only [RecoveryConfig.canResolve, improvedCondition, sub_self]
  by_cases hsev : existing.severity = .fatal
  · simp [hsev]
  · cases hauto : config.automatic with
    | false => simp [hsev]
    | true =>
      by_cases hchecks : (existing.consecutiveHealthyChecks : ℤ) + 1
          < config.requiredSuccessfulChecks
      · simp [hsev, hchecks]
      · simp [hsev, hchecks, not_lt.mp hchecks]

/-- Observation `o`, arriving after `hist`, removes the active key `k`. -/
def RemovedBy (config : RecoveryConfig) (hist : List (HealthObservation V))
    (o : HealthObservation V) (k : ConditionKey) : Prop :=
  (recordAfter config hist k).isSome ∧ recordAfter config (hist ++ [o]) k = none

/-- When a key may be removed, according to the configuration: recovery is automatic,
    the last unhealthy observation was followed by enough healthy ones (the removing
    one included), and the stable period has passed since. -/
def RecoveryRule (config : RecoveryConfig) (hist : List (HealthObservation V))
    (o : HealthObservation V) (k : ConditionKey) : Prop :=
  config.automatic = true ∧ o.key = k ∧ o.healthy = true ∧
    config.requiredSuccessfulChecks ≤ healthySince k (hist ++ [o]) ∧
    ∃ u, lastUnhealthy? k hist = some u ∧
      config.stablePeriodSeconds ≤ o.observedAt - u.observedAt

/-- Removals are exactly the healthy observations that reach the required count. -/
theorem removedBy_iff (config : RecoveryConfig) (hist : List (HealthObservation V))
    (o : HealthObservation V) (k : ConditionKey) :
    RemovedBy config hist o k ↔
      o.key = k ∧ o.healthy = true ∧ config.automatic = true ∧
        ∃ c u, recordAfter config hist k = some c ∧ lastUnhealthy? k hist = some u ∧
          u.severity ≠ .fatal ∧ config.requiredSuccessfulChecks ≤ healthySince k hist + 1 := by
  constructor
  · rintro ⟨hactive, hgone⟩
    obtain ⟨c, hc⟩ := Option.isSome_iff_exists.mp hactive
    obtain ⟨u, hu, hsev, hcount⟩ := recordAfter_history config hist k c hc
    by_cases hk : o.key = k
    · subst hk
      rw [recordAfter_concat_self, hc] at hgone
      cases hh : o.healthy with
      | false => simp [nextRecord, hh] at hgone
      | true =>
        simp only [nextRecord, hh, Bool.not_true, Bool.false_eq_true, ↓reduceIte] at hgone
        split at hgone
        · rename_i hres
          rw [canResolve_improvedCondition] at hres
          obtain ⟨hfatal, hauto, hreq⟩ := hres
          exact ⟨rfl, rfl, hauto, c, u, hc, hu, hsev ▸ hfatal, hcount ▸ hreq⟩
        · cases hgone
    -- an observation of another key removes nothing
    · rw [recordAfter_concat_of_ne config hist o (Ne.symm hk), hc] at hgone
      cases hgone
  · rintro ⟨rfl, hh, hauto, c, u, hc, hu, hfatal, hreq⟩
    obtain ⟨u', hu', hsev, hcount⟩ := recordAfter_history config hist o.key c hc
    obtain rfl : u = u' := Option.some.inj (hu.symm.trans hu')
    have hres : config.canResolve (improvedCondition c o) o.observedAt = true := by
      rw [canResolve_improvedCondition, hsev, hcount]
      exact ⟨hfatal, hauto, hreq⟩
    refine ⟨by rw [hc]; rfl, ?_⟩
    rw [recordAfter_concat_self, hc]
    simp [nextRecord, hh, hres]

/-- A key is active when it has been reported unhealthy and no healthy observation
    since has completed the required checks. -/
theorem recordAfter_isSome_iff (config : RecoveryConfig) (hist : List (HealthObservation V))
    (k : ConditionKey) :
    (recordAfter config hist k).isSome ↔
      ∃ u, lastUnhealthy? k hist = some u ∧
        ¬ (u.severity ≠ .fatal ∧ config.automatic = true ∧ 0 < healthySince k hist ∧
          config.requiredSuccessfulChecks ≤ healthySince k hist) := by
  induction hist using List.reverseRecOn with
  | nil => simp [recordAfter, registryAfter, ConditionRegistry.new, lastUnhealthy?, ofKey]
  | append_singleton rest o ih =>
    by_cases hk : o.key = k
    · subst hk
      rw [recordAfter_concat_self]
      cases hh : o.healthy with
      | false =>
        rw [lastUnhealthy?_concat_unhealthy rest hh, healthySince_concat_unhealthy rest hh]
        cases recordAfter config rest o.key <;> simp [nextRecord, hh]
      | true =>
        rw [lastUnhealthy?_concat_healthy rest hh, healthySince_concat_healthy rest hh]
        cases hrec : recordAfter config rest o.key with
        | none =>
          -- not active before: the key was never unhealthy, or completed earlier
          have hbefore := ih.not.mp (by simp [hrec])
          simp only [nextRecord, hh, Bool.not_true, Bool.false_eq_true, ↓reduceIte,
            Option.isSome_none, false_iff]
          rintro ⟨u, hu, hopen⟩
          refine hbefore ⟨u, hu, ?_⟩
          rintro ⟨hfatal, hauto, -, hreq⟩
          exact hopen ⟨hfatal, hauto, Nat.succ_pos _, by push_cast; linarith⟩
        | some c =>
          obtain ⟨u, hu, hsev, hcount⟩ := recordAfter_history config rest o.key c hrec
          have hres := canResolve_improvedCondition config c o
          rw [hsev, hcount] at hres
          simp only [nextRecord, hh, Bool.not_true, Bool.false_eq_true, ↓reduceIte, hu,
            Option.some.injEq, exists_eq_left', Nat.succ_pos, true_and, Nat.cast_add,
            Nat.cast_one]
          rw [← hres]
          cases config.canResolve (improvedCondition c o) o.observedAt <;> simp
    · rw [recordAfter_concat_of_ne config rest o (Ne.symm hk), ih]
      simp only [lastUnhealthy?, healthySince, ofKey_concat_of_ne rest hk]

/-! ## §4 Hysteresis over a whole sequence -/

/-- Every automatic removal of the sequence obeys the recovery rule, and every key
    depends on its own observations only. -/
def HysteresisHolds (config : RecoveryConfig) (obs : List (HealthObservation V)) : Prop :=
  (∀ hist o rest k, obs = hist ++ o :: rest →
    RemovedBy config hist o k → RecoveryRule config hist o k) ∧
  ∀ k, recordAfter config obs k = recordAfter config (ofKey k obs) k

/-- The healthy observation `o` is the first one to complete the required checks since
    the non-fatal report `u`, the last unhealthy one of its key, and recovery is automatic. -/
def CompletesChecks (config : RecoveryConfig) (hist : List (HealthObservation V))
    (o u : HealthObservation V) : Prop :=
  o.healthy = true ∧ config.automatic = true ∧ lastUnhealthy? o.key hist = some u ∧
    u.severity ≠ .fatal ∧ config.requiredSuccessfulChecks ≤ healthySince o.key hist + 1 ∧
    (healthySince o.key hist = 0 ∨ healthySince o.key hist < config.requiredSuccessfulChecks)

/-- No observation completes the required checks of a key within the stable period of
    the last unhealthy observation of the key. -/
def NoEarlyCompletion (config : RecoveryConfig) (obs : List (HealthObservation V)) : Prop :=
  ∀ hist o rest u, obs = hist ++ o :: rest → CompletesChecks config hist o u →
    config.stablePeriodSeconds ≤ o.observedAt - u.observedAt

/-- An observation removes a key exactly when it completes the required checks. -/
theorem removedBy_iff_completesChecks (config : RecoveryConfig)
    (hist : List (HealthObservation V)) (o : HealthObservation V) (k : ConditionKey) :
    RemovedBy config hist o k ↔ o.key = k ∧ ∃ u, CompletesChecks config hist o u := by
  rw [removedBy_iff]
  constructor
  · rintro ⟨rfl, hh, hauto, c, u, hc, hu, hfatal, hreq⟩
    have hactive : (recordAfter config hist o.key).isSome := by rw [hc]; rfl
    obtain ⟨u', hu', hopen⟩ := (recordAfter_isSome_iff config hist o.key).mp hactive
    obtain rfl : u = u' := Option.some.inj (hu.symm.trans hu')
    refine ⟨rfl, u, hh, hauto, hu, hfatal, hreq, ?_⟩
    -- had the checks been complete before, the key would be gone already
    by_contra hfirst
    push Not at hfirst
    exact hopen ⟨hfatal, hauto, Nat.pos_of_ne_zero hfirst.1, hfirst.2⟩
  · rintro ⟨rfl, u, hh, hauto, hu, hfatal, hreq, hfirst⟩
    have hactive : (recordAfter config hist o.key).isSome := by
      refine (recordAfter_isSome_iff config hist o.key).mpr ⟨u, hu, ?_⟩
      rintro ⟨-, -, hpos, hdone⟩
      rcases hfirst with hzero | hlt
      · omega
      · omega
    obtain ⟨c, hc⟩ := Option.isSome_iff_exists.mp hactive
    exact ⟨rfl, hh, hauto, c, u, hc, hu, hfatal, hreq⟩

/-- **Recovery hysteresis** holds of a sequence of observations exactly when the observations
    themselves respect the stable period: the registry enforces the number of checks and the
    separation of keys, and nothing else.

    `can_resolve` compares the time of the observation with itself, since `record_observation` has
    already stored it, and never reads the stable period. -/
theorem hysteresisHolds_iff_noEarlyCompletion (config : RecoveryConfig)
    (obs : List (HealthObservation V)) :
    HysteresisHolds config obs ↔ NoEarlyCompletion config obs := by
  constructor
  · rintro ⟨hrule, -⟩ hist o rest u hsplit hdone
    have hremoved : RemovedBy config hist o o.key :=
      (removedBy_iff_completesChecks config hist o o.key).mpr ⟨rfl, u, hdone⟩
    obtain ⟨-, -, -, -, u', hu', hstable⟩ := hrule hist o rest o.key hsplit hremoved
    obtain rfl : u = u' := Option.some.inj (hdone.2.2.1.symm.trans hu')
    exact hstable
  · intro hearly
    refine ⟨?_, recordAfter_ofKey config obs⟩
    intro hist o rest k hsplit hremoved
    obtain ⟨rfl, u, hdone⟩ := (removedBy_iff_completesChecks config hist o k).mp hremoved
    have hstable := hearly hist o rest u hsplit hdone
    obtain ⟨hh, hauto, hu, -, hreq, -⟩ := hdone
    refine ⟨hauto, rfl, hh, ?_, u, hu, hstable⟩
    rw [healthySince_concat_healthy hist hh]
    push_cast
    exact hreq

/-! ## §5 The stable period is not enforced -/

/-- A report about stale market data of one asset at time zero. -/
def staleReport (healthy : Bool) : HealthObservation Unit where
  source := "market_feed"
  condition := .marketDataStale
  scope := HealthScope.assetScope "BTC_USD"
  healthy := healthy
  observedAt := 0
  severity := .critical
  measuredValue := none
  threshold := none
  metadata := ()

/-- Under the default configuration (three checks, ten seconds) a condition reported at
    time zero is gone after three healthy checks that all happen at time zero. -/
theorem hysteresis_fails_at_instant_checks :
    ¬ HysteresisHolds RecoveryConfig.default
      [staleReport false, staleReport true, staleReport true, staleReport true] := by
  rintro ⟨hrule, -⟩
  have hremoved : RemovedBy RecoveryConfig.default
      [staleReport false, staleReport true, staleReport true] (staleReport true)
      (staleReport true).key := by
    rw [removedBy_iff_completesChecks]
    exact ⟨rfl, staleReport false, by unfold CompletesChecks; decide⟩
  obtain ⟨-, -, -, -, u, hu, hstable⟩ := hrule _ _ [] _ rfl hremoved
  obtain rfl : staleReport false = u := Option.some.inj hu
  simp only [RecoveryConfig.default, staleReport] at hstable
  linarith

end CryptoTrading.Health
