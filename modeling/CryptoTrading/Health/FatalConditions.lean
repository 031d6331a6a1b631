import CryptoTrading.Health.Recovery

/-!
# Trading health: what keeps a FATAL condition in the registry

`RecoveryPolicy.can_resolve` never lets a FATAL condition go by itself: only
`resolve_manually` removes it.  The policy looks at the stored record, and every
further unhealthy observation of the key writes its own severity into the record.

- `fatal_stays_of_noDowngrade`: as long as no unhealthy observation lowers the severity
  of a FATAL record, a key reported FATAL stays until an operator resolves it;
- `downgrade_loses_fatal`: under automatic recovery every such observation can be
  followed by healthy ones that remove the key.
-/

namespace CryptoTrading.Health

open CryptoTrading.Lib ConditionRegistry

variable {V : Type}

/-! ## §1 Operations on a registry -/

/-- The two calls the health monitor makes on its registry. -/
inductive RegistryOp (V : Type) where
  | recordObservation (o : HealthObservation V)
  | resolveManually (condition : TradingHealthCondition) (scope : HealthScope)
  deriving DecidableEq

/-- The registry after one call. -/
def applyOp (reg : ConditionRegistry V) : RegistryOp V → ConditionRegistry V
  | .recordObservation o => reg.observe o
  | .resolveManually condition scope => (reg.resolveManually condition scope).1

/-- The record of `k` after the calls, starting without conditions. -/
def recordAfterOps (config : RecoveryConfig) (ops : List (RegistryOp V)) (k : ConditionKey) :
    Option (ActiveCondition V) :=
  (run applyOp (ConditionRegistry.new config) ops).activeConditions.get? k

/-- An unhealthy observation of severity FATAL. -/
def HealthObservation.IsFatalReport (o : HealthObservation V) : Prop :=
  o.healthy = false ∧ o.severity = .fatal

/-- No call of the list is the operator's resolution of `k`. -/
def NotResolved (k : ConditionKey) (ops : List (RegistryOp V)) : Prop :=
  ∀ condition scope, .resolveManually condition scope ∈ ops → makeKey condition scope ≠ k

/-- In every state of the run, a key that was reported FATAL and not resolved by hand since is
    still in the registry. -/
def FatalStays (config : RecoveryConfig) (ops : List (RegistryOp V)) : Prop :=
  ∀ before o after, before ++ .recordObservation o :: after <+: ops →
    o.IsFatalReport → NotResolved o.key after →
    (recordAfterOps config (before ++ .recordObservation o :: after) o.key).isSome

/-- The call is no unhealthy observation that lowers the severity of a FATAL record. -/
def NoDowngrade (reg : ConditionRegistry V) : RegistryOp V → Prop
  | .recordObservation o =>
    ∀ c, reg.activeConditions.get? o.key = some c → c.severity = .fatal →
      o.healthy = false → o.severity = .fatal
  | .resolveManually _ _ => True

/-! ## §2 What one call does to a record -/

@[simp] theorem applyOp_recoveryConfig (reg : ConditionRegistry V) (op : RegistryOp V) :
    (applyOp reg op).recoveryConfig = reg.recoveryConfig := by
  cases op with
  | recordObservation o => exact observe_recoveryConfig reg o
  | resolveManually condition scope =>
    simp only [applyOp, ConditionRegistry.resolveManually]
    split <;> rfl

theorem run_applyOp_recoveryConfig (reg : ConditionRegistry V) (ops : List (RegistryOp V)) :
    (run applyOp reg ops).recoveryConfig = reg.recoveryConfig :=
  run_invariant (fun r => r.recoveryConfig = reg.recoveryConfig)
    (fun r op h => (applyOp_recoveryConfig r op).trans h) rfl ops

/-- Resolving by hand touches no other key. -/
theorem resolveManually_get?_of_ne (reg : ConditionRegistry V)
    (condition : TradingHealthCondition) (scope : HealthScope) {k : ConditionKey}
    (h : makeKey condition scope ≠ k) :
    (reg.resolveManually condition scope).1.activeConditions.get? k =
      reg.activeConditions.get? k := by
  unfold ConditionRegistry.resolveManually
  split
  · exact Dict.get?_erase_of_ne _ (Ne.symm h)
  · rfl

/-- Resolving by hand leaves nothing under the key. -/
theorem resolveManually_get?_self (reg : ConditionRegistry V)
    (condition : TradingHealthCondition) (scope : HealthScope) :
    (reg.resolveManually condition scope).1.activeConditions.get? (makeKey condition scope) =
      none := by
  unfold ConditionRegistry.resolveManually
  split
  · simp
  · assumption

/-- The record of the key is one of severity FATAL. -/
def HasFatal (k : ConditionKey) (reg : ConditionRegistry V) : Prop :=
  ∃ c, reg.activeConditions.get? k = some c ∧ c.severity = .fatal

theorem HasFatal.isSome {k : ConditionKey} {reg : ConditionRegistry V} (h : HasFatal k reg) :
    (reg.activeConditions.get? k).isSome := by
  obtain ⟨c, hc, -⟩ := h
  rw [hc]
  rfl

/-- A FATAL report is stored with its severity, whatever was there. -/
theorem hasFatal_observe (reg : ConditionRegistry V) {o : HealthObservation V}
    (h : o.IsFatalReport) : HasFatal o.key (reg.observe o) := by
  obtain ⟨hh, hsev⟩ := h
  unfold HasFatal
  rw [observe_get?_key]
  cases reg.activeConditions.get? o.key with
  | none => exact ⟨detectedCondition o, by simp [nextRecord, hh], hsev⟩
  | some existing => exact ⟨relapsedCondition existing o, by simp [nextRecord, hh], hsev⟩

/-- A FATAL record outlives every call that neither resolves it nor lowers its severity. -/
theorem HasFatal.applyOp {k : ConditionKey} {reg : ConditionRegistry V} (h : HasFatal k reg)
    {op : RegistryOp V} (hdown : NoDowngrade reg op) (hres : NotResolved k [op]) :
    HasFatal k (applyOp reg op) := by
  obtain ⟨c, hc, hsev⟩ := h
  cases op with
  | recordObservation o =>
    by_cases hk : k = o.key
    · subst hk
      cases hh : o.healthy with
      | false => exact hasFatal_observe reg ⟨hh, hdown c hc hsev hh⟩
      | true =>
        -- the policy refuses, the record only counts one more check
        have hkeep :
            reg.recoveryConfig.canResolve (improvedCondition c o) o.observedAt = false := by
          simp [RecoveryConfig.canResolve, improvedCondition, hsev]
        refine ⟨improvedCondition c o, ?_, hsev⟩
        show (reg.observe o).activeConditions.get? o.key = _
        rw [observe_get?_key, hc]
        simp [nextRecord, hh, hkeep]
    · exact ⟨c, (observe_get?_of_ne reg o hk).trans hc, hsev⟩
  | resolveManually condition scope =>
    have hk := hres condition scope List.mem_cons_self
    exact ⟨c, (resolveManually_get?_of_ne reg condition scope hk).trans hc, hsev⟩

theorem NotResolved.of_cons {k : ConditionKey} {op : RegistryOp V} {ops : List (RegistryOp V)}
    (h : NotResolved k (op :: ops)) : NotResolved k [op] ∧ NotResolved k ops := by
  constructor
  · intro condition scope hmem
    rw [List.mem_singleton] at hmem
    exact h condition scope (hmem ▸ List.mem_cons_self)
  · intro condition scope hmem
    exact h condition scope (List.mem_cons_of_mem _ hmem)

/-- The same over a whole run. -/
theorem HasFatal.run {k : ConditionKey} {reg : ConditionRegistry V} (h : HasFatal k reg)
    {ops : List (RegistryOp V)} (hdown : Along Health.applyOp NoDowngrade reg ops)
    (hres : NotResolved k ops) : HasFatal k (run Health.applyOp reg ops) := by
  induction ops generalizing reg with
  | nil => exact h
  | cons op rest ih =>
    obtain ⟨hop, hrest⟩ := hres.of_cons
    exact ih (h.applyOp hdown.1 hop) hdown.2 hrest

/-! ## §3 Runs without downgrades -/

/-- **FATAL needs an operator**: in every run in which no unhealthy observation lowers the
    severity of a FATAL record, a key reported FATAL stays until it is resolved by hand. -/
theorem fatal_stays_of_noDowngrade (config : RecoveryConfig) (ops : List (RegistryOp V))
    (hdown : Along applyOp NoDowngrade (ConditionRegistry.new config) ops) :
    FatalStays config ops := by
  intro before o after hle hfatal hres
  obtain ⟨rest, rfl⟩ := hle
  have hhere := (along_append.mp (along_append.mp hdown).1).2
  have hstored : HasFatal o.key (applyOp (run applyOp (ConditionRegistry.new config) before)
      (.recordObservation o)) := hasFatal_observe _ hfatal
  have hend := hstored.run hhere.2 hres
  rw [recordAfterOps, run_append, run_cons]
  exact hend.isSome

/-- A report about the database, healthy or of the given severity. -/
def databaseReport (healthy : Bool) (severity : Severity) : HealthObservation Unit where
  source := "database"
  condition := .databaseUnavailable
  scope := HealthScope.globalScope
  healthy := healthy
  observedAt := 0
  severity := severity
  measuredValue := none
  threshold := none
  metadata := ()

/-- A FATAL report of the database, a healthy check and another FATAL report. -/
def fatalReports : List (RegistryOp Unit) :=
  [.recordObservation (databaseReport false .fatal),
    .recordObservation (databaseReport true .fatal),
    .recordObservation (databaseReport false .fatal)]

theorem fatal_stays_over_checks : FatalStays RecoveryConfig.default fatalReports := by
  apply fatal_stays_of_noDowngrade
  refine ⟨?_, ?_, ?_, trivial⟩
  · intro c hc
    simp [ConditionRegistry.new] at hc
  · intro c hc hsev hh
    cases hh
  · intro c hc hsev hh
    rfl

/-! ## §4 What a downgrade costs -/

theorem NotResolved.append {k : ConditionKey} {xs ys : List (RegistryOp V)}
    (hx : NotResolved k xs) (hy : NotResolved k ys) : NotResolved k (xs ++ ys) := by
  intro condition scope hmem
  rcases List.mem_append.mp hmem with h | h
  · exact hx condition scope h
  · exact hy condition scope h

theorem notResolved_observation (k : ConditionKey) (o : HealthObservation V) :
    NotResolved k [.recordObservation o] := by
  intro condition scope hmem
  simp at hmem

/-- A record that an observation of its key leaves FATAL: the observation reports it as FATAL, or
    it was FATAL before. -/
theorem fatal_of_observe {reg : ConditionRegistry V} {o : HealthObservation V}
    (h : HasFatal o.key (reg.observe o)) : o.IsFatalReport ∨ HasFatal o.key reg := by
  obtain ⟨c, hc, hsev⟩ := h
  rw [observe_get?_key] at hc
  cases hh : o.healthy with
  | false =>
    -- an unhealthy observation puts its own severity on the record
    refine Or.inl ⟨hh, ?_⟩
    cases hrec : reg.activeConditions.get? o.key with
    | none =>
      simp only [hrec, nextRecord, hh, Bool.not_false, ↓reduceIte, Option.some.injEq] at hc
      subst hc
      exact hsev
    | some existing =>
      simp only [hrec, nextRecord, hh, Bool.not_false, ↓reduceIte, Option.some.injEq] at hc
      subst hc
      exact hsev
  | true =>
    -- a healthy one removes the record or leaves its severity
    cases hrec : reg.activeConditions.get? o.key with
    | none => simp [hrec, nextRecord, hh] at hc
    | some existing =>
      simp only [hrec, nextRecord, hh, Bool.not_true, Bool.false_eq_true, ↓reduceIte] at hc
      split at hc
      · cases hc
      · obtain rfl := Option.some.inj hc
        exact Or.inr ⟨existing, hrec, hsev⟩

/-- One call: a record is FATAL after it because the call reports it so, or because it was FATAL
    and the call does not resolve it. -/
theorem fatal_of_applyOp {reg : ConditionRegistry V} {op : RegistryOp V} {k : ConditionKey}
    (h : HasFatal k (applyOp reg op)) :
    (∃ o, op = .recordObservation o ∧ o.key = k ∧ o.IsFatalReport) ∨
      (HasFatal k reg ∧ NotResolved k [op]) := by
  cases op with
  | recordObservation o =>
    by_cases hk : k = o.key
    · subst hk
      rcases fatal_of_observe h with hreport | hbefore
      · exact Or.inl ⟨o, rfl, rfl, hreport⟩
      · exact Or.inr ⟨hbefore, notResolved_observation _ o⟩
    · obtain ⟨c, hc, hsev⟩ := h
      have hbefore := observe_get?_of_ne reg o hk
      exact Or.inr ⟨⟨c, hbefore.symm.trans hc, hsev⟩, notResolved_observation _ o⟩
  | resolveManually condition scope =>
    obtain ⟨c, hc, hsev⟩ := h
    change (reg.resolveManually condition scope).1.activeConditions.get? k = some c at hc
    by_cases hk : makeKey condition scope = k
    · subst hk
      rw [resolveManually_get?_self] at hc
      cases hc
    · have hbefore := resolveManually_get?_of_ne reg condition scope hk
      refine Or.inr ⟨⟨c, hbefore.symm.trans hc, hsev⟩, ?_⟩
      intro condition' scope' hmem
      simp only [List.mem_singleton, RegistryOp.resolveManually.injEq] at hmem
      rw [hmem.1, hmem.2]
      exact hk

/-- A FATAL record was put there by a FATAL report that nobody resolved since. -/
theorem fatal_reported (config : RecoveryConfig) (ops : List (RegistryOp V)) {k : ConditionKey}
    (h : HasFatal k (run applyOp (ConditionRegistry.new config) ops)) :
    ∃ before o after, ops = before ++ .recordObservation o :: after ∧ o.key = k ∧
      o.IsFatalReport ∧ NotResolved k after := by
  induction ops using List.reverseRecOn with
  | nil =>
    obtain ⟨c, hc, -⟩ := h
    simp [ConditionRegistry.new] at hc
  | append_singleton rest op ih =>
    rw [run_concat] at h
    rcases fatal_of_applyOp h with ⟨o, rfl, hk, hfatal⟩ | ⟨hbefore, hop⟩
    · exact ⟨rest, o, [], rfl, hk, hfatal, by simp [NotResolved]⟩
    · obtain ⟨before, o, after, rfl, hk, hfatal, hres⟩ := ih hbefore
      exact ⟨before, o, after ++ [op], by simp, hk, hfatal, hres.append hop⟩

/-- Enough healthy observations of a key remove a record that is not FATAL. -/
theorem healthy_checks_remove {o : HealthObservation V} (hh : o.healthy = true) (d : ℕ) :
    ∀ (reg : ConditionRegistry V) (c : ActiveCondition V), reg.recoveryConfig.automatic = true →
      reg.activeConditions.get? o.key = some c → c.severity ≠ .fatal →
      reg.recoveryConfig.requiredSuccessfulChecks ≤ c.consecutiveHealthyChecks + 1 + d →
      ∃ m, (run applyOp reg (List.replicate m (.recordObservation o))).activeConditions.get?
        o.key = none := by
  -- on the number of checks that are still missing before the last one
  induction d with
  | zero =>
    intro reg c hauto hc hsev hreq
    have hres : reg.recoveryConfig.canResolve (improvedCondition c o) o.observedAt = true :=
      (canResolve_improvedCondition _ c o).mpr ⟨hsev, hauto, by simpa using hreq⟩
    refine ⟨1, ?_⟩
    change (reg.observe o).activeConditions.get? o.key = none
    rw [observe_get?_key, hc]
    simp [nextRecord, hh, hres]
  | succ d ih =>
    intro reg c hauto hc hsev hreq
    have hnext := observe_get?_key reg o
    simp only [hc, nextRecord, hh, Bool.not_true, Bool.false_eq_true, ↓reduceIte] at hnext
    split at hnext
    · exact ⟨1, hnext⟩
    · obtain ⟨m, hm⟩ := ih (reg.observe o) (improvedCondition c o)
        (by rw [observe_recoveryConfig]; exact hauto) hnext hsev
        (by rw [observe_recoveryConfig]; simp only [improvedCondition]; push_cast at hreq ⊢; omega)
      exact ⟨m + 1, hm⟩

/-- Under automatic recovery the guarantee is lost with every downgrade: healthy observations
    alone can then remove a key that was reported FATAL. -/
theorem downgrade_loses_fatal {config : RecoveryConfig} (hauto : config.automatic = true)
    (ops : List (RegistryOp V)) {op : RegistryOp V}
    (hdown : ¬ NoDowngrade (run applyOp (ConditionRegistry.new config) ops) op) :
    ∃ checks, (∀ a ∈ checks, ∃ o, a = .recordObservation o ∧ o.healthy = true) ∧
      ¬ FatalStays config (ops ++ op :: checks) := by
  cases op with
  | resolveManually condition scope => exact absurd trivial hdown
  | recordObservation o =>
    simp only [NoDowngrade, not_forall] at hdown
    obtain ⟨c, hc, hfatal, hh, hsev⟩ := hdown
    obtain ⟨before, u, after, rfl, hk, hu, hres⟩ := fatal_reported config ops ⟨c, hc, hfatal⟩
    set reg := run applyOp (ConditionRegistry.new config)
      (before ++ .recordObservation u :: after) with hreg
    have hstored : (reg.observe o).activeConditions.get? o.key = some (relapsedCondition c o) := by
      rw [observe_get?_key, hc]
      simp [nextRecord, hh]
    have hconfig : (reg.observe o).recoveryConfig = config := by
      rw [observe_recoveryConfig, hreg, run_applyOp_recoveryConfig]
      rfl
    -- the downgrading observation, but healthy, as often as recovery asks for
    let check : HealthObservation V := { o with healthy := true }
    obtain ⟨m, hm⟩ := healthy_checks_remove (o := check) rfl
      config.requiredSuccessfulChecks.toNat (reg.observe o) (relapsedCondition c o)
      (by rw [hconfig]; exact hauto) hstored hsev
      (by rw [hconfig]; simp only [relapsedCondition]; omega)
    refine ⟨List.replicate m (.recordObservation check), ?_, ?_⟩
    · intro a ha
      exact ⟨check, List.eq_of_mem_replicate ha, rfl⟩
    · intro hstays
      have hnone : NotResolved u.key (after ++ .recordObservation o ::
          List.replicate m (.recordObservation check)) := by
        refine NotResolved.append (hk ▸ hres) ?_
        intro condition scope hmem
        simp [List.mem_replicate] at hmem
      have hgone := hstays before u _ (by simp) hu hnone
      have hsplit : before ++ .recordObservation u :: (after ++ .recordObservation o ::
          List.replicate m (.recordObservation check)) =
          (before ++ .recordObservation u :: after) ++ .recordObservation o ::
            List.replicate m (.recordObservation check) := by simp
      rw [recordAfterOps, hsplit, run_append, ← hreg, hk] at hgone
      rw [run_cons] at hgone
      have hkey : (run applyOp (reg.observe o) (List.replicate m
        (.recordObservation check))).activeConditions.get? o.key = none := hm
      rw [show applyOp reg (.recordObservation o) = reg.observe o from rfl, hkey] at hgone
      cases hgone

/-! ## §5 A FATAL condition that goes by itself -/

/-- FATAL, then WARNING, then the three healthy checks of the default configuration. -/
def downgradedReports : List (RegistryOp Unit) :=
  [.recordObservation (databaseReport false .fatal),
    .recordObservation (databaseReport false .warning),
    .recordObservation (databaseReport true .warning),
    .recordObservation (databaseReport true .warning),
    .recordObservation (databaseReport true .warning)]

theorem fatal_fails_after_warning :
    ¬ FatalStays RecoveryConfig.default downgradedReports := by
  intro hstays
  have hkept := hstays [] (databaseReport false .fatal) downgradedReports.tail List.prefix_rfl
    ⟨rfl, rfl⟩ (by intro condition scope hmem; simp [downgradedReports] at hmem)
  exact absurd hkept (by decide +kernel)

end CryptoTrading.Health
