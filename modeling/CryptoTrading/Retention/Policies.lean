import CryptoTrading.Lib.Dict
import CryptoTrading.Lib.Raising
import CryptoTrading.Retention.Durations

/-!
# Retention policies

Embeds `RetentionPolicy` (`src/retention/models.py`), `PolicySettings` and `RetentionConfig`
(`src/configuration/retention_config.py`), and `RetentionPolicyResolver`
(`src/retention/policy_resolver.py`).  Scopes, descriptions and the version hash are left out.

The policies of a resolver are rebuilt from the configuration and the overrides.  Whether that
works out depends on the configuration alone: an override only replaces terms of its policy
(`buildPolicy_merge`), so a resolver that was built once can always be rebuilt
(`RetentionPolicyResolver.Built.rebuild_merge`).
-/

namespace CryptoTrading.Retention

open CryptoTrading.Lib

/-! ## §1 Categories and modes -/

/-- `DataCategory`. -/
inductive DataCategory where
  | financial | tradingDecision | trace | metrics | runtimeAlert | experiment
  | experimentArtifact | report | configHistory | marketData | marketDataBuffer | applicationLog
  | cache
  deriving DecidableEq, Repr

/-- The members of `DataCategory`, under their names. -/
def categoryMembers : List (String × DataCategory) :=
  [("FINANCIAL", .financial), ("TRADING_DECISION", .tradingDecision), ("TRACE", .trace),
    ("METRICS", .metrics), ("RUNTIME_ALERT", .runtimeAlert), ("EXPERIMENT", .experiment),
    ("EXPERIMENT_ARTIFACT", .experimentArtifact), ("REPORT", .report),
    ("CONFIG_HISTORY", .configHistory), ("MARKET_DATA", .marketData),
    ("MARKET_DATA_BUFFER", .marketDataBuffer), ("APPLICATION_LOG", .applicationLog),
    ("CACHE", .cache)]

/-- `_CATEGORY_BY_KEY`. -/
def categoryByKey : List (String × DataCategory) :=
  [("financial_records", .financial), ("orders", .financial), ("trades", .financial),
    ("trading_decisions", .tradingDecision), ("trace_events", .trace), ("timeline", .trace),
    ("metric_samples", .metrics), ("metrics", .metrics), ("runtime_incidents", .runtimeAlert),
    ("drift_alerts", .runtimeAlert), ("experiment_metadata", .experiment),
    ("experiments", .experiment), ("experiment_artifacts", .experimentArtifact),
    ("backtest_reports", .report), ("reports", .report), ("market_datasets", .marketData),
    ("market_data", .marketData), ("market_data_buffer", .marketDataBuffer),
    ("application_logs", .applicationLog), ("config_history", .configHistory),
    ("cache_buffers", .cache)]

/-- `_resolve_category`. -/
def resolveCategory (policyId : String) (rawCategory : Option DataCategory) :
    Except RetentionError DataCategory :=
  match rawCategory with
  | some category => .ok category
  | none =>
    match categoryMembers.lookup (upper policyId) with
    | some category => .ok category
    | none =>
      match categoryByKey.lookup policyId with
      | some category => .ok category
      | none => .error (.valueError s!"Cannot resolve data category for policy '{policyId}'")

/-- `RetentionMode`. -/
inductive RetentionMode where
  | delete | archive | aggregateThenDelete | keep
  deriving DecidableEq, Repr

/-- `mode.value`. -/
def RetentionMode.value : RetentionMode → String
  | .delete => "DELETE"
  | .archive => "ARCHIVE"
  | .aggregateThenDelete => "AGGREGATE_THEN_DELETE"
  | .keep => "KEEP"

/-- `RetentionMode(value)`. -/
def RetentionMode.ofValue (value : String) : Except RetentionError RetentionMode :=
  match [RetentionMode.delete, .archive, .aggregateThenDelete, .keep].find? (·.value = value) with
  | some mode => .ok mode
  | none => .error (.notAMode value)

@[simp] theorem RetentionMode.ofValue_value (mode : RetentionMode) :
    RetentionMode.ofValue mode.value = .ok mode := by
  cases mode <;> rfl

/-- `mode in DESTRUCTIVE_MODES`. -/
def RetentionMode.isDestructive : RetentionMode → Bool
  | .delete | .aggregateThenDelete => true
  | .archive | .keep => false

/-! ## §2 Policies and the configuration -/

/-- `RetentionPolicy`. -/
structure RetentionPolicy where
  policyId : String
  dataCategory : DataCategory
  retentionPeriod : DurationText
  retentionMode : RetentionMode
  enabled : Bool
  gracePeriod : DurationText
  updatedAt : Option Instant
  updatedBy : Option String
  deriving DecidableEq

namespace RetentionPolicy

/-- `period_delta`. -/
def periodDelta (p : RetentionPolicy) : Option Timedelta := p.retentionPeriod.delta

/-- `grace_delta`. -/
def graceDelta (p : RetentionPolicy) : Timedelta := p.gracePeriod.delta.getD .zero

/-- `cutoff`. -/
def cutoff (p : RetentionPolicy) (now : Instant) : Except RetentionError (Option Instant) :=
  match p.periodDelta with
  | none => .ok none
  | some period => do
    let afterPeriod ← now.sub period
    let afterGrace ← afterPeriod.sub p.graceDelta
    .ok (some afterGrace)

theorem cutoff_eq_some {p : RetentionPolicy} {now time : Instant} :
    p.cutoff now = .ok (some time) ↔ ∃ period, p.periodDelta = some period ∧
      now.micros = time.micros + p.graceDelta.micros + period.micros := by
  unfold cutoff
  cases hperiod : p.periodDelta with
  | none => simp
  | some period =>
    simp only [bind_eq_ok, Except.ok.injEq, Option.some.injEq, exists_eq_left']
    constructor
    · rintro ⟨between, hbetween, last, hlast, rfl⟩
      rw [Instant.sub_eq_ok] at hbetween hlast
      omega
    · intro hnow
      -- the time between the two subtractions lies below `now`
      have hrange : time.micros + p.graceDelta.micros < 3652059 * 86400 * 10 ^ 6 :=
        Nat.lt_of_le_of_lt (hnow ▸ Nat.le_add_right _ _) now.inRange
      exact ⟨⟨time.micros + p.graceDelta.micros, hrange⟩, Instant.sub_eq_ok.mpr hnow, time,
        Instant.sub_eq_ok.mpr rfl, rfl⟩

end RetentionPolicy

/-- `PolicySettings`; its durations are validated when it is made. -/
structure PolicySettings where
  dataCategory : Option DataCategory
  retentionPeriod : DurationText
  retentionMode : RetentionMode
  enabled : Bool
  gracePeriod : Option DurationText

/-- `RetentionConfig`; its own grace period is not validated. -/
structure RetentionConfig where
  enabled : Bool
  dryRun : Bool
  batchSize : ℤ
  gracePeriod : String
  policies : Dict String PolicySettings

/-! ## §3 Overrides -/

/-- What was changed of a policy: the keys of an entry of `_overrides`. -/
structure Override where
  retentionPeriod : Option DurationText
  retentionMode : Option RetentionMode
  enabled : Option Bool
  updatedAt : Option Instant
  updatedBy : Option String
  deriving DecidableEq

namespace Override

def empty : Override := ⟨none, none, none, none, none⟩

/-- An entry updated with the keys of another; who changed it and when is always replaced. -/
def merge (entry data : Override) : Override where
  retentionPeriod := data.retentionPeriod.or entry.retentionPeriod
  retentionMode := data.retentionMode.or entry.retentionMode
  enabled := data.enabled.or entry.enabled
  updatedAt := data.updatedAt
  updatedBy := data.updatedBy

theorem empty_merge (data : Override) : empty.merge data = data := by
  simp [merge, empty]

end Override

/-- The policy with the changed terms. -/
def RetentionPolicy.changedBy (p : RetentionPolicy) (data : Override) : RetentionPolicy :=
  { p with
    retentionPeriod := data.retentionPeriod.getD p.retentionPeriod
    retentionMode := data.retentionMode.getD p.retentionMode
    enabled := data.enabled.getD p.enabled
    updatedAt := data.updatedAt
    updatedBy := data.updatedBy }

/-- `_overrides.setdefault(policy_id, {}).update(data)`. -/
def mergeOverride (overrides : Dict String Override) (policyId : String) (data : Override) :
    Dict String Override :=
  overrides.set policyId ((overrides.getD policyId .empty).merge data)

/-- The loop of `apply_overrides` merges each entry into what was there under its key. -/
theorem get?_foldl_mergeOverride {entries : List (String × Override)}
    (hnodup : (entries.map Prod.fst).Nodup) (overrides : Dict String Override) (policyId : String) :
    (entries.foldl (fun d e => mergeOverride d e.1 e.2) overrides).get? policyId =
      ((Dict.findIn policyId entries).map (overrides.getD policyId .empty).merge).or
        (overrides.get? policyId) :=
  Dict.get?_foldl_merge (fun (old : Option Override) data => (old.getD .empty).merge data) hnodup
    overrides policyId

/-- `merged.get("grace_period") or self._config.grace_period`, parsed. -/
def resolveGrace (config : RetentionConfig) (settings : PolicySettings) :
    Except RetentionError DurationText :=
  match settings.gracePeriod with
  | some grace => .ok grace
  | none => DurationText.ofText config.gracePeriod

/-- `_build_policy`. -/
def buildPolicy (config : RetentionConfig) (policyId : String) (settings : PolicySettings)
    (override : Override) : Except RetentionError RetentionPolicy := do
  let category ← resolveCategory policyId settings.dataCategory
  let grace ← resolveGrace config settings
  .ok
    { policyId := policyId
      dataCategory := category
      retentionPeriod := override.retentionPeriod.getD settings.retentionPeriod
      retentionMode := override.retentionMode.getD settings.retentionMode
      enabled := override.enabled.getD settings.enabled
      gracePeriod := grace
      updatedAt := override.updatedAt
      updatedBy := override.updatedBy }

theorem buildPolicy_eq_ok {config : RetentionConfig} {policyId : String}
    {settings : PolicySettings} {override : Override} {p : RetentionPolicy} :
    buildPolicy config policyId settings override = .ok p ↔
      resolveCategory policyId settings.dataCategory = .ok p.dataCategory ∧
        resolveGrace config settings = .ok p.gracePeriod ∧ p.policyId = policyId ∧
        p.retentionPeriod = override.retentionPeriod.getD settings.retentionPeriod ∧
        p.retentionMode = override.retentionMode.getD settings.retentionMode ∧
        p.enabled = override.enabled.getD settings.enabled ∧
        p.updatedAt = override.updatedAt ∧ p.updatedBy = override.updatedBy := by
  unfold buildPolicy
  rw [bind_eq_ok]
  constructor
  · rintro ⟨category, hcategory, h⟩
    obtain ⟨grace, hgrace, h⟩ := bind_eq_ok.mp h
    obtain rfl := Except.ok.inj h
    exact ⟨hcategory, hgrace, rfl, rfl, rfl, rfl, rfl, rfl⟩
  · intro ⟨hcategory, hgrace, hid, hperiod, hmode, henabled, hat, hby⟩
    obtain ⟨_, _, _, _, _, _, _, _⟩ := p
    subst hid hperiod hmode henabled hat hby
    exact ⟨_, hcategory, bind_eq_ok.mpr ⟨_, hgrace, rfl⟩⟩

/-- A change of the override changes the terms of the policy, and nothing else. -/
theorem buildPolicy_merge (config : RetentionConfig) (policyId : String)
    (settings : PolicySettings) (override data : Override) :
    buildPolicy config policyId settings (override.merge data) =
      (buildPolicy config policyId settings override).map (·.changedBy data) := by
  unfold buildPolicy
  cases resolveCategory policyId settings.dataCategory with
  | error error => rfl
  | ok category =>
    cases resolveGrace config settings with
    | error error => rfl
    | ok grace =>
      simp only [bind, Except.bind, Except.map, RetentionPolicy.changedBy, Override.merge,
        Option.getD_or]

/-! ## §4 The resolver -/

/-- `RetentionPolicyResolver`. -/
structure RetentionPolicyResolver where
  config : RetentionConfig
  overrides : Dict String Override
  policies : Dict String RetentionPolicy

/-- The loop of `rebuild`. -/
def rebuild (config : RetentionConfig) (overrides : Dict String Override) :
    Except RetentionError (Dict String RetentionPolicy) :=
  config.policies.traverse fun policyId settings =>
    buildPolicy config policyId settings (overrides.getD policyId .empty)

/-- Overrides never decide whether the policies can be built. -/
theorem exists_rebuild_eq_ok {config : RetentionConfig} {overrides : Dict String Override}
    {policies : Dict String RetentionPolicy} (h : rebuild config overrides = .ok policies)
    (overrides' : Dict String Override) :
    ∃ policies', rebuild config overrides' = .ok policies' := by
  refine Dict.exists_traverse_eq_ok h fun policyId settings hok => ?_
  cases hbuild : buildPolicy config policyId settings (overrides.getD policyId .empty) with
  | error error => simp [hbuild, Except.isOk, Except.toBool] at hok
  | ok p =>
    obtain ⟨hcategory, hgrace, -⟩ := buildPolicy_eq_ok.mp hbuild
    simp [buildPolicy, hcategory, hgrace, bind, Except.bind, Except.isOk, Except.toBool]

namespace RetentionPolicyResolver

/-- `rebuild`. -/
def rebuilt (r : RetentionPolicyResolver) : Raising RetentionPolicyResolver RetentionError :=
  match rebuild r.config r.overrides with
  | .ok policies => ({ r with policies := policies }, none)
  | .error error => (r, some error)

/-- `RetentionPolicyResolver(config)`. -/
def new (config : RetentionConfig) : Except RetentionError RetentionPolicyResolver := do
  let policies ← rebuild config .empty
  .ok ⟨config, .empty, policies⟩

/-- `apply_overrides`. -/
def applyOverrides (r : RetentionPolicyResolver) (overrides : Dict String Override) :
    Raising RetentionPolicyResolver RetentionError :=
  let merged := overrides.entries.foldl (fun d e => mergeOverride d e.1 e.2) r.overrides
  { r with overrides := merged }.rebuilt

/-- The policies are those of the configuration with the overrides. -/
def Built (r : RetentionPolicyResolver) : Prop := rebuild r.config r.overrides = .ok r.policies

theorem built_of_new {config : RetentionConfig} {r : RetentionPolicyResolver}
    (h : new config = .ok r) : r.Built ∧ r.config = config ∧ r.overrides = .empty := by
  obtain ⟨policies, hpolicies, hr⟩ := bind_eq_ok.mp h
  obtain rfl := Except.ok.inj hr
  exact ⟨hpolicies, rfl, rfl⟩

/-- Rebuilding with other overrides works out. -/
theorem Built.rebuilt_eq {r : RetentionPolicyResolver} (h : r.Built)
    (overrides : Dict String Override) :
    ∃ policies, { r with overrides := overrides }.rebuilt =
      ({ r with overrides := overrides, policies := policies }, none) ∧
        ({ r with overrides := overrides, policies := policies } :
          RetentionPolicyResolver).Built := by
  obtain ⟨policies, hpolicies⟩ := exists_rebuild_eq_ok h overrides
  refine ⟨policies, ?_, hpolicies⟩
  simp [rebuilt, hpolicies]

/-- A policy of the resolver was built for its settings. -/
theorem Built.get?_eq {r : RetentionPolicyResolver} (h : r.Built) (policyId : String) :
    r.policies.get? policyId = (r.config.policies.get? policyId).bind fun settings =>
      (buildPolicy r.config policyId settings (r.overrides.getD policyId .empty)).toOption :=
  Dict.get?_of_traverse h policyId

/-- A merged override changes its own policy. -/
theorem Built.get?_merge {r r' : RetentionPolicyResolver} (h : r.Built) (h' : r'.Built)
    (hconfig : r'.config = r.config) {policyId : String} {data : Override}
    (hoverrides : r'.overrides = mergeOverride r.overrides policyId data) (otherId : String) :
    r'.policies.get? otherId =
      if otherId = policyId then (r.policies.get? otherId).map (·.changedBy data)
      else r.policies.get? otherId := by
  rw [h'.get?_eq, h.get?_eq, hconfig, hoverrides]
  unfold mergeOverride
  by_cases hid : otherId = policyId
  · subst hid
    rw [if_pos rfl]
    cases r.config.policies.get? otherId with
    | none => rfl
    | some settings =>
      have hentry : (r.overrides.set otherId ((r.overrides.getD otherId .empty).merge data)).getD
          otherId .empty = (r.overrides.getD otherId .empty).merge data := by
        simp [Dict.getD]
      simp only [Option.bind_some, hentry, buildPolicy_merge]
      cases buildPolicy r.config otherId settings (r.overrides.getD otherId .empty) <;> rfl
  · rw [if_neg hid]
    simp [Dict.getD, Dict.get?_set_of_ne _ _ hid]

end RetentionPolicyResolver

end CryptoTrading.Retention
