import CryptoTrading.Lib.Latest
import CryptoTrading.Retention.Policies

/-!
# Changing a retention policy

Embeds `RetentionPolicyResolver.update` and `requires_confirmation`
(`src/retention/policy_resolver.py`), `RetentionManager.update_policy` with the start of a manager
(`src/retention/manager.py`), and `load_persisted_policy_overrides` of
`PostgresRetentionRepository`.

The database of the manager are the `POLICY_UPDATED` rows of the audit table, in the order in
which they were stored; the other audit events are never read back.  A call can fail while its
event is stored, after the live policies were changed.

An accepted call changes the terms of its own policy and stores them (`updatePolicy_accepted`); a
call that is not accepted changes nothing (`updatePolicy_refused`).
-/

namespace CryptoTrading.Retention

open CryptoTrading.Lib

/-! ## §1 What a call asks for -/

/-- The arguments of `update_policy`, and what it reads from its surroundings. -/
structure PolicyCall where
  policyId : String
  retentionPeriod : Option String
  retentionMode : Option String
  enabled : Option Bool
  actor : Option String
  confirm : Bool
  /-- The clock when the override is made. -/
  now : Instant
  /-- The clock when the audit event is made. -/
  recordedAt : Instant
  /-- Whether the unit of work that stores the audit event goes through. -/
  stored : Bool

/-- The changes of `update`, if there are any. -/
def readChanges (c : PolicyCall) : Except RetentionError (Option Override) := do
  let period ← c.retentionPeriod.mapM DurationText.ofText
  let mode ← c.retentionMode.mapM RetentionMode.ofValue
  if period = none ∧ mode = none ∧ c.enabled = none then .ok none
  else .ok (some ⟨period, mode, c.enabled, some c.now, c.actor⟩)

/-- The keys of `to_dict` that the confirmation test reads. -/
structure PolicyTexts where
  retentionPeriod : String
  retentionMode : String
  enabled : Bool

def RetentionPolicy.texts (p : RetentionPolicy) : PolicyTexts :=
  ⟨p.retentionPeriod.text, p.retentionMode.value, p.enabled⟩

/-- `candidate`. -/
def PolicyTexts.candidate (old : PolicyTexts) (c : PolicyCall) : PolicyTexts where
  retentionPeriod := c.retentionPeriod.getD old.retentionPeriod
  retentionMode := c.retentionMode.getD old.retentionMode
  enabled := c.enabled.getD old.enabled

/-- `old_delta is not None and new_delta is not None and new_delta < old_delta`. -/
def isShorter : Option Timedelta → Option Timedelta → Bool
  | some new, some old => new.seconds < old.seconds
  | _, _ => false

/-- `requires_confirmation`. -/
def requiresConfirmation (old new : PolicyTexts) : Except RetentionError Bool := do
  let oldMode ← RetentionMode.ofValue old.retentionMode
  let newMode ← RetentionMode.ofValue new.retentionMode
  if newMode.isDestructive ∧ newMode ≠ oldMode then .ok true
  else if newMode.isDestructive ∧ ¬ old.enabled ∧ new.enabled then .ok true
  else do
    let oldDelta ← parseDuration old.retentionPeriod
    let newDelta ← parseDuration new.retentionPeriod
    .ok (isShorter newDelta oldDelta)

/-! ## §2 The manager -/

/-- `RetentionPolicyResolver.update`, with the old and the new value it returns. -/
def RetentionPolicyResolver.update (r : RetentionPolicyResolver) (c : PolicyCall) :
    RetentionPolicyResolver × Except RetentionError (RetentionPolicy × RetentionPolicy) :=
  match r.policies.get? c.policyId with
  | none => (r, .error (.keyError c.policyId))
  | some policy =>
    match readChanges c with
    | .error error => (r, .error error)
    | .ok none => (r, .ok (policy, policy))
    | .ok (some changes) =>
      -- the override is there before the rebuild, and stays when that raises
      let changed := { r with overrides := mergeOverride r.overrides c.policyId changes }
      match changed.rebuilt with
      | (rebuilt, some error) => (rebuilt, .error error)
      | (rebuilt, none) =>
        match rebuilt.policies.get? c.policyId with
        | none => (rebuilt, .error (.keyError c.policyId))
        | some newPolicy => (rebuilt, .ok (policy, newPolicy))

/-- A `POLICY_UPDATED` row of the audit table. -/
structure PolicyUpdatedRow where
  policyId : String
  newValue : RetentionPolicy
  actor : Option String
  createdAt : Instant
  deriving DecidableEq

namespace PolicyUpdatedRow

def time (row : PolicyUpdatedRow) : ℕ := row.createdAt.micros

/-- The entry that `load_persisted_policy_overrides` makes of a row. -/
def toOverride (row : PolicyUpdatedRow) : Override :=
  ⟨some row.newValue.retentionPeriod, some row.newValue.retentionMode, some row.newValue.enabled,
    some row.createdAt, row.actor⟩

end PolicyUpdatedRow

/-- `load_persisted_policy_overrides`. -/
def loadPersistedPolicyOverrides (rows : List PolicyUpdatedRow) : Dict String Override :=
  ((sortBy PolicyUpdatedRow.time rows).filter (·.policyId ≠ "")).foldl
    (fun overrides row => overrides.set row.policyId row.toOverride) .empty

/-- `RetentionManager`, with the rows of its database. -/
structure RetentionManager where
  resolver : RetentionPolicyResolver
  rows : List PolicyUpdatedRow

namespace RetentionManager

/-- `RetentionManager(db_manager, config=config)`; what `apply_overrides` raises is logged. -/
def start (config : RetentionConfig) (rows : List PolicyUpdatedRow) :
    Except RetentionError RetentionManager := do
  let resolver ← RetentionPolicyResolver.new config
  let overrides := loadPersistedPolicyOverrides rows
  if overrides.entries = [] then .ok ⟨resolver, rows⟩
  else .ok ⟨(resolver.applyOverrides overrides).1, rows⟩

/-- The row of the audit event of a call. -/
def auditRow (c : PolicyCall) (newValue : RetentionPolicy) : PolicyUpdatedRow :=
  ⟨c.policyId, newValue, c.actor, c.recordedAt⟩

/-- `_record_audit`. -/
def recordAudit (m : RetentionManager) (c : PolicyCall) (newValue : RetentionPolicy) :
    RetentionManager × Except RetentionError RetentionPolicy :=
  if c.stored then ({ m with rows := m.rows ++ [auditRow c newValue] }, .ok newValue)
  else (m, .error .auditNotStored)

/-- `update_policy`. -/
def updatePolicy (m : RetentionManager) (c : PolicyCall) :
    RetentionManager × Except RetentionError RetentionPolicy :=
  match m.resolver.policies.get? c.policyId with
  | none => (m, .error (.keyError c.policyId))
  | some policy =>
    match requiresConfirmation policy.texts (policy.texts.candidate c) with
    | .error error => (m, .error error)
    | .ok required =>
      if required && !c.confirm then
        (m, .error (.confirmationRequired
          "This change shortens retention or enables destructive cleanup; confirm to apply."))
      else
        match m.resolver.update c with
        | (resolver, .error error) => ({ m with resolver := resolver }, .error error)
        | (resolver, .ok (_, newValue)) => { m with resolver := resolver }.recordAudit c newValue

/-- The manager after a call. -/
def afterCall (m : RetentionManager) (c : PolicyCall) : RetentionManager := (m.updatePolicy c).1

/-- The call raised. -/
def Raises (m : RetentionManager) (c : PolicyCall) : Prop :=
  ∃ error, (m.updatePolicy c).2 = .error error

/-! ## §3 What a call does -/

/-- The policy after the changes of a call. -/
def changedPolicy (p : RetentionPolicy) : Option Override → RetentionPolicy
  | none => p
  | some data => p.changedBy data

theorem gracePeriod_changedPolicy (p : RetentionPolicy) (changes : Option Override) :
    (changedPolicy p changes).gracePeriod = p.gracePeriod := by
  cases changes <;> rfl

/-- The call is about `policy`, needs no confirmation or has it, and its arguments are valid. -/
structure Accepted (m : RetentionManager) (c : PolicyCall) (policy : RetentionPolicy)
    (changes : Option Override) : Prop where
  policy_eq : m.resolver.policies.get? c.policyId = some policy
  confirmed : ∃ required,
    requiresConfirmation policy.texts (policy.texts.candidate c) = .ok required ∧
      (required = true → c.confirm = true)
  valid : readChanges c = .ok changes

/-- An accepted call changes the terms of its own policy, and then stores them. -/
theorem updatePolicy_accepted {m : RetentionManager} {c : PolicyCall} {policy : RetentionPolicy}
    {changes : Option Override} (hbuilt : m.resolver.Built) (h : Accepted m c policy changes) :
    ∃ resolver : RetentionPolicyResolver, resolver.Built ∧ resolver.config = m.resolver.config ∧
      (∀ policyId, resolver.policies.get? policyId =
        if policyId = c.policyId then some (changedPolicy policy changes)
        else m.resolver.policies.get? policyId) ∧
      m.updatePolicy c =
        { m with resolver := resolver }.recordAudit c (changedPolicy policy changes) := by
  obtain ⟨hpolicy, ⟨required, hrequired, hconfirm⟩, hvalid⟩ := h
  have hpass : (required && !c.confirm) = false := by
    cases required with
    | false => rfl
    | true => rw [hconfirm rfl]; rfl
  -- a call without changes rebuilds nothing but is stored all the same
  cases changes with
  | none =>
    refine ⟨m.resolver, hbuilt, rfl, ?_, ?_⟩
    · intro policyId
      split
      case isTrue hid => rw [hid, hpolicy]; rfl
      case isFalse => rfl
    · simp [updatePolicy, RetentionPolicyResolver.update, hpolicy, hrequired, hpass, hvalid,
        changedPolicy]
  | some data =>
    obtain ⟨policies, hrebuilt, hbuilt'⟩ :=
      hbuilt.rebuilt_eq (mergeOverride m.resolver.overrides c.policyId data)
    have hget := hbuilt.get?_merge hbuilt' rfl rfl
    have hnew : policies.get? c.policyId = some (policy.changedBy data) := by
      have hown := hget c.policyId
      rw [if_pos rfl, hpolicy] at hown
      exact hown
    refine ⟨_, hbuilt', rfl, ?_, ?_⟩
    · intro policyId
      rw [hget policyId]
      split
      case isTrue hid => rw [hid, hpolicy]; rfl
      case isFalse => rfl
    · simp [updatePolicy, RetentionPolicyResolver.update, hpolicy, hrequired, hpass, hvalid,
        hrebuilt, hnew, changedPolicy]

/-- A call that is not accepted raises, and changes nothing. -/
theorem updatePolicy_refused {m : RetentionManager} {c : PolicyCall}
    (h : ¬ ∃ policy changes, Accepted m c policy changes) :
    ∃ error, m.updatePolicy c = (m, .error error) := by
  cases hpolicy : m.resolver.policies.get? c.policyId with
  | none => exact ⟨.keyError c.policyId, by simp only [updatePolicy, hpolicy]⟩
  | some policy =>
    cases hrequired : requiresConfirmation policy.texts (policy.texts.candidate c) with
    | error error => exact ⟨error, by simp only [updatePolicy, hpolicy, hrequired]⟩
    | ok required =>
      by_cases hpass : (required && !c.confirm) = true
      · simp only [updatePolicy, hpolicy, hrequired, hpass, ↓reduceIte]
        exact ⟨_, rfl⟩
      · cases hvalid : readChanges c with
        | error error =>
          exact ⟨error, by
            simp [updatePolicy, hpolicy, hrequired, hpass, RetentionPolicyResolver.update, hvalid]⟩
        | ok changes =>
          refine absurd ⟨policy, changes, hpolicy, ⟨required, hrequired, fun hreq => ?_⟩, hvalid⟩ h
          rw [hreq] at hpass
          simpa using hpass

/-- A call either is accepted, or raises and changes nothing. -/
theorem accepted_or_refused (m : RetentionManager) (c : PolicyCall) :
    (∃ policy changes, Accepted m c policy changes) ∨
      ∃ error, m.updatePolicy c = (m, .error error) :=
  (Classical.em _).imp_right updatePolicy_refused

theorem recordAudit_resolver (m : RetentionManager) (c : PolicyCall) (newValue : RetentionPolicy) :
    (m.recordAudit c newValue).1.resolver = m.resolver := by
  unfold recordAudit
  split <;> rfl

/-- The policies stay those of the configuration with the overrides. -/
theorem built_afterCall {m : RetentionManager} (hbuilt : m.resolver.Built) (c : PolicyCall) :
    (m.afterCall c).resolver.Built ∧ (m.afterCall c).resolver.config = m.resolver.config := by
  unfold afterCall
  rcases accepted_or_refused m c with ⟨policy, changes, haccepted⟩ | ⟨error, hrefused⟩
  · obtain ⟨resolver, hbuilt', hconfig, -, heq⟩ := updatePolicy_accepted hbuilt haccepted
    rw [heq, recordAudit_resolver]
    exact ⟨hbuilt', hconfig⟩
  · rw [hrefused]
    exact ⟨hbuilt, rfl⟩

/-! ## §4 The start -/

/-- A manager starts on whatever was stored, with the policies of its configuration rebuilt. -/
theorem start_eq_ok {config : RetentionConfig} {rows : List PolicyUpdatedRow}
    {m : RetentionManager} (h : start config rows = .ok m) :
    m.resolver.Built ∧ m.resolver.config = config ∧ m.rows = rows ∧
      ∀ policyId, m.resolver.overrides.get? policyId =
        (loadPersistedPolicyOverrides rows).get? policyId := by
  obtain ⟨resolver, hresolver, hstart⟩ := bind_eq_ok.mp h
  obtain ⟨hbuilt, hconfig, hempty⟩ := RetentionPolicyResolver.built_of_new hresolver
  dsimp only at hstart
  -- without stored updates the policies are those of the configuration
  split at hstart
  case isTrue hnone =>
    rw [← Except.ok.inj hstart]
    refine ⟨hbuilt, hconfig, rfl, fun policyId => ?_⟩
    rw [hempty]
    simp [Dict.get?, Dict.findIn, Dict.empty, hnone]
  case isFalse =>
    rw [← Except.ok.inj hstart]
    unfold RetentionPolicyResolver.applyOverrides
    obtain ⟨policies, hrebuilt, hbuilt'⟩ := hbuilt.rebuilt_eq
      ((loadPersistedPolicyOverrides rows).entries.foldl (fun d e => mergeOverride d e.1 e.2)
        resolver.overrides)
    rw [hrebuilt]
    refine ⟨hbuilt', hconfig, rfl, fun policyId => ?_⟩
    show (List.foldl _ resolver.overrides _).get? policyId = _
    rw [hempty, get?_foldl_mergeOverride (loadPersistedPolicyOverrides rows).nodupKeys]
    show (((loadPersistedPolicyOverrides rows).get? policyId).map Override.empty.merge).or none = _
    cases (loadPersistedPolicyOverrides rows).get? policyId with
    | none => rfl
    | some data => exact congrArg some data.empty_merge

end RetentionManager

end CryptoTrading.Retention
