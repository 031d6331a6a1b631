import CryptoTrading.Retention.PolicyUpdates

/-!
# Changes of a retention policy without confirmation

A record is deletable when its policy is enabled, has mode `DELETE` and a cutoff later than the
record.  `update_policy` without `confirm` refuses changes that shorten retention or enable
destructive cleanup; the test compares the two periods only when both are finite.

So a period of `KEEP` can be replaced by a finite one without confirmation, and records that were
kept indefinitely become deletable.  This is the only way (`noLooser_afterCall_iff`).
-/

namespace CryptoTrading.Retention

open CryptoTrading.Lib

/-! ## §1 The confirmation test on policies -/

/-- What `requires_confirmation` tests. -/
def NeedsConfirmation (old new : RetentionPolicy) : Prop :=
  (new.retentionMode.isDestructive = true ∧ new.retentionMode ≠ old.retentionMode) ∨
    (new.retentionMode.isDestructive = true ∧ old.enabled = false ∧ new.enabled = true) ∨
    isShorter new.periodDelta old.periodDelta = true

/-- The texts of a policy are valid, so the test does not raise. -/
theorem requiresConfirmation_texts (old new : RetentionPolicy) :
    ∃ required, requiresConfirmation old.texts new.texts = .ok required ∧
      (required = true ↔ NeedsConfirmation old new) := by
  unfold requiresConfirmation RetentionPolicy.texts NeedsConfirmation
  simp only [RetentionMode.ofValue_value, bind, Except.bind, old.retentionPeriod.parses,
    new.retentionPeriod.parses]
  by_cases hmode : new.retentionMode.isDestructive = true ∧ new.retentionMode ≠ old.retentionMode
  · exact ⟨true, by rw [if_pos hmode], by simp [hmode]⟩
  · rw [if_neg hmode]
    by_cases henabled : new.retentionMode.isDestructive = true ∧ ¬ old.enabled = true ∧
        new.enabled = true
    · refine ⟨true, by rw [if_pos henabled], ?_⟩
      simp [henabled.1, Bool.eq_false_iff.mpr henabled.2.1, henabled.2.2]
    · refine ⟨isShorter new.periodDelta old.periodDelta, by rw [if_neg henabled]; rfl, ?_⟩
      constructor
      · intro hshorter
        exact .inr (.inr hshorter)
      · rintro (h | h | h)
        · exact absurd h hmode
        · exact absurd ⟨h.1, by simp [h.2.1], h.2.2⟩ henabled
        · exact h

theorem RetentionMode.value_of_ofValue {value : String} {mode : RetentionMode}
    (h : RetentionMode.ofValue value = .ok mode) : mode.value = value := by
  unfold RetentionMode.ofValue at h
  split at h
  case h_1 found hfound =>
    rw [← Except.ok.inj h]
    simpa using List.find?_some hfound
  case h_2 => cases h

/-- What an optional argument is read as determines it. -/
theorem map_of_mapM {B : Type} {read : String → Except RetentionError B} {write : B → String}
    (hwrite : ∀ text b, read text = .ok b → write b = text) {argument : Option String}
    {value : Option B} (h : argument.mapM read = .ok value) : value.map write = argument := by
  cases argument with
  | none =>
    obtain rfl : none = value := Except.ok.inj h
    rfl
  | some text =>
    obtain ⟨b, hb, hvalue⟩ := bind_eq_ok.mp h
    obtain rfl : some b = value := Except.ok.inj hvalue
    rw [Option.map_some, hwrite text b hb]

/-- The candidate of a valid call has the texts of the policy that the call makes. -/
theorem candidate_eq_texts {c : PolicyCall} {changes : Option Override}
    (h : readChanges c = .ok changes) (p : RetentionPolicy) :
    p.texts.candidate c = (RetentionManager.changedPolicy p changes).texts := by
  obtain ⟨period, hperiod, hrest⟩ := bind_eq_ok.mp h
  obtain ⟨mode, hmode, hchanges⟩ := bind_eq_ok.mp hrest
  have hperiodText := map_of_mapM (fun _ _ => DurationText.ofText_eq_ok.mp) hperiod
  have hmodeText := map_of_mapM (fun _ _ => RetentionMode.value_of_ofValue) hmode
  unfold PolicyTexts.candidate
  rw [← hperiodText, ← hmodeText]
  split at hchanges
  case isTrue hnone =>
    obtain ⟨rfl, rfl, henabled⟩ := hnone
    rw [← Except.ok.inj hchanges, henabled]
    rfl
  case isFalse =>
    rw [← Except.ok.inj hchanges]
    simp only [RetentionPolicy.texts, RetentionManager.changedPolicy, RetentionPolicy.changedBy]
    cases period <;> cases mode <;> rfl

/-! ## §2 Deletable records -/

/-- A record of the policy with this timestamp is deletable. -/
def RetentionPolicy.Deletable (p : RetentionPolicy) (now timestamp : Instant) : Prop :=
  p.enabled = true ∧ p.retentionMode = .delete ∧
    ∃ cutoff, p.cutoff now = .ok (some cutoff) ∧ timestamp.micros < cutoff.micros

/-- A finite period keeps records up to a longer time, an indefinite one forever. -/
theorem deletable_iff {p : RetentionPolicy} {now timestamp : Instant} :
    p.Deletable now timestamp ↔ p.enabled = true ∧ p.retentionMode = .delete ∧
      ∃ period, p.periodDelta = some period ∧
        timestamp.micros + p.graceDelta.micros + period.micros < now.micros := by
  unfold RetentionPolicy.Deletable
  refine and_congr_right fun _ => and_congr_right fun _ => ?_
  constructor
  · rintro ⟨cutoff, hcutoff, hlt⟩
    obtain ⟨period, hperiod, hnow⟩ := RetentionPolicy.cutoff_eq_some.mp hcutoff
    exact ⟨period, hperiod, by omega⟩
  · rintro ⟨period, hperiod, hlt⟩
    have hrange := now.inRange
    refine ⟨⟨now.micros - period.micros - p.graceDelta.micros, by omega⟩,
      RetentionPolicy.cutoff_eq_some.mpr ⟨period, hperiod, ?_⟩, ?_⟩
    · show now.micros = now.micros - period.micros - p.graceDelta.micros + _ + _
      omega
    · show timestamp.micros < now.micros - period.micros - p.graceDelta.micros
      omega

/-- An indefinite period of an enabled `DELETE` policy becomes one that can run out before
    `datetime.max`. -/
def EndsKeeping (old new : RetentionPolicy) : Prop :=
  old.enabled = true ∧ old.retentionMode = .delete ∧ old.periodDelta = none ∧
    new.enabled = true ∧ new.retentionMode = .delete ∧
    ∃ period, new.periodDelta = some period ∧
      1 + new.graceDelta.micros + period.micros < 3652059 * 86400 * 10 ^ 6

/-- A change that needs no confirmation makes records deletable exactly when it ends an
    indefinite retention. -/
theorem forall_deletable_iff {old new : RetentionPolicy}
    (hgrace : new.gracePeriod = old.gracePeriod)
    (hconfirm : ¬ NeedsConfirmation old new) :
    (∀ now timestamp, new.Deletable now timestamp → old.Deletable now timestamp) ↔
      ¬ EndsKeeping old new := by
  have hgraceDelta : new.graceDelta = old.graceDelta := by
    rw [RetentionPolicy.graceDelta, hgrace]
    rfl
  constructor
  · rintro h ⟨-, -, hkeep, henabled, hmode, period, hperiod, hrange⟩
    -- the first instant at which the oldest record can be deleted
    have hnew : new.Deletable ⟨1 + new.graceDelta.micros + period.micros, hrange⟩
        ⟨0, Nat.lt_of_le_of_lt (Nat.zero_le _) hrange⟩ := by
      refine deletable_iff.mpr ⟨henabled, hmode, period, hperiod, ?_⟩
      show 0 + new.graceDelta.micros + period.micros < 1 + new.graceDelta.micros + period.micros
      omega
    obtain ⟨-, -, period', hperiod', -⟩ := deletable_iff.mp (h _ _ hnew)
    rw [hkeep] at hperiod'
    cases hperiod'
  · intro hends now timestamp hnew
    obtain ⟨henabled, hmode, period, hperiod, hlt⟩ := deletable_iff.mp hnew
    have hdestructive : new.retentionMode.isDestructive = true := by rw [hmode]; rfl
    -- what the confirmation test excludes
    have holdMode : old.retentionMode = .delete := by
      by_contra hne
      exact hconfirm (.inl ⟨hdestructive, by rw [hmode]; exact Ne.symm hne⟩)
    have holdEnabled : old.enabled = true := by
      by_contra hne
      exact hconfirm (.inr (.inl ⟨hdestructive, Bool.eq_false_iff.mpr hne, henabled⟩))
    have hshorter : isShorter new.periodDelta old.periodDelta = false := by
      by_contra hne
      exact hconfirm (.inr (.inr (by simpa using hne)))
    refine deletable_iff.mpr ⟨holdEnabled, holdMode, ?_⟩
    cases hold : old.periodDelta with
    | none =>
      have hrange := now.inRange
      exact absurd ⟨holdEnabled, holdMode, hold, henabled, hmode, period, hperiod, by omega⟩ hends
    | some oldPeriod =>
      rw [hperiod, hold] at hshorter
      have hle : oldPeriod.seconds ≤ period.seconds := by simpa [isShorter] using hshorter
      have hmicros : oldPeriod.micros ≤ period.micros := Nat.mul_le_mul_right _ hle
      rw [hgraceDelta] at hlt
      exact ⟨oldPeriod, rfl, by omega⟩

/-! ## §3 Calls and sequences of calls -/

namespace RetentionManager

/-- A record of this policy is deletable. -/
def Deletable (m : RetentionManager) (policyId : String) (now timestamp : Instant) : Prop :=
  ∃ p, m.resolver.policies.get? policyId = some p ∧ p.Deletable now timestamp

/-- What is deletable under `m'` is deletable under `m`. -/
def NoLooser (m m' : RetentionManager) : Prop :=
  ∀ policyId now timestamp, m'.Deletable policyId now timestamp → m.Deletable policyId now timestamp

/-- The call takes effect, and ends the indefinite retention of its policy. -/
def CallEndsKeeping (m : RetentionManager) (c : PolicyCall) : Prop :=
  ∃ policy changes, Accepted m c policy changes ∧ EndsKeeping policy (changedPolicy policy changes)

theorem noLooser_refl (m : RetentionManager) : NoLooser m m := fun _ _ _ h => h

theorem noLooser_trans (m₁ m₂ m₃ : RetentionManager) (h₁₂ : NoLooser m₁ m₂)
    (h₂₃ : NoLooser m₂ m₃) : NoLooser m₁ m₃ :=
  fun policyId now timestamp h => h₁₂ policyId now timestamp (h₂₃ policyId now timestamp h)

/-- An accepted call without confirmation needs none. -/
theorem Accepted.not_needsConfirmation {m : RetentionManager} {c : PolicyCall}
    {policy : RetentionPolicy} {changes : Option Override} (h : Accepted m c policy changes)
    (hconfirm : c.confirm = false) : ¬ NeedsConfirmation policy (changedPolicy policy changes) := by
  intro hneeds
  obtain ⟨required, hrequired, hpass⟩ := h.confirmed
  rw [candidate_eq_texts h.valid] at hrequired
  obtain ⟨required', hrequired', hiff⟩ :=
    requiresConfirmation_texts policy (changedPolicy policy changes)
  obtain rfl := Except.ok.inj (hrequired.symm.trans hrequired')
  rw [hpass (hiff.mpr hneeds)] at hconfirm
  cases hconfirm

/-- A call without confirmation loosens retention exactly when it ends an indefinite one. -/
theorem noLooser_afterCall_iff {m : RetentionManager} (hbuilt : m.resolver.Built) {c : PolicyCall}
    (hconfirm : c.confirm = false) : NoLooser m (m.afterCall c) ↔ ¬ CallEndsKeeping m c := by
  -- a refused call changes nothing; an accepted one that needs no confirmation is looser only by
  -- ending an indefinite retention
  by_cases haccepted : ∃ policy changes, Accepted m c policy changes
  · obtain ⟨policy, changes, haccepted⟩ := haccepted
    obtain ⟨resolver, -, -, hget, heq⟩ := updatePolicy_accepted hbuilt haccepted
    have hafter : (m.afterCall c).resolver = resolver := by
      rw [afterCall, heq, recordAudit_resolver]
    have hpolicies := forall_deletable_iff (gracePeriod_changedPolicy policy changes)
      (haccepted.not_needsConfirmation hconfirm)
    have hends : CallEndsKeeping m c ↔ EndsKeeping policy (changedPolicy policy changes) := by
      constructor
      · rintro ⟨policy', changes', haccepted', h⟩
        obtain rfl := Option.some.inj (haccepted.policy_eq.symm.trans haccepted'.policy_eq)
        obtain rfl := Except.ok.inj (haccepted.valid.symm.trans haccepted'.valid)
        exact h
      · intro h
        exact ⟨policy, changes, haccepted, h⟩
    rw [hends, ← hpolicies]
    constructor
    · intro h now timestamp hnew
      have hown := h c.policyId now timestamp
        ⟨changedPolicy policy changes, by rw [hafter, hget, if_pos rfl], hnew⟩
      obtain ⟨p, hp, hdeletable⟩ := hown
      obtain rfl := Option.some.inj (haccepted.policy_eq.symm.trans hp)
      exact hdeletable
    · intro h policyId now timestamp hnew
      obtain ⟨p, hp, hdeletable⟩ := hnew
      rw [hafter, hget] at hp
      split at hp
      case isTrue hid =>
        obtain rfl := Option.some.inj hp
        exact ⟨policy, hid ▸ haccepted.policy_eq, h now timestamp hdeletable⟩
      case isFalse => exact ⟨p, hp, hdeletable⟩
  · obtain ⟨error, hrefused⟩ := updatePolicy_refused haccepted
    rw [afterCall, hrefused]
    constructor
    · rintro - ⟨policy, changes, h, -⟩
      exact haccepted ⟨policy, changes, h⟩
    · intro _
      exact noLooser_refl m

/-- A refused confirmation changes nothing. -/
theorem afterCall_of_confirmationRequired {m : RetentionManager} (hbuilt : m.resolver.Built)
    {c : PolicyCall} {message : String}
    (h : (m.updatePolicy c).2 = .error (.confirmationRequired message)) : m.afterCall c = m := by
  rcases accepted_or_refused m c with ⟨policy, changes, haccepted⟩ | ⟨error, hrefused⟩
  · obtain ⟨resolver, -, -, -, heq⟩ := updatePolicy_accepted hbuilt haccepted
    rw [heq, recordAudit] at h
    split at h <;> cases h
  · rw [afterCall, hrefused]

/-! ## §4 The failing input -/

/-- An enabled `DELETE` policy that keeps its records indefinitely. -/
def keepForever : RetentionConfig where
  enabled := true
  dryRun := true
  batchSize := 1000
  gracePeriod := "7d"
  policies := .ofList
    [("metric_samples", ⟨none, ⟨"KEEP", none, parseDuration_keep⟩, .delete, true, none⟩)]

/-- A period of 30 days, and nothing else, without confirmation. -/
def thirtyDays : PolicyCall where
  policyId := "metric_samples"
  retentionPeriod := some "30d"
  retentionMode := none
  enabled := none
  actor := some "api"
  confirm := false
  now := .min
  recordedAt := .min
  stored := true

/-- The policy before and after the call. -/
theorem thirtyDays_taken : ∃ m, start keepForever [] = .ok m ∧
    ∃ old, m.resolver.policies.get? "metric_samples" = some old ∧ old.periodDelta = none ∧
      ∃ new, (run afterCall m [thirtyDays]).resolver.policies.get? "metric_samples" = some new ∧
        new.enabled = true ∧ new.retentionMode = .delete ∧
        (∃ period, new.periodDelta = some period ∧ period.seconds = 30 * 86400) ∧
        new.graceDelta.seconds = 7 * 86400 :=
  ⟨_, rfl, _, rfl, rfl, _, rfl, rfl, rfl, ⟨_, rfl, rfl⟩, rfl⟩

/-- Records that were kept indefinitely are deletable after a call without confirmation. -/
theorem keepForever_loosened :
    ∃ m, start keepForever [] = .ok m ∧ ¬ NoLooser m (run afterCall m [thirtyDays]) := by
  obtain ⟨m, hstart, old, hold, hkeep, new, hnew, henabled, hmode, ⟨period, hperiod, hdays⟩,
    hgrace⟩ := thirtyDays_taken
  refine ⟨m, hstart, fun h => ?_⟩
  -- a record of the first instant, a microsecond after period and grace have passed
  have hdeletable : new.Deletable ⟨37 * 86400 * 10 ^ 6 + 1, by decide⟩ .min := by
    refine deletable_iff.mpr ⟨henabled, hmode, period, hperiod, ?_⟩
    rw [Timedelta.micros, Timedelta.micros, hgrace, hdays]
    decide
  obtain ⟨p, hp, hbefore⟩ := h "metric_samples" _ _ ⟨new, hnew, hdeletable⟩
  obtain rfl := Option.some.inj (hold.symm.trans hp)
  obtain ⟨-, -, period, hfinite, -⟩ := deletable_iff.mp hbefore
  rw [hkeep] at hfinite
  cases hfinite

/-! ## §5 Sequences of calls -/

/-- **Nothing becomes deletable without a confirmation** exactly when no call ends an indefinite
    retention, in a sequence of calls without confirmation; and refused calls change nothing.

    The periods are compared where both are finite, so a period in place of an indefinite one
    passes. -/
theorem unconfirmedCalls_noLooser_iff {config : RetentionConfig} {rows : List PolicyUpdatedRow}
    {m : RetentionManager} (hstart : start config rows = .ok m) {calls : List PolicyCall}
    (hconfirm : ∀ c ∈ calls, c.confirm = false) :
    (Along afterCall (fun m c => ∀ message,
        (m.updatePolicy c).2 = .error (.confirmationRequired message) → m.afterCall c = m) m calls ∧
      ∀ before after, before ++ after <+: calls →
        NoLooser (run afterCall m before) (run afterCall m (before ++ after))) ↔
      Along afterCall (fun m c => ¬ CallEndsKeeping m c) m calls := by
  obtain ⟨hbuilt, -, -, -⟩ := start_eq_ok hstart
  have hconfirms : Along afterCall (fun _ c => c.confirm = false) m calls :=
    along_of_forall hconfirm m
  have hrefused : Along afterCall (fun m c => ∀ message,
      (m.updatePolicy c).2 = .error (.confirmationRequired message) → m.afterCall c = m) m calls :=
    along_of_invariant (fun m => m.resolver.Built)
      (fun m c hb _ => ⟨(built_afterCall hb c).1, fun _ => afterCall_of_confirmationRequired hb⟩)
      hbuilt hconfirms
  -- around one call, with the confirmation kept beside the condition
  have hsteps :
      Along afterCall (fun m c => NoLooser m (m.afterCall c) ∧ c.confirm = false) m calls ↔
      Along afterCall (fun m c => ¬ CallEndsKeeping m c ∧ c.confirm = false) m calls :=
    along_iff_of_invariant (fun m => m.resolver.Built)
      (fun m c hb => and_congr_left fun hc => noLooser_afterCall_iff hb hc)
      (fun m c hb _ => (built_afterCall hb c).1) hbuilt calls
  rw [along_and, along_and, and_iff_left hconfirms, and_iff_left hconfirms] at hsteps
  rw [and_iff_right hrefused, rel_between_iff_along noLooser_refl noLooser_trans, hsteps]

/-- Switching the policy off instead, and giving it the period then. -/
def switchOff : List PolicyCall :=
  [{ thirtyDays with retentionPeriod := none, enabled := some false },
    { thirtyDays with enabled := some false }]

theorem enabled_of_readChanges {c : PolicyCall} {changes : Option Override}
    (h : readChanges c = .ok changes) {enabled : Bool} (henabled : c.enabled = some enabled) :
    ∃ data, changes = some data ∧ data.enabled = some enabled := by
  unfold readChanges at h
  cases hperiod : c.retentionPeriod.mapM DurationText.ofText with
  | error e =>
    rw [hperiod] at h
    cases h
  | ok period =>
    cases hmode : c.retentionMode.mapM RetentionMode.ofValue with
    | error e =>
      rw [hperiod, hmode] at h
      cases h
    | ok mode =>
      rw [hperiod, hmode] at h
      simp only [henabled, reduceCtorEq, and_false] at h
      obtain rfl := Except.ok.inj h
      exact ⟨_, rfl, rfl⟩

/-- A policy that is off has no deletable records, whatever its period. -/
theorem not_callEndsKeeping_of_off {m : RetentionManager} {c : PolicyCall}
    (hoff : c.enabled = some false) : ¬ CallEndsKeeping m c := by
  rintro ⟨policy, changes, haccepted, -, -, -, henabled, -⟩
  obtain ⟨data, rfl, hdata⟩ := enabled_of_readChanges haccepted.valid hoff
  simp [changedPolicy, RetentionPolicy.changedBy, hdata] at henabled

/-- The sequence that switches the policy off loosens nothing. -/
theorem unconfirmedCalls_noLooser_switchOff : ∃ m, start keepForever [] = .ok m ∧
    ∀ before after, before ++ after <+: switchOff →
      NoLooser (run afterCall m before) (run afterCall m (before ++ after)) := by
  obtain ⟨m, hstart, -⟩ := thirtyDays_taken
  have hconfirm : ∀ c ∈ switchOff, c.confirm = false := by simp [switchOff, thirtyDays]
  have halong : Along afterCall (fun m c => ¬ CallEndsKeeping m c) m switchOff :=
    ⟨not_callEndsKeeping_of_off rfl, not_callEndsKeeping_of_off rfl, trivial⟩
  exact ⟨m, hstart, ((unconfirmedCalls_noLooser_iff hstart hconfirm).mpr halong).2⟩

end RetentionManager

end CryptoTrading.Retention
