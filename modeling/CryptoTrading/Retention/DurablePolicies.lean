import CryptoTrading.Retention.PolicyUpdates

/-!
# Policy changes that survive a restart

A change of a policy is made first and stored afterwards, as the audit event of the call.  A
manager that is started on the same configuration and database reads back, for each policy, the
latest row with a policy id that is not empty.

So a change whose event cannot be stored stays in effect until the manager stops, although the
call raised; after the restart it is gone.  Calls that do not change the terms of their policy, or
whose event is stored as the latest of their policy, keep the two managers alike, and these are
the only ones (`durable_afterCall_iff`).
-/

namespace CryptoTrading.Retention

open CryptoTrading.Lib

/-! ## §1 Effective policies, live and read back -/

/-- What a policy decides. -/
structure PolicyTerms where
  retentionPeriod : DurationText
  retentionMode : RetentionMode
  enabled : Bool
  gracePeriod : DurationText
  deriving DecidableEq

def RetentionPolicy.terms (p : RetentionPolicy) : PolicyTerms :=
  ⟨p.retentionPeriod, p.retentionMode, p.enabled, p.gracePeriod⟩

/-- The terms of a policy under the configuration and the stored rows. -/
def persistedTerms (config : RetentionConfig) (rows : List PolicyUpdatedRow) (policyId : String) :
    Option PolicyTerms :=
  (config.policies.get? policyId).bind fun settings =>
    ((buildPolicy config policyId settings
      ((loadPersistedPolicyOverrides rows).getD policyId .empty)).toOption).map (·.terms)

/-- The latest row of a policy counts; rows without a policy id are skipped. -/
theorem get?_loadPersistedPolicyOverrides (rows : List PolicyUpdatedRow) (policyId : String) :
    (loadPersistedPolicyOverrides rows).get? policyId =
      if policyId = "" then none
      else (latest PolicyUpdatedRow.time (rows.filter (·.policyId = policyId))).map
        PolicyUpdatedRow.toOverride := by
  unfold loadPersistedPolicyOverrides
  rw [filter_sortBy, get?_foldl_set_sortBy, List.filter_filter]
  split
  case isTrue hempty =>
    have hnone : (rows.filter fun row =>
        decide (row.policyId = policyId) && decide (row.policyId ≠ "")) = [] := by
      refine List.filter_eq_nil_iff.mpr fun row _ => ?_
      simp [hempty]
    rw [hnone]
    rfl
  case isFalse hne =>
    have hsame : (rows.filter fun row =>
        decide (row.policyId = policyId) && decide (row.policyId ≠ "")) =
          rows.filter fun row => decide (row.policyId = policyId) := by
      refine List.filter_congr fun row _ => ?_
      by_cases hid : row.policyId = policyId
      · simp [hid, hne]
      · simp [hid]
    rw [hsame]

/-- A row gives its policy the terms of its snapshot. -/
theorem terms_of_toOverride {config : RetentionConfig} {policyId : String}
    {settings : PolicySettings} {override : Override} {p : RetentionPolicy}
    (h : buildPolicy config policyId settings override = .ok p) {row : PolicyUpdatedRow}
    (hgrace : row.newValue.gracePeriod = p.gracePeriod) :
    (buildPolicy config policyId settings row.toOverride).toOption.map (·.terms) =
      some row.newValue.terms := by
  obtain ⟨hcategory, hresolve, -⟩ := buildPolicy_eq_ok.mp h
  simp [buildPolicy, hcategory, hresolve, bind, Except.bind, Except.toOption,
    RetentionPolicy.terms, PolicyUpdatedRow.toOverride, hgrace]

/-- The row, stored after the others, is the one that is read back for its policy. -/
def ReadBack (rows : List PolicyUpdatedRow) (row : PolicyUpdatedRow) : Prop :=
  row.policyId ≠ "" ∧ ∀ other ∈ rows, other.policyId = row.policyId → other.time ≤ row.time

instance (rows : List PolicyUpdatedRow) (row : PolicyUpdatedRow) : Decidable (ReadBack rows row) :=
  inferInstanceAs (Decidable (_ ∧ _))

theorem get?_loadPersistedPolicyOverrides_concat (rows : List PolicyUpdatedRow)
    (row : PolicyUpdatedRow) (policyId : String) :
    (loadPersistedPolicyOverrides (rows ++ [row])).get? policyId =
      if policyId = row.policyId ∧ ReadBack rows row then some row.toOverride
      else (loadPersistedPolicyOverrides rows).get? policyId := by
  rw [get?_loadPersistedPolicyOverrides, get?_loadPersistedPolicyOverrides, latest_filter_concat]
  by_cases hempty : policyId = ""
  · rw [if_pos hempty, if_pos hempty, if_neg]
    rintro ⟨hid, hne, -⟩
    exact hne (hid.symm.trans hempty)
  · rw [if_neg hempty, if_neg hempty]
    have hiff : (decide (row.policyId = policyId) = true ∧ ∀ other ∈ rows,
        decide (other.policyId = policyId) = true → other.time ≤ row.time) ↔
          policyId = row.policyId ∧ ReadBack rows row := by
      constructor
      · rintro ⟨hid, hlatest⟩
        obtain rfl : row.policyId = policyId := of_decide_eq_true hid
        exact ⟨rfl, hempty, fun other hother hsame => hlatest other hother (decide_eq_true hsame)⟩
      · rintro ⟨rfl, -, hlatest⟩
        exact ⟨decide_eq_true rfl, fun other hother hsame =>
          hlatest other hother (of_decide_eq_true hsame)⟩
    by_cases htaken : policyId = row.policyId ∧ ReadBack rows row
    · rw [if_pos (hiff.mpr htaken), if_pos htaken]
      rfl
    · rw [if_neg fun h => htaken (hiff.mp h), if_neg htaken]

/-- What a row changes in the terms that are read back. -/
theorem persistedTerms_concat {config : RetentionConfig} (rows : List PolicyUpdatedRow)
    {row : PolicyUpdatedRow} {p : RetentionPolicy} {settings : PolicySettings} {override : Override}
    (hsettings : config.policies.get? row.policyId = some settings)
    (hbuild : buildPolicy config row.policyId settings override = .ok p)
    (hgrace : row.newValue.gracePeriod = p.gracePeriod) (policyId : String) :
    persistedTerms config (rows ++ [row]) policyId =
      if policyId = row.policyId ∧ ReadBack rows row then some row.newValue.terms
      else persistedTerms config rows policyId := by
  unfold persistedTerms
  rw [Dict.getD, get?_loadPersistedPolicyOverrides_concat]
  by_cases htaken : policyId = row.policyId ∧ ReadBack rows row
  · rw [if_pos htaken, if_pos htaken, htaken.1, hsettings]
    exact terms_of_toOverride hbuild hgrace
  · rw [if_neg htaken, if_neg htaken]
    rfl

namespace RetentionManager

/-- The terms of the running manager. -/
def effective (m : RetentionManager) (policyId : String) : Option PolicyTerms :=
  (m.resolver.policies.get? policyId).map (·.terms)

/-- A manager starts with the terms that are read back. -/
theorem effective_of_start {config : RetentionConfig} {rows : List PolicyUpdatedRow}
    {m : RetentionManager} (h : start config rows = .ok m) :
    m.effective = persistedTerms config rows := by
  obtain ⟨hbuilt, hconfig, -, hoverrides⟩ := start_eq_ok h
  funext policyId
  unfold effective persistedTerms
  rw [hbuilt.get?_eq, hconfig, Dict.getD, hoverrides, ← Dict.getD]
  cases config.policies.get? policyId <;> rfl

/-- A configuration that a manager runs on can be started again. -/
theorem exists_start {m : RetentionManager} (hbuilt : m.resolver.Built)
    (rows : List PolicyUpdatedRow) : ∃ m', start m.resolver.config rows = .ok m' := by
  obtain ⟨policies, hpolicies⟩ := exists_rebuild_eq_ok hbuilt .empty
  unfold start RetentionPolicyResolver.new
  rw [hpolicies]
  dsimp only [bind, Except.bind]
  split <;> exact ⟨_, rfl⟩

/-! ## §2 One call -/

/-- The running manager has the terms that are read back from its database. -/
def Durable (m : RetentionManager) : Prop :=
  m.effective = persistedTerms m.resolver.config m.rows

/-- The call takes effect, and gives its policy another period, mode or enabled flag. -/
def ChangesTerms (m : RetentionManager) (c : PolicyCall) : Prop :=
  ∃ policy changes, Accepted m c policy changes ∧
    (changedPolicy policy changes).terms ≠ policy.terms

/-- The audit event of the call is stored, under a policy id that is not empty and not earlier than
    the rows of the policy. -/
def StoresLatest (m : RetentionManager) (c : PolicyCall) : Prop :=
  c.stored = true ∧ c.policyId ≠ "" ∧
    ∀ row ∈ m.rows, row.policyId = c.policyId → row.createdAt.micros ≤ c.recordedAt.micros

instance (m : RetentionManager) (c : PolicyCall) : Decidable (StoresLatest m c) :=
  inferInstanceAs (Decidable (_ ∧ _ ∧ _))

/-- The call either returns, or leaves the terms of the policies as they were. -/
def UnchangedIfRaised (m : RetentionManager) (c : PolicyCall) : Prop :=
  Raises m c → (m.afterCall c).effective = m.effective

theorem recordAudit_raises {m : RetentionManager} {c : PolicyCall} {newValue : RetentionPolicy} :
    (∃ error, (m.recordAudit c newValue).2 = .error error) ↔ c.stored = false := by
  unfold recordAudit
  cases c.stored <;> simp

theorem recordAudit_rows (m : RetentionManager) (c : PolicyCall) (newValue : RetentionPolicy) :
    (m.recordAudit c newValue).1.rows =
      if c.stored then m.rows ++ [auditRow c newValue] else m.rows := by
  unfold recordAudit
  split <;> rfl

/-- An accepted call changes the live terms at once, and those that are read back if its event is
    stored as the latest. -/
theorem accepted_afterCall {m : RetentionManager} (hbuilt : m.resolver.Built) {c : PolicyCall}
    {policy : RetentionPolicy} {changes : Option Override} (h : Accepted m c policy changes) :
    (Raises m c ↔ c.stored = false) ∧
    (∀ policyId, (m.afterCall c).effective policyId =
      if policyId = c.policyId then some (changedPolicy policy changes).terms
      else m.effective policyId) ∧
    (∀ policyId, persistedTerms (m.afterCall c).resolver.config (m.afterCall c).rows policyId =
      if policyId = c.policyId ∧ StoresLatest m c then some (changedPolicy policy changes).terms
      else persistedTerms m.resolver.config m.rows policyId) := by
  obtain ⟨resolver, -, hconfig, hget, heq⟩ := updatePolicy_accepted hbuilt h
  unfold Raises afterCall
  rw [heq]
  refine ⟨recordAudit_raises, ?_, ?_⟩
  · intro policyId
    rw [effective, recordAudit_resolver]
    show (resolver.policies.get? policyId).map _ = _
    rw [hget]
    split <;> rfl
  · intro policyId
    rw [recordAudit_resolver, recordAudit_rows]
    show persistedTerms resolver.config (if c.stored then m.rows ++ _ else m.rows) policyId = _
    rw [hconfig]
    -- without a stored event the live terms change and the persisted ones stay
    cases hstored : c.stored with
    | false =>
      rw [if_neg Bool.false_ne_true, if_neg]
      rintro ⟨-, hlatest, -⟩
      rw [hstored] at hlatest
      cases hlatest
    | true =>
      have hpolicy := hbuilt.get?_eq c.policyId
      rw [h.policy_eq] at hpolicy
      obtain ⟨settings, hsettings, hbuild⟩ := Option.bind_eq_some_iff.mp hpolicy.symm
      have hrow : m.resolver.config.policies.get?
          (auditRow c (changedPolicy policy changes)).policyId = some settings := hsettings
      have hstores : (policyId = c.policyId ∧ StoresLatest m c) ↔
          (policyId = (auditRow c (changedPolicy policy changes)).policyId ∧
            ReadBack m.rows (auditRow c (changedPolicy policy changes))) :=
        and_congr_right fun _ => and_iff_right hstored
      rw [if_pos rfl, persistedTerms_concat m.rows hrow (eq_ok_of_toOption hbuild)
        (gracePeriod_changedPolicy policy changes)]
      by_cases hread : policyId = c.policyId ∧ StoresLatest m c
      · rw [if_pos hread, if_pos (hstores.mp hread)]
        rfl
      · rw [if_neg hread, if_neg fun hr => hread (hstores.mpr hr)]

/-- Around one call, in a manager that agrees with its database. -/
theorem durable_afterCall_iff {m : RetentionManager} (hbuilt : m.resolver.Built) (h : Durable m)
    (c : PolicyCall) :
    (UnchangedIfRaised m c ∧ Durable (m.afterCall c)) ↔ (ChangesTerms m c → StoresLatest m c) := by
  by_cases haccepted : ∃ policy changes, Accepted m c policy changes
  · -- accepted: the live terms change at once, the stored ones if the writes succeed
    obtain ⟨policy, changes, haccepted⟩ := haccepted
    obtain ⟨hraises, hlive, hstored⟩ := accepted_afterCall hbuilt haccepted
    have hown : m.effective c.policyId = some policy.terms := by
      rw [effective, haccepted.policy_eq]
      rfl
    have hchanges : ChangesTerms m c ↔ (changedPolicy policy changes).terms ≠ policy.terms := by
      constructor
      · rintro ⟨policy', changes', haccepted', hne⟩
        obtain rfl := Option.some.inj (haccepted.policy_eq.symm.trans haccepted'.policy_eq)
        obtain rfl := Except.ok.inj (haccepted.valid.symm.trans haccepted'.valid)
        exact hne
      · intro hne
        exact ⟨policy, changes, haccepted, hne⟩
    rw [hchanges]
    constructor
    · rintro ⟨hunchanged, hdurable⟩ hne
      -- the live terms are new, so they must be those that are read back
      have hread := congrFun hdurable c.policyId
      rw [hlive, hstored, if_pos rfl] at hread
      by_contra hlatest
      rw [if_neg fun hl => hlatest hl.2, ← congrFun h c.policyId, hown] at hread
      exact hne (Option.some.inj hread)
    · intro hlatest
      by_cases hsame : (changedPolicy policy changes).terms = policy.terms
      · have heffective : (m.afterCall c).effective = m.effective := by
          funext policyId
          rw [hlive]
          split
          case isTrue hid => rw [hid, hown, hsame]
          case isFalse => rfl
        refine ⟨fun _ => heffective, ?_⟩
        unfold Durable
        rw [heffective]
        funext policyId
        rw [hstored, ← congrFun h policyId]
        split
        case isTrue hid => rw [hid.1, hown, hsame]
        case isFalse => rfl
      · -- new terms that are stored as the latest: nothing raised, both sides agree
        have hstores := hlatest hsame
        refine ⟨fun hraised => ?_, ?_⟩
        · have hlost := hraises.mp hraised
          rw [hstores.1] at hlost
          cases hlost
        · funext policyId
          rw [hlive, hstored, ← congrFun h policyId]
          by_cases hid : policyId = c.policyId
          · rw [if_pos hid, if_pos ⟨hid, hstores⟩]
          · rw [if_neg hid, if_neg fun hl => hid hl.1]
  · -- refused: the manager is the one before
    obtain ⟨error, hrefused⟩ := updatePolicy_refused haccepted
    have hafter : m.afterCall c = m := by rw [afterCall, hrefused]
    rw [UnchangedIfRaised, hafter]
    constructor
    · rintro - ⟨policy, changes, h', -⟩
      exact absurd ⟨policy, changes, h'⟩ haccepted
    · intro _
      exact ⟨fun _ => rfl, h⟩

/-! ## §3 The failing input -/

/-- One enabled policy. -/
def metricPolicy : RetentionConfig where
  enabled := true
  dryRun := true
  batchSize := 1000
  gracePeriod := "7d"
  policies := .ofList
    [("metric_samples", ⟨none, ⟨"KEEP", none, parseDuration_keep⟩, .delete, true, none⟩)]

/-- The policy is switched off, under a name that does not fit into the `actor` column when the
    event is not stored. -/
def disableMetrics (stored : Bool) : PolicyCall where
  policyId := "metric_samples"
  retentionPeriod := none
  retentionMode := none
  enabled := some false
  actor := some (if stored then "ops" else String.ofList (List.replicate 65 'a'))
  confirm := false
  now := .min
  recordedAt := .min
  stored := stored

/-- The call raises; the running manager has the policy off, and one that is started on the same
    database has it on. -/
theorem disableMetrics_lost : ∃ m m', start metricPolicy [] = .ok m ∧
    start metricPolicy (run afterCall m [disableMetrics false]).rows = .ok m' ∧
    Raises m (disableMetrics false) ∧
    (run afterCall m [disableMetrics false]).effective ≠ m.effective ∧
    (run afterCall m [disableMetrics false]).effective ≠ m'.effective := by
  refine ⟨_, _, rfl, rfl, ⟨_, rfl⟩, ?_, ?_⟩
  · intro heq
    have hpolicy := congrFun heq "metric_samples"
    cases hpolicy
  · intro heq
    have hpolicy := congrFun heq "metric_samples"
    cases hpolicy

/-! ## §4 Sequences of calls -/

/-- **Policy changes are durable** exactly when every call that gives its policy other terms stores
    them as the latest: then, along a sequence of calls, the ones that raised changed no policy, and
    at every point a manager started on the same configuration and database has the same policies.

    The override is made before the audit event is stored, and a new manager reads the latest events
    back. -/
theorem policyChanges_durable_iff {config : RetentionConfig} {rows : List PolicyUpdatedRow}
    {m : RetentionManager} (hstart : start config rows = .ok m) (calls : List PolicyCall) :
    (Along afterCall UnchangedIfRaised m calls ∧
      ∀ done, done <+: calls → ∃ m', start config (run afterCall m done).rows = .ok m' ∧
        m'.effective = (run afterCall m done).effective) ↔
      Along afterCall (fun m c => ChangesTerms m c → StoresLatest m c) m calls := by
  obtain ⟨hbuilt, hconfig, hrows, -⟩ := start_eq_ok hstart
  have hdurable : Durable m := by rw [Durable, effective_of_start hstart, hconfig, hrows]
  have hrun : ∀ done, (run afterCall m done).resolver.Built ∧
      (run afterCall m done).resolver.config = config := by
    intro done
    refine run_invariant (fun m : RetentionManager => m.resolver.Built ∧ m.resolver.config = config)
      ?_ ⟨hbuilt, hconfig⟩ done
    intro m c h
    obtain ⟨hb, hc⟩ := built_afterCall h.1 c
    exact ⟨hb, hc.trans h.2⟩
  -- a restart has the terms of the running manager when these are the ones read back
  have hrestart : ∀ done, (∃ m', start config (run afterCall m done).rows = .ok m' ∧
      m'.effective = (run afterCall m done).effective) ↔ Durable (run afterCall m done) := by
    intro done
    obtain ⟨hb, hc⟩ := hrun done
    unfold Durable
    rw [hc]
    constructor
    · rintro ⟨m', hstart', heq⟩
      rw [← heq, effective_of_start hstart']
    · intro h
      obtain ⟨m', hstart'⟩ := exists_start hb (run afterCall m done).rows
      rw [hc] at hstart'
      exact ⟨m', hstart', (effective_of_start hstart').trans h.symm⟩
  have hpoints : (∀ done, done <+: calls → ∃ m', start config (run afterCall m done).rows = .ok m' ∧
      m'.effective = (run afterCall m done).effective) ↔
        Along afterCall (fun m c => Durable (m.afterCall c)) m calls := by
    simp only [hrestart]
    rw [forall_prefix_iff_along, and_iff_right hdurable]
  rw [hpoints, ← along_and]
  refine along_iff_of_invariant (fun m : RetentionManager => m.resolver.Built ∧ Durable m)
    (fun m c h => durable_afterCall_iff h.1 h.2 c) ?_ ⟨hbuilt, hdurable⟩ calls
  intro m c h hstores
  exact ⟨(built_afterCall h.1 c).1, ((durable_afterCall_iff h.1 h.2 c).mpr hstores).2⟩

/-- The policy is switched off and on again, and both events are stored. -/
def switches : List PolicyCall :=
  [disableMetrics true, { disableMetrics true with enabled := some true, confirm := true }]

theorem switches_stored : ∃ m, start metricPolicy [] = .ok m ∧
    Along afterCall (fun m c => ChangesTerms m c → StoresLatest m c) m switches :=
  ⟨_, rfl, fun _ => by decide +kernel, fun _ => by decide +kernel, trivial⟩

theorem policyChanges_durable_disable : ∃ m, start metricPolicy [] = .ok m ∧
    ∃ m', start metricPolicy (run afterCall m switches).rows = .ok m' ∧
      m'.effective = (run afterCall m switches).effective := by
  obtain ⟨m, hstart, hstores⟩ := switches_stored
  exact ⟨m, hstart,
    ((policyChanges_durable_iff hstart switches).mpr hstores).2 switches List.prefix_rfl⟩

end RetentionManager

end CryptoTrading.Retention
