import CryptoTrading.Lib.Run
import CryptoTrading.Retention.Handlers

/-!
# Retention runs

Embeds `RetentionManager._run_once`, `preview` and `execute` (`src/retention/manager.py`).

The policies are evaluated one after the other.  A policy that deletes is a sweep: a category and a
cutoff (`RetentionPolicy.sweep?`).  What a run does to the data is what its sweeps do
(`data_runPolicies`), and what it reports of a policy is what the handler of its category found and
deleted in the data that the policies before it left (`evaluatePolicy_eq_ok`).

The runs and audit events that are stored, and the lock, are left out.  A run that raises is rolled
back in the database, while the files and the observations that it deleted stay deleted.
-/

namespace CryptoTrading.Retention

open CryptoTrading.Lib

variable {N : Type}

/-! ## §1 Running the policies -/

/-- `RetentionRun`. -/
structure RetentionRun where
  dryRun : Bool
  categories : List CategoryOutcome
  storageReclaimedBytes : Option ℕ
  deriving DecidableEq

/-- `_determine_skip_reason`; every category has a handler. -/
def determineSkipReason (p : RetentionPolicy) (holds : List Hold) : Option String :=
  if !p.enabled then some "DISABLED"
  else if isCategoryHeld holds p.dataCategory then some "LEGAL_HOLD"
  else none

/-- `_skipped`. -/
def skippedOutcome (p : RetentionPolicy) (reason : String) : CategoryOutcome where
  dataCategory := p.dataCategory
  policyId := p.policyId
  retentionMode := p.retentionMode
  examined := 0
  eligible := 0
  deleted := 0
  skipped := 0
  skippedReasons := [⟨reason, 0, none⟩]
  storageBytes := none

variable (fs : FileSystem) (config : RetentionConfig) (now : Instant)

/-- `_evaluate_policy`.  A cutoff that cannot be computed is raised; it is computed before the
    handler, whose errors are caught. -/
def evaluatePolicy (dryRun : Bool) (data : RetainedData N) (p : RetentionPolicy) :
    Except RetentionError (CategoryOutcome × RetainedData N) :=
  match determineSkipReason p data.database.holds with
  | some reason => .ok (skippedOutcome p reason, data)
  | none => do
    let cutoff ← p.cutoff now
    let ctx : RetentionContext :=
      { policy := p
        cutoff := cutoff
        batchSize := config.batchSize
        heldEntityIds := getHeldEntityIds data.database.holds p.dataCategory }
    .ok ((defaultHandler fs p.dataCategory).act ctx dryRun data)

/-- The loop over the policies. -/
def runPolicies (dryRun : Bool) :
    RetainedData N → List RetentionPolicy →
      RetainedData N × Except RetentionError (List CategoryOutcome)
  | data, [] => (data, .ok [])
  | data, p :: rest =>
    match evaluatePolicy fs config now dryRun data p with
    | .error error => (data, .error error)
    | .ok (outcome, next) =>
      let more := runPolicies dryRun next rest
      (more.1, more.2.map (outcome :: ·))

/-- `sum((category.storage_bytes or 0) for category in run.categories) or None`. -/
def reclaimedBytes (outcomes : List CategoryOutcome) : Option ℕ :=
  let total := (outcomes.map fun outcome => outcome.storageBytes.getD 0).sum
  if total = 0 then none else some total

/-- `_run_once`. -/
def runOnce (policies : List RetentionPolicy) (dryRun : Bool) (data : RetainedData N) :
    RetainedData N × Except RetentionError RetentionRun :=
  if config.enabled then
    match runPolicies fs config now dryRun data policies with
    | (left, .ok outcomes) => (left, .ok ⟨dryRun, outcomes, reclaimedBytes outcomes⟩)
    | (left, .error error) => ({ left with database := data.database }, .error error)
  else (data, .ok ⟨dryRun, [], none⟩)

/-- `preview`. -/
def preview (policies : List RetentionPolicy) (data : RetainedData N) :
    RetainedData N × Except RetentionError RetentionRun :=
  runOnce fs config now policies true data

/-- `execute`. -/
def execute (policies : List RetentionPolicy) (data : RetainedData N) :
    RetainedData N × Except RetentionError RetentionRun :=
  runOnce fs config now policies config.dryRun data

/-! ## §2 Sweeps -/

/-- What a policy deletes: all of a category before a time. -/
structure Sweep where
  category : DataCategory
  cutoff : Instant
  deriving DecidableEq

/-- The sweep of a policy that deletes at a time. -/
def RetentionPolicy.sweep? (p : RetentionPolicy) (holds : List Hold) : Option Sweep :=
  if p.enabled && !isCategoryHeld holds p.dataCategory && p.retentionMode = .delete then
    match p.cutoff now with
    | .ok (some cutoff) => some ⟨p.dataCategory, cutoff⟩
    | _ => none
  else none

/-- The handler of a sweep deletes. -/
def Sweep.remove (sweep : Sweep) (data : RetainedData N) : Removal N :=
  (defaultHandler fs sweep.category).remove config.batchSize sweep.cutoff
    (getHeldEntityIds data.database.holds sweep.category) data

/-- How much the handler of a sweep finds. -/
def Sweep.eligible (sweep : Sweep) (data : RetainedData N) : ℕ :=
  ((defaultHandler fs sweep.category).find sweep.cutoff
    (getHeldEntityIds data.database.holds sweep.category) data).eligible

/-- The data after a sweep. -/
def sweepStep (data : RetainedData N) (sweep : Sweep) : RetainedData N :=
  (sweep.remove fs config data).data

/-- The data after a policy. -/
def policyStep (data : RetainedData N) (p : RetentionPolicy) : RetainedData N :=
  (p.sweep? now data.database.holds).elim data (sweepStep fs config data)

variable {fs config now}

theorem sweep?_category {p : RetentionPolicy} {holds : List Hold} {sweep : Sweep}
    (h : p.sweep? now holds = some sweep) : sweep.category = p.dataCategory := by
  unfold RetentionPolicy.sweep? at h
  split at h
  · split at h
    · rw [← Option.some.inj h]
    · cases h
  · cases h

/-- Only a policy of mode `DELETE` that is enabled and whose category is not held sweeps. -/
theorem of_sweep? {p : RetentionPolicy} {holds : List Hold} {sweep : Sweep}
    (h : p.sweep? now holds = some sweep) :
    p.enabled = true ∧ isCategoryHeld holds p.dataCategory = false ∧ p.retentionMode = .delete ∧
      p.cutoff now = .ok (some sweep.cutoff) := by
  unfold RetentionPolicy.sweep? at h
  split at h
  case isTrue hdeletes =>
    simp only [Bool.and_eq_true, Bool.not_eq_true', decide_eq_true_eq] at hdeletes
    split at h
    · rename_i cutoff hcutoff
      rw [← Option.some.inj h]
      exact ⟨hdeletes.1.1, hdeletes.1.2, hdeletes.2, hcutoff⟩
    · cases h
  case isFalse => cases h

/-- The handler that keeps everything finds and deletes nothing. -/
theorem keeps_defaultHandler {p : RetentionPolicy} (henabled : p.enabled = true)
    (hkeeps : (defaultHandler (N := N) fs p.dataCategory).keeps p = true) (batch : ℤ)
    (cutoff : Instant) (held : List String) (data : RetainedData N) :
    ((defaultHandler fs p.dataCategory).find cutoff held data).eligible = 0 ∧
      (defaultHandler fs p.dataCategory).remove batch cutoff held data = ⟨data, 0, [], none⟩ := by
  cases hcategory : p.dataCategory
  case trace | metrics | runtimeAlert | experimentArtifact | report | marketData |
      applicationLog =>
    rw [hcategory] at hkeeps
    cases hkeeps
  case marketDataBuffer =>
    rw [hcategory] at hkeeps
    simp [defaultHandler, marketDataBufferHandler, henabled] at hkeeps
  case financial | tradingDecision | experiment | configHistory | cache => exact ⟨rfl, rfl⟩

/-- What a policy does and reports, when its cutoff can be computed.

    It is said in terms of the sweep of the policy, so that the handlers need not be looked at
    again. -/
structure Evaluated (fs : FileSystem) (config : RetentionConfig) (now : Instant) (dryRun : Bool)
    (data : RetainedData N) (p : RetentionPolicy) (outcome : CategoryOutcome)
    (next : RetainedData N) : Prop where
  policyId : outcome.policyId = p.policyId
  retentionMode : outcome.retentionMode = p.retentionMode
  dataLeft : next = if dryRun then data else policyStep fs config now data p
  eligible : p.retentionMode = .delete →
    outcome.eligible = (p.sweep? now data.database.holds).elim 0 (Sweep.eligible fs · data)
  deleted : outcome.deleted = if dryRun then 0 else
    (p.sweep? now data.database.holds).elim 0 fun sweep => (sweep.remove fs config data).deleted

/-- A policy that does not sweep leaves everything as it was. -/
theorem Evaluated.of_not_sweep {dryRun : Bool} {data : RetainedData N} {p : RetentionPolicy}
    {outcome : CategoryOutcome} (hsweep : p.sweep? now data.database.holds = none)
    (hid : outcome.policyId = p.policyId) (hmode : outcome.retentionMode = p.retentionMode)
    (heligible : p.retentionMode = .delete → outcome.eligible = 0)
    (hdeleted : outcome.deleted = 0) :
    Evaluated fs config now dryRun data p outcome data where
  policyId := hid
  retentionMode := hmode
  dataLeft := by simp [policyStep, hsweep]
  eligible h := by simp [hsweep, heligible h]
  deleted := by simp [hsweep, hdeleted]

theorem evaluatePolicy_eq_ok {dryRun : Bool} {data next : RetainedData N} {p : RetentionPolicy}
    {outcome : CategoryOutcome}
    (h : evaluatePolicy fs config now dryRun data p = .ok (outcome, next)) :
    Evaluated fs config now dryRun data p outcome next := by
  unfold evaluatePolicy at h
  split at h
  case h_1 reason hskip =>
    -- the policy is skipped: it is disabled, or its category is held
    obtain ⟨rfl, rfl⟩ := Prod.mk.inj (Except.ok.inj h)
    refine .of_not_sweep ?_ rfl rfl (fun _ => rfl) rfl
    unfold determineSkipReason at hskip
    unfold RetentionPolicy.sweep?
    by_cases henabled : p.enabled = true
    · by_cases hheld : isCategoryHeld data.database.holds p.dataCategory = true
      · simp [hheld]
      · simp [henabled, hheld] at hskip
    · simp [henabled]
  case h_2 hskip =>
    -- the policy is enabled and not held; the cutoff may raise
    have hdeletes : p.enabled = true ∧
        isCategoryHeld data.database.holds p.dataCategory = false := by
      unfold determineSkipReason at hskip
      cases henabled : p.enabled <;>
        cases hheld : isCategoryHeld data.database.holds p.dataCategory <;>
        simp [henabled, hheld] at hskip ⊢
    obtain ⟨henabled, hheld⟩ := hdeletes
    obtain ⟨cutoff?, hcutoff, h⟩ := bind_eq_ok.mp h
    have h := Except.ok.inj h
    cases cutoff? with
    | none =>
      -- a policy without a cutoff keeps everything
      obtain ⟨rfl, rfl⟩ := Prod.mk.inj h
      exact .of_not_sweep (by simp [RetentionPolicy.sweep?, hcutoff]) rfl rfl (fun _ => rfl) rfl
    | some cutoff =>
      by_cases hmode : p.retentionMode = .delete
      case neg =>
        -- a mode that does not delete leaves the data, whatever the handler is
        have hsweep : p.sweep? now data.database.holds = none := by
          simp [RetentionPolicy.sweep?, hmode]
        simp only [RetentionHandler.act] at h
        split at h
        · obtain ⟨rfl, rfl⟩ := Prod.mk.inj h
          exact .of_not_sweep hsweep rfl rfl (fun _ => rfl) rfl
        · cases hmode' : p.retentionMode with
          | delete => exact absurd hmode' hmode
          | keep =>
            rw [hmode'] at h
            obtain ⟨rfl, rfl⟩ := Prod.mk.inj h
            exact .of_not_sweep hsweep rfl rfl (fun _ => rfl) rfl
          | archive =>
            rw [hmode'] at h
            obtain ⟨rfl, rfl⟩ := Prod.mk.inj h
            exact .of_not_sweep hsweep rfl rfl (fun hdelete => absurd hdelete hmode) rfl
          | aggregateThenDelete =>
            rw [hmode'] at h
            obtain ⟨rfl, rfl⟩ := Prod.mk.inj h
            exact .of_not_sweep hsweep rfl rfl (fun hdelete => absurd hdelete hmode) rfl
      case pos =>
        have hsweep : p.sweep? now data.database.holds = some ⟨p.dataCategory, cutoff⟩ := by
          simp [RetentionPolicy.sweep?, henabled, hheld, hmode, hcutoff]
        simp only [RetentionHandler.act, hmode] at h
        split at h
        case isTrue hkeeps =>
          -- a handler that keeps everything finds nothing and removes nothing
          obtain ⟨hfind, hremove⟩ := keeps_defaultHandler henabled hkeeps config.batchSize cutoff
            (getHeldEntityIds data.database.holds p.dataCategory) data
          obtain ⟨rfl, rfl⟩ := Prod.mk.inj h
          refine ⟨rfl, rfl, ?_, fun _ => ?_, ?_⟩
          · simp [policyStep, hsweep, sweepStep, Sweep.remove, hremove]
          · simp [hsweep, Sweep.eligible, hfind, RetentionHandler.kept, RetentionHandler.base]
          · simp [hsweep, Sweep.remove, hremove, RetentionHandler.kept, RetentionHandler.base]
        case isFalse hkeeps =>
          cases dryRun with
          | true =>
            -- a dry run counts and leaves the data
            obtain ⟨rfl, rfl⟩ := Prod.mk.inj h
            exact ⟨rfl, rfl, rfl, fun _ => by rw [hsweep]; rfl, rfl⟩
          | false =>
            -- an execution removes what is eligible
            obtain ⟨rfl, rfl⟩ := Prod.mk.inj h
            exact ⟨rfl, rfl, by simp [policyStep, hsweep, sweepStep, Sweep.remove],
              fun _ => by rw [hsweep]; rfl, by rw [hsweep]; rfl⟩

/-! ## §3 Runs that go through -/

/-- What a run that goes through reports, policy by policy. -/
inductive EvaluatedAll (fs : FileSystem) (config : RetentionConfig) (now : Instant)
    (dryRun : Bool) : RetainedData N → List RetentionPolicy → List CategoryOutcome → Prop
  | nil {data : RetainedData N} : EvaluatedAll fs config now dryRun data [] []
  | cons {data next : RetainedData N} {p : RetentionPolicy} {rest : List RetentionPolicy}
      {outcome : CategoryOutcome} {outcomes : List CategoryOutcome}
      (head : Evaluated fs config now dryRun data p outcome next)
      (tail : EvaluatedAll fs config now dryRun next rest outcomes) :
      EvaluatedAll fs config now dryRun data (p :: rest) (outcome :: outcomes)

theorem runPolicies_eq_ok {dryRun : Bool} {data : RetainedData N} {ps : List RetentionPolicy}
    {outcomes : List CategoryOutcome}
    (h : (runPolicies fs config now dryRun data ps).2 = .ok outcomes) :
    EvaluatedAll fs config now dryRun data ps outcomes := by
  induction ps generalizing data outcomes with
  | nil =>
    obtain rfl := Except.ok.inj h
    exact .nil
  | cons p rest ih =>
    rw [runPolicies] at h
    split at h
    case h_1 error _ => cases h
    case h_2 outcome next hp =>
      simp only at h
      cases hrest : (runPolicies fs config now dryRun next rest).2 with
      | error error =>
        rw [hrest] at h
        cases h
      | ok more =>
        rw [hrest] at h
        obtain rfl := Except.ok.inj h
        exact .cons (evaluatePolicy_eq_ok hp) (ih hrest)

variable (fs config now) in
/-- The data after the policies that were reached: all of them, unless the run raises. -/
theorem data_runPolicies (dryRun : Bool) (data : RetainedData N) (ps : List RetentionPolicy) :
    ∃ reached, reached <+: ps ∧
      (runPolicies fs config now dryRun data ps).1 =
        (if dryRun then data else run (policyStep fs config now) data reached) ∧
      ∀ outcomes, (runPolicies fs config now dryRun data ps).2 = .ok outcomes → reached = ps := by
  induction ps generalizing data with
  | nil => exact ⟨[], List.prefix_refl _, by simp [runPolicies], fun _ _ => rfl⟩
  | cons p rest ih =>
    rw [runPolicies]
    split
    case h_1 error _ => exact ⟨[], List.nil_prefix, by simp, fun _ h => by cases h⟩
    case h_2 outcome next hp =>
      obtain ⟨reached, hreached, hdata, hall⟩ := ih next
      have hnext := (evaluatePolicy_eq_ok hp).dataLeft
      refine ⟨p :: reached, List.cons_prefix_cons.mpr ⟨rfl, hreached⟩, ?_, fun outcomes h => ?_⟩
      · rw [hdata]
        cases dryRun with
        | true => exact hnext
        | false => rw [hnext]; rfl
      · cases hrest : (runPolicies fs config now dryRun next rest).2 with
        | error error =>
          simp only [hrest] at h
          cases h
        | ok more => rw [hall more hrest]

/-! ## §4 A plain setting -/

/-- Microseconds of a day. -/
def dayMicros : ℕ := 86400 * 10 ^ 6

theorem Instant.onDay_inRange (day : ℕ) :
    day % 3652059 * dayMicros < 3652059 * 86400 * 10 ^ 6 := by
  have hday : day % 3652059 < 3652059 := Nat.mod_lt day (Nat.succ_pos _)
  unfold dayMicros
  generalize day % 3652059 = d at hday
  omega

/-- The start of a day. -/
def Instant.onDay (day : ℕ) : Instant := ⟨day % 3652059 * dayMicros, onDay_inRange day⟩

theorem Timedelta.thirtyDays_inRange : 30 * 86400 < 86400 * 10 ^ 9 := by decide

theorem parseDuration_thirtyDays :
    parseDuration "30d" = .ok (some ⟨30 * 86400, Timedelta.thirtyDays_inRange⟩) := by
  decide +kernel

theorem parseDuration_zeroDays : parseDuration "0d" = .ok (some .zero) := by
  decide +kernel

/-- An enabled policy that deletes after thirty days. -/
def thirtyDayPolicy (policyId : String) (category : DataCategory) : RetentionPolicy where
  policyId := policyId
  dataCategory := category
  retentionPeriod :=
    ⟨"30d", some ⟨30 * 86400, Timedelta.thirtyDays_inRange⟩, parseDuration_thirtyDays⟩
  retentionMode := .delete
  enabled := true
  gracePeriod := ⟨"0d", some .zero, parseDuration_zeroDays⟩
  updatedAt := none
  updatedBy := none

/-- Retention that deletes. -/
def deletingConfig : RetentionConfig where
  enabled := true
  dryRun := false
  batchSize := 500
  gracePeriod := "0d"
  policies := .empty

def plainFiles : FileSystem := ⟨"data/datasets", fun _ => false⟩

/-- Nothing is stored. -/
def RetainedData.empty : RetainedData N where
  database :=
    { orders := 0
      trades := 0
      tradingDecisions := 0
      commits := 0
      timelineItems := .empty
      metricSamples := .empty
      incidents := .empty
      errorEvents := .empty
      backtestSessions := .empty
      walkForwardRuns := .empty
      experiments := .empty
      holds := [] }
  datasets := .empty
  logFiles := .empty
  observations := []

end CryptoTrading.Retention
