import CryptoTrading.Retention.References

/-!
# What a preview tells

A preview evaluates every policy on the data as it is, while a run deletes between one policy and
the next.  What a preview finds eligible for a policy is what the run deletes for it, unless the
sweeps before have changed that: by deleting the same things first, or, for datasets, by deleting
the reports that referred to them (`previewTells_iff`).
-/

namespace CryptoTrading.Retention

open CryptoTrading.Lib

variable {N : Type}

/-! ## §1 What sweeps disturb -/

/-- The earlier of two times. -/
def Instant.earlier (a b : Instant) : Instant := if a.micros ≤ b.micros then a else b

theorem Instant.lt_earlier {a b : Instant} {n : ℕ} :
    n < (a.earlier b).micros ↔ n < a.micros ∧ n < b.micros := by
  unfold Instant.earlier
  split <;> omega

theorem Instant.lt_timestamp_earlier {a b : Instant} {n : ℤ} :
    n < (a.earlier b).timestamp ↔ n < a.timestamp ∧ n < b.timestamp := by
  unfold Instant.earlier Instant.timestamp
  split <;> omega

/-- The datasets that came free: eligible with the references that the sweeps left, but not before
    them. -/
def comesFree (batch : ℤ) (db : Database N) (sweeps : List Sweep) (cutoff : Instant) (id : String)
    (dataset : Dataset) : Bool :=
  isEligibleDataset cutoff (getHeldEntityIds db.holds .marketData)
      (collectDatasetReferences (databaseLeft batch db sweeps)) id dataset &&
    id ∈ collectDatasetReferences db

/-- The sweeps before a sweep leave as much for it as there was without them.

    For datasets, as many that came free are still there as eligible ones were taken.  For anything
    else, no earlier sweep of the category finds what this one does. -/
def Undisturbed (fs : FileSystem) (batch : ℤ) (data : RetainedData N) (sweeps : List Sweep)
    (sweep : Sweep) : Prop :=
  match sweep.category with
  | .experimentArtifact => True
  | .marketData =>
    (data.datasets.count fun id dataset =>
        comesFree batch data.database sweeps sweep.cutoff id dataset &&
          !datasetTaken batch data.database id dataset [] sweeps) =
      data.datasets.count fun id dataset =>
        isEligibleDataset sweep.cutoff (getHeldEntityIds data.database.holds .marketData)
            (collectDatasetReferences data.database) id dataset &&
          datasetTaken batch data.database id dataset [] sweeps
  | category => ∀ earlier ∈ sweeps, earlier.category = category →
      Sweep.eligible fs ⟨category, earlier.cutoff.earlier sweep.cutoff⟩ data = 0

/-- A sweep counts as much as without the sweeps before, if nothing it counts was old for them. -/
theorem countP_not_sweptBy {A : Type} (eligible : Instant → A → Bool)
    (hearlier : ∀ a b x, eligible (a.earlier b) x = (eligible a x && eligible b x))
    (sweeps : List Sweep) (category : DataCategory) (cutoff : Instant) (l : List A) :
    (l.countP fun x => eligible cutoff x &&
        !sweptBy sweeps category fun earlier => eligible earlier x) = l.countP (eligible cutoff) ↔
      ∀ earlier ∈ sweeps, earlier.category = category →
        l.countP (eligible (earlier.cutoff.earlier cutoff)) = 0 := by
  have hsplit := List.countP_eq_countP_filter_add l (eligible cutoff) fun x =>
    sweptBy sweeps category fun earlier => eligible earlier x
  have hnone : (l.countP fun x => eligible cutoff x &&
      sweptBy sweeps category fun earlier => eligible earlier x) = 0 ↔
        ∀ earlier ∈ sweeps, earlier.category = category →
          l.countP (eligible (earlier.cutoff.earlier cutoff)) = 0 := by
    simp only [List.countP_eq_zero, hearlier, Bool.and_eq_true, not_and, sweptBy_eq_true]
    constructor
    · intro h earlier hmem hcategory x hx hbefore hcutoff
      exact h x hx hcutoff ⟨earlier, hmem, hcategory, hbefore⟩
    · rintro h x hx hcutoff ⟨earlier, hmem, hcategory, hbefore⟩
      exact h earlier hmem hcategory x hx hbefore hcutoff
  rw [← hnone]
  simp only [List.countP_filter] at hsplit
  omega

theorem countP_not_sweptBy_le {A : Type} (eligible : Instant → A → Bool) (sweeps : List Sweep)
    (category : DataCategory) (cutoff : Instant) (l : List A) :
    (l.countP fun x => eligible cutoff x &&
      !sweptBy sweeps category fun earlier => eligible earlier x) ≤ l.countP (eligible cutoff) :=
  List.countP_mono_left fun _ _ h => (Bool.and_eq_true_iff.mp h).1

/-! ## §2 What the handlers count -/

theorem isExpired_earlier (a b : Instant) (held : List String) (id : String) (timestamp : Instant) :
    isExpired (a.earlier b) held id timestamp =
      (isExpired a held id timestamp && isExpired b held id timestamp) := by
  rw [Bool.eq_iff_iff]
  simp only [isExpired, Instant.lt_earlier, Bool.and_eq_true, decide_eq_true_eq]
  tauto

theorem isEligibleReport_earlier (a b : Instant) (held referenced : List String) (id : String)
    (report : Report N) :
    isEligibleReport (a.earlier b) held referenced id report =
      (isEligibleReport a held referenced id report &&
        isEligibleReport b held referenced id report) := by
  rw [Bool.eq_iff_iff]
  simp only [isEligibleReport, Instant.lt_earlier, Bool.and_eq_true, decide_eq_true_eq]
  tauto

theorem isOldLog_earlier (a b : Instant) (name : String) (file : StoredFile) :
    isOldLog (a.earlier b) name file = (isOldLog a name file && isOldLog b name file) := by
  rw [Bool.eq_iff_iff]
  simp only [isOldLog, StoredFile.isOld, Instant.lt_timestamp_earlier, Bool.and_eq_true,
    decide_eq_true_eq]
  tauto

theorem isOld_earlier (a b : Instant) (observation : Observation) :
    observation.isOld (a.earlier b) = (observation.isOld a && observation.isOld b) := by
  rw [Bool.eq_iff_iff]
  simp only [Observation.isOld, Instant.lt_timestamp_earlier, Bool.and_eq_true, decide_eq_true_eq]

/-- The rows that a sweep deletes after others. -/
theorem deleted_rowsLeft {V : Type} (timestamp : V → Instant) {batch : ℤ} (hbatch : 0 < batch)
    (held : List String) (category : DataCategory) (sweeps : List Sweep) (cutoff : Instant)
    (rows : Dict String V) :
    (bulkDeleteBefore timestamp batch cutoff held
        (rowsLeft timestamp batch held category sweeps rows)).2 =
      rows.entries.countP fun e => isExpired cutoff held e.1 (timestamp e.2) &&
        !sweptBy sweeps category fun earlier => isExpired earlier held e.1 (timestamp e.2) := by
  rw [bulkDeleteBefore_snd timestamp hbatch, rowsLeft, Dict.count_filter]
  simp [Dict.count, hbatch]

theorem deleted_rowsLeft_iff {V : Type} (timestamp : V → Instant) {batch : ℤ} (hbatch : 0 < batch)
    (held : List String) (category : DataCategory) (sweeps : List Sweep) (cutoff : Instant)
    (rows : Dict String V) :
    (bulkDeleteBefore timestamp batch cutoff held
        (rowsLeft timestamp batch held category sweeps rows)).2 =
      (rows.count fun id row => isExpired cutoff held id (timestamp row)) ↔
    ∀ earlier ∈ sweeps, earlier.category = category →
      (rows.count fun id row =>
        isExpired (earlier.cutoff.earlier cutoff) held id (timestamp row)) = 0 := by
  rw [deleted_rowsLeft timestamp hbatch]
  exact countP_not_sweptBy
    (fun cutoff (e : String × V) => isExpired cutoff held e.1 (timestamp e.2))
    (fun a b e => isExpired_earlier a b held e.1 (timestamp e.2)) sweeps category cutoff
    rows.entries

theorem deleted_rowsLeft_le {V : Type} (timestamp : V → Instant) {batch : ℤ} (hbatch : 0 < batch)
    (held : List String) (category : DataCategory) (sweeps : List Sweep) (cutoff : Instant)
    (rows : Dict String V) :
    (bulkDeleteBefore timestamp batch cutoff held
        (rowsLeft timestamp batch held category sweeps rows)).2 ≤
      rows.count fun id row => isExpired cutoff held id (timestamp row) := by
  rw [deleted_rowsLeft timestamp hbatch]
  exact countP_not_sweptBy_le
    (fun cutoff (e : String × V) => isExpired cutoff held e.1 (timestamp e.2)) sweeps category
    cutoff
    rows.entries

/-- The reports that a sweep deletes after others. -/
theorem deleted_reportsLeft (batch : ℤ) (held referenced : List String) (sweeps : List Sweep)
    (cutoff : Instant) (reports : Dict String (Report N)) :
    (deleteReports batch cutoff held referenced (reportsLeft held referenced sweeps reports)).2 =
      reports.entries.countP fun e => isEligibleReport cutoff held referenced e.1 e.2 &&
        !sweptBy sweeps .report fun earlier =>
          isEligibleReport earlier held referenced e.1 e.2 := by
  unfold deleteReports
  rw [Dict.deleteChunks_select, reportsLeft]
  simp only [Dict.count_filter]
  rfl

theorem deleted_reportsLeft_iff (batch : ℤ) (held referenced : List String) (sweeps : List Sweep)
    (cutoff : Instant) (reports : Dict String (Report N)) :
    (deleteReports batch cutoff held referenced (reportsLeft held referenced sweeps reports)).2 =
      reports.count (isEligibleReport cutoff held referenced) ↔
    ∀ earlier ∈ sweeps, earlier.category = .report →
      reports.count (isEligibleReport (earlier.cutoff.earlier cutoff) held referenced) = 0 := by
  rw [deleted_reportsLeft]
  exact countP_not_sweptBy
    (fun cutoff (e : String × Report N) => isEligibleReport cutoff held referenced e.1 e.2)
    (fun a b e => isEligibleReport_earlier a b held referenced e.1 e.2) sweeps .report cutoff
    reports.entries

theorem deleted_reportsLeft_le (batch : ℤ) (held referenced : List String) (sweeps : List Sweep)
    (cutoff : Instant) (reports : Dict String (Report N)) :
    (deleteReports batch cutoff held referenced (reportsLeft held referenced sweeps reports)).2 ≤
      reports.count (isEligibleReport cutoff held referenced) := by
  rw [deleted_reportsLeft]
  exact countP_not_sweptBy_le
    (fun cutoff (e : String × Report N) => isEligibleReport cutoff held referenced e.1 e.2) sweeps
    .report cutoff reports.entries

/-- Two counts that can only fall stay the same together. -/
theorem add_eq_add_iff_forall {sweeps : List Sweep} {category : DataCategory} {a a' b b' : ℕ}
    {f g : Sweep → ℕ} (ha : a ≤ a') (hb : b ≤ b')
    (hf : a = a' ↔ ∀ earlier ∈ sweeps, earlier.category = category → f earlier = 0)
    (hg : b = b' ↔ ∀ earlier ∈ sweeps, earlier.category = category → g earlier = 0) :
    a + b = a' + b' ↔
      ∀ earlier ∈ sweeps, earlier.category = category → f earlier + g earlier = 0 := by
  have hsum : a + b = a' + b' ↔ a = a' ∧ b = b' := by omega
  rw [hsum, hf, hg]
  constructor
  · rintro ⟨hfirst, hsecond⟩ earlier hmem hcategory
    rw [hfirst earlier hmem hcategory, hsecond earlier hmem hcategory]
  · intro h
    exact ⟨fun earlier hmem hcategory => (Nat.add_eq_zero_iff.mp (h earlier hmem hcategory)).1,
      fun earlier hmem hcategory => (Nat.add_eq_zero_iff.mp (h earlier hmem hcategory)).2⟩

/-- The events and incidents that a sweep deletes after others. -/
theorem deleted_alertsLeft_iff {batch : ℤ} (hbatch : 0 < batch) (held : List String)
    (sweeps : List Sweep) (cutoff : Instant) (incidents left : Dict String Instant)
    (events : Dict String ErrorEvent) :
    (bulkDeleteBefore ErrorEvent.timestamp batch cutoff held (detachEvents incidents left
        (rowsLeft ErrorEvent.timestamp batch held .runtimeAlert sweeps events))).2 +
      (bulkDeleteBefore id batch cutoff held
        (rowsLeft id batch held .runtimeAlert sweeps incidents)).2 =
      (events.count fun id event => isExpired cutoff held id event.timestamp) +
        incidents.count (isExpired cutoff held) ↔
    ∀ earlier ∈ sweeps, earlier.category = .runtimeAlert →
      (events.count fun id event =>
          isExpired (earlier.cutoff.earlier cutoff) held id event.timestamp) +
        incidents.count (isExpired (earlier.cutoff.earlier cutoff) held) = 0 := by
  have hdetached : (bulkDeleteBefore ErrorEvent.timestamp batch cutoff held (detachEvents incidents
      left (rowsLeft ErrorEvent.timestamp batch held .runtimeAlert sweeps events))).2 =
    (bulkDeleteBefore ErrorEvent.timestamp batch cutoff held
      (rowsLeft ErrorEvent.timestamp batch held .runtimeAlert sweeps events)).2 := by
    rw [bulkDeleteBefore_snd _ hbatch, bulkDeleteBefore_snd _ hbatch, detachEvents,
      Dict.count_mapValues]
  rw [hdetached]
  exact add_eq_add_iff_forall
    (deleted_rowsLeft_le ErrorEvent.timestamp hbatch held .runtimeAlert sweeps cutoff events)
    (deleted_rowsLeft_le id hbatch held .runtimeAlert sweeps cutoff incidents)
    (deleted_rowsLeft_iff ErrorEvent.timestamp hbatch held .runtimeAlert sweeps cutoff events)
    (deleted_rowsLeft_iff id hbatch held .runtimeAlert sweeps cutoff incidents)

/-- The sessions and runs that a sweep deletes after others. -/
theorem deleted_bothReportsLeft_iff (batch : ℤ) (held : List String) (sweeps : List Sweep)
    (cutoff : Instant) (db : Database N) :
    (deleteReports batch cutoff held (sessionReferences db)
        (reportsLeft held (sessionReferences db) sweeps db.backtestSessions)).2 +
      (deleteReports batch cutoff held (runReferences db)
        (reportsLeft held (runReferences db) sweeps db.walkForwardRuns)).2 =
      db.backtestSessions.count (isEligibleReport cutoff held (sessionReferences db)) +
        db.walkForwardRuns.count (isEligibleReport cutoff held (runReferences db)) ↔
    ∀ earlier ∈ sweeps, earlier.category = .report →
      db.backtestSessions.count
          (isEligibleReport (earlier.cutoff.earlier cutoff) held (sessionReferences db)) +
        db.walkForwardRuns.count
          (isEligibleReport (earlier.cutoff.earlier cutoff) held (runReferences db)) = 0 :=
  add_eq_add_iff_forall (deleted_reportsLeft_le batch held _ sweeps cutoff db.backtestSessions)
    (deleted_reportsLeft_le batch held _ sweeps cutoff db.walkForwardRuns)
    (deleted_reportsLeft_iff batch held _ sweeps cutoff db.backtestSessions)
    (deleted_reportsLeft_iff batch held _ sweeps cutoff db.walkForwardRuns)

/-! ## §3 Datasets -/

section Datasets

variable {fs : FileSystem} (hfiles : ∀ path, fs.unlinkFails path = false)
include hfiles

/-- Where `unlink` does not fail, both files of a dataset go. -/
theorem unlinkDataset_eq (id : String) (dataset : Dataset) :
    unlinkDataset fs id dataset = ⟨none, none⟩ := by
  simp [unlinkDataset, unlinked, hfiles]

theorem isFullyDeleted_eq (id : String) (dataset : Dataset) :
    isFullyDeleted fs id dataset = true := by
  simp [isFullyDeleted, unlinkDataset_eq hfiles]

/-- The datasets that a sweep deletes after others: those that are eligible then, and still
    there. -/
theorem deleted_datasetsLeft (batch : ℤ) (data : RetainedData N) (sweeps : List Sweep)
    (cutoff : Instant) :
    (((datasetsLeft fs batch data.database sweeps data.datasets).filter
        (isEligibleDataset cutoff (getHeldEntityIds data.database.holds .marketData)
          (collectDatasetReferences (databaseLeft batch data.database sweeps)))).count
      (isFullyDeleted fs)) =
      data.datasets.count fun id dataset =>
        isEligibleDataset cutoff (getHeldEntityIds data.database.holds .marketData)
            (collectDatasetReferences (databaseLeft batch data.database sweeps)) id dataset &&
          !datasetTaken batch data.database id dataset [] sweeps := by
  rw [Dict.count_filter, datasetsLeft, Dict.count_mapEntries]
  refine Dict.count_congr fun e _ => ?_
  rw [isFullyDeleted_eq hfiles, Bool.true_and]
  cases datasetTaken batch data.database e.1 e.2 [] sweeps with
  | false => simp
  | true => simp [unlinkDataset_eq hfiles, isEligibleDataset]

/-- As many are deleted as were eligible before, when those that came free make up for those that
    were taken. -/
theorem deleted_datasetsLeft_iff (batch : ℤ) (data : RetainedData N) (sweeps : List Sweep)
    (cutoff : Instant) :
    (((datasetsLeft fs batch data.database sweeps data.datasets).filter
        (isEligibleDataset cutoff (getHeldEntityIds data.database.holds .marketData)
          (collectDatasetReferences (databaseLeft batch data.database sweeps)))).count
      (isFullyDeleted fs)) =
      data.datasets.count (isEligibleDataset cutoff
        (getHeldEntityIds data.database.holds .marketData)
          (collectDatasetReferences data.database)) ↔
    Undisturbed fs batch data sweeps ⟨.marketData, cutoff⟩ := by
  have hnil : databaseLeft batch data.database [] = data.database :=
    congrArg RetainedData.database (leftBy_nil fs batch data)
  have hsubset := collectDatasetReferences_subset batch data.database [] sweeps
  rw [hnil, List.nil_append] at hsubset
  rw [deleted_datasetsLeft hfiles]
  -- what is eligible after the sweeps was eligible before, or came free
  have hafter := Dict.count_eq_add data.datasets
    (fun id dataset => isEligibleDataset cutoff (getHeldEntityIds data.database.holds .marketData)
        (collectDatasetReferences (databaseLeft batch data.database sweeps)) id dataset &&
      !datasetTaken batch data.database id dataset [] sweeps)
    fun id _ => id ∈ collectDatasetReferences data.database
  have hbefore := Dict.count_eq_add data.datasets
    (isEligibleDataset cutoff (getHeldEntityIds data.database.holds .marketData)
      (collectDatasetReferences data.database))
    fun id dataset => datasetTaken batch data.database id dataset [] sweeps
  have hfree : (data.datasets.count fun id dataset =>
      (isEligibleDataset cutoff (getHeldEntityIds data.database.holds .marketData)
          (collectDatasetReferences (databaseLeft batch data.database sweeps)) id dataset &&
        !datasetTaken batch data.database id dataset [] sweeps) &&
      decide (id ∈ collectDatasetReferences data.database)) =
      data.datasets.count fun id dataset =>
        comesFree batch data.database sweeps cutoff id dataset &&
          !datasetTaken batch data.database id dataset [] sweeps :=
    Dict.count_congr fun e _ => Bool.and_right_comm _ _ _
  -- references only go, so what is not referenced before is not referenced after
  have hstays : (data.datasets.count fun id dataset =>
      (isEligibleDataset cutoff (getHeldEntityIds data.database.holds .marketData)
          (collectDatasetReferences (databaseLeft batch data.database sweeps)) id dataset &&
        !datasetTaken batch data.database id dataset [] sweeps) &&
      !decide (id ∈ collectDatasetReferences data.database)) =
      data.datasets.count fun id dataset =>
        isEligibleDataset cutoff (getHeldEntityIds data.database.holds .marketData)
            (collectDatasetReferences data.database) id dataset &&
          !datasetTaken batch data.database id dataset [] sweeps := by
    refine Dict.count_congr fun e _ => ?_
    by_cases hmem : e.1 ∈ collectDatasetReferences data.database
    · simp [isEligibleDataset, hmem]
    · have hmem' : e.1 ∉ collectDatasetReferences (databaseLeft batch data.database sweeps) :=
        fun h => hmem (hsubset h)
      simp [isEligibleDataset, hmem, hmem']
  simp only [Undisturbed]
  omega

end Datasets

/-! ## §4 One sweep -/

/-- A sweep deletes after others what it finds eligible without them, exactly when it is
    undisturbed. -/
theorem deleted_leftBy_iff {fs : FileSystem} {config : RetentionConfig}
    (hfiles : ∀ path, fs.unlinkFails path = false) (hbatch : 0 < config.batchSize)
    (data : RetainedData N) (sweeps : List Sweep) (sweep : Sweep) :
    (sweep.remove fs config (leftBy fs config.batchSize data sweeps)).deleted =
        sweep.eligible fs data ↔
      Undisturbed fs config.batchSize data sweeps sweep := by
  obtain ⟨category, cutoff⟩ := sweep
  cases category
  case trace => exact deleted_rowsLeft_iff id hbatch _ .trace sweeps cutoff _
  case metrics => exact deleted_rowsLeft_iff id hbatch _ .metrics sweeps cutoff _
  case runtimeAlert => exact deleted_alertsLeft_iff hbatch _ sweeps cutoff _ _ _
  case report =>
    simp only [Sweep.remove, defaultHandler, reportHandler, leftBy, sessionReferences_databaseLeft,
      runReferences_databaseLeft]
    exact deleted_bothReportsLeft_iff config.batchSize _ sweeps cutoff data.database
  case experimentArtifact =>
    refine iff_of_true ?_ trivial
    simp only [Sweep.remove, Sweep.eligible, defaultHandler, experimentArtifactHandler, leftBy,
      databaseLeft, experimentsLeft, Dict.count_mapEntries]
    -- a trimmed report is still an old report
    refine Dict.count_congr fun e _ => ?_
    split
    · rw [hasOldReport_compact]
    · rfl
  case marketData => exact deleted_datasetsLeft_iff hfiles config.batchSize data sweeps cutoff
  case applicationLog =>
    have hdeleted : (Sweep.remove fs config ⟨.applicationLog, cutoff⟩
        (leftBy fs config.batchSize data sweeps)).deleted =
      data.logFiles.entries.countP fun e => isOldLog cutoff e.1 e.2 &&
        !sweptBy sweeps .applicationLog fun earlier => isOldLog earlier e.1 e.2 := by
      simp only [Sweep.remove, defaultHandler, applicationLogHandler, leftBy, logFilesLeft, hfiles,
        Bool.not_false, Bool.and_true, Dict.filter_true, Dict.length_filter, Dict.count_filter]
      rfl
    rw [hdeleted]
    exact countP_not_sweptBy (fun cutoff (e : String × StoredFile) => isOldLog cutoff e.1 e.2)
      (fun a b e => isOldLog_earlier a b e.1 e.2) sweeps .applicationLog cutoff
      data.logFiles.entries
  case marketDataBuffer =>
    have hdeleted : (Sweep.remove fs config ⟨.marketDataBuffer, cutoff⟩
        (leftBy fs config.batchSize data sweeps)).deleted =
      data.observations.countP fun observation => observation.isOld cutoff &&
        !sweptBy sweeps .marketDataBuffer fun earlier => observation.isOld earlier :=
      List.countP_filter
    rw [hdeleted]
    exact countP_not_sweptBy (fun cutoff observation => Observation.isOld cutoff observation)
      isOld_earlier sweeps .marketDataBuffer cutoff data.observations
  case financial | tradingDecision | experiment | configHistory | cache =>
    exact iff_of_true rfl fun _ _ _ => rfl

/-! ## §5 The run -/

/-- What was deleted for a policy is what the preview found eligible, and nothing in other modes
    than `DELETE`. -/
def OutcomeTold (previewed executed : CategoryOutcome) : Prop :=
  executed.policyId = previewed.policyId ∧
    executed.deleted = if executed.retentionMode = .delete then previewed.eligible else 0

/-- The preview tells what the run does, policy by policy.  A policy of another mode than `DELETE`
    leaves whatever data it is evaluated on. -/
structure PreviewTells (N : Type) (fs : FileSystem) (config : RetentionConfig) (now : Instant)
    (policies : List RetentionPolicy) (previewed executed : RetentionRun) : Prop where
  outcomes : List.Forall₂ OutcomeTold previewed.categories executed.categories
  otherModes : ∀ p ∈ policies, p.retentionMode ≠ .delete →
    ∀ (data next : RetainedData N) (outcome : CategoryOutcome),
      evaluatePolicy fs config now false data p = .ok (outcome, next) → next = data

/-- The sweeps of the policies before leave a policy undisturbed. -/
def PolicyUndisturbed (fs : FileSystem) (config : RetentionConfig) (now : Instant)
    (data : RetainedData N) (before : List RetentionPolicy) (p : RetentionPolicy) : Prop :=
  ∀ sweep, p.sweep? now data.database.holds = some sweep →
    Undisturbed fs config.batchSize data (sweepsOf now data.database.holds before) sweep

variable {fs : FileSystem} {config : RetentionConfig} {now : Instant}

theorem outcomeTold_iff (hfiles : ∀ path, fs.unlinkFails path = false)
    (hbatch : 0 < config.batchSize) {data next left : RetainedData N}
    {before : List RetentionPolicy} {p : RetentionPolicy} {previewed executed : CategoryOutcome}
    (hpreview : Evaluated fs config now true data p previewed next)
    (hexecute : Evaluated fs config now false
      (leftBy fs config.batchSize data (sweepsOf now data.database.holds before)) p executed left) :
    OutcomeTold previewed executed ↔ PolicyUndisturbed fs config now data before p := by
  have hid := hexecute.policyId.trans hpreview.policyId.symm
  have hdeleted : executed.deleted = (p.sweep? now data.database.holds).elim 0 fun sweep =>
      (sweep.remove fs config (leftBy fs config.batchSize data
        (sweepsOf now data.database.holds before))).deleted := hexecute.deleted
  have heligible := hpreview.eligible
  unfold OutcomeTold PolicyUndisturbed
  rw [hexecute.retentionMode, and_iff_right hid, hdeleted]
  -- a policy without a sweep deletes nothing and is told so
  cases hsweep : p.sweep? now data.database.holds with
  | none =>
    refine iff_of_true ?_ fun sweep h => by cases h
    split
    case isTrue hmode => rw [heligible hmode, hsweep]; rfl
    case isFalse => rfl
  | some sweep =>
    have hmode := (of_sweep? hsweep).2.2.1
    rw [if_pos hmode, heligible hmode, hsweep, Option.elim_some, Option.elim_some,
      deleted_leftBy_iff hfiles hbatch]
    constructor
    · intro h sweep' hsweep'
      obtain rfl := Option.some.inj hsweep'
      exact h
    · intro h
      exact h sweep rfl

/-- All outcomes are told exactly when every policy is undisturbed by the ones before. -/
theorem forall₂_outcomeTold_iff (hfiles : ∀ path, fs.unlinkFails path = false)
    (hbatch : 0 < config.batchSize) {data : RetainedData N} {policies : List RetentionPolicy}
    {before : List RetentionPolicy} {previewed executed : List CategoryOutcome}
    (hpreview : EvaluatedAll fs config now true data policies previewed)
    (hexecute : EvaluatedAll fs config now false
      (leftBy fs config.batchSize data (sweepsOf now data.database.holds before)) policies
      executed) :
    List.Forall₂ OutcomeTold previewed executed ↔
      Along (fun before p => before ++ [p]) (PolicyUndisturbed fs config now data) before
        policies := by
  induction policies generalizing before previewed executed with
  | nil =>
    cases hpreview
    cases hexecute
    exact iff_of_true .nil trivial
  | cons p rest ih =>
    obtain _ | ⟨hp, hps⟩ := hpreview
    obtain _ | ⟨he, hes⟩ := hexecute
    rw [List.forall₂_cons, outcomeTold_iff hfiles hbatch hp he]
    -- the preview goes on with the same data, the run with what the policy left
    rw [hp.dataLeft] at hps
    rw [he.dataLeft] at hes
    have hnext := policyStep_leftBy fs config now data before p
    simp only [Bool.false_eq_true, if_false, hnext] at hes
    exact and_congr_right fun _ => ih hps hes

/-- A preview leaves the data as it is. -/
theorem preview_data (policies : List RetentionPolicy) (data : RetainedData N) :
    (preview fs config now policies data).1 = data := by
  obtain ⟨reached, -, hdata, -⟩ :=
    data_runPolicies fs config now true data policies
  unfold preview runOnce
  split
  case isFalse => rfl
  case isTrue =>
    split
    · rename_i hrun
      rw [hrun] at hdata
      exact hdata
    · rename_i hrun
      rw [hrun] at hdata
      obtain rfl := hdata
      rfl

/-! ## §6 The failing input -/

/-- What a run that is told has deleted, where all policies delete. -/
theorem map_deleted_of_told {previewed executed : List CategoryOutcome}
    (h : List.Forall₂ OutcomeTold previewed executed)
    (hmode : ∀ outcome ∈ executed, outcome.retentionMode = .delete) :
    executed.map CategoryOutcome.deleted = previewed.map CategoryOutcome.eligible := by
  induction h with
  | nil => rfl
  | cons htold _ ih =>
    obtain ⟨hhead, hrest⟩ := List.forall_mem_cons.mp hmode
    rw [List.map_cons, List.map_cons, ih hrest, htold.2, if_pos hhead]

/-- An old dataset that one old session refers to. -/
def referencedDataset : RetainedData ℕ :=
  { (RetainedData.empty : RetainedData ℕ) with
    database :=
      { (RetainedData.empty : RetainedData ℕ).database with
        backtestSessions := .ofList
          [("session", ⟨.onDay 739000,
            .object [("data_source", .object [("dataset_id", .string "dataset")])]⟩)] }
    datasets := .ofList
      [("dataset", ⟨some ⟨(Instant.onDay 739000).timestamp, 64⟩,
        some ⟨(Instant.onDay 739000).timestamp, 16⟩⟩)] }

def reportPolicy : RetentionPolicy := thirtyDayPolicy "backtest_reports" .report

def datasetPolicy : RetentionPolicy := thirtyDayPolicy "market_datasets" .marketData

/-- The preview finds the session, but not the dataset. -/
theorem reportsFirst_previewed :
    (preview plainFiles deletingConfig (.onDay 740000) [reportPolicy, datasetPolicy]
      referencedDataset).2.toOption.map (fun run => run.categories.map CategoryOutcome.eligible) =
        some [1, 0] := by
  decide +kernel

/-- The run deletes both. -/
theorem reportsFirst_executed :
    (execute plainFiles deletingConfig (.onDay 740000) [reportPolicy, datasetPolicy]
      referencedDataset).2.toOption.map (fun run => run.categories.map fun outcome =>
        (outcome.retentionMode, outcome.deleted)) = some [(.delete, 1), (.delete, 1)] := by
  decide +kernel

/-- A dataset is deleted that the preview did not find eligible. -/
theorem reportsFirst_not_told : ∃ previewed executed,
    (preview plainFiles deletingConfig (.onDay 740000) [reportPolicy, datasetPolicy]
      referencedDataset).2 = .ok previewed ∧
    (execute plainFiles deletingConfig (.onDay 740000) [reportPolicy, datasetPolicy]
      referencedDataset).2 = .ok executed ∧
    ¬ PreviewTells ℕ plainFiles deletingConfig (.onDay 740000) [reportPolicy, datasetPolicy]
      previewed executed := by
  obtain ⟨previewed, hpreview, heligible⟩ := Option.map_eq_some_iff.mp reportsFirst_previewed
  obtain ⟨executed, hexecute, hdeleted⟩ := Option.map_eq_some_iff.mp reportsFirst_executed
  refine ⟨previewed, executed, eq_ok_of_toOption hpreview, eq_ok_of_toOption hexecute, fun h => ?_⟩
  have hmodes := congrArg (List.map Prod.fst) hdeleted
  have hcounts := congrArg (List.map Prod.snd) hdeleted
  simp only [List.map_map, Function.comp_def, List.map_cons, List.map_nil] at hmodes hcounts
  have hall : ∀ outcome ∈ executed.categories, outcome.retentionMode = .delete := by
    intro outcome hmem
    have hmode := List.mem_map_of_mem (f := CategoryOutcome.retentionMode) hmem
    rw [hmodes] at hmode
    simpa using hmode
  have htold := map_deleted_of_told h.outcomes hall
  rw [hcounts, heligible] at htold
  cases htold

/-! ## §7 Previews and runs -/

/-- **A preview tells what the run that follows it deletes**, exactly when every policy that deletes
    is undisturbed by those before it.

    A preview counts each policy on the data as they are.  The run counts on what the policies
    before have left: what they deleted is missing, and what only they referred to has come free. -/
theorem previewTells_iff (hdryRun : config.dryRun = false) (hbatch : 0 < config.batchSize)
    (hfiles : ∀ path, fs.unlinkFails path = false) {policies : List RetentionPolicy}
    {data : RetainedData N} {previewed executed : RetentionRun}
    (hpreview : (preview fs config now policies data).2 = .ok previewed)
    (hexecute : (execute fs config now policies (preview fs config now policies data).1).2 =
      .ok executed) :
    PreviewTells N fs config now policies previewed executed ↔
      (config.enabled = true →
        Along (fun before p => before ++ [p]) (PolicyUndisturbed fs config now data) []
          policies) := by
  -- a policy that does not delete leaves the data
  have hother : ∀ p ∈ policies, p.retentionMode ≠ .delete →
      ∀ (data next : RetainedData N) (outcome : CategoryOutcome),
        evaluatePolicy fs config now false data p = .ok (outcome, next) → next = data := by
    intro p _ hmode data next outcome h
    have hleft := (evaluatePolicy_eq_ok h).dataLeft
    have hsweep : p.sweep? now data.database.holds = none := by
      simp [RetentionPolicy.sweep?, hmode]
    rw [hleft]
    simp [policyStep, hsweep]
  have hsplit : PreviewTells N fs config now policies previewed executed ↔
      List.Forall₂ OutcomeTold previewed.categories executed.categories :=
    ⟨fun h => h.outcomes, fun h => ⟨h, hother⟩⟩
  rw [hsplit]
  rw [preview_data] at hexecute
  unfold preview runOnce at hpreview
  unfold execute runOnce at hexecute
  cases henabled : config.enabled with
  | false =>
    -- a disabled retention previews and executes nothing
    simp only [henabled, Bool.false_eq_true, if_false] at hpreview hexecute
    obtain rfl := Except.ok.inj hpreview
    obtain rfl := Except.ok.inj hexecute
    exact iff_of_true .nil fun h => by cases h
  | true =>
    simp only [henabled, if_true] at hpreview hexecute
    split at hpreview
    case h_2 => cases hpreview
    split at hexecute
    case h_2 => cases hexecute
    rename_i hprun _ _ _ herun
    obtain rfl := Except.ok.inj hpreview
    obtain rfl := Except.ok.inj hexecute
    have hp := runPolicies_eq_ok (congrArg Prod.snd hprun)
    have he := runPolicies_eq_ok (congrArg Prod.snd herun)
    rw [hdryRun] at he
    -- before the first policy nothing has been swept
    have hfirst : leftBy fs config.batchSize data (sweepsOf now data.database.holds []) = data :=
      leftBy_nil fs config.batchSize data
    rw [← hfirst] at he
    rw [imp_iff_right rfl]
    exact forall₂_outcomeTold_iff hfiles hbatch hp he

/-- The policy of the datasets comes first, so that the session still refers to the dataset. -/
theorem previewTells_datasetsFirst : ∃ previewed executed,
    (preview plainFiles deletingConfig (.onDay 740000) [datasetPolicy, reportPolicy]
      referencedDataset).2 = .ok previewed ∧
    PreviewTells ℕ plainFiles deletingConfig (.onDay 740000) [datasetPolicy, reportPolicy]
      previewed executed := by
  have hpreview : (preview plainFiles deletingConfig (.onDay 740000) [datasetPolicy, reportPolicy]
      referencedDataset).2.toOption.isSome = true := by decide +kernel
  have hexecute : (execute plainFiles deletingConfig (.onDay 740000) [datasetPolicy, reportPolicy]
      referencedDataset).2.toOption.isSome = true := by decide +kernel
  obtain ⟨previewed, hpreview⟩ := Option.isSome_iff_exists.mp hpreview
  obtain ⟨executed, hexecute⟩ := Option.isSome_iff_exists.mp hexecute
  have hp := eq_ok_of_toOption hpreview
  have he := eq_ok_of_toOption hexecute
  refine ⟨previewed, executed, hp, (previewTells_iff rfl (by decide) (fun _ => rfl) hp
    (by rwa [preview_data])).mpr fun _ => ⟨?_, ?_, trivial⟩⟩
  · intro sweep hsweep
    have hcutoff : datasetPolicy.sweep? (.onDay 740000) referencedDataset.database.holds =
      some ⟨.marketData, .onDay 739970⟩ := by decide +kernel
    obtain rfl := Option.some.inj (hcutoff.symm.trans hsweep)
    exact rfl
  · intro sweep hsweep
    have hcutoff : reportPolicy.sweep? (.onDay 740000) referencedDataset.database.holds =
      some ⟨.report, .onDay 739970⟩ := by decide +kernel
    obtain rfl := Option.some.inj (hcutoff.symm.trans hsweep)
    have hsweeps : sweepsOf (.onDay 740000) referencedDataset.database.holds [datasetPolicy] =
      [⟨.marketData, .onDay 739970⟩] := by decide +kernel
    intro earlier hearlier hcategory
    have hmarket : earlier ∈ [⟨.marketData, .onDay 739970⟩] := hsweeps ▸ hearlier
    rw [List.mem_singleton.mp hmarket] at hcategory
    cases hcategory

end CryptoTrading.Retention
