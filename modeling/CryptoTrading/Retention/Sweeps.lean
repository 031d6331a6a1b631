import CryptoTrading.Retention.Execution

/-!
# What sweeps leave

The abstract view of a retention run.  The handlers delete one after the other, each from what the
ones before it left, in batches, and with references collected anew.  Here the data that is left by
a list of sweeps is said at once, from the data before the run (`leftBy`): a row is gone when some
sweep of its category expires it, and a dataset when some sweep finds no reference to it in the
reports that the sweeps before had left.

The handlers leave this data, policy by policy (`run_policyStep`).
-/

namespace CryptoTrading.Retention

open CryptoTrading.Agent.Configuration (Fields)
open CryptoTrading.Lib

variable {N : Type}

/-! ## §1 The parts -/

/-- Whether one of the sweeps is of the category, with a cutoff that satisfies `p`. -/
def sweptBy (sweeps : List Sweep) (category : DataCategory) (p : Instant → Bool) : Bool :=
  sweeps.any fun sweep => decide (sweep.category = category) && p sweep.cutoff

@[simp] theorem sweptBy_nil (category : DataCategory) (p : Instant → Bool) :
    sweptBy [] category p = false := rfl

theorem sweptBy_concat (sweeps : List Sweep) (sweep : Sweep) (category : DataCategory)
    (p : Instant → Bool) :
    sweptBy (sweeps ++ [sweep]) category p =
      (sweptBy sweeps category p || (decide (sweep.category = category) && p sweep.cutoff)) := by
  simp [sweptBy]

theorem sweptBy_eq_true {sweeps : List Sweep} {category : DataCategory} {p : Instant → Bool} :
    sweptBy sweeps category p = true ↔
      ∃ sweep ∈ sweeps, sweep.category = category ∧ p sweep.cutoff = true := by
  simp [sweptBy]

/-- The rows of a table that no sweep expires.  Batches without rows delete nothing. -/
def rowsLeft {V : Type} (timestamp : V → Instant) (batch : ℤ) (held : List String)
    (category : DataCategory) (sweeps : List Sweep) (rows : Dict String V) : Dict String V :=
  rows.filter fun id row => !(decide (0 < batch) &&
    sweptBy sweeps category fun cutoff => isExpired cutoff held id (timestamp row))

/-- The reports that no sweep finds eligible. -/
def reportsLeft (held referenced : List String) (sweeps : List Sweep)
    (reports : Dict String (Report N)) : Dict String (Report N) :=
  reports.filter fun id report =>
    !sweptBy sweeps .report fun cutoff => isEligibleReport cutoff held referenced id report

/-- The experiments, with compact reports where a sweep found an old one. -/
def experimentsLeft (held : List String) (sweeps : List Sweep)
    (experiments : Dict String (Experiment N)) : Dict String (Experiment N) :=
  experiments.mapEntries fun id experiment =>
    if sweptBy sweeps .experimentArtifact fun cutoff => hasOldReport cutoff experiment && id ∉ held
    then { experiment with report := experiment.report.map compactReport }
    else experiment

/-- The tables after the sweeps. -/
def databaseLeft (batch : ℤ) (db : Database N) (sweeps : List Sweep) : Database N :=
  let held := getHeldEntityIds db.holds
  let incidents := rowsLeft id batch (held .runtimeAlert) .runtimeAlert sweeps db.incidents
  { db with
    timelineItems := rowsLeft id batch (held .trace) .trace sweeps db.timelineItems
    metricSamples := rowsLeft id batch (held .metrics) .metrics sweeps db.metricSamples
    incidents := incidents
    errorEvents := detachEvents db.incidents incidents
      (rowsLeft ErrorEvent.timestamp batch (held .runtimeAlert) .runtimeAlert sweeps db.errorEvents)
    backtestSessions := reportsLeft (held .report) (sessionReferences db) sweeps db.backtestSessions
    walkForwardRuns := reportsLeft (held .report) (runReferences db) sweeps db.walkForwardRuns
    experiments := experimentsLeft (held .experimentArtifact) sweeps db.experiments }

/-- Whether a sweep, with the references that the sweeps before it left, takes a dataset. -/
def datasetTaken (batch : ℤ) (db : Database N) (id : String) (dataset : Dataset) :
    List Sweep → List Sweep → Bool
  | _, [] => false
  | earlier, sweep :: rest =>
    (decide (sweep.category = .marketData) &&
        isEligibleDataset sweep.cutoff (getHeldEntityIds db.holds .marketData)
          (collectDatasetReferences (databaseLeft batch db earlier)) id dataset) ||
      datasetTaken batch db id dataset (earlier ++ [sweep]) rest

/-- The datasets, without the files of those that are taken. -/
def datasetsLeft (fs : FileSystem) (batch : ℤ) (db : Database N) (sweeps : List Sweep)
    (datasets : Dict String Dataset) : Dict String Dataset :=
  datasets.mapEntries fun id dataset =>
    if datasetTaken batch db id dataset [] sweeps then unlinkDataset fs id dataset else dataset

def logFilesLeft (fs : FileSystem) (sweeps : List Sweep) (logFiles : Dict String StoredFile) :
    Dict String StoredFile :=
  logFiles.filter fun name file =>
    !((sweptBy sweeps .applicationLog fun cutoff => isOldLog cutoff name file) &&
      !fs.unlinkFails name)

def observationsLeft (sweeps : List Sweep) (observations : List Observation) : List Observation :=
  observations.filter fun observation =>
    !sweptBy sweeps .marketDataBuffer fun cutoff => observation.isOld cutoff

/-- The data after the sweeps. -/
def leftBy (fs : FileSystem) (batch : ℤ) (data : RetainedData N) (sweeps : List Sweep) :
    RetainedData N where
  database := databaseLeft batch data.database sweeps
  datasets := datasetsLeft fs batch data.database sweeps data.datasets
  logFiles := logFilesLeft fs sweeps data.logFiles
  observations := observationsLeft sweeps data.observations

/-! ## §2 Each handler deletes its part -/

theorem bulkDeleteBefore_fst {V : Type} (timestamp : V → Instant) (batch : ℤ) (cutoff : Instant)
    (held : List String) (rows : Dict String V) :
    (bulkDeleteBefore timestamp batch cutoff held rows).1 =
      rows.filter fun id row =>
        !(decide (0 < batch) && isExpired cutoff held id (timestamp row)) := by
  unfold bulkDeleteBefore
  rcases lt_or_ge 0 batch with hbatch | hnone
  · rw [Dict.deleteBatches_eq (by omega) List.countP_le_length]
    simp [hbatch]
  · rw [Int.toNat_of_nonpos hnone, Dict.deleteBatches_zero]
    simp [not_lt.mpr hnone]

theorem bulkDeleteBefore_snd {V : Type} (timestamp : V → Instant) {batch : ℤ} (hbatch : 0 < batch)
    (cutoff : Instant) (held : List String) (rows : Dict String V) :
    (bulkDeleteBefore timestamp batch cutoff held rows).2 =
      rows.count fun id row => isExpired cutoff held id (timestamp row) := by
  unfold bulkDeleteBefore
  rw [Dict.deleteBatches_eq (by omega) List.countP_le_length]

/-- A sweep expires some of the rows that are left. -/
theorem bulkDeleteBefore_rowsLeft {V : Type} (timestamp : V → Instant) (batch : ℤ)
    (held : List String) (category : DataCategory) (sweeps : List Sweep) (cutoff : Instant)
    (rows : Dict String V) :
    (bulkDeleteBefore timestamp batch cutoff held
        (rowsLeft timestamp batch held category sweeps rows)).1 =
      rowsLeft timestamp batch held category (sweeps ++ [⟨category, cutoff⟩]) rows := by
  rw [bulkDeleteBefore_fst]
  unfold rowsLeft
  rw [Dict.filter_filter]
  refine Dict.filter_congr fun e _ => ?_
  rw [sweptBy_concat]
  cases decide (0 < batch) <;>
    cases isExpired cutoff held e.1 (timestamp e.2) <;> simp

theorem deleteReports_reportsLeft (batch : ℤ) (held referenced : List String)
    (sweeps : List Sweep) (cutoff : Instant) (reports : Dict String (Report N)) :
    (deleteReports batch cutoff held referenced (reportsLeft held referenced sweeps reports)).1 =
      reportsLeft held referenced (sweeps ++ [⟨.report, cutoff⟩]) reports := by
  unfold deleteReports
  rw [Dict.deleteChunks_select]
  unfold reportsLeft
  simp only [Dict.filter_filter]
  refine Dict.filter_congr fun e _ => ?_
  rw [sweptBy_concat]
  cases isEligibleReport cutoff held referenced e.1 e.2 <;> simp

/-- Events that lose their incidents one after the other. -/
theorem detachEvents_detachEvents {incidents left leftLater : Dict String Instant}
    (events : Dict String ErrorEvent)
    (hleft : ∀ id, left.contains id = true → incidents.contains id = true)
    (hlater : ∀ id, leftLater.contains id = true → left.contains id = true) :
    detachEvents left leftLater (detachEvents incidents left events) =
      detachEvents incidents leftLater events := by
  unfold detachEvents
  rw [Dict.mapValues_mapValues]
  congr 1
  funext event
  simp only [Option.filter_filter]
  congr 2
  funext id
  have hin := hleft id
  have hinLeft := hlater id
  cases h : incidents.contains id <;> cases hl : left.contains id <;>
    cases hl' : leftLater.contains id <;> simp_all

theorem detachEvents_self (incidents : Dict String Instant) (events : Dict String ErrorEvent) :
    detachEvents incidents incidents events = events := by
  refine Dict.ext_entries ((List.map_congr_left fun e _ => ?_).trans (List.map_id _))
  obtain ⟨id, timestamp, incidentId⟩ := e
  cases incidentId <;> simp

theorem contains_of_rowsLeft {V : Type} {timestamp : V → Instant} {batch : ℤ} {held : List String}
    {category : DataCategory} {sweeps : List Sweep} {rows : Dict String V} {id : String}
    (h : (rowsLeft timestamp batch held category sweeps rows).contains id = true) :
    rows.contains id = true := by
  obtain ⟨row, hrow⟩ := Option.isSome_iff_exists.mp h
  have hbefore := ((Dict.get?_filter_eq_some rows _ id row).mp hrow).1
  exact Option.isSome_iff_exists.mpr ⟨row, hbefore⟩

theorem contains_of_rowsLeft_concat {V : Type} {timestamp : V → Instant} {batch : ℤ}
    {held : List String} {category : DataCategory} {sweeps : List Sweep} {sweep : Sweep}
    {rows : Dict String V} {id : String}
    (h : (rowsLeft timestamp batch held category (sweeps ++ [sweep]) rows).contains id = true) :
    (rowsLeft timestamp batch held category sweeps rows).contains id = true := by
  obtain ⟨row, hrow⟩ := Option.isSome_iff_exists.mp h
  obtain ⟨hbefore, hkept⟩ := (Dict.get?_filter_eq_some rows _ id row).mp hrow
  refine Option.isSome_iff_exists.mpr
    ⟨row, (Dict.get?_filter_eq_some rows _ id row).mpr ⟨hbefore, ?_⟩⟩
  rw [sweptBy_concat] at hkept
  simp only [Bool.not_eq_true', Bool.and_eq_false_iff, Bool.or_eq_false_iff] at hkept ⊢
  tauto

/-- Deleting from events whose incidents may be gone. -/
theorem bulkDeleteBefore_detachEvents (incidents left : Dict String Instant)
    (events : Dict String ErrorEvent) (batch : ℤ) (cutoff : Instant) (held : List String) :
    (bulkDeleteBefore ErrorEvent.timestamp batch cutoff held
      (detachEvents incidents left events)).1 =
      detachEvents incidents left
        (bulkDeleteBefore ErrorEvent.timestamp batch cutoff held events).1 := by
  simp only [bulkDeleteBefore_fst]
  unfold detachEvents
  rw [Dict.filter_mapValues]

/-! ## §3 What sweeps leave alone -/

/-- A compact report has nothing left to remove. -/
theorem compactReport_compactReport (report : Fields N) :
    compactReport (compactReport report) = compactReport report := by
  refine List.filterMap_congr fun key hkey => ?_
  rw [compactReport, Dict.findIn_filterMap_pick (fun key => Dict.findIn key report), if_pos hkey]

theorem hasOldReport_compact (cutoff : Instant) (experiment : Experiment N) :
    hasOldReport cutoff { experiment with report := experiment.report.map compactReport } =
      hasOldReport cutoff experiment := by
  simp [hasOldReport]

/-- A file that could not be unlinked once cannot be unlinked again. -/
theorem unlinkDataset_unlinkDataset (fs : FileSystem) (id : String) (dataset : Dataset) :
    unlinkDataset fs id (unlinkDataset fs id dataset) = unlinkDataset fs id dataset := by
  simp [unlinkDataset, unlinked, Option.filter_filter]

/-- Trimming experiments leaves what they refer to. -/
theorem flatMap_experimentsLeft {B : Type} (held : List String) (sweeps : List Sweep)
    (experiments : Dict String (Experiment N)) (f : Experiment N → List B)
    (hf : ∀ (experiment : Experiment N) report,
      f { experiment with report := report } = f experiment) :
    (experimentsLeft held sweeps experiments).values.flatMap f = experiments.values.flatMap f := by
  unfold experimentsLeft
  rw [Dict.values_mapEntries, Dict.values, List.flatMap_map, List.flatMap_map]
  refine List.flatMap_congr fun e _ => ?_
  split
  · rw [hf]
  · rfl

@[simp] theorem sessionReferences_databaseLeft (batch : ℤ) (db : Database N)
    (sweeps : List Sweep) :
    sessionReferences (databaseLeft batch db sweeps) = sessionReferences db :=
  flatMap_experimentsLeft _ sweeps db.experiments _ fun _ _ => rfl

@[simp] theorem runReferences_databaseLeft (batch : ℤ) (db : Database N) (sweeps : List Sweep) :
    runReferences (databaseLeft batch db sweeps) = runReferences db :=
  flatMap_experimentsLeft _ sweeps db.experiments _ fun _ _ => rfl

/-! ## §4 The run -/

/-- Before any sweep, everything is there. -/
theorem leftBy_nil (fs : FileSystem) (batch : ℤ) (data : RetainedData N) :
    leftBy fs batch data [] = data := by
  have hdetach := detachEvents_self data.database.incidents data.database.errorEvents
  simp only [leftBy, databaseLeft, rowsLeft, reportsLeft, experimentsLeft, datasetsLeft,
    logFilesLeft, observationsLeft, datasetTaken, sweptBy_nil, Bool.and_false, Bool.false_and,
    Bool.not_false, Bool.false_eq_true, if_false, Dict.filter_true,
    Dict.mapEntries_self, List.filter_true, hdetach]

theorem datasetTaken_concat (batch : ℤ) (db : Database N) (id : String) (dataset : Dataset)
    (earlier sweeps : List Sweep) (sweep : Sweep) :
    datasetTaken batch db id dataset earlier (sweeps ++ [sweep]) =
      (datasetTaken batch db id dataset earlier sweeps ||
        (decide (sweep.category = .marketData) &&
          isEligibleDataset sweep.cutoff (getHeldEntityIds db.holds .marketData)
            (collectDatasetReferences (databaseLeft batch db (earlier ++ sweeps)))
            id dataset)) := by
  induction sweeps generalizing earlier with
  | nil => simp [datasetTaken]
  | cons first rest ih =>
    simp only [List.cons_append, datasetTaken, ih, List.append_assoc, List.nil_append,
      Bool.or_assoc]

/-- The handler of experiments trims what is left. -/
theorem experimentsLeft_concat (held : List String) (sweeps : List Sweep) (cutoff : Instant)
    (experiments : Dict String (Experiment N)) :
    ((experimentsLeft held sweeps experiments).mapEntries fun id experiment =>
        if hasOldReport cutoff experiment && id ∉ held then
          { experiment with report := experiment.report.map compactReport }
        else experiment) =
      experimentsLeft held (sweeps ++ [⟨.experimentArtifact, cutoff⟩]) experiments := by
  unfold experimentsLeft
  rw [Dict.mapEntries_mapEntries]
  refine Dict.mapEntries_congr fun e _ => ?_
  rw [sweptBy_concat]
  cases sweptBy sweeps .experimentArtifact fun cutoff => hasOldReport cutoff e.2 && e.1 ∉ held with
  | false => simp
  | true =>
    -- trimmed before, so that trimming it again changes nothing
    simp [hasOldReport_compact, Option.map_map, Function.comp_def, compactReport_compactReport]

/-- The handler of datasets takes what is left. -/
theorem datasetsLeft_concat (fs : FileSystem) (batch : ℤ) (db : Database N) (sweeps : List Sweep)
    (cutoff : Instant) (datasets : Dict String Dataset) :
    ((datasetsLeft fs batch db sweeps datasets).mapEntries fun id dataset =>
      if isEligibleDataset cutoff (getHeldEntityIds db.holds .marketData)
          (collectDatasetReferences (databaseLeft batch db sweeps)) id dataset then
        unlinkDataset fs id dataset
      else dataset) =
      datasetsLeft fs batch db (sweeps ++ [⟨.marketData, cutoff⟩]) datasets := by
  unfold datasetsLeft
  rw [Dict.mapEntries_mapEntries]
  refine Dict.mapEntries_congr fun e _ => ?_
  rw [datasetTaken_concat]
  cases datasetTaken batch db e.1 e.2 [] sweeps with
  | false => simp
  | true => simp [unlinkDataset_unlinkDataset]

theorem logFilesLeft_concat (fs : FileSystem) (sweeps : List Sweep) (cutoff : Instant)
    (logFiles : Dict String StoredFile) :
    ((logFilesLeft fs sweeps logFiles).filter fun name file =>
        !(isOldLog cutoff name file && !fs.unlinkFails name)) =
      logFilesLeft fs (sweeps ++ [⟨.applicationLog, cutoff⟩]) logFiles := by
  unfold logFilesLeft
  rw [Dict.filter_filter]
  refine Dict.filter_congr fun e _ => ?_
  rw [sweptBy_concat]
  cases fs.unlinkFails e.1 <;> cases isOldLog cutoff e.1 e.2 <;> simp

theorem observationsLeft_concat (sweeps : List Sweep) (cutoff : Instant)
    (observations : List Observation) :
    (observationsLeft sweeps observations).filter (!Observation.isOld cutoff ·) =
      observationsLeft (sweeps ++ [⟨.marketDataBuffer, cutoff⟩]) observations := by
  unfold observationsLeft
  rw [List.filter_filter]
  refine List.filter_congr fun observation _ => ?_
  rw [sweptBy_concat]
  cases observation.isOld cutoff <;> simp

/-- One more sweep deletes its part of what is left. -/
theorem sweepStep_leftBy (fs : FileSystem) (config : RetentionConfig) (data : RetainedData N)
    (sweeps : List Sweep) (sweep : Sweep) :
    sweepStep fs config (leftBy fs config.batchSize data sweeps) sweep =
      leftBy fs config.batchSize data (sweeps ++ [sweep]) := by
  obtain ⟨category, cutoff⟩ := sweep
  have holds : ∀ sweeps, (databaseLeft config.batchSize data.database sweeps).holds =
    data.database.holds := fun _ => rfl
  cases category
  -- the handler deletes its part, and the sweep is of no other category
  -- the handlers of one table each
  case trace =>
    simp only [sweepStep, Sweep.remove, defaultHandler, traceHandler, tableRetentionHandler, leftBy,
      databaseLeft, bulkDeleteBefore_rowsLeft]
    simp [rowsLeft, reportsLeft, experimentsLeft, datasetsLeft, logFilesLeft, observationsLeft,
      sweptBy_concat, datasetTaken_concat]
  case metrics =>
    simp only [sweepStep, Sweep.remove, defaultHandler, metricsHandler, tableRetentionHandler,
      leftBy,
      databaseLeft, bulkDeleteBefore_rowsLeft]
    simp [rowsLeft, reportsLeft, experimentsLeft, datasetsLeft, logFilesLeft, observationsLeft,
      sweptBy_concat, datasetTaken_concat]
  -- the alerts, whose events are detached before they go
  case runtimeAlert =>
    simp only [sweepStep, Sweep.remove, defaultHandler, runtimeAlertHandler, leftBy, databaseLeft,
      bulkDeleteBefore_detachEvents, bulkDeleteBefore_rowsLeft]
    rw [detachEvents_detachEvents _ (fun _ => contains_of_rowsLeft)
      fun _ => contains_of_rowsLeft_concat]
    simp [rowsLeft, reportsLeft, experimentsLeft, datasetsLeft, logFilesLeft, observationsLeft,
      sweptBy_concat, datasetTaken_concat]
  -- what is referenced is read from the database that earlier sweeps left
  case report =>
    simp only [sweepStep, Sweep.remove, defaultHandler, reportHandler, leftBy,
      sessionReferences_databaseLeft, runReferences_databaseLeft]
    simp only [databaseLeft, deleteReports_reportsLeft]
    simp [rowsLeft, experimentsLeft, datasetsLeft, logFilesLeft, observationsLeft,
      sweptBy_concat, datasetTaken_concat]
  case experimentArtifact =>
    simp only [sweepStep, Sweep.remove, defaultHandler, experimentArtifactHandler, leftBy,
      databaseLeft, experimentsLeft_concat]
    simp [rowsLeft, reportsLeft, datasetsLeft, logFilesLeft, observationsLeft,
      sweptBy_concat, datasetTaken_concat]
  -- files and the observations of the buffer
  case marketData =>
    simp only [sweepStep, Sweep.remove, defaultHandler, marketDataHandler, leftBy, holds,
      datasetsLeft_concat]
    simp [databaseLeft, rowsLeft, reportsLeft, experimentsLeft, logFilesLeft, observationsLeft,
      sweptBy_concat]
  case applicationLog =>
    simp only [sweepStep, Sweep.remove, defaultHandler, applicationLogHandler, leftBy,
      logFilesLeft_concat]
    simp [databaseLeft, rowsLeft, reportsLeft, experimentsLeft, datasetsLeft, observationsLeft,
      sweptBy_concat, datasetTaken_concat]
  case marketDataBuffer =>
    simp only [sweepStep, Sweep.remove, defaultHandler, marketDataBufferHandler, leftBy,
      observationsLeft_concat]
    simp [databaseLeft, rowsLeft, reportsLeft, experimentsLeft, datasetsLeft, logFilesLeft,
      sweptBy_concat, datasetTaken_concat]
  case financial | tradingDecision | experiment | configHistory | cache =>
    simp [sweepStep, Sweep.remove, defaultHandler, keepHandler, leftBy, databaseLeft, rowsLeft,
      reportsLeft, experimentsLeft, datasetsLeft, logFilesLeft, observationsLeft, sweptBy_concat,
      datasetTaken_concat]

/-- The sweeps of policies. -/
def sweepsOf (now : Instant) (holds : List Hold) (ps : List RetentionPolicy) : List Sweep :=
  ps.filterMap fun p => p.sweep? now holds

theorem sweepsOf_concat (now : Instant) (holds : List Hold) (ps : List RetentionPolicy)
    (p : RetentionPolicy) :
    sweepsOf now holds (ps ++ [p]) = sweepsOf now holds ps ++ (p.sweep? now holds).toList := by
  unfold sweepsOf
  rw [List.filterMap_append]
  cases h : p.sweep? now holds <;> simp [h]

theorem policyStep_leftBy (fs : FileSystem) (config : RetentionConfig) (now : Instant)
    (data : RetainedData N) (ps : List RetentionPolicy) (p : RetentionPolicy) :
    policyStep fs config now
        (leftBy fs config.batchSize data (sweepsOf now data.database.holds ps)) p =
      leftBy fs config.batchSize data (sweepsOf now data.database.holds (ps ++ [p])) := by
  rw [sweepsOf_concat]
  unfold policyStep
  -- the holds are those from before the run
  show (p.sweep? now data.database.holds).elim _ _ = _
  cases p.sweep? now data.database.holds with
  | none => simp
  | some sweep => exact sweepStep_leftBy fs config data _ sweep

/-- The policies leave what is left by their sweeps. -/
theorem run_policyStep (fs : FileSystem) (config : RetentionConfig) (now : Instant)
    (data : RetainedData N) (ps : List RetentionPolicy) :
    run (policyStep fs config now) data ps =
      leftBy fs config.batchSize data (sweepsOf now data.database.holds ps) := by
  induction ps using List.reverseRecOn with
  | nil => exact (leftBy_nil fs config.batchSize data).symm
  | append_singleton ps p ih => rw [run_concat, ih, policyStep_leftBy]

end CryptoTrading.Retention
