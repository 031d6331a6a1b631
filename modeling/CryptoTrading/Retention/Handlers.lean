import CryptoTrading.Agent.ConfigurationPaths
import CryptoTrading.Lib.Batches
import CryptoTrading.Retention.Policies

/-!
# Retention handlers

Embeds `src/retention/handlers.py`, with the tables, the files and the buffer of observations
(`src/recorder/market_data_store.py`) that its handlers delete from.

All handlers act alike (`RetentionHandler.act`): they count what is eligible, and delete it unless
the policy only keeps, archives or aggregates.  They differ in what they count and in how they
delete.  A row has the columns that a handler reads; of the tables that are never deleted from,
only the number of rows is there.
-/

namespace CryptoTrading.Retention

open CryptoTrading.Agent.Configuration (Json Fields)
open CryptoTrading.Lib

variable {N : Type}

/-! ## §1 Tables and files -/

/-- `RuntimeErrorEventDao`. -/
structure ErrorEvent where
  timestamp : Instant
  incidentId : Option String
  deriving DecidableEq

/-- `BacktestSessionDao` or `WalkForwardRunDao`.  The specification of a session is its column
    `config`. -/
structure Report (N : Type) where
  createdAt : Instant
  spec : Json N

/-- An entry of `run_bindings`. -/
structure RunBinding where
  backtestSessionId : Option String
  walkForwardRunId : Option String

/-- `ExperimentDao`. -/
structure Experiment (N : Type) where
  createdAt : Instant
  status : String
  spec : Json N
  runBindings : List RunBinding
  report : Option (Fields N)

/-- `RetentionHoldDao`; a hold without an entity holds the whole category. -/
structure Hold where
  dataCategory : DataCategory
  entityId : Option String
  active : Bool

/-- The tables.  The rows of `timelineItems` and `metricSamples` are their timestamps, those of
    `incidents` the times of `first_seen`. -/
structure Database (N : Type) where
  orders : ℕ
  trades : ℕ
  tradingDecisions : ℕ
  commits : ℕ
  timelineItems : Dict String Instant
  metricSamples : Dict String Instant
  incidents : Dict String Instant
  errorEvents : Dict String ErrorEvent
  backtestSessions : Dict String (Report N)
  walkForwardRuns : Dict String (Report N)
  experiments : Dict String (Experiment N)
  holds : List Hold

/-- A file, with `st_mtime` in microseconds and `st_size`. -/
structure StoredFile where
  modified : ℤ
  size : ℕ
  deriving DecidableEq

/-- The files `<id>.csv` and `<id>.meta.json`.  An id has no dots. -/
structure Dataset where
  csv : Option StoredFile
  metadata : Option StoredFile
  deriving DecidableEq

/-- An entry of `MarketDataStore`, with its time in seconds. -/
structure Observation where
  tickerSymbol : String
  timestamp : ℤ
  deriving DecidableEq

/-- What the handlers delete from: tables, the directories of datasets and of logs, and the
    recorded observations. -/
structure RetainedData (N : Type) where
  database : Database N
  datasets : Dict String Dataset
  logFiles : Dict String StoredFile
  observations : List Observation

/-- The directory of the datasets, and the paths at which `unlink` raises `OSError`. -/
structure FileSystem where
  datasetsDir : String
  unlinkFails : String → Bool

/-- The path of `<id>.csv`, as `get_dataset_csv_path` returns it. -/
def FileSystem.csvPath (fs : FileSystem) (datasetId : String) : String :=
  fs.datasetsDir ++ "/" ++ datasetId ++ ".csv"

def FileSystem.metadataPath (fs : FileSystem) (datasetId : String) : String :=
  fs.datasetsDir ++ "/" ++ datasetId ++ ".meta.json"

/-- `time.timestamp()`, in microseconds. -/
def Instant.timestamp (time : Instant) : ℤ := time.micros - 62135596800 * 10 ^ 6

/-- `is_category_held`. -/
def isCategoryHeld (holds : List Hold) (category : DataCategory) : Bool :=
  holds.any fun hold => hold.dataCategory = category && hold.active && hold.entityId.isNone

/-- `get_held_entity_ids`. -/
def getHeldEntityIds (holds : List Hold) (category : DataCategory) : List String :=
  (holds.filter fun hold => hold.dataCategory = category && hold.active).filterMap fun hold =>
    hold.entityId.filter (· ≠ "")

/-! ## §2 Outcomes -/

structure SkipReason where
  reason : String
  count : ℕ
  detail : Option String
  deriving DecidableEq

/-- `CategoryOutcome`; nothing is ever archived or aggregated. -/
structure CategoryOutcome where
  dataCategory : DataCategory
  policyId : String
  retentionMode : RetentionMode
  examined : ℕ
  eligible : ℕ
  deleted : ℕ
  skipped : ℕ
  skippedReasons : List SkipReason
  storageBytes : Option ℕ
  deriving DecidableEq

/-- The reason, if anything was skipped for it. -/
def skippedFor (reason : String) (count : ℕ) : List SkipReason :=
  if count = 0 then [] else [⟨reason, count, none⟩]

/-- How many were skipped. -/
def skippedCount (reasons : List SkipReason) : ℕ := (reasons.map SkipReason.count).sum

/-- `RetentionContext`, but for what every handler is given apart. -/
structure RetentionContext where
  policy : RetentionPolicy
  cutoff : Option Instant
  batchSize : ℤ
  heldEntityIds : List String

/-- What a handler counts before it deletes. -/
structure Findings where
  eligible : ℕ
  skippedReasons : List SkipReason
  storageBytes : Option ℕ

/-- What a handler has deleted. -/
structure Removal (N : Type) where
  data : RetainedData N
  deleted : ℕ
  skippedReasons : List SkipReason
  storageBytes : Option ℕ

/-- `RetentionHandler`. -/
structure RetentionHandler (N : Type) where
  category : DataCategory
  /-- Whether everything is kept, whatever the mode. -/
  keeps : RetentionPolicy → Bool
  examined : RetainedData N → ℕ
  find : Instant → List String → RetainedData N → Findings
  remove : ℤ → Instant → List String → RetainedData N → Removal N

namespace RetentionHandler

/-- `_base`. -/
def base (h : RetentionHandler N) (ctx : RetentionContext) : CategoryOutcome where
  dataCategory := h.category
  policyId := ctx.policy.policyId
  retentionMode := ctx.policy.retentionMode
  examined := 0
  eligible := 0
  deleted := 0
  skipped := 0
  skippedReasons := []
  storageBytes := none

/-- `_kept`. -/
def kept (h : RetentionHandler N) (ctx : RetentionContext) (examined : ℕ) : CategoryOutcome :=
  { h.base ctx with
    examined := examined
    skipped := examined
    skippedReasons := skippedFor "KEEP" examined }

/-- `_unsupported_outcome`. -/
def unsupportedOutcome (h : RetentionHandler N) (ctx : RetentionContext)
    (examined eligible : ℕ) : CategoryOutcome :=
  { h.base ctx with
    examined := examined
    eligible := eligible
    skipped := eligible
    skippedReasons := if eligible = 0 then [] else
      [⟨ctx.policy.retentionMode.value ++ "_NOT_SUPPORTED", eligible,
        some ("Archive and aggregation pipelines not yet configured; " ++
          "records preserved safely without deletion")⟩] }

/-- `_act`. -/
def act (h : RetentionHandler N) (ctx : RetentionContext) (dryRun : Bool)
    (data : RetainedData N) : CategoryOutcome × RetainedData N :=
  let examined := h.examined data
  match ctx.cutoff with
  | none => (h.kept ctx examined, data)
  | some cutoff =>
    if h.keeps ctx.policy then (h.kept ctx examined, data)
    else
      let found := h.find cutoff ctx.heldEntityIds data
      match ctx.policy.retentionMode with
      | .keep => (h.kept ctx examined, data)
      | .archive | .aggregateThenDelete =>
        (h.unsupportedOutcome ctx examined found.eligible, data)
      | .delete =>
        let outcome : CategoryOutcome :=
          { h.base ctx with
            examined := examined
            eligible := found.eligible
            skipped := skippedCount found.skippedReasons
            skippedReasons := found.skippedReasons
            storageBytes := found.storageBytes }
        if dryRun then (outcome, data)
        else
          let removal := h.remove ctx.batchSize cutoff ctx.heldEntityIds data
          ({ outcome with
              deleted := removal.deleted
              skipped := outcome.skipped + skippedCount removal.skippedReasons
              skippedReasons := outcome.skippedReasons ++ removal.skippedReasons
              storageBytes := removal.storageBytes },
            removal.data)

end RetentionHandler

/-! ## §3 Rows that expire -/

/-- Older than the cutoff, and not held. -/
def isExpired (cutoff : Instant) (held : List String) (id : String) (timestamp : Instant) : Bool :=
  timestamp.micros < cutoff.micros && id ∉ held

/-- Older than the cutoff, but held. -/
def isHeldBack (cutoff : Instant) (held : List String) (id : String) (timestamp : Instant) : Bool :=
  timestamp.micros < cutoff.micros && id ∈ held

/-- `_bulk_delete_before`.  Every round but the last deletes rows, so there are no more rounds than
    rows.  The database refuses a negative limit, and then nothing is deleted either; that the
    policy is reported as failed is left out. -/
def bulkDeleteBefore {V : Type} (timestamp : V → Instant) (batch : ℤ) (cutoff : Instant)
    (held : List String) (rows : Dict String V) : Dict String V × ℕ :=
  rows.deleteBatches (fun id row => isExpired cutoff held id (timestamp row)) batch.toNat
    rows.entries.length

/-- `TableRetentionHandler`. -/
def tableRetentionHandler (category : DataCategory) (rows : Database N → Dict String Instant)
    (setRows : Database N → Dict String Instant → Database N) : RetentionHandler N where
  category := category
  keeps _ := false
  examined data := (rows data.database).entries.length
  find cutoff held data :=
    { eligible := (rows data.database).count (isExpired cutoff held)
      skippedReasons := skippedFor "HOLD" ((rows data.database).count (isHeldBack cutoff held))
      storageBytes := none }
  remove batch cutoff held data :=
    let removal := bulkDeleteBefore id batch cutoff held (rows data.database)
    { data := { data with database := setRows data.database removal.1 }
      deleted := removal.2
      skippedReasons := []
      storageBytes := none }

def traceHandler : RetentionHandler N :=
  tableRetentionHandler .trace Database.timelineItems fun db rows =>
    { db with timelineItems := rows }

def metricsHandler : RetentionHandler N :=
  tableRetentionHandler .metrics Database.metricSamples fun db rows =>
    { db with metricSamples := rows }

/-! ## §4 Incidents and their events -/

/-- What `ON DELETE SET NULL` does to the events of the incidents that were deleted. -/
def detachEvents (incidents incidentsLeft : Dict String Instant) (events : Dict String ErrorEvent) :
    Dict String ErrorEvent :=
  events.mapValues fun event =>
    { event with
      incidentId := event.incidentId.filter fun id =>
        !(incidents.contains id && !incidentsLeft.contains id) }

/-- `RuntimeAlertHandler`. -/
def runtimeAlertHandler : RetentionHandler N where
  category := .runtimeAlert
  keeps _ := false
  examined data := data.database.incidents.entries.length + data.database.errorEvents.entries.length
  find cutoff held data :=
    let events := data.database.errorEvents
    let incidents := data.database.incidents
    { eligible := (events.count fun id event => isExpired cutoff held id event.timestamp) +
        incidents.count (isExpired cutoff held)
      skippedReasons := skippedFor "HOLD"
        ((events.count fun id event => isHeldBack cutoff held id event.timestamp) +
          incidents.count (isHeldBack cutoff held))
      storageBytes := none }
  remove batch cutoff held data :=
    let db := data.database
    let events := bulkDeleteBefore ErrorEvent.timestamp batch cutoff held db.errorEvents
    let incidents := bulkDeleteBefore id batch cutoff held db.incidents
    { data :=
        { data with
          database :=
            { db with
              errorEvents := detachEvents db.incidents incidents.1 events.1
              incidents := incidents.1 } }
      deleted := events.2 + incidents.2
      skippedReasons := []
      storageBytes := none }

/-! ## §5 Reports -/

/-- The ids of one kind that `_collect_report_references` collects. -/
def collectReportReferences (db : Database N) (bound : RunBinding → Option String) :
    List String :=
  db.experiments.values.flatMap fun experiment =>
    experiment.runBindings.filterMap fun binding => (bound binding).filter (· ≠ "")

/-- Old reports that nothing refers to and nobody holds. -/
def isEligibleReport (cutoff : Instant) (held referenced : List String) (id : String)
    (report : Report N) : Bool :=
  report.createdAt.micros < cutoff.micros && id ∉ referenced && id ∉ held

/-- One half of `_partition_eligible_reports`: how many were held, and how many were skipped for
    something that depends on them. -/
def skippedReports (cutoff : Instant) (held referenced : List String)
    (reports : Dict String (Report N)) : ℕ × ℕ :=
  let old := reports.count fun _ report => report.createdAt.micros < cutoff.micros
  let eligible := reports.count (isEligibleReport cutoff held referenced)
  let heldBack := reports.count fun id report => isHeldBack cutoff held id report.createdAt
  (heldBack, old - eligible - heldBack)

/-- The two kinds of reports, with what experiments refer to. -/
def sessionReferences (db : Database N) : List String :=
  collectReportReferences db RunBinding.backtestSessionId

def runReferences (db : Database N) : List String :=
  collectReportReferences db RunBinding.walkForwardRunId

/-- The loop over the chunks of the eligible ids. -/
def deleteReports (batch : ℤ) (cutoff : Instant) (held referenced : List String)
    (reports : Dict String (Report N)) : Dict String (Report N) × ℕ :=
  reports.deleteChunks
    (Dict.chunks (max 1 batch).toNat (reports.select (isEligibleReport cutoff held referenced)))

/-- `ReportHandler`. -/
def reportHandler : RetentionHandler N where
  category := .report
  keeps _ := false
  examined data :=
    data.database.backtestSessions.entries.length + data.database.walkForwardRuns.entries.length
  find cutoff held data :=
    let db := data.database
    let sessions := skippedReports cutoff held (sessionReferences db) db.backtestSessions
    let runs := skippedReports cutoff held (runReferences db) db.walkForwardRuns
    { eligible := db.backtestSessions.count (isEligibleReport cutoff held (sessionReferences db)) +
        db.walkForwardRuns.count (isEligibleReport cutoff held (runReferences db))
      skippedReasons := skippedFor "DEPENDENCY" (sessions.2 + runs.2) ++
        skippedFor "HOLD" (sessions.1 + runs.1)
      storageBytes := none }
  remove batch cutoff held data :=
    let db := data.database
    let sessions := deleteReports batch cutoff held (sessionReferences db) db.backtestSessions
    let runs := deleteReports batch cutoff held (runReferences db) db.walkForwardRuns
    { data :=
        { data with
          database := { db with backtestSessions := sessions.1, walkForwardRuns := runs.1 } }
      deleted := sessions.2 + runs.2
      skippedReasons := []
      storageBytes := none }

/-! ## §6 Experiments -/

/-- `_COMPACT_KEYS`. -/
def compactKeys : List String := ["summary", "verdict", "status", "completed_at", "error_message"]

/-- `_TERMINAL_STATUSES`. -/
def terminalStatuses : List String := ["COMPLETED", "FAILED", "CANCELLED"]

/-- The report with the compact keys only. -/
def compactReport (report : Fields N) : Fields N :=
  compactKeys.filterMap fun key => (Dict.findIn key report).map fun value => (key, value)

/-- An old experiment that has ended, with a report. -/
def hasOldReport (cutoff : Instant) (experiment : Experiment N) : Bool :=
  experiment.report.isSome && experiment.createdAt.micros < cutoff.micros &&
    experiment.status ∈ terminalStatuses

/-- `ExperimentArtifactHandler`. -/
def experimentArtifactHandler : RetentionHandler N where
  category := .experimentArtifact
  keeps _ := false
  examined data := data.database.experiments.count fun _ experiment => experiment.report.isSome
  find cutoff held data :=
    let experiments := data.database.experiments
    { eligible := experiments.count fun id experiment => hasOldReport cutoff experiment && id ∉ held
      skippedReasons := skippedFor "HOLD"
        (experiments.count fun id experiment => hasOldReport cutoff experiment && id ∈ held)
      storageBytes := none }
  remove _ cutoff held data :=
    let experiments := data.database.experiments
    { data :=
        { data with
          database :=
            { data.database with
              experiments := experiments.mapEntries fun id experiment =>
                if hasOldReport cutoff experiment && id ∉ held then
                  { experiment with report := experiment.report.map compactReport }
                else experiment } }
      deleted := experiments.count fun id experiment => hasOldReport cutoff experiment && id ∉ held
      skippedReasons := []
      storageBytes := none }

/-! ## §7 Datasets -/

/-- The ids and the path of a `data_source`. -/
def dataSourceIds : Option (Json N) → List String
  | some (.object fields) =>
    ["source_id", "dataset_id", "path"].filterMap fun key =>
      match Dict.findIn key fields with
      | some (.string value) => if value = "" then none else some value
      | _ => none
  | _ => []

mutual

/-- `_extract_dataset_ids`. -/
def extractDatasetIds : Json N → List String
  | .object fields => dataSourceIds (Dict.findIn "data_source" fields) ++ extractFromFields fields
  | .list entries => extractFromEntries entries
  | .null => []
  | .bool _ => []
  | .number _ => []
  | .string _ => []

def extractFromFields : List (String × Json N) → List String
  | [] => []
  | (_, value) :: rest => extractDatasetIds value ++ extractFromFields rest

def extractFromEntries : List (Json N) → List String
  | [] => []
  | entry :: rest => extractDatasetIds entry ++ extractFromEntries rest

end

/-- The ids in the specifications of reports. -/
def reportDatasetIds (reports : Dict String (Report N)) : List String :=
  reports.values.flatMap fun report => extractDatasetIds report.spec

/-- `_collect_dataset_references`. -/
def collectDatasetReferences (db : Database N) : List String :=
  reportDatasetIds db.backtestSessions ++
    (db.experiments.values.flatMap fun experiment => extractDatasetIds experiment.spec) ++
    reportDatasetIds db.walkForwardRuns

/-- Whether a file was last modified before the cutoff. -/
def StoredFile.isOld (cutoff : Instant) (file : StoredFile) : Bool :=
  file.modified < cutoff.timestamp

/-- A dataset with old metadata that nothing refers to and nobody holds. -/
def isEligibleDataset (cutoff : Instant) (held references : List String) (id : String)
    (dataset : Dataset) : Bool :=
  id ∉ held && id ∉ references && dataset.metadata.any (StoredFile.isOld cutoff)

/-- `candidate.stat().st_size`, if the file is there. -/
def fileSize (file : Option StoredFile) : ℕ := file.elim 0 StoredFile.size

/-- `_dataset_bytes`. -/
def Dataset.bytes (dataset : Dataset) : ℕ := fileSize dataset.csv + fileSize dataset.metadata

/-- What is left of a file where `unlink` may fail. -/
def unlinked (fs : FileSystem) (path : String) (file : Option StoredFile) : Option StoredFile :=
  file.filter fun _ => fs.unlinkFails path

/-- The loop over the two suffixes. -/
def unlinkDataset (fs : FileSystem) (id : String) (dataset : Dataset) : Dataset where
  csv := unlinked fs (fs.csvPath id) dataset.csv
  metadata := unlinked fs (fs.metadataPath id) dataset.metadata

/-- `dataset_fully_deleted`. -/
def isFullyDeleted (fs : FileSystem) (id : String) (dataset : Dataset) : Bool :=
  (unlinkDataset fs id dataset).csv.isNone && (unlinkDataset fs id dataset).metadata.isNone

/-- `MarketDataHandler`. -/
def marketDataHandler (fs : FileSystem) : RetentionHandler N where
  category := .marketData
  keeps _ := false
  examined data := data.datasets.count fun _ dataset => dataset.metadata.isSome
  find cutoff held data :=
    let references := collectDatasetReferences data.database
    { eligible := data.datasets.count (isEligibleDataset cutoff held references)
      skippedReasons :=
        skippedFor "DEPENDENCY" (data.datasets.count fun id dataset =>
          dataset.metadata.isSome && id ∉ held && id ∈ references) ++
        skippedFor "HOLD" (data.datasets.count fun id dataset =>
          dataset.metadata.isSome && id ∈ held)
      storageBytes := some ((data.datasets.filter
        (isEligibleDataset cutoff held references)).sumBy fun _ dataset => dataset.bytes) }
  remove _ cutoff held data :=
    let references := collectDatasetReferences data.database
    let eligible := data.datasets.filter (isEligibleDataset cutoff held references)
    { data :=
        { data with
          datasets := data.datasets.mapEntries fun id dataset =>
            if isEligibleDataset cutoff held references id dataset then unlinkDataset fs id dataset
            else dataset }
      deleted := eligible.count (isFullyDeleted fs)
      skippedReasons := (eligible.select fun id dataset => !isFullyDeleted fs id dataset).map
        fun id => ⟨"PARTIAL_DELETE_FAILURE", 1, some id⟩
      storageBytes := some (eligible.sumBy fun id dataset =>
        dataset.bytes - (unlinkDataset fs id dataset).bytes) }

/-! ## §8 Logs -/

/-- `Path(name).suffix`. -/
def pathSuffix (name : String) : String :=
  let (extension, stem) := name.toList.reverse.span (· ≠ '.')
  if extension = [] || stem.length ≤ 1 then "" else String.ofList ('.' :: extension.reverse)

/-- `_LOG_SUFFIX_PATTERN`. -/
def logSuffixPattern : List String := ["application", "trading", "agent", "audit"]

/-- What `_rotated_log_files` collects. -/
def isRotatedLog (name : String) : Bool :=
  decide (".log".toList <:+: name.toList) &&
    logSuffixPattern.any (fun stem => stem.toList.isPrefixOf name.toList) &&
    pathSuffix name ≠ ".log"

def isOldLog (cutoff : Instant) (name : String) (file : StoredFile) : Bool :=
  isRotatedLog name && file.isOld cutoff

/-- `ApplicationLogHandler`. -/
def applicationLogHandler (fs : FileSystem) : RetentionHandler N where
  category := .applicationLog
  keeps _ := false
  examined data := data.logFiles.count fun name _ => isRotatedLog name
  find cutoff _ data :=
    { eligible := data.logFiles.count (isOldLog cutoff)
      skippedReasons := []
      storageBytes :=
        some ((data.logFiles.filter (isOldLog cutoff)).sumBy fun _ file => file.size) }
  remove _ cutoff _ data :=
    let eligible := data.logFiles.filter (isOldLog cutoff)
    let removed := eligible.filter fun name _ => !fs.unlinkFails name
    { data :=
        { data with
          logFiles := data.logFiles.filter fun name file =>
            !(isOldLog cutoff name file && !fs.unlinkFails name) }
      deleted := removed.entries.length
      skippedReasons := (eligible.select fun name _ => fs.unlinkFails name).map fun name =>
        ⟨"FILE_ERROR", 1, some name⟩
      storageBytes := some (removed.sumBy fun _ file => file.size) }

/-! ## §9 Observations -/

/-- `timestamp < cutoff_epoch`. -/
def Observation.isOld (cutoff : Instant) (observation : Observation) : Bool :=
  observation.timestamp * 10 ^ 6 < cutoff.timestamp

/-- `dataset_id`, by which the observations of a ticker are referred to. -/
def Observation.datasetId (observation : Observation) : String :=
  "recorded:" ++ observation.tickerSymbol

/-- `MarketDataBufferHandler`, with `count_before` and `prune`. -/
def marketDataBufferHandler : RetentionHandler N where
  category := .marketDataBuffer
  keeps policy := !policy.enabled
  examined data := data.observations.length
  find cutoff _ data :=
    { eligible := data.observations.countP (Observation.isOld cutoff)
      skippedReasons := []
      storageBytes := none }
  remove _ cutoff _ data :=
    { data := { data with observations := data.observations.filter (!Observation.isOld cutoff ·) }
      deleted := data.observations.countP (Observation.isOld cutoff)
      skippedReasons := []
      storageBytes := none }

/-! ## §10 The default handlers -/

/-- `KeepHandler`. -/
def keepHandler (category : DataCategory) (countRows : Database N → ℕ) : RetentionHandler N where
  category := category
  keeps _ := true
  examined data := countRows data.database
  find _ _ _ := ⟨0, [], none⟩
  remove _ _ _ data := ⟨data, 0, [], none⟩

/-- `build_default_handlers`, with a market data store. -/
def defaultHandler (fs : FileSystem) : DataCategory → RetentionHandler N
  | .financial => keepHandler .financial fun db => db.orders + db.trades
  | .tradingDecision => keepHandler .tradingDecision Database.tradingDecisions
  | .trace => traceHandler
  | .metrics => metricsHandler
  | .runtimeAlert => runtimeAlertHandler
  | .experiment => keepHandler .experiment fun db => db.experiments.entries.length
  | .experimentArtifact => experimentArtifactHandler
  | .report => reportHandler
  | .configHistory => keepHandler .configHistory Database.commits
  | .marketData => marketDataHandler fs
  | .marketDataBuffer => marketDataBufferHandler
  | .applicationLog => applicationLogHandler fs
  | .cache => keepHandler .cache fun _ => 0

/-- Each handler is that of its category. -/
theorem category_defaultHandler (fs : FileSystem) (category : DataCategory) :
    (defaultHandler (N := N) fs category).category = category := by
  cases category <;> rfl

end CryptoTrading.Retention
