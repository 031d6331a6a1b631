import CryptoTrading.Retention.Sweeps

/-!
# References that retention keeps

After a run, the reports and experiments that are still stored find the datasets that they name by
id, experiments find the sessions and runs that are bound to them, and nothing that is held was
deleted (`execute_keepsReferences`).

An incident is deleted by the time it was first seen, whatever events it still has; the foreign key
of these events is then set to null.  So not every event still has its incident
(`incident_of_event_deleted`).
-/

namespace CryptoTrading.Retention

open CryptoTrading.Agent.Configuration (Json)
open CryptoTrading.Lib

variable {N : Type}

/-! ## §1 References and holds -/

/-- The specifications of the sessions, experiments and walk-forward runs that are stored. -/
def specifications (db : Database N) : List (Json N) :=
  db.backtestSessions.values.map Report.spec ++ db.experiments.values.map Experiment.spec ++
    db.walkForwardRuns.values.map Report.spec

/-- Whether an active hold of the category holds the entity. -/
def IsHeld (holds : List Hold) (category : DataCategory) (id : String) : Prop :=
  isCategoryHeld holds category = true ∨ id ∈ getHeldEntityIds holds category

/-- The entries that satisfy `P` are still there. -/
def Remain {V : Type} (P : String → Prop) (before after : Dict String V) : Prop :=
  ∀ id, P id → before.contains id = true → after.contains id = true

/-- The sessions and runs that are bound to an experiment remain. -/
structure BoundReportsRemain (before after : Database N) : Prop where
  sessions : Remain (· ∈ sessionReferences before) before.backtestSessions after.backtestSessions
  runs : Remain (· ∈ runReferences before) before.walkForwardRuns after.walkForwardRuns

/-- What is held in the tables and among the datasets is not deleted. -/
structure HeldRemain (data after : RetainedData N) : Prop where
  timelineItems : Remain (IsHeld data.database.holds .trace) data.database.timelineItems
    after.database.timelineItems
  metricSamples : Remain (IsHeld data.database.holds .metrics) data.database.metricSamples
    after.database.metricSamples
  incidents : Remain (IsHeld data.database.holds .runtimeAlert) data.database.incidents
    after.database.incidents
  errorEvents : Remain (IsHeld data.database.holds .runtimeAlert) data.database.errorEvents
    after.database.errorEvents
  backtestSessions : Remain (IsHeld data.database.holds .report) data.database.backtestSessions
    after.database.backtestSessions
  walkForwardRuns : Remain (IsHeld data.database.holds .report) data.database.walkForwardRuns
    after.database.walkForwardRuns
  experiments : Remain (fun _ => True) data.database.experiments after.database.experiments
  experimentReports : ∀ id experiment, IsHeld data.database.holds .experimentArtifact id →
    data.database.experiments.get? id = some experiment →
      after.database.experiments.get? id = some experiment
  datasets : ∀ id dataset, IsHeld data.database.holds .marketData id →
    data.datasets.get? id = some dataset → after.datasets.get? id = some dataset
  orders : after.database.orders = data.database.orders
  trades : after.database.trades = data.database.trades
  tradingDecisions : after.database.tradingDecisions = data.database.tradingDecisions
  commits : after.database.commits = data.database.commits

/-- All references are intact: a dataset that a specification names, by its id or by the path of
    its csv file, has its files, reports that are bound remain, events have the incidents they had,
    and nothing that is held is deleted. -/
structure ReferencesIntact (fs : FileSystem) (data after : RetainedData N) : Prop where
  datasets : ∀ spec ∈ specifications after.database, ∀ id dataset,
    id ∈ extractDatasetIds spec ∨ fs.csvPath id ∈ extractDatasetIds spec →
      data.datasets.get? id = some dataset → after.datasets.get? id = some dataset
  bound : BoundReportsRemain data.database after.database
  events : ∀ id event, after.database.errorEvents.get? id = some event →
    ∃ earlier, data.database.errorEvents.get? id = some earlier ∧
      ∀ incidentId, earlier.incidentId = some incidentId →
        data.database.incidents.contains incidentId = true →
          event.incidentId = some incidentId ∧
            after.database.incidents.contains incidentId = true
  held : HeldRemain data after
  logFiles : Remain (IsHeld data.database.holds .applicationLog) data.logFiles after.logFiles
  observations : ∀ observation ∈ data.observations,
    IsHeld data.database.holds .marketDataBuffer observation.datasetId →
      observation ∈ after.observations

/-- An incident that a policy of the run may delete: it was first seen before the cutoff of an
    enabled policy that deletes runtime alerts, and nobody holds it. -/
def IncidentExpires (now : Instant) (policies : List RetentionPolicy) (db : Database N)
    (incidentId : String) : Prop :=
  ∃ firstSeen, db.incidents.get? incidentId = some firstSeen ∧
    ¬ IsHeld db.holds .runtimeAlert incidentId ∧
    ∃ p ∈ policies, p.dataCategory = .runtimeAlert ∧ p.enabled = true ∧
      p.retentionMode = .delete ∧ ∃ cutoff, p.cutoff now = .ok (some cutoff) ∧
        firstSeen.micros < cutoff.micros

/-- What a run keeps of the references.  An event has the incident it had, unless the incident has
    expired and is gone. -/
structure KeepsReferences (now : Instant) (policies : List RetentionPolicy)
    (data : RetainedData N) (result : RetainedData N × Except RetentionError RetentionRun) :
    Prop where
  datasets : ∀ report, result.2 = .ok report → ∀ spec ∈ specifications result.1.database,
    ∀ id dataset, id ∈ extractDatasetIds spec → data.datasets.get? id = some dataset →
      result.1.datasets.get? id = some dataset
  bound : BoundReportsRemain data.database result.1.database
  events : ∀ id event, result.1.database.errorEvents.get? id = some event →
    ∃ earlier, data.database.errorEvents.get? id = some earlier ∧
      ∀ incidentId, earlier.incidentId = some incidentId →
        data.database.incidents.contains incidentId = true →
          (event.incidentId = some incidentId ∧
              result.1.database.incidents.contains incidentId = true) ∨
            (event.incidentId = none ∧
              result.1.database.incidents.contains incidentId = false ∧
                IncidentExpires now policies data.database incidentId)
  held : HeldRemain data result.1
  logFiles : isCategoryHeld data.database.holds .applicationLog = true →
    result.1.logFiles = data.logFiles
  observations : isCategoryHeld data.database.holds .marketDataBuffer = true →
    result.1.observations = data.observations

/-! ## §2 What is not deleted -/

theorem mem_collectDatasetReferences {db : Database N} {id : String} :
    id ∈ collectDatasetReferences db ↔ ∃ spec ∈ specifications db, id ∈ extractDatasetIds spec := by
  simp only [collectDatasetReferences, reportDatasetIds, specifications, List.mem_append,
    List.mem_flatMap, List.mem_map]
  constructor
  · rintro ((⟨r, hr, hid⟩ | ⟨r, hr, hid⟩) | ⟨r, hr, hid⟩)
    · exact ⟨r.spec, Or.inl (Or.inl ⟨r, hr, rfl⟩), hid⟩
    · exact ⟨r.spec, Or.inl (Or.inr ⟨r, hr, rfl⟩), hid⟩
    · exact ⟨r.spec, Or.inr ⟨r, hr, rfl⟩, hid⟩
  · rintro ⟨spec, (⟨r, hr, rfl⟩ | ⟨r, hr, rfl⟩) | ⟨r, hr, rfl⟩, hid⟩
    · exact Or.inl (Or.inl ⟨r, hr, hid⟩)
    · exact Or.inl (Or.inr ⟨r, hr, hid⟩)
    · exact Or.inr ⟨r, hr, hid⟩

/-- More sweeps leave fewer reports. -/
theorem reportDatasetIds_subset (held referenced : List String) (earlier later : List Sweep)
    (reports : Dict String (Report N)) :
    reportDatasetIds (reportsLeft held referenced (earlier ++ later) reports) ⊆
      reportDatasetIds (reportsLeft held referenced earlier reports) := by
  intro id hid
  obtain ⟨report, hreport, hid⟩ := List.mem_flatMap.mp hid
  obtain ⟨key, hkey⟩ := (Dict.mem_values_iff _ report).mp hreport
  obtain ⟨hbefore, hkept⟩ := (Dict.get?_filter_eq_some _ _ _ _).mp hkey
  refine List.mem_flatMap.mpr ⟨report, (Dict.mem_values_iff _ report).mpr ⟨key, ?_⟩, hid⟩
  refine (Dict.get?_filter_eq_some _ _ _ _).mpr ⟨hbefore, ?_⟩
  simp only [sweptBy, List.any_append, Bool.not_or, Bool.and_eq_true] at hkept
  exact hkept.1

/-- References only get fewer while a run goes on. -/
theorem collectDatasetReferences_subset (batch : ℤ) (db : Database N)
    (earlier later : List Sweep) :
    collectDatasetReferences (databaseLeft batch db (earlier ++ later)) ⊆
      collectDatasetReferences (databaseLeft batch db earlier) := by
  have hexperiments : ∀ sweeps, ((databaseLeft batch db sweeps).experiments.values.flatMap
      fun experiment => extractDatasetIds experiment.spec) =
      db.experiments.values.flatMap fun experiment => extractDatasetIds experiment.spec :=
    fun sweeps => flatMap_experimentsLeft _ sweeps db.experiments _ fun _ _ => rfl
  unfold collectDatasetReferences
  rw [hexperiments, hexperiments]
  intro id hid
  simp only [List.mem_append] at hid ⊢
  rcases hid with (hsession | hexperiment) | hrun
  · exact Or.inl (Or.inl (reportDatasetIds_subset _ _ earlier later _ hsession))
  · exact Or.inl (Or.inr hexperiment)
  · exact Or.inr (reportDatasetIds_subset _ _ earlier later _ hrun)

/-- A dataset is taken by a sweep that finds it eligible. -/
theorem datasetTaken_eq_true {batch : ℤ} {db : Database N} {id : String} {dataset : Dataset}
    {earlier sweeps : List Sweep} (h : datasetTaken batch db id dataset earlier sweeps = true) :
    ∃ before sweep after, sweeps = before ++ sweep :: after ∧ sweep.category = .marketData ∧
      isEligibleDataset sweep.cutoff (getHeldEntityIds db.holds .marketData)
        (collectDatasetReferences (databaseLeft batch db (earlier ++ before)))
        id dataset = true := by
  induction sweeps generalizing earlier with
  | nil => cases h
  | cons sweep rest ih =>
    simp only [datasetTaken, Bool.or_eq_true, Bool.and_eq_true, decide_eq_true_eq] at h
    rcases h with ⟨hcategory, heligible⟩ | h
    · exact ⟨[], sweep, rest, rfl, hcategory, by rwa [List.append_nil]⟩
    · obtain ⟨before, taking, after, rfl, hcategory, heligible⟩ := ih h
      refine ⟨sweep :: before, taking, after, rfl, hcategory, ?_⟩
      rwa [List.append_assoc] at heligible

/-- A dataset that something still refers to was not taken. -/
theorem datasetTaken_of_mem_references {batch : ℤ} {db : Database N} {sweeps : List Sweep}
    {id : String} (dataset : Dataset)
    (h : id ∈ collectDatasetReferences (databaseLeft batch db sweeps)) :
    datasetTaken batch db id dataset [] sweeps = false := by
  rw [← Bool.not_eq_true]
  intro htaken
  obtain ⟨before, sweep, after, rfl, -, heligible⟩ := datasetTaken_eq_true htaken
  have hmem := collectDatasetReferences_subset batch db before (sweep :: after) h
  simp [isEligibleDataset, hmem] at heligible

section Held

variable {holds : List Hold} {sweeps : List Sweep}

/-- No sweep of a run is of a category that is held as a whole. -/
def SparesHeld (holds : List Hold) (sweeps : List Sweep) : Prop :=
  ∀ sweep ∈ sweeps, isCategoryHeld holds sweep.category = false

/-- What is held is not swept, by sweeps that look for held entities. -/
theorem sweptBy_of_isHeld (hspares : SparesHeld holds sweeps) {category : DataCategory}
    {id : String} (hheld : IsHeld holds category id) {p : Instant → Bool}
    (hp : id ∈ getHeldEntityIds holds category → ∀ cutoff, p cutoff = false) :
    sweptBy sweeps category p = false := by
  rw [← Bool.not_eq_true, sweptBy_eq_true]
  rintro ⟨sweep, hsweep, rfl, htrue⟩
  rcases hheld with hcategory | hentity
  · rw [hspares sweep hsweep] at hcategory
    cases hcategory
  · rw [hp hentity sweep.cutoff] at htrue
    cases htrue

theorem remain_rowsLeft (hspares : SparesHeld holds sweeps) {V : Type} (timestamp : V → Instant)
    (batch : ℤ) (category : DataCategory) (rows : Dict String V) :
    Remain (IsHeld holds category) rows
      (rowsLeft timestamp batch (getHeldEntityIds holds category) category sweeps rows) := by
  intro id hheld hid
  obtain ⟨row, hrow⟩ := Option.isSome_iff_exists.mp hid
  refine Option.isSome_iff_exists.mpr ⟨row, (Dict.get?_filter_eq_some _ _ _ _).mpr ⟨hrow, ?_⟩⟩
  rw [sweptBy_of_isHeld hspares hheld fun hentity cutoff => by simp [isExpired, hentity]]
  simp

/-- Reports that are held or bound are left. -/
theorem remain_reportsLeft (hspares : SparesHeld holds sweeps) (referenced : List String)
    (reports : Dict String (Report N)) :
    Remain (IsHeld holds .report) reports
        (reportsLeft (getHeldEntityIds holds .report) referenced sweeps reports) ∧
      Remain (· ∈ referenced) reports
        (reportsLeft (getHeldEntityIds holds .report) referenced sweeps reports) := by
  constructor
  · intro id hheld hid
    obtain ⟨report, hreport⟩ := Option.isSome_iff_exists.mp hid
    refine Option.isSome_iff_exists.mpr
      ⟨report, (Dict.get?_filter_eq_some _ _ _ _).mpr ⟨hreport, ?_⟩⟩
    rw [sweptBy_of_isHeld hspares hheld fun hentity cutoff => by simp [isEligibleReport, hentity]]
    rfl
  · intro id hreferenced hid
    obtain ⟨report, hreport⟩ := Option.isSome_iff_exists.mp hid
    refine Option.isSome_iff_exists.mpr
      ⟨report, (Dict.get?_filter_eq_some _ _ _ _).mpr ⟨hreport, ?_⟩⟩
    rw [Bool.not_eq_true', ← Bool.not_eq_true, sweptBy_eq_true]
    rintro ⟨sweep, -, -, heligible⟩
    simp [isEligibleReport, hreferenced] at heligible

theorem datasetTaken_of_isHeld {db : Database N} (hspares : SparesHeld db.holds sweeps)
    {batch : ℤ} {id : String} (hheld : IsHeld db.holds .marketData id) (dataset : Dataset) :
    datasetTaken batch db id dataset [] sweeps = false := by
  rw [← Bool.not_eq_true]
  intro htaken
  obtain ⟨before, sweep, after, rfl, hcategory, heligible⟩ := datasetTaken_eq_true htaken
  rcases hheld with hwhole | hentity
  · have hspared := hspares sweep (by simp)
    rw [hcategory, hwhole] at hspared
    cases hspared
  · simp [isEligibleDataset, hentity] at heligible

theorem get?_datasetsLeft {fs : FileSystem} {batch : ℤ} {db : Database N}
    {datasets : Dict String Dataset} {id : String} {dataset : Dataset}
    (hid : datasets.get? id = some dataset)
    (htaken : datasetTaken batch db id dataset [] sweeps = false) :
    (datasetsLeft fs batch db sweeps datasets).get? id = some dataset := by
  unfold datasetsLeft
  rw [Dict.get?_mapEntries, hid, Option.map_some, htaken]
  rfl

/-- Nothing that is held is deleted, from the tables or among the datasets. -/
theorem heldRemain_leftBy (fs : FileSystem) (batch : ℤ) (data : RetainedData N)
    {dbSweeps : List Sweep} (hdb : SparesHeld data.database.holds dbSweeps)
    (hspares : SparesHeld data.database.holds sweeps) (logFiles : Dict String StoredFile)
    (observations : List Observation) :
    HeldRemain data
      { database := databaseLeft batch data.database dbSweeps
        datasets := datasetsLeft fs batch data.database sweeps data.datasets
        logFiles := logFiles
        observations := observations } where
  timelineItems := remain_rowsLeft hdb id batch .trace _
  metricSamples := remain_rowsLeft hdb id batch .metrics _
  incidents := remain_rowsLeft hdb id batch .runtimeAlert _
  errorEvents := by
    intro id hheld hid
    have hleft := remain_rowsLeft hdb ErrorEvent.timestamp batch .runtimeAlert
      data.database.errorEvents id hheld hid
    simpa [databaseLeft, detachEvents, Dict.contains] using hleft
  backtestSessions := (remain_reportsLeft hdb _ _).1
  walkForwardRuns := (remain_reportsLeft hdb _ _).1
  experiments := by
    intro id _ hid
    simpa [databaseLeft, experimentsLeft, Dict.contains] using hid
  experimentReports := by
    intro id experiment hheld hid
    simp only [databaseLeft, experimentsLeft, Dict.get?_mapEntries, hid, Option.map_some]
    rw [sweptBy_of_isHeld hdb hheld fun hentity cutoff => by simp [hentity]]
    rfl
  datasets := by
    intro id dataset hheld hid
    exact get?_datasetsLeft hid (datasetTaken_of_isHeld hspares hheld dataset)
  orders := rfl
  trades := rfl
  tradingDecisions := rfl
  commits := rfl

end Held

/-! ## §3 Events and incidents -/

/-- An event has its incident, or the incident has expired. -/
theorem events_databaseLeft {batch : ℤ} {db : Database N} {now : Instant}
    {policies : List RetentionPolicy} {sweeps : List Sweep}
    (hsweeps : ∀ sweep ∈ sweeps, sweep ∈ sweepsOf now db.holds policies) {eventId : String}
    {event : ErrorEvent}
    (h : (databaseLeft batch db sweeps).errorEvents.get? eventId = some event) :
    ∃ earlier, db.errorEvents.get? eventId = some earlier ∧
      ∀ incidentId, earlier.incidentId = some incidentId →
        db.incidents.contains incidentId = true →
          (event.incidentId = some incidentId ∧
              (databaseLeft batch db sweeps).incidents.contains incidentId = true) ∨
            (event.incidentId = none ∧
              (databaseLeft batch db sweeps).incidents.contains incidentId = false ∧
                IncidentExpires now policies db incidentId) := by
  simp only [databaseLeft, detachEvents, Dict.get?_mapValues, Option.map_eq_some_iff] at h
  obtain ⟨earlier, hearlier, rfl⟩ := h
  refine ⟨earlier, ((Dict.get?_filter_eq_some _ _ _ _).mp hearlier).1, ?_⟩
  intro incidentId hincident hin
  cases hleft : (databaseLeft batch db sweeps).incidents.contains incidentId with
  | true =>
    -- the incident is left, and so the reference
    left
    refine ⟨?_, rfl⟩
    simp only [databaseLeft] at hleft
    simp [hincident, hleft]
  | false =>
    right
    simp only [databaseLeft] at hleft
    refine ⟨by simp [hincident, hin, hleft], rfl, ?_⟩
    obtain ⟨firstSeen, hfirst⟩ := Option.isSome_iff_exists.mp hin
    -- the incident is not among those that are left, so a sweep has expired it
    have hgone : ¬ (rowsLeft id batch (getHeldEntityIds db.holds .runtimeAlert) .runtimeAlert sweeps
        db.incidents).get? incidentId = some firstSeen := by
      intro hthere
      rw [Dict.contains, hthere] at hleft
      cases hleft
    rw [rowsLeft, Dict.get?_filter_eq_some, not_and] at hgone
    have hswept := hgone hfirst
    rw [Bool.not_eq_true, Bool.not_eq_false', Bool.and_eq_true, sweptBy_eq_true] at hswept
    obtain ⟨-, sweep, hsweep, hcategory, hexpired⟩ := hswept
    obtain ⟨p, hp, hp'⟩ := List.mem_filterMap.mp (hsweeps sweep hsweep)
    obtain ⟨henabled, hspared, hmode, hcutoff⟩ := of_sweep? hp'
    have hpcategory := (sweep?_category hp').symm.trans hcategory
    simp only [isExpired, id, Bool.and_eq_true, decide_eq_true_eq] at hexpired
    refine ⟨firstSeen, hfirst, ?_, p, hp, hpcategory, henabled, hmode, _, hcutoff, hexpired.1⟩
    rw [hpcategory] at hspared
    rintro (hwhole | hentity)
    · rw [hwhole] at hspared
      cases hspared
    · exact hexpired.2 hentity

/-! ## §4 The run -/

/-- What a run leaves: the tables as the sweeps left them, or as they were when the run raised. -/
theorem execute_data (fs : FileSystem) (config : RetentionConfig) (now : Instant)
    (policies : List RetentionPolicy) (data : RetainedData N) :
    ∃ dbSweeps sweeps,
      (∀ sweep ∈ dbSweeps, sweep ∈ sweepsOf now data.database.holds policies) ∧
        (∀ sweep ∈ sweeps, sweep ∈ sweepsOf now data.database.holds policies) ∧
        (execute fs config now policies data).1 =
          { database := databaseLeft config.batchSize data.database dbSweeps
            datasets := datasetsLeft fs config.batchSize data.database sweeps data.datasets
            logFiles := logFilesLeft fs sweeps data.logFiles
            observations := observationsLeft sweeps data.observations } ∧
        ∀ report, (execute fs config now policies data).2 = .ok report → dbSweeps = sweeps := by
  have hnil := leftBy_nil fs config.batchSize data
  have hnildb : databaseLeft config.batchSize data.database [] = data.database :=
    congrArg RetainedData.database hnil
  unfold execute runOnce
  split
  case isFalse =>
    exact ⟨[], [], by simp, by simp, hnil.symm, fun _ _ => rfl⟩
  case isTrue =>
    obtain ⟨reached, hreached, hdata, -⟩ :=
      data_runPolicies fs config now config.dryRun data policies
    have hreached : ∀ sweep ∈ sweepsOf now data.database.holds reached,
        sweep ∈ sweepsOf now data.database.holds policies :=
      fun _ hsweep => (hreached.sublist.filterMap _).subset hsweep
    have hleft : ∃ sweeps, (∀ sweep ∈ sweeps, sweep ∈ sweepsOf now data.database.holds policies) ∧
        (runPolicies fs config now config.dryRun data policies).1 =
          leftBy fs config.batchSize data sweeps := by
      rw [hdata]
      split
      · exact ⟨[], by simp, hnil.symm⟩
      · exact ⟨_, hreached, run_policyStep fs config now data reached⟩
    obtain ⟨sweeps, hsweeps, hleft⟩ := hleft
    split
    case h_1 left outcomes hrun =>
      rw [hrun] at hleft
      exact ⟨sweeps, sweeps, hsweeps, hsweeps, hleft, fun _ _ => rfl⟩
    case h_2 left error hrun =>
      rw [hrun] at hleft
      refine ⟨[], sweeps, by simp, hsweeps, ?_, fun _ h => by cases h⟩
      -- the transaction is rolled back, the files are gone
      rw [show left = leftBy fs config.batchSize data sweeps from hleft, hnildb]
      rfl

theorem sparesHeld_of_mem_sweepsOf {now : Instant} {holds : List Hold}
    {policies : List RetentionPolicy} {sweeps : List Sweep}
    (h : ∀ sweep ∈ sweeps, sweep ∈ sweepsOf now holds policies) : SparesHeld holds sweeps := by
  intro sweep hsweep
  obtain ⟨p, -, hp⟩ := List.mem_filterMap.mp (h sweep hsweep)
  rw [sweep?_category hp]
  exact (of_sweep? hp).2.1

/-- A category that is held as a whole is not swept. -/
theorem sweptBy_of_isCategoryHeld {holds : List Hold} {sweeps : List Sweep}
    (hspares : SparesHeld holds sweeps) {category : DataCategory}
    (h : isCategoryHeld holds category = true) (p : Instant → Bool) :
    sweptBy sweeps category p = false := by
  rw [← Bool.not_eq_true, sweptBy_eq_true]
  rintro ⟨sweep, hsweep, rfl, -⟩
  rw [hspares sweep hsweep] at h
  cases h

/-- **Retention keeps references**, over the categories of one run and whatever the policies, the
    holds and the files.

    A dataset that a stored session, experiment or run names by its id keeps its files, and what is
    bound to an experiment remains.  An event keeps its incident, unless a policy of the run may
    delete that: then the reference is null, as the schema has it. -/
theorem execute_keepsReferences (fs : FileSystem) (config : RetentionConfig) (now : Instant)
    (policies : List RetentionPolicy) (data : RetainedData N) :
    KeepsReferences now policies data (execute fs config now policies data) := by
  obtain ⟨dbSweeps, sweeps, hdb, hsweeps, hleft, hok⟩ := execute_data fs config now policies data
  have hdbSpares := sparesHeld_of_mem_sweepsOf hdb
  have hspares := sparesHeld_of_mem_sweepsOf hsweeps
  -- the tables and the files are swept by sweeps of the run, and these spare what is held
  constructor
  case datasets =>
    intro report hreport spec hspec id dataset hid hdataset
    obtain rfl := hok report hreport
    rw [hleft] at hspec ⊢
    have hmem := mem_collectDatasetReferences.mpr ⟨spec, hspec, hid⟩
    exact get?_datasetsLeft hdataset (datasetTaken_of_mem_references dataset hmem)
  case bound =>
    rw [hleft]
    exact ⟨(remain_reportsLeft hdbSpares _ _).2, (remain_reportsLeft hdbSpares _ _).2⟩
  case events =>
    intro id event hevent
    rw [hleft] at hevent ⊢
    exact events_databaseLeft hdb hevent
  case held =>
    rw [hleft]
    exact heldRemain_leftBy fs config.batchSize data hdbSpares hspares _ _
  case logFiles =>
    intro hheld
    rw [hleft]
    simp [logFilesLeft, sweptBy_of_isCategoryHeld hspares hheld]
  case observations =>
    intro hheld
    rw [hleft]
    simp [observationsLeft, sweptBy_of_isCategoryHeld hspares hheld]

/-- An incident that was first seen long ago, with an event of today. -/
def recurringIncident : RetainedData ℕ :=
  { (RetainedData.empty : RetainedData ℕ) with
    database :=
      { (RetainedData.empty : RetainedData ℕ).database with
        incidents := .ofList [("incident", .onDay 739000)]
        errorEvents := .ofList [("event", ⟨.onDay 740000, some "incident"⟩)] } }

/-- What a run leaves of it today. -/
def recurringIncidentLeft : RetainedData ℕ :=
  (execute plainFiles deletingConfig (.onDay 740000)
    [thirtyDayPolicy "runtime_incidents" .runtimeAlert] recurringIncident).1

theorem errorEvent_left : recurringIncidentLeft.database.errorEvents.get? "event" =
    some ⟨.onDay 740000, none⟩ := by
  decide +kernel

/-- The incident is deleted, and its event stays without it. -/
theorem incident_of_event_deleted :
    ¬ ReferencesIntact plainFiles recurringIncident recurringIncidentLeft := by
  intro h
  obtain ⟨earlier, hearlier, hincident⟩ := h.events "event" _ errorEvent_left
  obtain rfl : (⟨.onDay 740000, some "incident"⟩ : ErrorEvent) = earlier := Option.some.inj hearlier
  obtain ⟨hkept, -⟩ := hincident "incident" rfl rfl
  cases hkept

end CryptoTrading.Retention
