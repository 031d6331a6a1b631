import CryptoTrading.Backtest.RunQueue

/-!
# What the run queue guarantees

Every run is executed by one thread at most (`started_nodup`).  The other two guarantees fail around
cancellation.  `cancel_session` releases the slot of a run whose thread goes on, so another run
starts beside it, and the thread then writes `COMPLETED` over the stored `CANCELLED`
(`cancelled_run_completes`).

When a cancellation releases no slot that a task of its run still holds, the number of threads stays
within the slots, and an ended run keeps its status when the threads mark no run that has ended
otherwise, and only then (`disciplined_iff_marksOpenRun`).
-/

namespace CryptoTrading.Backtest

open CryptoTrading.Lib CryptoTrading.Persistence

namespace RunQueue

variable {R : Type} {settings : QueueSettings}

/-! ## §1 The table -/

/-- The run is in the table, and not queued. -/
def NotQueued (table : SessionTable R) (runId : String) : Prop :=
  ∃ row, table.get? runId = some row ∧ row.status ≠ .queued

/-- A run that has ended keeps its status. -/
def FinalKept (table table' : SessionTable R) : Prop :=
  ∀ runId row, table.get? runId = some row → IsFinal row.status →
    ∃ row', table'.get? runId = some row' ∧ row'.status = row.status

theorem FinalKept.refl (table : SessionTable R) : FinalKept table table :=
  fun _ row hget _ => ⟨row, hget, rfl⟩

theorem FinalKept.trans {t t' t'' : SessionTable R} (h : FinalKept t t') (h' : FinalKept t' t'') :
    FinalKept t t'' := by
  intro runId row hget hfinal
  obtain ⟨row', hget', hstatus'⟩ := h runId row hget hfinal
  obtain ⟨row'', hget'', hstatus''⟩ := h' runId row' hget' (hstatus' ▸ hfinal)
  exact ⟨row'', hget'', hstatus''.trans hstatus'⟩

/-- The statement leaves an ended run alone, and queues no run. -/
structure Careful (f : SessionRow R → SessionRow R) : Prop where
  final : ∀ row, IsFinal row.status → (f row).status = row.status
  queued : ∀ row, (f row).status = .queued → row.status = .queued

theorem careful_renewLease (worker : String) (now lease : ℤ) :
    Careful (SessionRow.renewLease (R := R) worker now lease) := by
  have hstatus : ∀ row : SessionRow R, (row.renewLease worker now lease).status = row.status := by
    intro row
    unfold SessionRow.renewLease
    split <;> rfl
  exact ⟨fun row _ => hstatus row, fun row h => (hstatus row).symm.trans h⟩

theorem careful_markCancelled (reason : Option String) (now : ℤ) :
    Careful (SessionRow.markCancelled (R := R) reason now) := by
  constructor
  · intro row hfinal
    unfold SessionRow.markCancelled
    split
    case isTrue hactive =>
      -- an active row has not ended
      cases hstatus : row.status <;> simp [SessionRow.isActive, hstatus, IsFinal] at hactive hfinal
    case isFalse => rfl
  · intro row
    unfold SessionRow.markCancelled
    split
    case isTrue => nofun
    case isFalse => exact id

theorem careful_recover (now timeout : ℤ) :
    Careful (SessionRow.recover (R := R) now timeout) := by
  constructor
  · intro row hfinal
    unfold SessionRow.recover
    split
    case isTrue habandoned =>
      cases hstatus : row.status <;>
        simp [SessionRow.isAbandoned, hstatus, IsFinal] at habandoned hfinal
    case isFalse => rfl
  · intro row
    unfold SessionRow.recover
    split
    case isTrue => nofun
    case isFalse => exact id

/-- What a step does to the table, and the run that it marks with a status, if it does. -/
inductive TableStep (table : SessionTable R) :
    Option (String × ExecutionStatus) → SessionTable R → Prop
  | same : TableStep table none table
  | saved {runId : String} (request : R) (now : ℤ) (hfresh : table.get? runId = none) :
      TableStep table none (table.saveSession runId (.queued request now))
  | acquired {runId : String} {row : SessionRow R} (worker : String) (now lease : ℤ)
      (hget : table.get? runId = some row) (hqueued : row.status = .queued) :
      TableStep table none (table.set runId (row.acquire worker now lease))
  | written {f : SessionRow R → SessionRow R} (runId : String) (hf : Careful f) :
      TableStep table none (table.modify runId f)
  | recovered (now timeout : ℤ) : TableStep table none (table.recoverAbandoned now timeout)
  | marked {f : SessionRow R → SessionRow R} {status : ExecutionStatus} (runId : String)
      (hfinal : IsFinal status) (hf : ∀ row, (f row).status = status) :
      TableStep table (some (runId, status)) (table.modify runId f)

/-- No step queues a run again. -/
theorem TableStep.notQueued {table table' : SessionTable R}
    {mark : Option (String × ExecutionStatus)} (h : TableStep table mark table') {otherId : String}
    (hother : NotQueued table otherId) : NotQueued table' otherId := by
  obtain ⟨row, hget, hne⟩ := hother
  -- a new row has a fresh id, and no other write makes a row queued
  cases h with
  | same => exact ⟨row, hget, hne⟩
  | @saved runId request now hfresh =>
    refine ⟨row, ?_, hne⟩
    unfold SessionTable.saveSession
    rw [Dict.get?_set, if_neg, hget]
    rintro rfl
    rw [hget] at hfresh
    cases hfresh
  | @acquired runId row' worker now lease hget' hqueued =>
    unfold NotQueued
    rw [Dict.get?_set]
    split
    case isTrue => exact ⟨_, rfl, by simp [SessionRow.acquire]⟩
    case isFalse => exact ⟨row, hget, hne⟩
  | @written f runId hf =>
    unfold NotQueued
    rw [SessionTable.get?_modify]
    split
    case isTrue hid =>
      rw [← hid, hget]
      exact ⟨f row, rfl, fun hqueued => hne (hf.queued row hqueued)⟩
    case isFalse => exact ⟨row, hget, hne⟩
  | recovered now timeout =>
    refine ⟨row.recover now timeout, ?_, fun hqueued => ?_⟩
    · unfold SessionTable.recoverAbandoned
      rw [Dict.get?_mapValues, hget]
      rfl
    · exact hne ((careful_recover now timeout).queued row hqueued)
  | @marked f status runId hfinal hf =>
    unfold NotQueued
    rw [SessionTable.get?_modify]
    split
    case isTrue hid =>
      rw [← hid, hget]
      refine ⟨f row, rfl, ?_⟩
      rw [hf]
      rintro rfl
      exact hfinal
    case isFalse => exact ⟨row, hget, hne⟩

/-- The marked run has not ended with another status. -/
def MarksUnended (table : SessionTable R) (mark : Option (String × ExecutionStatus)) : Prop :=
  ∀ runId status, mark = some (runId, status) →
    ∀ row, table.get? runId = some row → IsFinal row.status → row.status = status

instance (table : SessionTable R) (mark : Option (String × ExecutionStatus)) :
    Decidable (MarksUnended table mark) :=
  decidable_of_iff
    (∀ m ∈ mark, ∀ row ∈ table.get? m.1, IsFinal row.status → row.status = m.2)
    ⟨fun h runId status hmark => h (runId, status) hmark, fun h m hmark => h m.1 m.2 hmark⟩

/-- Only a mark can change the status of an ended run. -/
theorem TableStep.finalKept_iff {table table' : SessionTable R}
    {mark : Option (String × ExecutionStatus)} (h : TableStep table mark table') :
    FinalKept table table' ↔ MarksUnended table mark := by
  constructor
  · -- a mark that changed an ended run would not keep its status
    intro hkept runId status hmark row hget hfinal
    cases h with
    | @marked f status' runId' hfinal' hf =>
      obtain ⟨rfl, rfl⟩ := Prod.mk.inj (Option.some.inj hmark)
      obtain ⟨row', hget', hstatus⟩ := hkept runId' row hget hfinal
      rw [SessionTable.get?_modify, if_pos rfl, hget] at hget'
      rw [← hstatus, ← Option.some.inj hget', hf]
    | same | saved | acquired | written | recovered => cases hmark
  · intro hmarks runId row hget hfinal
    cases h with
    | same => exact ⟨row, hget, rfl⟩
    | @saved runId' request now hfresh =>
      -- a saved run is a new one
      refine ⟨row, ?_, rfl⟩
      unfold SessionTable.saveSession
      rw [Dict.get?_set, if_neg, hget]
      rintro rfl
      rw [hget] at hfresh
      cases hfresh
    | @acquired runId' row' worker now lease hget' hqueued =>
      refine ⟨row, ?_, rfl⟩
      rw [Dict.get?_set, if_neg, hget]
      rintro rfl
      -- a queued run has not ended
      rw [Option.some.inj (hget.symm.trans hget'), hqueued] at hfinal
      exact hfinal
    | @written f runId' hf =>
      -- a careful write leaves the status of an ended run
      rw [SessionTable.get?_modify]
      split
      case isTrue hid =>
        rw [← hid, hget]
        exact ⟨f row, rfl, hf.final row hfinal⟩
      case isFalse => exact ⟨row, hget, rfl⟩
    | recovered now timeout =>
      refine ⟨row.recover now timeout, ?_, (careful_recover now timeout).final row hfinal⟩
      unfold SessionTable.recoverAbandoned
      rw [Dict.get?_mapValues, hget]
      rfl
    | @marked f status runId' hfinal' hf =>
      rw [SessionTable.get?_modify]
      split
      case isTrue hid =>
        subst hid
        rw [hget]
        exact ⟨f row, rfl, (hf row).trans (hmarks runId status rfl row hget hfinal).symm⟩
      case isFalse => exact ⟨row, hget, rfl⟩

/-- The run that a step marks with a final status, without a look at the stored one. -/
def markOf (s : RunQueue R) : QueueOp R → Option (String × ExecutionStatus)
  | .markUnspawned runId _ _ ok =>
    if (runId, .spawnFailed) ∈ s.tasks ∧ ok = true then some (runId, .failed) else none
  | .complete runId _ ok =>
    if (runId, .completing) ∈ s.tasks ∧ ok = true then some (runId, .completed) else none
  | .fail runId _ _ ok =>
    if (runId, .failing) ∈ s.tasks ∧ ok = true then some (runId, .failed) else none
  | _ => none

theorem completeRow_status (kind : ServiceKind) (now : ℤ) (row : SessionRow R) :
    (completeRow kind now row).status = .completed := by
  cases kind <;> rfl

theorem failRow_status (kind : ServiceKind) (errorMessage : String) (now : ℤ) (row : SessionRow R) :
    (failRow kind errorMessage now row).status = .failed := by
  cases kind <;> rfl

/-- A step of a task that leaves the table alone. -/
theorem tableStep_advance_same (s : RunQueue R) (runId : String) (phase : Phase)
    (next : Option Phase) {f : RunQueue R → RunQueue R} (hf : ∀ s', (f s').table = s'.table) :
    TableStep s.table none (advance s runId phase next f).table := by
  unfold advance
  split
  case isTrue =>
    rw [hf]
    exact .same
  case isFalse => exact .same

/-- A step of a task that writes the row of its run with care. -/
theorem tableStep_advance_careful (s : RunQueue R) (runId : String) (phase : Phase)
    (next : Option Phase) (ok : Bool) {f : SessionRow R → SessionRow R} (hf : Careful f) :
    TableStep s.table none (advance s runId phase next (writeIf ok runId f)).table := by
  unfold advance
  split
  case isTrue =>
    cases ok with
    | true => exact .written runId hf
    | false => exact .same
  case isFalse => exact .same

/-- A step of a task that marks its run. -/
theorem tableStep_advance_mark (s : RunQueue R) (runId : String) (phase : Phase)
    (next : Option Phase) (ok : Bool) {f : SessionRow R → SessionRow R} {status : ExecutionStatus}
    (hfinal : IsFinal status) (hf : ∀ row, (f row).status = status) :
    TableStep s.table (if (runId, phase) ∈ s.tasks ∧ ok = true then some (runId, status) else none)
      (advance s runId phase next (writeIf ok runId f)).table := by
  by_cases hmem : (runId, phase) ∈ s.tasks
  · have hadvance : advance s runId phase next (writeIf ok runId f) =
        writeIf ok runId f { s with tasks := move s.tasks (runId, phase) next } := if_pos hmem
    rw [hadvance]
    cases ok with
    | true =>
      rw [if_pos (And.intro hmem rfl)]
      exact .marked runId hfinal hf
    | false =>
      rw [if_neg fun h : _ ∧ _ => Bool.noConfusion h.2]
      exact .same
  · have hadvance : advance s runId phase next (writeIf ok runId f) = s := if_neg hmem
    rw [hadvance, if_neg fun h : _ ∧ _ => hmem h.1]
    exact .same

theorem tableStep_step (s : RunQueue R) (op : QueueOp R) :
    TableStep s.table (markOf s op) (step settings s op).table := by
  cases op with
  | save runId request now =>
    -- a run is saved under a new id only
    show TableStep s.table none (save s runId request now).table
    unfold save
    split
    case isTrue => exact .same
    case isFalse hfresh => exact .saved request now (by simpa [Dict.contains] using hfresh)
  | acquireNow runId now ok =>
    -- a free slot is taken by a queued run
    show TableStep s.table none (acquireNow settings s runId now ok).table
    unfold acquireNow
    split
    case isTrue hfree =>
      obtain ⟨row, hget, hqueued⟩ := SessionTable.isQueued_iff.mp hfree.2.2
      unfold advance
      split
      case isTrue =>
        show TableStep s.table none (s.table.modify runId _)
        rw [SessionTable.modify_of_get? _ hget]
        exact .acquired _ now _ hget hqueued
      case isFalse => exact .same
    case isFalse => exact tableStep_advance_same s runId _ _ fun _ => rfl
  | dispatchNext now =>
    -- the next queued run, whether its task can be created or not
    show TableStep s.table none (dispatchNext settings s now).table
    unfold dispatchNext
    split
    case isTrue => exact .same
    case isFalse =>
      split
      case h_1 => exact .same
      case h_2 runId table hnext =>
        obtain ⟨row, hget, hqueued, rfl⟩ := SessionTable.acquireNextQueued_eq_some hnext
        split
        case isTrue => exact .acquired _ now _ hget hqueued
        case isFalse => exact .acquired _ now _ hget hqueued
  -- the accesses of a task to its sets leave the table
  | startThread runId => exact tableStep_advance_same s runId _ _ fun _ => rfl
  | spawnFails runId => exact tableStep_advance_same s runId _ _ fun _ => rfl
  | releaseUnspawned runId => exact tableStep_advance_same s runId _ _ fun _ => rfl
  -- a mark is written over whatever the status is
  | markUnspawned runId errorMessage now ok =>
    exact tableStep_advance_mark s runId _ _ ok trivial fun _ => rfl
  | checkFlag runId => exact tableStep_advance_same s runId _ _ fun _ => rfl
  | checkStored runId => exact tableStep_advance_same s runId _ _ fun _ => rfl
  -- a cancellation is written where the run has not ended
  | skip runId now ok =>
    exact tableStep_advance_careful s runId _ _ ok (careful_markCancelled _ now)
  | runEnds runId outcome => exact tableStep_advance_same s runId _ _ fun _ => rfl
  | complete runId now ok =>
    exact tableStep_advance_mark s runId _ _ ok trivial (completeRow_status _ now)
  | fail runId errorMessage now ok =>
    exact tableStep_advance_mark s runId _ _ ok trivial (failRow_status _ errorMessage now)
  | cancelRun runId now ok =>
    exact tableStep_advance_careful s runId _ _ ok (careful_markCancelled _ now)
  | release runId => exact tableStep_advance_same s runId _ _ fun _ => rfl
  | requestCancel runId => exact .same
  | markCancel runId reason now ok =>
    show TableStep s.table none (advance s runId _ _ _).table
    unfold advance
    split
    case isTrue =>
      cases ok with
      | true => exact .written runId (careful_markCancelled reason now)
      | false => exact .same
    case isFalse => exact .same
  | releaseCancelled runId => exact tableStep_advance_same s runId _ _ fun _ => rfl
  | renewLease runId now => exact .written runId (careful_renewLease _ now _)
  | recover now => exact .recovered now _

/-! ## §2 The tasks -/

/-- The run has a slot, and its thread was not started yet. -/
def awaitsThread : Phase → Bool
  | .acquired | .dispatched => true
  | _ => false

/-- The runs whose tasks hold a slot. -/
def holders (tasks : List Task) : List String :=
  (tasks.filter fun task => task.2.holdsSlot).map Prod.fst

theorem holders_cons (task : Task) (tasks : List Task) :
    holders (task :: tasks) =
      if task.2.holdsSlot then task.1 :: holders tasks else holders tasks := by
  unfold holders
  rw [List.filter_cons]
  split <;> rfl

theorem mem_holders {tasks : List Task} {runId : String} :
    runId ∈ holders tasks ↔ ∃ phase, (runId, phase) ∈ tasks ∧ phase.holdsSlot = true := by
  unfold holders
  simp only [List.mem_map, List.mem_filter]
  constructor
  · rintro ⟨⟨_, phase⟩, ⟨hmem, hholds⟩, rfl⟩
    exact ⟨phase, hmem, hholds⟩
  · rintro ⟨phase, hmem, hholds⟩
    exact ⟨(runId, phase), ⟨hmem, hholds⟩, rfl⟩

theorem holders_perm {tasks tasks' : List Task} (h : tasks.Perm tasks') :
    (holders tasks).Perm (holders tasks') := (h.filter _).map _

/-- The holders, with the run of one task in front when it holds a slot. -/
theorem holders_erase {tasks : List Task} {task : Task} (h : task ∈ tasks) :
    (holders tasks).Perm
      (if task.2.holdsSlot then task.1 :: holders (tasks.erase task)
        else holders (tasks.erase task)) := by
  rw [← holders_cons]
  exact holders_perm (List.perm_cons_erase h)

theorem holders_move (tasks : List Task) (task : Task) (next : Option Phase) :
    holders (move tasks task next) =
      if next.any Phase.holdsSlot then task.1 :: holders (tasks.erase task)
      else holders (tasks.erase task) := by
  cases next with
  | none => rfl
  | some phase => exact holders_cons _ _

theorem mem_move {tasks : List Task} {task other : Task} {next : Option Phase}
    (h : other ∈ move tasks task next) :
    (∃ phase, next = some phase ∧ other = (task.1, phase)) ∨ other ∈ tasks.erase task := by
  cases next with
  | none => exact .inr h
  | some phase =>
    rcases List.mem_cons.mp h with rfl | h
    · exact .inl ⟨phase, rfl, rfl⟩
    · exact .inr h

/-- No task waits for its thread that did not before. -/
def NoneAwaits (tasks tasks' : List Task) : Prop :=
  ∀ task ∈ tasks', awaitsThread task.2 = true → task ∈ tasks

/-- What a step does to the tasks, the slots and the started runs.  The index is the run whose slot
    a cancellation releases. -/
inductive TaskStep (settings : QueueSettings) (s : RunQueue R) : Option String → RunQueue R → Prop
  | quiet {s' : RunQueue R} (hactive : s'.activeRuns = s.activeRuns)
      (hstarted : s'.started = s.started) (hholders : (holders s'.tasks).Perm (holders s.tasks))
      (hawaits : NoneAwaits s.tasks s'.tasks) : TaskStep settings s none s'
  | taken {s' : RunQueue R} (runId : String) (hfree : s.activeRuns.length < settings.slots)
      (hqueued : ¬NotQueued s.table runId) (hrun : NotQueued s'.table runId)
      (hactive : s'.activeRuns = s.activeRuns.insert runId) (hstarted : s'.started = s.started)
      (hholders : (holders s'.tasks).Perm (runId :: holders s.tasks))
      (hawaits : ∀ task ∈ s'.tasks, awaitsThread task.2 = true → task ∈ s.tasks ∨ task.1 = runId) :
      TaskStep settings s none s'
  | begun {s' : RunQueue R} (runId : String) (phase : Phase) (hmem : (runId, phase) ∈ s.tasks)
      (hphase : awaitsThread phase = true) (hactive : s'.activeRuns = s.activeRuns)
      (hstarted : s'.started = runId :: s.started)
      (hholders : (holders s'.tasks).Perm (holders s.tasks))
      (hawaits : NoneAwaits (s.tasks.erase (runId, phase)) s'.tasks) : TaskStep settings s none s'
  | released {s' : RunQueue R} (runId : String)
      (hactive : s'.activeRuns = s.activeRuns.erase runId) (hstarted : s'.started = s.started)
      (hholders : (runId :: holders s'.tasks).Perm (holders s.tasks))
      (hawaits : NoneAwaits s.tasks s'.tasks) : TaskStep settings s none s'
  | discarded {s' : RunQueue R} (runId : String)
      (hactive : s'.activeRuns = s.activeRuns.erase runId) (hstarted : s'.started = s.started)
      (hholders : (holders s'.tasks).Perm (holders s.tasks))
      (hawaits : NoneAwaits s.tasks s'.tasks) : TaskStep settings s (some runId) s'

theorem TaskStep.refl (s : RunQueue R) : TaskStep settings s none s :=
  .quiet rfl rfl (.refl _) fun _ hmem _ => hmem

theorem noneAwaits_move {tasks : List Task} {task : Task} {next : Option Phase}
    (hnext : ∀ phase, next = some phase → awaitsThread phase = false) :
    NoneAwaits (tasks.erase task) (move tasks task next) := by
  intro other hmem hawaits
  rcases mem_move hmem with ⟨phase, hphase, rfl⟩ | hmem
  · rw [hnext phase hphase] at hawaits
    cases hawaits
  · exact hmem

theorem NoneAwaits.of_erase {tasks tasks' : List Task} {task : Task}
    (h : NoneAwaits (tasks.erase task) tasks') : NoneAwaits tasks tasks' :=
  fun other hmem hawaits => List.mem_of_mem_erase (h other hmem hawaits)

/-- A task goes on, and holds a slot as before. -/
theorem taskStep_advance_quiet (s : RunQueue R) (runId : String) (phase : Phase)
    (next : Option Phase) {f : RunQueue R → RunQueue R}
    (hnext : ∀ q, next = some q → awaitsThread q = false)
    (hholds : next.any Phase.holdsSlot = phase.holdsSlot)
    (hf : ∀ s', (f s').tasks = s'.tasks ∧ (f s').activeRuns = s'.activeRuns ∧
      (f s').started = s'.started) :
    TaskStep settings s none (advance s runId phase next f) := by
  unfold advance
  split
  case isTrue hmem =>
    obtain ⟨htasks, hactive, hstarted⟩ := hf { s with tasks := move s.tasks (runId, phase) next }
    refine .quiet hactive hstarted ?_ ?_
    · rw [htasks, holders_move, hholds]
      exact (holders_erase hmem).symm
    · rw [htasks]
      exact (noneAwaits_move hnext).of_erase
  case isFalse => exact .refl s

/-- A task that holds a slot releases it. -/
theorem taskStep_advance_release (s : RunQueue R) (runId : String) (phase : Phase)
    (next : Option Phase) (hnext : ∀ q, next = some q → awaitsThread q = false)
    (hphase : phase.holdsSlot = true) (hholds : next.any Phase.holdsSlot = false) :
    TaskStep settings s none (advance s runId phase next (discard runId)) := by
  unfold advance
  split
  case isTrue hmem =>
    refine .released runId rfl rfl ?_ (noneAwaits_move hnext).of_erase
    have herase := holders_erase hmem
    rw [if_pos hphase] at herase
    show (runId :: holders (move s.tasks (runId, phase) next)).Perm (holders s.tasks)
    rw [holders_move, hholds]
    exact herase.symm
  case isFalse => exact .refl s

/-- The run whose slot a cancellation releases. -/
def discardOf (s : RunQueue R) : QueueOp R → Option String
  | .releaseCancelled runId => if (runId, .cancelReleasing) ∈ s.tasks then some runId else none
  | _ => none

/-- A task that holds no slot is added. -/
theorem taskStep_enter (s s' : RunQueue R) (task : Task) (htasks : s'.tasks = task :: s.tasks)
    (hactive : s'.activeRuns = s.activeRuns) (hstarted : s'.started = s.started)
    (hholds : task.2.holdsSlot = false) (hawaits : awaitsThread task.2 = false) :
    TaskStep settings s none s' := by
  refine .quiet hactive hstarted ?_ ?_
  · rw [htasks, holders_cons, hholds]
    exact .refl _
  · rw [htasks]
    intro other hmem hother
    rcases List.mem_cons.mp hmem with rfl | hmem
    · rw [hawaits] at hother
      cases hother
    · exact hmem

theorem writeIf_frame (ok : Bool) (runId : String) (f : SessionRow R → SessionRow R)
    (s : RunQueue R) :
    (writeIf ok runId f s).tasks = s.tasks ∧ (writeIf ok runId f s).activeRuns = s.activeRuns ∧
      (writeIf ok runId f s).started = s.started := by
  cases ok <;> exact ⟨rfl, rfl, rfl⟩

theorem not_notQueued {table : SessionTable R} {runId : String} {row : SessionRow R}
    (hget : table.get? runId = some row) (hqueued : row.status = .queued) :
    ¬NotQueued table runId := by
  rintro ⟨row', hget', hne⟩
  rw [Option.some.inj (hget.symm.trans hget')] at hqueued
  exact hne hqueued

theorem notQueued_set_acquire (table : SessionTable R) (runId : String) (row : SessionRow R)
    (worker : String) (now lease : ℤ) :
    NotQueued (table.set runId (row.acquire worker now lease)) runId :=
  ⟨_, Dict.get?_set_self _ _ _, nofun⟩

theorem taskStep_acquireNow (s : RunQueue R) (runId : String) (now : ℤ) (ok : Bool) :
    TaskStep settings s none (acquireNow settings s runId now ok) := by
  unfold acquireNow
  split
  case isTrue hfree =>
    obtain ⟨row, hget, hqueued⟩ := SessionTable.isQueued_iff.mp hfree.2.2
    rw [SessionTable.modify_of_get? _ hget]
    unfold advance
    split
    case isTrue hmem =>
      refine .taken runId hfree.1 (not_notQueued hget hqueued)
        (notQueued_set_acquire _ _ _ _ _ _) rfl rfl ?_ ?_
      · have herase := holders_erase hmem
        show (holders (move s.tasks (runId, .saved) (some .acquired))).Perm _
        rw [holders_move]
        exact .cons _ herase.symm
      · intro task htask _
        rcases mem_move htask with ⟨phase, -, rfl⟩ | htask
        · exact .inr rfl
        · exact .inl (List.mem_of_mem_erase htask)
    case isFalse => exact .refl s
  case isFalse =>
    exact taskStep_advance_quiet s runId .saved none nofun rfl fun _ => ⟨rfl, rfl, rfl⟩

theorem taskStep_dispatchNext (s : RunQueue R) (now : ℤ) :
    TaskStep settings s none (dispatchNext settings s now) := by
  unfold dispatchNext
  split
  case isTrue => exact .refl s
  case isFalse hfree =>
    split
    case h_1 => exact .refl s
    case h_2 runId table hnext =>
      obtain ⟨row, hget, hqueued, rfl⟩ := SessionTable.acquireNextQueued_eq_some hnext
      split
      case isTrue => exact .quiet rfl rfl (.refl _) fun _ hmem _ => hmem
      case isFalse =>
        refine .taken runId (Nat.lt_of_not_le hfree) (not_notQueued hget hqueued)
          (notQueued_set_acquire _ _ _ _ _ _) rfl rfl (.refl _) ?_
        intro task htask _
        rcases List.mem_cons.mp htask with rfl | htask
        · exact .inr rfl
        · exact .inl htask

theorem firstPhase_spec (kind : ServiceKind) :
    (firstPhase kind).holdsSlot = true ∧ awaitsThread (firstPhase kind) = false := by
  cases kind <;> exact ⟨rfl, rfl⟩

theorem taskStep_startThread (s : RunQueue R) (runId : String) :
    TaskStep settings s none (startThread settings s runId) := by
  unfold startThread
  -- the phase before the start of the thread
  have hphase : ∀ phase, awaitsThread phase = true → phase.holdsSlot = true →
      TaskStep settings s none
      (advance s runId phase (some (firstPhase settings.kind)) (noteStarted runId)) := by
    intro phase hawaits hholds
    obtain ⟨hfirst, hfirst'⟩ := firstPhase_spec settings.kind
    unfold advance
    split
    case isTrue hmem =>
      refine .begun runId phase hmem hawaits rfl rfl ?_ ?_
      · have herase := holders_erase hmem
        rw [if_pos hholds] at herase
        show (holders (move s.tasks (runId, phase) _)).Perm _
        rw [holders_move, Option.any_some, if_pos hfirst]
        exact herase.symm
      · refine noneAwaits_move fun q hq => ?_
        rw [← Option.some.inj hq]
        exact hfirst'
    case isFalse => exact .refl s
  show TaskStep settings s none (advance s runId (if _ then _ else _) _ _)
  split
  case isTrue => exact hphase _ rfl rfl
  case isFalse => exact hphase _ rfl rfl

theorem holdsSlot_outcomePhase (outcome : RunOutcome) :
    (outcomePhase outcome).holdsSlot = true ∧ awaitsThread (outcomePhase outcome) = false := by
  cases outcome <;> exact ⟨rfl, rfl⟩

/-- The next phase of a thread is one of two that both hold the slot. -/
theorem taskStep_advance_branch (s : RunQueue R) (runId : String) (phase : Phase) (branch : Prop)
    [Decidable branch] (yes no : Phase) {f : RunQueue R → RunQueue R}
    (hphase : phase.holdsSlot = true)
    (hyes : yes.holdsSlot = true ∧ awaitsThread yes = false)
    (hno : no.holdsSlot = true ∧ awaitsThread no = false)
    (hf : ∀ s', (f s').tasks = s'.tasks ∧ (f s').activeRuns = s'.activeRuns ∧
      (f s').started = s'.started) :
    TaskStep settings s none (advance s runId phase (some (if branch then yes else no)) f) := by
  split
  case isTrue =>
    refine taskStep_advance_quiet s runId phase _ ?_ (hyes.1.trans hphase.symm) hf
    intro q hq
    rw [← Option.some.inj hq]
    exact hyes.2
  case isFalse =>
    refine taskStep_advance_quiet s runId phase _ ?_ (hno.1.trans hphase.symm) hf
    intro q hq
    rw [← Option.some.inj hq]
    exact hno.2

theorem taskStep_step (s : RunQueue R) (op : QueueOp R) :
    TaskStep settings s (discardOf s op) (step settings s op) := by
  -- an access that only moves its task to the next phase
  have hid : ∀ s' : RunQueue R, (id s').tasks = s'.tasks ∧ (id s').activeRuns = s'.activeRuns ∧
      (id s').started = s'.started := fun _ => ⟨rfl, rfl, rfl⟩
  cases op with
  | save runId request now =>
    show TaskStep settings s none (save s runId request now)
    unfold save
    split
    case isTrue => exact .refl s
    case isFalse => exact taskStep_enter s _ (runId, .saved) rfl rfl rfl rfl rfl
  | acquireNow runId now ok => exact taskStep_acquireNow s runId now ok
  | dispatchNext now => exact taskStep_dispatchNext s now
  | startThread runId => exact taskStep_startThread s runId
  | spawnFails runId =>
    exact taskStep_advance_quiet s runId _ (some .unspawned) (by rintro q ⟨⟩; rfl) rfl hid
  | releaseUnspawned runId =>
    exact taskStep_advance_release s runId _ (some .spawnFailed) (by rintro q ⟨⟩; rfl) rfl rfl
  | markUnspawned runId errorMessage now ok =>
    exact taskStep_advance_quiet s runId .spawnFailed none nofun rfl (writeIf_frame ok runId _)
  -- the two looks for a cancellation, each with a branch to the skipping
  | checkFlag runId =>
    exact taskStep_advance_branch s runId .checkingFlag _ .skipping .checkingStored rfl ⟨rfl, rfl⟩
      ⟨rfl, rfl⟩ hid
  | checkStored runId =>
    exact taskStep_advance_branch s runId .checkingStored _ .skipping .running rfl ⟨rfl, rfl⟩
      ⟨rfl, rfl⟩ hid
  | skip runId now ok =>
    exact taskStep_advance_branch s runId .skipping _ .releasing .failing rfl ⟨rfl, rfl⟩ ⟨rfl, rfl⟩
      (writeIf_frame ok runId _)
  | runEnds runId outcome =>
    obtain ⟨hholds, hawaits⟩ := holdsSlot_outcomePhase outcome
    refine taskStep_advance_quiet s runId .running _ ?_ hholds hid
    intro q hq
    rw [← Option.some.inj hq]
    exact hawaits
  -- a write of the final status; one that fails leads to the handler
  | complete runId now ok =>
    exact taskStep_advance_branch s runId .completing _ .releasing .failing rfl ⟨rfl, rfl⟩
      ⟨rfl, rfl⟩ (writeIf_frame ok runId _)
  | fail runId errorMessage now ok =>
    exact taskStep_advance_quiet s runId _ (some .releasing) (by rintro q ⟨⟩; rfl) rfl
      (writeIf_frame ok runId _)
  | cancelRun runId now ok =>
    exact taskStep_advance_quiet s runId _ (some .releasing) (by rintro q ⟨⟩; rfl) rfl
      (writeIf_frame ok runId _)
  | release runId => exact taskStep_advance_release s runId .releasing none nofun rfl rfl
  -- a cancellation is a task of its own, which holds no slot
  | requestCancel runId => exact taskStep_enter s _ (runId, .cancelMarking) rfl rfl rfl rfl rfl
  | markCancel runId reason now ok =>
    cases ok with
    | true =>
      exact taskStep_advance_quiet s runId .cancelMarking (some .cancelReleasing)
        (by rintro q ⟨⟩; rfl) rfl fun _ => ⟨rfl, rfl, rfl⟩
    | false => exact taskStep_advance_quiet s runId .cancelMarking none nofun rfl hid
  | releaseCancelled runId =>
    -- it discards the id of the run, whoever holds the slot under it
    show TaskStep settings s (if _ then _ else _) (advance s runId _ none (discard runId))
    unfold advance
    split
    case isTrue hmem =>
      have hawaits : NoneAwaits (s.tasks.erase (runId, .cancelReleasing))
          (move s.tasks (runId, .cancelReleasing) none) := noneAwaits_move nofun
      exact .discarded runId rfl rfl (holders_erase hmem).symm hawaits.of_erase
    case isFalse => exact .refl s
  | renewLease runId now => exact .quiet rfl rfl (.refl _) fun _ hmem _ => hmem
  | recover now => exact .quiet rfl rfl (.refl _) fun _ hmem _ => hmem

/-! ## §3 Invariants -/

theorem holdsSlot_of_awaitsThread {phase : Phase} (h : awaitsThread phase = true) :
    phase.holdsSlot = true := by
  cases phase <;> simp [awaitsThread, Phase.holdsSlot] at h ⊢

/-- A run has one task with a slot at most, and one thread.

    A queued run has no task with a slot and was never started.  A task takes its slot when it
    acquires a queued run, so it is the only one. -/
structure OneTask (s : RunQueue R) : Prop where
  nodup : (holders s.tasks).Nodup
  notQueued : ∀ runId ∈ holders s.tasks, NotQueued s.table runId
  started_nodup : s.started.Nodup
  started_notQueued : ∀ runId ∈ s.started, NotQueued s.table runId
  unstarted : ∀ task ∈ s.tasks, awaitsThread task.2 = true → task.1 ∉ s.started

/-- The tasks that hold a slot are those of active runs, of which there are no more than slots. -/
structure InSlots (settings : QueueSettings) (s : RunQueue R) : Prop where
  slots : s.activeRuns.length ≤ settings.slots
  active : ∀ runId ∈ holders s.tasks, runId ∈ s.activeRuns

/-- No task takes a slot and no thread is started. -/
theorem OneTask.kept {s s' : RunQueue R} {mark : Option (String × ExecutionStatus)} (h : OneTask s)
    (htable : TableStep s.table mark s'.table) (hstarted : s'.started = s.started)
    (hnodup : (holders s'.tasks).Nodup) (hholders : holders s'.tasks ⊆ holders s.tasks)
    (hawaits : NoneAwaits s.tasks s'.tasks) : OneTask s' := by
  refine ⟨hnodup, ?_, ?_, ?_, ?_⟩
  · intro runId hmem
    exact htable.notQueued (h.notQueued runId (hholders hmem))
  · rw [hstarted]
    exact h.started_nodup
  · rw [hstarted]
    intro runId hmem
    exact htable.notQueued (h.started_notQueued runId hmem)
  · rw [hstarted]
    intro task hmem htask
    exact h.unstarted task (hawaits task hmem htask) htask

theorem OneTask.of_step {s s' : RunQueue R} {mark : Option (String × ExecutionStatus)}
    {discarded : Option String} (h : OneTask s) (htable : TableStep s.table mark s'.table)
    (htask : TaskStep settings s discarded s') : OneTask s' := by
  cases htask with
  | quiet hactive hstarted hholders hawaits =>
    exact h.kept htable hstarted (hholders.symm.nodup h.nodup) hholders.subset hawaits
  | taken runId hfree hqueued hrun hactive hstarted hholders hawaits =>
    -- a queued run has no task with a slot, so its new one is the only one
    have hnew : runId ∉ holders s.tasks := fun hmem => hqueued (h.notQueued runId hmem)
    refine ⟨hholders.symm.nodup (List.nodup_cons.mpr ⟨hnew, h.nodup⟩), ?_, ?_, ?_, ?_⟩
    · intro otherId hmem
      rcases List.mem_cons.mp (hholders.subset hmem) with rfl | hmem
      · exact hrun
      · exact htable.notQueued (h.notQueued otherId hmem)
    · rw [hstarted]
      exact h.started_nodup
    · rw [hstarted]
      intro otherId hmem
      exact htable.notQueued (h.started_notQueued otherId hmem)
    · rw [hstarted]
      intro task hmem htask
      rcases hawaits task hmem htask with hmem | hsame
      · exact h.unstarted task hmem htask
      · rw [hsame]
        exact fun hstart => hqueued (h.started_notQueued runId hstart)
  | begun runId phase hmem hphase hactive hstarted hholders hawaits =>
    -- the task was waiting for its thread, so the run had none
    have hholds := holdsSlot_of_awaitsThread hphase
    have herase := holders_erase hmem
    rw [if_pos hholds] at herase
    have honly := (List.nodup_cons.mp (herase.nodup h.nodup)).1
    refine ⟨hholders.symm.nodup h.nodup, ?_, ?_, ?_, ?_⟩
    · intro otherId hother
      exact htable.notQueued (h.notQueued otherId (hholders.subset hother))
    · rw [hstarted]
      exact List.nodup_cons.mpr ⟨h.unstarted _ hmem hphase, h.started_nodup⟩
    · rw [hstarted]
      intro otherId hother
      rcases List.mem_cons.mp hother with rfl | hother
      · exact htable.notQueued (h.notQueued otherId (mem_holders.mpr ⟨phase, hmem, hholds⟩))
      · exact htable.notQueued (h.started_notQueued otherId hother)
    · rw [hstarted]
      intro task htask hawaitsTask hstart
      have hbefore := hawaits task htask hawaitsTask
      rcases List.mem_cons.mp hstart with hsame | hstart
      · -- the run has no second task with a slot
        refine honly (mem_holders.mpr ⟨task.2, ?_, holdsSlot_of_awaitsThread hawaitsTask⟩)
        have htaskEq : (runId, task.2) = task := Prod.ext hsame.symm rfl
        rw [htaskEq]
        exact hbefore
      · exact h.unstarted task (List.mem_of_mem_erase hbefore) hawaitsTask hstart
  -- a task gives its slot up, or its slot is discarded under it
  | released runId hactive hstarted hholders hawaits =>
    exact h.kept htable hstarted (List.nodup_cons.mp (hholders.symm.nodup h.nodup)).2
      (fun _ hmem => hholders.subset (List.mem_cons_of_mem _ hmem)) hawaits
  | discarded runId hactive hstarted hholders hawaits =>
    exact h.kept htable hstarted (hholders.symm.nodup h.nodup) hholders.subset hawaits

/-- The slot that a cancellation releases is held by no task. -/
def ReleasesFreeSlot (s : RunQueue R) (op : QueueOp R) : Prop :=
  ∀ runId, discardOf s op = some runId → runId ∉ holders s.tasks

instance (s : RunQueue R) (op : QueueOp R) : Decidable (ReleasesFreeSlot s op) :=
  inferInstanceAs (Decidable (∀ runId ∈ discardOf s op, runId ∉ holders s.tasks))

theorem InSlots.of_step {s s' : RunQueue R} {discarded : Option String} (h : InSlots settings s)
    (hone : OneTask s) (htask : TaskStep settings s discarded s')
    (hfree : ∀ runId, discarded = some runId → runId ∉ holders s.tasks) : InSlots settings s' := by
  cases htask with
  | quiet hactive hstarted hholders hawaits =>
    constructor
    · rw [hactive]
      exact h.slots
    · rw [hactive]
      intro runId hmem
      exact h.active runId (hholders.subset hmem)
  | taken runId hfree' hqueued hrun hactive hstarted hholders hawaits =>
    -- a slot was free, and the run takes it
    constructor
    · rw [hactive]
      have hinsert : (s.activeRuns.insert runId).length ≤ s.activeRuns.length + 1 := by
        rw [List.length_insert]
        split <;> omega
      omega
    · rw [hactive]
      intro otherId hmem
      rcases List.mem_cons.mp (hholders.subset hmem) with rfl | hmem
      · exact List.mem_insert_self
      · exact List.mem_insert_of_mem (h.active otherId hmem)
  | begun runId phase hmem hphase hactive hstarted hholders hawaits =>
    constructor
    · rw [hactive]
      exact h.slots
    · rw [hactive]
      intro otherId hother
      exact h.active otherId (hholders.subset hother)
  | released runId hactive hstarted hholders hawaits =>
    -- the holder of the slot was the only one, so the others keep theirs
    have hnew := (List.nodup_cons.mp (hholders.symm.nodup hone.nodup)).1
    constructor
    · rw [hactive]
      exact (List.length_erase_le).trans h.slots
    · rw [hactive]
      intro otherId hmem
      have hne : otherId ≠ runId := by
        rintro rfl
        exact hnew hmem
      exact (List.mem_erase_of_ne hne).mpr
        (h.active otherId (hholders.subset (List.mem_cons_of_mem _ hmem)))
  | discarded runId hactive hstarted hholders hawaits =>
    -- nobody holds the slot that is discarded, by assumption
    constructor
    · rw [hactive]
      exact (List.length_erase_le).trans h.slots
    · rw [hactive]
      intro otherId hmem
      have hholder := hholders.subset hmem
      have hne : otherId ≠ runId := by
        rintro rfl
        exact hfree otherId rfl hholder
      exact (List.mem_erase_of_ne hne).mpr (h.active otherId hholder)

theorem holdsSlot_of_executes {phase : Phase} (h : phase.executes = true) :
    phase.holdsSlot = true := by
  cases phase <;> simp [Phase.executes, Phase.holdsSlot] at h ⊢

/-- The executed runs have slots. -/
theorem length_executing_le {s : RunQueue R} (hone : OneTask s) (h : InSlots settings s) :
    (executing s).length ≤ settings.slots := by
  have hsub : (executing s).Sublist (holders s.tasks) :=
    (List.monotone_filter_right s.tasks fun _ => holdsSlot_of_executes).map Prod.fst
  calc (executing s).length
      ≤ (holders s.tasks).length := hsub.length_le
    _ ≤ s.activeRuns.length := (List.subperm_of_subset hone.nodup h.active).length_le
    _ ≤ settings.slots := h.slots

theorem oneTask_start : OneTask (start : RunQueue R) := by
  refine ⟨List.nodup_nil, ?_, List.nodup_nil, ?_, ?_⟩
  all_goals
    intro x hmem
    exact absurd hmem List.not_mem_nil

theorem inSlots_start : InSlots settings (start : RunQueue R) := by
  refine ⟨Nat.zero_le _, ?_⟩
  intro runId hmem
  exact absurd hmem List.not_mem_nil

/-! ## §4 Cancelled runs -/

/-- A run whose cancellation returned true is stored as cancelled. -/
def CancelledStay (s : RunQueue R) : Prop :=
  ∀ runId ∈ s.cancellations, ∃ row, s.table.get? runId = some row ∧ row.status = .cancelled

theorem cancellations_advance (s : RunQueue R) (runId : String) (phase : Phase)
    (next : Option Phase) {f : RunQueue R → RunQueue R}
    (hf : ∀ s', (f s').cancellations = s'.cancellations) :
    (advance s runId phase next f).cancellations = s.cancellations := by
  unfold advance
  split
  case isTrue => exact hf _
  case isFalse => rfl

theorem cancellations_writeIf (ok : Bool) (runId : String) (f : SessionRow R → SessionRow R)
    (s : RunQueue R) : (writeIf ok runId f s).cancellations = s.cancellations := by
  cases ok <;> rfl

/-- A run enters the cancelled ones with the status to show for it. -/
theorem mem_cancellations_step {s : RunQueue R} {op : QueueOp R} {runId : String}
    (h : runId ∈ (step settings s op).cancellations) :
    runId ∈ s.cancellations ∨
      ∃ row, (step settings s op).table.get? runId = some row ∧ row.status = .cancelled := by
  have hid : ∀ s' : RunQueue R, (id s').cancellations = s'.cancellations := fun _ => rfl
  cases op with
  -- the one operation that adds a run: `markCancel` notes it where the row is active
  | markCancel runId' reason now ok =>
    cases ok with
    | true =>
      simp only [step, if_true, advance] at h ⊢
      split at h
      case isTrue hmem =>
        rw [if_pos hmem]
        simp only [markCancel] at h ⊢
        split at h
        case isTrue hactive =>
          rcases List.mem_cons.mp h with rfl | h
          · -- an active run is marked
            right
            obtain ⟨row, hget, hrow⟩ := (Option.any_eq_true _ _).mp hactive
            refine ⟨row.markCancelled reason now, ?_, ?_⟩
            · rw [SessionTable.get?_modify, if_pos rfl, hget]
              rfl
            · unfold SessionRow.markCancelled
              rw [if_pos hrow]
          · exact .inl h
        case isFalse => exact .inl h
      case isFalse => exact .inl h
    | false =>
      left
      exact (cancellations_advance s runId' _ _ hid) ▸ h
  -- no other operation touches the cancelled ones
  | save runId' request now =>
    left
    simp only [step, save] at h
    split at h <;> exact h
  | acquireNow runId' now ok =>
    left
    simp only [step, acquireNow] at h
    split at h
    case isTrue =>
      exact (cancellations_advance s runId' _ _ (f := take _ runId') fun _ => rfl) ▸ h
    case isFalse => exact (cancellations_advance s runId' _ _ hid) ▸ h
  | dispatchNext now =>
    left
    simp only [step, dispatchNext] at h
    split at h
    case isTrue => exact h
    case isFalse =>
      split at h
      case h_1 => exact h
      case h_2 => split at h <;> exact h
  | startThread runId' =>
    exact .inl ((cancellations_advance s runId' _ _ (f := noteStarted runId') fun _ => rfl) ▸ h)
  | spawnFails runId' => exact .inl ((cancellations_advance s runId' _ _ hid) ▸ h)
  | releaseUnspawned runId' =>
    exact .inl ((cancellations_advance s runId' _ _ (f := discard runId') fun _ => rfl) ▸ h)
  | markUnspawned runId' errorMessage now ok =>
    exact .inl ((cancellations_advance s runId' _ _ (cancellations_writeIf ok runId' _)) ▸ h)
  | checkFlag runId' => exact .inl ((cancellations_advance s runId' _ _ hid) ▸ h)
  | checkStored runId' => exact .inl ((cancellations_advance s runId' _ _ hid) ▸ h)
  | skip runId' now ok =>
    exact .inl ((cancellations_advance s runId' _ _ (cancellations_writeIf ok runId' _)) ▸ h)
  | runEnds runId' outcome => exact .inl ((cancellations_advance s runId' _ _ hid) ▸ h)
  | complete runId' now ok =>
    exact .inl ((cancellations_advance s runId' _ _ (cancellations_writeIf ok runId' _)) ▸ h)
  | fail runId' errorMessage now ok =>
    exact .inl ((cancellations_advance s runId' _ _ (cancellations_writeIf ok runId' _)) ▸ h)
  | cancelRun runId' now ok =>
    exact .inl ((cancellations_advance s runId' _ _ (cancellations_writeIf ok runId' _)) ▸ h)
  | release runId' =>
    exact .inl ((cancellations_advance s runId' _ _ (f := discard runId') fun _ => rfl) ▸ h)
  | requestCancel runId' => exact .inl h
  | releaseCancelled runId' =>
    exact .inl ((cancellations_advance s runId' _ _ (f := discard runId') fun _ => rfl) ▸ h)
  | renewLease runId' now => exact .inl h
  | recover now => exact .inl h

theorem CancelledStay.step {s : RunQueue R} {op : QueueOp R} (h : CancelledStay s)
    (hkept : FinalKept s.table (RunQueue.step settings s op).table) :
    CancelledStay (RunQueue.step settings s op) := by
  intro runId hmem
  rcases mem_cancellations_step hmem with hmem | hrow
  · obtain ⟨row, hget, hstatus⟩ := h runId hmem
    obtain ⟨row', hget', hstatus'⟩ := hkept runId row hget (hstatus ▸ trivial)
    exact ⟨row', hget', hstatus'.trans hstatus⟩
  · exact hrow

theorem cancelledStay_start : CancelledStay (start : RunQueue R) := by
  intro runId hmem
  exact absurd hmem List.not_mem_nil

/-! ## §5 Runs -/

/-- The guarantees of the queue in a run of its steps.

    - The executed runs are as many as the slots at most.
    - Every run has one thread.
    - What has ended or was cancelled stays so. -/
structure Disciplined (settings : QueueSettings) (ops : List (QueueOp R)) : Prop where
  slots : ∀ done, done <+: ops →
    (executing (run (step settings) start done)).length ≤ settings.slots
  oneThread : ∀ done, done <+: ops → (run (step settings) start done).started.Nodup
  final : ∀ before after, before ++ after <+: ops →
    FinalKept (run (step settings) start before).table
      (run (step settings) start (before ++ after)).table
  cancelled : ∀ done, done <+: ops → CancelledStay (run (step settings) start done)

/-- The step marks no run that has ended with another status. -/
def MarksOpenRun (s : RunQueue R) (op : QueueOp R) : Prop := MarksUnended s.table (markOf s op)

instance (s : RunQueue R) (op : QueueOp R) : Decidable (MarksOpenRun s op) :=
  inferInstanceAs (Decidable (MarksUnended _ _))

theorem finalKept_step_iff {s : RunQueue R} {op : QueueOp R} :
    FinalKept s.table (step settings s op).table ↔ MarksOpenRun s op :=
  (tableStep_step s op).finalKept_iff

theorem OneTask.run (settings : QueueSettings) (ops : List (QueueOp R)) :
    OneTask (Lib.run (step settings) start ops) :=
  run_invariant OneTask (fun s op h => h.of_step (tableStep_step s op) (taskStep_step s op))
    oneTask_start ops

/-- Every run is executed by one thread at most. -/
theorem started_nodup (settings : QueueSettings) (ops : List (QueueOp R)) :
    (run (step settings) start ops).started.Nodup := (OneTask.run settings ops).started_nodup

theorem InSlots.run {ops : List (QueueOp R)}
    (hfree : Along (step settings) ReleasesFreeSlot start ops) :
    OneTask (Lib.run (step settings) start ops) ∧
      InSlots settings (Lib.run (step settings) start ops) := by
  refine run_invariant_along (fun s => OneTask s ∧ InSlots settings s) ?_
    ⟨oneTask_start, inSlots_start⟩ hfree
  rintro s op ⟨hone, hslots⟩ hop
  exact ⟨hone.of_step (tableStep_step s op) (taskStep_step s op),
    hslots.of_step hone (taskStep_step s op) hop⟩

/-- **The queue keeps its guarantees exactly when it marks open runs only**, where cancellations
    release no slot of a task.

    The guarantees are: no more runs are executed than there are slots, each by one thread, and what
    has ended or was cancelled stays so.  A thread that completes or fails writes its status
    whatever is stored, as a cancellation does not. -/
theorem disciplined_iff_marksOpenRun (settings : QueueSettings) (ops : List (QueueOp R))
    (hfree : Along (step settings) ReleasesFreeSlot start ops) :
    Disciplined settings ops ↔ Along (step settings) MarksOpenRun start ops := by
  -- what has ended is kept from any point of the run to any later one if each step keeps it
  have hfinal : (∀ before after, before ++ after <+: ops →
      FinalKept (run (step settings) start before).table
        (run (step settings) start (before ++ after)).table) ↔
      Along (step settings) MarksOpenRun start ops := by
    have hbetween : (∀ before after, before ++ after <+: ops →
        FinalKept (run (step settings) start before).table
          (run (step settings) start (before ++ after)).table) ↔
        Along (step settings) (fun s op => FinalKept s.table (step settings s op).table)
          start ops :=
      rel_between_iff_along (R := fun s s' : RunQueue R => FinalKept s.table s'.table)
        (fun s => .refl s.table) (fun _ _ _ h h' => h.trans h')
    exact hbetween.trans (along_iff_of_invariant (fun _ => True)
      (fun _ _ _ => finalKept_step_iff) (fun _ _ _ _ => trivial) trivial ops)
  constructor
  · intro h
    exact hfinal.mp h.final
  · intro hmarks
    -- the slots and the threads need no condition on the marks
    refine ⟨?_, fun done _ => started_nodup settings done, hfinal.mpr hmarks, ?_⟩
    · rintro done ⟨rest, rfl⟩
      obtain ⟨hone, hslots⟩ := InSlots.run (along_append.mp hfree).1
      exact length_executing_le hone hslots
    · rintro done ⟨rest, rfl⟩
      exact run_invariant_along CancelledStay
        (fun _ _ h hop => h.step (finalKept_step_iff.mpr hop)) cancelledStay_start
        (along_append.mp hmarks).1

/-! ### One slot and two runs -/

/-- A service with one slot. -/
def oneSlot (kind : ServiceKind) : QueueSettings := ⟨kind, 1, 60, 120, "worker"⟩

/-- The second run waits for the slot of the first, and is cancelled before its simulation. -/
def orderlyRun : List (QueueOp String) :=
  [.save "a" "BTC_USD" 0, .acquireNow "a" 0 true, .save "b" "ETH_USD" 1, .acquireNow "b" 1 true,
    .startThread "a", .checkFlag "a", .checkStored "a", .runEnds "a" .returned,
    .complete "a" 20 true, .release "a", .dispatchNext 21, .startThread "b", .requestCancel "b",
    .checkFlag "b", .markCancel "b" none 22 true, .skip "b" 23 true, .release "b",
    .releaseCancelled "b", .recover 500]

theorem orderlyRun_disciplined : Disciplined (oneSlot .backtest) orderlyRun :=
  (disciplined_iff_marksOpenRun (oneSlot .backtest) orderlyRun (by decide +kernel)).mpr
    (by decide +kernel)

/-- The first run is cancelled while it is executed: the second one starts beside it, and the first
    one completes. -/
def cancelledRun : List (QueueOp String) :=
  [.save "a" "BTC_USD" 0, .acquireNow "a" 0 true, .startThread "a", .checkFlag "a",
    .checkStored "a", .requestCancel "a", .markCancel "a" none 10 true, .releaseCancelled "a",
    .save "b" "ETH_USD" 11, .acquireNow "b" 11 true, .startThread "b", .runEnds "a" .returned,
    .complete "a" 20 true]

/-- Two runs were executed with one slot, and the first one is completed although its cancellation
    returned true. -/
def Overruns (kind : ServiceKind) (ops : List (QueueOp String)) : Prop :=
  (executing (run (step (oneSlot kind)) start (ops.take 11))).length = 2 ∧
    "a" ∈ (run (step (oneSlot kind)) start ops).cancellations ∧
    ((run (step (oneSlot kind)) start ops).table.get? "a").map SessionRow.status = some .completed

theorem Overruns.not_disciplined {kind : ServiceKind} {ops : List (QueueOp String)}
    (h : Overruns kind ops) : ¬Disciplined (oneSlot kind) ops := by
  intro hdisciplined
  have hslots := hdisciplined.slots _ (List.take_prefix 11 ops)
  rw [h.1] at hslots
  have hone : 2 ≤ 1 := hslots
  omega

theorem cancelled_run_completes :
    Overruns .backtest cancelledRun ∧ ¬Disciplined (oneSlot .backtest) cancelledRun ∧
      Overruns .walkForward cancelledRun ∧ ¬Disciplined (oneSlot .walkForward) cancelledRun := by
  have hbacktest : Overruns .backtest cancelledRun := by
    unfold Overruns
    decide +kernel
  have hwalkForward : Overruns .walkForward cancelledRun := by
    unfold Overruns
    decide +kernel
  exact ⟨hbacktest, hbacktest.not_disciplined, hwalkForward, hwalkForward.not_disciplined⟩

end RunQueue

end CryptoTrading.Backtest
