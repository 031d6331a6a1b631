import CryptoTrading.Backtest.SessionTable
import CryptoTrading.Lib.Run

/-!
# The run queue of a backtest service

Embeds the queue of `BacktestApplicationService` and of `WalkForwardApplicationService`
(`src/server/services/`): starting a run, dispatching the next one, the thread that executes a run,
cancellation and recovery.  The two services differ in the first step of the thread and in how it
writes the end of the run (`ServiceKind`).

A step is one unit of work, one block under the lock, or the start of a thread.  A call or a thread
that has steps left is a task: the run and what comes next.  A unit of work that raises is a step
that is not `ok`.  Run ids are not used again.  What a runner computes is left out; a run returns,
raises, or is interrupted.

The state also has the runs whose thread was started, and those whose cancellation returned true.
Both are not in the source.
-/

namespace CryptoTrading.Backtest

open CryptoTrading.Lib CryptoTrading.Persistence

/-! ## §1 Services and tasks -/

inductive ServiceKind where
  | backtest
  | walkForward
  deriving DecidableEq

/-- The arguments of the service. -/
structure QueueSettings where
  kind : ServiceKind
  maxConcurrentRuns : ℕ
  leaseDurationSeconds : ℤ
  abandonedTimeoutSeconds : ℤ
  workerId : String

/-- `max(1, max_concurrent_runs)`. -/
def QueueSettings.slots (settings : QueueSettings) : ℕ := max 1 settings.maxConcurrentRuns

/-- What a task does next. -/
inductive Phase where
  /-- `start_backtest_run`: the run is saved, and may be acquired at once. -/
  | saved
  /-- `start_backtest_run`: the run has a slot, and its thread is to be started. -/
  | acquired
  /-- `_dispatch_next`: the run has a slot, and its runner is to be built. -/
  | dispatched
  /-- `_dispatch_next`: the runner could not be built, the slot is to be released. -/
  | unspawned
  /-- `_dispatch_next`: the slot is released, the run is to be marked failed. -/
  | spawnFailed
  /-- `_execute_run` and its `_is_session_cancelled`: the flag, then the stored status. -/
  | checkingFlag
  | checkingStored
  /-- `_execute_run`: cancelled before the start of the simulation. -/
  | skipping
  | running
  | completing
  | failing
  /-- `_execute_run`: interrupted. -/
  | cancelling
  /-- `_execute_run`: the `finally` block. -/
  | releasing
  /-- `cancel_session`: the flag is set, the row is to be marked. -/
  | cancelMarking
  /-- `cancel_session`: the slot is to be released. -/
  | cancelReleasing
  deriving DecidableEq

/-- The thread of the run was started and has not released its slot. -/
def Phase.executes : Phase → Bool
  | .checkingFlag | .checkingStored | .skipping | .running | .completing | .failing | .cancelling
  | .releasing => true
  | .saved | .acquired | .dispatched | .unspawned | .spawnFailed | .cancelMarking
  | .cancelReleasing => false

/-- The task took a slot and has not released it. -/
def Phase.holdsSlot : Phase → Bool
  | .acquired | .dispatched | .unspawned => true
  | phase => phase.executes

abbrev Task := String × Phase

instance : LawfulBEq Task := inferInstance

structure RunQueue (R : Type) where
  table : SessionTable R
  activeRuns : List String
  cancellationEvents : List String
  tasks : List Task
  started : List String
  cancellations : List String

inductive RunOutcome where
  | returned
  | raised
  | interrupted

inductive QueueOp (R : Type) where
  | save (runId : String) (request : R) (now : ℤ)
  | acquireNow (runId : String) (now : ℤ) (ok : Bool)
  | dispatchNext (now : ℤ)
  | startThread (runId : String)
  | spawnFails (runId : String)
  | releaseUnspawned (runId : String)
  | markUnspawned (runId errorMessage : String) (now : ℤ) (ok : Bool)
  | checkFlag (runId : String)
  | checkStored (runId : String)
  | skip (runId : String) (now : ℤ) (ok : Bool)
  | runEnds (runId : String) (outcome : RunOutcome)
  | complete (runId : String) (now : ℤ) (ok : Bool)
  | fail (runId errorMessage : String) (now : ℤ) (ok : Bool)
  | cancelRun (runId : String) (now : ℤ) (ok : Bool)
  | release (runId : String)
  | requestCancel (runId : String)
  | markCancel (runId : String) (reason : Option String) (now : ℤ) (ok : Bool)
  | releaseCancelled (runId : String)
  | renewLease (runId : String) (now : ℤ)
  | recover (now : ℤ)

namespace RunQueue

variable {R : Type}

/-! ## §2 Steps -/

/-- The tasks after one of them went on, or ended. -/
def move (tasks : List Task) (task : Task) (next : Option Phase) : List Task :=
  (next.map fun phase => (task.1, phase)).toList ++ tasks.erase task

/-- A step of a task: what it does to the state, and the next phase. -/
def advance (s : RunQueue R) (runId : String) (phase : Phase) (next : Option Phase)
    (f : RunQueue R → RunQueue R) : RunQueue R :=
  if (runId, phase) ∈ s.tasks then f { s with tasks := move s.tasks (runId, phase) next } else s

/-- A statement on the row of a run. -/
def write (runId : String) (f : SessionRow R → SessionRow R) (s : RunQueue R) : RunQueue R :=
  { s with table := s.table.modify runId f }

/-- `self._active_runs.discard(run_id)`. -/
def discard (runId : String) (s : RunQueue R) : RunQueue R :=
  { s with activeRuns := s.activeRuns.erase runId }

/-- The run takes a slot. -/
def take (table : SessionTable R) (runId : String) (s : RunQueue R) : RunQueue R :=
  { s with table := table, activeRuns := s.activeRuns.insert runId }

/-- `start_backtest_run`, up to the saved session. -/
def save (s : RunQueue R) (runId : String) (request : R) (now : ℤ) : RunQueue R :=
  if s.table.contains runId then s
  else
    { s with
      table := s.table.saveSession runId (.queued request now)
      tasks := (runId, .saved) :: s.tasks }

/-- The block of `start_backtest_run` under the lock. -/
def acquireNow (settings : QueueSettings) (s : RunQueue R) (runId : String) (now : ℤ) (ok : Bool) :
    RunQueue R :=
  if s.activeRuns.length < settings.slots ∧ ok = true ∧ s.table.isQueued runId = true then
    advance s runId .saved (some .acquired)
      (take (s.table.modify runId
        (SessionRow.acquire settings.workerId now settings.leaseDurationSeconds)) runId)
  else advance s runId .saved none id

/-- The block of `_dispatch_next` under the lock: the next queued run takes a free slot. -/
def dispatchNext (settings : QueueSettings) (s : RunQueue R) (now : ℤ) : RunQueue R :=
  if settings.slots ≤ s.activeRuns.length then s
  else
    match s.table.acquireNextQueued settings.workerId now settings.leaseDurationSeconds with
    | none => s
    | some (runId, table) =>
      -- acquired in the table, and not run a second time
      if runId ∈ s.activeRuns then { s with table := table }
      else { take table runId s with tasks := (runId, .dispatched) :: s.tasks }

/-- The first phase of `_execute_run`; a walk-forward run looks for its cancellation while it
    runs. -/
def firstPhase : ServiceKind → Phase
  | .backtest => .checkingFlag
  | .walkForward => .running

/-- `thread.start()`. -/
def noteStarted (runId : String) (s : RunQueue R) : RunQueue R :=
  { s with started := runId :: s.started }

def startThread (settings : QueueSettings) (s : RunQueue R) (runId : String) : RunQueue R :=
  let phase := if (runId, .acquired) ∈ s.tasks then .acquired else .dispatched
  advance s runId phase (some (firstPhase settings.kind)) (noteStarted runId)

/-- The stored status is `CANCELLED`. -/
def isStoredCancelled (s : RunQueue R) (runId : String) : Bool :=
  (s.table.get? runId).any fun row => row.status = .cancelled

/-- How the end of the run is written. -/
def completeRow (kind : ServiceKind) (now : ℤ) : SessionRow R → SessionRow R :=
  match kind with
  | .backtest => SessionRow.markCompleted now
  | .walkForward => SessionRow.updateSummary .completed

/-- How the failure of the run is written. -/
def failRow (kind : ServiceKind) (errorMessage : String) (now : ℤ) : SessionRow R → SessionRow R :=
  match kind with
  | .backtest => SessionRow.markFailed errorMessage now
  | .walkForward => SessionRow.updateSummary .failed

/-- The phase after the simulation. -/
def outcomePhase : RunOutcome → Phase
  | .returned => .completing
  | .raised => .failing
  | .interrupted => .cancelling

/-- The statement of a unit of work, which does nothing when the unit raises. -/
def writeIf (ok : Bool) (runId : String) (f : SessionRow R → SessionRow R) :
    RunQueue R → RunQueue R :=
  if ok then write runId f else id

/-- `mark_cancelled` in `cancel_session`, which says whether it changed the row. -/
def markCancel (runId : String) (reason : Option String) (now : ℤ) (s : RunQueue R) : RunQueue R :=
  { s with
    table := s.table.modify runId (SessionRow.markCancelled reason now)
    cancellations := if s.table.isActive runId then runId :: s.cancellations else s.cancellations }

/-- One access of a run, of the dispatcher or of a cancellation.

    Each operation is a block under the lock or a unit of work; `ok` says whether its statements
    went through.  A task that is not in the phase of the operation is left where it is. -/
def step (settings : QueueSettings) (s : RunQueue R) : QueueOp R → RunQueue R
  | .save runId request now => save s runId request now
  | .acquireNow runId now ok => acquireNow settings s runId now ok
  | .dispatchNext now => dispatchNext settings s now
  | .startThread runId => startThread settings s runId
  -- `_dispatch_next`, when the runner cannot be built
  | .spawnFails runId => advance s runId .dispatched (some .unspawned) id
  | .releaseUnspawned runId => advance s runId .unspawned (some .spawnFailed) (discard runId)
  | .markUnspawned runId errorMessage now ok =>
    advance s runId .spawnFailed none
      (writeIf ok runId
        (SessionRow.markFailed ("Failed to initialize runner: " ++ errorMessage) now))
  -- `_is_session_cancelled` looks at the flag before it reads the row
  | .checkFlag runId =>
    advance s runId .checkingFlag
      (some (if runId ∈ s.cancellationEvents then .skipping else .checkingStored)) id
  | .checkStored runId =>
    advance s runId .checkingStored
      (some (if s.isStoredCancelled runId then .skipping else .running)) id
  | .skip runId now ok =>
    -- an exception here is the one of a failed run
    advance s runId .skipping (some (if ok then .releasing else .failing))
      (writeIf ok runId (SessionRow.markCancelled (some "Run cancelled by user") now))
  | .runEnds runId outcome => advance s runId .running (some (outcomePhase outcome)) id
  | .complete runId now ok =>
    advance s runId .completing (some (if ok then .releasing else .failing))
      (writeIf ok runId (completeRow settings.kind now))
  | .fail runId errorMessage now ok =>
    advance s runId .failing (some .releasing)
      (writeIf ok runId (failRow settings.kind errorMessage now))
  | .cancelRun runId now ok =>
    advance s runId .cancelling (some .releasing)
      (writeIf ok runId (SessionRow.markCancelled (some "Run cancelled by user") now))
  -- the `finally` block
  | .release runId => advance s runId .releasing none (discard runId)
  -- `cancel_session`, in whose thread the rest of it runs
  | .requestCancel runId =>
    { s with
      cancellationEvents := s.cancellationEvents.insert runId
      tasks := (runId, .cancelMarking) :: s.tasks }
  | .markCancel runId reason now ok =>
    advance s runId .cancelMarking (if ok then some .cancelReleasing else none)
      (if ok then markCancel runId reason now else id)
  | .releaseCancelled runId => advance s runId .cancelReleasing none (discard runId)
  | .renewLease runId now =>
    write runId (SessionRow.renewLease settings.workerId now settings.leaseDurationSeconds) s
  | .recover now =>
    { s with table := s.table.recoverAbandoned now settings.abandonedTimeoutSeconds }

/-- A new service over an empty table. -/
def start : RunQueue R := ⟨.empty, [], [], [], [], []⟩

/-- The runs between the start of their thread and the release of their slot. -/
def executing (s : RunQueue R) : List String :=
  (s.tasks.filter fun task => task.2.executes).map Prod.fst

end RunQueue

end CryptoTrading.Backtest
