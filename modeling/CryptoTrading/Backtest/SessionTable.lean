import CryptoTrading.Lib.Dict
import CryptoTrading.Persistence.EntityMappers
import Mathlib.Data.List.Sort

/-!
# The table of backtest sessions

Embeds the operations on the rows of `PostgresBacktestRepository`
(`src/database/repositories/providers/postgres_backtest_repository.py`) that start, hold and end a
session.  `PostgresWalkForwardRepository` has the same ones for its runs, and `update_run_summary`.

What a row stores of the request is a type of its own.  Times are in seconds; `now` is the clock of
the statement.  The oldest session is the first stored one of those with the least time of creation.
Results, summaries and the ticker symbol are left out.
-/

namespace CryptoTrading.Backtest

open CryptoTrading.Lib CryptoTrading.Persistence

/-! ## §1 Rows -/

/-- The session has ended. -/
def IsFinal : ExecutionStatus → Prop
  | .completed => True
  | .failed => True
  | .cancelled => True
  | .queued => False
  | .initializing => False
  | .running => False

instance : (status : ExecutionStatus) → Decidable (IsFinal status)
  | .completed => isTrue trivial
  | .failed => isTrue trivial
  | .cancelled => isTrue trivial
  | .queued => isFalse id
  | .initializing => isFalse id
  | .running => isFalse id

/-- `BacktestSessionDao`, or `WalkForwardRunDao`. -/
structure SessionRow (R : Type) where
  request : R
  status : ExecutionStatus
  workerId : Option String
  startedAt : Option ℤ
  completedAt : Option ℤ
  heartbeatAt : Option ℤ
  leaseExpiresAt : Option ℤ
  errorMessage : Option String
  createdAt : ℤ
  deriving DecidableEq

namespace SessionRow

variable {R : Type}

/-- A new session, as `start_backtest_run` saves it. -/
def queued (request : R) (createdAt : ℤ) : SessionRow R where
  request := request
  status := .queued
  workerId := none
  startedAt := none
  completedAt := none
  heartbeatAt := none
  leaseExpiresAt := none
  errorMessage := none
  createdAt := createdAt

/-- The write of `acquire_session` and `acquire_next_queued_session`. -/
def acquire (worker : String) (now lease : ℤ) (row : SessionRow R) : SessionRow R :=
  { row with
    status := .running
    workerId := some worker
    startedAt := some now
    heartbeatAt := some now
    leaseExpiresAt := some (now + lease) }

/-- `renew_lease`. -/
def renewLease (worker : String) (now lease : ℤ) (row : SessionRow R) : SessionRow R :=
  if row.status = .running then
    { row with
      heartbeatAt := some now
      leaseExpiresAt := some (now + lease)
      workerId := if worker = "" then row.workerId else some worker }
  else row

/-- `mark_completed`. -/
def markCompleted (now : ℤ) (row : SessionRow R) : SessionRow R :=
  { row with status := .completed, completedAt := some now, leaseExpiresAt := none }

/-- `mark_failed`. -/
def markFailed (errorMessage : String) (now : ℤ) (row : SessionRow R) : SessionRow R :=
  { row with
    status := .failed
    errorMessage := some errorMessage
    completedAt := some now
    leaseExpiresAt := none }

/-- `row.status in ("QUEUED", "RUNNING")`. -/
def isActive (row : SessionRow R) : Bool := row.status = .queued || row.status = .running

/-- `mark_cancelled`. -/
def markCancelled (reason : Option String) (now : ℤ) (row : SessionRow R) : SessionRow R :=
  if row.isActive then
    { row with
      status := .cancelled
      errorMessage := some ((reason.filter (· ≠ "")).getD "Run cancelled by user")
      completedAt := some now
      leaseExpiresAt := none }
  else row

/-- The filter of `recover_abandoned_sessions`. -/
def isAbandoned (now timeout : ℤ) (row : SessionRow R) : Bool :=
  row.status = .running &&
    match row.leaseExpiresAt with
    | some expires => expires < now
    | none =>
      match row.heartbeatAt with
      | some heartbeat => heartbeat < now - timeout
      | none => row.createdAt < now - timeout

/-- `recover_abandoned_sessions` on a row. -/
def recover (now timeout : ℤ) (row : SessionRow R) : SessionRow R :=
  if row.isAbandoned now timeout then
    { row with
      status := .failed
      errorMessage := some "Abandoned: worker lease expired or process shutdown"
      completedAt := some now
      leaseExpiresAt := none }
  else row

/-- `update_run_summary` of the walk-forward runs. -/
def updateSummary (status : ExecutionStatus) (row : SessionRow R) : SessionRow R :=
  { row with status := status }

end SessionRow

/-! ## §2 The table -/

/-- The rows by session id. -/
abbrev SessionTable (R : Type) := Dict String (SessionRow R)

namespace SessionTable

variable {R : Type}

/-- A statement on the row of a session, if there is one. -/
def modify (table : SessionTable R) (sessionId : String) (f : SessionRow R → SessionRow R) :
    SessionTable R :=
  match table.get? sessionId with
  | some row => table.set sessionId (f row)
  | none => table

/-- `save_session`; the time of creation of a stored session stays. -/
def saveSession (table : SessionTable R) (sessionId : String) (row : SessionRow R) :
    SessionTable R :=
  table.set sessionId
    { row with createdAt := ((table.get? sessionId).map SessionRow.createdAt).getD row.createdAt }

/-- The row that `acquire_session` reads. -/
def isQueued (table : SessionTable R) (sessionId : String) : Bool :=
  (table.get? sessionId).any fun row => row.status = .queued

/-- The queued session that was created first. -/
def oldestQueued (table : SessionTable R) : Option (String × SessionRow R) :=
  ((table.entries.filter fun e => e.2.status = .queued).insertionSort
    fun a b => a.2.createdAt ≤ b.2.createdAt).head?

/-- `acquire_next_queued_session`, with the id of the session. -/
def acquireNextQueued (table : SessionTable R) (worker : String) (now lease : ℤ) :
    Option (String × SessionTable R) :=
  table.oldestQueued.map fun e => (e.1, table.set e.1 (e.2.acquire worker now lease))

/-- `recover_abandoned_sessions`. -/
def recoverAbandoned (table : SessionTable R) (now timeout : ℤ) : SessionTable R :=
  table.mapValues (SessionRow.recover now timeout)

/-- `is_session_active`. -/
def isActive (table : SessionTable R) (sessionId : String) : Bool :=
  (table.get? sessionId).any SessionRow.isActive

/-! ### What the statements do to the rows -/

theorem get?_modify (table : SessionTable R) (sessionId : String)
    (f : SessionRow R → SessionRow R) (otherId : String) :
    (table.modify sessionId f).get? otherId =
      if otherId = sessionId then (table.get? sessionId).map f else table.get? otherId := by
  unfold modify
  by_cases hid : otherId = sessionId
  · subst hid
    cases hget : table.get? otherId with
    | none => simp [hget]
    | some row => simp
  · cases hget : table.get? sessionId with
    | none => simp [hid]
    | some row => simp [hid]

theorem modify_of_get? {table : SessionTable R} {sessionId : String} {row : SessionRow R}
    (f : SessionRow R → SessionRow R) (h : table.get? sessionId = some row) :
    table.modify sessionId f = table.set sessionId (f row) := by
  unfold modify
  rw [h]

theorem isQueued_iff {table : SessionTable R} {sessionId : String} :
    table.isQueued sessionId = true ↔
      ∃ row, table.get? sessionId = some row ∧ row.status = .queued := by
  unfold isQueued
  cases table.get? sessionId with
  | none => simp
  | some row => simp

theorem oldestQueued_spec {table : SessionTable R} {e : String × SessionRow R}
    (h : table.oldestQueued = some e) :
    table.get? e.1 = some e.2 ∧ e.2.status = .queued := by
  have hmem := (List.perm_insertionSort _ _).mem_iff.mp (List.mem_of_head? h)
  obtain ⟨hentry, hstatus⟩ := List.mem_filter.mp hmem
  exact ⟨(Dict.get?_eq_some_iff _ _ _).mpr hentry, of_decide_eq_true hstatus⟩

/-- The session that is acquired was queued. -/
theorem acquireNextQueued_eq_some {table table' : SessionTable R} {worker sessionId : String}
    {now lease : ℤ} (h : table.acquireNextQueued worker now lease = some (sessionId, table')) :
    ∃ row, table.get? sessionId = some row ∧ row.status = .queued ∧
      table' = table.set sessionId (row.acquire worker now lease) := by
  obtain ⟨e, he, heq⟩ := Option.map_eq_some_iff.mp h
  obtain ⟨hget, hstatus⟩ := oldestQueued_spec he
  obtain ⟨rfl, rfl⟩ := Prod.mk.inj heq
  exact ⟨e.2, hget, hstatus, rfl⟩

end SessionTable

end CryptoTrading.Backtest
