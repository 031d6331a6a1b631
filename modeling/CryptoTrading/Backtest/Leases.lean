import CryptoTrading.Backtest.SessionTable
import CryptoTrading.Lib.Run

/-!
# The worker of a session

Workers of several `BacktestApplicationService`s share the table of sessions.  `acquire_session`
reads the row of a queued session without a lock and writes it later without looking at it again,
and `renew_lease` writes its worker over the stored one.  So a session that another worker obtained
in between is obtained twice (`acquired_twice`).

As long as no session id is saved again after a worker obtained it, every session has one worker
when these two writes never meet the row of another worker, and only then
(`oneWorker_iff_writesOwnRow`).
-/

namespace CryptoTrading.Backtest

open CryptoTrading.Lib CryptoTrading.Persistence

variable {R : Type}

/-! ## §1 The workers and their steps -/

/-- The table, the calls of `acquire_session` that have read the row of a session and not yet
    written it, and the sessions that were obtained, each with its worker. -/
structure Workers (R : Type) where
  table : SessionTable R
  acquiring : List (String × String)
  obtained : List (String × String)

inductive WorkerOp (R : Type) where
  | saveSession (sessionId : String) (request : R) (createdAt : ℤ)
  | acquireRead (sessionId worker : String)
  | acquireWrite (sessionId worker : String) (now lease : ℤ)
  | acquireNextQueued (worker : String) (now lease : ℤ)
  | renewLease (sessionId worker : String) (now lease : ℤ)
  | recoverAbandoned (now timeout : ℤ)
  | markCompleted (sessionId : String) (now : ℤ)
  | markFailed (sessionId errorMessage : String) (now : ℤ)
  | markCancelled (sessionId : String) (reason : Option String) (now : ℤ)

namespace Workers

/-- One statement of a worker, or of the service that saves sessions. -/
def step (s : Workers R) : WorkerOp R → Workers R
  | .saveSession sessionId request createdAt =>
    { s with table := s.table.saveSession sessionId (.queued request createdAt) }
  -- the row is read without a lock
  | .acquireRead sessionId worker =>
    if s.table.isQueued sessionId then
      { s with acquiring := (sessionId, worker) :: s.acquiring }
    else s
  -- the statement is by id only, whatever has happened to the row since
  | .acquireWrite sessionId worker now lease =>
    if (sessionId, worker) ∈ s.acquiring then
      { table := s.table.modify sessionId (SessionRow.acquire worker now lease)
        acquiring := s.acquiring.erase (sessionId, worker)
        obtained := (sessionId, worker) :: s.obtained }
    else s
  -- one statement, on a row that it locks
  | .acquireNextQueued worker now lease =>
    match s.table.acquireNextQueued worker now lease with
    | some (sessionId, table) =>
      { s with table := table, obtained := (sessionId, worker) :: s.obtained }
    | none => s
  | .renewLease sessionId worker now lease =>
    { s with table := s.table.modify sessionId (SessionRow.renewLease worker now lease) }
  | .recoverAbandoned now timeout => { s with table := s.table.recoverAbandoned now timeout }
  | .markCompleted sessionId now =>
    { s with table := s.table.modify sessionId (SessionRow.markCompleted now) }
  | .markFailed sessionId errorMessage now =>
    { s with table := s.table.modify sessionId (SessionRow.markFailed errorMessage now) }
  | .markCancelled sessionId reason now =>
    { s with table := s.table.modify sessionId (SessionRow.markCancelled reason now) }

/-- No session was saved yet. -/
def start : Workers R := ⟨.empty, [], []⟩

/-- A session was obtained by one worker at most, and that worker is the stored one until the
    session ends. -/
structure OneWorker (s : Workers R) : Prop where
  unique : ∀ sessionId worker other, (sessionId, worker) ∈ s.obtained →
    (sessionId, other) ∈ s.obtained → worker = other
  stored : ∀ sessionId worker row, (sessionId, worker) ∈ s.obtained →
    s.table.get? sessionId = some row → ¬IsFinal row.status → row.workerId = some worker

/-- The id of a session that a worker obtained is not saved again. -/
def SavesFreshId (s : Workers R) : WorkerOp R → Prop
  | .saveSession sessionId _ _ => ∀ worker, (sessionId, worker) ∉ s.obtained
  | _ => True

/-- The write of `acquire_session` does not meet the row of another worker, nor does `renew_lease`
    while the session runs. -/
def WritesOwnRow (s : Workers R) : WorkerOp R → Prop
  | .acquireWrite sessionId worker _ _ =>
    (sessionId, worker) ∈ s.acquiring → ∀ row, s.table.get? sessionId = some row →
      row.workerId = none ∨ row.workerId = some worker
  | .renewLease sessionId worker _ _ =>
    worker ≠ "" → ∀ row, s.table.get? sessionId = some row → row.status = .running →
      row.workerId = some worker
  | _ => True

/-! ## §2 The invariant -/

/-- The stored worker is the one that obtained the session.  Only a queued session has none, and a
    running one always has its worker.

    So a write that finds no worker, or its own, obtains no session twice. -/
structure Held (s : Workers R) : Prop where
  of_obtained : ∀ sessionId worker, (sessionId, worker) ∈ s.obtained →
    ∃ row, s.table.get? sessionId = some row ∧ row.workerId = some worker
  obtained_of : ∀ sessionId worker row, s.table.get? sessionId = some row →
    row.workerId = some worker → (sessionId, worker) ∈ s.obtained
  queued : ∀ sessionId row, s.table.get? sessionId = some row → row.status = .queued →
    row.workerId = none
  running : ∀ sessionId row, s.table.get? sessionId = some row → row.status = .running →
    row.workerId ≠ none
  acquiring : ∀ sessionId worker, (sessionId, worker) ∈ s.acquiring →
    (s.table.get? sessionId).isSome = true

theorem Held.oneWorker {s : Workers R} (h : Held s) : OneWorker s := by
  constructor
  · intro sessionId worker other hworker hother
    obtain ⟨row, hget, hrow⟩ := h.of_obtained sessionId worker hworker
    obtain ⟨row', hget', hrow'⟩ := h.of_obtained sessionId other hother
    rw [Option.some.inj (hget.symm.trans hget')] at hrow
    exact Option.some.inj (hrow.symm.trans hrow')
  · intro sessionId worker row hworker hget _
    obtain ⟨row', hget', hrow'⟩ := h.of_obtained sessionId worker hworker
    rw [Option.some.inj (hget.symm.trans hget')] at *
    exact hrow'

theorem held_start : Held (start : Workers R) := by
  constructor
  · intro sessionId worker hmem
    exact absurd hmem List.not_mem_nil
  · intro sessionId worker row hget
    exact absurd hget (by simp [start])
  · intro sessionId row hget
    exact absurd hget (by simp [start])
  · intro sessionId row hget
    exact absurd hget (by simp [start])
  · intro sessionId worker hmem
    exact absurd hmem List.not_mem_nil

/-! ## §3 Steps that leave the workers alone -/

/-- The row has the same worker, and it is queued or running only if it was before. -/
structure SameHolder (row row' : SessionRow R) : Prop where
  workerId : row'.workerId = row.workerId
  queued : row'.status = .queued → row.status = .queued
  running : row'.status = .running → row.status = .running

theorem SameHolder.refl (row : SessionRow R) : SameHolder row row := ⟨rfl, id, id⟩

/-- The tables have the same sessions, with the same workers. -/
def KeepsHolders (table table' : SessionTable R) : Prop :=
  ∀ sessionId, (table.get? sessionId = none ∧ table'.get? sessionId = none) ∨
    ∃ row row', table.get? sessionId = some row ∧ table'.get? sessionId = some row' ∧
      SameHolder row row'

theorem keepsHolders_modify {table : SessionTable R} {sessionId : String}
    {f : SessionRow R → SessionRow R}
    (hf : ∀ row, table.get? sessionId = some row → SameHolder row (f row)) :
    KeepsHolders table (table.modify sessionId f) := by
  intro otherId
  rw [SessionTable.get?_modify]
  split
  case isTrue hid =>
    rw [hid]
    cases hget : table.get? sessionId with
    | none => exact .inl ⟨rfl, rfl⟩
    | some row => exact .inr ⟨row, f row, rfl, rfl, hf row hget⟩
  case isFalse =>
    cases table.get? otherId with
    | none => exact .inl ⟨rfl, rfl⟩
    | some row => exact .inr ⟨row, row, rfl, rfl, .refl row⟩

theorem sameHolder_recover (now timeout : ℤ) (row : SessionRow R) :
    SameHolder row (row.recover now timeout) := by
  unfold SessionRow.recover
  split
  case isTrue => exact ⟨rfl, nofun, nofun⟩
  case isFalse => exact .refl row

theorem keepsHolders_recover (table : SessionTable R) (now timeout : ℤ) :
    KeepsHolders table (table.recoverAbandoned now timeout) := by
  intro sessionId
  unfold SessionTable.recoverAbandoned
  rw [Dict.get?_mapValues]
  cases table.get? sessionId with
  | none => exact .inl ⟨rfl, rfl⟩
  | some row => exact .inr ⟨row, _, rfl, rfl, sameHolder_recover now timeout row⟩

theorem Held.of_keepsHolders {s : Workers R} (h : Held s) {table : SessionTable R}
    (htable : KeepsHolders s.table table) : Held { s with table := table } := by
  -- a row of the new table comes from one of the old table
  have hback : ∀ sessionId row', table.get? sessionId = some row' →
      ∃ row, s.table.get? sessionId = some row ∧ SameHolder row row' := by
    intro sessionId row' hget'
    rcases htable sessionId with ⟨-, hnone⟩ | ⟨row, row'', hget, hget'', hsame⟩
    · rw [hnone] at hget'
      cases hget'
    · rw [Option.some.inj (hget'.symm.trans hget'')]
      exact ⟨row, hget, hsame⟩
  have hforth : ∀ sessionId row, s.table.get? sessionId = some row →
      ∃ row', table.get? sessionId = some row' ∧ SameHolder row row' := by
    intro sessionId row hget
    rcases htable sessionId with ⟨hnone, -⟩ | ⟨row₀, row', hget₀, hget', hsame⟩
    · rw [hnone] at hget
      cases hget
    · rw [Option.some.inj (hget.symm.trans hget₀)]
      exact ⟨row', hget', hsame⟩
  constructor
  · intro sessionId worker hmem
    obtain ⟨row, hget, hrow⟩ := h.of_obtained sessionId worker hmem
    obtain ⟨row', hget', hsame⟩ := hforth sessionId row hget
    exact ⟨row', hget', hsame.workerId.trans hrow⟩
  · intro sessionId worker row' hget' hrow'
    obtain ⟨row, hget, hsame⟩ := hback sessionId row' hget'
    exact h.obtained_of sessionId worker row hget (hsame.workerId.symm.trans hrow')
  · intro sessionId row' hget' hqueued
    obtain ⟨row, hget, hsame⟩ := hback sessionId row' hget'
    rw [hsame.workerId]
    exact h.queued sessionId row hget (hsame.queued hqueued)
  · intro sessionId row' hget' hrunning
    obtain ⟨row, hget, hsame⟩ := hback sessionId row' hget'
    rw [hsame.workerId]
    exact h.running sessionId row hget (hsame.running hrunning)
  · intro sessionId worker hmem
    obtain ⟨row, hget⟩ := Option.isSome_iff_exists.mp (h.acquiring sessionId worker hmem)
    obtain ⟨row', hget', -⟩ := hforth sessionId row hget
    exact Option.isSome_iff_exists.mpr ⟨row', hget'⟩

/-! ## §4 Steps that give a session to a worker -/

/-- A worker obtains a session whose row has no other worker. -/
theorem Held.acquire {s : Workers R} (h : Held s) {sessionId worker : String} {row : SessionRow R}
    (hget : s.table.get? sessionId = some row)
    (hfree : row.workerId = none ∨ row.workerId = some worker) (now lease : ℤ)
    {acquiring : List (String × String)} (hacquiring : acquiring ⊆ s.acquiring) :
    Held (⟨s.table.set sessionId (row.acquire worker now lease), acquiring,
      (sessionId, worker) :: s.obtained⟩ : Workers R) := by
  constructor
  · -- whoever obtained a session is the worker of its row
    intro otherId other hmem
    show ∃ row', (s.table.set sessionId _).get? otherId = some row' ∧ _
    rw [Dict.get?_set]
    split
    case isTrue hid =>
      refine ⟨_, rfl, ?_⟩
      rcases List.mem_cons.mp hmem with heq | hmem
      · rw [(Prod.mk.inj heq).2]
        rfl
      · -- the session had a worker, which can only be this one
        obtain ⟨row', hget', hrow'⟩ := h.of_obtained otherId other hmem
        rw [hid, hget] at hget'
        rw [← Option.some.inj hget'] at hrow'
        rcases hfree with hnone | hown
        · rw [hnone] at hrow'
          cases hrow'
        · exact hown.symm.trans hrow'
    case isFalse hid =>
      rcases List.mem_cons.mp hmem with heq | hmem
      · exact absurd (Prod.mk.inj heq).1 hid
      · exact h.of_obtained otherId other hmem
  · -- a row with a worker was obtained by it
    intro otherId other row' hget' hrow'
    rw [Dict.get?_set] at hget'
    split at hget'
    case isTrue hid =>
      rw [← Option.some.inj hget'] at hrow'
      rw [hid, ← Option.some.inj hrow']
      exact List.mem_cons_self
    case isFalse => exact List.mem_cons_of_mem _ (h.obtained_of otherId other row' hget' hrow')
  · -- the row of the session is not queued any more
    intro otherId row' hget' hqueued
    rw [Dict.get?_set] at hget'
    split at hget'
    case isTrue =>
      rw [← Option.some.inj hget'] at hqueued
      cases hqueued
    case isFalse => exact h.queued otherId row' hget' hqueued
  · -- a running row has a worker
    intro otherId row' hget' hrunning
    rw [Dict.get?_set] at hget'
    split at hget'
    case isTrue =>
      rw [← Option.some.inj hget']
      exact fun hnone => Option.some_ne_none _ hnone
    case isFalse => exact h.running otherId row' hget' hrunning
  · -- no row is lost
    intro otherId other hmem
    show ((s.table.set sessionId _).get? otherId).isSome = true
    rw [Dict.get?_set]
    split
    case isTrue => rfl
    case isFalse => exact h.acquiring otherId other (hacquiring hmem)

/-- A session is saved under an id that no worker obtained. -/
theorem Held.saveSession {s : Workers R} (h : Held s) {sessionId : String}
    (hfresh : ∀ worker, (sessionId, worker) ∉ s.obtained) (request : R) (createdAt : ℤ) :
    Held { s with table := s.table.saveSession sessionId (.queued request createdAt) } := by
  unfold SessionTable.saveSession
  -- the new row is queued and has no worker, the other rows are as before
  constructor
  · intro otherId worker hmem
    obtain ⟨row, hget, hrow⟩ := h.of_obtained otherId worker hmem
    have hne : otherId ≠ sessionId := by
      rintro rfl
      exact hfresh worker hmem
    exact ⟨row, (Dict.get?_set_of_ne _ _ hne).trans hget, hrow⟩
  · intro otherId worker row hget hrow
    rw [Dict.get?_set] at hget
    split at hget
    case isTrue =>
      rw [← Option.some.inj hget] at hrow
      cases hrow
    case isFalse => exact h.obtained_of otherId worker row hget hrow
  · intro otherId row hget hqueued
    rw [Dict.get?_set] at hget
    split at hget
    case isTrue =>
      rw [← Option.some.inj hget]
      rfl
    case isFalse => exact h.queued otherId row hget hqueued
  · intro otherId row hget hrunning
    rw [Dict.get?_set] at hget
    split at hget
    case isTrue =>
      rw [← Option.some.inj hget] at hrunning
      cases hrunning
    case isFalse => exact h.running otherId row hget hrunning
  · intro otherId worker hmem
    show ((s.table.set sessionId _).get? otherId).isSome = true
    rw [Dict.get?_set]
    split
    case isTrue => rfl
    case isFalse => exact h.acquiring otherId worker hmem

theorem Held.acquireRead {s : Workers R} (h : Held s) (sessionId worker : String) :
    Held (s.step (.acquireRead sessionId worker)) := by
  simp only [step]
  split
  case isTrue hqueued =>
    refine ⟨h.of_obtained, h.obtained_of, h.queued, h.running, ?_⟩
    intro otherId other hmem
    rcases List.mem_cons.mp hmem with heq | hmem
    · obtain ⟨row, hget, -⟩ := SessionTable.isQueued_iff.mp hqueued
      rw [(Prod.mk.inj heq).1, hget]
      rfl
    · exact h.acquiring otherId other hmem
  case isFalse => exact h

theorem sameHolder_renewLease {worker : String} {row : SessionRow R}
    (hown : worker ≠ "" → row.status = .running → row.workerId = some worker) (now lease : ℤ) :
    SameHolder row (row.renewLease worker now lease) := by
  unfold SessionRow.renewLease
  split
  case isTrue hrunning =>
    refine ⟨?_, id, id⟩
    show (if worker = "" then row.workerId else some worker) = row.workerId
    split
    case isTrue => rfl
    case isFalse hne => exact (hown hne hrunning).symm
  case isFalse => exact .refl row

theorem sameHolder_markCancelled (reason : Option String) (now : ℤ) (row : SessionRow R) :
    SameHolder row (row.markCancelled reason now) := by
  unfold SessionRow.markCancelled
  split
  case isTrue => exact ⟨rfl, nofun, nofun⟩
  case isFalse => exact .refl row

theorem Held.step {s : Workers R} {op : WorkerOp R} (h : Held s) (hfresh : SavesFreshId s op)
    (hown : WritesOwnRow s op) : Held (Workers.step s op) := by
  cases op with
  | saveSession sessionId request createdAt => exact h.saveSession hfresh request createdAt
  | acquireRead sessionId worker => exact h.acquireRead sessionId worker
  | acquireWrite sessionId worker now lease =>
    simp only [Workers.step]
    split
    case isTrue hmem =>
      obtain ⟨row, hget⟩ := Option.isSome_iff_exists.mp (h.acquiring sessionId worker hmem)
      rw [SessionTable.modify_of_get? _ hget]
      exact h.acquire hget (hown hmem row hget) now lease List.erase_subset
    case isFalse => exact h
  | acquireNextQueued worker now lease =>
    simp only [Workers.step]
    split
    case h_1 sessionId table hnext =>
      -- a queued session has no worker yet
      obtain ⟨row, hget, hqueued, rfl⟩ := SessionTable.acquireNextQueued_eq_some hnext
      exact h.acquire hget (.inl (h.queued sessionId row hget hqueued)) now lease
        (List.Subset.refl _)
    case h_2 => exact h
  | renewLease sessionId worker now lease =>
    refine h.of_keepsHolders (keepsHolders_modify fun row hget => ?_)
    exact sameHolder_renewLease (fun hne hrunning => hown hne row hget hrunning) now lease
  | recoverAbandoned now timeout => exact h.of_keepsHolders (keepsHolders_recover _ now timeout)
  | markCompleted sessionId now =>
    exact h.of_keepsHolders (keepsHolders_modify fun _ _ => ⟨rfl, nofun, nofun⟩)
  | markFailed sessionId errorMessage now =>
    exact h.of_keepsHolders (keepsHolders_modify fun _ _ => ⟨rfl, nofun, nofun⟩)
  | markCancelled sessionId reason now =>
    exact h.of_keepsHolders
      (keepsHolders_modify fun row _ => sameHolder_markCancelled reason now row)

/-! ## §5 Runs -/

/-- A step over the row of another worker leaves the session with two workers, or with the wrong one
    stored. -/
theorem writesOwnRow_of_oneWorker {s : Workers R} {op : WorkerOp R} (h : Held s)
    (hone : OneWorker (Workers.step s op)) : WritesOwnRow s op := by
  cases op with
  | acquireWrite sessionId worker now lease =>
    intro hmem row hget
    cases hworker : row.workerId with
    | none => exact .inl rfl
    | some other =>
      have hobtained := h.obtained_of sessionId other row hget hworker
      simp only [Workers.step, if_pos hmem] at hone
      have hsame := hone.unique sessionId worker other List.mem_cons_self
        (List.mem_cons_of_mem _ hobtained)
      exact .inr (congrArg some hsame.symm)
  | renewLease sessionId worker now lease =>
    intro hne row hget hrunning
    obtain ⟨other, hother⟩ := Option.ne_none_iff_exists'.mp (h.running sessionId row hget hrunning)
    have hstored := hone.stored sessionId other (row.renewLease worker now lease)
      (h.obtained_of sessionId other row hget hother)
    simp only [Workers.step, SessionTable.get?_modify, if_true, hget, Option.map_some] at hstored
    have hworker := hstored trivial (by simp [SessionRow.renewLease, hrunning, IsFinal])
    rw [hother, ← hworker]
    simp [SessionRow.renewLease, hrunning, hne]
  | saveSession | acquireRead | acquireNextQueued | recoverAbandoned | markCompleted | markFailed
  | markCancelled => trivial

/-- Every session has one worker at every point of the run. -/
def KeepsOneWorker (ops : List (WorkerOp R)) : Prop :=
  ∀ done, done <+: ops → OneWorker (run Workers.step start done)

/-- **A session has one worker exactly when the writes meet no row of another**, in a run in which
    no id is saved again after a worker obtained its session.

    `acquire_session` reads the row without a lock and updates it by its id alone, and `renew_lease`
    writes its worker over the one that is stored. -/
theorem oneWorker_iff_writesOwnRow (ops : List (WorkerOp R))
    (hfresh : Along Workers.step SavesFreshId start ops) :
    KeepsOneWorker ops ↔ Along Workers.step WritesOwnRow start ops := by
  unfold KeepsOneWorker
  rw [forall_prefix_iff_along, and_iff_right held_start.oneWorker]
  have halong := along_iff_of_invariant
    (P := fun s op => SavesFreshId s op ∧ OneWorker (Workers.step s op))
    (Q := fun s op => SavesFreshId s op ∧ WritesOwnRow s op) Held
    (fun s op h => and_congr_right fun hsave =>
      ⟨writesOwnRow_of_oneWorker h, fun hown => (h.step hsave hown).oneWorker⟩)
    (fun s op h hop => h.step hop.1 hop.2) held_start ops
  rw [along_and, along_and, and_iff_right hfresh, and_iff_right hfresh] at halong
  exact halong

/-! ### Two workers and one session -/

/-- The first worker obtains the session and renews its lease; the second finds nothing to
    acquire. -/
def aloneRun : List (WorkerOp String) :=
  [.saveSession "s1" "BTC/USDT" 0, .acquireRead "s1" "w1", .acquireWrite "s1" "w1" 1 60,
    .acquireNextQueued "w2" 2 60, .renewLease "s1" "w1" 20 60, .markCompleted "s1" 30]

theorem aloneRun_savesFreshId : Along Workers.step SavesFreshId start aloneRun :=
  ⟨fun _ => List.not_mem_nil, trivial, trivial, trivial, trivial, trivial, trivial⟩

theorem aloneRun_writesOwnRow : Along Workers.step WritesOwnRow start aloneRun := by
  refine ⟨trivial, trivial, ?_, trivial, ?_, trivial, trivial⟩
  · intro _ row hget
    rw [← Option.some.inj hget]
    exact .inl rfl
  · intro _ row hget _
    rw [← Option.some.inj hget]
    rfl

theorem aloneRun_oneWorker : KeepsOneWorker aloneRun :=
  (oneWorker_iff_writesOwnRow aloneRun aloneRun_savesFreshId).mpr aloneRun_writesOwnRow

/-- The second worker acquires the session between the read and the write of the first. -/
def twiceRun : List (WorkerOp String) :=
  [.saveSession "s1" "BTC/USDT" 0, .acquireRead "s1" "w1", .acquireNextQueued "w2" 1 60,
    .acquireWrite "s1" "w1" 2 60]

theorem acquired_twice :
    Along Workers.step SavesFreshId start twiceRun ∧
      ("s1", "w1") ∈ (run Workers.step start twiceRun).obtained ∧
      ("s1", "w2") ∈ (run Workers.step start twiceRun).obtained ∧
      ¬KeepsOneWorker twiceRun := by
  have hfirst : ("s1", "w1") ∈ (run Workers.step start twiceRun).obtained := by decide +kernel
  have hsecond : ("s1", "w2") ∈ (run Workers.step start twiceRun).obtained := by decide +kernel
  refine ⟨⟨fun _ => List.not_mem_nil, trivial, trivial, trivial, trivial⟩, hfirst, hsecond, ?_⟩
  intro hone
  have hsame := (hone twiceRun (List.prefix_refl _)).unique "s1" "w1" "w2" hfirst hsecond
  exact absurd hsame (by decide)

end Workers

end CryptoTrading.Backtest
