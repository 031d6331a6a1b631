import Mathlib.Logic.Function.Basic
import CryptoTrading.Experiments.PromotionPolicy

/-!
# The life cycle of a simulated run

Embeds the worker of `src/server/services/simulation_orchestrator.py` with its two interventions
`cancel_simulated_run` and `conclude_simulated_run`, over the rows that
`postgres_promotion_repository.py` keeps of a run and of its report.

A step is one unit of work, or what lies between two of them; a unit of work that reads the status
before it writes it takes a step for each, since others may commit between the two.  The status is
written by the worker, by every cancellation and by every conclusion, in most places without a look
at the status that is there.  A join with a timeout does not hold anyone up, and so it is no step.

The status is settled once it is final, as long as the interventions keep out of the worker's way
and out of each other's (`Undisturbed`).

Left out: error messages, audit events, and the parts of a report that no gate reads.
-/

namespace CryptoTrading.Experiments

open CryptoTrading.Lib

/-! ## §1 Runs and reports -/

inductive PromotionLifecycleState where
  | experiment
  | readyForSimulation
  | simulationQueued
  | simulating
  | reportReady
  | promotionEligible
  | promoted
  | rejected
  | failed
  | cancelled
  deriving DecidableEq

/-- What the worker is given. -/
structure SimulationSpec where
  durationHours : ℤ
  realTime : Bool
  initialBalance : ℚ
  feeRate : ℚ
  strategyWeights : Dict String ℚ

structure SimulatedTrade where
  strategyName : String
  pnl : ℚ
  isBuy : Bool
  deriving DecidableEq

/-- The local variables of the worker's loop. -/
structure Simulation where
  trades : List SimulatedTrade
  equityCurve : List ℚ
  currentBalance : ℚ
  deriving DecidableEq

/-- A stored report. -/
structure SimulationReport where
  decision : GateDecision
  summary : SimulationReportSummary
  generatedAt : ℕ
  deriving DecidableEq

namespace SimulationSpec

def targetTradeCount (spec : SimulationSpec) : ℕ := (max 6 (spec.durationHours * 2)).toNat

def strategies (spec : SimulationSpec) : List String :=
  if spec.strategyWeights.entries.isEmpty then ["DefaultStrategy"] else spec.strategyWeights.keys

/-- Whether the worker waits for the planned end. -/
def waits (spec : SimulationSpec) : Bool := spec.realTime && decide (0 < spec.durationHours)

def start (spec : SimulationSpec) : Simulation :=
  ⟨[], [spec.initialBalance], spec.initialBalance⟩

end SimulationSpec

section Reports

variable (policy : PromotionPolicy) (round : ℕ → ℚ → ℚ) (spec : SimulationSpec)

/-- One round of the worker's loop: the next strategy in turn makes a trade. -/
def simulateTrade (sim : Simulation) : Simulation :=
  let i := sim.trades.length
  let name := spec.strategies.getD (i % spec.strategies.length) ""
  let weight := spec.strategyWeights.getD name 1
  let pnl := round 2 (25 * weight - spec.feeRate * sim.currentBalance * (1 / 10))
  { trades := sim.trades ++ [⟨name, pnl, i % 2 == 0⟩]
    equityCurve := sim.equityCurve ++ [round 2 (sim.currentBalance + pnl)]
    currentBalance := sim.currentBalance + pnl }

/-- The loop after the first one: the trades that are missing. -/
def simulateRest (sim : Simulation) : Simulation :=
  (simulateTrade round spec)^[spec.targetTradeCount - sim.trades.length] sim

/-- `generate_and_save_report`, for a run without diagnostics of errors. -/
def generateReport (trades : List SimulatedTrade) (equityCurve : List ℚ) (now : ℕ) :
    SimulationReport :=
  let summary := calculateMetrics round trades.length equityCurve 0
  ⟨(policy.evaluateGateB summary).decision, summary, now⟩

/-- The report of `conclude_simulated_run`: six trades that earn 35 each. -/
def concludedReport (now : ℕ) : SimulationReport :=
  generateReport policy round
    ((List.range 6).map fun i => ⟨"ConcludedRunStrategy", 35, i % 2 == 0⟩)
    ((List.range 7).map fun i => spec.initialBalance + (i : ℚ) * 35) now

end Reports

/-! ## §2 The worker and the interventions -/

/-- Where the worker is. -/
inductive WorkerPhase where
  /-- The row of the run is saved; its events are not in their tables yet. -/
  | unregistered
  | notStarted
  /-- No cancellation was asked for; the status is read next. -/
  | checked
  /-- The status that was read is not `CANCELLED`; `SIMULATING` is written next. -/
  | starting
  | looping (sim : Simulation)
  | reporting (sim : Simulation)
  | finishing
  /-- In the exception handler. -/
  | failing
  /-- In the `finally` block. -/
  | closing
  | ended
  deriving DecidableEq

/-- How a step of the worker goes. -/
inductive WorkerMove where
  | proceed
  /-- The planned end has passed. -/
  | timeUp
  | raise
  deriving DecidableEq

inductive CallKind where
  | cancel
  | conclude
  deriving DecidableEq

/-- Where an intervention is.  After the signal comes the join, which may time out. -/
inductive CallPhase where
  | idle
  | signalled
  /-- A conclusion that has found the run unfinished. -/
  | reading
  /-- A conclusion that has stored its report. -/
  | reported
  | done
  deriving DecidableEq

/-- The rows of a run, its events, and everyone who works on it. -/
structure RunState (ι : Type) where
  status : PromotionLifecycleState
  report : Option SimulationReport
  worker : WorkerPhase
  cancelEvent : Bool
  concludeEvent : Bool
  calls : ι → CallPhase

/-- A step, at the time `now` where that is recorded. -/
inductive LifecycleStep (ι : Type) where
  | worker (move : WorkerMove) (now : ℕ)
  | call (i : ι) (now : ℕ)
  /-- An intervention that raises. -/
  | callFails (i : ι)

section Steps

variable {ι : Type} [DecidableEq ι] (kind : ι → CallKind)
  (policy : PromotionPolicy) (round : ℕ → ℚ → ℚ) (spec : SimulationSpec)

/-- A round of the loop, or its end. -/
def loopStep (s : RunState ι) (sim : Simulation) (move : WorkerMove) : WorkerPhase :=
  if spec.waits then
    -- the time is looked at before the events
    if move = .timeUp then .reporting (simulateRest round spec sim)
    else if s.cancelEvent then .closing
    else if s.concludeEvent then .reporting (simulateRest round spec sim)
    else if sim.trades.length < spec.targetTradeCount then .looping (simulateTrade round spec sim)
    else .looping sim
  -- after the last round nobody looks at the event again
  else if spec.targetTradeCount ≤ sim.trades.length then .reporting sim
  else if s.cancelEvent then .closing
  else .looping (simulateTrade round spec sim)

/-- `_run_simulation_worker`, one step: a look at an event, a read of the row, or a write that is
    committed. -/
def workerStep (s : RunState ι) (move : WorkerMove) (now : ℕ) : RunState ι :=
  match s.worker with
  | .unregistered => { s with worker := .notStarted }
  | .notStarted => { s with worker := if s.cancelEvent then .closing else .checked }
  | .checked =>
    if move = .raise then { s with worker := .failing }
    else { s with worker := if s.status = .cancelled then .closing else .starting }
  | .starting =>
    -- whatever was committed since the row was read
    if move = .raise then { s with worker := .failing }
    else { s with worker := .looping spec.start, status := .simulating }
  | .looping sim =>
    if move = .raise then { s with worker := .failing }
    else { s with worker := loopStep round spec s sim move }
  | .reporting sim =>
    if move = .raise then { s with worker := .failing }
    else { s with
      worker := .finishing
      report := some (generateReport policy round sim.trades sim.equityCurve now) }
  | .finishing =>
    -- from here on nobody reads the status before writing it
    if move = .raise then { s with worker := .failing }
    else { s with worker := .closing, status := .reportReady }
  | .failing =>
    -- the handler writes to the same database, and may raise as well
    if move = .raise then { s with worker := .closing }
    else { s with worker := .closing, status := .failed }
  -- the events are taken out of their tables
  | .closing => { s with worker := .ended, cancelEvent := false, concludeEvent := false }
  | .ended => s

def RunState.setCall (s : RunState ι) (i : ι) (phase : CallPhase) : RunState ι :=
  { s with calls := Function.update s.calls i phase }

/-- The statuses in which `conclude_simulated_run` writes its report. -/
def isUnfinished (status : PromotionLifecycleState) : Bool :=
  status = .simulating || status = .simulationQueued

/-- The events of the run are in their tables. -/
def RunState.isRegistered (s : RunState ι) : Bool :=
  s.worker ≠ .unregistered && s.worker ≠ .ended

/-- `cancel_simulated_run`, one step. -/
def cancelStep (s : RunState ι) (i : ι) : RunState ι :=
  match s.calls i with
  | .idle => { s with cancelEvent := s.cancelEvent || s.isRegistered }.setCall i .signalled
  -- whatever the status is
  | .signalled => { s with status := .cancelled }.setCall i .done
  | _ => s

/-- `conclude_simulated_run`, one step. -/
def concludeStep (s : RunState ι) (i : ι) (now : ℕ) : RunState ι :=
  match s.calls i with
  | .idle => { s with concludeEvent := s.concludeEvent || s.isRegistered }.setCall i .signalled
  | .signalled => s.setCall i (if isUnfinished s.status then .reading else .done)
  -- the report service has a unit of work of its own inside this one
  | .reading =>
    { s with report := some (concludedReport policy round spec now) }.setCall i .reported
  | .reported => { s with status := .reportReady }.setCall i .done
  | .done => s

def lifecycleStep (s : RunState ι) : LifecycleStep ι → RunState ι
  | .worker move now => workerStep policy round spec s move now
  | .call i now =>
    match kind i with
    | .cancel => cancelStep s i
    | .conclude => concludeStep policy round spec s i now
  | .callFails i => s.setCall i .done

end Steps

/-- A run whose row `start_simulated_run` has just saved. -/
def RunState.queued {ι : Type} : RunState ι :=
  ⟨.simulationQueued, none, .unregistered, false, false, fun _ => .idle⟩

/-! ## §3 Settled runs -/

/-- The statuses that a run ends in. -/
def isFinal (status : PromotionLifecycleState) : Bool :=
  status = .cancelled || status = .reportReady || status = .failed

/-- What a later state keeps of an earlier one: a final status, and a report that was ready. -/
structure KeepsOutcome {ι : Type} (s s' : RunState ι) : Prop where
  status : isFinal s.status = true → s'.status = s.status
  report : s.status = .reportReady → s'.report = s.report

namespace KeepsOutcome

variable {ι : Type} {s s' t : RunState ι}

theorem of_not_final (h : isFinal s.status = false) : KeepsOutcome s s' := by
  constructor
  · intro hfinal
    rw [h] at hfinal
    cases hfinal
  · intro hready
    rw [hready] at h
    cases h

theorem of_eq (hstatus : s'.status = s.status) (hreport : s'.report = s.report) :
    KeepsOutcome s s' :=
  ⟨fun _ => hstatus, fun _ => hreport⟩

theorem refl (s : RunState ι) : KeepsOutcome s s := of_eq rfl rfl

theorem trans (h : KeepsOutcome s s') (h' : KeepsOutcome s' t) : KeepsOutcome s t := by
  constructor
  · intro hfinal
    have hs := h.status hfinal
    rw [← hs] at hfinal
    rw [h'.status hfinal, hs]
  · intro hready
    have hs : s'.status = .reportReady := by rw [h.status (by rw [hready]; rfl), hready]
    rw [h'.report hs, h.report hready]

end KeepsOutcome

/-- Whatever has been settled at some point of the run is the same at every later point. -/
def Settled {ι A : Type} (step : RunState ι → A → RunState ι) (s : RunState ι) (steps : List A) :
    Prop :=
  ∀ before after, before ++ after <+: steps →
    KeepsOutcome (run step s before) (run step s (before ++ after))

theorem settled_of_along {ι A : Type} {step : RunState ι → A → RunState ι} {s : RunState ι}
    {steps : List A} (h : Along step (fun s a => KeepsOutcome s (step s a)) s steps) :
    Settled step s steps :=
  rel_between_of_along KeepsOutcome.refl (fun _ _ _ => KeepsOutcome.trans) h

/-! ## §4 Interventions that keep out of the way -/

/-- The worker writes nothing any more. -/
def WorkerPhase.isOver : WorkerPhase → Bool
  | .closing => true
  | .ended => true
  | _ => false

/-- The worker is going to write a status and will not look at the event or at the row before. -/
def WorkerPhase.isWriting : WorkerPhase → Bool
  | .starting => true
  | .reporting _ => true
  | .finishing => true
  | .failing => true
  | _ => false

/-- A conclusion that is going to write. -/
def CallPhase.isConcluding : CallPhase → Bool
  | .reading => true
  | .reported => true
  | _ => false

def RunState.NobodyConcludes {ι : Type} (s : RunState ι) : Prop :=
  ∀ i, (s.calls i).isConcluding = false

/-- The loop ends at this step, and the report comes next. -/
def loopEnds {ι : Type} (spec : SimulationSpec) (s : RunState ι) (sim : Simulation)
    (move : WorkerMove) : Bool :=
  if spec.waits then move = .timeUp || (!s.cancelEvent && s.concludeEvent)
  else spec.targetTradeCount ≤ sim.trades.length

/-- The step comes when nobody else is about to write.

    - A cancellation is written neither between the start check of the worker and its first write,
      nor after its last look at the event and before it is over, and not over another outcome.
    - A conclusion finds the run unfinished only after the worker is over.
    - A worker that has been cancelled is stopped before its loop is at an end. -/
def Undisturbed {ι : Type} (kind : ι → CallKind) (spec : SimulationSpec) (s : RunState ι) :
    LifecycleStep ι → Prop
  | .worker move _ =>
    s.status = .cancelled →
      match s.worker with
      | .checked => move ≠ .raise
      | .looping sim => move ≠ .raise ∧ loopEnds spec s sim move = false
      | _ => True
  | .call i _ =>
    match kind i, s.calls i with
    | .cancel, .signalled =>
      s.status ≠ .reportReady ∧ s.status ≠ .failed ∧ s.worker.isWriting = false ∧
        s.NobodyConcludes
    | .conclude, .signalled =>
      isUnfinished s.status = true → s.worker.isOver = true ∧ s.NobodyConcludes
    | _, _ => True
  | .callFails _ => True

/-- The statuses that the worker can find at each point. -/
def WorkerPhase.expects : WorkerPhase → PromotionLifecycleState → Bool
  | .unregistered, status => status = .simulationQueued || status = .cancelled
  | .notStarted, status => status = .simulationQueued || status = .cancelled
  | .checked, status => status = .simulationQueued || status = .cancelled
  | .starting, status => status = .simulationQueued
  | .looping _, status => status = .simulating || status = .cancelled
  | .reporting _, status => status = .simulating
  | .finishing, status => status = .simulating
  | .failing, status => isUnfinished status
  | .closing, _ => true
  | .ended, _ => true

/-- The status is one that the worker expects where it is.

    A conclusion that is under way is the only one, comes after the worker is over, and still finds
    the run unfinished. -/
structure LifecycleInv {ι : Type} (s : RunState ι) : Prop where
  expects : s.worker.expects s.status = true
  concluding : ∀ i, (s.calls i).isConcluding = true →
    s.worker.isOver = true ∧ isUnfinished s.status = true
  unique : ∀ i j, (s.calls i).isConcluding = true → (s.calls j).isConcluding = true → i = j

namespace LifecycleInv

variable {ι : Type} {s : RunState ι}

theorem queued : LifecycleInv (RunState.queued : RunState ι) := by
  constructor
  · rfl
  · intro i hi
    cases hi
  · intro i j hi
    cases hi

/-- While the worker is at work nobody concludes the run. -/
theorem nobodyConcludes (h : LifecycleInv s) (hover : s.worker.isOver = false) :
    s.NobodyConcludes := by
  intro i
  by_contra hi
  have := (h.concluding i (by simpa using hi)).1
  rw [hover] at this
  cases this

theorem of_nobodyConcludes (hexp : s.worker.expects s.status = true) (h : s.NobodyConcludes) :
    LifecycleInv s := by
  refine ⟨hexp, fun i hi => ?_, fun i j hi => ?_⟩
  all_goals
    rw [h i] at hi
    cases hi

end LifecycleInv

section Steps

variable {ι : Type} {kind : ι → CallKind}
  {policy : PromotionPolicy} {round : ℕ → ℚ → ℚ} {spec : SimulationSpec} {s s' : RunState ι} {i : ι}

/-- A loop that does not end goes round or is stopped. -/
theorem loopStep_of_not_loopEnds {sim : Simulation} {move : WorkerMove}
    (h : loopEnds spec s sim move = false) :
    loopStep round spec s sim move = .closing ∨
      ∃ sim', loopStep round spec s sim move = .looping sim' := by
  unfold loopEnds at h
  unfold loopStep
  split at h
  · rename_i hwaits
    simp only [Bool.or_eq_false_iff, decide_eq_false_iff_not] at h
    rw [if_pos hwaits, if_neg h.1]
    cases hcancel : s.cancelEvent with
    | true => exact .inl rfl
    | false =>
      have hconclude : s.concludeEvent = false := by simpa [hcancel] using h.2
      rw [hconclude]
      split
      · contradiction
      · split
        · exact .inr ⟨_, rfl⟩
        · exact .inr ⟨_, rfl⟩
  · rename_i hwaits
    rw [if_neg hwaits, if_neg (of_decide_eq_false h)]
    split
    · exact .inl rfl
    · exact .inr ⟨_, rfl⟩

/-- The loop leads to the report, to the end, or on. -/
theorem loopStep_cases (sim : Simulation) (move : WorkerMove) :
    (∃ sim', loopStep round spec s sim move = .reporting sim') ∨
      loopStep round spec s sim move = .closing ∨
      ∃ sim', loopStep round spec s sim move = .looping sim' := by
  unfold loopStep
  split_ifs <;> simp

theorem not_isFinal_of_isUnfinished {status : PromotionLifecycleState}
    (h : isUnfinished status = true) : isFinal status = false := by
  cases status <;> first | rfl | cases h

/-- What is left to see of a step of the worker before it is over. -/
theorem LifecycleInv.keeps_of_working (h : LifecycleInv s) (hover : s.worker.isOver = false)
    (hcalls : s'.calls = s.calls) (hexp : s'.worker.expects s'.status = true)
    (hout : isFinal s.status = false ∨ (s'.status = s.status ∧ s'.report = s.report)) :
    LifecycleInv s' ∧ KeepsOutcome s s' := by
  constructor
  · apply LifecycleInv.of_nobodyConcludes hexp
    intro i
    rw [hcalls]
    exact h.nobodyConcludes hover i
  · rcases hout with hfinal | ⟨hstatus, hreport⟩
    · exact .of_not_final hfinal
    · exact .of_eq hstatus hreport

/-- The loop keeps its hands off a run that was cancelled. -/
theorem expects_loopStep {sim : Simulation} {move : WorkerMove}
    (hexp : (WorkerPhase.looping sim).expects s.status = true)
    (hends : s.status = .cancelled → loopEnds spec s sim move = false) :
    (loopStep round spec s sim move).expects s.status = true := by
  have hstatus : s.status = .simulating ∨ s.status = .cancelled := by
    simpa [WorkerPhase.expects] using hexp
  rcases hstatus with hstatus | hstatus
  · rcases loopStep_cases (s := s) sim move with ⟨sim', hloop⟩ | hloop | ⟨sim', hloop⟩
    all_goals
      rw [hloop, hstatus]
      rfl
  · rcases loopStep_of_not_loopEnds (hends hstatus) with hloop | ⟨sim', hloop⟩
    all_goals
      rw [hloop, hstatus]
      rfl

theorem workerStep_keeps {move : WorkerMove} {now : ℕ} (h : LifecycleInv s)
    (hund : Undisturbed kind spec s (.worker move now)) :
    LifecycleInv (workerStep policy round spec s move now) ∧
      KeepsOutcome s (workerStep policy round spec s move now) := by
  have hexp := h.expects
  unfold workerStep
  cases hworker : s.worker with
  | unregistered =>
    -- the events are put into their tables, and the row is left alone
    rw [hworker] at hexp
    exact h.keeps_of_working (by rw [hworker]; rfl) rfl hexp (.inr ⟨rfl, rfl⟩)
  | notStarted =>
    -- whether the event is set or not, the status is left alone
    rw [hworker] at hexp
    refine h.keeps_of_working (by rw [hworker]; rfl) rfl ?_ (.inr ⟨rfl, rfl⟩)
    dsimp only
    split
    · rfl
    · exact hexp
  | checked =>
    rw [hworker] at hexp
    simp only [Undisturbed, hworker] at hund
    have hstatus : s.status = .cancelled ∨ s.status = .simulationQueued := by
      simpa [WorkerPhase.expects, or_comm] using hexp
    have hover : s.worker.isOver = false := by rw [hworker]; rfl
    rcases hstatus with hstatus | hstatus
    · -- the row says that the run was cancelled, and the worker reads it
      simp only [if_neg (hund hstatus), if_pos hstatus]
      exact h.keeps_of_working hover rfl rfl (.inr ⟨rfl, rfl⟩)
    · have hnot : s.status ≠ .cancelled := by simp [hstatus]
      simp only [if_neg hnot]
      split
      · exact h.keeps_of_working hover rfl (by rw [hstatus]; rfl) (.inr ⟨rfl, rfl⟩)
      · exact h.keeps_of_working hover rfl (by rw [hstatus]; rfl) (.inr ⟨rfl, rfl⟩)
  | starting =>
    -- nobody has cancelled the run since its row was read
    rw [hworker] at hexp
    have hstatus : s.status = .simulationQueued := by simpa [WorkerPhase.expects] using hexp
    have hover : s.worker.isOver = false := by rw [hworker]; rfl
    have hfinal : isFinal s.status = false := by rw [hstatus]; rfl
    dsimp only
    split
    · exact h.keeps_of_working hover rfl (by rw [hstatus]; rfl) (.inl hfinal)
    · exact h.keeps_of_working hover rfl rfl (.inl hfinal)
  | looping sim =>
    rw [hworker] at hexp
    simp only [Undisturbed, hworker] at hund
    have hover : s.worker.isOver = false := by rw [hworker]; rfl
    dsimp only
    split
    · -- the handler writes FAILED, so the run must not have been cancelled
      rename_i hraise
      have hnot : s.status ≠ .cancelled := fun hc => (hund hc).1 hraise
      have hstatus : s.status = .simulating := by simpa [WorkerPhase.expects, hnot] using hexp
      exact h.keeps_of_working hover rfl (by rw [hstatus]; rfl) (.inr ⟨rfl, rfl⟩)
    · have hloop : (loopStep round spec s sim move).expects s.status = true :=
        expects_loopStep hexp fun hc => (hund hc).2
      exact h.keeps_of_working hover rfl hloop (.inr ⟨rfl, rfl⟩)
  | reporting sim =>
    -- the run is still simulating, so the status is not final yet
    rw [hworker] at hexp
    have hstatus : s.status = .simulating := by simpa [WorkerPhase.expects] using hexp
    have hover : s.worker.isOver = false := by rw [hworker]; rfl
    have hfinal : isFinal s.status = false := by rw [hstatus]; rfl
    dsimp only
    split
    · exact h.keeps_of_working hover rfl (by rw [hstatus]; rfl) (.inl hfinal)
    · exact h.keeps_of_working hover rfl (by rw [hstatus]; rfl) (.inl hfinal)
  | finishing =>
    -- READY is written over SIMULATING; a write that fails goes to the handler
    rw [hworker] at hexp
    have hstatus : s.status = .simulating := by simpa [WorkerPhase.expects] using hexp
    have hover : s.worker.isOver = false := by rw [hworker]; rfl
    have hfinal : isFinal s.status = false := by rw [hstatus]; rfl
    dsimp only
    split
    · exact h.keeps_of_working hover rfl (by rw [hstatus]; rfl) (.inl hfinal)
    · exact h.keeps_of_working hover rfl rfl (.inl hfinal)
  | failing =>
    -- the handler leaves a row alone that has been settled meanwhile
    rw [hworker] at hexp
    have hover : s.worker.isOver = false := by rw [hworker]; rfl
    dsimp only
    split
    · exact h.keeps_of_working hover rfl rfl (.inr ⟨rfl, rfl⟩)
    · exact h.keeps_of_working hover rfl rfl (.inl (not_isFinal_of_isUnfinished hexp))
  | closing =>
    -- the events go, and a conclusion that is under way stays the only one
    refine ⟨⟨rfl, fun i hi => ⟨rfl, (h.concluding i hi).2⟩, h.unique⟩, .of_eq rfl rfl⟩
  | ended => exact ⟨h, .refl s⟩

/-- Whoever else might conclude the run does not. -/
theorem LifecycleInv.others (h : LifecycleInv s) (hi : (s.calls i).isConcluding = true) (j : ι)
    (hij : j ≠ i) : (s.calls j).isConcluding = false := by
  by_contra hj
  exact hij (h.unique j i (by simpa using hj) hi)

theorem expects_cancelled {phase : WorkerPhase} (h : phase.isWriting = false) :
    phase.expects .cancelled = true := by
  cases phase <;> first | rfl | cases h

theorem expects_of_isOver {phase : WorkerPhase} {status : PromotionLifecycleState}
    (h : phase.isOver = true) : phase.expects status = true := by
  cases phase <;> first | rfl | cases h

variable [DecidableEq ι]

/-- A call that moves on without concluding changes nothing that the invariant speaks of. -/
theorem LifecycleInv.setCall (h : LifecycleInv s) {phase : CallPhase}
    (hphase : phase.isConcluding = false) : LifecycleInv (s.setCall i phase) := by
  have hcalls : ∀ j, ((s.setCall i phase).calls j).isConcluding = true →
      (s.calls j).isConcluding = true := by
    intro j hj
    by_cases hij : j = i
    · subst hij
      simp [RunState.setCall, hphase] at hj
    · simpa [RunState.setCall, hij] using hj
  exact ⟨h.expects, fun j hj => h.concluding j (hcalls j hj),
    fun j k hj hk => h.unique j k (hcalls j hj) (hcalls k hk)⟩

/-- The only conclusion under way moves on. -/
theorem LifecycleInv.setCall_concluding (h : LifecycleInv s) {phase : CallPhase}
    (hover : s.worker.isOver = true) (hstatus : isUnfinished s.status = true)
    (hothers : ∀ j, j ≠ i → (s.calls j).isConcluding = false) :
    LifecycleInv (s.setCall i phase) := by
  have hcalls : ∀ j, ((s.setCall i phase).calls j).isConcluding = true → j = i := by
    intro j hj
    by_contra hij
    simp [RunState.setCall, hij, hothers j hij] at hj
  refine ⟨h.expects, fun j _ => ⟨hover, hstatus⟩, fun j k hj hk => ?_⟩
  rw [hcalls j hj, hcalls k hk]

theorem cancelStep_keeps {now : ℕ} (hkind : kind i = .cancel) (h : LifecycleInv s)
    (hund : Undisturbed kind spec s (.call i now)) :
    LifecycleInv (cancelStep s i) ∧ KeepsOutcome s (cancelStep s i) := by
  unfold cancelStep
  cases hphase : s.calls i with
  | idle =>
    have hset : LifecycleInv { s with cancelEvent := s.cancelEvent || s.isRegistered } :=
      ⟨h.expects, h.concluding, h.unique⟩
    exact ⟨hset.setCall rfl, .of_eq rfl rfl⟩
  | signalled =>
    simp only [Undisturbed, hkind, hphase] at hund
    obtain ⟨hready, hfailed, hwriting, hnobody⟩ := hund
    -- of the final statuses only CANCELLED is left, which is written again
    have hset : LifecycleInv { s with status := .cancelled } :=
      .of_nobodyConcludes (expects_cancelled hwriting) hnobody
    refine ⟨hset.setCall rfl, fun hfinal => ?_, fun hr => absurd hr hready⟩
    have hcancelled : s.status = .cancelled := by simpa [isFinal, hready, hfailed] using hfinal
    exact hcancelled.symm
  | reading => exact ⟨h, .refl s⟩
  | reported => exact ⟨h, .refl s⟩
  | done => exact ⟨h, .refl s⟩

theorem concludeStep_keeps {now : ℕ} (hkind : kind i = .conclude) (h : LifecycleInv s)
    (hund : Undisturbed kind spec s (.call i now)) :
    LifecycleInv (concludeStep policy round spec s i now) ∧
      KeepsOutcome s (concludeStep policy round spec s i now) := by
  unfold concludeStep
  cases hphase : s.calls i with
  | idle =>
    have hset : LifecycleInv { s with concludeEvent := s.concludeEvent || s.isRegistered } :=
      ⟨h.expects, h.concluding, h.unique⟩
    exact ⟨hset.setCall rfl, .of_eq rfl rfl⟩
  | signalled =>
    simp only [Undisturbed, hkind, hphase] at hund
    refine ⟨?_, .of_eq rfl rfl⟩
    dsimp only
    split
    · rename_i hunf
      obtain ⟨hover, hnobody⟩ := hund hunf
      exact h.setCall_concluding hover hunf fun j _ => hnobody j
    · exact h.setCall rfl
  | reading =>
    have hi : (s.calls i).isConcluding = true := by rw [hphase]; rfl
    obtain ⟨hover, hunf⟩ := h.concluding i hi
    have hset : LifecycleInv { s with report := some (concludedReport policy round spec now) } :=
      ⟨h.expects, h.concluding, h.unique⟩
    exact ⟨hset.setCall_concluding hover hunf (h.others hi),
      .of_not_final (not_isFinal_of_isUnfinished hunf)⟩
  | reported =>
    have hi : (s.calls i).isConcluding = true := by rw [hphase]; rfl
    obtain ⟨hover, hunf⟩ := h.concluding i hi
    refine ⟨.of_nobodyConcludes (expects_of_isOver hover) fun j => ?_,
      .of_not_final (not_isFinal_of_isUnfinished hunf)⟩
    -- the conclusion is done with this step, and there was no other
    by_cases hij : j = i
    · subst hij
      simp [RunState.setCall, CallPhase.isConcluding]
    · simpa [RunState.setCall, hij] using h.others hi j hij
  | done => exact ⟨h, .refl s⟩

/-- One step of anyone. -/
theorem lifecycleStep_keeps (step : LifecycleStep ι) (h : LifecycleInv s)
    (hund : Undisturbed kind spec s step) :
    LifecycleInv (lifecycleStep kind policy round spec s step) ∧
      KeepsOutcome s (lifecycleStep kind policy round spec s step) := by
  cases step with
  | worker move now => exact workerStep_keeps h hund
  | call i now =>
    cases hkind : kind i with
    | cancel =>
      simp only [lifecycleStep, hkind]
      exact cancelStep_keeps hkind h hund
    | conclude =>
      simp only [lifecycleStep, hkind]
      exact concludeStep_keeps hkind h hund
  | callFails i => exact ⟨h.setCall rfl, .of_eq rfl rfl⟩

end Steps

/-- **A run is settled once.** In every interleaving of the worker with any number of cancellations
    and conclusions that keep out of each other's way, a final status stays as it is, and a report
    that is ready is not replaced.

    The worker looks for a cancellation at two points, at its start check and in its loop, and
    writes without looking at others; `Undisturbed` says of the state before each step that nobody
    else writes in between. -/
theorem undisturbed_settled {ι : Type} [DecidableEq ι] (kind : ι → CallKind)
    (policy : PromotionPolicy) (round : ℕ → ℚ → ℚ) (spec : SimulationSpec)
    (steps : List (LifecycleStep ι))
    (h : Along (lifecycleStep kind policy round spec) (Undisturbed kind spec) .queued steps) :
    Settled (lifecycleStep kind policy round spec) .queued steps := by
  apply settled_of_along
  refine along_of_invariant LifecycleInv (fun s step hinv hund => ?_) LifecycleInv.queued h
  exact lifecycleStep_keeps step hinv hund

/-- An hour without waiting, which is six trades. -/
def shortSpec : SimulationSpec := ⟨1, false, 10000, 1 / 1000, Dict.empty⟩

/-- A run is cancelled in the first round of its loop, before the worker looks at the event; a
    conclusion that comes later has nothing left to do. -/
def cancelledEarly : List (LifecycleStep CallKind) :=
  [.worker .proceed 0, .worker .proceed 0, .worker .proceed 0, .worker .proceed 0,
    .call .cancel 1, .call .cancel 2, .worker .proceed 3, .worker .proceed 4,
    .call .conclude 5, .call .conclude 6]

theorem cancelledEarly_settled :
    Settled (lifecycleStep id .default (fun _ q => q) shortSpec) .queued cancelledEarly := by
  apply undisturbed_settled
  -- the cancellation is written while the worker is in its loop
  refine ⟨nofun, nofun, nofun, nofun, trivial, ⟨nofun, nofun, rfl, ?_⟩, fun _ => ⟨nofun, rfl⟩,
    fun _ => trivial, trivial, nofun, trivial⟩
  intro i
  cases i with
  | cancel => rfl
  | conclude => rfl

/-- The worker of a run of six trades, to its end. -/
def workedOut : List (LifecycleStep CallKind) := List.replicate 13 (.worker .proceed 0)

/-- **A cancellation is written over a report that is ready.** -/
theorem cancelled_after_report :
    ¬ ∀ (ι : Type) [DecidableEq ι] (kind : ι → CallKind) (policy : PromotionPolicy)
      (round : ℕ → ℚ → ℚ) (spec : SimulationSpec) (steps : List (LifecycleStep ι)),
      Settled (lifecycleStep kind policy round spec) .queued steps := by
  intro h
  have hlater := (h CallKind id .default (fun _ q => q) shortSpec
    (workedOut ++ [.call .cancel 1, .call .cancel 2])
    workedOut [.call .cancel 1, .call .cancel 2] List.prefix_rfl).status (by decide +kernel)
  exact absurd hlater (by decide +kernel)

end CryptoTrading.Experiments
