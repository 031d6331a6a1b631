import CryptoTrading.Backtest.SessionTable
import CryptoTrading.Trading.TradingConfig
import CryptoTrading.Vcs.FastForward

/-!
# The configuration of a queued backtest

Embeds how `BacktestApplicationService` (`src/server/services/backtest_application_service.py`)
builds the runner of a session.  `start_backtest_run` builds it from the commit that the
specification names, or from `HEAD`, and starts it when a slot is free.  A session that waits is
stored without its commit, so `_dispatch_next` builds its runner from `HEAD` as it is by then
(`queued_run_follows_head`).

Every session is executed with the runner it was submitted with when each runner that is built from
`HEAD` is that of the submission, and only then (`runsSubmitted_iff_headAsSubmitted`).

`model_validate` is a parameter.  An error of `start_backtest_run` goes to its caller and changes
nothing; the texts of errors are left out.  What the state says about submissions and executions is
not in the source.
-/

namespace CryptoTrading.Backtest

open CryptoTrading.Lib CryptoTrading.Trading CryptoTrading.Vcs

/-! ## §1 Runners -/

/-- What a `BacktestRunner` is built from. -/
structure RunnerArgs where
  assets : Dict String TradingAsset
  dynamicQuantity : Option String
  deriving DecidableEq

inductive RunnerError where
  | vcs (error : VcsError)
  | invalidConfig (error : String)
  deriving DecidableEq

variable {V R : Type}

/-- The runner for the configuration at a reference. -/
def buildRunner (modelValidate : Config V → Except String TradingConfig) (store : Store V)
    (ref : String) : Except RunnerError RunnerArgs := do
  let rawConfig ← (store.checkout ref).mapError .vcs
  let tradingConfig ← (modelValidate rawConfig).mapError .invalidConfig
  .ok
    { assets := .ofList (tradingConfig.assets.map fun asset => (asset.tickerSymbol, asset))
      dynamicQuantity := tradingConfig.dynamicQuantity }

/-- `BacktestRunSpec`; what is stored of it as the request of the session is a value of its own. -/
structure BacktestRunSpec (R : Type) where
  tickerSymbol : String
  vcsCommitHash : Option String
  request : R

/-- `spec.configuration.vcs_commit_hash or "HEAD"`. -/
def BacktestRunSpec.vcsRef (spec : BacktestRunSpec R) : String :=
  (spec.vcsCommitHash.filter (· ≠ "")).getD "HEAD"

/-! ## §2 The service -/

/-- A session whose thread was started, or whose runner could not be built: the runner it got, and
    the one of its submission. -/
structure Execution where
  sessionId : String
  runner : Option RunnerArgs
  submitted : Option RunnerArgs

/-- The session got the runner of its submission. -/
def Execution.AsSubmitted (e : Execution) : Prop :=
  ∃ runner, e.runner = some runner ∧ e.submitted = some runner

/-- The configuration store, the sessions, the slots, and the sessions that `_dispatch_next`
    acquired and whose runner is to be built. -/
structure QueuedRuns (V R : Type) where
  store : Store V
  table : SessionTable R
  activeRuns : List String
  dispatched : List String
  submitted : Dict String RunnerArgs
  executed : List Execution

inductive RunOp (V R : Type) where
  | vcs (op : StoreOp V)
  | startBacktestRun (sessionId : String) (spec : BacktestRunSpec R) (now : ℤ)
  | dispatchNext (now : ℤ)
  | spawn (sessionId : String) (now : ℤ)
  | complete (sessionId : String) (now : ℤ)
  | fail (sessionId errorMessage : String) (now : ℤ)
  | cancel (sessionId : String) (reason : Option String) (now : ℤ)
  | recover (now : ℤ)
  | restart

/-- The service: its environment, and its arguments. -/
structure RunService (V : Type) where
  env : Env V
  modelValidate : Config V → Except String TradingConfig
  maxConcurrentRuns : ℕ
  workerId : String
  leaseDurationSeconds : ℤ
  abandonedTimeoutSeconds : ℤ

namespace RunService

variable (service : RunService V)

/-- A submission that passes the checks: the session is saved, and started if a slot is free. -/
def submit (s : QueuedRuns V R) (sessionId : String) (spec : BacktestRunSpec R)
    (runner : RunnerArgs) (now : ℤ) : QueuedRuns V R :=
  let table := s.table.saveSession sessionId (.queued spec.request now)
  let submitted := s.submitted.set sessionId runner
  if s.activeRuns.length < max 1 service.maxConcurrentRuns then
    { s with
      table := table.modify sessionId
        (SessionRow.acquire service.workerId now service.leaseDurationSeconds)
      activeRuns := s.activeRuns.insert sessionId
      submitted := submitted
      executed := ⟨sessionId, some runner, some runner⟩ :: s.executed }
  else { s with table := table, submitted := submitted }

/-- `start_backtest_run`. -/
def startBacktestRun (s : QueuedRuns V R) (sessionId : String) (spec : BacktestRunSpec R)
    (now : ℤ) : QueuedRuns V R :=
  match buildRunner service.modelValidate s.store spec.vcsRef with
  | .error _ => s
  | .ok runner =>
    if !runner.assets.contains spec.tickerSymbol || s.table.isActive sessionId then s
    else service.submit s sessionId spec runner now

/-- The block of `_dispatch_next` under the lock. -/
def dispatchNext (s : QueuedRuns V R) (now : ℤ) : QueuedRuns V R :=
  if max 1 service.maxConcurrentRuns ≤ s.activeRuns.length then s
  else
    match s.table.acquireNextQueued service.workerId now service.leaseDurationSeconds with
    | none => s
    | some (sessionId, table) =>
      if sessionId ∈ s.activeRuns then { s with table := table }
      else
        { s with
          table := table
          activeRuns := s.activeRuns.insert sessionId
          dispatched := sessionId :: s.dispatched }

/-- The rest of `_dispatch_next`. -/
def spawn (s : QueuedRuns V R) (sessionId : String) (now : ℤ) : QueuedRuns V R :=
  if sessionId ∈ s.dispatched then
    let s := { s with dispatched := s.dispatched.erase sessionId }
    match buildRunner service.modelValidate s.store "HEAD" with
    | .ok runner =>
      { s with executed := ⟨sessionId, some runner, s.submitted.get? sessionId⟩ :: s.executed }
    | .error _ =>
      { s with
        table := s.table.modify sessionId (SessionRow.markFailed "Failed to initialize runner" now)
        activeRuns := s.activeRuns.erase sessionId
        executed := ⟨sessionId, none, s.submitted.get? sessionId⟩ :: s.executed }
  else s

def step [DecidableEq V] (s : QueuedRuns V R) : RunOp V R → QueuedRuns V R
  | .vcs op => { s with store := op.step service.env s.store }
  | .startBacktestRun sessionId spec now => service.startBacktestRun s sessionId spec now
  | .dispatchNext now => service.dispatchNext s now
  | .spawn sessionId now => service.spawn s sessionId now
  | .complete sessionId now =>
    { s with
      table := s.table.modify sessionId (SessionRow.markCompleted now)
      activeRuns := s.activeRuns.erase sessionId }
  | .fail sessionId errorMessage now =>
    { s with
      table := s.table.modify sessionId (SessionRow.markFailed errorMessage now)
      activeRuns := s.activeRuns.erase sessionId }
  | .cancel sessionId reason now =>
    { s with
      table := s.table.modify sessionId (SessionRow.markCancelled reason now)
      activeRuns := s.activeRuns.erase sessionId }
  | .recover now =>
    { s with table := s.table.recoverAbandoned now service.abandonedTimeoutSeconds }
  | .restart => { s with activeRuns := [], dispatched := [] }

/-- No session yet, over a configuration store. -/
def begin (store : Store V) : QueuedRuns V R := ⟨store, .empty, [], [], .empty, []⟩

/-! ## §3 Executed sessions -/

/-- Every session that was executed, or could not be, got the runner of its submission. -/
def RunsSubmitted (s : QueuedRuns V R) : Prop := ∀ e ∈ s.executed, e.AsSubmitted

/-- A runner that is built from `HEAD` is the one of the submission. -/
def HeadAsSubmitted (s : QueuedRuns V R) : RunOp V R → Prop
  | .spawn sessionId _ =>
    sessionId ∈ s.dispatched →
      ∃ runner, buildRunner service.modelValidate s.store "HEAD" = .ok runner ∧
        s.submitted.get? sessionId = some runner
  | _ => True

theorem runsSubmitted_of_cons {s s' : QueuedRuns V R} {e : Execution}
    (hexecuted : s'.executed = e :: s.executed) (h : RunsSubmitted s) :
    RunsSubmitted s' ↔ e.AsSubmitted := by
  unfold RunsSubmitted
  rw [hexecuted, List.forall_mem_cons]
  exact and_iff_left h

theorem runsSubmitted_of_same {s s' : QueuedRuns V R} (hexecuted : s'.executed = s.executed)
    (h : RunsSubmitted s) : RunsSubmitted s' := by
  unfold RunsSubmitted
  rw [hexecuted]
  exact h

/-- A session that is started at once has the runner of its submission. -/
theorem runsSubmitted_startBacktestRun {s : QueuedRuns V R} (h : RunsSubmitted s)
    (sessionId : String) (spec : BacktestRunSpec R) (now : ℤ) :
    RunsSubmitted (service.startBacktestRun s sessionId spec now) := by
  unfold startBacktestRun
  split
  case h_1 => exact h
  case h_2 runner _ =>
    split
    case isTrue => exact h
    case isFalse =>
      unfold submit
      simp only
      split
      case isTrue => exact (runsSubmitted_of_cons rfl h).mpr ⟨runner, rfl, rfl⟩
      case isFalse => exact runsSubmitted_of_same rfl h

theorem executed_dispatchNext (s : QueuedRuns V R) (now : ℤ) :
    (service.dispatchNext s now).executed = s.executed := by
  unfold dispatchNext
  split
  case isTrue => rfl
  case isFalse =>
    split
    case h_1 => rfl
    case h_2 => split <;> rfl

theorem runsSubmitted_spawn_iff {s : QueuedRuns V R} (h : RunsSubmitted s) (sessionId : String)
    (now : ℤ) :
    RunsSubmitted (service.spawn s sessionId now) ↔
      HeadAsSubmitted service s (.spawn sessionId now) := by
  show _ ↔ (sessionId ∈ s.dispatched → _)
  -- a session that was not dispatched spawns nothing
  by_cases hmem : sessionId ∈ s.dispatched
  · rw [imp_iff_right hmem]
    simp only [spawn, if_pos hmem]
    cases hbuild : buildRunner service.modelValidate s.store "HEAD" with
    | ok runner =>
      simp only
      rw [runsSubmitted_of_cons rfl h]
      constructor
      · rintro ⟨runner', hrunner, hsubmitted⟩
        exact ⟨runner', congrArg Except.ok (Option.some.inj hrunner), hsubmitted⟩
      · rintro ⟨runner', hrunner, hsubmitted⟩
        exact ⟨runner', congrArg some (Except.ok.inj hrunner), hsubmitted⟩
    | error e =>
      simp only
      rw [runsSubmitted_of_cons rfl h]
      constructor
      · rintro ⟨runner', hrunner, -⟩
        cases hrunner
      · rintro ⟨runner', hrunner, -⟩
        cases hrunner
  · have hsame : service.spawn s sessionId now = s := if_neg hmem
    rw [hsame]
    exact iff_of_true h fun hmem' => absurd hmem' hmem

theorem runsSubmitted_step_iff [DecidableEq V] {s : QueuedRuns V R} (h : RunsSubmitted s)
    (op : RunOp V R) : RunsSubmitted (service.step s op) ↔ HeadAsSubmitted service s op := by
  cases op with
  | spawn sessionId now => exact runsSubmitted_spawn_iff service h sessionId now
  | startBacktestRun sessionId spec now =>
    exact iff_of_true (runsSubmitted_startBacktestRun service h sessionId spec now) trivial
  | dispatchNext now =>
    exact iff_of_true (runsSubmitted_of_same (executed_dispatchNext service s now) h) trivial
  | vcs | complete | fail | cancel | recover | restart =>
    exact iff_of_true (runsSubmitted_of_same rfl h) trivial

/-! ## §4 Runs -/

/-- **Queued sessions run what was submitted** exactly when every runner that is built from `HEAD`
    is the one of the submission.

    A session that starts at once gets the runner of its submission.  One that waits is stored
    without a commit, and its runner is built from what `HEAD` is when it is dispatched. -/
theorem runsSubmitted_iff_headAsSubmitted [DecidableEq V] (store : Store V)
    (ops : List (RunOp V R)) :
    (∀ done, done <+: ops → RunsSubmitted (run service.step (begin store) done)) ↔
      Along service.step (HeadAsSubmitted service) (begin store) ops := by
  have hbegin : RunsSubmitted (begin store : QueuedRuns V R) := by
    intro e he
    exact absurd he List.not_mem_nil
  rw [forall_prefix_iff_along, and_iff_right hbegin]
  exact along_iff_of_invariant RunsSubmitted (fun _ op h => runsSubmitted_step_iff service h op)
    (fun _ op h hop => (runsSubmitted_step_iff service h op).mpr hop) hbegin ops

/-! ### A session that waits -/

def sampleAsset : TradingAsset where
  baseTickerSymbol := "BTC"
  quoteTickerSymbol := "USD"
  quoteDecimals := 2
  exchange := "CRYPTO_DOT_COM"
  separator := some "_"
  portfolio := none
  name := "Bitcoin"
  minQuantity := 1
  quantityDecimals := 4
  schedule := .everyMinute
  candlesTimeframe := .min1
  guardConfig := none
  keywords := none
  strategies := none
  consensus := none
  dynamicQuantity := none
  enabled := true

theorem sampleAsset_unique :
    ∀ asset ∈ [sampleAsset], (asset.strategyList.map (·.name)).Nodup := by
  intro asset hasset
  rw [List.mem_singleton.mp hasset]
  exact List.nodup_nil

theorem quantity_ne {quantity : String} (h : quantity ≠ "") : some quantity ≠ some "" :=
  fun hsome => h (Option.some.inj hsome)

/-- A configuration with one asset and the quantity expression of the stored one. -/
def sampleValidate (rawConfig : Config Scalar) : Except String TradingConfig :=
  match rawConfig.settings.look none "dynamic_quantity" with
  | some (.text quantity) =>
    if h : quantity ≠ "" then
      .ok ⟨[sampleAsset], some quantity, .default, sampleAsset_unique, quantity_ne h⟩
    else .error "dynamic_quantity"
  | _ => .error "dynamic_quantity"

def sampleService : RunService Scalar :=
  ⟨sampleEnv, sampleValidate, 1, "bt_worker", 60, 120⟩

def sampleSpec : BacktestRunSpec String := ⟨sampleAsset.tickerSymbol, some "#one", "a month"⟩

/-- Two sessions of the first commit, of which the second waits; `HEAD` moves on before it is
    dispatched. -/
def waitingRun : List (RunOp Scalar String) :=
  [.vcs (commitOp "1" "one" "HEAD"), .startBacktestRun "s1" sampleSpec 0,
    .startBacktestRun "s2" sampleSpec 1, .vcs (commitOp "2" "two" "HEAD"), .complete "s1" 30,
    .dispatchNext 31, .spawn "s2" 31]

/-- The quantity expressions of the runner that the second session got, and of its submission. -/
theorem waitingRun_quantities :
    (run sampleService.step (begin Store.empty) waitingRun).executed.map (fun e : Execution =>
      (e.sessionId, e.runner.bind RunnerArgs.dynamicQuantity,
        e.submitted.bind RunnerArgs.dynamicQuantity)) =
      [("s2", some "2", some "1"), ("s1", some "1", some "1")] := by
  decide +kernel

theorem queued_run_follows_head :
    ¬∀ done, done <+: waitingRun →
      RunsSubmitted (run sampleService.step (begin Store.empty) done) := by
  intro h
  have hruns := h waitingRun (List.prefix_refl _)
  have hquantities := waitingRun_quantities
  unfold RunsSubmitted at hruns
  cases hexecuted : (run sampleService.step (begin Store.empty) waitingRun).executed with
  | nil =>
    rw [hexecuted] at hquantities
    cases hquantities
  | cons e rest =>
    rw [hexecuted] at hquantities hruns
    obtain ⟨runner, hrunner, hsubmitted⟩ := hruns e List.mem_cons_self
    rw [List.map_cons, hrunner, hsubmitted] at hquantities
    have hpair := (List.cons.inj hquantities).1
    -- the two quantity expressions would be the same
    have hfirst := congrArg (fun q : String × Option String × Option String => q.2.1) hpair
    have hsecond := congrArg (fun q : String × Option String × Option String => q.2.2) hpair
    exact absurd (hfirst.symm.trans hsecond) (by decide)

end RunService

end CryptoTrading.Backtest
