import Mathlib.Logic.Function.Iterate
import Mathlib.Tactic.Ring
import CryptoTrading.Backtest.ExecutionEngine
import CryptoTrading.Orders.FillAccounting

/-!
# Backtest runs

Embeds `src/backtest/runner/backtest_runner.py`, the tick of `backtest_simulator.py`, and
the way of a fill through `backtest_websocket_service.py` and `websocket_manager.py`.

All sessions of a run share one event bus.  The websocket service is subscribed to fills
once and passes them to the order manager; the runner subscribes one more callback for each
session and never takes one away.  A fill is therefore booked once by the order manager and
once for every session started so far (`entryCount_publishFill`), and the session agrees
with the engine exactly as long as nothing is filled (`recordedOnce_iff_nothingFilled`).

What the trading executor does at a tick is a parameter (`trade`): the orders it opens.
Order ids are drawn from `newUuid`.  Left out: market data and candle events, the result
collector and the schedule of the trading cycles.
-/

namespace CryptoTrading.Backtest

open CryptoTrading.Lib CryptoTrading.Session CryptoTrading.Orders

/-! ## §1 Requests and state -/

/-- An order that the trading executor opens.  The sizer never goes below the asset's
    minimum quantity, which is positive. -/
structure OrderRequest where
  tradeAction : TradeAction
  quantity : ℚ
  quantity_pos : 0 < quantity
  price : ℚ
  commitHash : Option String
  winningStrategy : Option String
  strategyVotes : Option (List (String × String))
  strategyAttributions : Option (List (String × ℚ))
  decisionId : Option String
  regime : Option String

/-- A request with its asset and its loaded data.  `warmupCutoff` is the start time of a
    request that has a warm-up. -/
structure BacktestRequest where
  sessionId : String
  asset : Asset
  dataset : BacktestDataSet
  initialBalance : ℚ
  execution : ExecutionModel
  warmupCutoff : Option ℤ

/-- `BacktestRunner._as_backtest_asset`. -/
def asBacktestAsset (asset : Asset) : Asset := { asset with exchange := backtestProvider }

def BacktestRequest.tickerSymbol (request : BacktestRequest) : String :=
  (asBacktestAsset request.asset).tickerSymbol

structure BacktestState where
  engine : BacktestExecutionEngine
  orderManager : OrderManager
  warmupCutoff : Option ℤ
  /-- The fill callbacks that sessions have put on the bus. -/
  fillCallbacks : ℕ
  /-- How many results the engine had when the session started. -/
  sessionStart : ℕ
  /-- How many order ids were drawn. -/
  issued : ℕ

/-- The state after `_build_engine`: the application session is running. -/
def BacktestState.start (database : Database) (appSession : TradingSession)
    (headCommitHash : Option String) (first : BacktestRequest) (requests : List BacktestRequest) :
    BacktestState :=
  let datasets : Dict String BacktestDataSet :=
    requests.foldl (fun d request => d.set request.tickerSymbol request.dataset) Dict.empty
  let assets : Dict String Asset :=
    requests.foldl (fun d request => d.set request.tickerSymbol (asBacktestAsset request.asset))
      Dict.empty
  { engine :=
      { clock := BacktestClock.new (datasets.mapValues BacktestDataSet.timestamps)
        datasets := datasets
        model := first.execution
        assets := assets
        account := SimulatedAccount.new first.initialBalance
        pending := Dict.empty
        results := [] }
    orderManager := OrderManager.new database ⟨some appSession, true, headCommitHash⟩ true
    warmupCutoff := first.warmupCutoff
    fillCallbacks := 0
    sessionStart := 0
    issued := 0 }

/-! ## §2 The way of a fill -/

/-- The callback of `BacktestRunner._run_session`; the order object is passed on with its
    commit hash filled in. -/
def onOrderFilled (p : OrderManager × Order) : OrderManager × Order :=
  let recorded := p.1.sessionManager.recordOrderFill p.2
  ({ p.1 with sessionManager := recorded.manager }, recorded.order)

/-- The websocket handler: the order manager saves the order as an order update. -/
def handleOrderFillEvent (p : OrderManager × Order) : OrderManager × Order :=
  let sm := p.1.sessionManager
  ((p.1.saveOrdersToDatabase [p.2] noFault).1, (sm.recordOrderFill (sm.fillCommitHash p.2)).order)

/-- A fill reaches all its subscribers: the websocket service, whose handler the order manager
    has subscribed for each asset, and the callbacks of the sessions. -/
def publishFill (s : BacktestState) (order : Order) : BacktestState :=
  let handled :=
    if (s.engine.assets.get? order.tickerSymbol).isSome then
      handleOrderFillEvent (s.orderManager, order)
    else (s.orderManager, order)
  { s with orderManager := (onOrderFilled^[s.fillCallbacks] handled).1 }

/-- Only fills reach the order manager or the session: no handler passes on cancellations. -/
def handleEvents (s : BacktestState) (events : List EngineEvent) : BacktestState :=
  (BacktestExecutionEngine.filledOrders events).foldl publishFill s

/-! ## §3 Ticks, sessions and runs -/

section Runs

variable (newUuid : ℕ → String) (trade : BacktestState → Asset → ℤ → List OrderRequest)

/-- An execution that succeeds. -/
def succeeds : Execution := ⟨false, false, false⟩

/-- Open an order at a tick: `open_order` places it at the backtest service at once. -/
def openRequest (asset : Asset) (timestamp : ℤ) (s : BacktestState) (request : OrderRequest) :
    BacktestState :=
  let order : Order :=
    { Order.new (newUuid s.issued) asset.exchange asset.tickerSymbol request.price request.quantity
        request.tradeAction timestamp with
      commitHash := request.commitHash
      winningStrategy := request.winningStrategy
      strategyVotes := request.strategyVotes
      strategyAttributions := request.strategyAttributions
      decisionId := request.decisionId
      regime := request.regime }
  let placed := s.orderManager.sessionManager.fillCommitHash (s.orderManager.openedOrder order)
  { s with
    orderManager := (s.orderManager.openOrder order succeeds).1
    engine := (s.engine.createOrder placed).1
    issued := s.issued + 1 }

/-- Whether a tick belongs to the warm-up. -/
def isWarmup (s : BacktestState) (timestamp : ℤ) : Bool := s.warmupCutoff.any (timestamp < ·)

/-- `BacktestSimulator.step`. -/
def simulatorStep (asset : Asset) (s : BacktestState) (timestamp : ℤ) : BacktestState :=
  if isWarmup s timestamp then s
  else
    -- orders of earlier ticks are filled before the executor looks at this one
    let (engine, events) := s.engine.process asset.tickerSymbol timestamp
    let s := handleEvents { s with engine := engine } events
    (trade s asset timestamp).foldl (openRequest newUuid asset timestamp) s

/-- The head of `_run_session`, up to the subscription; `none` when the session manager
    raises. -/
def startSession (s : BacktestState) (request : BacktestRequest) : Option BacktestState := do
  let sm := s.orderManager.sessionManager
  let sm := if sm.isRunning then sm.endSession else sm
  let sm ← sm.createSession request.sessionId (some "HEAD")
  let sm ← sm.initAssetBalance (asBacktestAsset request.asset) request.initialBalance 0 0 0
  let sm ← sm.startSession
  some { s with
    orderManager := { s.orderManager with sessionManager := sm }
    -- the callback of this session joins those of the earlier ones
    fillCallbacks := s.fillCallbacks + 1
    sessionStart := s.engine.results.length }

/-- The tail of `_run_session`. -/
def endSession (s : BacktestState) : BacktestState :=
  let sm := s.orderManager.sessionManager
  { s with
    orderManager := { s.orderManager with
      sessionManager := if sm.isRunning then sm.endSession else sm } }

/-- The ticks of `BacktestSimulator.run`. -/
def ticks (s : BacktestState) (tickerSymbol : String) : List ℤ :=
  s.engine.clock.timestamps.getD tickerSymbol []

/-- `BacktestRunner._run_session`. -/
def runSession (s : BacktestState) (request : BacktestRequest) : BacktestState :=
  match startSession s request with
  | none => s
  | some started =>
    endSession (run (simulatorStep newUuid trade (asBacktestAsset request.asset)) started
      (ticks started request.tickerSymbol))

/-- A statement about every tick of every session of a run. -/
def AtEveryTick (P : BacktestRequest → BacktestState → ℤ → Prop) (s : BacktestState)
    (requests : List BacktestRequest) : Prop :=
  Along (runSession newUuid trade)
    (fun s request => ∀ started, startSession s request = some started →
      Along (simulatorStep newUuid trade (asBacktestAsset request.asset)) (P request) started
        (ticks started request.tickerSymbol))
    s requests

end Runs

/-! ## §4 The session against the engine -/

/-- The engine's fills of a symbol since the session started. -/
def sessionFills (s : BacktestState) (sym : String) : List ExecutionResult :=
  (s.engine.results.drop s.sessionStart).filter fun result => result.tickerSymbol = sym

def fillsOf (side : TradeAction) (fills : List ExecutionResult) : List ExecutionResult :=
  fills.filter fun result => result.tradeAction = side

def executedQuantity (fills : List ExecutionResult) : ℚ := (fills.map (·.executedQuantity)).sum

/-- Each fill of the session is booked once: the context has one opening entry for each BUY,
    one closing entry for each SELL, and the bought less the sold quantity. -/
def RecordedOnce (s : BacktestState) (sym : String) : Prop :=
  ∀ ctx, s.orderManager.sessionManager.findContext sym = some ctx →
    ctx.openPositions.length = (fillsOf .buy (sessionFills s sym)).length ∧
      ctx.closePositions.length = (fillsOf .sell (sessionFills s sym)).length ∧
      ctx.positionQty = executedQuantity (fillsOf .buy (sessionFills s sym)) -
        executedQuantity (fillsOf .sell (sessionFills s sym))

instance RecordedOnce.decidable (s : BacktestState) (sym : String) :
    Decidable (RecordedOnce s sym) :=
  match h : s.orderManager.sessionManager.findContext sym with
  | none => isTrue fun _ hctx => absurd (h.symm.trans hctx) nofun
  | some ctx => decidable_of_iff
      (ctx.openPositions.length = (fillsOf .buy (sessionFills s sym)).length ∧
        ctx.closePositions.length = (fillsOf .sell (sessionFills s sym)).length ∧
        ctx.positionQty = executedQuantity (fillsOf .buy (sessionFills s sym)) -
          executedQuantity (fillsOf .sell (sessionFills s sym)))
      ⟨fun hbooked _ hctx => Option.some.inj (h.symm.trans hctx) ▸ hbooked,
        fun hrecorded => hrecorded ctx h⟩

/-- No pending order that is due at the tick can be filled. -/
def NothingToFill (s : BacktestState) (sym : String) (timestamp : ℤ) : Prop :=
  isWarmup s timestamp = true ∨
    ∀ pending ∈ s.engine.due sym timestamp, s.engine.canFill pending = false

/-! ## §5 How often a fill is booked -/

/-- A session that is running, with a context for the symbol. -/
structure Live (sm : SessionManager) (sym : String) : Prop where
  running : sm.isRunning = true
  session : sm.currentSession.isSome
  context : (sm.findContext sym).isSome

theorem live_recordOrderFill {sm : SessionManager} {sym : String} (h : Live sm sym)
    (order : Order) : Live (sm.recordOrderFill order).manager sym := by
  refine ⟨?_, ?_, ?_⟩
  · unfold SessionManager.recordOrderFill
    split <;> exact h.running
  · unfold SessionManager.recordOrderFill
    split
    · exact h.session
    · simp only [SessionManager.setContext, Option.isSome_map]
      exact h.session
  · rw [SessionManager.isSome_findContext_recordOrderFill]
    exact h.context

/-- The callbacks of the sessions: each books the fill once more. -/
theorem iterate_onOrderFilled {sym : String} (k : ℕ) {p : OrderManager × Order}
    (hlive : Live p.1.sessionManager sym) (hsym : p.2.tickerSymbol = sym) :
    Live (onOrderFilled^[k] p).1.sessionManager sym ∧
      (onOrderFilled^[k] p).1.sessionManager.entryCount sym =
        p.1.sessionManager.entryCount sym + k := by
  induction k generalizing p with
  | zero => exact ⟨hlive, rfl⟩
  | succ k ih =>
    rw [Function.iterate_succ_apply]
    have hlive' : Live (onOrderFilled p).1.sessionManager sym := live_recordOrderFill hlive p.2
    have hsym' : (onOrderFilled p).2.tickerSymbol = sym :=
      (sameReport_recordOrderFill _ _).tickerSymbol_eq.trans hsym
    have hcount : (onOrderFilled p).1.sessionManager.entryCount sym =
        p.1.sessionManager.entryCount sym + 1 := by
      show (p.1.sessionManager.recordOrderFill p.2).manager.entryCount sym = _
      rw [SessionManager.entryCount_recordOrderFill, if_pos ⟨hsym, hlive.context⟩]
    obtain ⟨hend, hcount'⟩ := ih hlive' hsym'
    refine ⟨hend, ?_⟩
    rw [hcount', hcount]
    omega

/-- The websocket handler: the order manager books the fill once. -/
theorem handleOrderFillEvent_session (m : OrderManager) {order : Order}
    (hstatus : order.status = some .completed) :
    (handleOrderFillEvent (m, order)).1.sessionManager =
      (m.sessionManager.recordOrderFill (m.sessionManager.fillCommitHash order)).manager := by
  have hraises : m.database.raises noFault .begin = false := by
    cases m.database <;> rfl
  have hreached : processedOrders m [order] noFault = [order] := by
    unfold processedOrders
    rw [hraises, if_neg Bool.false_ne_true]
    simp only [processedFrom]
    rcases m.processUpdate noFault 0 m.database order with ⟨_, committed⟩
    cases committed <;> rfl
  have hledger := saveOrdersToDatabase_ledger m [order] noFault
  rw [hreached, run_cons, run_nil] at hledger
  have hsession := congrArg Ledger.session hledger
  unfold book at hsession
  rw [if_pos hstatus] at hsession
  exact hsession

/-- A fill is booked by the order manager and by the callback of every session started so
    far. -/
theorem entryCount_publishFill {s : BacktestState} {sym : String} {order : Order}
    (hlive : Live s.orderManager.sessionManager sym) (hsym : order.tickerSymbol = sym)
    (hstatus : order.status = some .completed) (hasset : (s.engine.assets.get? sym).isSome) :
    Live (publishFill s order).orderManager.sessionManager sym ∧
      (publishFill s order).orderManager.sessionManager.entryCount sym =
        s.orderManager.sessionManager.entryCount sym + (1 + s.fillCallbacks) := by
  have hsession := handleOrderFillEvent_session s.orderManager hstatus
  have hlive' : Live (handleOrderFillEvent (s.orderManager, order)).1.sessionManager sym := by
    rw [hsession]
    exact live_recordOrderFill hlive _
  have hcount : (handleOrderFillEvent (s.orderManager, order)).1.sessionManager.entryCount sym =
      s.orderManager.sessionManager.entryCount sym + 1 := by
    rw [hsession, SessionManager.entryCount_recordOrderFill, fillCommitHash_tickerSymbol,
      if_pos ⟨hsym, hlive.context⟩]
  have hsym' : (handleOrderFillEvent (s.orderManager, order)).2.tickerSymbol = sym := by
    show (s.orderManager.sessionManager.recordOrderFill _).order.tickerSymbol = sym
    rw [(sameReport_recordOrderFill _ _).tickerSymbol_eq, fillCommitHash_tickerSymbol]
    exact hsym
  obtain ⟨hend, hcount'⟩ := iterate_onOrderFilled s.fillCallbacks hlive' hsym'
  subst hsym
  simp only [publishFill, hasset, if_true]
  refine ⟨hend, ?_⟩
  rw [hcount', hcount]
  omega

/-- All fills of a tick. -/
theorem entryCount_publishFills {sym : String} {orders : List Order}
    (horders : ∀ order ∈ orders, order.tickerSymbol = sym ∧ order.status = some .completed)
    {s : BacktestState} (hlive : Live s.orderManager.sessionManager sym)
    (hasset : orders ≠ [] → (s.engine.assets.get? sym).isSome) :
    Live (orders.foldl publishFill s).orderManager.sessionManager sym ∧
      (orders.foldl publishFill s).orderManager.sessionManager.entryCount sym =
        s.orderManager.sessionManager.entryCount sym + orders.length * (1 + s.fillCallbacks) := by
  induction orders generalizing s with
  | nil => exact ⟨hlive, by simp⟩
  | cons order rest ih =>
    obtain ⟨hsym, hstatus⟩ := horders order List.mem_cons_self
    have hasset' := hasset (List.cons_ne_nil order rest)
    obtain ⟨hlive', hcount⟩ := entryCount_publishFill hlive hsym hstatus hasset'
    obtain ⟨hend, hcount'⟩ := ih (fun o ho => horders o (List.mem_cons_of_mem order ho)) hlive'
      fun _ => hasset'
    rw [List.foldl_cons]
    refine ⟨hend, ?_⟩
    rw [hcount', hcount]
    show _ + (1 + s.fillCallbacks) + rest.length * (1 + s.fillCallbacks) = _
    rw [List.length_cons]
    ring

/-! ## §6 One tick -/

section Ticks

variable {newUuid : ℕ → String} {trade : BacktestState → Asset → ℤ → List OrderRequest}

/-- Pending orders belong to orders of the account, whose ids were drawn.

    Ids are drawn one after the other, so a new order has none of the ids that are there. -/
structure EngineInv (newUuid : ℕ → String) (s : BacktestState) : Prop where
  backed : s.engine.AllBacked
  drawn : ∀ uuid ∈ s.engine.account.orders.map (·.uuid), ∃ i < s.issued, uuid = newUuid i

/-- The next id was never drawn before. -/
theorem EngineInv.fresh (hinj : Function.Injective newUuid) {s : BacktestState}
    (h : EngineInv newUuid s) :
    ∀ order ∈ s.engine.account.orders, order.uuid ≠ newUuid s.issued := by
  intro order horder heq
  obtain ⟨i, hi, hdrawn⟩ := h.drawn order.uuid (List.mem_map_of_mem horder)
  rw [heq] at hdrawn
  have := hinj hdrawn
  omega

/-- What opening orders leaves alone. -/
structure OpeningFrame (newUuid : ℕ → String) (s s' : BacktestState) : Prop where
  session_eq : s'.orderManager.sessionManager = s.orderManager.sessionManager
  results_eq : s'.engine.results = s.engine.results
  fillCallbacks_eq : s'.fillCallbacks = s.fillCallbacks
  sessionStart_eq : s'.sessionStart = s.sessionStart
  engineInv : EngineInv newUuid s'

theorem openingFrame_openRequest (hinj : Function.Injective newUuid) {s₀ s : BacktestState}
    (h : OpeningFrame newUuid s₀ s) (asset : Asset) (timestamp : ℤ) (request : OrderRequest) :
    OpeningFrame newUuid s₀ (openRequest newUuid asset timestamp s request) := by
  unfold openRequest
  simp only
  generalize hplaced : s.orderManager.sessionManager.fillCommitHash _ = placed
  have huuid : placed.uuid = newUuid s.issued := by
    rw [← hplaced, fillCommitHash_uuid]
    rfl
  have hnew : ∀ order ∈ s.engine.account.orders, order.uuid ≠ placed.uuid :=
    huuid ▸ h.engineInv.fresh hinj
  obtain ⟨hbacked, -, hresults, huuids⟩ :=
    BacktestExecutionEngine.createOrder_spec h.engineInv.backed hnew
  refine ⟨?_, hresults.trans h.results_eq, h.fillCallbacks_eq, h.sessionStart_eq, hbacked, ?_⟩
  · exact (openOrder_sessionManager _ _ _).trans h.session_eq
  · intro uuid hmem
    have hmem' : uuid ∈ (s.engine.createOrder placed).1.account.orders.map (·.uuid) := hmem
    rw [huuids] at hmem'
    rcases List.mem_append.mp hmem' with hold | hadded
    · obtain ⟨i, hi, hdrawn⟩ := h.engineInv.drawn uuid hold
      exact ⟨i, Nat.lt_succ_of_lt hi, hdrawn⟩
    · obtain rfl := List.mem_singleton.mp hadded
      exact ⟨s.issued, Nat.lt_succ_self _, huuid⟩

theorem openingFrame_foldl (hinj : Function.Injective newUuid) {s : BacktestState}
    (h : EngineInv newUuid s) (asset : Asset) (timestamp : ℤ) (requests : List OrderRequest) :
    OpeningFrame newUuid s (requests.foldl (openRequest newUuid asset timestamp) s) :=
  run_invariant (OpeningFrame newUuid s)
    (fun _ request hframe => openingFrame_openRequest hinj hframe asset timestamp request)
    ⟨rfl, rfl, rfl, rfl, h⟩ requests

/-- What publishing fills leaves alone. -/
structure PublishFrame (s s' : BacktestState) : Prop where
  engine_eq : s'.engine = s.engine
  fillCallbacks_eq : s'.fillCallbacks = s.fillCallbacks
  sessionStart_eq : s'.sessionStart = s.sessionStart
  issued_eq : s'.issued = s.issued
  warmupCutoff_eq : s'.warmupCutoff = s.warmupCutoff

theorem publishFrame_publishFill {s₀ s : BacktestState} (h : PublishFrame s₀ s) (order : Order) :
    PublishFrame s₀ (publishFill s order) :=
  ⟨h.engine_eq, h.fillCallbacks_eq, h.sessionStart_eq, h.issued_eq, h.warmupCutoff_eq⟩

theorem publishFrame_foldl (orders : List Order) (s : BacktestState) :
    PublishFrame s (orders.foldl publishFill s) :=
  run_invariant (PublishFrame s) (fun _ order h => publishFrame_publishFill h order)
    ⟨rfl, rfl, rfl, rfl, rfl⟩ orders

/-- What a tick does: the engine's new results, and as many entries in the session for each of them
    as there are subscribers.

    This is all that the later sections know of a tick. -/
structure TickSpec (newUuid : ℕ → String) (sym : String) (timestamp : ℤ) (s s' : BacktestState)
    (results : List ExecutionResult) : Prop where
  results_eq : s'.engine.results = s.engine.results ++ results
  tickerSymbol_eq : ∀ result ∈ results, result.tickerSymbol = sym
  entryCount_eq : s'.orderManager.sessionManager.entryCount sym =
    s.orderManager.sessionManager.entryCount sym + results.length * (1 + s.fillCallbacks)
  nil_iff : results = [] ↔ NothingToFill s sym timestamp
  session_eq : results = [] → s'.orderManager.sessionManager = s.orderManager.sessionManager
  fillCallbacks_eq : s'.fillCallbacks = s.fillCallbacks
  sessionStart_eq : s'.sessionStart = s.sessionStart
  live : Live s'.orderManager.sessionManager sym
  engineInv : EngineInv newUuid s'

theorem simulatorStep_spec (hinj : Function.Injective newUuid)
    (trade : BacktestState → Asset → ℤ → List OrderRequest) {asset : Asset} {s : BacktestState}
    (h : EngineInv newUuid s)
    (hlive : Live s.orderManager.sessionManager asset.tickerSymbol) (timestamp : ℤ) :
    ∃ results, TickSpec newUuid asset.tickerSymbol timestamp s
      (simulatorStep newUuid trade asset s timestamp) results := by
  unfold simulatorStep
  cases hwarm : isWarmup s timestamp with
  | true =>
    -- a tick of the warm-up does nothing but note that it is processed
    refine ⟨[], (List.append_nil _).symm, ?_, by simp, ?_, fun _ => rfl, rfl, rfl, hlive, h⟩
    · intro result hmem
      cases hmem
    · exact ⟨fun _ => .inl hwarm, fun _ => rfl⟩
  | false =>
    -- the engine fills what is due, the fills are published, then the executor opens orders
    obtain ⟨hbacked, hassets, huuids, results, hresults, hticker, hlength, hfilled, hnil⟩ :=
      BacktestExecutionEngine.process_spec h.backed asset.tickerSymbol timestamp
    simp only [Bool.false_eq_true, if_false, handleEvents]
    generalize hprocess : s.engine.process asset.tickerSymbol timestamp = processed at *
    obtain ⟨engine, events⟩ := processed
    simp only at hbacked hassets huuids hresults hlength hfilled ⊢
    generalize BacktestExecutionEngine.filledOrders events = orders at *
    -- only orders of a known asset are filled
    have hasset : orders ≠ [] → (engine.assets.get? asset.tickerSymbol).isSome := by
      intro hne
      rw [hassets]
      apply BacktestExecutionEngine.isSome_asset_of_due h.backed
      rw [← hnil]
      intro heq
      rw [heq, List.length_nil, List.length_eq_zero_iff] at hlength
      exact hne hlength
    obtain ⟨hlive', hcount⟩ := entryCount_publishFills (s := { s with engine := engine }) hfilled
      hlive hasset
    obtain ⟨hengine, hcallbacks, hstart, hissued, -⟩ :=
      publishFrame_foldl orders { s with engine := engine }
    have hempty : results = [] → orders.foldl publishFill { s with engine := engine } =
        { s with engine := engine } := by
      intro heq
      rw [heq, List.length_nil, List.length_eq_zero_iff] at hlength
      rw [hlength]
      rfl
    generalize orders.foldl publishFill { s with engine := engine } = published at *
    -- publishing does not touch the engine
    have hinv : EngineInv newUuid published := by
      refine ⟨?_, ?_⟩
      · rw [hengine]
        exact hbacked
      · rw [hengine, hissued]
        show ∀ uuid ∈ engine.account.orders.map (·.uuid), _
        rw [huuids]
        exact h.drawn
    have hframe := openingFrame_foldl hinj hinv asset timestamp (trade published asset timestamp)
    refine ⟨results, ?_, hticker, ?_, ?_, ?_, ?_, ?_, ?_, hframe.engineInv⟩
    · rw [hframe.results_eq, hengine]
      exact hresults
    · rw [hframe.session_eq, hcount, hlength]
    · rw [hnil]
      unfold NothingToFill
      rw [hwarm]
      constructor
      · exact fun hall => .inr hall
      · rintro (habsurd | hall)
        · cases habsurd
        · exact hall
    · intro heq
      rw [hframe.session_eq, hempty heq]
    · rw [hframe.fillCallbacks_eq, hcallbacks]
    · rw [hframe.sessionStart_eq, hstart]
    · rw [hframe.session_eq]
      exact hlive'

/-! ## §7 Sessions -/

/-- The context of a session in which nothing was filled yet. -/
structure FreshContext (sm : SessionManager) (sym : String) : Prop where
  live : Live sm sym
  entries : ∀ ctx, sm.findContext sym = some ctx →
    ctx.openPositions = [] ∧ ctx.closePositions = [] ∧ ctx.positionQty = 0

/-- A session manager that a new session can be started with. -/
def Startable (sm : SessionManager) : Prop := sm.isRunning = true → sm.currentSession.isSome

/-- The session manager that `startSession` leaves. -/
def startedSession (sm : SessionManager) (request : BacktestRequest) : SessionManager where
  currentSession := some
    { sessionId := request.sessionId
      tradingContexts := Dict.empty.set (asBacktestAsset request.asset).key
        (TradingContext.new request.tickerSymbol backtestProvider request.initialBalance
          (some "HEAD"))
      commitHash := some "HEAD" }
  isRunning := true
  headCommitHash := sm.headCommitHash

theorem startSession_of_startable {s : BacktestState}
    (h : Startable s.orderManager.sessionManager) (request : BacktestRequest) :
    startSession s request = some { s with
      orderManager := { s.orderManager with
        sessionManager := startedSession s.orderManager.sessionManager request }
      fillCallbacks := s.fillCallbacks + 1
      sessionStart := s.engine.results.length } := by
  unfold startSession
  generalize s.orderManager.sessionManager = sm at *
  -- whatever was running has ended
  have hended : ∃ session, (if sm.isRunning = true then sm.endSession else sm) =
      ⟨session, false, sm.headCommitHash⟩ := by
    -- `end_session` forgets the session only if one is running
    cases hrunning : sm.isRunning with
    | true =>
      have hsome := h hrunning
      refine ⟨none, ?_⟩
      simp [SessionManager.endSession, hrunning, Option.isNone_eq_false_iff.mpr hsome]
    | false =>
      refine ⟨sm.currentSession, ?_⟩
      rw [if_neg Bool.false_ne_true]
      cases sm
      simp_all
  obtain ⟨session, hended⟩ := hended
  simp only [hended]
  simp [SessionManager.createSession, SessionManager.initAssetBalance, SessionManager.startSession,
    SessionManager.setContext, Dict.contains, startedSession]
  rfl

theorem findContext_startedSession (sm : SessionManager) (request : BacktestRequest) :
    (startedSession sm request).findContext request.tickerSymbol =
      some (TradingContext.new request.tickerSymbol backtestProvider request.initialBalance
        (some "HEAD")) := by
  unfold SessionManager.findContext SessionManager.findEntry startedSession Dict.findValue?
  simp [Dict.set, Dict.setIn, Dict.empty, TradingContext.new]

theorem freshContext_startedSession (sm : SessionManager) (request : BacktestRequest) :
    FreshContext (startedSession sm request) request.tickerSymbol := by
  have hcontext := findContext_startedSession sm request
  refine ⟨⟨rfl, rfl, ?_⟩, ?_⟩
  · rw [hcontext]
    rfl
  · intro ctx hctx
    rw [hcontext] at hctx
    obtain rfl := Option.some.inj hctx
    exact ⟨rfl, rfl, rfl⟩

/-- Between the sessions of a run. -/
structure SessionInv (newUuid : ℕ → String) (s : BacktestState) : Prop where
  engineInv : EngineInv newUuid s
  startable : Startable s.orderManager.sessionManager

theorem sessionInv_start (newUuid : ℕ → String) (database : Database) (appSession : TradingSession)
    (headCommitHash : Option String) (first : BacktestRequest) (requests : List BacktestRequest) :
    SessionInv newUuid
      (BacktestState.start database appSession headCommitHash first requests) := by
  refine ⟨⟨?_, ?_⟩, fun _ => rfl⟩
  · intro sym pending hmem
    cases hmem
  · intro uuid hmem
    cases hmem

theorem sessionInv_runSession (hinj : Function.Injective newUuid) {s : BacktestState}
    (h : SessionInv newUuid s) (request : BacktestRequest) :
    SessionInv newUuid (runSession newUuid trade s request) := by
  unfold runSession
  rw [startSession_of_startable h.startable request]
  simp only
  generalize hstarted : ({ s with
      orderManager := { s.orderManager with
        sessionManager := startedSession s.orderManager.sessionManager request }
      fillCallbacks := s.fillCallbacks + 1
      sessionStart := s.engine.results.length } : BacktestState) = started
  have hinv : EngineInv newUuid started := by
    rw [← hstarted]
    exact ⟨h.engineInv.backed, h.engineInv.drawn⟩
  have hlive : Live started.orderManager.sessionManager request.tickerSymbol := by
    rw [← hstarted]
    exact (freshContext_startedSession _ request).live
  -- the engine and the session stay in shape over all ticks
  have hrun : EngineInv newUuid (run (simulatorStep newUuid trade (asBacktestAsset request.asset))
        started (ticks started request.tickerSymbol)) ∧
      Live (run (simulatorStep newUuid trade (asBacktestAsset request.asset)) started
        (ticks started request.tickerSymbol)).orderManager.sessionManager request.tickerSymbol := by
    refine run_invariant (fun s' => EngineInv newUuid s' ∧
      Live s'.orderManager.sessionManager request.tickerSymbol) ?_ ⟨hinv, hlive⟩ _
    intro s' timestamp hs'
    obtain ⟨results, hspec⟩ := simulatorStep_spec hinj trade hs'.1 hs'.2 timestamp
    exact ⟨hspec.engineInv, hspec.live⟩
  generalize run (simulatorStep newUuid trade (asBacktestAsset request.asset)) started
    (ticks started request.tickerSymbol) = finished at hrun
  refine ⟨⟨hrun.1.backed, hrun.1.drawn⟩, ?_⟩
  intro hrunning
  -- the session has ended
  simp [endSession, hrun.2.running, SessionManager.endSession,
    Option.isNone_eq_false_iff.mpr hrun.2.session] at hrunning

theorem fillsOf_length (fills : List ExecutionResult) :
    (fillsOf .buy fills).length + (fillsOf .sell fills).length = fills.length := by
  induction fills with
  | nil => rfl
  | cons fill rest ih =>
    unfold fillsOf at ih ⊢
    rw [List.filter_cons, List.filter_cons]
    cases hside : fill.tradeAction with
    | buy =>
      simp only [decide_true, if_true, reduceCtorEq, decide_false, Bool.false_eq_true, if_false,
        List.length_cons]
      omega
    | sell =>
      simp only [decide_true, if_true, reduceCtorEq, decide_false, Bool.false_eq_true, if_false,
        List.length_cons]
      omega

/-- A session in which nothing was filled yet. -/
structure NothingFilledYet (newUuid : ℕ → String) (sym : String) (s : BacktestState) : Prop where
  engineInv : EngineInv newUuid s
  fresh : FreshContext s.orderManager.sessionManager sym
  callback : 1 ≤ s.fillCallbacks
  start : s.engine.results.length = s.sessionStart

/-- The session agrees with the engine after a tick exactly when the tick fills nothing. -/
theorem recordedOnce_simulatorStep_iff (hinj : Function.Injective newUuid)
    (trade : BacktestState → Asset → ℤ → List OrderRequest) {asset : Asset} {s : BacktestState}
    (h : NothingFilledYet newUuid asset.tickerSymbol s) (timestamp : ℤ) :
    RecordedOnce (simulatorStep newUuid trade asset s timestamp) asset.tickerSymbol ↔
      NothingToFill s asset.tickerSymbol timestamp := by
  obtain ⟨results, hspec⟩ := simulatorStep_spec hinj trade h.engineInv h.fresh.live timestamp
  generalize simulatorStep newUuid trade asset s timestamp = s' at hspec
  have hfills : sessionFills s' asset.tickerSymbol = results := by
    unfold sessionFills
    rw [hspec.results_eq, hspec.sessionStart_eq, ← h.start, List.drop_left,
      List.filter_eq_self]
    intro result hmem
    exact decide_eq_true (hspec.tickerSymbol_eq result hmem)
  rw [← hspec.nil_iff]
  constructor
  · intro hrecorded
    obtain ⟨ctx, hctx⟩ := Option.isSome_iff_exists.mp hspec.live.context
    obtain ⟨hopens, hcloses, -⟩ := hrecorded ctx hctx
    have hcount := hspec.entryCount_eq
    -- the context was empty before the tick
    have hbefore : s.orderManager.sessionManager.entryCount asset.tickerSymbol = 0 := by
      obtain ⟨ctx₀, hctx₀⟩ := Option.isSome_iff_exists.mp h.fresh.live.context
      obtain ⟨hopen₀, hclose₀, -⟩ := h.fresh.entries ctx₀ hctx₀
      simp [SessionManager.entryCount, hctx₀, TradingContext.entryCount, hopen₀, hclose₀]
    have hafter : s'.orderManager.sessionManager.entryCount asset.tickerSymbol =
        results.length := by
      rw [hfills] at hopens hcloses
      have hsum := fillsOf_length results
      simp only [SessionManager.entryCount, hctx, Option.map_some, Option.getD_some,
        TradingContext.entryCount]
      omega
    -- every fill has at least two entries
    rw [hafter, hbefore, Nat.zero_add] at hcount
    have hzero : results.length = 0 := by
      have hmul : results.length * (1 + s.fillCallbacks) =
          results.length + results.length * s.fillCallbacks := by ring
      have hle : results.length * 1 ≤ results.length * s.fillCallbacks :=
        Nat.mul_le_mul_left _ h.callback
      omega
    exact List.length_eq_zero_iff.mp hzero
  · intro hnil ctx hctx
    rw [hspec.session_eq hnil] at hctx
    obtain ⟨hopen, hclose, hqty⟩ := h.fresh.entries ctx hctx
    rw [hfills, hnil, hopen, hclose, hqty]
    exact ⟨rfl, rfl, (sub_self 0).symm⟩

theorem nothingFilledYet_simulatorStep (hinj : Function.Injective newUuid)
    (trade : BacktestState → Asset → ℤ → List OrderRequest) {asset : Asset} {s : BacktestState}
    (h : NothingFilledYet newUuid asset.tickerSymbol s) {timestamp : ℤ}
    (hnothing : NothingToFill s asset.tickerSymbol timestamp) :
    NothingFilledYet newUuid asset.tickerSymbol
      (simulatorStep newUuid trade asset s timestamp) := by
  obtain ⟨results, hspec⟩ := simulatorStep_spec hinj trade h.engineInv h.fresh.live timestamp
  have hnil := hspec.nil_iff.mpr hnothing
  refine ⟨hspec.engineInv, ?_, ?_, ?_⟩
  · rw [hspec.session_eq hnil]
    exact h.fresh
  · rw [hspec.fillCallbacks_eq]
    exact h.callback
  · rw [hspec.results_eq, hspec.sessionStart_eq, hnil, List.append_nil]
    exact h.start

/-- **Fills of a backtest are booked once only where nothing is filled.** For every run, with any
    requests, whatever the trading executor does: after every tick of every session the session
    agrees with the engine's fills, if and only if no tick of any session has a due order that can
    be filled.

    A fill is booked by the order manager and again by each subscribed callback, and the callbacks
    of earlier sessions stay on the bus: in the `k`-th session it is booked `k + 1` times. -/
theorem recordedOnce_iff_nothingFilled (newUuid : ℕ → String)
    (hinj : Function.Injective newUuid)
    (trade : BacktestState → Asset → ℤ → List OrderRequest) (database : Database)
    (appSession : TradingSession) (headCommitHash : Option String) (first : BacktestRequest)
    (rest : List BacktestRequest) :
    AtEveryTick newUuid trade
        (fun request s timestamp => RecordedOnce
          (simulatorStep newUuid trade (asBacktestAsset request.asset) s timestamp)
          request.tickerSymbol)
        (BacktestState.start database appSession headCommitHash first (first :: rest))
        (first :: rest) ↔
      AtEveryTick newUuid trade
        (fun request s timestamp => NothingToFill s request.tickerSymbol timestamp)
        (BacktestState.start database appSession headCommitHash first (first :: rest))
        (first :: rest) := by
  unfold AtEveryTick
  apply along_iff_of_invariant (SessionInv newUuid) _
    (fun s request h _ => sessionInv_runSession hinj h request)
    (sessionInv_start newUuid database appSession headCommitHash first (first :: rest))
  intro s request h
  -- within a session the two agree as long as nothing was filled
  apply forall_congr'
  intro started
  apply imp_congr_right
  intro hstarted
  rw [startSession_of_startable h.startable request] at hstarted
  obtain rfl := Option.some.inj hstarted
  apply along_iff_of_invariant (NothingFilledYet newUuid request.tickerSymbol)
  · intro s' timestamp h'
    exact recordedOnce_simulatorStep_iff hinj trade h' timestamp
  · intro s' timestamp h' hnothing
    exact nothingFilledYet_simulatorStep hinj trade h' hnothing
  · exact ⟨⟨h.engineInv.backed, h.engineInv.drawn⟩, freshContext_startedSession _ request,
      Nat.le_add_left 1 _, rfl⟩

end Ticks

/-! ## §8 Two runs -/

/-- Distinct order ids. -/
def sampleUuid (n : ℕ) : String := String.ofList (List.replicate n 'x')

theorem sampleUuid_injective : Function.Injective sampleUuid := by
  intro m n h
  have hlist : List.replicate m 'x' = List.replicate n 'x' := String.ofList_injective h
  simpa using congrArg List.length hlist

/-- Two ticks at the price 10, without latency, slippage or fees. -/
def sampleRequest (initialBalance : ℚ) : BacktestRequest where
  sessionId := "s1"
  asset := ⟨"BTC", "USD", 2, "CRYPTO_DOT_COM", none, none⟩
  dataset := ⟨[⟨1, 10⟩, ⟨2, 10⟩], by decide⟩
  initialBalance := initialBalance
  execution := ⟨0, 0, 0⟩
  warmupCutoff := none

/-- Buy one unit at the first tick. -/
def buyAtFirstTick (_ : BacktestState) (_ : Asset) (timestamp : ℤ) : List OrderRequest :=
  if timestamp = 1 then [⟨.buy, 1, one_pos, 10, none, none, none, none, none, none⟩] else []

def sampleStart (initialBalance : ℚ) : BacktestState :=
  BacktestState.start .noop ⟨"app", Dict.empty, none⟩ none (sampleRequest initialBalance)
    [sampleRequest initialBalance]

/-- With a balance of 5 the order is cancelled at the second tick, and the session agrees with
    the engine throughout. -/
theorem recordedOnce_insufficientFunds :
    AtEveryTick sampleUuid buyAtFirstTick
      (fun request s timestamp => RecordedOnce
        (simulatorStep sampleUuid buyAtFirstTick (asBacktestAsset request.asset) s timestamp)
        request.tickerSymbol)
      (sampleStart 5) [sampleRequest 5] := by
  apply (recordedOnce_iff_nothingFilled sampleUuid sampleUuid_injective buyAtFirstTick .noop
    ⟨"app", Dict.empty, none⟩ none (sampleRequest 5) []).mpr
  refine ⟨?_, trivial⟩
  intro started hstarted
  rw [startSession_of_startable (fun _ => rfl)] at hstarted
  obtain rfl := Option.some.inj hstarted
  unfold NothingToFill
  decide +kernel

/-- With a balance of 1000 it is filled there: the engine has bought one unit, the session has
    booked two. -/
theorem fill_of_first_session_booked_twice :
    ¬ AtEveryTick sampleUuid buyAtFirstTick
      (fun request s timestamp => RecordedOnce
        (simulatorStep sampleUuid buyAtFirstTick (asBacktestAsset request.asset) s timestamp)
        request.tickerSymbol)
      (sampleStart 1000) [sampleRequest 1000] := by
  intro h
  have hsession := h.1 _ (startSession_of_startable (fun _ => rfl) (sampleRequest 1000))
  revert hsession
  decide +kernel

end CryptoTrading.Backtest
