import CryptoTrading.Orders.FillAccounting

/-!
# Outstanding order intents

`open_order` enters an order into `_in_flight_orders`; order updates, the queue worker's
error handler and shutdown remove it.  `has_outstanding_intent` reports what it finds
there or among the open rows of the database.

A run is a sequence of openings, executions, updates and engine cancellations.  Beside
the order manager the state remembers what happened to each order: with which symbol and
side it was opened, whether it was submitted to the exchange, whether it has reached a
terminal outcome.

`IntentInv` relates the order manager to that history; every step keeps it as long as no
terminal outcome is lost on its way to the order manager (`OutcomeArrives`).
-/

namespace CryptoTrading.Orders

open CryptoTrading.Lib CryptoTrading.Session

/-! ## §1 Runs -/

/-- The rows an order manager finds when it starts. -/
def Database.rows : Database → Dict String Order
  | .noop => Dict.empty
  | .sql orders _ => orders

structure IntentState where
  manager : OrderManager
  /-- Symbol and side of every order that was opened. -/
  opened : Dict String (String × TradeAction)
  /-- The orders that were sent to the exchange. -/
  submitted : List String
  /-- The orders that have reached a terminal outcome. -/
  terminal : List String

/-- A new order manager on a database that may hold orders of earlier runs. -/
def IntentState.start (database : Database) (sm : SessionManager) (sync : Bool) : IntentState where
  manager := OrderManager.new database sm sync
  opened := database.rows.mapValues fun row => (row.tickerSymbol, row.tradeAction)
  submitted := database.rows.keys
  terminal := database.rows.keys.filter fun uuid =>
    (database.row? uuid).any fun row => isTerminal row.status

/-- The account may have orders that were opened elsewhere; the first report of one is when
    it becomes known. -/
def IntentState.noteReport (s : IntentState) (order : Order) : IntentState :=
  if (s.opened.get? order.uuid).isSome then s
  else
    { s with
      opened := s.opened.set order.uuid (order.tickerSymbol, order.tradeAction)
      submitted := order.uuid :: s.submitted }

def IntentState.noteReports (s : IntentState) (orders : List Order) : IntentState :=
  run IntentState.noteReport s orders

inductive IntentStep where
  | openOrder (order : Order) (ex : Execution)
  | worker (ex : Execution)
  | update (orders : List Order) (fault : DbFault)
  | engineCancel (uuid : String)
  | clearInFlight

/-- The order ids that a call reports in a terminal status. -/
def terminalIds (orders : List Order) : List String :=
  (orders.filter fun order => isTerminal order.status).map (·.uuid)

/-- An opening executes at once in synchronous mode; a raised execution error is terminal.
    `BacktestExecutionEngine._cancel_order` publishes an event that no handler passes on to
    the order manager.  `clearInFlight` is the end of `shutdown`, whose reconciliation and
    cancellations are updates. -/
def intentStep (s : IntentState) : IntentStep → IntentState
  | .openOrder order ex =>
    let (manager, raised) := s.manager.openOrder order ex
    { manager := manager
      opened := s.opened.set order.uuid (order.tickerSymbol, order.tradeAction)
      -- a queued order reaches the exchange later, with the worker
      submitted :=
        if s.manager.synchronousExecution then order.uuid :: s.submitted else s.submitted
      terminal := if raised then order.uuid :: s.terminal else s.terminal }
  | .worker ex =>
    match s.manager.orderQueue with
    | [] => s
    | order :: rest =>
      let raised := (OrderManager.executeOrder { s.manager with orderQueue := rest } order ex).2
      { s with
        manager := s.manager.processOrderQueue ex
        submitted := order.uuid :: s.submitted
        terminal := if raised then order.uuid :: s.terminal else s.terminal }
  | .update orders fault =>
    { s.noteReports orders with
      manager := (s.manager.saveOrdersToDatabase orders fault).1
      terminal := terminalIds orders ++ s.terminal }
  | .engineCancel uuid => { s with terminal := uuid :: s.terminal }
  | .clearInFlight => { s with manager := { s.manager with inFlightOrders := Dict.empty } }

/-- What the surroundings guarantee: order ids are new, the exchange reports an order only
    after it was submitted and always under its symbol and side, and the backtest engine,
    which runs without a database, cancels orders that were submitted to it. -/
def IntentStep.Valid (s : IntentState) : IntentStep → Prop
  | .openOrder order _ => s.opened.get? order.uuid = none
  | .worker _ => True
  | .update orders _ => ∀ order ∈ orders, order.uuid ∈ (s.noteReports orders).submitted ∧
      (s.noteReports orders).opened.get? order.uuid =
        some (order.tickerSymbol, order.tradeAction)
  | .engineCancel uuid => uuid ∈ s.submitted ∧ s.manager.database = .noop
  | .clearInFlight => True

/-- A report that shows an order open again after its terminal outcome finds the terminal
    row of the order. -/
def ReopeningsFindRow (db : Database) (terminal : List String) (orders : List Order) : Prop :=
  ∀ order ∈ orders, order.uuid ∈ terminal → isOpenStatus order.status = true →
    ∃ row, db.row? order.uuid = some row ∧ isTerminal row.status = true

/-- No terminal outcome is lost: a synchronous execution does not fail, saving the first
    terminal report of an order does not raise, no report reopens an order whose terminal
    outcome has no row, and the engine cancels no order that is in flight. -/
def OutcomeArrives (s : IntentState) : IntentStep → Prop
  | .openOrder _ ex =>
    s.manager.synchronousExecution = true →
      ex.placeRaises = false ∧ (s.manager.database = .noop ∨ ex.saveRaises = false)
  | .worker _ => True
  | .update orders fault =>
    s.manager.database = .noop ∨
      (ReopeningsFindRow s.manager.database s.terminal orders ∧
        (terminalIds orders ⊆ s.terminal ∨
          ((∀ op, fault op = false) ∧ ∀ order ∈ orders, order.status.isSome)))
  | .engineCancel uuid => s.manager.inFlightOrders.get? uuid = none
  | .clearInFlight => True

/-- Orders with a terminal outcome are not in flight, and an intent is reported only for a
    symbol and side of which some opened order has no terminal outcome yet. -/
def IntentsSettled (s : IntentState) : Prop :=
  (∀ uuid ∈ s.terminal, s.manager.inFlightOrders.get? uuid = none) ∧
  ∀ sym action queryRaises, s.manager.hasOutstandingIntent sym action queryRaises = true →
    ∃ uuid side, s.opened.get? uuid = some (sym, side) ∧ (action = none ∨ action = some side) ∧
      uuid ∉ s.terminal

/-- Calls of `_save_orders_to_database` as steps. -/
def updateSteps (calls : List UpdateCall) : List IntentStep :=
  calls.map fun call => .update call.orders call.fault

theorem manager_run_updateSteps (s : IntentState) (calls : List UpdateCall) :
    (run intentStep s (updateSteps calls)).manager = run handleCall s.manager calls := by
  induction calls generalizing s with
  | nil => rfl
  | cons call rest ih => exact ih (intentStep s (.update call.orders call.fault))

/-- A shutdown is a run: the updates of reconciliation and cancellation, then the in-flight
    orders are cleared. -/
theorem shutdown_eq_run (s : IntentState) (registered : List String)
    (reply : Order → OrderManager.ExchangeReply) (accepted : Order → Bool)
    (reconcileRaises cancelRaises : Bool) (fault : String → DbFault) :
    ∃ calls, s.manager.shutdown registered reply accepted reconcileRaises cancelRaises fault =
      (run intentStep s (updateSteps calls ++ [.clearInFlight])).manager := by
  obtain ⟨reconciled, hreconciled⟩ :=
    reconcilePendingOrders_eq_run s.manager registered reply reconcileRaises fault
  obtain ⟨cancelled, hcancelled⟩ :=
    cancelOpenOrders_eq_run (run handleCall s.manager reconciled) accepted cancelRaises fault
  refine ⟨reconciled ++ cancelled, ?_⟩
  rw [run_concat]
  unfold OrderManager.shutdown
  simp only [hreconciled, hcancelled, intentStep, manager_run_updateSteps, run_append]

/-! ## §2 Settled rows -/

/-- Rows have the symbol and side of their order, and the row of an order with a terminal
    outcome is not open. -/
structure DbSettled (opened : Dict String (String × TradeAction)) (terminal : List String)
    (db : Database) : Prop where
  opened_eq : ∀ uuid row, db.row? uuid = some row →
    opened.get? uuid = some (row.tickerSymbol, row.tradeAction)
  not_open : ∀ uuid ∈ terminal, ∀ row, db.row? uuid = some row → isOpenStatus row.status = false

section Settled

variable {opened : Dict String (String × TradeAction)} {terminal : List String}

theorem dbSettled_noop : DbSettled opened terminal .noop where
  opened_eq := by
    intro uuid row hrow
    cases hrow
  not_open := by
    intro uuid _ row hrow
    cases hrow

theorem DbSettled.mono {db : Database} (h : DbSettled opened terminal db)
    {opened' : Dict String (String × TradeAction)} {terminal' : List String}
    (hopened : ∀ uuid e, opened.get? uuid = some e → opened'.get? uuid = some e)
    (hterminal : ∀ uuid ∈ terminal', uuid ∈ terminal ∨ db.row? uuid = none) :
    DbSettled opened' terminal' db where
  opened_eq := fun uuid row hrow => hopened uuid _ (h.opened_eq uuid row hrow)
  not_open := by
    intro uuid hmem row hrow
    rcases hterminal uuid hmem with hold | hnone
    · exact h.not_open uuid hold row hrow
    · rw [hnone] at hrow
      cases hrow

/-- The order ids with a terminal outcome after a report. -/
def noteOutcome (terminal : List String) (order : Order) : List String :=
  if isTerminal order.status then order.uuid :: terminal else terminal

theorem mem_noteOutcome {order : Order} {uuid : String} :
    uuid ∈ noteOutcome terminal order ↔
      (isTerminal order.status = true ∧ uuid = order.uuid) ∨ uuid ∈ terminal := by
  unfold noteOutcome
  split
  · rename_i h
    simp [h]
  · rename_i h
    simp [h]

/-- Writing an order keeps the rows settled, and settles the order itself if it is reported
    in a terminal status. -/
theorem DbSettled.upsert {db db' : Database} (h : DbSettled opened terminal db) {order : Order}
    (hopened : opened.get? order.uuid = some (order.tickerSymbol, order.tradeAction))
    (hreopen : ReopeningsFindRow db terminal [order])
    (hwrite : db.upsertOrder order = some db') :
    DbSettled opened (noteOutcome terminal order) db' where
  opened_eq := by
    intro uuid row hrow
    rcases row?_upsertOrder_cases hwrite hrow with ⟨rfl, ⟨-, rfl⟩ | ⟨old, hold, rfl⟩⟩ | ⟨-, hrow⟩
    · exact hopened
    · have hmatch := h.opened_eq _ old hold
      by_cases hterminal : isTerminal old.status = true
      · rw [Database.mergeRow_of_terminal hterminal]
        exact hmatch
      -- the symbol comes from the order, the side from the row: both are as opened
      · obtain ⟨hsym, hside, -⟩ := Database.mergeRow_of_not_terminal hterminal order
        rw [hsym, hside]
        rw [hopened] at hmatch ⊢
        have hsame : order.tradeAction = old.tradeAction := (Prod.mk.inj (Option.some.inj hmatch)).2
        rw [hsame]
    · exact h.opened_eq uuid row hrow
  not_open := by
    intro uuid hmem row hrow
    rw [mem_noteOutcome] at hmem
    rcases row?_upsertOrder_cases hwrite hrow with ⟨rfl, hrow⟩ | ⟨hne, hrow⟩
    -- the row of the order itself: it is terminal already, or takes the new status
    · by_cases hstatus : isOpenStatus order.status = true
      · have hmem' : order.uuid ∈ terminal := by
          rcases hmem with ⟨habsurd, -⟩ | hold
          · rw [isOpenStatus_of_isTerminal habsurd] at hstatus
            cases hstatus
          · exact hold
        obtain ⟨old, hold, hterminal⟩ := hreopen order (List.mem_singleton_self order) hmem' hstatus
        rcases hrow with ⟨hnone, -⟩ | ⟨old', hold', rfl⟩
        · rw [hnone] at hold
          cases hold
        · rw [hold] at hold'
          obtain rfl := Option.some.inj hold'
          rw [Database.mergeRow_of_terminal hterminal]
          exact isOpenStatus_of_isTerminal hterminal
      · rw [Bool.not_eq_true] at hstatus
        rcases hrow with ⟨-, rfl⟩ | ⟨old, hold, rfl⟩
        · exact hstatus
        · by_cases hterminal : isTerminal old.status = true
          · rw [Database.mergeRow_of_terminal hterminal]
            exact isOpenStatus_of_isTerminal hterminal
          · rw [(Database.mergeRow_of_not_terminal hterminal order).2.2]
            exact hstatus
    · have hold : uuid ∈ terminal := by
        rcases hmem with ⟨-, heq⟩ | hold
        · exact absurd heq hne
        · exact hold
      exact h.not_open uuid hold row hrow

theorem noteOutcome_congr {order written : Order} (hsame : SameReport order written) :
    noteOutcome terminal written = noteOutcome terminal order := by
  unfold noteOutcome
  rw [hsame.status_eq, hsame.uuid_eq]

/-- Writing an order that has no terminal outcome yet.  Its report reopens nothing. -/
theorem DbSettled.upsert_new {db db' : Database} (h : DbSettled opened terminal db)
    {order written : Order}
    (hopened : opened.get? order.uuid = some (order.tickerSymbol, order.tradeAction))
    (hnew : order.uuid ∉ terminal) (hsame : SameReport order written)
    (hwrite : db.upsertOrder written = some db') :
    DbSettled opened (noteOutcome terminal order) db' := by
  rw [← noteOutcome_congr hsame]
  apply h.upsert _ _ hwrite
  · rw [hsame.uuid_eq, hsame.tickerSymbol_eq, hsame.tradeAction_eq]
    exact hopened
  · intro o ho hmem
    obtain rfl := List.mem_singleton.mp ho
    rw [hsame.uuid_eq] at hmem
    exact absurd hmem hnew

end Settled

/-! ## §3 The update loop -/

/-- The conditions on the rows that the loop keeps while it goes through its updates. -/
structure LoopSettled (opened : Dict String (String × TradeAction)) (terminal : List String)
    (uow : Database) (orders : List Order) : Prop where
  settled : DbSettled opened terminal uow
  opened_eq : ∀ order ∈ orders,
    opened.get? order.uuid = some (order.tickerSymbol, order.tradeAction)
  reopenings : uow = .noop ∨ ReopeningsFindRow uow terminal orders

theorem upsertOrder_insertTrades_noop {trades : List Trade} {order : Order} {db' : Database}
    (h : (Database.noop.insertTrades trades).upsertOrder order = some db') : db' = .noop :=
  (Option.some.inj h).symm

/-- After the head is written, the conditions hold for the rest. -/
theorem LoopSettled.tail {opened : Dict String (String × TradeAction)} {terminal : List String}
    {uow uow₁ : Database} {head written : Order} {rest : List Order} {trades : List Trade}
    (h : LoopSettled opened terminal uow (head :: rest)) (hsame : SameReport head written)
    (hwrite : (uow.insertTrades trades).upsertOrder written = some uow₁) :
    LoopSettled opened (noteOutcome terminal head) uow₁ rest := by
  have hrest := fun order horder => h.opened_eq order (List.mem_cons_of_mem head horder)
  rcases h.reopenings with rfl | hreopen
  -- nothing is stored
  · obtain rfl := upsertOrder_insertTrades_noop hwrite
    exact ⟨dbSettled_noop, hrest, .inl rfl⟩
  have hsettled : DbSettled opened terminal (uow.insertTrades trades) := by
    refine ⟨?_, ?_⟩
    · intro uuid row hrow
      rw [row?_insertTrades] at hrow
      exact h.settled.opened_eq uuid row hrow
    · intro uuid hmem row hrow
      rw [row?_insertTrades] at hrow
      exact h.settled.not_open uuid hmem row hrow
  refine ⟨?_, hrest, ?_⟩
  · rw [← noteOutcome_congr hsame]
    apply hsettled.upsert _ _ hwrite
    · rw [hsame.uuid_eq, hsame.tickerSymbol_eq, hsame.tradeAction_eq]
      exact h.opened_eq head List.mem_cons_self
    · intro order horder
      obtain rfl := List.mem_singleton.mp horder
      rw [hsame.uuid_eq, hsame.status_eq, row?_insertTrades]
      exact hreopen head List.mem_cons_self
  · cases uow with
    | noop => exact .inl (upsertOrder_insertTrades_noop hwrite)
    | sql rows stored =>
      right
      intro order horder hmem hstatus
      rw [mem_noteOutcome] at hmem
      rcases hmem with ⟨hterminal, heq⟩ | hmem
      -- the head itself has left a terminal row
      · rw [← hsame.status_eq] at hterminal
        rw [heq, ← hsame.uuid_eq]
        exact exists_row?_upsertOrder hwrite hterminal
      · obtain ⟨row, hrow, hterminal⟩ :=
          hreopen order (List.mem_cons_of_mem head horder) hmem hstatus
        refine ⟨row, ?_, hterminal⟩
        apply row?_upsertOrder_of_terminal hwrite _ hterminal
        rw [row?_insertTrades]
        exact hrow

theorem mem_terminalIds {orders : List Order} {uuid : String} :
    uuid ∈ terminalIds orders ↔
      ∃ order ∈ orders, isTerminal order.status = true ∧ order.uuid = uuid := by
  simp [terminalIds, and_assoc]

/-- A loop that ends has settled the rows of all orders it reports terminal. -/
theorem saveLoop_settled {opened : Dict String (String × TradeAction)} {terminal : List String}
    {fault : DbFault} {i : ℕ} {m : OrderManager} {uow uow' : Database} {orders : List Order}
    (h : LoopSettled opened terminal uow orders)
    (hres : (OrderManager.saveLoop fault i m uow orders).2 = some uow') :
    DbSettled opened (terminalIds orders ++ terminal) uow' := by
  induction orders generalizing i m uow terminal with
  | nil =>
    obtain rfl := Option.some.inj hres
    exact h.settled
  | cons head rest ih =>
    obtain ⟨m₁, uow₁, hhead, htail⟩ := saveLoop_cons_some hres
    rw [htail] at hres
    have hspec := processUpdate_spec m fault i uow head
    rw [hhead] at hspec
    obtain ⟨written, trades, hsame, hwrite⟩ := hspec.exists_upsert
    -- the head is settled by its own write, the rest by induction
    have hsettled := ih (h.tail hsame hwrite) hres
    apply hsettled.mono (fun _ _ hget => hget)
    intro uuid hmem
    left
    rw [List.mem_append, mem_terminalIds] at hmem ⊢
    rw [mem_noteOutcome]
    rcases hmem with ⟨order, horder, hterminal, rfl⟩ | hmem
    · rcases List.mem_cons.mp horder with rfl | horder
      · exact .inr (.inl ⟨hterminal, rfl⟩)
      · exact .inl ⟨order, horder, hterminal, rfl⟩
    · exact .inr (.inr hmem)

/-! ## §4 The invariant -/

/-- What the orders in the queue have in common. -/
structure Queued (s : IntentState) (order : Order) : Prop where
  opened_eq : s.opened.get? order.uuid = some (order.tickerSymbol, order.tradeAction)
  not_submitted : order.uuid ∉ s.submitted
  status_eq : order.status = some .pending

/-- What holds of the order manager between its steps: what is in flight was opened and has no
    terminal outcome, rows fit their orders, and what waits in the queue was not submitted yet. -/
structure IntentInv (s : IntentState) : Prop where
  inFlight : ∀ uuid e, s.manager.inFlightOrders.get? uuid = some e →
    s.opened.get? uuid = some e ∧ uuid ∉ s.terminal
  settled : DbSettled s.opened s.terminal s.manager.database
  row_submitted : ∀ uuid row, s.manager.database.row? uuid = some row → uuid ∈ s.submitted
  terminal_submitted : ∀ uuid ∈ s.terminal, uuid ∈ s.submitted
  submitted_opened : ∀ uuid ∈ s.submitted, (s.opened.get? uuid).isSome
  queued : ∀ order ∈ s.manager.orderQueue, Queued s order
  queue_nodup : (s.manager.orderQueue.map (·.uuid)).Nodup

theorem intentInv_start (database : Database) (sm : SessionManager) (sync : Bool) :
    IntentInv (IntentState.start database sm sync) := by
  -- what is opened at the start are the stored rows, and the terminal ones are submitted
  have hrow : ∀ uuid, database.row? uuid = database.rows.get? uuid := by
    intro uuid
    cases database <;> rfl
  have hkeys : ∀ uuid, uuid ∈ database.rows.keys ↔ (database.rows.get? uuid).isSome := by
    intro uuid
    rw [← Dict.contains_iff_mem_keys]
    rfl
  refine ⟨?_, ⟨?_, ?_⟩, ?_, ?_, ?_, ?_, ?_⟩
  · intro uuid e hget
    cases hget
  · intro uuid row hget
    have hget' : database.rows.get? uuid = some row := (hrow uuid).symm.trans hget
    simp [IntentState.start, hget']
  · intro uuid hmem row hget
    have hget' : database.row? uuid = some row := hget
    have hany := (List.mem_filter.mp hmem).2
    rw [hget'] at hany
    exact isOpenStatus_of_isTerminal hany
  · intro uuid row hget
    have hget' : database.rows.get? uuid = some row := (hrow uuid).symm.trans hget
    refine (hkeys uuid).mpr ?_
    rw [hget']
    rfl
  · intro uuid hmem
    exact (List.mem_filter.mp hmem).1
  · intro uuid hmem
    have := (hkeys uuid).mp hmem
    simpa [IntentState.start] using this
  · intro order hmem
    cases hmem
  · exact List.nodup_nil

/-! ## §5 One step -/

/-- An order id that was never opened is unknown everywhere. -/
theorem IntentInv.fresh {s : IntentState} (h : IntentInv s) {uuid : String}
    (hnew : s.opened.get? uuid = none) :
    uuid ∉ s.submitted ∧ uuid ∉ s.terminal ∧ s.manager.database.row? uuid = none ∧
      ∀ order ∈ s.manager.orderQueue, order.uuid ≠ uuid := by
  have hsubmitted : uuid ∉ s.submitted := by
    intro hmem
    have := h.submitted_opened uuid hmem
    rw [hnew] at this
    cases this
  refine ⟨hsubmitted, fun hmem => hsubmitted (h.terminal_submitted uuid hmem), ?_, ?_⟩
  · rw [Option.eq_none_iff_forall_not_mem]
    intro row hrow
    exact hsubmitted (h.row_submitted uuid row hrow)
  · rintro order horder rfl
    have := (h.queued order horder).opened_eq
    rw [hnew] at this
    cases this

/-- Opening a new order changes nothing about the orders that are known. -/
theorem opened_set_of_some {opened : Dict String (String × TradeAction)} {uuid : String}
    (hnew : opened.get? uuid = none) (entry : String × TradeAction) {u : String}
    {e : String × TradeAction} (h : opened.get? u = some e) :
    (opened.set uuid entry).get? u = some e := by
  have hne : u ≠ uuid := by
    rintro rfl
    rw [hnew] at h
    cases h
  rw [Dict.get?_set_of_ne opened entry hne]
  exact h

/-- Entering a new order into the in-flight orders. -/
theorem IntentInv.inFlight_set {s : IntentState} (h : IntentInv s) {uuid : String}
    (hnew : s.opened.get? uuid = none) (entry : String × TradeAction) {u : String}
    {e : String × TradeAction}
    (hget : (s.manager.inFlightOrders.set uuid entry).get? u = some e) :
    (s.opened.set uuid entry).get? u = some e ∧ u ∉ s.terminal := by
  rw [Dict.get?_set] at hget
  split at hget
  · rename_i heq
    subst heq
    rw [Dict.get?_set_self]
    exact ⟨hget, (h.fresh hnew).2.1⟩
  · obtain ⟨hopened, hterminal⟩ := h.inFlight u e hget
    exact ⟨opened_set_of_some hnew entry hopened, hterminal⟩

/-- Opening in queued mode. -/
theorem intentInv_openOrder_queued {s : IntentState} (h : IntentInv s) {order : Order}
    (hnew : s.opened.get? order.uuid = none) (hmode : s.manager.synchronousExecution = false)
    (ex : Execution) : IntentInv (intentStep s (.openOrder order ex)) := by
  obtain ⟨hsubmitted, hterminal, -, hqueue⟩ := h.fresh hnew
  have hmono := fun u e => opened_set_of_some (u := u) (e := e) hnew
    (order.tickerSymbol, order.tradeAction)
  have hstep : intentStep s (.openOrder order ex) =
      { s with
        manager := { s.manager with
          inFlightOrders :=
            s.manager.inFlightOrders.set order.uuid (order.tickerSymbol, order.tradeAction)
          orderQueue := s.manager.orderQueue ++ [s.manager.openedOrder order] }
        opened := s.opened.set order.uuid (order.tickerSymbol, order.tradeAction) } := by
    simp [intentStep, OrderManager.openOrder, OrderManager.openedOrder, hmode]
  rw [hstep]
  -- the new order is in flight and queued, and has not been submitted
  refine ⟨fun u e hget => h.inFlight_set hnew _ hget,
    h.settled.mono hmono fun _ hmem => .inl hmem, h.row_submitted, h.terminal_submitted, ?_, ?_, ?_⟩
  · intro uuid hmem
    obtain ⟨e, he⟩ := Option.isSome_iff_exists.mp (h.submitted_opened uuid hmem)
    simp only
    rw [hmono uuid e he]
    rfl
  · intro o ho
    rcases List.mem_append.mp ho with ho | ho
    · have hq := h.queued o ho
      exact ⟨hmono _ _ hq.opened_eq, hq.not_submitted, hq.status_eq⟩
    · obtain rfl := List.mem_singleton.mp ho
      exact ⟨Dict.get?_set_self _ _ _, hsubmitted, rfl⟩
  · show ((s.manager.orderQueue ++ [s.manager.openedOrder order]).map (·.uuid)).Nodup
    rw [List.map_append, List.map_singleton]
    apply h.queue_nodup.append (List.nodup_singleton _)
    rw [List.disjoint_singleton]
    intro hmem
    obtain ⟨o, ho, heq⟩ := List.mem_map.mp hmem
    exact hqueue o ho heq

/-- Writing the row of an order that has just been submitted. -/
theorem IntentInv.row_submitted_of_upsert {s : IntentState} (h : IntentInv s) {db' : Database}
    {order written : Order} (hsame : SameReport order written)
    (hwrite : s.manager.database.upsertOrder written = some db')
    {uuid : String} {row : Order} (hrow : db'.row? uuid = some row) :
    uuid ∈ order.uuid :: s.submitted := by
  rw [← hsame.uuid_eq]
  rcases row?_upsertOrder_cases hwrite hrow with ⟨rfl, -⟩ | ⟨-, hold⟩
  · exact List.mem_cons_self
  · exact List.mem_cons_of_mem _ (h.row_submitted uuid row hold)

/-- Opening in synchronous mode, when the execution does not fail. -/
theorem intentInv_openOrder_sync {s : IntentState} (h : IntentInv s) {order : Order}
    (hnew : s.opened.get? order.uuid = none) (hmode : s.manager.synchronousExecution = true)
    {ex : Execution} (hplace : ex.placeRaises = false)
    (hsave : s.manager.database = .noop ∨ ex.saveRaises = false) :
    IntentInv (intentStep s (.openOrder order ex)) := by
  -- the order is a new one
  obtain ⟨hsubmitted, hterminal, -, hqueue⟩ := h.fresh hnew
  have hmono := fun u e => opened_set_of_some (u := u) (e := e) hnew
    (order.tickerSymbol, order.tradeAction)
  have hend := openOrder_end s.manager order hmode ex
  -- the execution succeeds, so the order can neither be refused nor lost
  have hnocause : ¬ (ex.placeRaises = true ∨
      (s.manager.database ≠ .noop ∧ ex.saveRaises = true)) := by
    rintro (hraises | ⟨hdb, hraises⟩)
    · rw [hplace] at hraises
      cases hraises
    · rcases hsave with hnoop | hsave
      · exact hdb hnoop
      · rw [hsave] at hraises
        cases hraises
  simp only [intentStep, hmode, if_true]
  generalize s.manager.openOrder order ex = res at hend
  cases hend with
  | refused written db' hcause => exact absurd hcause hnocause
  | lost hcause => exact absurd hcause hnocause
  | accepted db' written hsame hwrite =>
    have hsettled : DbSettled (s.opened.set order.uuid (order.tickerSymbol, order.tradeAction))
        s.terminal s.manager.database := h.settled.mono hmono fun _ hmem => .inl hmem
    refine ⟨fun u e hget => h.inFlight_set hnew _ hget, ?_, ?_, ?_, ?_, ?_, h.queue_nodup⟩
    -- the row is written as pending, so no terminal outcome is added
    · refine DbSettled.upsert_new hsettled ?_ ?_ hsame hwrite
      · exact Dict.get?_set_self _ _ _
      · exact hterminal
    · intro uuid row hrow
      exact h.row_submitted_of_upsert hsame hwrite hrow
    · intro uuid hmem
      exact List.mem_cons_of_mem _ (h.terminal_submitted uuid hmem)
    · intro uuid hmem
      rcases List.mem_cons.mp hmem with rfl | hmem
      · simp
      · obtain ⟨e, he⟩ := Option.isSome_iff_exists.mp (h.submitted_opened uuid hmem)
        simp only
        rw [hmono uuid e he]
        rfl
    · intro o ho
      have hq := h.queued o ho
      refine ⟨hmono _ _ hq.opened_eq, ?_, hq.status_eq⟩
      intro hmem
      rcases List.mem_cons.mp hmem with heq | hmem
      · exact hqueue o ho heq
      · exact hq.not_submitted hmem

/-- The head of the queue has been submitted: what is left to show is that it is out of
    flight if it is terminal, and that the rows are settled. -/
theorem IntentInv.of_submission {s s' : IntentState} (h : IntentInv s) {order : Order}
    {rest : List Order} (hqueue : s.manager.orderQueue = order :: rest)
    (hqueue' : s'.manager.orderQueue = rest) (hopened : s'.opened = s.opened)
    (hsubmitted : s'.submitted = order.uuid :: s.submitted)
    (hterminal : ∀ uuid ∈ s'.terminal, uuid ∈ order.uuid :: s.terminal)
    (hinFlight : ∀ uuid e, s'.manager.inFlightOrders.get? uuid = some e →
      s.manager.inFlightOrders.get? uuid = some e ∧ (uuid = order.uuid → uuid ∉ s'.terminal))
    (hsettled : DbSettled s.opened s'.terminal s'.manager.database)
    (hrows : ∀ uuid row, s'.manager.database.row? uuid = some row →
      uuid ∈ order.uuid :: s.submitted) : IntentInv s' := by
  have hqueued := h.queued
  have hnodup := h.queue_nodup
  rw [hqueue] at hqueued hnodup
  rw [List.map_cons, List.nodup_cons] at hnodup
  refine ⟨?_, hopened ▸ hsettled, ?_, ?_, ?_, ?_, ?_⟩
  · intro uuid e hget
    obtain ⟨hold, hout⟩ := hinFlight uuid e hget
    obtain ⟨ho, ht⟩ := h.inFlight uuid e hold
    rw [hopened]
    refine ⟨ho, fun hmem => ?_⟩
    rcases List.mem_cons.mp (hterminal uuid hmem) with rfl | hmem'
    · exact hout rfl hmem
    · exact ht hmem'
  · intro uuid row hrow
    rw [hsubmitted]
    exact hrows uuid row hrow
  · intro uuid hmem
    rw [hsubmitted]
    rcases List.mem_cons.mp (hterminal uuid hmem) with rfl | hmem'
    · exact List.mem_cons_self
    · exact List.mem_cons_of_mem _ (h.terminal_submitted uuid hmem')
  · intro uuid hmem
    rw [hsubmitted] at hmem
    rw [hopened]
    rcases List.mem_cons.mp hmem with rfl | hmem'
    · rw [(hqueued order List.mem_cons_self).opened_eq]
      rfl
    · exact h.submitted_opened uuid hmem'
  -- the ids in the queue are distinct, so the others are not the one that was submitted
  · intro o ho
    rw [hqueue'] at ho
    have hq := hqueued o (List.mem_cons_of_mem order ho)
    refine ⟨hopened ▸ hq.opened_eq, ?_, hq.status_eq⟩
    rw [hsubmitted, List.mem_cons, not_or]
    refine ⟨?_, hq.not_submitted⟩
    intro heq
    exact hnodup.1 (heq ▸ List.mem_map_of_mem ho)
  · rw [hqueue']
    exact hnodup.2

/-- A round of the queue worker.  Whatever the execution does, an error takes the order out
    of the in-flight orders. -/
theorem intentInv_worker {s : IntentState} (h : IntentInv s) (ex : Execution) :
    IntentInv (intentStep s (.worker ex)) := by
  unfold intentStep OrderManager.processOrderQueue
  cases hqueue : s.manager.orderQueue with
  | nil => exact h
  | cons order rest =>
    have hq : Queued s order := h.queued order (hqueue ▸ List.mem_cons_self)
    -- the order leaves the queue for the first time, so nothing is known of its outcome
    have hnotTerminal : order.uuid ∉ s.terminal := fun hmem =>
      hq.not_submitted (h.terminal_submitted order.uuid hmem)
    have herased : ∀ uuid e, (s.manager.inFlightOrders.erase order.uuid).get? uuid = some e →
        s.manager.inFlightOrders.get? uuid = some e ∧
          (uuid = order.uuid → uuid ∉ order.uuid :: s.terminal) := by
      intro uuid e hget
      rw [Dict.get?_erase] at hget
      split at hget
      · cases hget
      · rename_i hne
        exact ⟨hget, fun heq => absurd heq hne⟩
    have hend := executeOrder_end { s.manager with orderQueue := rest } order hq.status_eq ex
    simp only
    generalize OrderManager.executeOrder { s.manager with orderQueue := rest } order ex = res
      at hend
    cases hend with
    | accepted db' written hsame hwrite =>
      -- the order goes on, and its row is what was written of it
      refine h.of_submission hqueue rfl rfl rfl ?_ ?_ ?_ ?_
      · intro uuid hmem
        exact List.mem_cons_of_mem _ hmem
      · intro uuid e hget
        refine ⟨hget, ?_⟩
        rintro rfl
        exact hnotTerminal
      · have hafter := h.settled.upsert_new hq.opened_eq hnotTerminal hsame hwrite
        unfold noteOutcome at hafter
        rw [hq.status_eq] at hafter
        exact hafter
      · intro uuid row hrow
        exact h.row_submitted_of_upsert hsame hwrite hrow
    | refused written db' hcause hsame hwrite =>
      refine h.of_submission hqueue rfl rfl rfl (fun _ hmem => hmem) herased ?_ ?_
      -- written as rejected, which is the terminal outcome of the order
      · refine DbSettled.upsert_new h.settled ?_ ?_ hsame hwrite
        · exact hq.opened_eq
        · exact hnotTerminal
      · intro uuid row hrow
        exact h.row_submitted_of_upsert hsame hwrite hrow
    | lost hcause =>
      refine h.of_submission hqueue rfl rfl rfl (fun _ hmem => hmem) herased ?_ ?_
      -- nothing was written: the order has no row
      · apply h.settled.mono (fun _ _ hget => hget)
        intro uuid hmem
        rcases List.mem_cons.mp hmem with rfl | hmem
        · right
          rw [Option.eq_none_iff_forall_not_mem]
          intro row hrow
          exact hq.not_submitted (h.row_submitted _ row hrow)
        · exact .inl hmem
      · intro uuid row hrow
        exact List.mem_cons_of_mem _ (h.row_submitted uuid row hrow)

/-- What becomes known by the reports of a call. -/
structure Noted (s s' : IntentState) : Prop where
  manager_eq : s'.manager = s.manager
  terminal_eq : s'.terminal = s.terminal
  opened_mono : ∀ uuid e, s.opened.get? uuid = some e → s'.opened.get? uuid = some e
  submitted_mono : ∀ uuid ∈ s.submitted, uuid ∈ s'.submitted
  submitted_new : ∀ uuid ∈ s'.submitted, uuid ∈ s.submitted ∨
    (s.opened.get? uuid = none ∧ (s'.opened.get? uuid).isSome)

theorem noted_noteReport {s₀ s : IntentState} (h : Noted s₀ s) (order : Order) :
    Noted s₀ (s.noteReport order) := by
  unfold IntentState.noteReport
  -- a report of a known order adds nothing, one of a foreign order opens and submits it
  split
  · exact h
  · rename_i hnone
    rw [Option.not_isSome_iff_eq_none] at hnone
    refine ⟨h.manager_eq, h.terminal_eq, ?_, ?_, ?_⟩
    · intro uuid e hget
      exact opened_set_of_some hnone _ (h.opened_mono uuid e hget)
    · intro uuid hmem
      exact List.mem_cons_of_mem _ (h.submitted_mono uuid hmem)
    · intro uuid hmem
      rcases List.mem_cons.mp hmem with rfl | hmem
      · right
        refine ⟨?_, by simp⟩
        rw [Option.eq_none_iff_forall_not_mem]
        intro e he
        have := h.opened_mono _ e he
        rw [hnone] at this
        cases this
      · rcases h.submitted_new uuid hmem with hold | ⟨hnew, hsome⟩
        · exact .inl hold
        · obtain ⟨e, he⟩ := Option.isSome_iff_exists.mp hsome
          refine .inr ⟨hnew, ?_⟩
          simp only
          rw [opened_set_of_some hnone _ he]
          rfl

theorem noted_noteReports (s : IntentState) (orders : List Order) :
    Noted s (s.noteReports orders) :=
  run_invariant (Noted s) (fun _ order h => noted_noteReport h order)
    ⟨rfl, rfl, fun _ _ h => h, fun _ h => h, fun _ h => .inl h⟩ orders

/-- A call keeps the invariant if what it reports terminal is out of flight and settled, and
    the rows it leaves belong to submitted orders. -/
theorem IntentInv.of_update {s : IntentState} (h : IntentInv s) {orders : List Order}
    {fault : DbFault} (hvalid : (IntentStep.update orders fault).Valid s)
    (hpopped : ∀ u e, (s.manager.saveOrdersToDatabase orders fault).1.inFlightOrders.get? u =
      some e → u ∈ terminalIds orders → u ∈ s.terminal)
    (hsettled : DbSettled (s.noteReports orders).opened (terminalIds orders ++ s.terminal)
      (s.manager.saveOrdersToDatabase orders fault).1.database)
    (hrows : ∀ u row, (s.manager.saveOrdersToDatabase orders fault).1.database.row? u = some row →
      u ∈ (s.noteReports orders).submitted) :
    IntentInv (intentStep s (.update orders fault)) := by
  have hnoted := noted_noteReports s orders
  obtain ⟨⟨hqueue, -, hsub⟩, -⟩ := saveOrdersToDatabase_cases s.manager orders fault
  refine ⟨?_, hsettled, hrows, ?_, ?_, ?_, ?_⟩
  · intro u e hget
    obtain ⟨ho, ht⟩ := h.inFlight u e (hsub u e hget)
    refine ⟨hnoted.opened_mono u e ho, fun hmem => ht ?_⟩
    rcases List.mem_append.mp hmem with hmem | hmem
    · exact hpopped u e hget hmem
    · exact hmem
  -- what a report says was submitted and has been opened, here or elsewhere
  · intro u hmem
    rcases List.mem_append.mp hmem with hmem | hmem
    · obtain ⟨order, horder, -, rfl⟩ := mem_terminalIds.mp hmem
      exact (hvalid order horder).1
    · exact hnoted.submitted_mono u (h.terminal_submitted u hmem)
  · intro u hmem
    show ((s.noteReports orders).opened.get? u).isSome
    rcases hnoted.submitted_new u hmem with hold | ⟨-, hsome⟩
    · obtain ⟨e, he⟩ := Option.isSome_iff_exists.mp (h.submitted_opened u hold)
      rw [hnoted.opened_mono u e he]
      rfl
    · exact hsome
  -- a queued order was never submitted, so no report is about it
  · intro o ho
    have hq := h.queued o (hqueue ▸ ho)
    refine ⟨hnoted.opened_mono _ _ hq.opened_eq, ?_, hq.status_eq⟩
    intro hmem
    rcases hnoted.submitted_new o.uuid hmem with hold | ⟨hnew, -⟩
    · exact hq.not_submitted hold
    · rw [hq.opened_eq] at hnew
      cases hnew
  · show ((s.manager.saveOrdersToDatabase orders fault).1.orderQueue.map (·.uuid)).Nodup
    rw [hqueue]
    exact h.queue_nodup

/-- A call of `_save_orders_to_database`.  If it raises, it has reported no new terminal
    outcome; otherwise everything it reports terminal is popped and settled. -/
theorem intentInv_update {s : IntentState} (h : IntentInv s) {orders : List Order}
    {fault : DbFault} (hvalid : (IntentStep.update orders fault).Valid s)
    (harrives : OutcomeArrives s (.update orders fault)) :
    IntentInv (intentStep s (.update orders fault)) := by
  have hnoted := noted_noteReports s orders
  have hsettled : DbSettled (s.noteReports orders).opened s.terminal s.manager.database :=
    h.settled.mono hnoted.opened_mono fun _ hmem => .inl hmem
  rcases (saveOrdersToDatabase_cases s.manager orders fault).2 with
    ⟨hdb, hfails⟩ | ⟨uow', hloop, hres⟩
  -- the call raised: its unit of work is rolled back
  · have hnew : terminalIds orders ⊆ s.terminal := by
      rcases harrives with hnoop | ⟨-, hnew | hworks⟩
      · exact absurd (.inl hnoop) hfails
      · exact hnew
      · exact absurd (.inr hworks) hfails
    apply h.of_update hvalid (fun _ _ _ hmem => hnew hmem)
    · rw [hdb]
      apply hsettled.mono (fun _ _ hget => hget)
      intro u hmem
      rcases List.mem_append.mp hmem with hmem | hmem
      · exact .inl (hnew hmem)
      · exact .inl hmem
    · intro u row hrow
      rw [hdb] at hrow
      exact hnoted.submitted_mono u (h.row_submitted u row hrow)
  -- the call went through: what it reports terminal is popped, and its row is terminal
  · have hstart : LoopSettled (s.noteReports orders).opened s.terminal s.manager.database orders :=
      ⟨hsettled, fun order horder => (hvalid order horder).2,
        harrives.imp_right fun hrest => hrest.1⟩
    apply h.of_update hvalid
    · intro u e hget hmem
      obtain ⟨order, horder, hterminal, rfl⟩ := mem_terminalIds.mp hmem
      have hpopped := saveLoop_pops hloop horder (isOpenStatus_of_isTerminal hterminal)
      simp only [hres] at hget
      rw [hpopped] at hget
      cases hget
    · rw [hres]
      exact saveLoop_settled hstart hloop
    · intro u row hrow
      simp only [hres] at hrow
      by_cases hreported : ∃ order ∈ orders, order.uuid = u
      · obtain ⟨order, horder, rfl⟩ := hreported
        exact (hvalid order horder).1
      · have hsame : uow'.row? u = s.manager.database.row? u :=
          saveLoop_row?_of_notMem hloop fun order horder heq => hreported ⟨order, horder, heq⟩
        rw [hsame] at hrow
        exact hnoted.submitted_mono u (h.row_submitted u row hrow)

theorem intentInv_engineCancel {s : IntentState} (h : IntentInv s) {uuid : String}
    (hvalid : (IntentStep.engineCancel uuid).Valid s)
    (harrives : OutcomeArrives s (.engineCancel uuid)) :
    IntentInv (intentStep s (.engineCancel uuid)) := by
  obtain ⟨hsubmitted, hdb⟩ := hvalid
  refine ⟨?_, ?_, h.row_submitted, ?_, h.submitted_opened, ?_, h.queue_nodup⟩
  · intro u e hget
    obtain ⟨ho, ht⟩ := h.inFlight u e hget
    refine ⟨ho, fun hmem => ?_⟩
    rcases List.mem_cons.mp hmem with rfl | hmem
    · have hnone : s.manager.inFlightOrders.get? u = none := harrives
      rw [show s.manager.inFlightOrders.get? u = some e from hget] at hnone
      cases hnone
    · exact ht hmem
  · show DbSettled _ _ s.manager.database
    rw [hdb]
    exact dbSettled_noop
  · intro u hmem
    rcases List.mem_cons.mp hmem with rfl | hmem
    · exact hsubmitted
    · exact h.terminal_submitted u hmem
  · intro o ho
    have hq := h.queued o ho
    exact ⟨hq.opened_eq, hq.not_submitted, hq.status_eq⟩

theorem intentInv_clearInFlight {s : IntentState} (h : IntentInv s) :
    IntentInv (intentStep s .clearInFlight) where
  inFlight := by
    intro u e hget
    cases hget
  settled := h.settled
  row_submitted := h.row_submitted
  terminal_submitted := h.terminal_submitted
  submitted_opened := h.submitted_opened
  queued := fun o ho =>
    ⟨(h.queued o ho).opened_eq, (h.queued o ho).not_submitted, (h.queued o ho).status_eq⟩
  queue_nodup := h.queue_nodup

/-- Every step keeps the invariant as long as no terminal outcome is lost. -/
theorem intentInv_step {s : IntentState} (h : IntentInv s) {step : IntentStep}
    (hvalid : step.Valid s) (harrives : OutcomeArrives s step) : IntentInv (intentStep s step) := by
  cases step with
  | openOrder order ex =>
    cases hmode : s.manager.synchronousExecution with
    | true =>
      obtain ⟨hplace, hsave⟩ := harrives hmode
      exact intentInv_openOrder_sync h hvalid hmode hplace hsave
    | false => exact intentInv_openOrder_queued h hvalid hmode ex
  | worker ex => exact intentInv_worker h ex
  | update orders fault => exact intentInv_update h hvalid harrives
  | engineCancel uuid => exact intentInv_engineCancel h hvalid harrives
  | clearInFlight => exact intentInv_clearInFlight h

/-! ## §6 Intents are settled -/

theorem intentsSettled_of_inv {s : IntentState} (h : IntentInv s) : IntentsSettled s := by
  refine ⟨?_, ?_⟩
  · intro uuid hmem
    rw [Option.eq_none_iff_forall_not_mem]
    intro e he
    exact (h.inFlight uuid e he).2 hmem
  · intro sym action queryRaises hreported
    have hmatch : ∀ symbol side, OrderManager.intentMatches sym action symbol side = true →
        symbol = sym ∧ (action = none ∨ action = some side) := by
      intro symbol side hm
      simpa [OrderManager.intentMatches] using hm
    unfold OrderManager.hasOutstandingIntent at hreported
    rw [Bool.or_eq_true] at hreported
    -- found in flight, or by an open row
    rcases hreported with hinFlight | hrow
    · obtain ⟨⟨symbol, side⟩, hvalue, hm⟩ := List.any_eq_true.mp hinFlight
      obtain ⟨uuid, hget⟩ := (Dict.mem_values_iff _ _).mp hvalue
      obtain ⟨rfl, hside⟩ := hmatch symbol side hm
      obtain ⟨ho, ht⟩ := h.inFlight uuid _ hget
      exact ⟨uuid, side, ho, hside, ht⟩
    · rw [Bool.and_eq_true, List.any_eq_true] at hrow
      obtain ⟨-, row, hvalue, hm⟩ := hrow
      rw [Bool.and_eq_true] at hm
      obtain ⟨hsym, hside⟩ := hmatch _ _ hm.1
      obtain ⟨uuid, hget⟩ : ∃ uuid, s.manager.database.row? uuid = some row := by
        cases hdb : s.manager.database with
        | noop =>
          rw [hdb] at hvalue
          cases hvalue
        | sql rows trades =>
          rw [hdb] at hvalue
          exact (Dict.mem_values_iff _ _).mp (List.mem_filter.mp hvalue).1
      have ho := h.settled.opened_eq uuid row hget
      rw [hsym] at ho
      refine ⟨uuid, row.tradeAction, ho, hside, fun hmem => ?_⟩
      rw [h.settled.not_open uuid hmem row hget] at hm
      cases hm.2

/-- **Intents block exactly while an order is open.** In every run from a new order manager, in
    either mode and on either database, in which no terminal outcome is lost, each state reached has
    no order with a terminal outcome in flight and reports no intent without an order that is still
    open.

    The condition is on the steps: an outcome is lost where the write of an order raises after it
    was placed, or where its update does not reach the order. -/
theorem intentsSettled_of_outcomesArrive (database : Database) (sm : SessionManager) (sync : Bool)
    (steps : List IntentStep)
    (hvalid : Along intentStep (fun s step => step.Valid s)
      (IntentState.start database sm sync) steps)
    (harrives : Along intentStep OutcomeArrives (IntentState.start database sm sync) steps)
    (before after : List IntentStep) (hsplit : steps = before ++ after) :
    IntentsSettled (run intentStep (IntentState.start database sm sync) before) := by
  subst hsplit
  apply intentsSettled_of_inv
  have hboth : Along intentStep (fun s step => step.Valid s ∧ OutcomeArrives s step)
      (IntentState.start database sm sync) before :=
    along_and.mpr ⟨(along_append.mp hvalid).1, (along_append.mp harrives).1⟩
  exact run_invariant_along IntentInv
    (fun s step hinv hstep => intentInv_step hinv hstep.1 hstep.2)
    (intentInv_start database sm sync) hboth

/-- An order for two units at 10. -/
def buyOrder : Order := Order.new "u1" "BINANCE" "BTC_USD" 10 2 .buy 0

def executes : Execution := ⟨false, false, false⟩

def placeFails : Execution := ⟨true, false, false⟩

/-- A queued order that is executed and filled. -/
def filledOrderRun : List IntentStep :=
  [.openOrder buyOrder executes, .worker executes, .update [completedBuy] noFault]

theorem intentsSettled_filledOrder :
    "u1" ∈ (run intentStep (IntentState.start (.sql Dict.empty []) oneContextSession false)
        filledOrderRun).terminal ∧
      IntentsSettled (run intentStep
        (IntentState.start (.sql Dict.empty []) oneContextSession false) filledOrderRun) := by
  refine ⟨by decide +kernel, ?_⟩
  apply intentsSettled_of_outcomesArrive (.sql Dict.empty []) oneContextSession false
    filledOrderRun _ _ filledOrderRun [] (List.append_nil _).symm
  · refine ⟨rfl, trivial, ?_, trivial⟩
    intro order horder
    obtain rfl := List.mem_singleton.mp horder
    decide +kernel
  · refine ⟨nofun, trivial, .inr ⟨?_, .inr ⟨fun _ => rfl, by decide⟩⟩, trivial⟩
    intro order horder _ hopen
    obtain rfl := List.mem_singleton.mp horder
    cases hopen

/-- The backtest wiring: synchronous execution without a database. -/
def backtestStart : IntentState := IntentState.start .noop oneContextSession true

/-- The execution of the order raises. -/
def failedExecutionRun : List IntentStep := [.openOrder buyOrder placeFails]

/-- The engine cancels the order. -/
def engineCancelRun : List IntentStep := [.openOrder buyOrder executes, .engineCancel "u1"]

theorem not_intentsSettled_of_inFlight {s : IntentState} (uuid : String)
    (hmem : uuid ∈ s.terminal) (hget : s.manager.inFlightOrders.get? uuid ≠ none) :
    ¬ IntentsSettled s :=
  fun h => hget (h.1 uuid hmem)

/-- Outcomes that are lost: the error of a synchronous execution, and the cancellation of
    the backtest engine.  The order stays in flight and its intent is reported for ever. -/
theorem lost_outcome_stays_in_flight :
    (Along intentStep (fun s step => step.Valid s) backtestStart failedExecutionRun ∧
      (run intentStep backtestStart failedExecutionRun).manager.hasOutstandingIntent "BTC_USD"
        (some .buy) false = true ∧
      ¬ IntentsSettled (run intentStep backtestStart failedExecutionRun)) ∧
    (Along intentStep (fun s step => step.Valid s) backtestStart engineCancelRun ∧
      (run intentStep backtestStart engineCancelRun).manager.hasOutstandingIntent "BTC_USD"
        (some .buy) false = true ∧
      ¬ IntentsSettled (run intentStep backtestStart engineCancelRun)) := by
  refine ⟨⟨⟨rfl, trivial⟩, by decide +kernel, ?_⟩,
    ⟨⟨rfl, ⟨by decide +kernel, rfl⟩, trivial⟩, by decide +kernel, ?_⟩⟩
  · apply not_intentsSettled_of_inFlight "u1"
    · decide +kernel
    · decide +kernel
  · apply not_intentsSettled_of_inFlight "u1"
    · decide +kernel
    · decide +kernel

end CryptoTrading.Orders
