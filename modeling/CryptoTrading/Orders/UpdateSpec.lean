import CryptoTrading.Orders.OrderManager

/-!
# What the calls of the order manager do

One specification for each call that changes orders: the row an upsert leaves
(`row?_upsertOrder_cases`), one update (`processUpdate_spec`), the loop over updates, a
call of `_save_orders_to_database` (`saveOrdersToDatabase_cases`), and how an execution can
end (`executeOrder_end`).  The run arguments of the other modules use these and do not
unfold the calls again.
-/

namespace CryptoTrading.Orders

open CryptoTrading.Lib CryptoTrading.Session

/-! ## §1 Rows -/

/-- The stored row of an order. -/
def Database.row? : Database → String → Option Order
  | .noop, _ => none
  | .sql orders _, uuid => orders.get? uuid

/-- An upsert that does not raise writes one row. -/
theorem eq_of_upsertOrder_sql {rows : Dict String Order} {trades : List Trade} {db' : Database}
    {order : Order} (hwrite : (Database.sql rows trades).upsertOrder order = some db') :
    db' = .sql (rows.set order.uuid (Database.upsertedRow rows order)) trades := by
  unfold Database.upsertOrder at hwrite
  simp only at hwrite
  split at hwrite
  · cases hwrite
  · exact (Option.some.inj hwrite).symm

/-- What an upsert leaves: the row of the order is new or merged, the others are as they
    were. -/
theorem row?_upsertOrder_cases {db db' : Database} {order : Order}
    (hwrite : db.upsertOrder order = some db') {uuid : String} {row : Order}
    (hrow : db'.row? uuid = some row) :
    (uuid = order.uuid ∧
      (db.row? uuid = none ∧ row = { order with slippage := none } ∨
        ∃ old, db.row? uuid = some old ∧ row = Database.mergeRow old order)) ∨
      (uuid ≠ order.uuid ∧ db.row? uuid = some row) := by
  cases db with
  | noop =>
    obtain rfl := Option.some.inj hwrite
    cases hrow
  | sql rows trades =>
    obtain rfl := eq_of_upsertOrder_sql hwrite
    simp only [Database.row?, Dict.get?_set] at hrow ⊢
    split at hrow
    · rename_i heq
      subst heq
      obtain rfl := Option.some.inj hrow
      left
      refine ⟨rfl, ?_⟩
      unfold Database.upsertedRow
      cases hold : rows.get? order.uuid with
      | none => exact .inl ⟨rfl, rfl⟩
      | some old => exact .inr ⟨old, rfl, rfl⟩
    · rename_i hne
      exact .inr ⟨hne, hrow⟩

/-- A terminal row stays. -/
theorem row?_upsertOrder_of_terminal {db db' : Database} {order : Order}
    (hwrite : db.upsertOrder order = some db') {uuid : String} {row : Order}
    (hrow : db.row? uuid = some row) (hterminal : isTerminal row.status = true) :
    db'.row? uuid = some row := by
  cases db with
  | noop => cases hrow
  | sql rows trades =>
    obtain rfl := eq_of_upsertOrder_sql hwrite
    simp only [Database.row?, Dict.get?_set] at hrow ⊢
    split
    · rename_i heq
      subst heq
      unfold Database.upsertedRow
      rw [hrow]
      exact congrArg some (Database.mergeRow_of_terminal hterminal order)
    · exact hrow

/-- A terminal report leaves a terminal row. -/
theorem exists_row?_upsertOrder {rows : Dict String Order} {trades : List Trade} {db' : Database}
    {order : Order} (hwrite : (Database.sql rows trades).upsertOrder order = some db')
    (hstatus : isTerminal order.status = true) :
    ∃ row, db'.row? order.uuid = some row ∧ isTerminal row.status = true := by
  obtain rfl := eq_of_upsertOrder_sql hwrite
  refine ⟨Database.upsertedRow rows order, Dict.get?_set_self rows order.uuid _, ?_⟩
  unfold Database.upsertedRow
  cases hold : rows.get? order.uuid with
  | none => exact hstatus
  | some old =>
    simp only
    by_cases hterminal : isTerminal old.status = true
    · rw [Database.mergeRow_of_terminal hterminal]
      exact hterminal
    · rw [(Database.mergeRow_of_not_terminal hterminal order).2.2]
      exact hstatus

theorem row?_upsertOrder_self {db db' : Database} {order old : Order}
    (hwrite : db.upsertOrder order = some db') (hold : db.row? order.uuid = some old) :
    db'.row? order.uuid = some (Database.mergeRow old order) := by
  cases db with
  | noop => cases hold
  | sql rows trades =>
    obtain rfl := eq_of_upsertOrder_sql hwrite
    have hrow : rows.get? order.uuid = some old := hold
    show (rows.set order.uuid (Database.upsertedRow rows order)).get? order.uuid = _
    rw [Dict.get?_set_self]
    unfold Database.upsertedRow
    rw [hrow]

theorem row?_upsertOrder_of_ne {db db' : Database} {order : Order}
    (hwrite : db.upsertOrder order = some db') {uuid : String} (hne : uuid ≠ order.uuid) :
    db'.row? uuid = db.row? uuid := by
  cases db with
  | noop =>
    obtain rfl := Option.some.inj hwrite
    rfl
  | sql rows trades =>
    obtain rfl := eq_of_upsertOrder_sql hwrite
    exact Dict.get?_set_of_ne rows _ hne

@[simp] theorem row?_insertTrades (db : Database) (trades : List Trade) (uuid : String) :
    (db.insertTrades trades).row? uuid = db.row? uuid := by
  cases db <;> rfl

theorem raises_insertTrades (db : Database) (trades : List Trade) (fault : DbFault) (op : DbOp) :
    (db.insertTrades trades).raises fault op = db.raises fault op := by
  cases db <;> rfl

theorem isOpenStatus_of_isTerminal {status : Option OrderStatus} (h : isTerminal status = true) :
    isOpenStatus status = false := by
  cases status with
  | none => rfl
  | some st => cases st <;> first | rfl | cases h

/-! ## §2 What an update call does -/

/-- An order as it is handed in and as it is written. -/
structure SameReport (order written : Order) : Prop where
  uuid_eq : written.uuid = order.uuid
  tickerSymbol_eq : written.tickerSymbol = order.tickerSymbol
  tradeAction_eq : written.tradeAction = order.tradeAction
  status_eq : written.status = order.status

theorem sameReport_fillCommitHash (sm : SessionManager) (order : Order) :
    SameReport order (sm.fillCommitHash order) := by
  unfold SessionManager.fillCommitHash
  split <;> exact ⟨rfl, rfl, rfl, rfl⟩

theorem sameReport_recordOrderFill (sm : SessionManager) (order : Order) :
    SameReport order (sm.recordOrderFill order).order := by
  unfold SessionManager.recordOrderFill
  split <;> exact ⟨rfl, rfl, rfl, rfl⟩

theorem SameReport.trans {a b c : Order} (h₁ : SameReport a b) (h₂ : SameReport b c) :
    SameReport a c :=
  ⟨h₂.uuid_eq.trans h₁.uuid_eq, h₂.tickerSymbol_eq.trans h₁.tickerSymbol_eq,
    h₂.tradeAction_eq.trans h₁.tradeAction_eq, h₂.status_eq.trans h₁.status_eq⟩

/-- The parts of the order manager that an update leaves alone. -/
structure UpdateFrame (m m' : OrderManager) : Prop where
  database_eq : m'.database = m.database
  orderQueue_eq : m'.orderQueue = m.orderQueue
  synchronous_eq : m'.synchronousExecution = m.synchronousExecution

theorem UpdateFrame.trans {a b c : OrderManager} (h₁ : UpdateFrame a b) (h₂ : UpdateFrame b c) :
    UpdateFrame a c :=
  ⟨h₂.database_eq.trans h₁.database_eq, h₂.orderQueue_eq.trans h₁.orderQueue_eq,
    h₂.synchronous_eq.trans h₁.synchronous_eq⟩

theorem updateFrame_popInFlight (m : OrderManager) (order : Order) :
    UpdateFrame m (m.popInFlight order) := by
  unfold OrderManager.popInFlight
  split <;> exact ⟨rfl, rfl, rfl⟩

theorem get?_popInFlight (m : OrderManager) (order : Order) (uuid : String) :
    (m.popInFlight order).inFlightOrders.get? uuid =
      if isOpenStatus order.status = false ∧ uuid = order.uuid then none
      else m.inFlightOrders.get? uuid := by
  unfold OrderManager.popInFlight
  cases isOpenStatus order.status with
  | true => simp
  | false => simp [Dict.get?_erase]

@[simp] theorem writeRow_fst (m : OrderManager) (fault : DbFault) (i : ℕ) (uow : Database)
    (order : Order) : (m.writeRow fault i uow order).1 = m := by
  unfold OrderManager.writeRow
  split <;> rfl

/-- What one update does: it pops the order if it is not open, and writes its row unless a
    statement raises. -/
structure UpdateSpec (m : OrderManager) (fault : DbFault) (uow : Database) (order : Order)
    (res : OrderManager × Option Database) : Prop where
  frame : UpdateFrame m res.1
  inFlight_eq : ∀ uuid, res.1.inFlightOrders.get? uuid =
    if isOpenStatus order.status = false ∧ uuid = order.uuid then none
    else m.inFlightOrders.get? uuid
  written : res.2 = none ∧ (∃ op, uow.raises fault op = true) ∨
    ∃ written trades, SameReport order written ∧
      res.2 = (uow.insertTrades trades).upsertOrder written

theorem insertTrades_nil (db : Database) : db.insertTrades [] = db := by
  cases db with
  | noop => rfl
  | sql rows trades =>
    simp only [Database.insertTrades, List.append_nil]

/-- Whatever trades are written before, the row of the order is the last statement. -/
theorem updateSpec_writeRow {m m' : OrderManager} {order written : Order}
    (hframe : UpdateFrame m m')
    (hpop : ∀ uuid, m'.inFlightOrders.get? uuid =
      if isOpenStatus order.status = false ∧ uuid = order.uuid then none
      else m.inFlightOrders.get? uuid)
    (hsame : SameReport order written) (fault : DbFault) (i : ℕ) (uow : Database)
    (trades : List Trade) :
    UpdateSpec m fault uow order (m'.writeRow fault i (uow.insertTrades trades) written) where
  frame := by
    rw [writeRow_fst]
    exact hframe
  inFlight_eq := by
    rw [writeRow_fst]
    exact hpop
  written := by
    unfold OrderManager.writeRow
    rw [raises_insertTrades]
    split
    · rename_i hraises
      exact .inl ⟨rfl, _, hraises⟩
    · exact .inr ⟨written, trades, hsame, rfl⟩

theorem processUpdate_spec (m : OrderManager) (fault : DbFault) (i : ℕ) (uow : Database)
    (order : Order) : UpdateSpec m fault uow order (m.processUpdate fault i uow order) := by
  have hsame := sameReport_fillCommitHash m.sessionManager order
  have hframe := updateFrame_popInFlight m (m.sessionManager.fillCommitHash order)
  have hpop : ∀ uuid, (m.popInFlight (m.sessionManager.fillCommitHash order)).inFlightOrders.get?
      uuid = if isOpenStatus order.status = false ∧ uuid = order.uuid then none
        else m.inFlightOrders.get? uuid := by
    intro uuid
    rw [get?_popInFlight, hsame.status_eq, hsame.uuid_eq]
  have hplain := insertTrades_nil uow
  unfold OrderManager.processUpdate
  simp only
  generalize m.sessionManager.fillCommitHash order = order' at *
  generalize m.popInFlight order' = m' at *
  split
  -- a fill: the trades are written before the row
  · have hrecorded := hsame.trans (sameReport_recordOrderFill m'.sessionManager order')
    generalize m'.sessionManager.recordOrderFill order' = recorded at *
    split
    · rename_i hraises
      obtain ⟨j, -, hj⟩ := List.any_eq_true.mp hraises
      exact ⟨⟨hframe.1, hframe.2, hframe.3⟩, hpop, .inl ⟨rfl, _, hj⟩⟩
    · apply updateSpec_writeRow
      · exact ⟨hframe.1, hframe.2, hframe.3⟩
      · exact hpop
      · exact hrecorded
  · have hframe' : UpdateFrame m (m'.publish [.orderCancelled order'.tickerSymbol order']) :=
      ⟨hframe.1, hframe.2, hframe.3⟩
    have hspec := updateSpec_writeRow hframe' hpop hsame fault i uow []
    rw [hplain] at hspec
    exact hspec
  · have hspec := updateSpec_writeRow hframe hpop hsame fault i uow []
    rw [hplain] at hspec
    exact hspec

/-- What holds of an update holds of the loop: it keeps the frame and takes entries out of
    the in-flight orders only. -/
theorem saveLoop_frame (fault : DbFault) (i : ℕ) (m : OrderManager) (uow : Database)
    (orders : List Order) :
    UpdateFrame m (OrderManager.saveLoop fault i m uow orders).1 ∧
      ∀ uuid e, (OrderManager.saveLoop fault i m uow orders).1.inFlightOrders.get? uuid = some e →
        m.inFlightOrders.get? uuid = some e := by
  induction orders generalizing i m uow with
  | nil => exact ⟨⟨rfl, rfl, rfl⟩, fun _ _ h => h⟩
  -- induction on the updates; the first one that raises ends the loop
  | cons order rest ih =>
    have hspec := processUpdate_spec m fault i uow order
    have hstep : ∀ uuid e,
        (m.processUpdate fault i uow order).1.inFlightOrders.get? uuid = some e →
          m.inFlightOrders.get? uuid = some e := by
      intro uuid e hget
      rw [hspec.inFlight_eq] at hget
      split at hget
      · cases hget
      · exact hget
    simp only [OrderManager.saveLoop]
    rcases hres : m.processUpdate fault i uow order with ⟨m', committed⟩
    rw [hres] at hspec hstep
    cases committed with
    | none => exact ⟨hspec.frame, hstep⟩
    | some uow' =>
      obtain ⟨hframe, hsub⟩ := ih (i + 1) m' uow'
      exact ⟨hspec.frame.trans hframe, fun uuid e hget => hstep uuid e (hsub uuid e hget)⟩

/-- An order that is reported only in open statuses stays in flight. -/
theorem saveLoop_inFlight_of_open {fault : DbFault} {i : ℕ} {m : OrderManager} {uow : Database}
    {orders : List Order} {uuid : String} {e : String × TradeAction}
    (hget : m.inFlightOrders.get? uuid = some e)
    (hopen : ∀ order ∈ orders, order.uuid = uuid → isOpenStatus order.status = true) :
    (OrderManager.saveLoop fault i m uow orders).1.inFlightOrders.get? uuid = some e := by
  induction orders generalizing i m uow with
  | nil => exact hget
  | cons head rest ih =>
    have hspec := processUpdate_spec m fault i uow head
    have hhead : (m.processUpdate fault i uow head).1.inFlightOrders.get? uuid = some e := by
      rw [hspec.inFlight_eq, if_neg, hget]
      rintro ⟨hclosed, rfl⟩
      rw [hopen head List.mem_cons_self rfl] at hclosed
      cases hclosed
    simp only [OrderManager.saveLoop]
    match hres : m.processUpdate fault i uow head with
    | (m', none) =>
      rw [hres] at hhead
      exact hhead
    | (m', some uow') =>
      rw [hres] at hhead
      exact ih hhead fun order horder => hopen order (List.mem_cons_of_mem head horder)

/-- A loop that ends has written a row for each update in turn. -/
theorem saveLoop_cons_some {fault : DbFault} {i : ℕ} {m : OrderManager} {uow uow' : Database}
    {order : Order} {rest : List Order}
    (h : (OrderManager.saveLoop fault i m uow (order :: rest)).2 = some uow') :
    ∃ m₁ uow₁, m.processUpdate fault i uow order = (m₁, some uow₁) ∧
      OrderManager.saveLoop fault i m uow (order :: rest) =
        OrderManager.saveLoop fault (i + 1) m₁ uow₁ rest := by
  simp only [OrderManager.saveLoop] at h ⊢
  match hres : m.processUpdate fault i uow order with
  | (m₁, none) =>
    rw [hres] at h
    cases h
  | (m₁, some uow₁) => exact ⟨m₁, uow₁, rfl, rfl⟩

/-- The row that was written, when the update does not raise. -/
theorem UpdateSpec.exists_upsert {m : OrderManager} {fault : DbFault} {uow uow' : Database}
    {order : Order} {m' : OrderManager} (h : UpdateSpec m fault uow order (m', some uow')) :
    ∃ written trades, SameReport order written ∧
      (uow.insertTrades trades).upsertOrder written = some uow' := by
  rcases h.written with ⟨habsurd, -⟩ | ⟨written, trades, hsame, hwrite⟩
  · cases habsurd
  · exact ⟨written, trades, hsame, hwrite.symm⟩

/-- A loop that ends has popped every order that is not open. -/
theorem saveLoop_pops {fault : DbFault} {i : ℕ} {m : OrderManager} {uow uow' : Database}
    {orders : List Order} (h : (OrderManager.saveLoop fault i m uow orders).2 = some uow')
    {order : Order} (hmem : order ∈ orders) (hstatus : isOpenStatus order.status = false) :
    (OrderManager.saveLoop fault i m uow orders).1.inFlightOrders.get? order.uuid = none := by
  induction orders generalizing i m uow with
  | nil => cases hmem
  | cons head rest ih =>
    obtain ⟨m₁, uow₁, hres, htail⟩ := saveLoop_cons_some h
    rw [htail] at h ⊢
    rcases List.mem_cons.mp hmem with rfl | hmem
    · have hspec := processUpdate_spec m fault i uow order
      rw [hres] at hspec
      have hpopped : m₁.inFlightOrders.get? order.uuid = none := by
        rw [hspec.inFlight_eq, if_pos ⟨hstatus, rfl⟩]
      -- nothing enters the in-flight orders again
      rw [Option.eq_none_iff_forall_not_mem]
      intro e he
      have := (saveLoop_frame fault (i + 1) m₁ uow₁ rest).2 order.uuid e he
      rw [hpopped] at this
      cases this
    · exact ih h hmem

theorem saveLoop_row?_of_notMem {fault : DbFault} {i : ℕ} {m : OrderManager}
    {uow uow' : Database} {orders : List Order}
    (h : (OrderManager.saveLoop fault i m uow orders).2 = some uow') {uuid : String}
    (hmem : ∀ order ∈ orders, order.uuid ≠ uuid) : uow'.row? uuid = uow.row? uuid := by
  induction orders generalizing i m uow with
  | nil =>
    obtain rfl := Option.some.inj h
    rfl
  | cons head rest ih =>
    obtain ⟨m₁, uow₁, hres, htail⟩ := saveLoop_cons_some h
    rw [htail] at h
    have hspec := processUpdate_spec m fault i uow head
    rw [hres] at hspec
    obtain ⟨written, trades, hsame, hwrite⟩ := hspec.exists_upsert
    have hne : uuid ≠ written.uuid := by
      rw [hsame.uuid_eq]
      exact (hmem head List.mem_cons_self).symm
    rw [ih h fun order horder => hmem order (List.mem_cons_of_mem head horder),
      row?_upsertOrder_of_ne hwrite hne, row?_insertTrades]

/-- A database that works: it stores nothing, or no statement raises and every order can be
    mapped to a row. -/
def Works (db : Database) (fault : DbFault) (orders : List Order) : Prop :=
  db = .noop ∨ ((∀ op, fault op = false) ∧ ∀ order ∈ orders, order.status.isSome)

theorem Works.raises_eq {db : Database} {fault : DbFault} {orders : List Order}
    (h : Works db fault orders) (op : DbOp) : db.raises fault op = false := by
  rcases h with rfl | ⟨hfault, -⟩
  · rfl
  · cases db with
    | noop => rfl
    | sql rows trades => exact hfault op

theorem saveLoop_of_works {fault : DbFault} {i : ℕ} {m : OrderManager} {uow : Database}
    {orders : List Order} (h : Works uow fault orders) :
    ∃ uow', (OrderManager.saveLoop fault i m uow orders).2 = some uow' := by
  induction orders generalizing i m uow with
  | nil => exact ⟨uow, rfl⟩
  | cons head rest ih =>
    have hspec := processUpdate_spec m fault i uow head
    rcases hspec.written with ⟨-, op, hraises⟩ | ⟨written, trades, hsame, hwrite⟩
    · rw [h.raises_eq op] at hraises
      cases hraises
    -- the row can be written, and the database still works for the rest
    · have hnext : ∃ uow₁, (uow.insertTrades trades).upsertOrder written = some uow₁ ∧
          Works uow₁ fault rest := by
        rcases h with rfl | ⟨hfault, hstatus⟩
        · exact ⟨.noop, rfl, .inl rfl⟩
        · cases uow with
          | noop => exact ⟨.noop, rfl, .inl rfl⟩
          | sql rows stored =>
            have hsome : written.status.isNone = false := by
              rw [hsame.status_eq, Option.isNone_eq_false_iff]
              exact hstatus head List.mem_cons_self
            refine ⟨.sql (rows.set written.uuid (Database.upsertedRow rows written))
              (stored ++ trades), ?_, ?_⟩
            · simp [Database.insertTrades, Database.upsertOrder, hsome]
            · exact .inr ⟨hfault, fun o ho => hstatus o (List.mem_cons_of_mem head ho)⟩
      obtain ⟨uow₁, hwrite₁, hworks⟩ := hnext
      rw [hwrite₁] at hwrite
      simp only [OrderManager.saveLoop]
      match hres : m.processUpdate fault i uow head with
      | (m₁, none) =>
        rw [hres] at hwrite
        cases hwrite
      | (m₁, some uow₂) =>
        rw [hres] at hwrite
        obtain rfl := Option.some.inj hwrite
        exact ih hworks

/-- What a call does to the order manager. -/
theorem saveOrdersToDatabase_cases (m : OrderManager) (orders : List Order) (fault : DbFault) :
    ((m.saveOrdersToDatabase orders fault).1.orderQueue = m.orderQueue ∧
      (m.saveOrdersToDatabase orders fault).1.synchronousExecution = m.synchronousExecution ∧
      ∀ uuid e, (m.saveOrdersToDatabase orders fault).1.inFlightOrders.get? uuid = some e →
        m.inFlightOrders.get? uuid = some e) ∧
    ((m.saveOrdersToDatabase orders fault).1.database = m.database ∧
        ¬ Works m.database fault orders ∨
      ∃ uow', (OrderManager.saveLoop fault 0 m m.database orders).2 = some uow' ∧
        (m.saveOrdersToDatabase orders fault).1 =
          { (OrderManager.saveLoop fault 0 m m.database orders).1 with database := uow' }) := by
  obtain ⟨hframe, hsub⟩ := saveLoop_frame fault 0 m m.database orders
  unfold OrderManager.saveOrdersToDatabase
  split
  · rename_i hraises
    -- no unit of work was opened
    refine ⟨⟨rfl, rfl, fun _ _ h => h⟩, .inl ⟨rfl, fun hworks => ?_⟩⟩
    rw [hworks.raises_eq] at hraises
    cases hraises
  · match hres : OrderManager.saveLoop fault 0 m m.database orders with
    | (m', none) =>
      rw [hres] at hframe hsub
      refine ⟨⟨hframe.orderQueue_eq, hframe.synchronous_eq, hsub⟩,
        .inl ⟨hframe.database_eq, fun hworks => ?_⟩⟩
      -- a statement of the loop raised, which it does not when the database works
      obtain ⟨uow', habsurd⟩ := saveLoop_of_works (i := 0) (m := m) hworks
      rw [hres] at habsurd
      cases habsurd
    | (m', some uow') =>
      rw [hres] at hframe hsub
      simp only
      split
      · rename_i hraises
        refine ⟨⟨hframe.orderQueue_eq, hframe.synchronous_eq, hsub⟩,
          .inl ⟨hframe.database_eq, fun hworks => ?_⟩⟩
        rw [hworks.raises_eq] at hraises
        cases hraises
      · exact ⟨⟨hframe.orderQueue_eq, hframe.synchronous_eq, hsub⟩, .inr ⟨uow', rfl, rfl⟩⟩

theorem saveOrdersToDatabase_inFlight_of_open {m : OrderManager} {orders : List Order}
    {uuid : String} {e : String × TradeAction} (hget : m.inFlightOrders.get? uuid = some e)
    (fault : DbFault)
    (hopen : ∀ order ∈ orders, order.uuid = uuid → isOpenStatus order.status = true) :
    (m.saveOrdersToDatabase orders fault).1.inFlightOrders.get? uuid = some e := by
  have hloop : (OrderManager.saveLoop fault 0 m m.database orders).1.inFlightOrders.get? uuid =
      some e := saveLoop_inFlight_of_open hget hopen
  unfold OrderManager.saveOrdersToDatabase
  split
  · exact hget
  · match hres : OrderManager.saveLoop fault 0 m m.database orders with
    | (m', none) =>
      rw [hres] at hloop
      exact hloop
    | (m', some uow') =>
      rw [hres] at hloop
      simp only
      split <;> exact hloop

/-! ## §3 What an execution does -/

/-- Saving an order writes its row or raises; the database that stores nothing does not. -/
theorem saveOrder_cases (m : OrderManager) (order : Order) (raises : Bool) :
    (m.saveOrder order raises = (m, true) ∧ m.database ≠ .noop ∧
        (raises = true ∨ order.status = none)) ∨
      ∃ db', m.database.upsertOrder order = some db' ∧
        m.saveOrder order raises = ({ m with database := db' }, false) := by
  unfold OrderManager.saveOrder
  cases hdb : m.database with
  | noop => exact .inr ⟨.noop, rfl, rfl⟩
  | sql rows trades =>
    cases raises with
    | true => exact .inl ⟨rfl, nofun, .inl rfl⟩
    | false =>
      cases hwrite : (Database.sql rows trades).upsertOrder order with
      | some db' => exact .inr ⟨db', rfl, rfl⟩
      | none =>
        refine .inl ⟨rfl, nofun, .inr ?_⟩
        unfold Database.upsertOrder at hwrite
        simp only at hwrite
        split at hwrite
        · rename_i hnone
          exact Option.isNone_iff_eq_none.mp hnone
        · cases hwrite

/-- How an execution can end: with the order saved, or with an error and the order saved as
    rejected or not at all. -/
inductive ExecutionEnd (m : OrderManager) (order : Order) (ex : Execution) :
    OrderManager × Bool → Prop
  | accepted (db' : Database) (written : Order) (hsame : SameReport order written)
      (hwrite : m.database.upsertOrder written = some db') :
      ExecutionEnd m order ex ({ m with database := db' }, false)
  | refused (written : Order) (db' : Database)
      (hcause : ex.placeRaises = true ∨ (m.database ≠ .noop ∧ ex.saveRaises = true))
      (hsame : SameReport { order with status := some .rejected } written)
      (hwrite : m.database.upsertOrder written = some db') :
      ExecutionEnd m order ex ({ m with database := db' }, true)
  | lost (hcause : ex.placeRaises = true ∨ (m.database ≠ .noop ∧ ex.saveRaises = true)) :
      ExecutionEnd m order ex (m, true)

theorem executeOrder_end (m : OrderManager) (order : Order) (hstatus : order.status = some .pending)
    (ex : Execution) : ExecutionEnd m order ex (m.executeOrder order ex) := by
  have hsame := sameReport_fillCommitHash m.sessionManager order
  have hrejected : SameReport { order with status := some .rejected }
      { m.sessionManager.fillCommitHash order with status := some .rejected } :=
    ⟨hsame.uuid_eq, hsame.tickerSymbol_eq, hsame.tradeAction_eq, rfl⟩
  unfold OrderManager.executeOrder
  simp only
  generalize m.sessionManager.fillCommitHash order = order' at *
  -- both errors end in the same handler
  have hreject : (ex.placeRaises = true ∨ (m.database ≠ .noop ∧ ex.saveRaises = true)) →
      ExecutionEnd m order ex
        ((m.saveOrder { order' with status := some .rejected } ex.rejectSaveRaises).1, true) := by
    intro hcause
    rcases saveOrder_cases m { order' with status := some .rejected } ex.rejectSaveRaises with
      ⟨hsave, -⟩ | ⟨db', hwrite, hsave⟩
    · rw [hsave]
      exact .lost hcause
    · rw [hsave]
      exact .refused _ db' hcause hrejected hwrite
  split
  · rename_i hplace
    exact hreject (.inl hplace)
  · rcases saveOrder_cases m order' ex.saveRaises with ⟨hsave, hdb, hcause⟩ | ⟨db', hwrite, hsave⟩
    · rw [hsave]
      apply hreject
      rcases hcause with hraises | hnone
      · exact .inr ⟨hdb, hraises⟩
      · rw [hsame.status_eq, hstatus] at hnone
        cases hnone
    · rw [hsave]
      exact .accepted db' order' hsame hwrite

theorem openOrder_end (m : OrderManager) (order : Order) (hmode : m.synchronousExecution = true)
    (ex : Execution) :
    ExecutionEnd
      { m with
        inFlightOrders :=
          m.inFlightOrders.set order.uuid (order.tickerSymbol, order.tradeAction) }
      (m.openedOrder order) ex (m.openOrder order ex) := by
  have hend := executeOrder_end
    { m with
      inFlightOrders :=
        m.inFlightOrders.set order.uuid (order.tickerSymbol, order.tradeAction) }
    (m.openedOrder order) rfl ex
  unfold OrderManager.openOrder
  simp only [hmode, if_true] at hend ⊢
  exact hend

/-- In both modes an opening enters the order into the in-flight orders and leaves the rows of
    the others alone. -/
theorem openOrder_frame (m : OrderManager) (order : Order) (ex : Execution) :
    (m.openOrder order ex).1.inFlightOrders =
        m.inFlightOrders.set order.uuid (order.tickerSymbol, order.tradeAction) ∧
      (∀ uuid, uuid ≠ order.uuid →
        (m.openOrder order ex).1.database.row? uuid = m.database.row? uuid) ∧
      ∀ o ∈ (m.openOrder order ex).1.orderQueue, o ∈ m.orderQueue ∨ o = m.openedOrder order := by
  -- a synchronous opening executes and writes, a queued one only queues
  cases hmode : m.synchronousExecution with
  | true =>
    have hend := openOrder_end m order hmode ex
    generalize m.openOrder order ex = res at hend
    cases hend with
    | accepted db' written hsame hwrite =>
      refine ⟨rfl, fun uuid hne => ?_, fun o ho => .inl ho⟩
      apply row?_upsertOrder_of_ne hwrite
      rw [hsame.uuid_eq]
      exact hne
    | refused written db' hcause hsame hwrite =>
      refine ⟨rfl, fun uuid hne => ?_, fun o ho => .inl ho⟩
      apply row?_upsertOrder_of_ne hwrite
      rw [hsame.uuid_eq]
      exact hne
    | lost hcause => exact ⟨rfl, fun _ _ => rfl, fun o ho => .inl ho⟩
  | false =>
    unfold OrderManager.openOrder
    simp only [hmode]
    refine ⟨rfl, fun _ _ => rfl, fun o ho => ?_⟩
    rcases List.mem_append.mp ho with hold | hnew
    · exact .inl hold
    · exact .inr (List.mem_singleton.mp hnew)

/-- An opening does not touch the session. -/
theorem openOrder_sessionManager (m : OrderManager) (order : Order) (ex : Execution) :
    (m.openOrder order ex).1.sessionManager = m.sessionManager := by
  cases hmode : m.synchronousExecution with
  | true =>
    have hend := openOrder_end m order hmode ex
    generalize m.openOrder order ex = res at hend
    cases hend <;> rfl
  | false =>
    unfold OrderManager.openOrder
    simp only [hmode]
    rfl

end CryptoTrading.Orders
