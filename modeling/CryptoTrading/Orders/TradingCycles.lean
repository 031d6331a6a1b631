import CryptoTrading.Orders.Intents

/-!
# Concurrent trading cycles

`TradingEngine._run_trading_cycle` hands `create_buy_order` and `create_sell_order` to a
thread pool.  Of such a cycle two steps touch the order manager: the question
`has_outstanding_intent`, and, when the answer is no and sizing, risk and health checks
pass, `open_order`.  In between, other cycles, the queue worker and order updates may run.

The state remembers, for each cycle that has passed its question, which orders of its
symbol and side were opened since (`Cycle.openedSince`).  `CycleInv` says that these are
the only ones that can still be outstanding, and that the order manager can see every
outstanding order; the first is lost by a race between two cycles, the second by a report
in a status that is neither open nor terminal, or by a query that raises (`NoRace`).
-/

namespace CryptoTrading.Orders

open CryptoTrading.Lib CryptoTrading.Session

/-! ## §1 Cycles and their steps -/

/-- A cycle between its question and its opening. -/
structure Cycle where
  tickerSymbol : String
  tradeAction : TradeAction
  /-- The orders of this symbol and side that were opened since the question. -/
  openedSince : List String
  deriving DecidableEq

structure CycleState where
  manager : OrderManager
  /-- Symbol and side of every order that was opened, in this run or before. -/
  opened : Dict String (String × TradeAction)
  /-- The orders that have reached a terminal status. -/
  terminal : List String
  /-- The cycles that have passed their question. -/
  cycles : Dict ℕ Cycle

/-- A new order manager on a database with the orders of earlier runs. -/
def CycleState.start (database : Database) (sm : SessionManager) (sync : Bool) : CycleState where
  manager := OrderManager.new database sm sync
  opened := (IntentState.start database sm sync).opened
  terminal := (IntentState.start database sm sync).terminal
  cycles := Dict.empty

inductive CycleStep where
  | check (cycle : ℕ) (tickerSymbol : String) (tradeAction : TradeAction) (queryRaises : Bool)
  | openOrder (cycle : ℕ) (order : Order) (ex : Execution)
  | giveUp (cycle : ℕ)
  | worker (ex : Execution)
  | update (orders : List Order) (fault : DbFault)

/-- The cycle learns of an order of its symbol and side. -/
def Cycle.note (cycle : Cycle) (order : Order) : Cycle :=
  if cycle.tickerSymbol = order.tickerSymbol ∧ cycle.tradeAction = order.tradeAction then
    { cycle with openedSince := order.uuid :: cycle.openedSince }
  else cycle

/-- A step of a cycle, of the queue worker or of an order update.  A cycle that has not passed its
    question, or asked for another symbol or side, opens nothing. -/
def cycleStep (s : CycleState) : CycleStep → CycleState
  | .check cycle sym side queryRaises =>
    if s.manager.hasOutstandingIntent sym (some side) queryRaises then
      { s with cycles := s.cycles.erase cycle }
    else { s with cycles := s.cycles.set cycle ⟨sym, side, []⟩ }
  | .openOrder cycle order ex =>
    match s.cycles.get? cycle with
    | none => s
    | some c =>
      if c.tickerSymbol = order.tickerSymbol ∧ c.tradeAction = order.tradeAction then
        let (manager, raised) := s.manager.openOrder order ex
        { manager := manager
          opened := s.opened.set order.uuid (order.tickerSymbol, order.tradeAction)
          terminal := if raised then order.uuid :: s.terminal else s.terminal
          -- every other cycle of the symbol and side has been overtaken by this order
          cycles := (s.cycles.erase cycle).mapValues fun c => c.note order }
      else s
  | .giveUp cycle => { s with cycles := s.cycles.erase cycle }
  | .worker ex =>
    match s.manager.orderQueue with
    | [] => s
    | order :: rest =>
      let raised := (OrderManager.executeOrder { s.manager with orderQueue := rest } order ex).2
      { s with
        manager := s.manager.processOrderQueue ex
        terminal := if raised then order.uuid :: s.terminal else s.terminal }
  | .update orders fault =>
    { s with
      manager := (s.manager.saveOrdersToDatabase orders fault).1
      terminal := terminalIds orders ++ s.terminal }

/-- What the surroundings guarantee: order ids are new, and an order is always reported
    under its symbol and side. -/
def CycleStep.Valid (s : CycleState) : CycleStep → Prop
  | .openOrder _ order _ => s.opened.get? order.uuid = none
  | .update orders _ => ∀ order ∈ orders, s.opened.get? order.uuid = none ∨
      s.opened.get? order.uuid = some (order.tickerSymbol, order.tradeAction)
  | _ => True

instance CycleStep.decidableValid (s : CycleState) : (step : CycleStep) → Decidable (step.Valid s)
  | .check _ _ _ _ => isTrue trivial
  | .openOrder _ order _ => inferInstanceAs (Decidable (s.opened.get? order.uuid = none))
  | .giveUp _ => isTrue trivial
  | .worker _ => isTrue trivial
  | .update orders _ => inferInstanceAs (Decidable (∀ order ∈ orders,
      s.opened.get? order.uuid = none ∨
        s.opened.get? order.uuid = some (order.tickerSymbol, order.tradeAction)))

/-- An order that was opened and has not reached a terminal status. -/
def Outstanding (s : CycleState) (uuid sym : String) (side : TradeAction) : Prop :=
  s.opened.get? uuid = some (sym, side) ∧ uuid ∉ s.terminal

/-- At most one outstanding order for each symbol and side. -/
def OneOutstanding (s : CycleState) : Prop :=
  ∀ u v sym side, Outstanding s u sym side → Outstanding s v sym side → u = v

/-- The condition under which no step lets a second order through.  A cycle is not overtaken:
    what was opened for its symbol and side since its question is terminal.  An outstanding
    order is reported in an open or a terminal status.  A query that raises hides no order:
    the open rows of the symbol and side are in flight too. -/
def NoRace (s : CycleState) : CycleStep → Prop
  | .check _ sym side queryRaises => queryRaises = true →
      ∀ uuid row, s.manager.database.row? uuid = some row → isOpenStatus row.status = true →
        row.tickerSymbol = sym → row.tradeAction = side →
        s.manager.inFlightOrders.get? uuid = some (sym, side)
  | .openOrder cycle _ _ =>
      ∀ c, s.cycles.get? cycle = some c → ∀ uuid ∈ c.openedSince, uuid ∈ s.terminal
  | .giveUp _ => True
  | .worker _ => True
  | .update orders _ => ∀ order ∈ orders, (s.opened.get? order.uuid).isSome →
      order.uuid ∉ s.terminal → isOpenStatus order.status = true ∨ isTerminal order.status = true

/-! ## §2 What the order manager can see -/

/-- The order has an open row under its symbol and side. -/
def OpenRow (db : Database) (uuid sym : String) (side : TradeAction) : Prop :=
  ∃ row, db.row? uuid = some row ∧ row.tickerSymbol = sym ∧ row.tradeAction = side ∧
    isOpenStatus row.status = true

/-- An order that `has_outstanding_intent` finds: in flight, or by its open row. -/
def Tracked (m : OrderManager) (uuid sym : String) (side : TradeAction) : Prop :=
  m.inFlightOrders.get? uuid = some (sym, side) ∨ OpenRow m.database uuid sym side

/-- An outstanding order can be found, in flight or by its open row, and there is one at most for a
    symbol and side.

    A cycle that has passed its question knows of every order of its symbol and side that is
    outstanding; not to be overtaken is to know of none. -/
structure CycleInv (s : CycleState) : Prop where
  tracked : ∀ uuid sym side, Outstanding s uuid sym side → Tracked s.manager uuid sym side
  one : OneOutstanding s
  since : ∀ cycle c, s.cycles.get? cycle = some c →
    ∀ uuid, Outstanding s uuid c.tickerSymbol c.tradeAction → uuid ∈ c.openedSince
  queued : ∀ order ∈ s.manager.orderQueue, order.status = some .pending ∧
    s.opened.get? order.uuid = some (order.tickerSymbol, order.tradeAction)

/-- The answer no: no tracked order of the symbol and side, unless the query raised. -/
theorem not_tracked_of_check {m : OrderManager} {sym : String} {side : TradeAction}
    {queryRaises : Bool} (hcheck : m.hasOutstandingIntent sym (some side) queryRaises = false)
    (hquery : queryRaises = true → ∀ uuid row, m.database.row? uuid = some row →
      isOpenStatus row.status = true → row.tickerSymbol = sym → row.tradeAction = side →
      m.inFlightOrders.get? uuid = some (sym, side))
    (uuid : String) : ¬ Tracked m uuid sym side := by
  unfold OrderManager.hasOutstandingIntent at hcheck
  rw [Bool.or_eq_false_iff] at hcheck
  obtain ⟨hflight, hrows⟩ := hcheck
  have hnotInFlight : ∀ u, m.inFlightOrders.get? u ≠ some (sym, side) := by
    intro u hget
    have hvalue := (Dict.mem_values_iff _ _).mpr ⟨u, hget⟩
    have := List.any_eq_false.mp hflight _ hvalue
    simp [OrderManager.intentMatches] at this
  rintro (hget | ⟨row, hrow, rfl, rfl, hopen⟩)
  · exact hnotInFlight uuid hget
  · cases queryRaises with
    -- the query raised: the row was not looked at, but the order is in flight
    | true => exact hnotInFlight uuid (hquery rfl uuid row hrow hopen rfl rfl)
    | false =>
      have hmem : row ∈ m.database.getNonTerminal := by
        cases hdb : m.database with
        | noop =>
          rw [hdb] at hrow
          cases hrow
        | sql rows trades =>
          rw [hdb] at hrow
          refine List.mem_filter.mpr ⟨(Dict.mem_values_iff _ _).mpr ⟨uuid, hrow⟩, ?_⟩
          cases hterminal : isTerminal row.status with
          | false => rfl
          | true =>
            rw [isOpenStatus_of_isTerminal hterminal] at hopen
            cases hopen
      rw [Bool.not_false, Bool.true_and] at hrows
      have := List.any_eq_false.mp hrows row hmem
      simp [OrderManager.intentMatches, hopen] at this

/-! ## §3 Tracked orders stay tracked -/

/-- An upsert keeps an open row, if it does not report the order otherwise. -/
theorem OpenRow.upsert {db db' : Database} {uuid sym : String} {side : TradeAction}
    (h : OpenRow db uuid sym side) {order : Order} (hwrite : db.upsertOrder order = some db')
    (hreport : order.uuid = uuid → isOpenStatus order.status = true ∧ order.tickerSymbol = sym) :
    OpenRow db' uuid sym side := by
  obtain ⟨row, hrow, rfl, rfl, hopen⟩ := h
  have hnotTerminal : ¬ isTerminal row.status = true := by
    intro hterminal
    rw [isOpenStatus_of_isTerminal hterminal] at hopen
    cases hopen
  rcases eq_or_ne uuid order.uuid with rfl | hne
  -- the row is merged: it takes the status and the symbol of the report
  · obtain ⟨hstatus, hsym⟩ := hreport rfl
    obtain ⟨hsym', hside', hstatus'⟩ := Database.mergeRow_of_not_terminal hnotTerminal order
    refine ⟨Database.mergeRow row order, row?_upsertOrder_self hwrite hrow, ?_, hside', ?_⟩
    · rw [hsym', hsym]
    · rw [hstatus', hstatus]
  · refine ⟨row, ?_, rfl, rfl, hopen⟩
    rw [row?_upsertOrder_of_ne hwrite hne]
    exact hrow

theorem OpenRow.insertTrades {db : Database} {uuid sym : String} {side : TradeAction}
    (h : OpenRow db uuid sym side) (trades : List Trade) :
    OpenRow (db.insertTrades trades) uuid sym side := by
  obtain ⟨row, hrow, hrest⟩ := h
  exact ⟨row, (row?_insertTrades db trades uuid).trans hrow, hrest⟩

theorem saveLoop_openRow {fault : DbFault} {i : ℕ} {m : OrderManager} {uow uow' : Database}
    {orders : List Order} {uuid sym : String} {side : TradeAction}
    (h : OpenRow uow uuid sym side)
    (hreport : ∀ order ∈ orders, order.uuid = uuid →
      isOpenStatus order.status = true ∧ order.tickerSymbol = sym)
    (hres : (OrderManager.saveLoop fault i m uow orders).2 = some uow') :
    OpenRow uow' uuid sym side := by
  induction orders generalizing i m uow with
  | nil =>
    obtain rfl := Option.some.inj hres
    exact h
  | cons head rest ih =>
    obtain ⟨m₁, uow₁, hhead, htail⟩ := saveLoop_cons_some hres
    rw [htail] at hres
    have hspec := processUpdate_spec m fault i uow head
    rw [hhead] at hspec
    obtain ⟨written, trades, hsame, hwrite⟩ := hspec.exists_upsert
    apply ih _ (fun order horder => hreport order (List.mem_cons_of_mem head horder)) hres
    apply (h.insertTrades trades).upsert hwrite
    rw [hsame.uuid_eq, hsame.status_eq, hsame.tickerSymbol_eq]
    exact hreport head List.mem_cons_self

/-- A call that reports an order only in open statuses keeps it tracked, whether it raises
    or not. -/
theorem Tracked.update {m : OrderManager} {uuid sym : String} {side : TradeAction}
    (h : Tracked m uuid sym side) {orders : List Order} (fault : DbFault)
    (hreport : ∀ order ∈ orders, order.uuid = uuid →
      isOpenStatus order.status = true ∧ order.tickerSymbol = sym) :
    Tracked (m.saveOrdersToDatabase orders fault).1 uuid sym side := by
  rcases h with hget | hrow
  · left
    exact saveOrdersToDatabase_inFlight_of_open hget fault fun order horder heq =>
      (hreport order horder heq).1
  · right
    rcases (saveOrdersToDatabase_cases m orders fault).2 with ⟨hdb, -⟩ | ⟨uow', hloop, hres⟩
    · rw [hdb]
      exact hrow
    · rw [hres]
      exact saveLoop_openRow hrow hreport hloop

/-! ## §4 One step -/

/-- Steps that open nothing and forget no terminal status: only the order manager's view
    has to be shown again. -/
theorem CycleInv.of_mono {s s' : CycleState} (h : CycleInv s) (hopened : s'.opened = s.opened)
    (hterminal : ∀ uuid ∈ s.terminal, uuid ∈ s'.terminal)
    (hcycles : ∀ cycle c, s'.cycles.get? cycle = some c → s.cycles.get? cycle = some c)
    (htracked : ∀ uuid sym side, Outstanding s' uuid sym side →
      Tracked s.manager uuid sym side → Tracked s'.manager uuid sym side)
    (hqueue : ∀ order ∈ s'.manager.orderQueue, order ∈ s.manager.orderQueue) : CycleInv s' := by
  have hback : ∀ uuid sym side, Outstanding s' uuid sym side → Outstanding s uuid sym side := by
    intro uuid sym side hout
    exact ⟨hopened ▸ hout.1, fun hmem => hout.2 (hterminal uuid hmem)⟩
  refine ⟨?_, ?_, ?_, ?_⟩
  · intro uuid sym side hout
    exact htracked uuid sym side hout (h.tracked uuid sym side (hback uuid sym side hout))
  · intro u v sym side hu hv
    exact h.one u v sym side (hback u sym side hu) (hback v sym side hv)
  · intro cycle c hget uuid hout
    exact h.since cycle c (hcycles cycle c hget) uuid (hback uuid _ _ hout)
  · intro order horder
    rw [hopened]
    exact h.queued order (hqueue order horder)

theorem get?_of_get?_erase {d : Dict ℕ Cycle} {k cycle : ℕ} {c : Cycle}
    (h : (d.erase k).get? cycle = some c) : cycle ≠ k ∧ d.get? cycle = some c := by
  rw [Dict.get?_erase] at h
  split at h
  · cases h
  · rename_i hne
    exact ⟨hne, h⟩

theorem cycleInv_giveUp {s : CycleState} (h : CycleInv s) (cycle : ℕ) :
    CycleInv (cycleStep s (.giveUp cycle)) :=
  h.of_mono rfl (fun _ hmem => hmem) (fun _ _ hget => (get?_of_get?_erase hget).2)
    (fun _ _ _ _ ht => ht) fun _ ho => ho

/-- The question.  The answer no means that nothing of the symbol and side is outstanding. -/
theorem cycleInv_check {s : CycleState} (h : CycleInv s) {cycle : ℕ} {sym : String}
    {side : TradeAction} {queryRaises : Bool}
    (hrace : NoRace s (.check cycle sym side queryRaises)) :
    CycleInv (cycleStep s (.check cycle sym side queryRaises)) := by
  unfold cycleStep
  simp only
  split
  · exact cycleInv_giveUp h cycle
  · rename_i hcheck
    rw [Bool.not_eq_true] at hcheck
    refine ⟨h.tracked, h.one, ?_, h.queued⟩
    intro k c hget uuid hout
    simp only [Dict.get?_set] at hget
    split at hget
    -- the cycle that asked: nothing is outstanding for it
    · obtain rfl := Option.some.inj hget
      exact absurd (h.tracked uuid sym side hout) (not_tracked_of_check hcheck hrace uuid)
    · exact h.since k c hget uuid hout

theorem cycleInv_update {s : CycleState} (h : CycleInv s) {orders : List Order} {fault : DbFault}
    (hvalid : (CycleStep.update orders fault).Valid s)
    (hrace : NoRace s (.update orders fault)) : CycleInv (cycleStep s (.update orders fault)) := by
  refine h.of_mono rfl (fun _ hmem => List.mem_append_right _ hmem) (fun _ _ hget => hget) ?_ ?_
  · intro uuid sym side hout htracked
    apply htracked.update
    -- an order without a terminal status is reported in open statuses only
    intro order horder heq
    subst heq
    have hopened : s.opened.get? order.uuid = some (sym, side) := hout.1
    have hnew : order.uuid ∉ terminalIds orders ++ s.terminal := hout.2
    rw [List.mem_append, not_or] at hnew
    refine ⟨?_, ?_⟩
    · rcases hrace order horder (by rw [hopened]; rfl) hnew.2 with hopen | hterminal
      · exact hopen
      · exact absurd (mem_terminalIds.mpr ⟨order, horder, hterminal, rfl⟩) hnew.1
    · rcases hvalid order horder with hnone | hsome
      · rw [hopened] at hnone
        cases hnone
      · rw [hopened] at hsome
        exact (Prod.mk.inj (Option.some.inj hsome)).1.symm
  · intro order horder
    have hqueue := (saveOrdersToDatabase_cases s.manager orders fault).1.1
    have horder' : order ∈ (s.manager.saveOrdersToDatabase orders fault).1.orderQueue := horder
    rw [hqueue] at horder'
    exact horder'

/-- A round of the queue worker: an error takes the order out of the in-flight orders, but
    then it is terminal. -/
theorem cycleInv_worker {s : CycleState} (h : CycleInv s) (ex : Execution) :
    CycleInv (cycleStep s (.worker ex)) := by
  unfold cycleStep OrderManager.processOrderQueue
  cases hqueue : s.manager.orderQueue with
  | nil => exact h
  | cons order rest =>
    obtain ⟨hstatus, hopened⟩ := h.queued order (by rw [hqueue]; exact List.mem_cons_self)
    have hrest : ∀ o ∈ rest, o ∈ s.manager.orderQueue := by
      intro o ho
      rw [hqueue]
      exact List.mem_cons_of_mem order ho
    have hend := executeOrder_end { s.manager with orderQueue := rest } order hstatus ex
    simp only
    generalize OrderManager.executeOrder { s.manager with orderQueue := rest } order ex = res
      at hend
    cases hend with
    | accepted db' written hsame hwrite =>
      -- the order stays in flight, and its row is written as pending
      refine h.of_mono rfl (fun _ hmem => hmem) (fun _ _ hget => hget) ?_ hrest
      intro uuid sym side hout htracked
      refine htracked.imp_right fun hrow => hrow.upsert hwrite ?_
      rw [hsame.uuid_eq, hsame.status_eq, hsame.tickerSymbol_eq, hstatus]
      rintro rfl
      have hsym : s.opened.get? order.uuid = some (sym, side) := hout.1
      rw [hopened] at hsym
      exact ⟨rfl, (Prod.mk.inj (Option.some.inj hsym)).1⟩
    | refused written db' hcause hsame hwrite =>
      refine h.of_mono rfl (fun _ hmem => List.mem_cons_of_mem _ hmem) (fun _ _ hget => hget) ?_
        hrest
      intro uuid sym side hout htracked
      -- the order itself is terminal; the others keep their entries and rows
      have hne : uuid ≠ order.uuid := fun heq => hout.2 (heq ▸ List.mem_cons_self)
      rcases htracked with hget | hrow
      · left
        show (s.manager.inFlightOrders.erase order.uuid).get? uuid = _
        rw [Dict.get?_erase_of_ne _ hne]
        exact hget
      · right
        apply hrow.upsert hwrite
        intro heq
        rw [hsame.uuid_eq] at heq
        exact absurd heq.symm hne
    | lost hcause =>
      -- nothing is written, and the order is terminal all the same
      refine h.of_mono rfl (fun _ hmem => List.mem_cons_of_mem _ hmem) (fun _ _ hget => hget) ?_
        hrest
      intro uuid sym side hout htracked
      have hne : uuid ≠ order.uuid := fun heq => hout.2 (heq ▸ List.mem_cons_self)
      refine htracked.imp_left fun hget => ?_
      show (s.manager.inFlightOrders.erase order.uuid).get? uuid = _
      rw [Dict.get?_erase_of_ne _ hne]
      exact hget

theorem note_tickerSymbol (c : Cycle) (order : Order) :
    (c.note order).tickerSymbol = c.tickerSymbol := by
  unfold Cycle.note
  split <;> rfl

theorem note_tradeAction (c : Cycle) (order : Order) :
    (c.note order).tradeAction = c.tradeAction := by
  unfold Cycle.note
  split <;> rfl

theorem mem_openedSince_note {c : Cycle} {order : Order} {uuid : String}
    (h : uuid ∈ c.openedSince ∨ uuid = order.uuid ∧ c.tickerSymbol = order.tickerSymbol ∧
      c.tradeAction = order.tradeAction) : uuid ∈ (c.note order).openedSince := by
  unfold Cycle.note
  split
  · rcases h with hold | ⟨rfl, -⟩
    · exact List.mem_cons_of_mem _ hold
    · exact List.mem_cons_self
  · rename_i hother
    rcases h with hold | ⟨-, hsame⟩
    · exact hold
    · exact absurd hsame hother

/-- After an opening an outstanding order is the new one, or was outstanding before. -/
theorem outstanding_cases {s s' : CycleState} {order : Order}
    (hopened : s'.opened = s.opened.set order.uuid (order.tickerSymbol, order.tradeAction))
    (hterminal : ∀ uuid ∈ s.terminal, uuid ∈ s'.terminal) {uuid sym : String} {side : TradeAction}
    (h : Outstanding s' uuid sym side) :
    (uuid = order.uuid ∧ sym = order.tickerSymbol ∧ side = order.tradeAction) ∨
      (uuid ≠ order.uuid ∧ Outstanding s uuid sym side) := by
  obtain ⟨hget, hnotMem⟩ := h
  rw [hopened, Dict.get?_set] at hget
  split at hget
  · rename_i heq
    obtain ⟨rfl, rfl⟩ := Prod.mk.inj (Option.some.inj hget)
    exact .inl ⟨heq, rfl, rfl⟩
  · rename_i hne
    exact .inr ⟨hne, hget, fun hmem => hnotMem (hterminal uuid hmem)⟩

/-- Opening an order of a symbol and side of which nothing is outstanding. -/
theorem CycleInv.of_opening {s s' : CycleState} (h : CycleInv s) {order : Order}
    (hnew : s.opened.get? order.uuid = none)
    (hnone : ∀ uuid, ¬ Outstanding s uuid order.tickerSymbol order.tradeAction)
    (hopened : s'.opened = s.opened.set order.uuid (order.tickerSymbol, order.tradeAction))
    (hterminal : ∀ uuid ∈ s.terminal, uuid ∈ s'.terminal)
    (hflight : s'.manager.inFlightOrders =
      s.manager.inFlightOrders.set order.uuid (order.tickerSymbol, order.tradeAction))
    (hrows : ∀ uuid, uuid ≠ order.uuid →
      s'.manager.database.row? uuid = s.manager.database.row? uuid)
    (hqueue : ∀ o ∈ s'.manager.orderQueue,
      o ∈ s.manager.orderQueue ∨ o = s.manager.openedOrder order)
    (hcycles : ∀ cycle c, s'.cycles.get? cycle = some c →
      ∃ c₀, s.cycles.get? cycle = some c₀ ∧ c = c₀.note order) : CycleInv s' := by
  refine ⟨?_, ?_, ?_, ?_⟩
  · intro uuid sym side hout
    rcases outstanding_cases hopened hterminal hout with ⟨rfl, rfl, rfl⟩ | ⟨hne, hold⟩
    · left
      rw [hflight, Dict.get?_set_self]
    · rcases h.tracked uuid sym side hold with hget | ⟨row, hrow, hrest⟩
      · left
        rw [hflight, Dict.get?_set_of_ne _ _ hne]
        exact hget
      · exact .inr ⟨row, (hrows uuid hne).trans hrow, hrest⟩
  -- two outstanding orders: at most one of them is the new one, and then it is alone
  · intro u v sym side hu hv
    rcases outstanding_cases hopened hterminal hu with ⟨rfl, rfl, rfl⟩ | ⟨-, hu'⟩
    · rcases outstanding_cases hopened hterminal hv with ⟨rfl, -⟩ | ⟨-, hv'⟩
      · rfl
      · exact absurd hv' (hnone v)
    · rcases outstanding_cases hopened hterminal hv with ⟨rfl, rfl, rfl⟩ | ⟨-, hv'⟩
      · exact absurd hu' (hnone u)
      · exact h.one u v sym side hu' hv'
  · intro cycle c hget uuid hout
    obtain ⟨c₀, hget₀, rfl⟩ := hcycles cycle c hget
    rw [note_tickerSymbol, note_tradeAction] at hout
    apply mem_openedSince_note
    rcases outstanding_cases hopened hterminal hout with ⟨rfl, hsym, hside⟩ | ⟨-, hold⟩
    · exact .inr ⟨rfl, hsym, hside⟩
    · exact .inl (h.since cycle c₀ hget₀ uuid hold)
  · intro o ho
    rw [hopened]
    rcases hqueue o ho with hold | rfl
    · obtain ⟨hstatus, ho'⟩ := h.queued o hold
      exact ⟨hstatus, opened_set_of_some hnew _ ho'⟩
    · exact ⟨rfl, Dict.get?_set_self _ _ _⟩

/-- The opening.  What is outstanding for the symbol and side was opened since the question
    and is terminal by now, so the new order is the only one. -/
theorem cycleInv_openOrder {s : CycleState} (h : CycleInv s) {cycle : ℕ} {order : Order}
    {ex : Execution} (hnew : s.opened.get? order.uuid = none)
    (hrace : NoRace s (.openOrder cycle order ex)) :
    CycleInv (cycleStep s (.openOrder cycle order ex)) := by
  unfold cycleStep
  cases hcycle : s.cycles.get? cycle with
  | none =>
    simp only [hcycle]
    exact h
  | some c =>
    simp only [hcycle]
    split
    · rename_i hmatch
      obtain ⟨hsym, hside⟩ := hmatch
      obtain ⟨hflight, hrows, hqueue⟩ := openOrder_frame s.manager order ex
      generalize s.manager.openOrder order ex = res at hflight hrows hqueue
      obtain ⟨m', raised⟩ := res
      apply h.of_opening hnew _ rfl _ hflight hrows hqueue
      · intro k c' hget
        simp only [Dict.get?_mapValues] at hget
        obtain ⟨c₀, hget₀, rfl⟩ := Option.map_eq_some_iff.mp hget
        exact ⟨c₀, (get?_of_get?_erase hget₀).2, rfl⟩
      -- the cycle is not overtaken: what it did not see when it asked is terminal
      · intro u hout
        rw [← hsym, ← hside] at hout
        exact hout.2 (hrace c hcycle u (h.since cycle c hcycle u hout))
      · intro u hmem
        simp only
        split
        · exact List.mem_cons_of_mem _ hmem
        · exact hmem
    · exact h

theorem cycleInv_step {s : CycleState} (h : CycleInv s) {step : CycleStep}
    (hvalid : step.Valid s) (hrace : NoRace s step) : CycleInv (cycleStep s step) := by
  cases step with
  | check cycle sym side queryRaises => exact cycleInv_check h hrace
  | openOrder cycle order ex => exact cycleInv_openOrder h hvalid hrace
  | giveUp cycle => exact cycleInv_giveUp h cycle
  | worker ex => exact cycleInv_worker h ex
  | update orders fault => exact cycleInv_update h hvalid hrace

/-! ## §5 At most one outstanding order -/

/-- The orders of earlier runs are open or terminal, and at most one for each symbol and side
    is open. -/
def StartsClean (database : Database) (sm : SessionManager) (sync : Bool) : Prop :=
  OneOutstanding (CycleState.start database sm sync) ∧
    ∀ uuid row, database.row? uuid = some row →
      isOpenStatus row.status = true ∨ isTerminal row.status = true

theorem cycleInv_start {database : Database} {sm : SessionManager} {sync : Bool}
    (h : StartsClean database sm sync) : CycleInv (CycleState.start database sm sync) := by
  have hrows : ∀ uuid, database.row? uuid = database.rows.get? uuid := by
    intro uuid
    cases database <;> rfl
  refine ⟨?_, h.1, ?_, ?_⟩
  · -- what is out at the start is a stored row, which is open, as it is not terminal
    intro uuid sym side hout
    obtain ⟨hopened, hterminal⟩ := hout
    simp only [CycleState.start, IntentState.start, Dict.get?_mapValues] at hopened
    obtain ⟨row, hrow, hpair⟩ := Option.map_eq_some_iff.mp hopened
    obtain ⟨hsym, hside⟩ := Prod.mk.inj hpair
    have hrow' : database.row? uuid = some row := (hrows uuid).trans hrow
    right
    refine ⟨row, hrow', hsym, hside, ?_⟩
    rcases h.2 uuid row hrow' with hopen | habsurd
    · exact hopen
    · refine absurd ?_ hterminal
      refine List.mem_filter.mpr ⟨?_, ?_⟩
      · rw [← Dict.contains_iff_mem_keys]
        show (database.rows.get? uuid).isSome = true
        rw [hrow]
        rfl
      · rw [hrow']
        exact habsurd
  · intro cycle c hget
    cases hget
  · intro order horder
    cases horder

/-- **At most one outstanding order per symbol and side.**  For every interleaving of trading
    cycles, order updates and the queue worker in which no cycle is overtaken between its
    question and its opening and no outstanding order drops out of sight, every state reached
    has at most one outstanding order for each symbol and side. -/
theorem oneOutstanding_of_noRace (database : Database) (sm : SessionManager) (sync : Bool)
    (hstart : StartsClean database sm sync) (steps : List CycleStep)
    (hvalid : Along cycleStep (fun s step => step.Valid s)
      (CycleState.start database sm sync) steps)
    (hrace : Along cycleStep NoRace (CycleState.start database sm sync) steps)
    (before after : List CycleStep) (hsplit : steps = before ++ after) :
    OneOutstanding (run cycleStep (CycleState.start database sm sync) before) := by
  subst hsplit
  have hboth : Along cycleStep (fun s step => step.Valid s ∧ NoRace s step)
      (CycleState.start database sm sync) before :=
    along_and.mpr ⟨(along_append.mp hvalid).1, (along_append.mp hrace).1⟩
  have hinv : CycleInv (run cycleStep (CycleState.start database sm sync) before) :=
    run_invariant_along CycleInv (fun s step h hstep => cycleInv_step h hstep.1 hstep.2)
      (cycleInv_start hstart) hboth
  exact hinv.one

def secondBuyOrder : Order := { buyOrder with uuid := "u2" }

/-- The second cycle asks before the first one opens, and opens after that order is filled. -/
def overtakenCyclesRun : List CycleStep :=
  [.check 1 "BTC_USD" .buy false, .check 2 "BTC_USD" .buy false, .openOrder 1 buyOrder executes,
    .worker executes, .update [completedBuy] noFault, .openOrder 2 secondBuyOrder executes]

theorem oneOutstanding_overtakenCycles :
    Outstanding (run cycleStep (CycleState.start (.sql Dict.empty []) oneContextSession false)
        overtakenCyclesRun) "u2" "BTC_USD" .buy ∧
      OneOutstanding (run cycleStep
        (CycleState.start (.sql Dict.empty []) oneContextSession false) overtakenCyclesRun) := by
  refine ⟨⟨by decide +kernel, by decide +kernel⟩, ?_⟩
  have hstart : StartsClean (.sql Dict.empty []) oneContextSession false := by
    refine ⟨fun u v sym side hu => ?_, fun uuid row hrow => ?_⟩
    · cases hu.1
    · cases hrow
  apply oneOutstanding_of_noRace (.sql Dict.empty []) oneContextSession false hstart
    overtakenCyclesRun _ _ overtakenCyclesRun [] (List.append_nil _).symm
  · decide +kernel
  · refine ⟨nofun, nofun, ?_, trivial, ?_, ?_, trivial⟩
    · intro c hget uuid hmem
      have hfirst : some c = some ⟨"BTC_USD", .buy, []⟩ := by
        rw [← hget]
        decide +kernel
      obtain rfl := Option.some.inj hfirst
      cases hmem
    · intro order horder _ _
      obtain rfl := List.mem_singleton.mp horder
      exact .inr rfl
    -- the order that overtook the second cycle is terminal by now
    · intro c hget uuid hmem
      have hsecond : some c = some ⟨"BTC_USD", .buy, ["u1"]⟩ := by
        rw [← hget]
        decide +kernel
      obtain rfl := Option.some.inj hsecond
      obtain rfl := List.mem_singleton.mp hmem
      decide +kernel

/-- Both cycles ask before either opens. -/
def racingCyclesRun : List CycleStep :=
  [.check 1 "BTC_USD" .buy false, .check 2 "BTC_USD" .buy false,
    .openOrder 1 buyOrder executes, .openOrder 2 secondBuyOrder executes]

/-- The first order is reported in a status that is neither open nor terminal. -/
def reconciliationRun : List CycleStep :=
  [.check 1 "BTC_USD" .buy false, .openOrder 1 buyOrder executes, .worker executes,
    .update [{ buyOrder with status := some .reconciliationRequired }] noFault,
    .check 2 "BTC_USD" .buy false, .openOrder 2 secondBuyOrder executes]

theorem not_oneOutstanding_of_two {s : CycleState} (h₁ : Outstanding s "u1" "BTC_USD" .buy)
    (h₂ : Outstanding s "u2" "BTC_USD" .buy) : ¬ OneOutstanding s := by
  intro hone
  have heq := hone "u1" "u2" "BTC_USD" .buy h₁ h₂
  revert heq
  decide

/-- Two ways to a second order of the same symbol and side. -/
theorem second_order_of_same_side :
    (Along cycleStep (fun s step => step.Valid s)
        (CycleState.start (.sql Dict.empty []) oneContextSession false) racingCyclesRun ∧
      ¬ OneOutstanding (run cycleStep
        (CycleState.start (.sql Dict.empty []) oneContextSession false) racingCyclesRun)) ∧
    (Along cycleStep (fun s step => step.Valid s)
        (CycleState.start (.sql Dict.empty []) oneContextSession false) reconciliationRun ∧
      ¬ OneOutstanding (run cycleStep
        (CycleState.start (.sql Dict.empty []) oneContextSession false) reconciliationRun)) := by
  refine ⟨⟨by decide +kernel, ?_⟩, ⟨by decide +kernel, ?_⟩⟩
  · apply not_oneOutstanding_of_two
    · exact ⟨by decide +kernel, by decide +kernel⟩
    · exact ⟨by decide +kernel, by decide +kernel⟩
  · apply not_oneOutstanding_of_two
    · exact ⟨by decide +kernel, by decide +kernel⟩
    · exact ⟨by decide +kernel, by decide +kernel⟩

end CryptoTrading.Orders
