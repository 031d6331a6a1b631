import CryptoTrading.Backtest.Ledger
import CryptoTrading.Lib.Run

/-!
# Outcomes of backtest orders

An order of the backtest exchange is kept twice: in the list of the account with its status, and
in the queue of the engine until its tick comes.  `create_order` and the engine write both;
`cancel_order` of `backtest_rest_service.py` writes the status only.

As long as no order is cancelled while it waits, the queue of a symbol is exactly the list of
its orders that are pending (`Settling`), so that every order ends once.
-/

namespace CryptoTrading.Backtest

open CryptoTrading.Lib

namespace BacktestExecutionEngine

/-! ## §1 Requests -/

/-- `BacktestRestService._handle_cancel_order`. -/
def handleCancelOrder (e : BacktestExecutionEngine) (uuid : String) : BacktestExecutionEngine :=
  let cancel (order : Order) : Order :=
    if order.uuid = uuid ∧ order.status = some .pending then markCancelled order else order
  { e with account := { e.account with orders := e.account.orders.map cancel } }

/-- The order that `get_pending_orders` shows for a pending order. -/
def openOrder (pending : PendingOrder) : Order :=
  { Order.new pending.orderUuid backtestProvider pending.tickerSymbol pending.requestedPrice
      pending.quantity pending.tradeAction pending.signalAt with
    commitHash := pending.commitHash }

/-- `get_pending_orders`, which `get_open_orders` returns; an empty symbol means all of them. -/
def getPendingOrders (e : BacktestExecutionEngine) (tickerSymbol : Option String) : List Order :=
  e.pending.entries.flatMap fun (symbol, pendingList) =>
    if isFalsyStr tickerSymbol = false ∧ tickerSymbol ≠ some symbol then []
    else pendingList.map openOrder

/-- A request to the service, or a tick. -/
inductive ServiceCall where
  | createOrder (placed : Order)
  | cancelOrder (uuid : String)
  | process (tickerSymbol : String) (timestamp : ℤ)

def serve (e : BacktestExecutionEngine) : ServiceCall → BacktestExecutionEngine
  | .createOrder placed => (e.createOrder placed).1
  | .cancelOrder uuid => e.handleCancelOrder uuid
  | .process tickerSymbol timestamp => (e.process tickerSymbol timestamp).1

/-- Ids are fresh and quantities are positive. -/
def WellFormedCall (e : BacktestExecutionEngine) : ServiceCall → Prop
  | .createOrder placed =>
    (∀ order ∈ e.account.orders, order.uuid ≠ placed.uuid) ∧ 0 < placed.quantity
  | _ => True

/-- The order of a cancellation is not waiting. -/
def CancelsNoPending (e : BacktestExecutionEngine) : ServiceCall → Prop
  | .cancelOrder uuid =>
    ∀ order ∈ e.account.orders, order.uuid = uuid → order.status ≠ some .pending
  | _ => True

/-! ## §2 Outcomes -/

/-- The order waits in the queue of its symbol. -/
def InQueue (e : BacktestExecutionEngine) (order : Order) : Prop :=
  ∃ pending ∈ e.pending.getD order.tickerSymbol [], pending.orderUuid = order.uuid

/-- How many results an order has. -/
def resultCount (e : BacktestExecutionEngine) (order : Order) : ℕ :=
  e.results.countP fun result => result.orderUuid = order.uuid

/-- The three outcomes of an order. -/
inductive Outcome (e : BacktestExecutionEngine) (order : Order) : Prop where
  | pending (hstatus : order.status = some .pending) (hqueue : e.InQueue order)
      (hresults : e.resultCount order = 0)
  | completed (hstatus : order.status = some .completed) (hqueue : ¬ e.InQueue order)
      (hresults : e.resultCount order = 1)
  | cancelled (hstatus : order.status = some .cancelled) (hqueue : ¬ e.InQueue order)
      (hresults : e.resultCount order = 0)

/-- The order is listed for the symbol that is asked for. -/
def Listed (tickerSymbol : Option String) (order : Order) : Bool :=
  order.status = some .pending ∧
    (isFalsyStr tickerSymbol = true ∨ tickerSymbol = some order.tickerSymbol)

/-- What the open orders show of an order. -/
def shownOrder (order : Order) : Order :=
  { Order.new order.uuid backtestProvider order.tickerSymbol order.price order.quantity
      order.tradeAction order.createdTime with
    commitHash := order.commitHash }

/-- Every order has one outcome, the open orders are the pending ones, and the account is what
    the results make of it: an order without a result has no effect. -/
structure OneOutcome (initialBalance : ℚ) (e : BacktestExecutionEngine) : Prop where
  outcome : ∀ order ∈ e.account.orders, e.Outcome order
  openOrders : ∀ tickerSymbol, (e.getPendingOrders tickerSymbol).Perm
    ((e.account.orders.filter (Listed tickerSymbol)).map shownOrder)
  booked : Booked initialBalance e.account e.results

/-- An order that is completed or cancelled stays so. -/
def KeepsOutcomes (e e' : BacktestExecutionEngine) : Prop :=
  ∀ order ∈ e.account.orders, order.status = some .completed ∨ order.status = some .cancelled →
    ∃ order' ∈ e'.account.orders, order'.uuid = order.uuid ∧ order'.status = order.status

/-! ## §3 The queues are the pending orders -/

/-- The order is pending, and not among those that are being settled. -/
def Waiting (todo : List PendingOrder) (symbol : String) (order : Order) : Bool :=
  order.status = some .pending ∧ order.tickerSymbol = symbol ∧
    order.uuid ∉ todo.map (·.orderUuid)

/-- The invariant, while the orders of `todo` are being settled. -/
structure Settling (e : BacktestExecutionEngine) (todo : List PendingOrder) : Prop where
  nodup : (e.account.orders.map (·.uuid)).Nodup
  queue : ∀ symbol, e.pending.getD symbol [] =
    (e.account.orders.filter (Waiting todo symbol)).map fun order => e.pendingOrder order symbol
  settled : ∀ order ∈ e.account.orders,
    (order.status = some .pending ∧ e.resultCount order = 0) ∨
    (order.status = some .completed ∧ e.resultCount order = 1) ∨
    (order.status = some .cancelled ∧ e.resultCount order = 0)
  known : ∀ result ∈ e.results, ∃ order ∈ e.account.orders, order.uuid = result.orderUuid
  todo_nodup : (todo.map (·.orderUuid)).Nodup
  todo_pending : ∀ pending ∈ todo, ∃ order ∈ e.account.orders,
    order.uuid = pending.orderUuid ∧ order.status = some .pending

/-- Ids tell the orders apart. -/
theorem eq_of_uuid {orders : List Order} (hnodup : (orders.map (·.uuid)).Nodup)
    {order order' : Order} (h : order ∈ orders) (h' : order' ∈ orders)
    (huuid : order.uuid = order'.uuid) : order = order' :=
  List.inj_on_of_nodup_map hnodup h h' huuid

theorem updateOrder_eq_map {f : Order → Order} {uuid : String} {orders : List Order}
    (hnodup : (orders.map (·.uuid)).Nodup) :
    updateOrder uuid f orders =
      orders.map fun order => if order.uuid = uuid then f order else order := by
  induction orders with
  | nil => rfl
  | cons order rest ih =>
    rw [List.map_cons, List.nodup_cons] at hnodup
    rw [updateOrder, List.map_cons]
    split
    · rename_i heq
      -- the rest has other ids
      have hrest : rest.map (fun other => if other.uuid = uuid then f other else other) =
          rest.map id := by
        apply List.map_congr_left
        intro other hother
        rw [if_neg, id]
        rw [← heq]
        intro hsame
        exact hnodup.1 (hsame ▸ List.mem_map_of_mem hother)
      rw [hrest, List.map_id]
    · rw [ih hnodup.2]

section Settle

variable {e : BacktestExecutionEngine} {pending : PendingOrder} {todo : List PendingOrder}

/-- The order of the first entry is pending, and has no result yet. -/
theorem Settling.of_uuid (h : Settling e (pending :: todo)) {order : Order}
    (horder : order ∈ e.account.orders) (huuid : order.uuid = pending.orderUuid) :
    order.status = some .pending ∧ e.resultCount order = 0 := by
  obtain ⟨found, hfound, hsame, hpending⟩ := h.todo_pending pending List.mem_cons_self
  obtain rfl := eq_of_uuid h.nodup horder hfound (huuid.trans hsame.symm)
  rcases h.settled order horder with hsettled | ⟨hstatus, -⟩ | ⟨hstatus, -⟩
  · exact hsettled
  · rw [hpending] at hstatus
    cases hstatus
  · rw [hpending] at hstatus
    cases hstatus

/-- Results of one order count for this order alone. -/
theorem countP_append_results {results : List ExecutionResult}
    (hresults : ∀ result ∈ results, result.orderUuid = pending.orderUuid) (order : Order) :
    (e.results ++ results).countP (fun r => r.orderUuid = order.uuid) =
      e.resultCount order + if order.uuid = pending.orderUuid then results.length else 0 := by
  rw [List.countP_append, resultCount]
  congr 1
  split
  · rename_i huuid
    rw [List.countP_eq_length]
    intro result hresult
    simp [hresults result hresult, huuid]
  · rename_i huuid
    rw [List.countP_eq_zero]
    intro result hresult
    simp [hresults result hresult, Ne.symm huuid]

/-- The queues are right once the first entry has a final status. -/
theorem Settling.queue_settle (h : Settling e (pending :: todo)) {f : Order → Order}
    (hne : ∀ order, (f order).status ≠ some .pending) (symbol : String) :
    e.pending.getD symbol [] = ((e.account.orders.map fun order =>
      if order.uuid = pending.orderUuid then f order else order).filter
        (Waiting todo symbol)).map fun order => e.pendingOrder order symbol := by
  rw [h.queue, List.filter_map, List.map_map]
  have hfilter : e.account.orders.filter (Waiting (pending :: todo) symbol) =
      e.account.orders.filter (Waiting todo symbol ∘ fun order =>
        if order.uuid = pending.orderUuid then f order else order) := by
    apply List.filter_congr
    intro order horder
    by_cases huuid : order.uuid = pending.orderUuid
    · simp [Waiting, huuid, hne]
    · simp [Waiting, huuid]
  rw [hfilter]
  apply List.map_congr_left
  intro order horder
  -- what still waits is not the entry, which is not pending any more
  have hwaiting := (List.mem_filter.mp horder).2
  have huuid : order.uuid ≠ pending.orderUuid := by
    intro huuid
    simp [Waiting, huuid, hne] at hwaiting
  simp [huuid]

/-- One order is settled: it gets a final status, and a result if it is completed. -/
theorem Settling.settle (h : Settling e (pending :: todo)) {f : Order → Order}
    (hf : KeepsIdentity f) {account : SimulatedAccount} {results : List ExecutionResult}
    (horders : account.orders = e.account.orders)
    (hresults : ∀ result ∈ results, result.orderUuid = pending.orderUuid)
    (hstatus : ∀ order, ((f order).status = some .completed ∧ results.length = 1) ∨
      ((f order).status = some .cancelled ∧ results.length = 0)) :
    Settling { e with
      account := account.update pending.orderUuid f, results := e.results ++ results } todo := by
  have hne : ∀ order, (f order).status ≠ some .pending := by
    intro order hpending
    rcases hstatus order with ⟨hfinal, -⟩ | ⟨hfinal, -⟩ <;> simp [hfinal] at hpending
  have hupdate : updateOrder pending.orderUuid f account.orders = e.account.orders.map fun order =>
      if order.uuid = pending.orderUuid then f order else order := by
    rw [horders, updateOrder_eq_map h.nodup]
  refine ⟨?_, ?_, ?_, ?_, (List.nodup_cons.mp h.todo_nodup).2, ?_⟩
  · -- the ids of the orders are those before
    show ((updateOrder pending.orderUuid f account.orders).map (·.uuid)).Nodup
    rw [map_uuid_updateOrder hf, horders]
    exact h.nodup
  · -- queues: the order that is settled waits no more
    intro symbol
    show e.pending.getD symbol [] = ((updateOrder pending.orderUuid f account.orders).filter
      (Waiting todo symbol)).map fun order => e.pendingOrder order symbol
    rw [hupdate]
    exact h.queue_settle hne symbol
  · -- settled: the order itself by what was written, the others as before
    intro order horder
    have horder' : order ∈ updateOrder pending.orderUuid f account.orders := horder
    rw [hupdate] at horder'
    obtain ⟨old, hold, rfl⟩ := List.mem_map.mp horder'
    unfold resultCount
    rw [countP_append_results hresults]
    by_cases huuid : old.uuid = pending.orderUuid
    · obtain ⟨-, hzero⟩ := h.of_uuid hold huuid
      have hsame : e.resultCount (f old) = e.resultCount old := by
        simp [resultCount, hf.uuid_eq]
      simp only [huuid, if_true, hf.uuid_eq, hsame, hzero, Nat.zero_add]
      exact .inr (hstatus old)
    · simpa [huuid] using h.settled old hold
  · -- known: a new result is of the order that is settled
    intro result hresult
    have huuids : (updateOrder pending.orderUuid f account.orders).map (·.uuid) =
        e.account.orders.map (·.uuid) := by
      rw [map_uuid_updateOrder hf, horders]
    have hknown : result.orderUuid ∈ e.account.orders.map (·.uuid) := by
      rcases List.mem_append.mp hresult with hold | hnew
      · obtain ⟨order, horder, huuid⟩ := h.known result hold
        exact huuid ▸ List.mem_map_of_mem horder
      · obtain ⟨order, horder, huuid, -⟩ := h.todo_pending pending List.mem_cons_self
        rw [hresults result hnew, ← huuid]
        exact List.mem_map_of_mem horder
    rw [← huuids] at hknown
    exact List.mem_map.mp hknown
  · -- to do: the orders behind have other ids and are still pending
    intro other hother
    obtain ⟨order, horder, huuid, hpending⟩ :=
      h.todo_pending other (List.mem_cons_of_mem _ hother)
    have hdiffer : order.uuid ≠ pending.orderUuid := by
      intro hsame
      apply (List.nodup_cons.mp h.todo_nodup).1
      show pending.orderUuid ∈ _
      rw [← hsame, huuid]
      exact List.mem_map_of_mem hother
    refine ⟨order, ?_, huuid, hpending⟩
    show order ∈ updateOrder pending.orderUuid f account.orders
    rw [hupdate]
    exact List.mem_map.mpr ⟨order, horder, by simp [hdiffer]⟩

theorem Settling.fillOrder (h : Settling e (pending :: todo)) :
    Settling (e.fillOrder pending).1 todo := by
  rcases e.fillOrder_cases pending with ⟨-, heq⟩ | ⟨account, result, hexec, heq⟩
  · have hsettled : Settling { e with
        account := e.account.update pending.orderUuid markCancelled
        results := e.results ++ [] } todo :=
      h.settle keepsIdentity_cancel rfl (by simp) fun order => .inr ⟨rfl, rfl⟩
    rw [List.append_nil] at hsettled
    rw [heq]
    exact hsettled
  · rw [heq]
    apply h.settle (keepsIdentity_completeOrder result) (execution_some hexec).1
    · intro r hr
      rw [List.mem_singleton.mp hr]
      obtain ⟨-, -, -, -, -, -, -, -, -, -, -, -, -, huuid, -⟩ := execution_eq_some hexec
      exact huuid
    · exact fun order => .inl ⟨rfl, rfl⟩

end Settle

section Steps

variable {e : BacktestExecutionEngine}

/-- The order that an entry of a queue was made of. -/
theorem Settling.order_of_queue (h : Settling e []) {symbol : String} {pending : PendingOrder}
    (hpending : pending ∈ e.pending.getD symbol []) :
    ∃ order ∈ e.account.orders, order.status = some .pending ∧ order.tickerSymbol = symbol ∧
      pending = e.pendingOrder order symbol := by
  rw [h.queue] at hpending
  obtain ⟨order, horder, rfl⟩ := List.mem_map.mp hpending
  obtain ⟨hmem, hwaiting⟩ := List.mem_filter.mp horder
  simp only [Waiting, decide_eq_true_eq] at hwaiting
  exact ⟨order, hmem, hwaiting.1, hwaiting.2.1, rfl⟩

/-- The id of a pending order is due exactly when its own entry is. -/
theorem Settling.mem_due_iff (h : Settling e []) {order : Order}
    (horder : order ∈ e.account.orders) (hpending : order.status = some .pending)
    (symbol : String) (timestamp : ℤ) :
    order.uuid ∈ (e.due symbol timestamp).map (·.orderUuid) ↔
      order.tickerSymbol = symbol ∧ isDue timestamp (e.pendingOrder order symbol) = true := by
  constructor
  · intro hmem
    obtain ⟨pending, hin, huuid⟩ := List.mem_map.mp hmem
    obtain ⟨hqueue, hisDue⟩ := List.mem_filter.mp hin
    obtain ⟨other, hother, -, hsymbol, rfl⟩ := h.order_of_queue hqueue
    obtain rfl := eq_of_uuid h.nodup hother horder huuid
    exact ⟨hsymbol, hisDue⟩
  · intro ⟨hsymbol, hisDue⟩
    refine List.mem_map.mpr ⟨e.pendingOrder order symbol, List.mem_filter.mpr ⟨?_, hisDue⟩, rfl⟩
    rw [h.queue]
    apply List.mem_map_of_mem
    exact List.mem_filter.mpr ⟨horder, by simp [Waiting, hpending, hsymbol]⟩

/-- The orders that are due at a tick are taken out of the queue. -/
theorem Settling.takeDue (h : Settling e []) (symbol : String) (timestamp : ℤ) :
    Settling { e with pending := e.pending.set symbol (e.remaining symbol timestamp) }
      (e.due symbol timestamp) := by
  refine ⟨h.nodup, ?_, h.settled, h.known, ?_, ?_⟩
  · -- the queue keeps the waiting orders of the symbol that are not due, and the other queues stay
    intro symbol'
    unfold Dict.getD
    rw [Dict.get?_set]
    by_cases hsymbol : symbol' = symbol
    · subst hsymbol
      rw [if_pos rfl, Option.getD_some]
      show e.remaining symbol' timestamp = (e.account.orders.filter
        (Waiting (e.due symbol' timestamp) symbol')).map fun order => e.pendingOrder order symbol'
      rw [remaining, h.queue, List.filter_map, List.filter_filter]
      congr 1
      apply List.filter_congr
      intro order horder
      by_cases hpending : order.status = some .pending
      · simp only [Waiting, hpending, h.mem_due_iff horder hpending]
        by_cases hticker : order.tickerSymbol = symbol' <;> simp [hticker]
      · simp [Waiting, hpending]
    · rw [if_neg hsymbol]
      show e.pending.getD symbol' [] = (e.account.orders.filter
        (Waiting (e.due symbol timestamp) symbol')).map fun order => e.pendingOrder order symbol'
      rw [h.queue]
      congr 1
      apply List.filter_congr
      intro order horder
      by_cases hpending : order.status = some .pending
      · simp only [Waiting, hpending, h.mem_due_iff horder hpending]
        by_cases hticker : order.tickerSymbol = symbol' <;> simp [hticker, hsymbol]
      · simp [Waiting, hpending]
  · have hnodup : ((e.pending.getD symbol []).map (·.orderUuid)).Nodup := by
      rw [h.queue, List.map_map]
      exact (List.filter_sublist.map _).nodup h.nodup
    exact (List.filter_sublist.map _).nodup hnodup
  · intro pending hpending
    obtain ⟨order, horder, hstatus, -, rfl⟩ := h.order_of_queue (List.mem_filter.mp hpending).1
    exact ⟨order, horder, rfl, hstatus⟩

theorem Settling.process (h : Settling e []) (symbol : String) (timestamp : ℤ) :
    Settling (e.process symbol timestamp).1 [] :=
  process_invariant Settling (fun _ _ _ hsettling => hsettling.fillOrder)
    (h.takeDue symbol timestamp)

/-- A new order comes last in the account and in its queue. -/
theorem Settling.createOrder (h : Settling e []) {placed : Order}
    (hfresh : ∀ order ∈ e.account.orders, order.uuid ≠ placed.uuid) :
    Settling (e.createOrder placed).1 [] := by
  rw [createOrder_eq]
  refine ⟨?_, ?_, ?_, ?_, List.nodup_nil, by simp⟩
  · show ((e.account.orders ++ [createdOrder placed]).map (·.uuid)).Nodup
    rw [List.map_append, List.nodup_append]
    refine ⟨h.nodup, List.nodup_singleton _, ?_⟩
    intro uuid huuid other hother
    obtain ⟨order, horder, rfl⟩ := List.mem_map.mp huuid
    rw [List.map_singleton, List.mem_singleton] at hother
    rw [hother]
    exact hfresh order horder
  · intro symbol
    show (e.pending.set placed.tickerSymbol _).getD symbol [] =
      ((e.account.orders ++ [createdOrder placed]).filter (Waiting [] symbol)).map
        fun order => e.pendingOrder order symbol
    rw [List.filter_append, List.map_append, ← h.queue symbol]
    unfold Dict.getD
    rw [Dict.get?_set]
    by_cases hsymbol : symbol = placed.tickerSymbol
    · subst hsymbol
      simp [Waiting, createdOrder, Order.new]
    · simp [Waiting, createdOrder, Order.new, hsymbol, Ne.symm hsymbol]
  · intro order horder
    rcases List.mem_append.mp (show order ∈ e.account.orders ++ [_] from horder) with hold | hnew
    · exact h.settled order hold
    · rw [List.mem_singleton.mp hnew]
      refine .inl ⟨rfl, ?_⟩
      -- no result has the new id
      unfold resultCount
      rw [List.countP_eq_zero]
      intro result hresult
      obtain ⟨old, hold, huuid⟩ := h.known result hresult
      have hother : result.orderUuid ≠ placed.uuid := huuid ▸ hfresh old hold
      simp [createdOrder, Order.new, hother]
  · intro result hresult
    obtain ⟨order, horder, huuid⟩ := h.known result hresult
    exact ⟨order, List.mem_append_left _ horder, huuid⟩

/-- A cancellation that meets no pending order changes nothing. -/
theorem handleCancelOrder_eq_self {uuid : String}
    (h : ∀ order ∈ e.account.orders, order.uuid = uuid → order.status ≠ some .pending) :
    e.handleCancelOrder uuid = e := by
  have horders : e.account.orders.map (fun order =>
      if order.uuid = uuid ∧ order.status = some .pending then markCancelled order else order) =
      e.account.orders.map id := by
    apply List.map_congr_left
    intro order horder
    rw [if_neg, id]
    exact fun hboth => h order horder hboth.1 hboth.2
  unfold handleCancelOrder
  simp only [horders, List.map_id]

end Steps

/-! ## §4 Every order has one outcome -/

/-- The members of a list, collected by their keys. -/
theorem flatMap_filter_perm {α K : Type} [DecidableEq K] (key : α → K) (p : α → Bool) (l : List α)
    {ks : List K} (hnodup : ks.Nodup) :
    (ks.flatMap fun k => l.filter fun a => key a = k && p a).Perm
      (l.filter fun a => key a ∈ ks && p a) := by
  induction ks with
  | nil => simp
  | cons k rest ih =>
    obtain ⟨hk, hrest⟩ := List.nodup_cons.mp hnodup
    rw [List.flatMap_cons]
    refine (List.Perm.append_left _ (ih hrest)).trans ?_
    have hsplit := List.filter_append_perm (fun a => key a = k)
      (l.filter fun a => key a ∈ k :: rest && p a)
    rw [List.filter_filter, List.filter_filter] at hsplit
    refine List.Perm.trans (List.Perm.of_eq ?_) hsplit
    congr 1
    · apply List.filter_congr
      intro a _
      by_cases hkey : key a = k <;> simp [hkey]
    · apply List.filter_congr
      intro a _
      by_cases hkey : key a = k <;> simp [hkey, hk]

section Outcomes

variable {e : BacktestExecutionEngine}

theorem Settling.inQueue_iff (h : Settling e []) {order : Order}
    (horder : order ∈ e.account.orders) : e.InQueue order ↔ order.status = some .pending := by
  constructor
  · rintro ⟨pending, hpending, huuid⟩
    obtain ⟨other, hother, hstatus, -, rfl⟩ := h.order_of_queue hpending
    rwa [← eq_of_uuid h.nodup hother horder huuid]
  · intro hstatus
    refine ⟨e.pendingOrder order order.tickerSymbol, ?_, rfl⟩
    rw [h.queue]
    apply List.mem_map_of_mem
    exact List.mem_filter.mpr ⟨horder, by simp [Waiting, hstatus]⟩

theorem Settling.outcome (h : Settling e []) {order : Order}
    (horder : order ∈ e.account.orders) : e.Outcome order := by
  have hqueue := h.inQueue_iff horder
  rcases h.settled order horder with ⟨hstatus, hcount⟩ | ⟨hstatus, hcount⟩ | ⟨hstatus, hcount⟩
  · exact .pending hstatus (hqueue.mpr hstatus) hcount
  · exact .completed hstatus (by simp [hqueue, hstatus]) hcount
  · exact .cancelled hstatus (by simp [hqueue, hstatus]) hcount

/-- The entry of a symbol shows the pending orders of the symbol. -/
theorem Settling.shown_of_queue (h : Settling e []) {symbol : String}
    {pendingList : List PendingOrder} (hentry : (symbol, pendingList) ∈ e.pending.entries) :
    pendingList.map openOrder =
      (e.account.orders.filter (Waiting [] symbol)).map shownOrder := by
  have hqueue : pendingList = e.pending.getD symbol [] := by
    unfold Dict.getD
    rw [(Dict.get?_eq_some_iff e.pending symbol pendingList).mpr hentry]
    rfl
  rw [hqueue, h.queue, List.map_map]
  apply List.map_congr_left
  intro order horder
  have hwaiting := (List.mem_filter.mp horder).2
  simp only [Waiting, decide_eq_true_eq] at hwaiting
  simp [openOrder, pendingOrder, shownOrder, hwaiting.2.1]

/-- An order is listed when its symbol is asked for and it is pending. -/
theorem filter_listed (tickerSymbol : Option String) (symbol : String) (orders : List Order) :
    (orders.filter fun order => order.tickerSymbol = symbol && Listed tickerSymbol order) =
      if isFalsyStr tickerSymbol = false ∧ tickerSymbol ≠ some symbol then []
      else orders.filter (Waiting [] symbol) := by
  split
  · rename_i hskip
    rw [List.filter_eq_nil_iff]
    intro order _ hlisted
    simp only [Listed, Bool.and_eq_true, decide_eq_true_eq] at hlisted
    obtain ⟨hticker, -, hfalsy | hasked⟩ := hlisted
    · rw [hskip.1] at hfalsy
      cases hfalsy
    · exact hskip.2 (hticker ▸ hasked)
  · rename_i hasked
    apply List.filter_congr
    intro order _
    by_cases hticker : order.tickerSymbol = symbol
    · subst hticker
      by_cases hfalsy : isFalsyStr tickerSymbol = false
      · have hsome : tickerSymbol = some order.tickerSymbol := by
          by_contra hother
          exact hasked ⟨hfalsy, hother⟩
        simp [Waiting, Listed, hsome]
      · simp [Waiting, Listed, hfalsy]
    · simp [Waiting, hticker]

/-- The open orders are those of the account that are pending. -/
theorem Settling.openOrders (h : Settling e []) (tickerSymbol : Option String) :
    (e.getPendingOrders tickerSymbol).Perm
      ((e.account.orders.filter (Listed tickerSymbol)).map shownOrder) := by
  have hshown : e.getPendingOrders tickerSymbol =
      (e.pending.keys.flatMap fun symbol => e.account.orders.filter fun order =>
        order.tickerSymbol = symbol && Listed tickerSymbol order).map shownOrder := by
    unfold getPendingOrders Dict.keys
    rw [List.map_flatMap, List.flatMap_map]
    apply List.flatMap_congr
    intro entry hentry
    rw [filter_listed]
    dsimp only
    split
    · rfl
    · exact h.shown_of_queue hentry
  -- a pending order waits in the queue of its symbol, so that its symbol is a key
  have hkeys : e.account.orders.filter (Listed tickerSymbol) =
      e.account.orders.filter fun order =>
        order.tickerSymbol ∈ e.pending.keys && Listed tickerSymbol order := by
    apply List.filter_congr
    intro order horder
    by_cases hlisted : Listed tickerSymbol order = true
    · have hpending : order.status = some .pending := by
        simp only [Listed, decide_eq_true_eq] at hlisted
        exact hlisted.1
      obtain ⟨pending, hqueue, -⟩ := (h.inQueue_iff horder).mpr hpending
      have hkey : order.tickerSymbol ∈ e.pending.keys := by
        by_contra hmissing
        rw [← Dict.get?_eq_none_iff] at hmissing
        simp [Dict.getD, hmissing] at hqueue
      simp [hkey]
    · simp [hlisted]
  rw [hshown, hkeys]
  exact (flatMap_filter_perm _ _ _ e.pending.nodupKeys).map shownOrder

theorem Settling.oneOutcome (h : Settling e []) {initialBalance : ℚ}
    (hbooked : Booked initialBalance e.account e.results) : OneOutcome initialBalance e :=
  ⟨fun _ horder => h.outcome horder, h.openOrders, hbooked⟩

/-! ## §5 Outcomes are kept -/

theorem KeepsOutcomes.refl (e : BacktestExecutionEngine) : KeepsOutcomes e e :=
  fun order horder _ => ⟨order, horder, rfl, rfl⟩

theorem KeepsOutcomes.trans {e₁ e₂ e₃ : BacktestExecutionEngine} (h₁ : KeepsOutcomes e₁ e₂)
    (h₂ : KeepsOutcomes e₂ e₃) : KeepsOutcomes e₁ e₃ := by
  intro order horder hfinal
  obtain ⟨order₂, horder₂, huuid₂, hstatus₂⟩ := h₁ order horder hfinal
  rw [← hstatus₂] at hfinal
  obtain ⟨order₃, horder₃, huuid₃, hstatus₃⟩ := h₂ order₂ horder₂ hfinal
  exact ⟨order₃, horder₃, huuid₃.trans huuid₂, hstatus₃.trans hstatus₂⟩

/-- An update of the order that is being settled leaves every final order alone. -/
theorem Settling.keepsOutcomes_update {pending : PendingOrder} {todo : List PendingOrder}
    (h : Settling e (pending :: todo)) {f : Order → Order} {account : SimulatedAccount}
    {results : List ExecutionResult} (horders : account.orders = e.account.orders) :
    KeepsOutcomes e
      { e with account := account.update pending.orderUuid f, results := results } := by
  intro order horder hfinal
  have huuid : order.uuid ≠ pending.orderUuid := by
    intro huuid
    rw [(h.of_uuid horder huuid).1] at hfinal
    simp at hfinal
  refine ⟨order, ?_, rfl, rfl⟩
  show order ∈ updateOrder pending.orderUuid f account.orders
  rw [horders, updateOrder_eq_map h.nodup]
  exact List.mem_map.mpr ⟨order, horder, if_neg huuid⟩

theorem Settling.keepsOutcomes_fillOrder {pending : PendingOrder} {todo : List PendingOrder}
    (h : Settling e (pending :: todo)) : KeepsOutcomes e (e.fillOrder pending).1 := by
  rcases e.fillOrder_cases pending with ⟨-, heq⟩ | ⟨account, result, hexec, heq⟩
  · rw [heq]
    exact h.keepsOutcomes_update rfl
  · rw [heq]
    exact h.keepsOutcomes_update (execution_some hexec).1

theorem Settling.keepsOutcomes_process (h : Settling e []) (symbol : String) (timestamp : ℤ) :
    KeepsOutcomes e (e.process symbol timestamp).1 := by
  refine (process_invariant (fun e' todo => Settling e' todo ∧ KeepsOutcomes e e') ?_
    ⟨h.takeDue symbol timestamp, ?_⟩).2
  · intro e' pending rest hboth
    exact ⟨hboth.1.fillOrder, hboth.2.trans hboth.1.keepsOutcomes_fillOrder⟩
  · exact KeepsOutcomes.refl e

/-- **What a call keeps** that cancels no pending order. -/
theorem Settling.serve (h : Settling e []) {call : ServiceCall} (hwf : e.WellFormedCall call)
    (hcancel : e.CancelsNoPending call) :
    Settling (e.serve call) [] ∧ KeepsOutcomes e (e.serve call) := by
  cases call with
  | createOrder placed =>
    refine ⟨h.createOrder hwf.1, ?_⟩
    intro order horder _
    simp only [BacktestExecutionEngine.serve, createOrder_eq]
    exact ⟨order, List.mem_append_left _ horder, rfl, rfl⟩
  | cancelOrder uuid =>
    simp only [BacktestExecutionEngine.serve, handleCancelOrder_eq_self hcancel]
    exact ⟨h, KeepsOutcomes.refl e⟩
  | process symbol timestamp => exact ⟨h.process symbol timestamp, h.keepsOutcomes_process _ _⟩

theorem booked_serve {initialBalance : ℚ} (h : Booked initialBalance e.account e.results)
    (call : ServiceCall) :
    Booked initialBalance (e.serve call).account (e.serve call).results := by
  cases call with
  | createOrder placed =>
    simp only [BacktestExecutionEngine.serve, createOrder_eq]
    exact h.of_eq rfl rfl
  | cancelOrder uuid => exact h.of_eq rfl rfl
  | process symbol timestamp => exact booked_process h symbol timestamp

/-- A pending order that is cancelled is still listed. -/
theorem not_oneOutcome_of_cancel (h : Settling e []) {initialBalance : ℚ} {uuid : String}
    (hcancel : ¬ e.CancelsNoPending (.cancelOrder uuid)) :
    ¬ OneOutcome initialBalance (e.handleCancelOrder uuid) := by
  intro hone
  simp only [CancelsNoPending, not_forall, not_not] at hcancel
  obtain ⟨order, horder, rfl, hstatus⟩ := hcancel
  have hcancelled : markCancelled order ∈ (e.handleCancelOrder order.uuid).account.orders :=
    List.mem_map.mpr ⟨order, horder, if_pos ⟨rfl, hstatus⟩⟩
  -- its entry is where it was
  have hqueue : (e.handleCancelOrder order.uuid).InQueue (markCancelled order) :=
    (h.inQueue_iff horder).mpr hstatus
  cases hone.outcome _ hcancelled with
  | pending hpending _ _ => cases hpending
  | completed hcompleted _ _ => cases hcompleted
  | cancelled _ hnot _ => exact hnot hqueue

/-- The invariant of the service. -/
structure Settled (initialBalance : ℚ) (e : BacktestExecutionEngine) : Prop where
  settling : Settling e []
  booked : Booked initialBalance e.account e.results

theorem settled_start (clock : BacktestClock) (datasets : Dict String BacktestDataSet)
    (model : ExecutionModel) (assets : Dict String Asset) (initialBalance : ℚ) :
    Settled initialBalance (start clock datasets model assets initialBalance) := by
  refine ⟨⟨List.nodup_nil, ?_, ?_, ?_, List.nodup_nil, ?_⟩, booked_new initialBalance⟩
  · intro symbol
    rfl
  · simp [start, SimulatedAccount.new]
  · simp [start]
  · simp

theorem Settled.serve {initialBalance : ℚ} (h : Settled initialBalance e) {call : ServiceCall}
    (hwf : e.WellFormedCall call) (hcancel : e.CancelsNoPending call) :
    Settled initialBalance (e.serve call) :=
  ⟨(h.settling.serve hwf hcancel).1, booked_serve h.booked call⟩

/-- After a call there is one outcome for every order exactly when the call cancels no pending
    order. -/
theorem Settled.oneOutcome_iff {initialBalance : ℚ} (h : Settled initialBalance e)
    {call : ServiceCall} (hwf : e.WellFormedCall call) :
    OneOutcome initialBalance (e.serve call) ↔ e.CancelsNoPending call := by
  constructor
  · intro hone
    cases call with
    | createOrder placed => trivial
    | cancelOrder uuid =>
      by_contra hcancel
      exact not_oneOutcome_of_cancel h.settling hcancel hone
    | process symbol timestamp => trivial
  · intro hcancel
    have hsettled := h.serve hwf hcancel
    exact hsettled.settling.oneOutcome hsettled.booked

/-- **Every order has one outcome and keeps it**, in every state that the requests lead to,
    exactly when no request cancels an order that is pending. -/
theorem one_outcome_iff_cancels_no_pending (clock : BacktestClock)
    (datasets : Dict String BacktestDataSet) (model : ExecutionModel) (assets : Dict String Asset)
    (initialBalance : ℚ) (calls : List ServiceCall)
    (hwf : Along serve WellFormedCall (start clock datasets model assets initialBalance) calls) :
    let e := start clock datasets model assets initialBalance
    ((∀ first, first <+: calls → OneOutcome initialBalance (run serve e first)) ∧
      ∀ first later, first <+: later → later <+: calls →
        KeepsOutcomes (run serve e first) (run serve e later)) ↔
      Along serve CancelsNoPending e calls := by
  intro e
  have hstart : Settled initialBalance e := settled_start clock datasets model assets initialBalance
  have hstep : ∀ e call, Settled initialBalance e →
      e.WellFormedCall call ∧ e.CancelsNoPending call → Settled initialBalance (e.serve call) :=
    fun e call h hboth => h.serve hboth.1 hboth.2
  have halong := along_iff_of_invariant
    (P := fun e call => e.WellFormedCall call ∧ OneOutcome initialBalance (e.serve call))
    (Settled initialBalance) (fun e call h => and_congr_right h.oneOutcome_iff) hstep hstart calls
  rw [along_and, along_and, and_iff_right hwf, and_iff_right hwf] at halong
  rw [← halong, forall_prefix_iff_along]
  constructor
  · exact fun h => h.1.2
  · intro hone
    refine ⟨⟨hstart.settling.oneOutcome hstart.booked, hone⟩, ?_⟩
    intro first later hfirst hlater
    obtain ⟨middle, rfl⟩ := hfirst
    -- each call keeps the outcomes, and so does every part of the run
    have hkeeps : Along serve (fun e call => KeepsOutcomes e (e.serve call)) e calls :=
      along_of_invariant (Settled initialBalance)
        (fun e call h hboth => ⟨hstep e call h hboth, (h.settling.serve hboth.1 hboth.2).2⟩)
        hstart (along_and.mpr ⟨hwf, halong.mp hone⟩)
    exact rel_between_of_along KeepsOutcomes.refl (fun _ _ _ => KeepsOutcomes.trans) hkeeps first
      middle hlater

end Outcomes

/-- One asset with one tick, and no latency, slippage or fees. -/
def oneTickEngine : BacktestExecutionEngine :=
  start (.new (Dict.ofList [("BTC_USD", [1000])]))
    (Dict.ofList [("BTC_USD", ⟨[⟨1000, 100⟩], by decide⟩)]) ⟨0, 0, 0⟩
    (Dict.ofList [("BTC_USD", ⟨"BTC", "USD", 2, "BACKTEST", none, none⟩)]) 1000

/-- An order to buy one coin at the tick. -/
def buyOne : Order := Order.new "order-1" "BACKTEST" "BTC_USD" 100 1 .buy 1000

/-- Ids and status of the orders. -/
def statuses (e : BacktestExecutionEngine) : List (String × Option OrderStatus) :=
  e.account.orders.map fun order => (order.uuid, order.status)

/-- An order that is cancelled after it has been completed keeps its outcome. -/
theorem one_outcome_of_late_cancel :
    let calls : List ServiceCall :=
      [.createOrder buyOne, .process "BTC_USD" 1000, .cancelOrder "order-1"]
    (∀ first, first <+: calls → OneOutcome 1000 (run serve oneTickEngine first)) ∧
      statuses (run serve oneTickEngine calls) = [("order-1", some .completed)] := by
  intro calls
  have hwf : Along serve WellFormedCall oneTickEngine calls := by
    refine ⟨⟨?_, by decide +kernel⟩, trivial, trivial, trivial⟩
    intro order horder
    cases horder
  have hcancel : Along serve CancelsNoPending oneTickEngine calls := by
    refine ⟨trivial, trivial, ?_, trivial⟩
    have hstatus : ∀ order ∈ (run serve oneTickEngine
        [.createOrder buyOne, .process "BTC_USD" 1000]).account.orders,
        order.status = some .completed := by decide +kernel
    intro order horder _
    rw [hstatus order horder]
    simp
  exact ⟨((one_outcome_iff_cancels_no_pending _ _ _ _ _ calls hwf).mpr hcancel).1,
    by decide +kernel⟩

/-- An order that is cancelled while it waits is still open, and is filled by the next tick. -/
theorem cancelled_order_is_filled :
    let calls : List ServiceCall :=
      [.createOrder buyOne, .cancelOrder "order-1", .process "BTC_USD" 1000]
    Along serve WellFormedCall oneTickEngine calls ∧
    statuses (run serve oneTickEngine (calls.take 2)) = [("order-1", some .cancelled)] ∧
    ((run serve oneTickEngine (calls.take 2)).getPendingOrders none).map (·.uuid) =
      ["order-1"] ∧
    statuses (run serve oneTickEngine calls) = [("order-1", some .completed)] ∧
    ¬ ((∀ first, first <+: calls → OneOutcome 1000 (run serve oneTickEngine first)) ∧
      ∀ first later, first <+: later → later <+: calls →
        KeepsOutcomes (run serve oneTickEngine first) (run serve oneTickEngine later)) := by
  intro calls
  refine ⟨?_, by decide +kernel, by decide +kernel, by decide +kernel, ?_⟩
  · refine ⟨⟨?_, by decide +kernel⟩, trivial, trivial, trivial⟩
    intro order horder
    cases horder
  · intro h
    have hcancelled : ∃ order ∈ (run serve oneTickEngine (calls.take 2)).account.orders,
        order.status = some .cancelled := by decide +kernel
    obtain ⟨order, horder, hstatus⟩ := hcancelled
    obtain ⟨order', horder', -, hstatus'⟩ :=
      h.2 (calls.take 2) calls (List.take_prefix 2 calls) (List.prefix_refl calls) order horder
        (.inr hstatus)
    have hcompleted : ∀ order ∈ (run serve oneTickEngine calls).account.orders,
        order.status = some .completed := by decide +kernel
    rw [hstatus, hcompleted order' horder'] at hstatus'
    cases hstatus'

end BacktestExecutionEngine

end CryptoTrading.Backtest
