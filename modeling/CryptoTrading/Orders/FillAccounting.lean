import Mathlib.Data.List.Induction
import CryptoTrading.Orders.UpdateSpec

/-!
# Fill accounting of the order manager

`_save_orders_to_database` books a completed order in two places: the journal, which
keeps each order id once, and the session, which books whatever it is given.  Both happen
before the unit of work commits, so a call that raises has booked all the updates it
reached.

The accounting state is therefore a function of the updates that were reached
(`ledgerOf_run`), one `book` step each.  Comparing the two places over that sequence:

- the session is what the journal entries give when no fill is repeated
  (`session_of_noRepeatedFill`);
- a repeated fill leaves one entry too many, for good (`excess_of_repeatedFill`).
-/

namespace CryptoTrading.Orders

open CryptoTrading.Lib CryptoTrading.Session

/-! ## §1 The two books -/

structure Ledger where
  journal : InMemoryTradingJournal
  session : SessionManager

def ledgerOf (m : OrderManager) : Ledger := ⟨m.tradingJournal, m.sessionManager⟩

/-- What an update does to the two books. -/
def book (l : Ledger) (order : Order) : Ledger :=
  if order.status = some .completed then
    ⟨l.journal.recordFill (l.session.fillCommitHash order),
      (l.session.recordOrderFill (l.session.fillCommitHash order)).manager⟩
  else l

@[simp] theorem fillCommitHash_status (sm : SessionManager) (order : Order) :
    (sm.fillCommitHash order).status = order.status :=
  (sameReport_fillCommitHash sm order).status_eq

@[simp] theorem fillCommitHash_uuid (sm : SessionManager) (order : Order) :
    (sm.fillCommitHash order).uuid = order.uuid :=
  (sameReport_fillCommitHash sm order).uuid_eq

@[simp] theorem fillCommitHash_tickerSymbol (sm : SessionManager) (order : Order) :
    (sm.fillCommitHash order).tickerSymbol = order.tickerSymbol :=
  (sameReport_fillCommitHash sm order).tickerSymbol_eq

@[simp] theorem popInFlight_sessionManager (m : OrderManager) (order : Order) :
    (m.popInFlight order).sessionManager = m.sessionManager := by
  unfold OrderManager.popInFlight
  split <;> rfl

@[simp] theorem popInFlight_tradingJournal (m : OrderManager) (order : Order) :
    (m.popInFlight order).tradingJournal = m.tradingJournal := by
  unfold OrderManager.popInFlight
  split <;> rfl

/-- Whether or not a statement raises, the update has been booked. -/
theorem processUpdate_ledger (m : OrderManager) (fault : DbFault) (i : ℕ) (uow : Database)
    (order : Order) :
    ledgerOf (m.processUpdate fault i uow order).1 = book (ledgerOf m) order := by
  have hstatus := fillCommitHash_status m.sessionManager order
  unfold OrderManager.processUpdate book
  simp only [ledgerOf]
  generalize m.sessionManager.fillCommitHash order = order' at *
  rw [hstatus]
  split
  · rename_i hcompleted
    rw [if_pos hcompleted]
    split <;> simp [OrderManager.publish]
  · rename_i hcancelled
    rw [hcancelled]
    simp [OrderManager.publish]
  · rename_i hcompleted _
    have hne : order.status ≠ some .completed := fun h => hcompleted h
    rw [if_neg hne]
    simp

/-- The updates of a loop whose body ran: all of them up to the first one that raises. -/
def processedFrom (fault : DbFault) : ℕ → OrderManager → Database → List Order → List Order
  | _, _, _, [] => []
  | i, m, uow, order :: rest =>
    order :: match m.processUpdate fault i uow order with
      | (_, none) => []
      | (m, some uow) => processedFrom fault (i + 1) m uow rest

/-- The updates of a call that were reached. -/
def processedOrders (m : OrderManager) (orders : List Order) (fault : DbFault) : List Order :=
  if m.database.raises fault .begin then [] else processedFrom fault 0 m m.database orders

theorem saveLoop_ledger (fault : DbFault) (i : ℕ) (m : OrderManager) (uow : Database)
    (orders : List Order) :
    ledgerOf (OrderManager.saveLoop fault i m uow orders).1 =
      run book (ledgerOf m) (processedFrom fault i m uow orders) := by
  induction orders generalizing i m uow with
  | nil => rfl
  | cons order rest ih =>
    have hstep := processUpdate_ledger m fault i uow order
    simp only [OrderManager.saveLoop, processedFrom, run_cons]
    rw [← hstep]
    rcases hres : m.processUpdate fault i uow order with ⟨m', committed⟩
    cases committed with
    | none => rfl
    | some uow' => exact ih (i + 1) m' uow'

/-- The books after a call are the books after the updates it reached. -/
theorem saveOrdersToDatabase_ledger (m : OrderManager) (orders : List Order) (fault : DbFault) :
    ledgerOf (m.saveOrdersToDatabase orders fault).1 =
      run book (ledgerOf m) (processedOrders m orders fault) := by
  unfold OrderManager.saveOrdersToDatabase processedOrders
  split
  · rfl
  · rw [← saveLoop_ledger]
    split
    · rename_i hres
      rw [hres]
    · rename_i hres
      rw [hres]
      split <;> rfl

/-! ## §2 Sequences of calls -/

/-- A call of `_save_orders_to_database`: by the websocket callback, by reconciliation or by
    a cancellation. -/
structure UpdateCall where
  orders : List Order
  fault : DbFault

def handleCall (m : OrderManager) (call : UpdateCall) : OrderManager :=
  (m.saveOrdersToDatabase call.orders call.fault).1

/-- All updates that the calls reached, in order. -/
def reachedUpdates : OrderManager → List UpdateCall → List Order
  | _, [] => []
  | m, call :: rest =>
    processedOrders m call.orders call.fault ++ reachedUpdates (handleCall m call) rest

theorem ledgerOf_run (m : OrderManager) (calls : List UpdateCall) :
    ledgerOf (run handleCall m calls) = run book (ledgerOf m) (reachedUpdates m calls) := by
  induction calls generalizing m with
  | nil => rfl
  | cons call rest ih =>
    rw [run_cons, ih, reachedUpdates, run_append, handleCall, saveOrdersToDatabase_ledger]

/-- Reconciliation and cancellation save their orders through such calls. -/
theorem saveEach_eq_run (fault : String → DbFault) (m : OrderManager) (orders : List Order) :
    m.saveEach fault orders =
      run handleCall m (orders.map fun order => ⟨[order], fault order.uuid⟩) := by
  unfold OrderManager.saveEach run
  rw [List.foldl_map]
  rfl

theorem reconcilePendingOrders_eq_run (m : OrderManager) (registered : List String)
    (reply : Order → OrderManager.ExchangeReply) (loadRaises : Bool) (fault : String → DbFault) :
    ∃ calls, m.reconcilePendingOrders registered reply loadRaises fault =
      run handleCall m calls := by
  unfold OrderManager.reconcilePendingOrders
  split
  · exact ⟨[], rfl⟩
  · exact ⟨_, saveEach_eq_run fault m _⟩

theorem cancelOpenOrders_eq_run (m : OrderManager) (accepted : Order → Bool) (loadRaises : Bool)
    (fault : String → DbFault) :
    ∃ calls, m.cancelOpenOrders accepted loadRaises fault = run handleCall m calls := by
  unfold OrderManager.cancelOpenOrders
  split
  · exact ⟨[], rfl⟩
  · exact ⟨_, saveEach_eq_run fault m _⟩

/-! ## §3 Journal and session over the reached updates -/

/-- Record the orders one by one, each of them once. -/
def recordAll (sm : SessionManager) (orders : List Order) : SessionManager :=
  orders.foldl (fun sm order => (sm.recordOrderFill order).manager) sm

theorem recordAll_concat (sm : SessionManager) (orders : List Order) (order : Order) :
    recordAll sm (orders ++ [order]) = ((recordAll sm orders).recordOrderFill order).manager := by
  unfold recordAll
  rw [List.foldl_append]
  rfl

/-- The books after the updates, starting with an empty journal. -/
def booksAfter (start : SessionManager) (updates : List Order) : Ledger :=
  run book ⟨InMemoryTradingJournal.empty, start⟩ updates

theorem booksAfter_concat (start : SessionManager) (updates : List Order) (order : Order) :
    booksAfter start (updates ++ [order]) = book (booksAfter start updates) order :=
  run_concat book _ updates order

/-- Booking creates no contexts. -/
theorem isSome_findContext_booksAfter (start : SessionManager) (updates : List Order)
    (sym : String) :
    ((booksAfter start updates).session.findContext sym).isSome =
      (start.findContext sym).isSome := by
  induction updates using List.reverseRecOn with
  | nil => rfl
  | append_singleton rest order ih =>
    rw [booksAfter_concat, ← ih]
    unfold book
    split
    · exact SessionManager.isSome_findContext_recordOrderFill _ _ sym
    · rfl

theorem isSome_findContext_recordAll (sm : SessionManager) (orders : List Order) (sym : String) :
    ((recordAll sm orders).findContext sym).isSome = (sm.findContext sym).isSome := by
  induction orders using List.reverseRecOn with
  | nil => rfl
  | append_singleton rest order ih =>
    rw [recordAll_concat, SessionManager.isSome_findContext_recordOrderFill, ih]

/-- Whether a completed update of the order id was reached. -/
def FillReached (updates : List Order) (uuid : String) : Prop :=
  ∃ order ∈ updates, order.status = some .completed ∧ order.uuid = uuid

/-- The journal knows exactly the order ids whose fill was reached. -/
theorem isRecorded_booksAfter (start : SessionManager) (updates : List Order) (uuid : String) :
    (booksAfter start updates).journal.isRecorded uuid = true ↔ FillReached updates uuid := by
  induction updates using List.reverseRecOn with
  | nil =>
    simp [booksAfter, InMemoryTradingJournal.empty, InMemoryTradingJournal.isRecorded, FillReached]
  | append_singleton rest order ih =>
    rw [booksAfter_concat]
    have hsplit : FillReached (rest ++ [order]) uuid ↔
        FillReached rest uuid ∨ (order.status = some .completed ∧ order.uuid = uuid) := by
      simp [FillReached, or_and_right, exists_or]
    rw [hsplit, ← ih]
    unfold book
    by_cases hcompleted : order.status = some .completed
    -- a fill: the journal takes it unless it has the order id
    · rw [if_pos hcompleted]
      simp only [InMemoryTradingJournal.recordFill, fillCommitHash_status, hcompleted,
        fillCommitHash_uuid, true_and, ne_eq, not_true_eq_false, ↓reduceIte]
      by_cases hrec : (booksAfter start rest).journal.isRecorded order.uuid = true
      · rw [if_pos hrec]
        constructor
        · exact Or.inl
        · rintro (h | rfl)
          · exact h
          · exact hrec
      · rw [if_neg hrec]
        simp [InMemoryTradingJournal.isRecorded]
    · rw [if_neg hcompleted]
      simp [hcompleted]

/-- No fill of a symbol with a context is reached twice. -/
def NoRepeatedFill (start : SessionManager) (updates : List Order) : Prop :=
  ∀ before order after, updates = before ++ order :: after → order.status = some .completed →
    (start.findContext order.tickerSymbol).isSome → ¬ FillReached before order.uuid

theorem noRepeatedFill_concat (start : SessionManager) (updates : List Order) (order : Order) :
    NoRepeatedFill start (updates ++ [order]) ↔
      NoRepeatedFill start updates ∧
        (order.status = some .completed → (start.findContext order.tickerSymbol).isSome →
          ¬ FillReached updates order.uuid) := by
  constructor
  · intro h
    refine ⟨?_, h updates order [] rfl⟩
    intro before o after heq
    exact h before o (after ++ [order]) (by rw [heq, List.append_assoc, List.cons_append])
  · rintro ⟨hrest, hlast⟩ before o after heq
    rcases List.eq_nil_or_concat after with rfl | ⟨after', last, rfl⟩
    -- the split is at the last update
    · obtain ⟨rfl, hsing⟩ := List.append_inj' heq rfl
      obtain rfl := List.singleton_inj.mp hsing
      exact hlast
    · rw [List.concat_eq_append, ← List.cons_append, ← List.append_assoc] at heq
      obtain ⟨rfl, -⟩ := List.append_inj' heq rfl
      exact hrest before o after' rfl

/-- Without repeated fills the session is what the journal entries give. -/
theorem session_of_noRepeatedFill (start : SessionManager) (updates : List Order)
    (h : NoRepeatedFill start updates) :
    (booksAfter start updates).session =
      recordAll start (booksAfter start updates).journal.entries := by
  induction updates using List.reverseRecOn with
  | nil => rfl
  | append_singleton rest order ih =>
    obtain ⟨hrest, hlast⟩ := (noRepeatedFill_concat start rest order).mp h
    have hsame := ih hrest
    rw [booksAfter_concat]
    unfold book
    by_cases hcompleted : order.status = some .completed
    · rw [if_pos hcompleted]
      simp only [InMemoryTradingJournal.recordFill, fillCommitHash_status, hcompleted,
        fillCommitHash_uuid, ne_eq, not_true_eq_false, ↓reduceIte]
      by_cases hrec : (booksAfter start rest).journal.isRecorded order.uuid = true
      -- a repetition can only concern a symbol without a context
      · have hreached := (isRecorded_booksAfter start rest order.uuid).mp hrec
        have hnone : ¬ (start.findContext order.tickerSymbol).isSome = true := fun hsome =>
          hlast hcompleted hsome hreached
        rw [← isSome_findContext_booksAfter start rest, Option.not_isSome_iff_eq_none] at hnone
        rw [if_pos hrec, SessionManager.recordOrderFill_of_none (by simpa using hnone)]
        exact hsame
      · rw [if_neg hrec, recordAll_concat, ← hsame]
    · rw [if_neg hcompleted]
      exact hsame

/-! ## §4 Repeated fills stay visible -/

/-- How many entries the journal accounts for. -/
def journalCount (start : SessionManager) (l : Ledger) (sym : String) : ℕ :=
  (recordAll start l.journal.entries).entryCount sym

/-- The fill of an update counts for a symbol when the update is a fill of the symbol and
    the symbol has a context. -/
def Counts (start : SessionManager) (order : Order) (sym : String) : Prop :=
  order.status = some .completed ∧ order.tickerSymbol = sym ∧ (start.findContext sym).isSome

instance (start : SessionManager) (order : Order) (sym : String) :
    Decidable (Counts start order sym) :=
  inferInstanceAs (Decidable (_ ∧ _ ∧ _))

/-- The session takes every fill that counts. -/
theorem entryCount_book (start : SessionManager) (updates : List Order) (order : Order)
    (sym : String) :
    (booksAfter start (updates ++ [order])).session.entryCount sym =
      (booksAfter start updates).session.entryCount sym +
        if Counts start order sym then 1 else 0 := by
  rw [booksAfter_concat]
  have hctx := isSome_findContext_booksAfter start updates sym
  unfold book Counts
  by_cases hcompleted : order.status = some .completed
  · rw [if_pos hcompleted]
    simp only [SessionManager.entryCount_recordOrderFill, fillCommitHash_tickerSymbol, hctx,
      hcompleted, true_and]
  · simp [hcompleted]

/-- The journal takes those that are new to it. -/
theorem journalCount_book (start : SessionManager) (updates : List Order) (order : Order)
    (sym : String) :
    journalCount start (booksAfter start (updates ++ [order])) sym =
      journalCount start (booksAfter start updates) sym +
        if Counts start order sym ∧
          (booksAfter start updates).journal.isRecorded order.uuid = false then 1 else 0 := by
  rw [booksAfter_concat]
  unfold book journalCount Counts
  by_cases hcompleted : order.status = some .completed
  · rw [if_pos hcompleted]
    simp only [InMemoryTradingJournal.recordFill, fillCommitHash_status, hcompleted,
      fillCommitHash_uuid, ne_eq, not_true_eq_false, ↓reduceIte]
    by_cases hrec : (booksAfter start updates).journal.isRecorded order.uuid = true
    · rw [if_pos hrec]
      simp [hrec]
    · rw [if_neg hrec, recordAll_concat, SessionManager.entryCount_recordOrderFill,
        isSome_findContext_recordAll, fillCommitHash_tickerSymbol]
      simp [hrec]
  · simp [hcompleted]

/-- The session never has fewer entries than the journal accounts for. -/
theorem journalCount_le_entryCount (start : SessionManager) (updates : List Order)
    (sym : String) :
    journalCount start (booksAfter start updates) sym ≤
      (booksAfter start updates).session.entryCount sym := by
  induction updates using List.reverseRecOn with
  | nil => exact le_refl _
  | append_singleton rest order ih =>
    rw [entryCount_book, journalCount_book]
    by_cases hcounts : Counts start order sym
    · simp only [hcounts, true_and, ↓reduceIte]
      split <;> omega
    · simp only [hcounts, false_and, ↓reduceIte]
      omega

/-- A repeated fill leaves one entry too many, and no later update takes it away. -/
theorem excess_of_repeatedFill (start : SessionManager) (updates : List Order)
    (h : ¬ NoRepeatedFill start updates) :
    ∃ sym, journalCount start (booksAfter start updates) sym <
      (booksAfter start updates).session.entryCount sym := by
  induction updates using List.reverseRecOn with
  | nil =>
    refine absurd ?_ h
    intro before order after heq
    simp at heq
  | append_singleton rest order ih =>
    by_cases hrest : NoRepeatedFill start rest
    -- the last update is the repetition
    · rw [noRepeatedFill_concat] at h
      push Not at h
      obtain ⟨hcompleted, hctx, hreached⟩ := h hrest
      have hrec := (isRecorded_booksAfter start rest order.uuid).mpr hreached
      have hcounts : Counts start order order.tickerSymbol := ⟨hcompleted, rfl, hctx⟩
      have hle := journalCount_le_entryCount start rest order.tickerSymbol
      refine ⟨order.tickerSymbol, ?_⟩
      rw [entryCount_book, journalCount_book, if_pos hcounts, if_neg (by simp [hrec])]
      omega
    -- an earlier repetition: the last update adds at least as much to the session
    · obtain ⟨sym, hlt⟩ := ih hrest
      refine ⟨sym, ?_⟩
      rw [entryCount_book, journalCount_book]
      by_cases hcounts : Counts start order sym
      · simp only [hcounts, true_and, ↓reduceIte]
        split <;> omega
      · simp only [hcounts, false_and, ↓reduceIte]
        omega

/-! ## §5 Exactly-once accounting -/

/-- Every completed order id that was reported is in the journal, and the session has for
    each symbol the entries, the position and the realized profit that recording each
    journal entry once gives. -/
def FillsRecordedOnce (start : SessionManager) (calls : List UpdateCall) (m : OrderManager) :
    Prop :=
  (∀ call ∈ calls, ∀ order ∈ call.orders, order.status = some .completed →
    m.tradingJournal.isRecorded order.uuid = true) ∧
  ∀ sym, m.sessionManager.fillSummary sym =
    (recordAll start m.tradingJournal.entries).fillSummary sym

/-- Every completed order id that was reported is reached by some call, that is, not only
    reported behind an update whose database work raises. -/
def EveryFillReached (calls : List UpdateCall) (updates : List Order) : Prop :=
  ∀ call ∈ calls, ∀ order ∈ call.orders, order.status = some .completed →
    FillReached updates order.uuid

/-- **Exactly-once fill accounting.** For every sequence of update calls, with any database errors,
    the session agrees with the journal on every reported fill exactly when every fill is reached
    and no fill of a symbol with a trading context is reached twice.

    The journal skips an id that it has, `record_order_fill` does not.  A fill is not reached when
    its call cannot open its unit of work, or when the statement of an update in front of it raises.
    -/
theorem fillsRecordedOnce_iff (database : Database) (start : SessionManager)
    (synchronousExecution : Bool) (calls : List UpdateCall) :
    FillsRecordedOnce start calls
        (run handleCall (OrderManager.new database start synchronousExecution) calls) ↔
      EveryFillReached calls
          (reachedUpdates (OrderManager.new database start synchronousExecution) calls) ∧
        NoRepeatedFill start
          (reachedUpdates (OrderManager.new database start synchronousExecution) calls) := by
  have hledger : ledgerOf
      (run handleCall (OrderManager.new database start synchronousExecution) calls) =
      booksAfter start
        (reachedUpdates (OrderManager.new database start synchronousExecution) calls) :=
    ledgerOf_run _ calls
  generalize run handleCall (OrderManager.new database start synchronousExecution) calls = m at *
  generalize reachedUpdates (OrderManager.new database start synchronousExecution) calls =
    updates at *
  have hjournal : m.tradingJournal = (booksAfter start updates).journal :=
    congrArg Ledger.journal hledger
  have hsession : m.sessionManager = (booksAfter start updates).session :=
    congrArg Ledger.session hledger
  unfold FillsRecordedOnce EveryFillReached
  simp only [hjournal, hsession, isRecorded_booksAfter]
  -- the journal part is the first condition; what is left is about the session
  refine and_congr_right fun _ => ⟨?_, ?_⟩
  · intro hagree
    -- the entry too many shows in the summary of its symbol
    by_contra hrepeated
    obtain ⟨sym, hlt⟩ := excess_of_repeatedFill start updates hrepeated
    have hcount := SessionManager.entryCount_of_fillSummary_eq (hagree sym)
    unfold journalCount at hlt
    omega
  · intro hnone sym
    rw [session_of_noRepeatedFill start updates hnone]

/-- A running session with one context. -/
def oneContextSession : SessionManager where
  currentSession := some
    { sessionId := "s1"
      tradingContexts := Dict.empty.set "BTC_USD-BINANCE"
        (TradingContext.new "BTC_USD" "BINANCE" 1000 (some "abc"))
      commitHash := some "abc" }
  isRunning := true
  headCommitHash := none

/-- The fill of a purchase of two units at 10. -/
def completedBuy : Order :=
  { Order.new "u1" "BINANCE" "BTC_USD" 10 2 .buy 0 with
    status := some .completed
    executedTime := some 1 }

/-- The same fill, delivered by the websocket and again by reconciliation, is booked twice
    in the session and once in the journal. -/
theorem fill_delivered_twice_recorded_twice :
    ¬ FillsRecordedOnce oneContextSession [⟨[completedBuy], noFault⟩, ⟨[completedBuy], noFault⟩]
      (run handleCall (OrderManager.new (.sql Dict.empty []) oneContextSession false)
        [⟨[completedBuy], noFault⟩, ⟨[completedBuy], noFault⟩]) := by
  rintro ⟨-, hagree⟩
  have hsym := hagree "BTC_USD"
  revert hsym
  decide +kernel

end CryptoTrading.Orders
