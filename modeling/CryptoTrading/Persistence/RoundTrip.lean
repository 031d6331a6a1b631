import CryptoTrading.Persistence.EntityMappers
import Mathlib.Algebra.Order.Field.Rat

/-!
# What comes back from the database

An entity that is written to its row and read back is the entity except for a few fields, and
these are computed here for every entity (`order_roundTrip`, `trade_roundTrip`,
`session_roundTrip`):

- an order loses its slippage;
- a trade loses the votes of its exit, and an empty dictionary of entry attributions;
- a session loses the warm-up start of its request, takes the ticker of the session for that of
  the request, and has the start and the end of its data for its own start and completion when
  these are missing.
-/

namespace CryptoTrading.Persistence

open CryptoTrading.Lib

variable {D F : Type} (decimal : TextForm D) (isoformat : TextForm Datetime)

@[simp] theorem mapM_ofText_map_toText {A : Type} (form : TextForm A) (value : Option A) :
    (value.map form.toText).mapM form.ofText = some value := by
  cases value with
  | none => rfl
  | some a =>
    show (form.ofText (form.toText a)).map some = some (some a)
    rw [form.ofText_toText]
    rfl

/-! ## §1 Orders -/

theorem getText_orderMetadata (order : Order D F) :
    getText (orderMetadata order) "winning_strategy" = order.winningStrategy ∧
      getText (orderMetadata order) "regime" = order.regime := by
  constructor
  · cases h : order.winningStrategy <;> simp [getText, orderMetadata, get?_putSome, h]
  · cases h : order.regime <;> simp [getText, orderMetadata, get?_putSome, h]

theorem getDicts_orderMetadata (order : Order D F) :
    getTexts (orderMetadata order) "strategy_votes" = order.strategyVotes ∧
      getNumbers (orderMetadata order) "strategy_attributions" = order.strategyAttributions := by
  constructor
  · cases h : order.strategyVotes <;> simp [getTexts, orderMetadata, get?_putSome, h]
  · cases h : order.strategyAttributions <;> simp [getNumbers, orderMetadata, get?_putSome, h]

/-- An order comes back without its slippage. -/
theorem order_roundTrip {order : Order D F} (h : order.status ≠ none) :
    (order.mapToDb decimal).bind (·.mapToEntity decimal) =
      some { order with slippage := none } := by
  obtain ⟨status, hstatus⟩ := Option.ne_none_iff_exists'.mp h
  obtain ⟨hwinner, hregime⟩ := getText_orderMetadata order
  obtain ⟨hvotes, hattributions⟩ := getDicts_orderMetadata order
  simp [Order.mapToDb, OrderDao.mapToEntity, hstatus, orderStatusOfColumn, orderStatusValue_ne,
    orEmpty_orNull, hwinner, hregime, hvotes, hattributions]

/-! ## §2 Trades -/

section Trades

variable (trade : Trade D F)

theorem getText_tradeMetadata :
    getText (tradeMetadata trade) "commit_hash" = trade.commitHash ∧
      getText (tradeMetadata trade) "winning_strategy" = trade.winningStrategy ∧
      getText (tradeMetadata trade) "exit_winning_strategy" = trade.exitWinningStrategy ∧
      getText (tradeMetadata trade) "entry_regime" = trade.entryRegime ∧
      getText (tradeMetadata trade) "exit_regime" = trade.exitRegime := by
  refine ⟨?_, ?_, ?_, ?_, ?_⟩
  · cases h : trade.commitHash <;> simp [getText, tradeMetadata, get?_putSome, get?_put, h]
  · cases h : trade.winningStrategy <;> simp [getText, tradeMetadata, get?_putSome, get?_put, h]
  · cases h : trade.exitWinningStrategy <;>
      simp [getText, tradeMetadata, get?_putSome, get?_put, h]
  · cases h : trade.entryRegime <;> simp [getText, tradeMetadata, get?_putSome, get?_put, h]
  · cases h : trade.exitRegime <;> simp [getText, tradeMetadata, get?_putSome, get?_put, h]

theorem getTexts_tradeMetadata :
    getTexts (tradeMetadata trade) "strategy_votes" = trade.strategyVotes := by
  cases h : trade.strategyVotes <;> simp [getTexts, tradeMetadata, get?_putSome, get?_put, h]

theorem getNumbers_tradeMetadata :
    getNumbers (tradeMetadata trade) "entry_strategy_attributions" =
        trade.entryStrategyAttributions ∧
      getNumbers (tradeMetadata trade) "strategy_attributions" = none ∧
      getNumbers (tradeMetadata trade) "exit_strategy_attributions" =
        trade.exitStrategyAttributions := by
  refine ⟨?_, ?_, ?_⟩
  · cases h : trade.entryStrategyAttributions <;>
      simp [getNumbers, tradeMetadata, get?_putSome, get?_put, h]
  · simp [getNumbers, tradeMetadata, get?_putSome, get?_put]
  · cases h : trade.exitStrategyAttributions <;>
      simp [getNumbers, tradeMetadata, get?_putSome, get?_put, h]

/-- A trade comes back without the votes of its exit, and with no entry attributions for empty
    ones. -/
theorem trade_roundTrip [Zero F] :
    (trade.mapToDb decimal).mapToEntity decimal =
      some { trade with
        entryStrategyAttributions := firstNonEmpty trade.entryStrategyAttributions none
        exitStrategyVotes := none } := by
  obtain ⟨hcommit, hwinner, hexitWinner, hentryRegime, hexitRegime⟩ := getText_tradeMetadata trade
  obtain ⟨hentry, hlegacy, hexit⟩ := getNumbers_tradeMetadata trade
  simp [Trade.mapToDb, TradeDao.mapToEntity, orZero, orEmpty, hcommit, hwinner, hexitWinner,
    hentryRegime, hexitRegime, hentry, hlegacy, hexit, getTexts_tradeMetadata]

end Trades

/-! ## §3 Backtest sessions -/

@[simp] theorem readTime_map_toText (time : Option Datetime) :
    readTime isoformat (time.map isoformat.toText) = some time := by
  cases time with
  | none => rfl
  | some t => simp [readTime]

/-- A time as a date column returns it. -/
def Datetime.inColumn (time : Datetime) : Datetime := .aware time.toColumn

/-- A session comes back with a request that has its ticker and no warm-up, with aware times, and
    with times in the place of missing ones. -/
theorem session_roundTrip (defaultLatency : F) (session : BacktestSession D F) :
    (session.sessionToDao decimal isoformat).daoToSession decimal isoformat defaultLatency =
      some { session with
        request := { session.request with
          tickerSymbol := session.tickerSymbol
          warmupStartTime := none }
        createdAt := session.createdAt.inColumn
        startedAt := (session.startedAt.map Datetime.inColumn).or session.request.startTime
        completedAt := ((session.completedAt.map Datetime.inColumn).or session.request.endTime).or
          (some ((session.completedAt.or session.startedAt).getD session.createdAt).inColumn)
        heartbeatAt := session.heartbeatAt.map Datetime.inColumn
        leaseExpiresAt := session.leaseExpiresAt.map Datetime.inColumn } := by
  have hcolumn : Datetime.inColumn = fun time => Datetime.aware time.toColumn := rfl
  simp [BacktestSession.sessionToDao, BacktestSessionDao.daoToSession, hcolumn, Function.comp_def]

/-! ## §4 What survives -/

def Datetime.IsAware (time : Datetime) : Prop := time.inColumn = time

/-- The times of the session itself, as far as they are given. -/
def BacktestSession.ownTimes (session : BacktestSession D F) : List Datetime :=
  session.createdAt :: (session.startedAt.toList ++ session.completedAt.toList ++
    session.heartbeatAt.toList ++ session.leaseExpiresAt.toList)

/-- Nothing of the session is dropped, replaced or turned into an aware time. -/
structure SessionSurvives (session : BacktestSession D F) : Prop where
  ticker : session.request.tickerSymbol = session.tickerSymbol
  warmup : session.request.warmupStartTime = none
  started : session.startedAt = none → session.request.startTime = none
  completed : session.completedAt ≠ none
  aware : ∀ time ∈ session.ownTimes, time.IsAware

theorem order_eq_iff (order : Order D F) :
    { order with slippage := none } = order ↔ order.slippage = none := by
  constructor
  · intro h
    rw [← h]
  · intro h
    rw [← h]

theorem firstNonEmpty_eq_iff (attributions : Option (Dict String F)) :
    firstNonEmpty attributions none = attributions ↔ attributions ≠ some .empty := by
  cases attributions with
  | none => simp [firstNonEmpty]
  | some d =>
    unfold firstNonEmpty
    by_cases hempty : d.entries = []
    · obtain rfl : d = .empty := Dict.ext_entries hempty
      show (if Dict.empty.entries = [] then none else some Dict.empty) = _ ↔ _
      rw [if_pos hempty]
      simp
    · have hd : d ≠ .empty := fun h => hempty (h ▸ rfl)
      simp [hempty, hd]

theorem trade_eq_iff (trade : Trade D F) :
    { trade with
      entryStrategyAttributions := firstNonEmpty trade.entryStrategyAttributions none
      exitStrategyVotes := none } = trade ↔
      trade.exitStrategyVotes = none ∧ trade.entryStrategyAttributions ≠ some .empty := by
  rw [← firstNonEmpty_eq_iff]
  constructor
  · intro h
    exact ⟨(congrArg Trade.exitStrategyVotes h).symm, congrArg Trade.entryStrategyAttributions h⟩
  · intro ⟨hvotes, hattributions⟩
    rw [hattributions, ← hvotes]

/-- A given time survives when it is aware, a missing one when nothing takes its place. -/
theorem map_inColumn_or_eq_iff (time fallback : Option Datetime) :
    (time.map Datetime.inColumn).or fallback = time ↔
      (∀ t ∈ time, t.IsAware) ∧ (time = none → fallback = none) := by
  cases time with
  | none => simp
  | some t => simp [Datetime.IsAware]

theorem session_eq_iff (session : BacktestSession D F) :
    { session with
      request := { session.request with
        tickerSymbol := session.tickerSymbol
        warmupStartTime := none }
      createdAt := session.createdAt.inColumn
      startedAt := (session.startedAt.map Datetime.inColumn).or session.request.startTime
      completedAt := ((session.completedAt.map Datetime.inColumn).or session.request.endTime).or
        (some ((session.completedAt.or session.startedAt).getD session.createdAt).inColumn)
      heartbeatAt := session.heartbeatAt.map Datetime.inColumn
      leaseExpiresAt := session.leaseExpiresAt.map Datetime.inColumn } = session ↔
      SessionSurvives session := by
  -- a time without a fallback survives if it is given with its zone, or not given
  have hmissing (time : Option Datetime) :
      time.map Datetime.inColumn = time ↔ ∀ t ∈ time, t.IsAware := by
    have hor := map_inColumn_or_eq_iff time none
    rw [Option.or_none] at hor
    rw [hor]
    simp
  constructor
  · -- field by field
    intro h
    have hstarted := (map_inColumn_or_eq_iff _ _).mp (congrArg BacktestSession.startedAt h)
    have hcompleted := congrArg BacktestSession.completedAt h
    rw [Option.or_assoc] at hcompleted
    have hcompleted := (map_inColumn_or_eq_iff _ _).mp hcompleted
    -- the last fallback of the completion is always a time
    have hgiven : session.completedAt ≠ none := by
      intro hnone
      have hfallback := hcompleted.2 hnone
      simp at hfallback
    refine ⟨(congrArg (·.request.tickerSymbol) h).symm,
      (congrArg (·.request.warmupStartTime) h).symm,
      hstarted.2, hgiven, ?_⟩
    intro time htime
    simp only [BacktestSession.ownTimes, List.mem_cons, List.mem_append, Option.mem_toList] at htime
    rcases htime with rfl | ((htime | htime) | htime) | htime
    · exact congrArg BacktestSession.createdAt h
    · exact hstarted.1 time htime
    · exact hcompleted.1 time htime
    · exact (hmissing _).mp (congrArg BacktestSession.heartbeatAt h) time htime
    · exact (hmissing _).mp (congrArg BacktestSession.leaseExpiresAt h) time htime
  · -- each time is aware, so the columns give it back
    intro h
    have hown : ∀ time : Option Datetime, (∀ t ∈ time, t ∈ session.ownTimes) →
        ∀ t ∈ time, t.IsAware := fun _ hmem t ht => h.aware t (hmem t ht)
    have hrequest : { session.request with
        tickerSymbol := session.tickerSymbol
        warmupStartTime := none } = session.request := by
      rw [← h.ticker, ← h.warmup]
    have hcreated : session.createdAt.inColumn = session.createdAt :=
      h.aware session.createdAt List.mem_cons_self
    have hstarted := (map_inColumn_or_eq_iff session.startedAt session.request.startTime).mpr
      ⟨hown _ fun t ht => by simp_all [BacktestSession.ownTimes], h.started⟩
    have hcompleted := (map_inColumn_or_eq_iff session.completedAt (session.request.endTime.or
        (some ((session.completedAt.or session.startedAt).getD session.createdAt).inColumn))).mpr
      ⟨hown _ fun t ht => by simp_all [BacktestSession.ownTimes],
        fun hnone => absurd hnone h.completed⟩
    have hheartbeat := (hmissing session.heartbeatAt).mpr
      (hown _ fun t ht => by simp_all [BacktestSession.ownTimes])
    have hlease := (hmissing session.leaseExpiresAt).mpr
      (hown _ fun t ht => by simp_all [BacktestSession.ownTimes])
    rw [Option.or_assoc, hcompleted, hrequest, hcreated, hstarted, hheartbeat, hlease]

/-! ## §5 The round trip -/

/-- **What survives the database.** An order survives the round trip exactly without slippage, a
    trade without votes of its exit and without an empty dictionary of entry attributions, and a
    session when it has no warm-up start, the ticker of its request, its own times, and a
    completion.

    The mappers leave these fields out or fill them from others; every other field of the three
    comes back as it was. -/
theorem roundTrip_eq_iff [Zero F] (defaultLatency : F) :
    (∀ order : Order D F, order.status ≠ none →
      ((order.mapToDb decimal).bind (·.mapToEntity decimal) = some order ↔ order.slippage = none)) ∧
    (∀ trade : Trade D F, (trade.mapToDb decimal).mapToEntity decimal = some trade ↔
      trade.exitStrategyVotes = none ∧ trade.entryStrategyAttributions ≠ some .empty) ∧
    (∀ session : BacktestSession D F,
      (session.sessionToDao decimal isoformat).daoToSession decimal isoformat defaultLatency =
        some session ↔ SessionSurvives session) := by
  refine ⟨fun order hstatus => ?_, fun trade => ?_, fun session => ?_⟩
  · rw [order_roundTrip decimal hstatus, Option.some.injEq, order_eq_iff]
  · rw [trade_roundTrip decimal trade, Option.some.injEq, trade_eq_iff]
  · rw [session_roundTrip decimal isoformat defaultLatency session, Option.some.injEq,
      session_eq_iff]

/-! ## §6 The failing inputs -/

/-- A decimal as its own text. -/
abbrev DecimalText := { text : String // text ≠ "" }

def readDecimal (text : String) : Option DecimalText :=
  if h : text ≠ "" then some ⟨text, h⟩ else none

theorem readDecimal_val (d : DecimalText) : readDecimal d.val = some d := dif_pos d.property

def decimalText : TextForm DecimalText :=
  ⟨Subtype.val, readDecimal, readDecimal_val, Subtype.property⟩

def tally : ℤ → List Char
  | .ofNat n => '+' :: List.replicate n '|'
  | .negSucc n => '-' :: List.replicate n '|'

/-- Some text for a time; the requests below have no times. -/
def writeTime : Datetime → String
  | .naive micros => String.ofList ('n' :: tally micros)
  | .aware micros => String.ofList ('a' :: tally micros)

def readTally (text : String) : Option Datetime :=
  match text.toList with
  | 'n' :: '+' :: marks => some (.naive (.ofNat marks.length))
  | 'n' :: '-' :: marks => some (.naive (.negSucc marks.length))
  | 'a' :: '+' :: marks => some (.aware (.ofNat marks.length))
  | 'a' :: '-' :: marks => some (.aware (.negSucc marks.length))
  | _ => none

theorem readTally_writeTime (time : Datetime) : readTally (writeTime time) = some time := by
  rcases time with (n | n) | (n | n) <;> simp [readTally, writeTime, tally]

theorem writeTime_ne (time : Datetime) : writeTime time ≠ "" := by
  rcases time with (n | n) | (n | n) <;> simp [writeTime, tally]

def tallyForm : TextForm Datetime := ⟨writeTime, readTally, readTally_writeTime, writeTime_ne⟩

theorem half_ne : "0.5" ≠ "" := by decide

def half : DecimalText := ⟨"0.5", half_ne⟩

/-- A filled order. -/
def filledOrder (slippage : Option DecimalText) : Order DecimalText ℚ where
  uuid := "o1"
  providerName := "CRYPTO_DOT_COM"
  tickerSymbol := "BTC_USD"
  price := half
  quantity := "2"
  tradeAction := .sell
  createdTime := 1000000
  commitHash := none
  executedTime := some 2000000
  status := some .completed
  fees := some half
  fillPrice := some half
  winningStrategy := some "rsi"
  strategyVotes := some (Dict.empty.set "rsi" "SELL")
  strategyAttributions := none
  slippage := slippage
  decisionId := none
  regime := none

/-- A trade whose exit was voted on. -/
def votedTrade : Trade DecimalText ℚ where
  tradeId := "t1"
  tickerSymbol := "BTC_USD"
  entryOrderUuid := "o0"
  exitOrderUuid := "o1"
  entryPrice := half
  exitPrice := half
  quantity := half
  grossPnl := half
  fees := half
  netPnl := half
  returnPct := half
  durationSeconds := 1
  entryTimestamp := 1000000
  exitTimestamp := 2000000
  slippage := half
  commitHash := none
  winningStrategy := none
  strategyVotes := none
  entryStrategyAttributions := none
  exitStrategyAttributions := none
  exitWinningStrategy := some "rsi"
  exitStrategyVotes := some (Dict.empty.set "rsi" "SELL")
  entryRegime := none
  exitRegime := none

/-- A session that waits in the queue. -/
def queuedSession : BacktestSession DecimalText ℚ where
  id := "bt_1"
  tickerSymbol := "BTC_USD"
  request := ⟨"BTC_USD", none, none, ⟨.csv, none, some "btc.csv"⟩, half, ⟨500, 2, half⟩, none⟩
  status := .queued
  createdAt := .aware 1000000
  startedAt := none
  completedAt := none
  workerId := none
  heartbeatAt := none
  leaseExpiresAt := none
  error := none

/-- The slippage of an order and the exit votes of a trade are lost, and a queued session comes
    back with a completion. -/
theorem roundTrip_loses :
    ((filledOrder (some half)).mapToDb decimalText).bind (·.mapToEntity decimalText) ≠
        some (filledOrder (some half)) ∧
      (votedTrade.mapToDb decimalText).mapToEntity decimalText ≠ some votedTrade ∧
      (queuedSession.sessionToDao decimalText tallyForm).daoToSession decimalText tallyForm 500 ≠
        some queuedSession := by
  refine ⟨?_, ?_, ?_⟩
  · rw [order_roundTrip decimalText (Option.some_ne_none _)]
    intro h
    cases congrArg Order.slippage (Option.some.inj h)
  · rw [trade_roundTrip decimalText votedTrade]
    intro h
    cases congrArg Trade.exitStrategyVotes (Option.some.inj h)
  · rw [session_roundTrip decimalText tallyForm 500 queuedSession]
    intro h
    cases congrArg BacktestSession.completedAt (Option.some.inj h)

/-- The order without slippage survives. -/
theorem roundTrip_filledOrder :
    ((filledOrder none).mapToDb decimalText).bind (·.mapToEntity decimalText) =
      some (filledOrder none) :=
  ((roundTrip_eq_iff decimalText tallyForm (500 : ℚ)).1 (filledOrder none)
    (Option.some_ne_none _)).mpr rfl

end CryptoTrading.Persistence
