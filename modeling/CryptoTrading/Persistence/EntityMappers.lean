import CryptoTrading.Api.Interfaces
import CryptoTrading.Lib.Dict
import Mathlib.Data.Option.Basic

/-!
# Orders, trades and backtest sessions as database rows

Embeds `OrderDBVSEntityMapper`, `TradeDBVSEntityMapper` and the session part of
`BacktestDBVSEntityMapper` (`src/database/repositories/mappers/`), with the entities they map
(`api/interfaces/order.py`, `trade.py`, `backtest_request.py` and
`src/backtest/domain/session.py`).

Decimals and floats are types of their own.  A decimal is written as a text and read back from it,
and so is a `datetime` in a JSON column (`TextForm`).  A date column returns an aware UTC time for
whatever was written to it, a JSON column what was stored; timestamps of orders and trades are
whole microseconds.  Columns that no mapper reads are left out.

`none` as the result of a mapper stands for the exception it raises.
-/

namespace CryptoTrading.Persistence

open CryptoTrading.Lib

/-! ## §1 Columns -/

/-- How the values of a type are written as texts and read back. -/
structure TextForm (A : Type) where
  toText : A → String
  ofText : String → Option A
  ofText_toText : ∀ a, ofText (toText a) = some a
  toText_ne : ∀ a, toText a ≠ ""

attribute [simp] TextForm.ofText_toText TextForm.toText_ne

/-- A `datetime`, in microseconds; a naive one has no time zone. -/
inductive Datetime where
  | naive (micros : ℤ)
  | aware (micros : ℤ)
  deriving DecidableEq

/-- The time that a date column keeps. -/
def Datetime.toColumn : Datetime → ℤ
  | .naive micros => micros
  | .aware micros => micros

/-- A value under a key of a metadata column. -/
inductive MetadataValue (F : Type) where
  | null
  | text (value : String)
  | texts (value : Dict String String)
  | numbers (value : Dict String F)

/-- A metadata column. -/
abbrev Metadata (F : Type) := Dict String (MetadataValue F)

section Metadata

variable {F : Type}

/-- `if value is not None: metadata[key] = value`. -/
def putSome (key : String) (value : Option (MetadataValue F)) (metadata : Metadata F) :
    Metadata F :=
  match value with
  | some v => metadata.set key v
  | none => metadata

/-- `metadata[key] = value` for a value that may be `None`. -/
def put (key : String) (value : Option (MetadataValue F)) (metadata : Metadata F) : Metadata F :=
  metadata.set key (value.getD .null)

theorem get?_putSome (key : String) (value : Option (MetadataValue F)) (metadata : Metadata F)
    (k : String) :
    (putSome key value metadata).get? k =
      if k = key then value.or (metadata.get? k) else metadata.get? k := by
  cases value with
  | none => simp [putSome]
  | some v => simp [putSome, Dict.get?_set]

theorem get?_put (key : String) (value : Option (MetadataValue F)) (metadata : Metadata F)
    (k : String) :
    (put key value metadata).get? k =
      if k = key then some (value.getD .null) else metadata.get? k :=
  Dict.get?_set metadata key k _

/-- `metadata.get(key)`, where a text is expected. -/
def getText (metadata : Metadata F) (key : String) : Option String :=
  match metadata.get? key with
  | some (.text value) => some value
  | _ => none

/-- `metadata.get(key)`, where a dictionary of texts is expected. -/
def getTexts (metadata : Metadata F) (key : String) : Option (Dict String String) :=
  match metadata.get? key with
  | some (.texts value) => some value
  | _ => none

/-- `metadata.get(key)`, where a dictionary of numbers is expected. -/
def getNumbers (metadata : Metadata F) (key : String) : Option (Dict String F) :=
  match metadata.get? key with
  | some (.numbers value) => some value
  | _ => none

/-- `metadata if metadata else None`, as it is written. -/
def orNull (metadata : Metadata F) : Option (Metadata F) :=
  if metadata.entries = [] then none else some metadata

/-- A metadata column read back, with no entries for `NULL`. -/
def orEmpty (metadata : Option (Metadata F)) : Metadata F := metadata.getD .empty

theorem orEmpty_orNull (metadata : Metadata F) : orEmpty (orNull metadata) = metadata := by
  unfold orEmpty orNull
  split
  case isTrue h => exact (Dict.ext_entries h).symm
  case isFalse => rfl

end Metadata

/-- `Enum(value)`: the member with this value. -/
def memberOf {A : Type} (members : List A) (value : A → String) (text : String) : Option A :=
  members.find? fun member => value member = text

/-! ## §2 Orders -/

def tradeActionValue : TradeAction → String
  | .buy => "BUY"
  | .sell => "SELL"

def tradeActionOf : String → Option TradeAction := memberOf [.buy, .sell] tradeActionValue

def orderStatusValue : OrderStatus → String
  | .pending => "PENDING"
  | .processing => "PROCESSING"
  | .completed => "COMPLETED"
  | .cancelled => "CANCELLED"
  | .rejected => "REJECTED"
  | .unknown => "UNKNOWN"
  | .reconciliationRequired => "RECONCILIATION_REQUIRED"

def orderStatusOf : String → Option OrderStatus :=
  memberOf [.pending, .processing, .completed, .cancelled, .rejected, .unknown,
    .reconciliationRequired] orderStatusValue

@[simp] theorem tradeActionOf_value (action : TradeAction) :
    tradeActionOf (tradeActionValue action) = some action := by
  cases action <;> rfl

@[simp] theorem orderStatusOf_value (status : OrderStatus) :
    orderStatusOf (orderStatusValue status) = some status := by
  cases status <;> rfl

theorem orderStatusValue_ne (status : OrderStatus) : orderStatusValue status ≠ "" := by
  cases status <;> decide

/-- `Order`; its quantity is a text. -/
structure Order (D F : Type) where
  uuid : String
  providerName : String
  tickerSymbol : String
  price : D
  quantity : String
  tradeAction : TradeAction
  createdTime : ℤ
  commitHash : Option String
  executedTime : Option ℤ
  status : Option OrderStatus
  fees : Option D
  fillPrice : Option D
  winningStrategy : Option String
  strategyVotes : Option (Dict String String)
  strategyAttributions : Option (Dict String F)
  slippage : Option D
  decisionId : Option String
  regime : Option String

/-- `OrderDao`. -/
structure OrderDao (F : Type) where
  uuid : String
  providerName : String
  tickerSymbol : String
  price : String
  quantity : String
  status : Option String
  tradeAction : String
  commitHash : Option String
  decisionId : Option String
  fees : Option String
  fillPrice : Option String
  createdTimestamp : ℤ
  executedTimestamp : Option ℤ
  metadata : Option (Metadata F)

variable {D F : Type} (decimal : TextForm D)

/-- The metadata of `OrderDBVSEntityMapper.map_to_db`. -/
def orderMetadata (order : Order D F) : Metadata F :=
  putSome "regime" (order.regime.map .text)
    (putSome "strategy_attributions" (order.strategyAttributions.map .numbers)
      (putSome "strategy_votes" (order.strategyVotes.map .texts)
        (putSome "winning_strategy" (order.winningStrategy.map .text) .empty)))

/-- `OrderDBVSEntityMapper.map_to_db`, which needs a status. -/
def Order.mapToDb (order : Order D F) : Option (OrderDao F) :=
  order.status.map fun status =>
    { uuid := order.uuid
      providerName := order.providerName
      tickerSymbol := order.tickerSymbol
      price := decimal.toText order.price
      quantity := order.quantity
      status := some (orderStatusValue status)
      tradeAction := tradeActionValue order.tradeAction
      commitHash := order.commitHash
      decisionId := order.decisionId
      fees := order.fees.map decimal.toText
      fillPrice := order.fillPrice.map decimal.toText
      createdTimestamp := order.createdTime
      executedTimestamp := order.executedTime
      metadata := orNull (orderMetadata order) }

/-- `OrderStatus(status) if status else OrderStatus.PENDING`. -/
def orderStatusOfColumn : Option String → Option OrderStatus
  | none => some .pending
  | some text => if text = "" then some .pending else orderStatusOf text

/-- `OrderDBVSEntityMapper.map_to_entity`. -/
def OrderDao.mapToEntity (dao : OrderDao F) : Option (Order D F) := do
  let metadata := orEmpty dao.metadata
  let price ← decimal.ofText dao.price
  let tradeAction ← tradeActionOf dao.tradeAction
  let status ← orderStatusOfColumn dao.status
  let fees ← dao.fees.mapM decimal.ofText
  let fillPrice ← dao.fillPrice.mapM decimal.ofText
  some
    { uuid := dao.uuid
      providerName := dao.providerName
      tickerSymbol := dao.tickerSymbol
      price := price
      quantity := dao.quantity
      tradeAction := tradeAction
      createdTime := dao.createdTimestamp
      commitHash := dao.commitHash
      executedTime := dao.executedTimestamp
      status := some status
      fees := fees
      fillPrice := fillPrice
      winningStrategy := getText metadata "winning_strategy"
      strategyVotes := getTexts metadata "strategy_votes"
      strategyAttributions := getNumbers metadata "strategy_attributions"
      -- not a keyword of the constructor call: the default of the entity
      slippage := none
      decisionId := dao.decisionId
      regime := getText metadata "regime" }

/-! ## §3 Trades -/

/-- `Trade`. -/
structure Trade (D F : Type) where
  tradeId : String
  tickerSymbol : String
  entryOrderUuid : String
  exitOrderUuid : String
  entryPrice : D
  exitPrice : D
  quantity : D
  grossPnl : D
  fees : D
  netPnl : D
  returnPct : D
  durationSeconds : F
  entryTimestamp : ℤ
  exitTimestamp : ℤ
  slippage : D
  commitHash : Option String
  winningStrategy : Option String
  strategyVotes : Option (Dict String String)
  entryStrategyAttributions : Option (Dict String F)
  exitStrategyAttributions : Option (Dict String F)
  exitWinningStrategy : Option String
  exitStrategyVotes : Option (Dict String String)
  entryRegime : Option String
  exitRegime : Option String

/-- `TradeDao`. -/
structure TradeDao (F : Type) where
  tradeId : String
  tickerSymbol : String
  entryOrderUuid : String
  exitOrderUuid : String
  entryPrice : String
  exitPrice : String
  quantity : String
  grossPnl : String
  fees : String
  slippage : Option String
  netPnl : String
  returnPct : String
  durationSeconds : Option F
  entryTimestamp : Option ℤ
  exitTimestamp : Option ℤ
  metadata : Option (Metadata F)

/-- The metadata of `TradeDBVSEntityMapper.map_to_db`. -/
def tradeMetadata (trade : Trade D F) : Metadata F :=
  putSome "exit_regime" (trade.exitRegime.map .text)
    (putSome "entry_regime" (trade.entryRegime.map .text)
      (putSome "exit_winning_strategy" (trade.exitWinningStrategy.map .text)
        (putSome "exit_strategy_attributions" (trade.exitStrategyAttributions.map .numbers)
          (putSome "entry_strategy_attributions" (trade.entryStrategyAttributions.map .numbers)
            (put "strategy_votes" (trade.strategyVotes.map .texts)
              (put "winning_strategy" (trade.winningStrategy.map .text)
                (put "commit_hash" (trade.commitHash.map .text) .empty)))))))

/-- `TradeDBVSEntityMapper.map_to_db`. -/
def Trade.mapToDb (trade : Trade D F) : TradeDao F where
  tradeId := trade.tradeId
  tickerSymbol := trade.tickerSymbol
  entryOrderUuid := trade.entryOrderUuid
  exitOrderUuid := trade.exitOrderUuid
  entryPrice := decimal.toText trade.entryPrice
  exitPrice := decimal.toText trade.exitPrice
  quantity := decimal.toText trade.quantity
  grossPnl := decimal.toText trade.grossPnl
  fees := decimal.toText trade.fees
  slippage := some (decimal.toText trade.slippage)
  netPnl := decimal.toText trade.netPnl
  returnPct := decimal.toText trade.returnPct
  durationSeconds := some trade.durationSeconds
  entryTimestamp := some trade.entryTimestamp
  exitTimestamp := some trade.exitTimestamp
  metadata := some (tradeMetadata trade)

/-- `text or "0"`. -/
def orZero : Option String → String
  | none => "0"
  | some text => if text = "" then "0" else text

/-- `first or second` of two dictionaries that may be missing. -/
def firstNonEmpty (first second : Option (Dict String F)) : Option (Dict String F) :=
  match first with
  | some d => if d.entries = [] then second else some d
  | none => second

/-- `TradeDBVSEntityMapper.map_to_entity`. -/
def TradeDao.mapToEntity [Zero F] (dao : TradeDao F) : Option (Trade D F) := do
  let metadata := orEmpty dao.metadata
  let entryPrice ← decimal.ofText dao.entryPrice
  let exitPrice ← decimal.ofText dao.exitPrice
  let quantity ← decimal.ofText dao.quantity
  let grossPnl ← decimal.ofText dao.grossPnl
  let fees ← decimal.ofText dao.fees
  let slippage ← decimal.ofText (orZero dao.slippage)
  let netPnl ← decimal.ofText dao.netPnl
  let returnPct ← decimal.ofText dao.returnPct
  some
    { tradeId := dao.tradeId
      tickerSymbol := dao.tickerSymbol
      entryOrderUuid := dao.entryOrderUuid
      exitOrderUuid := dao.exitOrderUuid
      entryPrice := entryPrice
      exitPrice := exitPrice
      quantity := quantity
      grossPnl := grossPnl
      fees := fees
      netPnl := netPnl
      returnPct := returnPct
      durationSeconds := dao.durationSeconds.getD 0
      entryTimestamp := dao.entryTimestamp.getD 0
      exitTimestamp := dao.exitTimestamp.getD 0
      slippage := slippage
      commitHash := getText metadata "commit_hash"
      winningStrategy := getText metadata "winning_strategy"
      strategyVotes := getTexts metadata "strategy_votes"
      entryStrategyAttributions := firstNonEmpty (getNumbers metadata "entry_strategy_attributions")
        (getNumbers metadata "strategy_attributions")
      exitStrategyAttributions := getNumbers metadata "exit_strategy_attributions"
      exitWinningStrategy := getText metadata "exit_winning_strategy"
      -- not a keyword of the constructor call: the default of the entity
      exitStrategyVotes := none
      entryRegime := getText metadata "entry_regime"
      exitRegime := getText metadata "exit_regime" }

/-! ## §4 Backtest sessions -/

/-- `ExecutionStatus`. -/
inductive ExecutionStatus where
  | queued | initializing | running | completed | failed | cancelled
  deriving DecidableEq, Repr

def executionStatusValue : ExecutionStatus → String
  | .queued => "QUEUED"
  | .initializing => "INITIALIZING"
  | .running => "RUNNING"
  | .completed => "COMPLETED"
  | .failed => "FAILED"
  | .cancelled => "CANCELLED"

def executionStatusOf : String → Option ExecutionStatus :=
  memberOf [.queued, .initializing, .running, .completed, .failed, .cancelled] executionStatusValue

@[simp] theorem executionStatusOf_value (status : ExecutionStatus) :
    executionStatusOf (executionStatusValue status) = some status := by
  cases status <;> rfl

/-- `BacktestDataSourceType`. -/
inductive BacktestDataSourceType where
  | csv | marketData
  deriving DecidableEq, Repr

def sourceTypeValue : BacktestDataSourceType → String
  | .csv => "csv"
  | .marketData => "market_data"

def sourceTypeOf : String → Option BacktestDataSourceType :=
  memberOf [.csv, .marketData] sourceTypeValue

@[simp] theorem sourceTypeOf_value (sourceType : BacktestDataSourceType) :
    sourceTypeOf (sourceTypeValue sourceType) = some sourceType := by
  cases sourceType <;> rfl

/-- `BacktestDataSourceRequest`. -/
structure BacktestDataSourceRequest where
  sourceType : BacktestDataSourceType
  sourceId : Option String
  path : Option String
  deriving DecidableEq

/-- `ExecutionConfiguration`. -/
structure ExecutionConfiguration (D F : Type) where
  latencyMs : F
  slippageTicks : ℤ
  feeRate : D

/-- `BacktestRequest`. -/
structure BacktestRequest (D F : Type) where
  tickerSymbol : String
  startTime : Option Datetime
  endTime : Option Datetime
  dataSource : BacktestDataSourceRequest
  initialBalance : D
  execution : ExecutionConfiguration D F
  warmupStartTime : Option Datetime

/-- `BacktestSession`, without its result. -/
structure BacktestSession (D F : Type) where
  id : String
  tickerSymbol : String
  request : BacktestRequest D F
  status : ExecutionStatus
  createdAt : Datetime
  startedAt : Option Datetime
  completedAt : Option Datetime
  workerId : Option String
  heartbeatAt : Option Datetime
  leaseExpiresAt : Option Datetime
  error : Option String

/-- The `data_source` of a stored configuration. -/
structure StoredDataSource where
  sourceType : Option String
  path : Option String
  sourceId : Option String

/-- The `execution` of a stored configuration. -/
structure StoredExecution (F : Type) where
  latencyMs : Option F
  slippageTicks : Option ℤ
  feeRate : Option String

/-- The `config` column of a session; any key can be missing. -/
structure StoredConfig (F : Type) where
  startTime : Option String
  endTime : Option String
  initialBalance : Option String
  dataSource : Option StoredDataSource
  execution : Option (StoredExecution F)

/-- `BacktestSessionDao`. -/
structure BacktestSessionDao (F : Type) where
  id : String
  tickerSymbol : String
  status : String
  config : Option (StoredConfig F)
  workerId : Option String
  startedAt : Option ℤ
  completedAt : Option ℤ
  heartbeatAt : Option ℤ
  leaseExpiresAt : Option ℤ
  errorMessage : Option String
  createdAt : ℤ
  updatedAt : ℤ

variable (isoformat : TextForm Datetime)

/-- `BacktestDBVSEntityMapper.session_to_dao`. -/
def BacktestSession.sessionToDao (session : BacktestSession D F) : BacktestSessionDao F where
  id := session.id
  tickerSymbol := session.tickerSymbol
  status := executionStatusValue session.status
  config := some
    { startTime := session.request.startTime.map isoformat.toText
      endTime := session.request.endTime.map isoformat.toText
      initialBalance := some (decimal.toText session.request.initialBalance)
      dataSource := some
        { sourceType := some (sourceTypeValue session.request.dataSource.sourceType)
          path := session.request.dataSource.path
          sourceId := session.request.dataSource.sourceId }
      execution := some
        { latencyMs := some session.request.execution.latencyMs
          slippageTicks := some session.request.execution.slippageTicks
          feeRate := some (decimal.toText session.request.execution.feeRate) } }
  workerId := session.workerId
  startedAt := session.startedAt.map Datetime.toColumn
  completedAt := session.completedAt.map Datetime.toColumn
  heartbeatAt := session.heartbeatAt.map Datetime.toColumn
  leaseExpiresAt := session.leaseExpiresAt.map Datetime.toColumn
  errorMessage := session.error
  createdAt := session.createdAt.toColumn
  updatedAt := ((session.completedAt.or session.startedAt).getD session.createdAt).toColumn

/-- `datetime.fromisoformat(text) if text else None`. -/
def readTime : Option String → Option (Option Datetime)
  | none => some none
  | some text => if text = "" then some none else (isoformat.ofText text).map some

/-- `BacktestDBVSEntityMapper.dao_to_session`; `defaultLatency` is `500.0`. -/
def BacktestSessionDao.daoToSession (defaultLatency : F) (dao : BacktestSessionDao F) :
    Option (BacktestSession D F) := do
  let config := dao.config.getD ⟨none, none, none, none, none⟩
  let startTime ← readTime isoformat config.startTime
  let endTime ← readTime isoformat config.endTime
  let initialBalance ← decimal.ofText (config.initialBalance.getD "10000.0")
  let dsData := config.dataSource.getD ⟨none, none, none⟩
  -- an unknown source type is taken for a CSV file
  let sourceType := (sourceTypeOf (dsData.sourceType.getD "csv")).getD .csv
  let execData := config.execution.getD ⟨none, none, none⟩
  let feeRate ← decimal.ofText (execData.feeRate.getD "0.001")
  some
    { id := dao.id
      tickerSymbol := dao.tickerSymbol
      request :=
        { tickerSymbol := dao.tickerSymbol
          startTime := startTime
          endTime := endTime
          dataSource := ⟨sourceType, dsData.sourceId, dsData.path⟩
          initialBalance := initialBalance
          execution :=
            ⟨execData.latencyMs.getD defaultLatency, execData.slippageTicks.getD 2, feeRate⟩
          -- not a keyword of the constructor call: the default of the entity
          warmupStartTime := none }
      status := (executionStatusOf dao.status).getD .completed
      createdAt := .aware dao.createdAt
      startedAt := (dao.startedAt.map .aware).or startTime
      completedAt := ((dao.completedAt.map .aware).or endTime).or (some (.aware dao.updatedAt))
      workerId := dao.workerId
      heartbeatAt := dao.heartbeatAt.map .aware
      leaseExpiresAt := dao.leaseExpiresAt.map .aware
      error := dao.errorMessage }

end CryptoTrading.Persistence
