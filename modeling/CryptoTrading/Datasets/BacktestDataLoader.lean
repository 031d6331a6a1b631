import CryptoTrading.Datasets.DatasetService

/-!
# Loading a data file

Embeds `BacktestDataLoader.load` of `src/backtest/backtest_data_loader.py` on a data file,
`CsvBacktestDataSource.load` and `BacktestDataSet.__post_init__`.

The loader tries `;` and then `,` as the separator, skips the rows that it cannot read and sorts
the others.  How pandas reads a file and a time are parameters; what the loader makes of an audit
log is one too.
-/

namespace CryptoTrading.Datasets

open CryptoTrading.Lib CryptoTrading.Lib.Csv
open CryptoTrading.Retention (Instant)

/-! ## §1 pandas -/

/-- A cell, by what the loader asks of it. -/
structure Cell where
  /-- `isinstance(cell, (int, float))`. -/
  isNumber : Bool
  /-- `int(cell)` of a number; none when it raises. -/
  toInt : Option ℤ
  /-- `str(cell)`. -/
  str : Text

/-- The rows as pandas reads them, with the names of the columns. -/
structure DataFrame where
  columns : List Text
  rows : List (List Cell)

structure Pandas where
  /-- `pd.read_csv(file, sep=separator)`; none when it raises a `ValueError`. -/
  readCsv : Text → Char → Option DataFrame
  /-- `pd.Timestamp(text).timestamp()`; none when it raises. -/
  timestamp : Text → Option ℚ

/-- `row[name]`, of a row with these columns. -/
def lookup (columns : List Text) (row : List Cell) (name : String) : Option Cell :=
  (columns.zip row).lookup name.toList

/-! ## §2 The loader -/

structure HistoricalDataPoint where
  timestamp : ℤ
  values : Ohlcv
  marketCap : Decimal
  deriving DecidableEq

section Loader

variable (pandas : Pandas)

/-- The epoch second of a `timestamp` cell. -/
def readEpoch (cell : Cell) : Option ℤ :=
  if cell.isNumber then cell.toInt else (pandas.timestamp cell.str).map truncate

/-- The data point of a row; none when anything raises. -/
def readPoint (columns : List Text) (row : List Cell) : Option HistoricalDataPoint := do
  let timestamp ← (lookup columns row "timestamp").bind (readEpoch pandas)
  let values ← readOhlcv fun name => (lookup columns row name).map Cell.str
  let marketCap ← decimal (((lookup columns row "marketCap").map Cell.str).getD ['0'])
  some ⟨timestamp, values, marketCap⟩

/-- Read a data file with the separator that gives it more than one column. -/
def readFrame (text : Text) : Option DataFrame :=
  match pandas.readCsv text ';' with
  | some frame => if frame.columns.length < 2 then pandas.readCsv text ',' else some frame
  | none => pandas.readCsv text ','

/-- The first line of a file. -/
def firstLine (text : Text) : Text := text.takeWhile fun c => c ≠ '\n' ∧ c ≠ '\r'

/-- Whether the file is an audit log. -/
def isAuditLog (text : Text) : Bool := decide ("event_type".toList <:+: firstLine text)

variable (auditLog : Text → Option (List HistoricalDataPoint))

/-- `BacktestDataLoader.load` of a file; none when `read_csv` raises. -/
def loadPoints (text : Text) : Option (List HistoricalDataPoint) :=
  let points :=
    if isAuditLog text then auditLog text
    else
      (readFrame pandas text).map fun frame =>
        frame.rows.filterMap (readPoint pandas frame.columns)
  points.map fun points => points.insertionSort fun p q => p.timestamp ≤ q.timestamp

/-! ## §3 The data set -/

structure BacktestRequest where
  tickerSymbol : String
  startTime : Option Instant
  endTime : Option Instant
  warmupStartTime : Option Instant

structure BacktestDataSet where
  tickerSymbol : String
  startTime : Instant
  endTime : Instant
  dataPoints : List HistoricalDataPoint
  ordered : dataPoints.Pairwise fun p q => p.timestamp < q.timestamp

inductive LoadError where
  | readCsv
  | noHistoricalData
  /-- A second that a `datetime` cannot hold. -/
  | outOfRange
  | notOrdered
  | duplicateTimestamps
  deriving DecidableEq

/-- `BacktestDataSet.__post_init__`. -/
def BacktestDataSet.ofPoints (tickerSymbol : String) (startTime endTime : Instant)
    (points : List HistoricalDataPoint) : Except LoadError BacktestDataSet :=
  if hle : points.Pairwise fun p q => p.timestamp ≤ q.timestamp then
    if hne : points.Pairwise fun p q => p.timestamp ≠ q.timestamp then
      .ok ⟨tickerSymbol, startTime, endTime, points,
        (hle.and hne).imp fun h => lt_of_le_of_ne h.1 h.2⟩
    else .error .duplicateTimestamps
  else .error .notOrdered

/-- The points between two times, where they are given. -/
def inPeriod (startTime endTime : Option Instant) (points : List HistoricalDataPoint) :
    List HistoricalDataPoint :=
  points.filter fun p =>
    startTime.all (epochSecond · ≤ p.timestamp) && endTime.all (p.timestamp ≤ epochSecond ·)

/-- `datetime.fromtimestamp` of a whole second. -/
def timeOf (second : ℤ) : Option Instant := fromTimestamp (second * 1000000)

/-- `CsvBacktestDataSource.load` of a file. -/
def load (request : BacktestRequest) (text : Text) : Except LoadError BacktestDataSet :=
  match loadPoints pandas auditLog text with
  | none => .error .readCsv
  | some points =>
    let points := inPeriod (request.warmupStartTime.or request.startTime) request.endTime points
    let timestamps := points.map HistoricalDataPoint.timestamp
    match timestamps.min?, timestamps.max? with
    | some first, some last =>
      match timeOf first, timeOf last with
      | some startTime, some endTime =>
        BacktestDataSet.ofPoints request.tickerSymbol startTime endTime points
      | _, _ => .error .outOfRange
    | _, _ => .error .noHistoricalData

end Loader

end CryptoTrading.Datasets
