import CryptoTrading.Datasets.Times
import CryptoTrading.Lib.Grouping
import CryptoTrading.Lib.OrderStatistic
import CryptoTrading.Lib.Rounding
import CryptoTrading.Lib.SortedTail

/-!
# Queries of metrics

Embeds `query` of `src/metrics/services/metric_service.py`, with what it reads of the repository
(`src/database/repositories/providers/postgres_metric_repository.py`) and its models
(`src/metrics/models/`).

A query answers from the stored samples, after its flush.  Numbers are exact, and times are seconds
from 1970.  Left out: how samples get to the table, descriptions, and the times of definitions.
-/

namespace CryptoTrading.Metrics

open CryptoTrading.Lib
open CryptoTrading.Datasets (truncate)

/-! ## §1 Definitions and samples -/

inductive MetricType where
  | counter | gauge | histogram
  deriving DecidableEq

inductive AggregationType where
  | sum | avg | min | max | last | count | p50 | p90 | p95 | p99
  deriving DecidableEq

def defaultAggregation : MetricType → AggregationType
  | .gauge => .last
  | .histogram => .avg
  | .counter => .sum

structure MetricDefinition where
  id : String
  name : String
  metricType : MetricType
  unit : String
  aggregation : Option AggregationType
  enabled : Bool
  deriving DecidableEq

structure MetricSample where
  metricId : String
  timestamp : ℚ
  value : ℚ
  labels : Dict String String

structure MetricQuery where
  metricNames : List String
  startTime : Option ℚ
  endTime : Option ℚ
  intervalSeconds : ℤ
  aggregation : Option AggregationType
  labels : Dict String String

structure MetricPoint where
  timestamp : ℤ
  value : ℚ
  deriving DecidableEq

structure MetricSeries where
  name : String
  unit : String
  intervalSeconds : ℤ
  startTime : ℚ
  endTime : ℚ
  points : List MetricPoint

/-! ## §2 Aggregation -/

/-- `_bucket_start`. -/
def bucketStart (timestamp : ℚ) (intervalSeconds : ℤ) : ℤ :=
  let epoch := truncate timestamp
  epoch - epoch % max intervalSeconds 1

/-- The index that `_percentile` reads. -/
def percentileIndex (count : ℕ) (pct : ℚ) : ℕ := (roundHalfEven (pct * ((count : ℚ) - 1))).toNat

/-- `_percentile`. -/
def percentile (values : List ℚ) (pct : ℚ) : ℚ :=
  (nthSmallest values (percentileIndex values.length pct)).getD 0

/-- `_aggregate_values`, of at least one value. -/
def aggregateValues (values : List ℚ) : AggregationType → ℚ
  | .sum => values.sum
  | .avg => values.sum / values.length
  | .min => values.min?.getD 0
  | .max => values.max?.getD 0
  | .last => values.getLast?.getD 0
  | .count => values.length
  | .p50 => percentile values (50 / 100)
  | .p90 => percentile values (90 / 100)
  | .p95 => percentile values (95 / 100)
  | .p99 => percentile values (99 / 100)

/-- `_aggregate`. -/
def aggregate (samples : List MetricSample) (intervalSeconds : ℤ)
    (aggregation : AggregationType) : List MetricPoint :=
  let buckets :=
    Dict.groupBy (fun s => bucketStart s.timestamp intervalSeconds) MetricSample.value samples
  (sortOn Prod.fst buckets.entries).map fun e => ⟨e.1, aggregateValues e.2 aggregation⟩

/-- `_matches_labels`. -/
def matchesLabels (sampleLabels queryLabels : Dict String String) : Bool :=
  queryLabels.entries.all fun e => sampleLabels.get? e.1 = some e.2

/-! ## §3 Queries -/

/-- The cache of definitions and the two tables. -/
structure MetricStore where
  definitions : Dict String MetricDefinition
  storedDefinitions : Dict String MetricDefinition
  storedSamples : List MetricSample

namespace MetricStore

/-- `_resolve_definition`, with its write to the cache. -/
def resolveDefinition (s : MetricStore) (name : String) : MetricStore × Option MetricDefinition :=
  match s.definitions.get? name with
  | some definition => (s, some definition)
  | none =>
    match s.storedDefinitions.get? name with
    | some definition =>
      ({ s with definitions := s.definitions.set name definition }, some definition)
    | none => (s, none)

/-- `get_samples`. -/
def getSamples (s : MetricStore) (metricId : String) (start stop : ℚ) : List MetricSample :=
  s.storedSamples.filter fun sample =>
    sample.metricId = metricId ∧ start ≤ sample.timestamp ∧ sample.timestamp ≤ stop

/-- The samples that a query aggregates for a metric. -/
def samplesFor (s : MetricStore) (q : MetricQuery) (now : ℚ) (definition : MetricDefinition) :
    List MetricSample :=
  (s.getSamples definition.id (q.startTime.getD 0) (q.endTime.getD now)).filter fun sample =>
    matchesLabels sample.labels q.labels

/-- The aggregation that a query applies to a metric. -/
def aggregationFor (q : MetricQuery) (definition : MetricDefinition) : AggregationType :=
  (q.aggregation.or definition.aggregation).getD (defaultAggregation definition.metricType)

/-- What a query answers about an enabled metric. -/
def seriesOf (s : MetricStore) (q : MetricQuery) (now : ℚ) (name : String)
    (definition : MetricDefinition) : MetricSeries where
  name := name
  unit := definition.unit
  intervalSeconds := q.intervalSeconds
  startTime := q.startTime.getD 0
  endTime := q.endTime.getD now
  points :=
    aggregate (s.samplesFor q now definition) q.intervalSeconds (aggregationFor q definition)

/-- The loop of `query` over the names. -/
def queryNames (s : MetricStore) (q : MetricQuery) (now : ℚ) : List String → List MetricSeries
  | [] => []
  | name :: rest =>
    match s.resolveDefinition name with
    | (s, none) => queryNames s q now rest
    | (s, some definition) =>
      if definition.enabled then s.seriesOf q now name definition :: queryNames s q now rest
      else queryNames s q now rest

/-- `query`, after its flush. -/
def query (s : MetricStore) (q : MetricQuery) (now : ℚ) : List MetricSeries :=
  s.queryNames q now q.metricNames

end MetricStore

end CryptoTrading.Metrics
