import CryptoTrading.Metrics.MetricService

/-!
# The points of a series

A query answers for the metrics that are defined and enabled, in the order of their names; what it
shows of each is a time series of its samples, with one point for each interval that has a sample
(`query_answers`).  A percentile is a value of the interval, whose place among the sorted values is
the nearest one, and percentiles grow with their rank (`percentile_nearest`).
-/

namespace CryptoTrading.Metrics

open CryptoTrading.Lib
open CryptoTrading.Datasets (truncate)

/-! ## §1 Intervals -/

/-- The values of the samples from `start` on, for `width` seconds. -/
def valuesIn (samples : List MetricSample) (start width : ℤ) : List ℚ :=
  (samples.filter fun s => (start : ℚ) ≤ s.timestamp ∧ s.timestamp < ((start + width : ℤ) : ℚ)).map
    MetricSample.value

/-- The intervals begin at the multiples of their width. -/
theorem bucketStart_eq_iff {timestamp : ℚ} (htime : 0 ≤ timestamp) (intervalSeconds start : ℤ) :
    bucketStart timestamp intervalSeconds = start ↔
      max intervalSeconds 1 ∣ start ∧ (start : ℚ) ≤ timestamp ∧
        timestamp < ((start + max intervalSeconds 1 : ℤ) : ℚ) := by
  have hepoch : truncate timestamp = ⌊timestamp⌋ := if_pos htime
  have hwidth : 0 < max intervalSeconds 1 := lt_max_of_lt_right one_pos
  unfold bucketStart
  dsimp only
  rw [hepoch, ← Int.le_floor, ← Int.floor_lt]
  generalize max intervalSeconds 1 = width at hwidth ⊢
  generalize ⌊timestamp⌋ = epoch
  constructor
  · rintro rfl
    have hnonneg := Int.emod_nonneg epoch hwidth.ne'
    have hsmall := Int.emod_lt_of_pos epoch hwidth
    exact ⟨Int.dvd_self_sub_emod, by omega, by omega⟩
  · rintro ⟨⟨k, rfl⟩, hfrom, hbefore⟩
    -- what is left of the epoch is less than a width
    have hmod : epoch % width = epoch - width * k := by
      calc epoch % width = (epoch - width * k + width * k) % width := by rw [sub_add_cancel]
        _ = (epoch - width * k) % width := Int.add_mul_emod_self_left _ _ _
        _ = epoch - width * k := Int.emod_eq_of_lt (by omega) (by omega)
    rw [hmod, sub_sub_cancel]

/-- A time series of samples: its points are in the order of time; every sample is in the interval
    of a point; and a point stands at a multiple of the width, over the samples of its interval. -/
structure IsTimeSeries (samples : List MetricSample) (width : ℤ) (aggregation : AggregationType)
    (points : List MetricPoint) : Prop where
  ascending : (points.map MetricPoint.timestamp).Pairwise (· < ·)
  covers : ∀ s ∈ samples, ∃ p ∈ points,
    (p.timestamp : ℚ) ≤ s.timestamp ∧ s.timestamp < ((p.timestamp + width : ℤ) : ℚ)
  aligned : ∀ p ∈ points, width ∣ p.timestamp
  nonempty : ∀ p ∈ points, valuesIn samples p.timestamp width ≠ []
  value_eq : ∀ p ∈ points,
    p.value = aggregateValues (valuesIn samples p.timestamp width) aggregation

section Series

variable {samples : List MetricSample} {intervalSeconds : ℤ}

/-- The buckets of `_aggregate`. -/
def buckets (samples : List MetricSample) (intervalSeconds : ℤ) : Dict ℤ (List ℚ) :=
  Dict.groupBy (fun s => bucketStart s.timestamp intervalSeconds) MetricSample.value samples

/-- What a bucket has is what the samples of its interval have. -/
theorem mem_buckets_iff (hsamples : ∀ s ∈ samples, 0 ≤ s.timestamp) {start : ℤ}
    {values : List ℚ} :
    (start, values) ∈ (buckets samples intervalSeconds).entries ↔
      max intervalSeconds 1 ∣ start ∧ values ≠ [] ∧
        values = valuesIn samples start (max intervalSeconds 1) := by
  unfold buckets
  rw [Dict.mem_entries_groupBy]
  have hsame (hdvd : max intervalSeconds 1 ∣ start) :
      Dict.valuesUnder (fun s : MetricSample => bucketStart s.timestamp intervalSeconds)
        MetricSample.value start samples = valuesIn samples start (max intervalSeconds 1) := by
    unfold Dict.valuesUnder valuesIn
    apply congrArg (List.map MetricSample.value)
    apply List.filter_congr
    intro s hs
    rw [decide_eq_decide, bucketStart_eq_iff (hsamples s hs)]
    exact and_iff_right hdvd
  constructor
  · rintro ⟨hne, rfl⟩
    -- the bucket has a sample, and that sample says where the bucket begins
    obtain ⟨v, hv⟩ := List.exists_mem_of_ne_nil _ hne
    obtain ⟨s, hs, hstart, -⟩ := (Dict.mem_valuesUnder _ _).mp hv
    have hdvd := ((bucketStart_eq_iff (hsamples s hs) intervalSeconds start).mp hstart).1
    exact ⟨hdvd, hne, hsame hdvd⟩
  · rintro ⟨hdvd, hne, rfl⟩
    exact ⟨hne, (hsame hdvd).symm⟩

/-- The buckets in the order of time. -/
def sortedBuckets (samples : List MetricSample) (intervalSeconds : ℤ) : List (ℤ × List ℚ) :=
  sortOn Prod.fst (buckets samples intervalSeconds).entries

theorem sortedBuckets_perm (samples : List MetricSample) (intervalSeconds : ℤ) :
    (sortedBuckets samples intervalSeconds).Perm (buckets samples intervalSeconds).entries :=
  perm_sortOn _ _

theorem sortedBuckets_ascending (samples : List MetricSample) (intervalSeconds : ℤ) :
    ((sortedBuckets samples intervalSeconds).map Prod.fst).Pairwise (· < ·) := by
  have hperm := (sortedBuckets_perm samples intervalSeconds).map Prod.fst
  have hnodup : ((sortedBuckets samples intervalSeconds).map Prod.fst).Nodup :=
    hperm.nodup_iff.mpr (buckets samples intervalSeconds).nodupKeys
  have hsorted : ((sortedBuckets samples intervalSeconds).map Prod.fst).Pairwise (· ≤ ·) :=
    List.pairwise_map.mpr (pairwise_sortOn _ _)
  exact (hsorted.and hnodup).imp fun h => lt_of_le_of_ne h.1 h.2

theorem aggregate_eq (samples : List MetricSample) (intervalSeconds : ℤ)
    (aggregation : AggregationType) :
    aggregate samples intervalSeconds aggregation =
      (sortedBuckets samples intervalSeconds).map fun e =>
        ⟨e.1, aggregateValues e.2 aggregation⟩ := rfl

/-- A point comes from a bucket. -/
theorem mem_aggregate (hsamples : ∀ s ∈ samples, 0 ≤ s.timestamp) {aggregation : AggregationType}
    {p : MetricPoint} :
    p ∈ aggregate samples intervalSeconds aggregation ↔
      max intervalSeconds 1 ∣ p.timestamp ∧
        valuesIn samples p.timestamp (max intervalSeconds 1) ≠ [] ∧
        p.value =
          aggregateValues (valuesIn samples p.timestamp (max intervalSeconds 1)) aggregation := by
  rw [aggregate_eq, List.mem_map]
  constructor
  · rintro ⟨⟨start, values⟩, hmem, rfl⟩
    rw [(sortedBuckets_perm _ _).mem_iff, mem_buckets_iff hsamples] at hmem
    obtain ⟨hdvd, hne, rfl⟩ := hmem
    exact ⟨hdvd, hne, rfl⟩
  · rintro ⟨hdvd, hne, hvalue⟩
    refine ⟨(p.timestamp, valuesIn samples p.timestamp (max intervalSeconds 1)), ?_, ?_⟩
    · rw [(sortedBuckets_perm _ _).mem_iff, mem_buckets_iff hsamples]
      exact ⟨hdvd, hne, rfl⟩
    · rw [← hvalue]

/-- What a query shows is a time series of the samples it found. -/
theorem aggregate_isTimeSeries (samples : List MetricSample)
    (hsamples : ∀ s ∈ samples, 0 ≤ s.timestamp) (intervalSeconds : ℤ)
    (aggregation : AggregationType) :
    IsTimeSeries samples (max intervalSeconds 1) aggregation
      (aggregate samples intervalSeconds aggregation) where
  ascending := by
    have hstarts := sortedBuckets_ascending samples intervalSeconds
    rw [aggregate_eq, List.map_map]
    exact hstarts
  covers := by
    intro s hs
    obtain ⟨hdvd, hfrom, hbefore⟩ :=
      (bucketStart_eq_iff (hsamples s hs) intervalSeconds _).mp rfl
    have hmem : s.value ∈ valuesIn samples (bucketStart s.timestamp intervalSeconds)
        (max intervalSeconds 1) :=
      List.mem_map_of_mem (List.mem_filter.mpr ⟨hs, decide_eq_true ⟨hfrom, hbefore⟩⟩)
    refine ⟨⟨bucketStart s.timestamp intervalSeconds, aggregateValues
      (valuesIn samples (bucketStart s.timestamp intervalSeconds) (max intervalSeconds 1))
      aggregation⟩, ?_, hfrom, hbefore⟩
    exact (mem_aggregate hsamples).mpr ⟨hdvd, List.ne_nil_of_mem hmem, rfl⟩
  aligned := fun _ hp => ((mem_aggregate hsamples).mp hp).1
  nonempty := fun _ hp => ((mem_aggregate hsamples).mp hp).2.1
  value_eq := fun _ hp => ((mem_aggregate hsamples).mp hp).2.2

end Series

/-! ## §2 Percentiles -/

/-- `x` is one of the values, and the index that is nearest to the rank is one at which it stands
    among the sorted values. -/
structure IsNearestRank (values : List ℚ) (pct x : ℚ) : Prop where
  mem : x ∈ values
  nearest : ∃ k : ℕ, |(k : ℚ) - pct * (values.length - 1)| ≤ 1 / 2 ∧
    values.countP (· < x) ≤ k ∧ k < values.countP (· ≤ x)

section Percentiles

variable {values : List ℚ} {p q : ℚ}

theorem roundHalfEven_mono {x y : ℚ} (h : x ≤ y) : roundHalfEven x ≤ roundHalfEven y := by
  rcases h.eq_or_lt with rfl | hlt
  · exact le_rfl
  have hx := (abs_le.mp (abs_roundHalfEven_sub_le x)).2
  have hy := (abs_le.mp (abs_roundHalfEven_sub_le y)).1
  have hclose : (roundHalfEven x : ℚ) < (roundHalfEven y + 1 : ℤ) := by
    push_cast
    linarith
  exact Int.lt_add_one_iff.mp (Int.cast_lt.mp hclose)

/-- The last index, as a number of the ranks. -/
theorem lastIndex_nonneg (hne : values ≠ []) : (0 : ℚ) ≤ (values.length : ℚ) - 1 := by
  have hlen : (1 : ℚ) ≤ values.length := by exact_mod_cast List.length_pos_iff.mpr hne
  linarith

theorem percentileIndex_mono (hne : values ≠ []) (hpq : p ≤ q) :
    percentileIndex values.length p ≤ percentileIndex values.length q :=
  Int.toNat_le_toNat
    (roundHalfEven_mono (mul_le_mul_of_nonneg_right hpq (lastIndex_nonneg hne)))

theorem percentileIndex_lt (hne : values ≠ []) (hp : p ≤ 1) :
    percentileIndex values.length p < values.length := by
  have hlen := List.length_pos_iff.mpr hne
  have hlast : p * ((values.length : ℚ) - 1) ≤ (values.length : ℚ) - 1 :=
    mul_le_of_le_one_left (lastIndex_nonneg hne) hp
  have hround : roundHalfEven (p * ((values.length : ℚ) - 1)) ≤ (values.length : ℤ) - 1 := by
    apply roundHalfEven_le
    push_cast
    linarith
  unfold percentileIndex
  omega

theorem percentileIndex_nearest (hne : values ≠ []) (hp : 0 ≤ p) :
    |(percentileIndex values.length p : ℚ) - p * (values.length - 1)| ≤ 1 / 2 := by
  have hrank : 0 ≤ p * ((values.length : ℚ) - 1) := mul_nonneg hp (lastIndex_nonneg hne)
  have hround : 0 ≤ roundHalfEven (p * ((values.length : ℚ) - 1)) := by
    apply le_roundHalfEven
    push_cast
    linarith
  have hcast : (percentileIndex values.length p : ℚ) =
      roundHalfEven (p * ((values.length : ℚ) - 1)) := by
    unfold percentileIndex
    exact_mod_cast Int.toNat_of_nonneg hround
  rw [hcast]
  exact abs_roundHalfEven_sub_le _

/-- `_percentile` finds an element of the sorted values. -/
theorem percentile_spec (hne : values ≠ []) (hp : p ≤ 1) :
    nthSmallest values (percentileIndex values.length p) = some (percentile values p) := by
  obtain ⟨x, hx⟩ := exists_nthSmallest (percentileIndex_lt hne hp)
  rw [percentile, hx, Option.getD_some]

/-- **Percentiles are values at the nearest rank**, and grow with the rank.

    The rank times the number of the last index is rounded half to even, as Python does. -/
theorem percentile_nearest (values : List ℚ) (hne : values ≠ []) (p q : ℚ) (hp : 0 ≤ p)
    (hpq : p ≤ q) (hq : q ≤ 1) :
    IsNearestRank values p (percentile values p) ∧ percentile values p ≤ percentile values q := by
  have hlow := percentile_spec hne (hpq.trans hq)
  have hhigh := percentile_spec hne hq
  obtain ⟨hbelow, hupto⟩ := nthSmallest_eq_some_iff.mp hlow
  refine ⟨⟨mem_of_nthSmallest hlow, _, percentileIndex_nearest hne hp, hbelow, hupto⟩, ?_⟩
  exact le_of_nthSmallest hlow hhigh (percentileIndex_mono hne hpq)

/-- The median and the largest of three values. -/
theorem percentile_nearest_three :
    IsNearestRank [3, 1, 2] (1 / 2) (percentile [3, 1, 2] (1 / 2)) ∧
      percentile [3, 1, 2] (1 / 2) ≤ percentile [3, 1, 2] 1 :=
  percentile_nearest [3, 1, 2] (by simp) (1 / 2) 1 (by norm_num) (by norm_num) le_rfl

end Percentiles

/-! ## §3 Answers -/

namespace MetricStore

variable {s : MetricStore} {q : MetricQuery} {now : ℚ}

/-- The definition that the service uses for a name. -/
def definitionOf (s : MetricStore) (name : String) : Option MetricDefinition :=
  (s.definitions.get? name).or (s.storedDefinitions.get? name)

/-- The definition by which a query answers for a name. -/
def answering (s : MetricStore) (name : String) : Option MetricDefinition :=
  (s.definitionOf name).filter MetricDefinition.enabled

/-- A look-up finds the definition, and leaves every answer as it was. -/
theorem resolveDefinition_spec (s : MetricStore) (name : String) :
    (s.resolveDefinition name).2 = s.definitionOf name ∧
      (s.resolveDefinition name).1.definitionOf = s.definitionOf ∧
      (s.resolveDefinition name).1.storedSamples = s.storedSamples := by
  unfold resolveDefinition
  cases hcached : s.definitions.get? name with
  | some definition => exact ⟨by simp [definitionOf, hcached], rfl, rfl⟩
  | none =>
    cases hstored : s.storedDefinitions.get? name with
    | none => exact ⟨by simp [definitionOf, hcached, hstored], rfl, rfl⟩
    | some definition =>
      refine ⟨by simp [definitionOf, hcached, hstored], ?_, rfl⟩
      funext other
      by_cases hother : other = name
      · subst hother
        simp [definitionOf, hcached, hstored]
      · simp [definitionOf, hother]

theorem seriesOf_congr {t : MetricStore} (h : t.storedSamples = s.storedSamples) :
    t.seriesOf q now = s.seriesOf q now := by
  funext name definition
  simp only [seriesOf, samplesFor, getSamples, h]

/-- The loop answers name by name. -/
theorem queryNames_eq (s : MetricStore) (names : List String) :
    s.queryNames q now names =
      names.filterMap fun name => (s.answering name).map (s.seriesOf q now name) := by
  induction names generalizing s with
  | nil => rfl
  | cons name rest ih =>
    obtain ⟨hfound, hsame, hsamples⟩ := resolveDefinition_spec s name
    have hrest := ih (s.resolveDefinition name).1
    have hanswering : (s.resolveDefinition name).1.answering = s.answering := by
      funext other
      rw [answering, hsame, answering]
    have hseries : (s.resolveDefinition name).1.seriesOf q now = s.seriesOf q now :=
      seriesOf_congr hsamples
    rw [hanswering, hseries] at hrest
    rw [List.filterMap_cons, ← hrest, queryNames, answering, ← hfound]
    rcases hresolve : s.resolveDefinition name with ⟨t, found⟩
    rw [hresolve] at hseries
    cases found with
    | none => rfl
    | some definition =>
      cases henabled : definition.enabled <;> simp [henabled, Option.filter, hseries]

/-- The samples of a query are not older than its start. -/
theorem le_timestamp_of_mem {definition : MetricDefinition} {x : MetricSample}
    (h : x ∈ s.samplesFor q now definition) : q.startTime.getD 0 ≤ x.timestamp := by
  have hread := (List.mem_filter.mp h).1
  exact (of_decide_eq_true (List.mem_filter.mp hread).2).2.1

/-- **A query answers for the enabled metrics**, in the order of their names, and each answer is a
    time series of the samples of its metric.

    A point stands for one interval that has samples, at a multiple of its length, with the
    aggregate of these samples, and each sample of the period is in the interval of a point. -/
theorem query_answers (s : MetricStore) (q : MetricQuery) (now : ℚ)
    (hstart : 0 ≤ q.startTime.getD 0) :
    (s.query q now).map MetricSeries.name =
        q.metricNames.filter (fun name => (s.answering name).isSome) ∧
      ∀ series ∈ s.query q now, ∃ definition, s.answering series.name = some definition ∧
        IsTimeSeries (s.samplesFor q now definition) (max q.intervalSeconds 1)
          (aggregationFor q definition) series.points := by
  rw [query, queryNames_eq]
  refine ⟨?_, ?_⟩
  · rw [List.map_filterMap]
    induction q.metricNames with
    | nil => rfl
    | cons name rest ih =>
      rw [List.filterMap_cons, List.filter_cons, ih]
      cases s.answering name <;> rfl
  · intro series hmem
    obtain ⟨name, -, hanswer⟩ := List.mem_filterMap.mp hmem
    obtain ⟨definition, hdefinition, rfl⟩ := Option.map_eq_some_iff.mp hanswer
    refine ⟨definition, hdefinition, aggregate_isTimeSeries _ ?_ _ _⟩
    intro x hx
    exact hstart.trans (le_timestamp_of_mem hx)

/-- A stored gauge with two samples, a minute apart. -/
def sampleStore : MetricStore where
  definitions := Dict.empty
  storedDefinitions := Dict.empty.set "cpu" ⟨"m1", "cpu", .gauge, "percent", none, true⟩
  storedSamples := [⟨"m1", 30, 5, Dict.empty⟩, ⟨"m1", 90, 7, Dict.empty⟩]

def sampleQuery : MetricQuery := ⟨["cpu", "disk"], none, none, 60, none, Dict.empty⟩

theorem query_answers_cpu :
    (sampleStore.query sampleQuery 100).map MetricSeries.name =
        sampleQuery.metricNames.filter (fun name => (sampleStore.answering name).isSome) ∧
      ∀ series ∈ sampleStore.query sampleQuery 100, ∃ definition,
        sampleStore.answering series.name = some definition ∧
        IsTimeSeries (sampleStore.samplesFor sampleQuery 100 definition)
          (max sampleQuery.intervalSeconds 1) (aggregationFor sampleQuery definition)
          series.points :=
  query_answers sampleStore sampleQuery 100 le_rfl

end MetricStore

end CryptoTrading.Metrics
