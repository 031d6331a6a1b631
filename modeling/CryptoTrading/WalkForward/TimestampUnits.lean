import CryptoTrading.Lib.OrderStatistic
import CryptoTrading.WalkForward.FoldGenerator

/-!
# Folds of seconds and of milliseconds

`_timestamp_to_datetime` and `_estimate_candle_interval_seconds` of the fold generator each tell
the unit of a number by its size.  The one looks at the timestamp itself and is right; the other
looks at the difference of two timestamps, which in milliseconds is far below the bound, so that
a candle of a minute counts as one of 60000 seconds.

- The ticks of a fold have the same times in both units (`createFold_inMillis`).
- The candles of a day are counted from the median of the first gaps, and from a thousand times
  that median in milliseconds (`candlesPerDay_inMillis`).
- The folds are the same exactly when the sizes of the windows are not taken from a number of
  days, when the median gap is longer than sixteen hours, or where the wrong count makes no
  difference in the end (`generateFolds_inMillis_iff`).
-/

namespace CryptoTrading.WalkForward

open CryptoTrading.Lib

/-! ## §1 Times do not depend on the unit -/

/-- The same instants in milliseconds. -/
def inMillis (timestamps : List ℤ) : List ℤ := timestamps.map (1000 * ·)

@[simp] theorem length_inMillis (timestamps : List ℤ) :
    (inMillis timestamps).length = timestamps.length := List.length_map _

/-- Increasing epoch seconds which are taken for seconds, and in milliseconds for milliseconds. -/
structure EpochSeconds (timestamps : List ℤ) : Prop where
  increasing : timestamps.Pairwise (· < ·)
  seconds : ∀ t ∈ timestamps, t ≤ 100000000000
  millis : ∀ t ∈ timestamps, 100000000000 < 1000 * t

variable {timestamps : List ℤ}

theorem timestampToDatetime_millis {t : ℤ} (hseconds : t ≤ 100000000000)
    (hmillis : 100000000000 < 1000 * t) :
    timestampToDatetime (1000 * t) = timestampToDatetime t := by
  have hmicros : microsOf (1000 * t) = microsOf t := by
    unfold microsOf
    rw [if_pos hmillis, if_neg (not_lt.mpr hseconds)]
    ring
  simp only [timestampToDatetime, hmicros]

theorem EpochSeconds.representable (h : EpochSeconds timestamps) :
    ∀ t ∈ timestamps, Representable t := by
  intro t ht
  have hseconds := h.seconds t ht
  have hmillis := h.millis t ht
  have hmicros : microsOf t = epochSeconds * 10 ^ 6 + t * 10 ^ 6 := by
    unfold microsOf
    rw [if_neg (not_lt.mpr hseconds)]
  refine representable_iff.mpr ?_
  rw [hmicros]
  unfold epochSeconds
  omega

theorem timeAt_inMillis (h : EpochSeconds timestamps) (i : ℤ) :
    timeAt (inMillis timestamps) i = timeAt timestamps i := by
  unfold timeAt getItem
  dsimp only
  rw [length_inMillis, inMillis, List.getElem?_map]
  generalize (if i < 0 then i + timestamps.length else i) = position
  by_cases hpos : position < 0
  · simp only [if_pos hpos]
  · simp only [if_neg hpos]
    cases hitem : timestamps[position.toNat]? with
    | none => rfl
    | some t =>
      have ht := List.mem_of_getElem? hitem
      exact timestampToDatetime_millis (h.seconds t ht) (h.millis t ht)

/-- **A fold has the same times in both units.** -/
theorem createFold_inMillis (h : EpochSeconds timestamps) (w : FoldWindow) :
    createFold (inMillis timestamps) w = createFold timestamps w := by
  have htime : timeAt (inMillis timestamps) = timeAt timestamps := funext (timeAt_inMillis h)
  have htime? : timeAt? (inMillis timestamps) = timeAt? timestamps := by
    funext i
    cases i with
    | none => rfl
    | some i => simp only [timeAt?, htime]
  simp only [createFold, htime, htime?]

theorem foldLoop_inMillis (h : EpochSeconds timestamps) (spec : WalkForwardWindowSpec)
    (sizes : WindowSizes) (fuel foldIdx : ℕ) (currentOffset : ℤ) :
    foldLoop spec (inMillis timestamps) sizes fuel foldIdx currentOffset =
      foldLoop spec timestamps sizes fuel foldIdx currentOffset := by
  induction fuel generalizing foldIdx currentOffset with
  | zero => rfl
  | succ fuel ih => simp only [foldLoop, length_inMillis, createFold_inMillis h, ih]

/-! ## §2 The median gap -/

/-- The gaps that the generator samples: the first fifty. -/
def firstGaps (timestamps : List ℤ) : List ℤ :=
  ((timestamps.zip timestamps.tail).take 50).map fun p => p.2 - p.1

/-- The upper median of the first gaps. -/
def medianGap (timestamps : List ℤ) : ℤ :=
  let gaps := firstGaps timestamps
  (nthSmallest gaps (gaps.length / 2)).getD 86400

theorem length_firstGaps : (firstGaps timestamps).length = min 50 (timestamps.length - 1) := by
  simp only [firstGaps, List.length_map, List.length_take, List.length_zip, List.length_tail]
  omega

/-- Two neighbouring ticks. -/
theorem neighbours {p : ℤ × ℤ} (h : p ∈ (timestamps.zip timestamps.tail).take 50)
    (hts : EpochSeconds timestamps) : 0 < p.2 - p.1 ∧ p.2 - p.1 ≤ 100000000000 := by
  obtain ⟨i, hi, rfl⟩ := List.mem_iff_getElem.mp (List.mem_of_mem_take h)
  have hi' : i + 1 < timestamps.length := by
    simp only [List.length_zip, List.length_tail] at hi
    omega
  have hlt := List.pairwise_iff_getElem.mp hts.increasing i (i + 1) (by omega) hi' (by omega)
  have hseconds := hts.seconds _ (List.getElem_mem hi')
  have hmillis := hts.millis _ (List.getElem_mem (Nat.lt_of_succ_lt hi'))
  simp only [List.getElem_zip, List.getElem_tail]
  omega

/-- The sampled gaps of a list in some unit, when they are positive numbers of the gaps. -/
theorem sampledGaps_map (unit : ℤ → ℤ) (f : ℤ → ℚ)
    (hf : ∀ p ∈ (timestamps.zip timestamps.tail).take 50,
      gapSeconds (unit p.1) (unit p.2) = f (p.2 - p.1) ∧ 0 < f (p.2 - p.1)) :
    sampledGaps (timestamps.map unit) = (firstGaps timestamps).map f := by
  unfold sampledGaps firstGaps
  have hgaps : ((timestamps.zip timestamps.tail).take 50).map
      ((fun p => gapSeconds p.1 p.2) ∘ Prod.map unit unit) =
      ((timestamps.zip timestamps.tail).take 50).map (f ∘ fun p => p.2 - p.1) :=
    List.map_congr_left fun p hp => (hf p hp).1
  rw [← List.map_tail, List.zip_map, ← List.map_take, List.map_map, List.map_map, hgaps]
  refine List.filter_eq_self.mpr fun gap hgap => ?_
  obtain ⟨p, hp, rfl⟩ := List.mem_map.mp hgap
  exact decide_eq_true (hf p hp).2

theorem sampledGaps_seconds (hts : EpochSeconds timestamps) :
    sampledGaps timestamps = (firstGaps timestamps).map (↑) := by
  have h : sampledGaps (timestamps.map id) = (firstGaps timestamps).map fun d : ℤ => (d : ℚ) :=
    sampledGaps_map id (fun d => (d : ℚ)) fun p hp => by
      obtain ⟨hpos, hle⟩ := neighbours hp hts
      refine ⟨?_, by exact_mod_cast hpos⟩
      unfold gapSeconds
      simp only [id_eq, abs_of_pos hpos, if_neg (not_lt.mpr hle)]
  rwa [List.map_id] at h

/-- A gap in milliseconds, as the generator reads it. -/
def misread (d : ℤ) : ℚ := if d > 100000000 then d else 1000 * d

theorem sampledGaps_inMillis (hts : EpochSeconds timestamps) :
    sampledGaps (inMillis timestamps) = (firstGaps timestamps).map misread := by
  refine sampledGaps_map _ _ fun p hp => ?_
  obtain ⟨hpos, hle⟩ := neighbours hp hts
  have hposq : (0 : ℚ) < ((p.2 - p.1 : ℤ) : ℚ) := by exact_mod_cast hpos
  have habs : |1000 * p.2 - 1000 * p.1| = 1000 * (p.2 - p.1) := by
    rw [← mul_sub, abs_of_pos (by omega)]
  unfold gapSeconds misread
  simp only [habs]
  by_cases hlarge : p.2 - p.1 > 100000000
  · rw [if_pos (by omega), if_pos hlarge]
    refine ⟨?_, hposq⟩
    push_cast
    ring
  · rw [if_neg (by omega), if_neg hlarge]
    refine ⟨by push_cast; ring, by linarith⟩

theorem estimate_eq (hlen : ¬ timestamps.length < 2) :
    estimateCandleIntervalSeconds timestamps =
      (nthSmallest (sampledGaps timestamps) ((sampledGaps timestamps).length / 2)).getD 86400 := by
  simp only [estimateCandleIntervalSeconds, if_neg hlen, nthSmallest, List.length_insertionSort]

/-- There is a median of the gaps of two ticks or more. -/
theorem exists_medianGap (hlen : ¬ timestamps.length < 2) :
    nthSmallest (firstGaps timestamps) ((firstGaps timestamps).length / 2) =
      some (medianGap timestamps) := by
  have hrank : (firstGaps timestamps).length / 2 < (firstGaps timestamps).length := by
    rw [length_firstGaps]
    omega
  obtain ⟨d, hd⟩ := exists_nthSmallest hrank
  simp only [medianGap, hd, Option.getD_some]

theorem medianGap_pos (hts : EpochSeconds timestamps) (hlen : ¬ timestamps.length < 2) :
    0 < medianGap timestamps := by
  obtain ⟨p, hp, hgap⟩ := List.mem_map.mp (mem_of_nthSmallest (exists_medianGap hlen))
  rw [← hgap]
  exact (neighbours hp hts).1

/-- In seconds the generator finds the median gap. -/
theorem estimate_seconds (hts : EpochSeconds timestamps) (hlen : ¬ timestamps.length < 2) :
    estimateCandleIntervalSeconds timestamps = medianGap timestamps := by
  have hmedian := nthSmallest_map (f := fun d : ℤ => (d : ℚ)) (by simp) (by simp)
    (exists_medianGap hlen)
  rw [estimate_eq hlen, sampledGaps_seconds hts, List.length_map, hmedian]
  rfl

/-- In milliseconds a short median gap counts for a thousand times what it is. -/
theorem estimate_inMillis_of_le (hts : EpochSeconds timestamps) (hlen : ¬ timestamps.length < 2)
    (hshort : medianGap timestamps ≤ 100000) :
    estimateCandleIntervalSeconds (inMillis timestamps) = 1000 * medianGap timestamps := by
  have hread : misread (medianGap timestamps) = 1000 * medianGap timestamps :=
    if_neg (by omega)
  have hshortq : (medianGap timestamps : ℚ) ≤ 100000 := by exact_mod_cast hshort
  have hmedian := nthSmallest_map (f := misread) (fun y _ => ?_) (fun y _ => ?_)
    (exists_medianGap hlen)
  · rw [estimate_eq (by simpa using hlen), sampledGaps_inMillis hts, List.length_map, hmedian]
    exact hread
  -- a gap that is not multiplied is larger than the median, and so is what it is read as
  all_goals
    rw [hread]
    unfold misread
    split
  · have hy : (100000000 : ℚ) < y := by exact_mod_cast ‹y > 100000000›
    exact iff_of_false (by linarith) (by omega)
  · rw [mul_lt_mul_iff_right₀ (by norm_num), Int.cast_lt]
  · have hy : (100000000 : ℚ) < y := by exact_mod_cast ‹y > 100000000›
    exact iff_of_false (by linarith) (by omega)
  · rw [mul_le_mul_iff_right₀ (by norm_num), Int.cast_le]

/-- In milliseconds a long median gap counts for a longer one. -/
theorem le_estimate_inMillis (hts : EpochSeconds timestamps) (hlen : ¬ timestamps.length < 2)
    (hlong : 100000 < medianGap timestamps) :
    100000000 ≤ estimateCandleIntervalSeconds (inMillis timestamps) := by
  have hrank := lt_length_of_nthSmallest (exists_medianGap hlen)
  obtain ⟨z, hz⟩ : ∃ z, nthSmallest ((firstGaps timestamps).map misread)
      ((firstGaps timestamps).length / 2) = some z :=
    exists_nthSmallest (by rwa [List.length_map])
  have hbound : 100000000 ≤ z := by
    refine le_nthSmallest_map (fun y _ hy => ?_) (exists_medianGap hlen) hz
    unfold misread at hy
    split at hy
    · have : y < 100000000 := by exact_mod_cast hy
      omega
    · have : 1000 * y < 100000000 := by exact_mod_cast hy
      omega
  rw [estimate_eq (by simpa using hlen), sampledGaps_inMillis hts, List.length_map, hz]
  exact hbound

/-! ## §3 Candles of a day -/

/-- The candles of a day, at a gap in seconds. -/
def perDay (gap : ℤ) : ℤ := max 1 (roundHalfEven (86400 / gap))

/-- The same where the gap counts for a thousand times what it is. -/
def perDayInMillis (gap : ℤ) : ℤ := max 1 (roundHalfEven (432 / 5 / gap))

theorem candlesPerDay_seconds (hts : EpochSeconds timestamps) (hlen : ¬ timestamps.length < 2) :
    candlesPerDay timestamps = perDay (medianGap timestamps) := by
  rw [candlesPerDay, estimate_seconds hts hlen, perDay]

theorem max_one_roundHalfEven_of_lt {x : ℚ} (h : x < 3 / 2) : max 1 (roundHalfEven x) = 1 :=
  max_eq_left (roundHalfEven_le (by norm_num; linarith))

theorem candlesPerDay_inMillis (hts : EpochSeconds timestamps) (hlen : ¬ timestamps.length < 2) :
    candlesPerDay (inMillis timestamps) = perDayInMillis (medianGap timestamps) := by
  have hpos : (0 : ℚ) < medianGap timestamps := by exact_mod_cast medianGap_pos hts hlen
  unfold candlesPerDay perDayInMillis
  by_cases hshort : medianGap timestamps ≤ 100000
  · rw [estimate_inMillis_of_le hts hlen hshort]
    congr 2
    field_simp
    norm_num
  · -- both gaps are far longer than what counts for a day
    have hlong : (100000 : ℚ) < medianGap timestamps := by exact_mod_cast not_le.mp hshort
    have hestimate := le_estimate_inMillis hts hlen (not_le.mp hshort)
    rw [max_one_roundHalfEven_of_lt, max_one_roundHalfEven_of_lt]
    · rw [div_lt_iff₀ hpos]
      linarith
    · rw [div_lt_iff₀ (by linarith)]
      linarith

theorem perDay_of_lt {gap : ℤ} (h : 57600 < gap) : perDay gap = 1 := by
  have hgap : (57600 : ℚ) < gap := by exact_mod_cast h
  refine max_one_roundHalfEven_of_lt ?_
  rw [div_lt_iff₀ (by linarith)]
  linarith

theorem perDayInMillis_of_lt {gap : ℤ} (h : 57 < gap) : perDayInMillis gap = 1 := by
  have hgap : (58 : ℚ) ≤ gap := by exact_mod_cast h
  refine max_one_roundHalfEven_of_lt ?_
  rw [div_lt_iff₀ (by linarith)]
  linarith

theorem one_le_perDayInMillis (gap : ℤ) : 1 ≤ perDayInMillis gap := le_max_left _ _

/-- Up to sixteen hours, a day has two candles or more: one and a half are rounded to two. -/
theorem two_le_perDay {gap : ℤ} (hpos : 0 < gap) (h : gap ≤ 57600) : 2 ≤ perDay gap := by
  refine le_max_of_le_right ?_
  rcases h.eq_or_lt with rfl | hlt
  · decide +kernel
  · have hposq : (0 : ℚ) < gap := by exact_mod_cast hpos
    have hgap : (gap : ℚ) < 57600 := by exact_mod_cast hlt
    refine le_roundHalfEven ?_
    rw [lt_div_iff₀ hposq]
    push_cast
    linarith

/-- **There are fewer candles a day in milliseconds**, wherever there are two in seconds. -/
theorem perDayInMillis_lt_perDay {gap : ℤ} (hpos : 0 < gap) (h : gap ≤ 57600) :
    perDayInMillis gap < perDay gap := by
  have htwo := two_le_perDay hpos h
  by_cases hlarge : 57 < gap
  · rw [perDayInMillis_of_lt hlarge]
    omega
  · have hposq : (0 : ℚ) < gap := by exact_mod_cast hpos
    have hgap : (gap : ℚ) ≤ 57 := by exact_mod_cast not_lt.mp hlarge
    have hupper : perDayInMillis gap ≤ 87 := by
      refine max_le (by norm_num) (roundHalfEven_le ?_)
      have hone : (1 : ℚ) ≤ gap := by exact_mod_cast hpos
      rw [div_lt_iff₀ hposq]
      push_cast
      linarith
    have hlower : 1000 ≤ perDay gap := by
      refine le_max_of_le_right (le_roundHalfEven ?_)
      rw [lt_div_iff₀ hposq]
      push_cast
      linarith
    omega

/-- A day has two candles at a gap of 9.6 to 16 hours. -/
theorem perDay_eq_two_iff {gap : ℤ} (hpos : 0 < gap) :
    perDay gap = 2 ↔ 34560 ≤ gap ∧ gap ≤ 57600 := by
  have hposq : (0 : ℚ) < gap := by exact_mod_cast hpos
  constructor
  · intro htwo
    refine ⟨?_, ?_⟩
    · by_contra hshort
      have hgap : (gap : ℚ) < 34560 := by exact_mod_cast not_le.mp hshort
      have hthree : 3 ≤ perDay gap := by
        refine le_max_of_le_right (le_roundHalfEven ?_)
        rw [lt_div_iff₀ hposq]
        push_cast
        linarith
      omega
    · by_contra hlong
      rw [perDay_of_lt (not_le.mp hlong)] at htwo
      cases htwo
  · rintro ⟨hlow, hhigh⟩
    refine le_antisymm (max_le (by norm_num) ?_) (two_le_perDay hpos hhigh)
    rcases hlow.eq_or_lt with rfl | hlt
    · decide +kernel
    · have hgap : (34560 : ℚ) < gap := by exact_mod_cast hlt
      refine roundHalfEven_le ?_
      rw [div_lt_iff₀ hposq]
      push_cast
      linarith

/-! ## §4 Specifications -/

/-- Every size that is given is positive. -/
structure PositiveSizes (spec : WalkForwardWindowSpec) : Prop where
  train_duration_days : ∀ n ∈ spec.trainDurationDays, 0 < n
  train_candle_count : ∀ n ∈ spec.trainCandleCount, 0 < n
  test_duration_days : ∀ n ∈ spec.testDurationDays, 0 < n
  test_candle_count : ∀ n ∈ spec.testCandleCount, 0 < n
  step_size_days : ∀ n ∈ spec.stepSizeDays, 0 < n
  step_size_candles : ∀ n ∈ spec.stepSizeCandles, 0 < n

theorem given_eq {n : Option ℤ} (h : ∀ k ∈ n, 0 < k) : given n = n := by
  cases n with
  | none => rfl
  | some k => simp [given, (h k rfl).ne']

theorem PositiveSizes.positiveCounts {spec : WalkForwardWindowSpec} (h : PositiveSizes spec) :
    PositiveCounts spec := by
  rw [PositiveCounts, given_eq h.train_candle_count, given_eq h.test_candle_count,
    given_eq h.step_size_candles]
  exact fun train htrain test htest =>
    ⟨h.train_candle_count train htrain, h.test_candle_count test htest, h.step_size_candles⟩

/-- The sizes of a specification are taken from these numbers of days. -/
structure UsesDays (spec : WalkForwardWindowSpec) (trainDays testDays : ℤ) : Prop where
  no_counts : spec.trainCandleCount = none ∨ spec.testCandleCount = none
  train_days : spec.trainDurationDays = some trainDays
  test_days : spec.testDurationDays = some testDays

variable {spec : WalkForwardWindowSpec}

/-- The sizes from days, at the candles of a day. -/
theorem resolveWindowSizes_of_days (hspec : PositiveSizes spec) {trainDays testDays : ℤ}
    (hdays : UsesDays spec trainDays testDays) (timestamps : List ℤ) :
    resolveWindowSizes spec timestamps =
      sizesOfDays trainDays testDays spec.stepSizeDays (candlesPerDay timestamps) := by
  unfold resolveWindowSizes
  rw [given_eq hspec.train_candle_count, given_eq hspec.test_candle_count,
    given_eq hspec.train_duration_days, given_eq hspec.test_duration_days, hdays.train_days,
    hdays.test_days]
  rcases hdays.no_counts with h | h
  · rw [h]
  · rw [h]
    split
    · rename_i hnone
      cases hnone
    · rfl

/-- All other sizes do not depend on the unit. -/
theorem resolveWindowSizes_inMillis (hspec : PositiveSizes spec)
    (hdays : ¬ ∃ trainDays testDays, UsesDays spec trainDays testDays) (timestamps : List ℤ) :
    resolveWindowSizes spec (inMillis timestamps) = resolveWindowSizes spec timestamps := by
  unfold resolveWindowSizes
  rw [length_inMillis]
  split
  · rfl
  rename_i hcounts
  rw [given_eq hspec.train_candle_count, given_eq hspec.test_candle_count] at hcounts
  split
  · rename_i trainDays testDays htrain htest
    rw [given_eq hspec.train_duration_days] at htrain
    rw [given_eq hspec.test_duration_days] at htest
    refine absurd ⟨trainDays, testDays, ?_, htrain, htest⟩ hdays
    cases htrain_count : spec.trainCandleCount with
    | none => exact .inl rfl
    | some train =>
      cases htest_count : spec.testCandleCount with
      | none => exact .inr rfl
      | some test => exact (hcounts train test htrain_count htest_count).elim
  · rfl

/-! ## §5 Folds that tell the sizes -/

/-- The generator returns these folds in seconds and in milliseconds. -/
def SameFolds (spec : WalkForwardWindowSpec) (timestamps : List ℤ) : Prop :=
  ∃ folds, Returns spec timestamps (.ok folds) ∧ Returns spec (inMillis timestamps) (.ok folds)

theorem tick_unique (hts : EpochSeconds timestamps) {i j : ℕ} {time : Retention.Instant}
    (hi : IsTick timestamps i time) (hj : IsTick timestamps j time) : i = j := by
  obtain ⟨t, ht, htime⟩ := hi
  obtain ⟨t', ht', htime'⟩ := hj
  have hmicros : ∀ {t}, t ∈ timestamps → timestampToDatetime t = .ok time →
      (time.micros : ℤ) = epochSeconds * 10 ^ 6 + t * 10 ^ 6 := by
    intro t hmem htime
    have hread : microsOf t = epochSeconds * 10 ^ 6 + t * 10 ^ 6 := by
      unfold microsOf
      rw [if_neg (not_lt.mpr (hts.seconds t hmem))]
    unfold timestampToDatetime at htime
    split at htime
    · rename_i hrange
      rw [← Except.ok.inj htime, ← hread]
      exact Int.toNat_of_nonneg hrange.1
    · cases htime
  have hsame : t = t' := by
    have h := hmicros (List.mem_of_getElem? ht) htime
    rw [hmicros (List.mem_of_getElem? ht') htime'] at h
    omega
  obtain ⟨hi, rfl⟩ := List.getElem?_eq_some_iff.mp ht
  obtain ⟨hj, hget⟩ := List.getElem?_eq_some_iff.mp (hsame ▸ ht')
  have hnodup : timestamps.Nodup := hts.increasing.imp ne_of_lt
  exact (hnodup.getElem_inj_iff.mp hget).symm

/-- **Two sizes that make the same first fold have the same windows**, and the same step when they
    make the same second one. -/
theorem sizes_eq_of_folds_eq (hts : EpochSeconds timestamps) {sizes sizes' : WindowSizes}
    (hpos : sizes.Positive) (hpos' : sizes'.Positive) {k : ℕ} {fold : WalkForwardFold}
    (h : ReadsFrom timestamps (foldTicks spec sizes k) fold)
    (h' : ReadsFrom timestamps (foldTicks spec sizes' k) fold) :
    k * sizes.step + sizes.train = k * sizes'.step + sizes'.train ∧ sizes.test = sizes'.test := by
  have hfirst := tick_unique hts h.test_start h'.test_start
  have hlast := tick_unique hts h.test_end h'.test_end
  obtain ⟨htrain, htest, hstep⟩ := hpos
  obtain ⟨htrain', htest', hstep'⟩ := hpos'
  simp only [foldTicks] at hfirst hlast
  have hoffset : ((k * sizes.step.toNat : ℕ) : ℤ) = k * sizes.step := by
    rw [Nat.cast_mul, Int.toNat_of_nonneg hstep.le]
  have hoffset' : ((k * sizes'.step.toNat : ℕ) : ℤ) = k * sizes'.step := by
    rw [Nat.cast_mul, Int.toNat_of_nonneg hstep'.le]
  omega

theorem sameFolds_of_length_lt (hlen : timestamps.length < 4) : SameFolds spec timestamps := by
  refine ⟨[], returns_of_generateFolds 0 (if_pos hlen),
    returns_of_generateFolds 0 (if_pos ?_)⟩
  rwa [length_inMillis]

theorem PositiveSizes.resolved (hspec : PositiveSizes spec) (timestamps : List ℤ) :
    (resolveWindowSizes spec timestamps).Positive :=
  positive_resolveWindowSizes.mpr hspec.positiveCounts

/-- In milliseconds the loop is that over the seconds, with other sizes. -/
theorem returns_inMillis (hts : EpochSeconds timestamps) (hlen : ¬ timestamps.length < 4) {fuel : ℕ}
    {result : Except FoldError (List WalkForwardFold)}
    (hloop : foldLoop spec timestamps (resolveWindowSizes spec (inMillis timestamps)) fuel 0 0 =
      some result) : Returns spec (inMillis timestamps) result := by
  rw [← foldLoop_inMillis hts] at hloop
  exact returns_of_foldLoop (by rwa [length_inMillis]) hloop

/-- Sizes that do not depend on the unit make the same folds. -/
theorem sameFolds_of_sizes (hts : EpochSeconds timestamps) (hspec : PositiveSizes spec)
    (hlen : ¬ timestamps.length < 4)
    (hsizes : resolveWindowSizes spec (inMillis timestamps) = resolveWindowSizes spec timestamps) :
    SameFolds spec timestamps := by
  obtain ⟨folds, _, hloop, -⟩ := foldLoop_sound spec hts.representable
    (hspec.resolved timestamps)
  have hmillis := hloop
  rw [← hsizes] at hmillis
  exact ⟨folds, returns_of_foldLoop hlen hloop, returns_inMillis hts hlen hmillis⟩

/-! ## §6 The exact condition -/

/-- The step that a specification in days asks for. -/
def stepDays (spec : WalkForwardWindowSpec) (testDays : ℤ) : ℤ := spec.stepSizeDays.getD testDays

theorem stepDays_pos (hspec : PositiveSizes spec) {testDays : ℤ} (htest : 0 < testDays) :
    0 < stepDays spec testDays := by
  unfold stepDays
  cases hstep : spec.stepSizeDays with
  | none => exact htest
  | some step => exact hspec.step_size_days step hstep

theorem sizesOfDays_eq (hspec : PositiveSizes spec) {trainDays testDays perDay : ℤ}
    (htest : 0 < testDays) (hperDay : 1 ≤ perDay) :
    sizesOfDays trainDays testDays spec.stepSizeDays perDay =
      ⟨max 2 (trainDays * perDay), max 2 (testDays * perDay), stepDays spec testDays * perDay⟩ := by
  have hstep : 1 ≤ stepDays spec testDays * perDay :=
    Int.mul_pos (stepDays_pos hspec htest) hperDay
  unfold sizesOfDays stepDays at *
  rw [given_eq hspec.step_size_days]
  cases hdays : spec.stepSizeDays with
  | none =>
    rw [hdays] at hstep
    simpa using hstep
  | some days =>
    rw [hdays] at hstep
    simpa using hstep

/-- The folds do not depend on the unit.  `perDayInMillis` is what a day has of candles when the
    median gap counts for a thousand times what it is. -/
def UnitFree (spec : WalkForwardWindowSpec) (timestamps : List ℤ) : Prop :=
  timestamps.length < 4 ∨ (¬ ∃ trainDays testDays, UsesDays spec trainDays testDays) ∨
    57600 < medianGap timestamps ∨
    ∃ trainDays testDays, UsesDays spec trainDays testDays ∧
      -- no window fits, not even one that is far too small
      (timestamps.length < max 2 (trainDays * perDayInMillis (medianGap timestamps)) +
          max 2 (testDays * perDayInMillis (medianGap timestamps)) ∨
        -- windows of a day are at least two ticks long, and there is one fold
        trainDays = 1 ∧ testDays = 1 ∧ 34560 ≤ medianGap timestamps ∧
          timestamps.length < 4 + stepDays spec 1)

/-- A window of two ticks at least has another size at fewer candles a day, unless both are of
    two ticks. -/
theorem clamped_eq {days perDay perDay' : ℤ} (hdays : 0 < days) (hone : 1 ≤ perDay')
    (hlt : perDay' < perDay)
    (h : max 2 (days * perDay) = max 2 (days * perDay')) : days = 1 ∧ perDay = 2 := by
  have hless : days * perDay' + days ≤ days * perDay := by nlinarith
  have hlarge : 2 * days ≤ days * perDay := by nlinarith
  have hexact : days * perDay = 2 := by omega
  have hdays_one : days = 1 := by omega
  rw [hdays_one, one_mul] at hexact
  exact ⟨hdays_one, hexact⟩

section TwoSizes

variable {sizes sizes' : WindowSizes} {folds folds' : List WalkForwardFold}

theorem FoldsOf.eq_nil (hfolds : FoldsOf spec timestamps sizes folds) (hstep : 0 < sizes.step)
    (hnone : timestamps.length < sizes.train + sizes.test) : folds = [] := by
  refine List.eq_nil_of_length_eq_zero ?_
  rw [hfolds.length_eq, foldCount_of_not_fits hstep (by omega)]

/-- Folds that are the same at a smaller step are at most one, of the same windows. -/
theorem FoldsOf.windows_eq (hts : EpochSeconds timestamps) (hpos : sizes.Positive)
    (hpos' : sizes'.Positive) (hstep : sizes'.step < sizes.step)
    (hfolds : FoldsOf spec timestamps sizes folds) (hfolds' : FoldsOf spec timestamps sizes' folds)
    (hsome : ¬ timestamps.length < sizes'.train + sizes'.test) :
    sizes.train = sizes'.train ∧ sizes.test = sizes'.test ∧
      timestamps.length < sizes'.train + sizes'.test + sizes'.step := by
  have hlength := hfolds'.length_eq
  have hfirst : 0 < folds.length := by
    rw [hlength]
    exact (foldCount_pos_iff hpos'.step_pos).mpr (by omega)
  obtain ⟨htrain_eq, htest_eq⟩ :=
    sizes_eq_of_folds_eq hts hpos hpos' (hfolds.reads 0 hfirst) (hfolds'.reads 0 hfirst)
  simp only [Nat.cast_zero, zero_mul, zero_add] at htrain_eq
  refine ⟨htrain_eq, htest_eq, ?_⟩
  -- a second fold would begin at another tick
  by_contra hfits
  rw [foldCount_of_fits hpos'.step_pos (by omega)] at hlength
  have hrest : 0 < foldCount timestamps.length sizes' (0 + sizes'.step) :=
    (foldCount_pos_iff hpos'.step_pos).mpr (by omega)
  have hsecond : 1 < folds.length := by omega
  have hstep_eq :=
    (sizes_eq_of_folds_eq hts hpos hpos' (hfolds.reads 1 hsecond) (hfolds'.reads 1 hsecond)).1
  simp only [Nat.cast_one, one_mul] at hstep_eq
  omega

theorem FoldsOf.length_eq_one (hfolds : FoldsOf spec timestamps sizes folds)
    (hpos : sizes.Positive) (hsome : ¬ timestamps.length < sizes.train + sizes.test)
    (hone : timestamps.length < sizes.train + sizes.test + sizes.step) : folds.length = 1 := by
  rw [hfolds.length_eq, foldCount_of_fits hpos.step_pos (by omega),
    foldCount_of_not_fits hpos.step_pos (by omega)]

/-- One fold does not depend on the step. -/
theorem FoldsOf.eq_of_single (hpos : sizes.Positive) (hpos' : sizes'.Positive)
    (hstep : sizes'.step < sizes.step) (hfolds : FoldsOf spec timestamps sizes folds)
    (hfolds' : FoldsOf spec timestamps sizes' folds') (htrain : sizes.train = sizes'.train)
    (htest : sizes.test = sizes'.test)
    (hsome : ¬ timestamps.length < sizes'.train + sizes'.test)
    (hone : timestamps.length < sizes'.train + sizes'.test + sizes'.step) : folds = folds' := by
  obtain ⟨fold, rfl⟩ := List.length_eq_one_iff.mp
    (hfolds.length_eq_one hpos (by omega) (by omega))
  obtain ⟨fold', rfl⟩ := List.length_eq_one_iff.mp (hfolds'.length_eq_one hpos' hsome hone)
  have hwindow : windowAt spec sizes 0 ((0 : ℕ) * sizes.step) =
      windowAt spec sizes' 0 ((0 : ℕ) * sizes'.step) := by
    simp only [windowAt, Nat.cast_zero, zero_mul, htrain, htest]
  have hfold := hfolds.created 0 (Nat.lt_succ_self 0)
  rw [hwindow, hfolds'.created 0 (Nat.lt_succ_self 0)] at hfold
  obtain rfl : fold' = fold := Except.ok.inj hfold
  rfl

/-- Windows of some days, with `secs` candles a day and with fewer.

    The step in ticks is smaller with fewer candles, so more than one fold gives the count away.
    The windows are no larger, and equal only where both counts are clamped to the two ticks that a
    window has at least. -/
theorem FoldsOf.days_eq_iff (hts : EpochSeconds timestamps)
    {trainDays testDays step secs millis : ℤ} (htrain : 0 < trainDays) (htest : 0 < testDays)
    (hstep : 0 < step) (hone : 1 ≤ millis) (hlt : millis < secs)
    (hfolds : FoldsOf spec timestamps
      ⟨max 2 (trainDays * secs), max 2 (testDays * secs), step * secs⟩ folds)
    (hfolds' : FoldsOf spec timestamps
      ⟨max 2 (trainDays * millis), max 2 (testDays * millis), step * millis⟩ folds') :
    folds = folds' ↔
      timestamps.length < max 2 (trainDays * millis) + max 2 (testDays * millis) ∨
        trainDays = 1 ∧ testDays = 1 ∧ secs = 2 ∧ timestamps.length < 4 + step := by
  have hpos : WindowSizes.Positive
      ⟨max 2 (trainDays * secs), max 2 (testDays * secs), step * secs⟩ :=
    ⟨lt_max_of_lt_left two_pos, lt_max_of_lt_left two_pos, Int.mul_pos hstep (by omega)⟩
  have hpos' : WindowSizes.Positive
      ⟨max 2 (trainDays * millis), max 2 (testDays * millis), step * millis⟩ :=
    ⟨lt_max_of_lt_left two_pos, lt_max_of_lt_left two_pos, Int.mul_pos hstep (by omega)⟩
  have hstep_lt : step * millis < step * secs := Int.mul_lt_mul_of_pos_left hlt hstep
  have htrain_le : trainDays * millis ≤ trainDays * secs :=
    Int.mul_le_mul_of_nonneg_left hlt.le htrain.le
  have htest_le : testDays * millis ≤ testDays * secs :=
    Int.mul_le_mul_of_nonneg_left hlt.le htest.le
  by_cases hnone : timestamps.length < max 2 (trainDays * millis) + max 2 (testDays * millis)
  · -- too few ticks for the smaller windows: no folds at all
    refine iff_of_true ?_ (.inl hnone)
    rw [hfolds'.eq_nil hpos'.step_pos hnone, hfolds.eq_nil hpos.step_pos (by simp only; omega)]
  rw [or_iff_right hnone]
  constructor
  · rintro rfl
    obtain ⟨htrain_eq, htest_eq, hsingle⟩ :=
      hfolds.windows_eq hts hpos hpos' hstep_lt hfolds' hnone
    obtain ⟨rfl, rfl⟩ := clamped_eq htrain hone hlt htrain_eq
    obtain ⟨rfl, -⟩ := clamped_eq htest hone hlt htest_eq
    obtain rfl : millis = 1 := by omega
    refine ⟨rfl, rfl, rfl, ?_⟩
    simp only [mul_one] at hsingle
    omega
  · rintro ⟨rfl, rfl, rfl, hsingle⟩
    obtain rfl : millis = 1 := by omega
    refine hfolds.eq_of_single hpos hpos' hstep_lt hfolds' rfl rfl hnone ?_
    simp only [mul_one]
    omega

end TwoSizes

/-- The generation ends in both units, so there are folds to be compared. -/
theorem exists_foldsOf_both (hts : EpochSeconds timestamps) (hspec : PositiveSizes spec)
    (hlen : ¬ timestamps.length < 4) :
    ∃ folds folds', FoldsOf spec timestamps (resolveWindowSizes spec timestamps) folds ∧
      FoldsOf spec timestamps (resolveWindowSizes spec (inMillis timestamps)) folds' ∧
      (SameFolds spec timestamps ↔ folds = folds') := by
  obtain ⟨folds, _, hloop, hfolds⟩ :=
    foldLoop_sound spec hts.representable (hspec.resolved timestamps)
  obtain ⟨folds', _, hloop', hfolds'⟩ :=
    foldLoop_sound spec hts.representable (hspec.resolved (inMillis timestamps))
  have hreturns := returns_of_foldLoop hlen hloop
  have hreturns' := returns_inMillis hts hlen hloop'
  refine ⟨folds, folds', hfolds, hfolds', ?_, ?_⟩
  · rintro ⟨_, h, h'⟩
    exact (Except.ok.inj (hreturns.unique h)).trans (Except.ok.inj (h'.unique hreturns'))
  · rintro rfl
    exact ⟨folds, hreturns, hreturns'⟩

theorem UsesDays.unique {trainDays testDays trainDays' testDays' : ℤ}
    (h : UsesDays spec trainDays testDays) (h' : UsesDays spec trainDays' testDays') :
    trainDays = trainDays' ∧ testDays = testDays' :=
  ⟨Option.some.inj (h.train_days.symm.trans h'.train_days),
    Option.some.inj (h.test_days.symm.trans h'.test_days)⟩

/-- For sizes from days, up to a median gap of sixteen hours.

    A day has two candles from a gap of 9.6 hours on, and then one in milliseconds. -/
theorem sameFolds_iff_of_days (hts : EpochSeconds timestamps) (hspec : PositiveSizes spec)
    (hlen : ¬ timestamps.length < 4) {trainDays testDays : ℤ}
    (hdays : UsesDays spec trainDays testDays) (hgap : medianGap timestamps ≤ 57600) :
    SameFolds spec timestamps ↔
      timestamps.length < max 2 (trainDays * perDayInMillis (medianGap timestamps)) +
          max 2 (testDays * perDayInMillis (medianGap timestamps)) ∨
        trainDays = 1 ∧ testDays = 1 ∧ 34560 ≤ medianGap timestamps ∧
          timestamps.length < 4 + stepDays spec 1 := by
  have htrain : 0 < trainDays := hspec.train_duration_days _ hdays.train_days
  have htest : 0 < testDays := hspec.test_duration_days _ hdays.test_days
  have hgap_pos := medianGap_pos hts (by omega : ¬ timestamps.length < 2)
  have htwo := two_le_perDay hgap_pos hgap
  have hone := one_le_perDayInMillis (medianGap timestamps)
  obtain ⟨folds, folds', hfolds, hfolds', hsame⟩ := exists_foldsOf_both hts hspec hlen
  -- the sizes, as days times the candles of a day
  rw [resolveWindowSizes_of_days hspec hdays, candlesPerDay_seconds hts (by omega),
    sizesOfDays_eq hspec htest (by omega)] at hfolds
  rw [resolveWindowSizes_of_days hspec hdays, candlesPerDay_inMillis hts (by omega),
    sizesOfDays_eq hspec htest hone] at hfolds'
  rw [hsame, FoldsOf.days_eq_iff hts htrain htest (stepDays_pos hspec htest) hone
    (perDayInMillis_lt_perDay hgap_pos hgap) hfolds hfolds', perDay_eq_two_iff hgap_pos]
  refine or_congr_right ?_
  constructor
  · rintro ⟨rfl, rfl, ⟨hlow, -⟩, hsingle⟩
    exact ⟨rfl, rfl, hlow, hsingle⟩
  · rintro ⟨rfl, rfl, hlow, hsingle⟩
    exact ⟨rfl, rfl, ⟨hlow, hgap⟩, hsingle⟩

/-- **Folds do not depend on the unit exactly where the gaps do not matter**, or are long enough to
    be told apart, or make no difference in the end.

    The interval of the candles is taken for milliseconds where the gap is large, not where the
    timestamps are.  A gap in milliseconds below that bound is read as seconds, and a day then has
    fewer candles. -/
theorem generateFolds_inMillis_iff (hspec : PositiveSizes spec) (hts : EpochSeconds timestamps) :
    SameFolds spec timestamps ↔ UnitFree spec timestamps := by
  by_cases hlen : timestamps.length < 4
  · exact iff_of_true (sameFolds_of_length_lt hlen) (.inl hlen)
  by_cases hdays : ∃ trainDays testDays, UsesDays spec trainDays testDays
  · obtain ⟨trainDays, testDays, hdays⟩ := hdays
    by_cases hgap : medianGap timestamps ≤ 57600
    · rw [sameFolds_iff_of_days hts hspec hlen hdays hgap]
      constructor
      · intro h
        exact .inr (.inr (.inr ⟨trainDays, testDays, hdays, h⟩))
      · rintro (h | h | h | ⟨_, _, hdays', h⟩)
        · exact absurd h hlen
        · exact absurd ⟨_, _, hdays⟩ h
        · omega
        · obtain ⟨rfl, rfl⟩ := hdays.unique hdays'
          exact h
    · have hlong := not_le.mp hgap
      refine iff_of_true (sameFolds_of_sizes hts hspec hlen ?_) (.inr (.inr (.inl hlong)))
      rw [resolveWindowSizes_of_days hspec hdays, resolveWindowSizes_of_days hspec hdays,
        candlesPerDay_inMillis hts (by omega), candlesPerDay_seconds hts (by omega),
        perDay_of_lt hlong, perDayInMillis_of_lt (by omega)]
  · exact iff_of_true
      (sameFolds_of_sizes hts hspec hlen (resolveWindowSizes_inMillis hspec hdays timestamps))
      (.inr (.inl hdays))

/-- A training and a test window of a day each. -/
def daysSpec : WalkForwardWindowSpec where
  trainDurationDays := some 1
  testDurationDays := some 1

theorem positiveSizes_daysSpec : PositiveSizes daysSpec := by
  constructor <;> decide

/-- Daily ticks make the same folds in milliseconds. -/
theorem generateFolds_inMillis_daily :
    SameFolds daysSpec [1700006400, 1700092800, 1700179200, 1700265600] := by
  have hts : EpochSeconds [1700006400, 1700092800, 1700179200, 1700265600] := by
    constructor <;> decide
  exact (generateFolds_inMillis_iff positiveSizes_daysSpec hts).mpr (.inr (.inr (.inl (by decide))))

/-- The number of folds, by a run within some bound. -/
theorem length_of_returns (fuel : ℕ) {n : ℕ} {folds : List WalkForwardFold}
    (hrun : (generateFolds fuel spec timestamps).map (·.map List.length) = some (.ok n))
    (h : Returns spec timestamps (.ok folds)) : folds.length = n := by
  obtain ⟨result, hresult, hlength⟩ := Option.map_eq_some_iff.mp hrun
  obtain rfl := h.unique (returns_of_generateFolds fuel hresult)
  exact Except.ok.inj hlength

/-- Eight ticks that are six hours apart make one fold of four and four ticks; in milliseconds
    they make folds of two and two. -/
theorem generateFolds_inMillis_six_hours :
    let timestamps := [1700006400, 1700028000, 1700049600, 1700071200, 1700092800, 1700114400,
      1700136000, 1700157600]
    PositiveSizes daysSpec ∧ EpochSeconds timestamps ∧ ¬ SameFolds daysSpec timestamps := by
  refine ⟨positiveSizes_daysSpec, by constructor <;> decide, ?_⟩
  rintro ⟨folds, hseconds, hmillis⟩
  have hone : folds.length = 1 := length_of_returns 10 (by decide +kernel) hseconds
  have hfive : folds.length = 5 := length_of_returns 10 (by decide +kernel) hmillis
  omega

end CryptoTrading.WalkForward
