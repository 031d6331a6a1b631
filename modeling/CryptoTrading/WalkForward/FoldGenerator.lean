import Mathlib.Data.List.Sort
import Mathlib.Data.Rat.Floor
import CryptoTrading.Lib.Rounding
import CryptoTrading.Retention.Durations

/-!
# Walk-forward folds

Embeds `src/walk_forward/generator/fold_generator.py` and the records of
`api/interfaces/walk_forward.py` that it reads and makes.

The generator cuts a list of ticks into folds, each a training window with a test window behind
it.  The sizes of the windows come from one of three specifications, and none of them is
validated: candle counts reach the loop as they were given.

- The loop ends for every specification, at times by raising (`generateFolds_ends`).
- With positive counts the folds are those of consecutive windows (`generateFolds_sound`).

Seconds and ratios are exact rational numbers.  Python reads a negative index from the end of a
list, and so does `getItem`.
-/

namespace CryptoTrading.WalkForward

open CryptoTrading.Lib (bind_eq_ok roundHalfEven)
open CryptoTrading.Retention (Instant)

/-! ## §1 Specifications and folds -/

inductive WindowMode where
  | rolling
  | expanding
  deriving DecidableEq

structure WalkForwardWindowSpec where
  trainDurationDays : Option ℤ := none
  trainCandleCount : Option ℤ := none
  testDurationDays : Option ℤ := none
  testCandleCount : Option ℤ := none
  stepSizeDays : Option ℤ := none
  stepSizeCandles : Option ℤ := none
  warmupCandleCount : ℤ := 0
  windowMode : WindowMode := .rolling
  deriving DecidableEq

structure WalkForwardFold where
  foldIndex : ℕ
  warmupStart : Option Instant
  warmupEnd : Option Instant
  trainStart : Instant
  trainEnd : Instant
  testStart : Instant
  testEnd : Instant
  testWarmupStart : Option Instant
  status : String
  deriving DecidableEq

/-- What the generator raises. -/
inductive FoldError where
  | indexError
  /-- A timestamp of no `datetime`. -/
  | timestampOutOfRange
  deriving DecidableEq

/-- What Python takes for true of an optional number. -/
def given (n : Option ℤ) : Option ℤ := n.filter (· ≠ 0)

/-! ## §2 Ticks -/

/-- The seconds from `datetime.min` to the epoch. -/
def epochSeconds : ℤ := 719162 * 86400

/-- The microseconds from `datetime.min` to a timestamp, which is in milliseconds when it is
    large. -/
def microsOf (timestamp : ℤ) : ℤ :=
  epochSeconds * 10 ^ 6 +
    if timestamp > 100000000000 then timestamp * 10 ^ 3 else timestamp * 10 ^ 6

/-- `_timestamp_to_datetime`. -/
def timestampToDatetime (timestamp : ℤ) : Except FoldError Instant :=
  if h : 0 ≤ microsOf timestamp ∧ (microsOf timestamp).toNat < 3652059 * 86400 * 10 ^ 6 then
    .ok ⟨(microsOf timestamp).toNat, h.2⟩
  else .error .timestampOutOfRange

/-- A timestamp that a `datetime` can hold. -/
def Representable (timestamp : ℤ) : Prop := ∃ time, timestampToDatetime timestamp = .ok time

theorem representable_iff {timestamp : ℤ} : Representable timestamp ↔
    0 ≤ microsOf timestamp ∧ (microsOf timestamp).toNat < 3652059 * 86400 * 10 ^ 6 := by
  unfold Representable timestampToDatetime
  split
  case isTrue h => exact iff_of_true ⟨_, rfl⟩ h
  case isFalse h => exact iff_of_false (by rintro ⟨_, ⟨⟩⟩) h

instance (timestamp : ℤ) : Decidable (Representable timestamp) :=
  decidable_of_iff _ representable_iff.symm

/-- `timestamps[i]`. -/
def getItem (timestamps : List ℤ) (i : ℤ) : Except FoldError ℤ :=
  let position := if i < 0 then i + timestamps.length else i
  match if position < 0 then none else timestamps[position.toNat]? with
  | some timestamp => .ok timestamp
  | none => .error .indexError

/-- `_timestamp_to_datetime(timestamps[i])`. -/
def timeAt (timestamps : List ℤ) (i : ℤ) : Except FoldError Instant := do
  timestampToDatetime (← getItem timestamps i)

/-- The same at an index that may be missing. -/
def timeAt? (timestamps : List ℤ) : Option ℤ → Except FoldError (Option Instant)
  | some i => some <$> timeAt timestamps i
  | none => .ok none

/-! ## §3 Window sizes -/

/-- The seconds between two neighbouring ticks, from milliseconds when the difference is large. -/
def gapSeconds (t1 t2 : ℤ) : ℚ :=
  let diff := |t2 - t1|
  if diff > 100000000000 then diff / 1000 else diff

/-- The first gaps, `diffs` before it is sorted. -/
def sampledGaps (timestamps : List ℤ) : List ℚ :=
  (((timestamps.zip timestamps.tail).take 50).map fun p => gapSeconds p.1 p.2).filter (0 < ·)

/-- `_estimate_candle_interval_seconds`. -/
def estimateCandleIntervalSeconds (timestamps : List ℤ) : ℚ :=
  if timestamps.length < 2 then 86400
  else
    let diffs := (sampledGaps timestamps).insertionSort (· ≤ ·)
    -- there is no middle exactly when there are no gaps
    diffs[diffs.length / 2]?.getD 86400

structure WindowSizes where
  train : ℤ
  test : ℤ
  step : ℤ
  deriving DecidableEq

/-- The candles of a day, at least one. -/
def candlesPerDay (timestamps : List ℤ) : ℤ :=
  max 1 (roundHalfEven (86400 / estimateCandleIntervalSeconds timestamps))

/-- The branch of `_resolve_window_sizes` for durations in days. -/
def sizesOfDays (trainDays testDays : ℤ) (stepDays : Option ℤ) (perDay : ℤ) : WindowSizes :=
  let train := trainDays * perDay
  let test := testDays * perDay
  let step := match given stepDays with
    | some days => days * perDay
    | none => test
  ⟨max 2 train, max 2 test, max 1 step⟩

/-- The fallback of `_resolve_window_sizes`: 60% training, 20% test. -/
def heuristicSizes (total : ℤ) : WindowSizes :=
  let train := max 2 (total * 3 / 5)
  let test := max 2 (total / 5)
  ⟨train, test, max 1 test⟩

/-- `_resolve_window_sizes`. -/
def resolveWindowSizes (spec : WalkForwardWindowSpec) (timestamps : List ℤ) : WindowSizes :=
  match given spec.trainCandleCount, given spec.testCandleCount with
  | some train, some test => ⟨train, test, (given spec.stepSizeCandles).getD test⟩
  | _, _ =>
    match given spec.trainDurationDays, given spec.testDurationDays with
    | some trainDays, some testDays =>
      sizesOfDays trainDays testDays spec.stepSizeDays (candlesPerDay timestamps)
    | _, _ => heuristicSizes timestamps.length

/-! ## §4 The loop -/

/-- The arguments of `_create_fold`. -/
structure FoldWindow where
  foldIdx : ℕ
  trainStartIdx : ℤ
  trainEndIdx : ℤ
  testStartIdx : ℤ
  testEndIdx : ℤ
  warmupCount : ℤ
  deriving DecidableEq

/-- `_create_fold`. -/
def createFold (timestamps : List ℤ) (w : FoldWindow) : Except FoldError WalkForwardFold := do
  let warmupStartIdx := max 0 (w.trainStartIdx - w.warmupCount)
  let hasWarmup : Bool := w.trainStartIdx > warmupStartIdx
  let warmupStart ← timeAt? timestamps (if hasWarmup then some warmupStartIdx else none)
  let warmupEnd ← timeAt? timestamps (if hasWarmup then some (w.trainStartIdx - 1) else none)
  let testWarmupStartIdx := max 0 (w.testStartIdx - w.warmupCount)
  let hasTestWarmup : Bool := w.testStartIdx > testWarmupStartIdx
  let testWarmupStart ← timeAt? timestamps (if hasTestWarmup then some testWarmupStartIdx else none)
  let trainStart ← timeAt timestamps w.trainStartIdx
  let trainEnd ← timeAt timestamps w.trainEndIdx
  let testStart ← timeAt timestamps w.testStartIdx
  let testEnd ← timeAt timestamps w.testEndIdx
  pure
    { foldIndex := w.foldIdx
      warmupStart := warmupStart
      warmupEnd := warmupEnd
      trainStart := trainStart
      trainEnd := trainEnd
      testStart := testStart
      testEnd := testEnd
      testWarmupStart := testWarmupStart
      status := "PENDING" }

/-- What a pass of the loop hands to `_create_fold`. -/
def windowAt (spec : WalkForwardWindowSpec) (sizes : WindowSizes) (foldIdx : ℕ)
    (currentOffset : ℤ) : FoldWindow where
  foldIdx := foldIdx
  trainStartIdx := match spec.windowMode with
    | .rolling => currentOffset
    | .expanding => 0
  trainEndIdx := currentOffset + sizes.train - 1
  testStartIdx := currentOffset + sizes.train
  testEndIdx := currentOffset + sizes.train + sizes.test - 1
  warmupCount := max 0 spec.warmupCandleCount

/-- The `while` loop, with a bound on its passes; `none` when the bound is reached. -/
def foldLoop (spec : WalkForwardWindowSpec) (timestamps : List ℤ) (sizes : WindowSizes) :
    ℕ → ℕ → ℤ → Option (Except FoldError (List WalkForwardFold))
  | 0, _, _ => none
  | fuel + 1, foldIdx, currentOffset =>
    if currentOffset + sizes.train + sizes.test ≤ timestamps.length then
      match createFold timestamps (windowAt spec sizes foldIdx currentOffset) with
      | .error error => some (.error error)
      | .ok fold =>
        (foldLoop spec timestamps sizes fuel (foldIdx + 1) (currentOffset + sizes.step)).map
          fun result => result.map (fold :: ·)
    else some (.ok [])

/-- `WalkForwardFoldGenerator.generate_folds`, with a bound on the passes of its loop. -/
def generateFolds (fuel : ℕ) (spec : WalkForwardWindowSpec) (timestamps : List ℤ) :
    Option (Except FoldError (List WalkForwardFold)) :=
  if timestamps.length < 4 then some (.ok [])
  else
    let sizes := resolveWindowSizes spec timestamps
    if sizes.train + sizes.test > timestamps.length then some (.ok [])
    else foldLoop spec timestamps sizes fuel 0 0

/-- The generator ends with a result, however many passes it is granted beyond those it needs. -/
def Returns (spec : WalkForwardWindowSpec) (timestamps : List ℤ)
    (result : Except FoldError (List WalkForwardFold)) : Prop :=
  ∃ passes, ∀ fuel ≥ passes, generateFolds fuel spec timestamps = some result

/-! ## §5 The ticks of a fold -/

/-- Neighbouring ticks, by the first and the last of them. -/
structure Span where
  first : ℕ
  last : ℕ
  deriving DecidableEq

def Span.size (span : Span) : ℤ := span.last - span.first + 1

/-- The ticks that a fold reads. -/
structure FoldTicks where
  warmup : Option Span
  train : Span
  test : Span
  testWarmup : Option Span
  deriving DecidableEq

/-- A time is that of a tick. -/
def IsTick (timestamps : List ℤ) (i : ℕ) (time : Instant) : Prop :=
  ∃ timestamp, timestamps[i]? = some timestamp ∧ timestampToDatetime timestamp = .ok time

/-- A fold has the times of its ticks.  The last tick before the test window is not written
    down. -/
structure ReadsFrom (timestamps : List ℤ) (ticks : FoldTicks) (fold : WalkForwardFold) : Prop where
  warmup_start : Option.Rel (IsTick timestamps) (ticks.warmup.map (·.first)) fold.warmupStart
  warmup_end : Option.Rel (IsTick timestamps) (ticks.warmup.map (·.last)) fold.warmupEnd
  train_start : IsTick timestamps ticks.train.first fold.trainStart
  train_end : IsTick timestamps ticks.train.last fold.trainEnd
  test_start : IsTick timestamps ticks.test.first fold.testStart
  test_end : IsTick timestamps ticks.test.last fold.testEnd
  test_warmup_start :
    Option.Rel (IsTick timestamps) (ticks.testWarmup.map (·.first)) fold.testWarmupStart

/-- Ticks that warm up for the tick `start`: right before it, and no more than `count`. -/
structure WarmsUp (span : Span) (start : ℕ) (count : ℤ) : Prop where
  ordered : span.first ≤ span.last
  before : span.last + 1 = start
  size_le : span.size ≤ count

/-- The up to `count` ticks before the tick `start`. -/
def warmupSpan (start count : ℕ) : Option Span :=
  if 0 < start ∧ 0 < count then some ⟨start - count, start - 1⟩ else none

theorem warmsUp_of_mem {start count : ℕ} {span : Span} (h : span ∈ warmupSpan start count) :
    WarmsUp span start count := by
  unfold warmupSpan at h
  split at h
  · obtain rfl := Option.some.inj h
    refine ⟨?_, ?_, ?_⟩
    · simp only
      omega
    · simp only
      omega
    · simp only [Span.size]
      omega
  · cases h

theorem getItem_natCast {timestamps : List ℤ} {i : ℕ} (h : i < timestamps.length) :
    getItem timestamps i = .ok timestamps[i] := by
  have hpos : ¬ (i : ℤ) < 0 := by omega
  simp [getItem, hpos, List.getElem?_eq_getElem h]

variable {timestamps : List ℤ}

/-- Every tick has a time when all timestamps are representable. -/
theorem isTick_timeAt (hts : ∀ t ∈ timestamps, Representable t) {i : ℕ}
    (h : i < timestamps.length) : ∃ time, timeAt timestamps i = .ok time ∧
      IsTick timestamps i time := by
  obtain ⟨time, htime⟩ := hts timestamps[i] (List.getElem_mem h)
  refine ⟨time, ?_, timestamps[i], List.getElem?_eq_getElem h, htime⟩
  unfold timeAt
  rw [getItem_natCast h]
  exact htime

theorem isTick_timeAt? (hts : ∀ t ∈ timestamps, Representable t) {i : Option ℕ}
    (h : ∀ n ∈ i, n < timestamps.length) :
    ∃ time, timeAt? timestamps (i.map (↑)) = .ok time ∧ Option.Rel (IsTick timestamps) i time := by
  cases i with
  | none => exact ⟨none, rfl, .none⟩
  | some n =>
    obtain ⟨time, htime, htick⟩ := isTick_timeAt hts (h n rfl)
    refine ⟨some time, ?_, .some htick⟩
    simp only [timeAt?, Option.map_some]
    rw [htime]
    rfl

theorem isTick_warmup (hts : ∀ t ∈ timestamps, Representable t) (start : ℕ)
    (hstart : start ≤ timestamps.length) (count : ℕ) (tick : Span → ℕ)
    (htick : ∀ span : Span, span.first ≤ span.last → tick span ≤ span.last) :
    ∃ time, timeAt? timestamps (((warmupSpan start count).map tick).map (↑)) = .ok time ∧
      Option.Rel (IsTick timestamps) ((warmupSpan start count).map tick) time := by
  refine isTick_timeAt? hts fun n hn => ?_
  obtain ⟨span, hspan, rfl⟩ := Option.mem_map.mp hn
  have hwarms := warmsUp_of_mem hspan
  have hle := htick span hwarms.ordered
  have hbefore := hwarms.before
  omega

/-- The optional index of `_create_fold` is the end of the span of ticks that it computes. -/
theorem warmupStart_eq (start count : ℕ) :
    (if decide ((start : ℤ) > max 0 ((start : ℤ) - count)) then some (max 0 ((start : ℤ) - count))
      else none) = ((warmupSpan start count).map (·.first)).map (↑) := by
  unfold warmupSpan
  by_cases h : 0 < start ∧ 0 < count
  · have hcond : (start : ℤ) > max 0 ((start : ℤ) - count) := by omega
    simp only [decide_eq_true hcond, if_true, if_pos h, Option.map_some]
    congr 1
    omega
  · have hcond : ¬ (start : ℤ) > max 0 ((start : ℤ) - count) := by omega
    rw [decide_eq_false hcond, if_neg h]
    rfl

theorem warmupEnd_eq (start count : ℕ) :
    (if decide ((start : ℤ) > max 0 ((start : ℤ) - count)) then some ((start : ℤ) - 1)
      else none) = ((warmupSpan start count).map (·.last)).map (↑) := by
  unfold warmupSpan
  by_cases h : 0 < start ∧ 0 < count
  · have hcond : (start : ℤ) > max 0 ((start : ℤ) - count) := by omega
    simp only [decide_eq_true hcond, if_true, if_pos h, Option.map_some]
    congr 1
    omega
  · have hcond : ¬ (start : ℤ) > max 0 ((start : ℤ) - count) := by omega
    rw [decide_eq_false hcond, if_neg h]
    rfl

/-- **A fold of ticks of the list is made without error**, and it has the times of its ticks. -/
theorem createFold_reads (hts : ∀ t ∈ timestamps, Representable t) {train test : Span}
    (htrain : train.first ≤ train.last) (hadjacent : test.first = train.last + 1)
    (htest : test.first ≤ test.last) (hlen : test.last < timestamps.length) (foldIdx count : ℕ) :
    ∃ fold, createFold timestamps
        ⟨foldIdx, train.first, train.last, test.first, test.last, count⟩ = .ok fold ∧
      fold.foldIndex = foldIdx ∧
      ReadsFrom timestamps
        ⟨warmupSpan train.first count, train, test, warmupSpan test.first count⟩ fold := by
  obtain ⟨t₁, h₁, r₁⟩ := isTick_warmup hts train.first (by omega) count Span.first
    fun _ h => h
  obtain ⟨t₂, h₂, r₂⟩ := isTick_warmup hts train.first (by omega) count Span.last
    fun _ _ => le_rfl
  obtain ⟨t₃, h₃, r₃⟩ := isTick_warmup hts test.first (by omega) count Span.first
    fun _ h => h
  obtain ⟨t₄, h₄, r₄⟩ := isTick_timeAt hts (i := train.first) (by omega)
  obtain ⟨t₅, h₅, r₅⟩ := isTick_timeAt hts (i := train.last) (by omega)
  obtain ⟨t₆, h₆, r₆⟩ := isTick_timeAt hts (i := test.first) (by omega)
  obtain ⟨t₇, h₇, r₇⟩ := isTick_timeAt hts hlen
  refine ⟨⟨foldIdx, t₁, t₂, t₄, t₅, t₆, t₇, t₃, "PENDING"⟩, ?_, rfl, r₁, r₂, r₄, r₅, r₆, r₇, r₃⟩
  simp only [createFold, warmupStart_eq, warmupEnd_eq, h₁, h₂, h₃, h₄, h₅, h₆, h₇]
  rfl

/-! ## §6 The loop ends -/

section Loop

variable {spec : WalkForwardWindowSpec} {sizes : WindowSizes}

/-- More passes do not change what the loop returns. -/
theorem foldLoop_mono {fuel more foldIdx : ℕ} {currentOffset : ℤ}
    {result : Except FoldError (List WalkForwardFold)} (hmore : fuel ≤ more)
    (h : foldLoop spec timestamps sizes fuel foldIdx currentOffset = some result) :
    foldLoop spec timestamps sizes more foldIdx currentOffset = some result := by
  induction fuel generalizing more foldIdx currentOffset result with
  | zero => cases h
  | succ fuel ih =>
    obtain ⟨more, rfl⟩ : ∃ k, more = k + 1 := ⟨more - 1, by omega⟩
    unfold foldLoop at h ⊢
    split
    case isTrue hfits =>
      rw [if_pos hfits] at h
      cases hfold : createFold timestamps (windowAt spec sizes foldIdx currentOffset) with
      | error error =>
        rw [hfold] at h
        exact h
      | ok fold =>
        simp only [hfold, Option.map_eq_some_iff] at h ⊢
        obtain ⟨rest, hrest, hresult⟩ := h
        exact ⟨rest, ih (by omega) hrest, hresult⟩
    case isFalse hfits =>
      rw [if_neg hfits] at h
      exact h

/-- A pass whose window does not fit ends the loop. -/
theorem foldLoop_of_not_fits {fuel foldIdx : ℕ} {currentOffset : ℤ}
    (hfits : ¬ currentOffset + sizes.train + sizes.test ≤ timestamps.length) :
    foldLoop spec timestamps sizes (fuel + 1) foldIdx currentOffset = some (.ok []) := by
  rw [foldLoop, if_neg hfits]

/-- If the loop ends from the next window, it ends from this one. -/
theorem exists_foldLoop_of_next {foldIdx : ℕ} {currentOffset : ℤ}
    (h : ∀ fold, createFold timestamps (windowAt spec sizes foldIdx currentOffset) = .ok fold →
      ∃ fuel result, foldLoop spec timestamps sizes fuel (foldIdx + 1)
        (currentOffset + sizes.step) = some result) :
    ∃ fuel result, foldLoop spec timestamps sizes fuel foldIdx currentOffset = some result := by
  by_cases hfits : currentOffset + sizes.train + sizes.test ≤ timestamps.length
  · cases hfold : createFold timestamps (windowAt spec sizes foldIdx currentOffset) with
    | error error => exact ⟨1, .error error, by rw [foldLoop, if_pos hfits, hfold]⟩
    | ok fold =>
      obtain ⟨fuel, result, hresult⟩ := h fold hfold
      refine ⟨fuel + 1, result.map (fold :: ·), ?_⟩
      rw [foldLoop, if_pos hfits, hfold]
      simp only [hresult, Option.map_some]
  · exact ⟨1, .ok [], foldLoop_of_not_fits hfits⟩

/-- Windows that move on leave the list. -/
theorem exists_foldLoop_of_step_pos (hstep : 0 < sizes.step) (foldIdx : ℕ) (currentOffset : ℤ) :
    ∃ fuel result, foldLoop spec timestamps sizes fuel foldIdx currentOffset = some result := by
  induction hm : (timestamps.length + 1 - sizes.train - sizes.test - currentOffset).toNat using
    Nat.strong_induction_on generalizing foldIdx currentOffset with
  | _ m ih =>
    by_cases hfits : currentOffset + sizes.train + sizes.test ≤ timestamps.length
    · exact exists_foldLoop_of_next fun _ _ => ih _ (by omega) _ _ rfl
    · exact ⟨1, .ok [], foldLoop_of_not_fits hfits⟩

theorem getItem_eq_ok {i t : ℤ} (h : getItem timestamps i = .ok t) :
    -(timestamps.length : ℤ) ≤ i := by
  by_contra hlow
  have hneg : i < 0 := by omega
  have hposition : i + timestamps.length < 0 := by omega
  simp [getItem, if_pos hneg, if_pos hposition] at h

theorem trainEndIdx_of_createFold {w : FoldWindow} {fold : WalkForwardFold}
    (h : createFold timestamps w = .ok fold) : -(timestamps.length : ℤ) ≤ w.trainEndIdx := by
  unfold createFold at h
  obtain ⟨_, -, h⟩ := bind_eq_ok.mp h
  obtain ⟨_, -, h⟩ := bind_eq_ok.mp h
  obtain ⟨_, -, h⟩ := bind_eq_ok.mp h
  obtain ⟨_, -, h⟩ := bind_eq_ok.mp h
  obtain ⟨_, htrainEnd, -⟩ := bind_eq_ok.mp h
  obtain ⟨_, hitem, -⟩ := bind_eq_ok.mp htrainEnd
  exact getItem_eq_ok hitem

/-- Windows that move back raise before they have left the list twice. -/
theorem exists_foldLoop_of_step_neg (hstep : sizes.step < 0) (foldIdx : ℕ) (currentOffset : ℤ) :
    ∃ fuel result, foldLoop spec timestamps sizes fuel foldIdx currentOffset = some result := by
  induction hm : (currentOffset + sizes.train + timestamps.length).toNat using
    Nat.strong_induction_on generalizing foldIdx currentOffset with
  | _ m ih =>
    refine exists_foldLoop_of_next fun fold hfold => ih _ ?_ _ _ rfl
    -- a window that could be read ends at an index of the list, also of a negative one
    have hend : -(timestamps.length : ℤ) ≤ currentOffset + sizes.train - 1 :=
      trainEndIdx_of_createFold hfold
    omega

end Loop

theorem given_ne_zero {n : Option ℤ} {k : ℤ} (h : k ∈ given n) : k ≠ 0 := by
  have hk := (Option.filter_eq_some_iff.mp h).2
  simpa using hk

theorem step_ne_zero (spec : WalkForwardWindowSpec) (timestamps : List ℤ) :
    (resolveWindowSizes spec timestamps).step ≠ 0 := by
  unfold resolveWindowSizes
  split
  case h_1 train test htrain htest =>
    cases hstep : given spec.stepSizeCandles with
    | none => exact given_ne_zero htest
    | some step => exact given_ne_zero hstep
  case h_2 =>
    split
    · exact (Int.lt_of_lt_of_le Int.zero_lt_one (le_max_left 1 _)).ne'
    · exact (Int.lt_of_lt_of_le Int.zero_lt_one (le_max_left 1 _)).ne'

/-- A result within some bound is the result. -/
theorem returns_of_generateFolds {spec : WalkForwardWindowSpec} (fuel : ℕ)
    {result : Except FoldError (List WalkForwardFold)}
    (h : generateFolds fuel spec timestamps = some result) : Returns spec timestamps result := by
  refine ⟨fuel, fun more hmore => ?_⟩
  unfold generateFolds at h ⊢
  split
  case isTrue hlen => rwa [if_pos hlen] at h
  case isFalse hlen =>
    rw [if_neg hlen] at h
    dsimp only at h ⊢
    split
    case isTrue hfits => rwa [if_pos hfits] at h
    case isFalse hfits =>
      rw [if_neg hfits] at h
      exact foldLoop_mono hmore h

/-- There is one result. -/
theorem Returns.unique {spec : WalkForwardWindowSpec}
    {result result' : Except FoldError (List WalkForwardFold)}
    (h : Returns spec timestamps result) (h' : Returns spec timestamps result') :
    result = result' := by
  obtain ⟨passes, hpasses⟩ := h
  obtain ⟨passes', hpasses'⟩ := h'
  have hresult := hpasses (max passes passes') (le_max_left _ _)
  rw [hpasses' _ (le_max_right _ _)] at hresult
  exact (Option.some.inj hresult).symm

/-- **Generation ends**, for every specification and every list. -/
theorem generateFolds_ends (spec : WalkForwardWindowSpec) (timestamps : List ℤ) :
    ∃ result, Returns spec timestamps result := by
  have hloop : ∃ fuel result, foldLoop spec timestamps (resolveWindowSizes spec timestamps) fuel
      0 0 = some result := by
    rcases lt_or_gt_of_ne (step_ne_zero spec timestamps) with hneg | hpos
    · exact exists_foldLoop_of_step_neg hneg 0 0
    · exact exists_foldLoop_of_step_pos hpos 0 0
  obtain ⟨fuel, result, hresult⟩ := hloop
  by_cases hlen : timestamps.length < 4
  · exact ⟨.ok [], 0, fun _ _ => by rw [generateFolds, if_pos hlen]⟩
  · by_cases hfits : (resolveWindowSizes spec timestamps).train +
        (resolveWindowSizes spec timestamps).test > timestamps.length
    · exact ⟨.ok [], 0, fun _ _ => by rw [generateFolds, if_neg hlen]; exact if_pos hfits⟩
    · refine ⟨result, returns_of_generateFolds fuel ?_⟩
      rw [generateFolds, if_neg hlen]
      dsimp only
      rw [if_neg hfits]
      exact hresult

/-! ## §7 Consecutive windows -/

/-- All sizes are at least one. -/
structure WindowSizes.Positive (sizes : WindowSizes) : Prop where
  train_pos : 0 < sizes.train
  test_pos : 0 < sizes.test
  step_pos : 0 < sizes.step

/-- The candle counts of a specification are positive where the generator takes its sizes from
    them. -/
def PositiveCounts (spec : WalkForwardWindowSpec) : Prop :=
  ∀ train ∈ given spec.trainCandleCount, ∀ test ∈ given spec.testCandleCount,
    0 < train ∧ 0 < test ∧ ∀ step ∈ given spec.stepSizeCandles, 0 < step

/-- **Sizes from durations and from the fallback are clamped**, so that the candle counts alone
    decide. -/
theorem positive_resolveWindowSizes {spec : WalkForwardWindowSpec} :
    (resolveWindowSizes spec timestamps).Positive ↔ PositiveCounts spec := by
  have hclamped : ∀ train test step : ℤ,
      (⟨max 2 train, max 2 test, max 1 step⟩ : WindowSizes).Positive := by
    intro train test step
    exact ⟨by simp, by simp, by simp⟩
  unfold resolveWindowSizes PositiveCounts
  -- the counts decide only if both are given; all other sizes are clamped
  cases htrain : given spec.trainCandleCount with
  | none =>
    refine iff_of_true ?_ fun _ h => absurd h (by simp)
    dsimp only
    split
    · exact hclamped _ _ _
    · exact hclamped _ _ _
  | some train =>
    cases htest : given spec.testCandleCount with
    | none =>
      refine iff_of_true ?_ fun _ _ _ h => absurd h (by simp)
      dsimp only
      split
      · exact hclamped _ _ _
      · exact hclamped _ _ _
    | some test =>
      constructor
      · rintro ⟨htrain_pos, htest_pos, hstep_pos⟩ _ ⟨⟩ _ ⟨⟩
        refine ⟨htrain_pos, htest_pos, fun step hstep => ?_⟩
        rw [Option.mem_def] at hstep
        simpa [hstep] using hstep_pos
      · intro h
        obtain ⟨htrain_pos, htest_pos, hstep_pos⟩ := h train rfl test rfl
        refine ⟨htrain_pos, htest_pos, ?_⟩
        cases hstep : given spec.stepSizeCandles with
        | none => exact htest_pos
        | some step => exact hstep_pos step hstep

/-- The number of windows that fit from an offset on. -/
def foldCount (total : ℕ) (sizes : WindowSizes) (currentOffset : ℤ) : ℕ :=
  ((total - sizes.train - sizes.test - currentOffset) / sizes.step + 1).toNat

section Windows

variable {spec : WalkForwardWindowSpec} {sizes : WindowSizes}

theorem foldCount_of_not_fits {total : ℕ} {currentOffset : ℤ} (hstep : 0 < sizes.step)
    (hfits : ¬ currentOffset + sizes.train + sizes.test ≤ total) :
    foldCount total sizes currentOffset = 0 := by
  have hneg : (total - sizes.train - sizes.test - currentOffset) / sizes.step < 0 :=
    Int.ediv_neg_of_neg_of_pos (by omega) hstep
  unfold foldCount
  omega

theorem foldCount_of_fits {total : ℕ} {currentOffset : ℤ} (hstep : 0 < sizes.step)
    (hfits : currentOffset + sizes.train + sizes.test ≤ total) :
    foldCount total sizes currentOffset =
      foldCount total sizes (currentOffset + sizes.step) + 1 := by
  have hnonneg : 0 ≤ (total - sizes.train - sizes.test - currentOffset) / sizes.step :=
    Int.ediv_nonneg (by omega) hstep.le
  have hnext : (total - sizes.train - sizes.test - (currentOffset + sizes.step)) / sizes.step =
      (total - sizes.train - sizes.test - currentOffset) / sizes.step - 1 := by
    have hshift := Int.add_mul_ediv_right (total - sizes.train - sizes.test - currentOffset) (-1)
      hstep.ne'
    rw [neg_one_mul, ← sub_eq_add_neg, ← sub_eq_add_neg, sub_sub _ currentOffset] at hshift
    exact hshift
  unfold foldCount
  omega

theorem foldCount_pos_iff {total : ℕ} {currentOffset : ℤ} (hstep : 0 < sizes.step) :
    0 < foldCount total sizes currentOffset ↔
      currentOffset + sizes.train + sizes.test ≤ total := by
  by_cases hfits : currentOffset + sizes.train + sizes.test ≤ total
  · rw [foldCount_of_fits hstep hfits]
    exact iff_of_true (Nat.succ_pos _) hfits
  · rw [foldCount_of_not_fits hstep hfits]
    exact iff_of_false (Nat.lt_irrefl 0) hfits

/-- The loop makes the folds of all windows that fit, one after the other. -/
theorem foldLoop_windows (hstep : 0 < sizes.step) (foldIdx : ℕ) (currentOffset : ℤ)
    (hwindows : ∀ k < foldCount timestamps.length sizes currentOffset,
      ∃ fold, createFold timestamps
        (windowAt spec sizes (foldIdx + k) (currentOffset + k * sizes.step)) = .ok fold) :
    ∃ folds, foldLoop spec timestamps sizes (foldCount timestamps.length sizes currentOffset + 1)
        foldIdx currentOffset = some (.ok folds) ∧
      folds.length = foldCount timestamps.length sizes currentOffset ∧
      ∀ k (h : k < folds.length), createFold timestamps
        (windowAt spec sizes (foldIdx + k) (currentOffset + k * sizes.step)) = .ok folds[k] := by
  -- on the number of windows that still fit
  induction hn : foldCount timestamps.length sizes currentOffset generalizing foldIdx
    currentOffset with
  | zero =>
    have hfits : ¬ currentOffset + sizes.train + sizes.test ≤ timestamps.length :=
      fun hfits => absurd hn ((foldCount_pos_iff hstep).mpr hfits).ne'
    exact ⟨[], foldLoop_of_not_fits hfits, rfl, fun k h => absurd h (Nat.not_lt_zero k)⟩
  | succ n ih =>
    have hfits : currentOffset + sizes.train + sizes.test ≤ timestamps.length :=
      (foldCount_pos_iff hstep).mp (hn ▸ Nat.succ_pos n)
    have hnext : foldCount timestamps.length sizes (currentOffset + sizes.step) = n := by
      have := foldCount_of_fits hstep hfits
      omega
    have hshift : ∀ k : ℕ, currentOffset + sizes.step + k * sizes.step =
        currentOffset + (k + 1 : ℕ) * sizes.step := by
      intro k
      push_cast
      ring
    obtain ⟨fold, hfold⟩ := hwindows 0 (by omega)
    obtain ⟨folds, hfolds, hlength, hget⟩ := ih (foldIdx + 1)
      (currentOffset + sizes.step) (fun k hk => by
        rw [hshift, Nat.add_right_comm, Nat.add_assoc]
        exact hwindows (k + 1) (by omega)) hnext
    simp only [Nat.cast_zero, zero_mul, add_zero] at hfold
    refine ⟨fold :: folds, ?_, by rw [List.length_cons, hlength], fun k hk => ?_⟩
    · rw [foldLoop, if_pos hfits, hfold]
      simp only [hfolds, Option.map_some]
      rfl
    · cases k with
      | zero => simpa using hfold
      | succ k =>
        have h := hget k (Nat.lt_of_succ_lt_succ hk)
        rw [hshift, Nat.add_right_comm, Nat.add_assoc] at h
        exact h

end Windows

/-! ## §8 The folds -/

/-- What the ticks of the `k`-th fold of a list satisfy. -/
structure FoldTicks.Sound (spec : WalkForwardWindowSpec) (sizes : WindowSizes) (total k : ℕ)
    (ticks : FoldTicks) : Prop where
  train_ordered : ticks.train.first ≤ ticks.train.last
  adjacent : ticks.test.first = ticks.train.last + 1
  test_ordered : ticks.test.first ≤ ticks.test.last
  in_list : ticks.test.last < total
  test_size : ticks.test.size = sizes.test
  train_size : match spec.windowMode with
    | .rolling => ticks.train.size = sizes.train
    | .expanding => ticks.train.first = 0 ∧ ticks.train.size = sizes.train + k * sizes.step
  warmup : ∀ span ∈ ticks.warmup, WarmsUp span ticks.train.first spec.warmupCandleCount
  test_warmup : ∀ span ∈ ticks.testWarmup, WarmsUp span ticks.test.first spec.warmupCandleCount

/-- The ticks of the `k`-th fold, for positive sizes. -/
def foldTicks (spec : WalkForwardWindowSpec) (sizes : WindowSizes) (k : ℕ) : FoldTicks :=
  let offset := k * sizes.step.toNat
  let trainFirst := match spec.windowMode with
    | .rolling => offset
    | .expanding => 0
  let testFirst := offset + sizes.train.toNat
  { warmup := warmupSpan trainFirst spec.warmupCandleCount.toNat
    train := ⟨trainFirst, testFirst - 1⟩
    test := ⟨testFirst, testFirst + sizes.test.toNat - 1⟩
    testWarmup := warmupSpan testFirst spec.warmupCandleCount.toNat }

section Folds

variable {spec : WalkForwardWindowSpec} {sizes : WindowSizes}

theorem fits_of_lt_foldCount (hstep : 0 < sizes.step) {total k : ℕ}
    (hk : k < foldCount total sizes 0) : k * sizes.step + sizes.train + sizes.test ≤ total := by
  unfold foldCount at hk
  have hquot : (k : ℤ) ≤ (total - sizes.train - sizes.test - 0) / sizes.step := by omega
  have hmul := (Int.le_ediv_iff_mul_le hstep).mp hquot
  omega

theorem foldTicks_sound (hpos : sizes.Positive) {total k : ℕ}
    (hk : k < foldCount total sizes 0) : (foldTicks spec sizes k).Sound spec sizes total k := by
  have hfits := fits_of_lt_foldCount hpos.step_pos hk
  obtain ⟨train, test, step⟩ := sizes
  obtain ⟨htrain, htest, hstep⟩ := hpos
  dsimp only at htrain htest hstep hfits
  lift train to ℕ using htrain.le
  lift test to ℕ using htest.le
  lift step to ℕ using hstep.le
  have hoffset : ((k * step : ℕ) : ℤ) = k * step := Nat.cast_mul k step
  -- the offset of the window is one number in what follows
  generalize hoff : k * step = offset at hoffset
  rw [← hoffset] at hfits
  -- a warm-up ends right before its span and has at most the ticks asked for
  have hwarmup : ∀ start, ∀ span ∈ warmupSpan start spec.warmupCandleCount.toNat,
      WarmsUp span start spec.warmupCandleCount := by
    intro start span hspan
    have hw := warmsUp_of_mem hspan
    have hle := hw.size_le
    have hordered := hw.ordered
    refine ⟨hordered, hw.before, ?_⟩
    unfold Span.size at hle ⊢
    omega
  have hspec : foldTicks spec ⟨train, test, step⟩ k =
      { warmup := warmupSpan (match spec.windowMode with
          | .rolling => offset
          | .expanding => 0) spec.warmupCandleCount.toNat
        train := ⟨match spec.windowMode with
          | .rolling => offset
          | .expanding => 0, offset + train - 1⟩
        test := ⟨offset + train, offset + train + test - 1⟩
        testWarmup := warmupSpan (offset + train) spec.warmupCandleCount.toNat } := by
    simp only [foldTicks, Int.toNat_natCast, hoff]
  rw [hspec]
  refine ⟨?_, ?_, ?_, ?_, ?_, ?_, hwarmup _, hwarmup _⟩
  · cases spec.windowMode <;> dsimp only <;> omega
  · dsimp only
    omega
  · dsimp only
    omega
  · dsimp only
    omega
  · simp only [Span.size]
    omega
  · cases spec.windowMode with
    | rolling =>
      simp only [Span.size]
      omega
    | expanding =>
      simp only [Span.size]
      exact ⟨trivial, by omega⟩

/-- What the loop hands to `_create_fold` are the ticks of the fold. -/
theorem windowAt_eq (hpos : sizes.Positive) (k : ℕ) :
    windowAt spec sizes k (k * sizes.step) =
      ⟨k, (foldTicks spec sizes k).train.first, (foldTicks spec sizes k).train.last,
        (foldTicks spec sizes k).test.first, (foldTicks spec sizes k).test.last,
        spec.warmupCandleCount.toNat⟩ := by
  obtain ⟨train, test, step⟩ := sizes
  obtain ⟨htrain, htest, hstep⟩ := hpos
  dsimp only at htrain htest hstep
  lift train to ℕ using htrain.le
  lift test to ℕ using htest.le
  lift step to ℕ using hstep.le
  have hoffset : ((k * step : ℕ) : ℤ) = k * step := Nat.cast_mul k step
  simp only [windowAt, foldTicks, Int.toNat_natCast, FoldWindow.mk.injEq, ← hoffset]
  refine ⟨trivial, ?_, by omega, by omega, by omega, by omega⟩
  cases spec.windowMode <;> rfl

/-- Test windows that the step clears do not meet. -/
theorem foldTicks_disjoint (hpos : sizes.Positive) (hclear : sizes.test ≤ sizes.step) {i j : ℕ}
    (hij : i < j) : (foldTicks spec sizes i).test.last < (foldTicks spec sizes j).test.first := by
  have htest := hpos.test_pos
  have hle : (i + 1) * sizes.step.toNat ≤ j * sizes.step.toNat := Nat.mul_le_mul_right _ hij
  rw [Nat.succ_mul] at hle
  simp only [foldTicks]
  omega

/-- Folds of all windows of these sizes that fit, in order. -/
structure FoldsOf (spec : WalkForwardWindowSpec) (timestamps : List ℤ) (sizes : WindowSizes)
    (folds : List WalkForwardFold) : Prop where
  length_eq : folds.length = foldCount timestamps.length sizes 0
  created : ∀ k (h : k < folds.length),
    createFold timestamps (windowAt spec sizes k (k * sizes.step)) = .ok folds[k]
  fold_index : ∀ k (h : k < folds.length), folds[k].foldIndex = k
  reads : ∀ k (h : k < folds.length),
    ReadsFrom timestamps (foldTicks spec sizes k) folds[k]

variable (spec) in
/-- The loop makes the folds of positive sizes. -/
theorem foldLoop_sound (hts : ∀ t ∈ timestamps, Representable t) (hpos : sizes.Positive) :
    ∃ folds fuel, foldLoop spec timestamps sizes fuel 0 0 = some (.ok folds) ∧
      FoldsOf spec timestamps sizes folds := by
  have hcreate : ∀ k < foldCount timestamps.length sizes 0, ∃ fold,
      createFold timestamps (windowAt spec sizes k (k * sizes.step)) = .ok fold ∧
        fold.foldIndex = k ∧ ReadsFrom timestamps (foldTicks spec sizes k) fold := by
    intro k hk
    have hsound : (foldTicks spec sizes k).Sound spec sizes timestamps.length k :=
      foldTicks_sound hpos hk
    rw [windowAt_eq hpos]
    exact createFold_reads hts hsound.train_ordered hsound.adjacent hsound.test_ordered
      hsound.in_list k _
  have hwindows : ∀ k < foldCount timestamps.length sizes 0, ∃ fold, createFold timestamps
      (windowAt spec sizes (0 + k) (0 + k * sizes.step)) = .ok fold := by
    intro k hk
    rw [zero_add, zero_add]
    exact (hcreate k hk).imp fun _ h => h.1
  obtain ⟨folds, hloop, hlength, hget⟩ := foldLoop_windows hpos.step_pos 0 0 hwindows
  simp only [zero_add] at hget
  have hmade : ∀ k (h : k < folds.length),
      folds[k].foldIndex = k ∧ ReadsFrom timestamps (foldTicks spec sizes k) folds[k] := by
    intro k hk
    obtain ⟨fold, hfold, hreads⟩ := hcreate k (hlength ▸ hk)
    obtain rfl : folds[k] = fold := Except.ok.inj ((hget k hk).symm.trans hfold)
    exact hreads
  exact ⟨folds, _, hloop, hlength, hget, fun k hk => (hmade k hk).1, fun k hk => (hmade k hk).2⟩

/-- From four ticks on, the generator returns what the loop does. -/
theorem returns_of_foldLoop (hlen : ¬ timestamps.length < 4) {fuel : ℕ}
    {result : Except FoldError (List WalkForwardFold)}
    (hloop : foldLoop spec timestamps (resolveWindowSizes spec timestamps) fuel 0 0 =
      some result) : Returns spec timestamps result := by
  refine returns_of_generateFolds fuel ?_
  rw [generateFolds, if_neg hlen]
  dsimp only
  split
  case isTrue hover =>
    -- no window fits, and the loop would have ended in its first pass
    cases fuel with
    | zero => cases hloop
    | succ fuel =>
      rw [← hloop]
      refine (foldLoop_of_not_fits ?_).symm
      rw [zero_add]
      exact not_le.mpr hover
  case isFalse => exact hloop

end Folds

/-- The number of folds of a list. -/
def expectedFolds (total : ℕ) (sizes : WindowSizes) : ℤ :=
  if total < 4 ∨ total < sizes.train + sizes.test then 0
  else (total - sizes.train - sizes.test) / sizes.step + 1

theorem foldCount_eq_expectedFolds {total : ℕ} {sizes : WindowSizes} (hstep : 0 < sizes.step)
    (hlen : ¬ total < 4) : foldCount total sizes 0 = expectedFolds total sizes := by
  unfold expectedFolds
  split
  case isTrue hnone =>
    have hover := hnone.resolve_left hlen
    rw [foldCount_of_not_fits hstep (by omega)]
    rfl
  case isFalse hsome =>
    have hquot : 0 ≤ (total - sizes.train - sizes.test) / sizes.step :=
      Int.ediv_nonneg (by omega) hstep.le
    rw [foldCount, sub_zero]
    omega

/-- **Folds do not leak**: generation ends, and from positive counts and representable timestamps
    it makes the folds of all windows that fit into at least four ticks, in order, each with its
    test window right behind its training window. -/
theorem generateFolds_sound (spec : WalkForwardWindowSpec) (timestamps : List ℤ) :
    (∃ result, Returns spec timestamps result) ∧
      ((∀ t ∈ timestamps, Representable t) → PositiveCounts spec →
        let sizes := resolveWindowSizes spec timestamps
        ∃ folds ticks, Returns spec timestamps (.ok folds) ∧
          folds.length = expectedFolds timestamps.length sizes ∧
          (∀ k (h : k < folds.length), folds[k].foldIndex = k) ∧
          List.Forall₂ (ReadsFrom timestamps) ticks folds ∧
          (∀ k (h : k < ticks.length),
            FoldTicks.Sound spec sizes timestamps.length k ticks[k]) ∧
          (sizes.test ≤ sizes.step → ticks.Pairwise fun a b => a.test.last < b.test.first)) := by
  refine ⟨generateFolds_ends spec timestamps, fun hts hcounts => ?_⟩
  intro sizes
  have hpos : sizes.Positive := positive_resolveWindowSizes.mpr hcounts
  by_cases hlen : timestamps.length < 4
  · refine ⟨[], [], returns_of_generateFolds 0 (if_pos hlen), ?_, ?_, .nil, ?_,
      fun _ => .nil⟩
    · rw [expectedFolds, if_pos (.inl hlen)]
      rfl
    · exact fun k h => absurd h (Nat.not_lt_zero k)
    · exact fun k h => absurd h (Nat.not_lt_zero k)
  obtain ⟨folds, _, hloop, hfolds⟩ := foldLoop_sound spec hts hpos
  refine ⟨folds, (List.range folds.length).map (foldTicks spec sizes),
    returns_of_foldLoop hlen hloop, ?_, hfolds.fold_index, ?_, ?_, ?_⟩
  · rw [hfolds.length_eq, foldCount_eq_expectedFolds hpos.step_pos hlen]
  · refine List.forall₂_iff_get.mpr ⟨by simp, fun k hk hk' => ?_⟩
    simpa using hfolds.reads k hk'
  · intro k hk
    have hk' : k < foldCount timestamps.length sizes 0 := by simpa [hfolds.length_eq] using hk
    simpa using foldTicks_sound hpos hk'
  · intro hclear
    exact List.pairwise_map.mpr (List.pairwise_lt_range.imp (foldTicks_disjoint hpos hclear))

/-- Candle counts of a training and a test window. -/
def countedSpec (train test : ℤ) (step : Option ℤ) : WalkForwardWindowSpec where
  trainCandleCount := some train
  testCandleCount := some test
  stepSizeCandles := step

/-- Two folds of two and one ticks, of six ticks. -/
theorem generateFolds_sound_six_ticks :
    let timestamps := [100, 200, 300, 400, 500, 600]
    let spec := countedSpec 2 1 (some 2)
    ∃ folds ticks, Returns spec timestamps (.ok folds) ∧ folds.length = (2 : ℤ) ∧
      List.Forall₂ (ReadsFrom timestamps) ticks folds := by
  intro timestamps spec
  have hts : ∀ t ∈ timestamps, Representable t := by decide +kernel
  have hcounts : PositiveCounts spec := by
    rintro _ ⟨⟩ _ ⟨⟩
    exact ⟨by decide, by decide, by rintro _ ⟨⟩; decide⟩
  obtain ⟨folds, ticks, hreturns, hlength, -, hreads, -⟩ :=
    (generateFolds_sound spec timestamps).2 hts hcounts
  have htwo : expectedFolds timestamps.length (resolveWindowSizes spec timestamps) = 2 := by
    decide +kernel
  exact ⟨folds, ticks, hreturns, hlength.trans htwo, hreads⟩

/-- Training ends after the test window has ended, and has begun before that. -/
def LooksAhead (fold : WalkForwardFold) : Prop :=
  fold.trainStart.micros < fold.testEnd.micros ∧ fold.testEnd.micros < fold.trainEnd.micros

instance (fold : WalkForwardFold) : Decidable (LooksAhead fold) :=
  inferInstanceAs (Decidable (_ ∧ _))

/-- Three ticks make no folds, though two windows of two ticks fit; a timestamp beyond every
    `datetime` raises; a negative step moves back until an index is missing; and with a negative
    training window the indices count from the end, so that a fold is trained on ticks after its
    test window. -/
theorem generateFolds_departs :
    Returns (countedSpec 1 1 none) [100, 200, 300] (.ok []) ∧
      ((3 : ℤ) - 1 - 1) / 1 + 1 = 2 ∧
      Returns (countedSpec 2 2 none) [100, 200, 300, 253402300800000]
        (.error .timestampOutOfRange) ∧
      Returns (countedSpec 2 2 (some (-1))) [100, 200, 300, 400, 500] (.error .indexError) ∧
      ∃ folds, Returns (countedSpec (-1) 3 none) [100, 200, 300, 400, 500] (.ok folds) ∧
        ∃ fold ∈ folds, LooksAhead fold := by
  refine ⟨returns_of_generateFolds 0 rfl, by decide, ?_, ?_, ?_⟩
  · exact returns_of_generateFolds 1 (by decide +kernel)
  · exact returns_of_generateFolds 10 (by decide +kernel)
  · exact ⟨_, returns_of_generateFolds 10 rfl, _, List.mem_cons_self, by decide +kernel⟩

end CryptoTrading.WalkForward
