import Mathlib.Algebra.Order.Field.Rat
import Mathlib.Algebra.Order.Ring.Rat
import CryptoTrading.Lib.Averages

/-!
# Indicators

Embeds the functions `sma`, `ema`, `rsi` and `atr` of formulas, from
`src/trading/factories/trading_expression_factory.py`, and `calculate_volatility` and
`_calculate_ema_value` of `src/trading/regimes/market_regime_detector.py`, which computes the
same averages in its own loops.

Floating-point numbers are exact here.  Left out: volumes, opening prices and times, which no
indicator reads.
-/

namespace CryptoTrading.Trading

open CryptoTrading.Lib

/-! ## §1 Candles and slices -/

structure Candle where
  low : ℚ
  high : ℚ
  close : ℚ
  deriving DecidableEq

/-- `xs[start:]`, where a negative start counts from the end. -/
def sliceFrom {A : Type} (xs : List A) (start : ℤ) : List A :=
  if start < 0 then xs.drop (xs.length - start.natAbs) else xs.drop start.toNat

/-- An argument of a call in a formula: an integer, or anything else. -/
inductive Arg where
  | int (n : ℤ)
  | other
  deriving DecidableEq

/-- The period among the arguments of `sma` and `ema`, whose name is in the messages. -/
def periodArgument (name lowerName : String) (args : List Arg) : Except String ℤ :=
  let period (arg : Arg) : Except String ℤ :=
    match arg with
    | .int n => if n ≤ 0 then .error (name ++ " period must be > 0") else .ok n
    | .other => .error (name ++ " period must be > 0")
  match args with
  | [n] => period n
  | [_, n] => period n
  | _ => .error (name ++ " expects 1 or 2 arguments: " ++ lowerName ++ "(period) or " ++
      lowerName ++ "(series, period)")

/-! ## §2 Functions of formulas -/

section Formulas

variable (candles : List Candle)

def closes : List ℚ := candles.map Candle.close

/-- `_calculate_sma`. -/
def sma (args : List Arg) : Except String ℚ := do
  let n ← periodArgument "SMA" "sma" args
  if (candles.length : ℤ) < n then return 0
  else return (closes (sliceFrom candles (-n))).sum / n

/-- `_calculate_ema`. -/
def ema (args : List Arg) : Except String ℚ := do
  let n ← periodArgument "EMA" "ema" args
  if (candles.length : ℤ) < n then return 0
  else
    let prices := closes candles
    let multiplier := 2 / ((n : ℚ) + 1)
    let emaValue := (prices.take n.toNat).sum / n
    return smooth multiplier emaValue (prices.drop n.toNat)

/-- `prices[i + 1] - prices[i]` for all `i`. -/
def deltas : List ℚ → List ℚ
  | p :: q :: rest => (q - p) :: deltas (q :: rest)
  | _ => []

/-- `_calculate_rsi`; it does not check its period. -/
def rsi (n : ℤ) : Except String ℚ :=
  if candles = [] ∨ (candles.length : ℤ) ≤ n then .ok 50
  else
    let prices := closes (sliceFrom candles (-(n + 1)))
    let gains := (deltas prices).filter (0 < ·)
    let losses := ((deltas prices).filter (· < 0)).map (- ·)
    if n = 0 then .error "ZeroDivisionError"
    else
      let avgGain := gains.sum / n
      let avgLoss := losses.sum / n
      if avgLoss = 0 then .ok 100
      else
        let rs := avgGain / avgLoss
        if 1 + rs = 0 then .error "ZeroDivisionError" else .ok (100 - 100 / (1 + rs))

/-- The range of a candle, extended to the close before it. -/
def trueRange (curr prev : Candle) : ℚ :=
  max (curr.high - curr.low) (max |curr.high - prev.close| |curr.low - prev.close|)

/-- `candles[i]`; the loops stay within the list. -/
def candleAt (i : ℕ) : Candle := candles.getD i ⟨0, 0, 0⟩

/-- The loop over `range(start, len(candles))`, which `_calculate_atr` and
    `calculate_volatility` share. -/
def trueRanges (start : ℕ) : List ℚ :=
  (List.range' start (candles.length - start)).map fun i =>
    trueRange (candleAt candles i) (candleAt candles (i - 1))

/-- `_calculate_atr`. -/
def atr (n : ℤ) : Except String ℚ :=
  if n ≤ 0 then .error "ATR period must be > 0"
  else if candles.length ≤ 1 then .ok 0
  else
    let ranges := trueRanges candles 1
    if ranges = [] then .ok 0
    else
      let window := sliceFrom ranges (-n)
      .ok (window.sum / window.length)

end Formulas

/-! ## §3 The regime detector -/

/-- `MarketRegimeDetector.calculate_volatility`. -/
def calculateVolatility (candles : List Candle) (close : ℚ) (period : ℤ) : ℚ :=
  if candles.length ≤ 1 ∨ close ≤ 0 then 0
  else
    let n := min period (candles.length - 1)
    -- from a start beyond the end the loop makes no round
    let ranges := trueRanges candles (candles.length - n).toNat
    if ranges = [] then 0
    else
      let atr := ranges.sum / ranges.length
      atr / close

/-- `MarketRegimeDetector._calculate_ema_value`. -/
def calculateEmaValue (prices : List ℚ) (period : ℤ) : ℚ :=
  if prices = [] ∨ period ≤ 0 then 0
  else if (prices.length : ℤ) ≤ period then prices.sum / prices.length
  else
    let multiplier := 2 / ((period : ℚ) + 1)
    let ema := (prices.take period.toNat).sum / period
    smooth multiplier ema (prices.drop period.toNat)

/-! ## §4 Averages of closes -/

/-- No close is below the one bound or above the other. -/
def ClosesBetween (candles : List Candle) (lo hi : ℚ) : Prop := AllBetween lo hi (closes candles)

/-- The value is between any bounds of the closes, so between the least and the greatest. -/
def WithinCloses (candles : List Candle) (v : ℚ) : Prop :=
  ∀ lo hi, ClosesBetween candles lo hi → lo ≤ v ∧ v ≤ hi

theorem periodArgument_int {name lowerName : String} {n : ℤ} (hn : 1 ≤ n) :
    periodArgument name lowerName [.int n] = .ok n := by
  have hpos : ¬ n ≤ 0 := by omega
  simp [periodArgument, hpos]

theorem sliceFrom_neg {A : Type} (xs : List A) {n : ℤ} (hn : 1 ≤ n) :
    sliceFrom xs (-n) = xs.drop (xs.length - n.toNat) := by
  have hneg : -n < 0 := by omega
  have habs : (-n).natAbs = n.toNat := by omega
  rw [sliceFrom, if_pos hneg, habs]

variable {candles : List Candle} {n : ℤ}

theorem sma_eq (hn : 1 ≤ n) (hlen : n ≤ candles.length) :
    sma candles [.int n] = .ok ((closes (sliceFrom candles (-n))).sum / n) := by
  have hshort : ¬ (candles.length : ℤ) < n := by omega
  unfold sma
  rw [periodArgument_int hn]
  exact if_neg hshort

theorem sma_within (hn : 1 ≤ n) (hlen : n ≤ candles.length) :
    WithinCloses candles ((closes (sliceFrom candles (-n))).sum / n) := by
  intro lo hi hbounds
  rw [sliceFrom_neg candles hn]
  refine average_between (hbounds.of_subset ?_) ?_ ?_
  · intro y hy
    rw [closes, List.map_drop] at hy
    exact List.mem_of_mem_drop hy
  · rw [closes, List.length_map, List.length_drop]
    have hcount : candles.length - (candles.length - n.toNat) = n.toNat := by omega
    rw [hcount]
    exact_mod_cast (Int.toNat_of_nonneg (by omega)).symm
  · exact_mod_cast (by omega : (0 : ℤ) < n)

theorem ema_eq (hn : 1 ≤ n) (hlen : n ≤ candles.length) :
    ema candles [.int n] = .ok (smooth (2 / ((n : ℚ) + 1))
      (((closes candles).take n.toNat).sum / n) ((closes candles).drop n.toNat)) := by
  have hshort : ¬ (candles.length : ℤ) < n := by omega
  unfold ema
  rw [periodArgument_int hn]
  exact if_neg hshort

theorem ema_within (hn : 1 ≤ n) (hlen : n ≤ candles.length) :
    WithinCloses candles (smooth (2 / ((n : ℚ) + 1))
      (((closes candles).take n.toNat).sum / n) ((closes candles).drop n.toNat)) := by
  intro lo hi hbounds
  have hone : (1 : ℚ) ≤ n := by exact_mod_cast hn
  have hstart : lo ≤ ((closes candles).take n.toNat).sum / n ∧
      ((closes candles).take n.toNat).sum / n ≤ hi := by
    refine average_between (hbounds.of_subset fun y hy => List.mem_of_mem_take hy) ?_
      (by linarith)
    rw [closes, List.length_take, List.length_map, min_eq_left (by omega)]
    exact_mod_cast (Int.toNat_of_nonneg (by omega)).symm
  exact smooth_between (smoothing_factor hone)
    (hbounds.of_subset fun y hy => List.mem_of_mem_drop hy) hstart

/-- The detector averages the same prices; with no candle to spare both stop at the average. -/
theorem calculateEmaValue_eq (hn : 1 ≤ n) (hlen : n ≤ candles.length) :
    ema candles [.int n] = .ok (calculateEmaValue (closes candles) n) := by
  rw [ema_eq hn hlen]
  have hcount : (closes candles).length = candles.length := List.length_map _
  have hne : ¬ (closes candles = [] ∨ n ≤ 0) := by
    rintro (hnil | hle)
    · rw [hnil, List.length_nil] at hcount
      omega
    · omega
  rw [calculateEmaValue, if_neg hne]
  split
  · rename_i hle
    have hall : n.toNat = (closes candles).length := by omega
    have hcast : (n : ℚ) = (closes candles).length := by
      exact_mod_cast (by omega : n = ((closes candles).length : ℤ))
    rw [hall, List.take_length, List.drop_length, hcast]
    rfl
  · rfl

/-! ## §5 Relative strength -/

theorem sum_gains_nonneg (xs : List ℚ) : 0 ≤ (xs.filter (0 < ·)).sum := by
  apply List.sum_nonneg
  intro x hx
  have hpos := (List.mem_filter.mp hx).2
  exact (of_decide_eq_true hpos).le

theorem sum_losses_nonneg (xs : List ℚ) : 0 ≤ ((xs.filter (· < 0)).map (- ·)).sum := by
  apply List.sum_nonneg
  intro x hx
  obtain ⟨y, hy, rfl⟩ := List.mem_map.mp hx
  have hneg := (List.mem_filter.mp hy).2
  exact neg_nonneg.mpr (of_decide_eq_true hneg).le

/-- A ratio that is not negative becomes a percentage. -/
theorem strength_between {rs : ℚ} (hrs : 0 ≤ rs) :
    0 ≤ 100 - 100 / (1 + rs) ∧ 100 - 100 / (1 + rs) ≤ 100 := by
  have hpos : (0 : ℚ) < 1 + rs := by linarith
  have hle : 100 / (1 + rs) ≤ 100 := by
    rw [div_le_iff₀ hpos]
    linarith
  have hnonneg : 0 ≤ 100 / (1 + rs) := by positivity
  constructor
  · linarith
  · linarith

theorem rsi_between (hn : 1 ≤ n) : ∃ v, rsi candles n = .ok v ∧ 0 ≤ v ∧ v ≤ 100 := by
  have hzero : n ≠ 0 := by omega
  have hpos : (0 : ℚ) ≤ n := by exact_mod_cast (by omega : (0 : ℤ) ≤ n)
  simp only [rsi, hzero, if_false]
  split
  · exact ⟨50, rfl, by norm_num, by norm_num⟩
  · split
    · exact ⟨100, rfl, by norm_num, le_rfl⟩
    · -- both averages are sums of positive parts over a positive period
      have hgain := div_nonneg
        (sum_gains_nonneg (deltas (closes (sliceFrom candles (-(n + 1)))))) hpos
      have hloss := div_nonneg
        (sum_losses_nonneg (deltas (closes (sliceFrom candles (-(n + 1)))))) hpos
      have hrs := div_nonneg hgain hloss
      rw [if_neg (by linarith)]
      exact ⟨_, rfl, strength_between hrs⟩

/-! ## §6 Ranges -/

theorem trueRange_nonneg (curr prev : Candle) : 0 ≤ trueRange curr prev :=
  (abs_nonneg (curr.high - prev.close)).trans ((le_max_left _ _).trans (le_max_right _ _))

@[simp] theorem length_trueRanges (start : ℕ) :
    (trueRanges candles start).length = candles.length - start := by
  simp [trueRanges]

/-- The ranges from a later start are the last of those from an earlier one. -/
theorem drop_trueRanges (start k : ℕ) :
    (trueRanges candles start).drop k = trueRanges candles (start + k) := by
  unfold trueRanges
  rw [← List.map_drop, List.drop_range', Nat.sub_sub, mul_one]

/-- The average range, over the last `n` candles or as many as have one before them. -/
def averageRange (candles : List Candle) (n : ℤ) : ℚ :=
  let ranges := trueRanges candles (candles.length - (min n (candles.length - 1)).toNat)
  ranges.sum / ranges.length

theorem averageRange_nonneg : 0 ≤ averageRange candles n := by
  apply div_nonneg
  · apply List.sum_nonneg
    intro x hx
    obtain ⟨i, -, rfl⟩ := List.mem_map.mp hx
    exact trueRange_nonneg _ _
  · exact Nat.cast_nonneg _

/-- The slice from the back selects the candles that the detector counts from the front. -/
theorem atr_eq (hn : 1 ≤ n) :
    atr candles n = .ok (if candles.length ≤ 1 then 0 else averageRange candles n) := by
  have hpos : ¬ n ≤ 0 := by omega
  rw [atr, if_neg hpos]
  split
  · rfl
  · rename_i hlen
    have hne : trueRanges candles 1 ≠ [] := by
      rw [← List.length_pos_iff, length_trueRanges]
      omega
    have hstart : 1 + ((trueRanges candles 1).length - n.toNat) =
        candles.length - (min n (candles.length - 1)).toNat := by
      rw [length_trueRanges]
      omega
    simp only [if_neg hne, sliceFrom_neg _ hn, drop_trueRanges, hstart]
    rfl

theorem calculateVolatility_eq (hn : 1 ≤ n) {close : ℚ} (hclose : 0 < close) :
    calculateVolatility candles close n =
      (if candles.length ≤ 1 then 0 else averageRange candles n) / close := by
  have hpos : ¬ close ≤ 0 := not_le.mpr hclose
  simp only [calculateVolatility, hpos, or_false]
  split
  · rw [zero_div]
  · rename_i hlen
    have hstart : (candles.length - min n (candles.length - 1)).toNat =
        candles.length - (min n (candles.length - 1)).toNat := by omega
    have hne : trueRanges candles (candles.length - (min n (candles.length - 1)).toNat) ≠ [] := by
      rw [← List.length_pos_iff, length_trueRanges]
      omega
    rw [hstart, if_neg hne]
    rfl

/-! ## §7 The laws -/

/-- **Indicator laws** for every list of candles and every period: averages of closes stay between
    the closes, strength is a percentage, ranges are not negative, and the two implementations
    of the smoothed average and of the average range agree. -/
theorem indicator_laws (candles : List Candle) {n : ℤ} (hn : 1 ≤ n) :
    (n ≤ candles.length → ∃ v, sma candles [.int n] = .ok v ∧ WithinCloses candles v) ∧
    (n ≤ candles.length → ∃ v, ema candles [.int n] = .ok v ∧ WithinCloses candles v) ∧
    (∃ v, rsi candles n = .ok v ∧ 0 ≤ v ∧ v ≤ 100) ∧
    (∃ v, atr candles n = .ok v ∧ 0 ≤ v) ∧
    (∀ close, 0 < close → atr candles n = .ok (calculateVolatility candles close n * close)) ∧
    (n ≤ candles.length →
      ema candles [.int n] = .ok (calculateEmaValue (closes candles) n)) := by
  refine ⟨?_, ?_, rsi_between hn, ?_, ?_, calculateEmaValue_eq hn⟩
  · intro hlen
    exact ⟨_, sma_eq hn hlen, sma_within hn hlen⟩
  · intro hlen
    exact ⟨_, ema_eq hn hlen, ema_within hn hlen⟩
  · refine ⟨_, atr_eq hn, ?_⟩
    split
    · exact le_rfl
    · exact averageRange_nonneg
  · intro close hclose
    rw [calculateVolatility_eq hn hclose, div_mul_cancel₀ _ hclose.ne', atr_eq hn]

/-- Three candles with a fall and a rise. -/
def sampleCandles : List Candle := [⟨9, 11, 10⟩, ⟨7, 10, 8⟩, ⟨8, 13, 12⟩]

/-- The laws for two candles out of three. -/
theorem indicator_laws_sample :
    ((2 : ℤ) ≤ sampleCandles.length →
      ∃ v, sma sampleCandles [.int 2] = .ok v ∧ WithinCloses sampleCandles v) ∧
    ((2 : ℤ) ≤ sampleCandles.length →
      ∃ v, ema sampleCandles [.int 2] = .ok v ∧ WithinCloses sampleCandles v) ∧
    (∃ v, rsi sampleCandles 2 = .ok v ∧ 0 ≤ v ∧ v ≤ 100) ∧
    (∃ v, atr sampleCandles 2 = .ok v ∧ 0 ≤ v) ∧
    (∀ close, 0 < close →
      atr sampleCandles 2 = .ok (calculateVolatility sampleCandles close 2 * close)) ∧
    ((2 : ℤ) ≤ sampleCandles.length →
      ema sampleCandles [.int 2] = .ok (calculateEmaValue (closes sampleCandles) 2)) :=
  indicator_laws sampleCandles (by decide)

end CryptoTrading.Trading
