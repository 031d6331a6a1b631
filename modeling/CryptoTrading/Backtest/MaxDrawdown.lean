import Mathlib.Algebra.Order.Field.Basic
import Mathlib.Tactic.FieldSimp
import Mathlib.Tactic.Ring
import CryptoTrading.Backtest.Results
import CryptoTrading.Experiments.PromotionPolicy
import CryptoTrading.Lib.RunningPeak

/-!
# Two reports of the maximum drawdown

Embeds the drawdown of `src/backtest/analysis/metrics_calculator.py`.  The calculator keeps the
largest fall in money and divides it once, at the end, by the highest equity of the whole
curve; the simulation report keeps the largest fall relative to the peak it falls from
(`drawdownStep`).

The simulation report has the maximum drawdown of every positive curve
(`isGreatest_simulatedDrawdown`).  The backtest has it exactly when a deepest fall starts at the
highest equity of the curve (`maxDrawdown_reports_iff`); otherwise it reports too little.
-/

namespace CryptoTrading.Backtest

open CryptoTrading.Lib CryptoTrading.Experiments

/-! ## §1 The two calculations -/

namespace BacktestMetricsCalculator

/-- The loop of `calculate` over the snapshots: the peak and the largest fall so far. -/
def drawdownPass (acc : ℚ × ℚ) (snapshot : PortfolioSnapshot) : ℚ × ℚ :=
  let peak := max acc.1 snapshot.equity
  (peak, max acc.2 (peak - snapshot.equity))

/-- `max_drawdown` and `max_drawdown_pct` of `calculate`. -/
def maxDrawdown (snapshots : List PortfolioSnapshot) : ℚ := (snapshots.foldl drawdownPass (0, 0)).2

def maxDrawdownPct (snapshots : List PortfolioSnapshot) : ℚ :=
  let (peak, maxDrawdown) := snapshots.foldl drawdownPass (0, 0)
  if peak = 0 then 0 else maxDrawdown / peak * 100

end BacktestMetricsCalculator

open BacktestMetricsCalculator

/-- The drawdown of `SimulationReportService._calculate_metrics` before it is rounded. -/
def simulatedDrawdown (equityCurve : List ℚ) : ℚ :=
  (equityCurve.foldl drawdownStep (equityCurve.headD 0, 0)).2

/-- It is what `calculateMetrics` rounds. -/
theorem calculateMetrics_maxDrawdownPct (round : ℕ → ℚ → ℚ) (executedTrades runtimeErrors : ℕ)
    {equityCurve : List ℚ} (hne : equityCurve ≠ []) :
    (calculateMetrics round executedTrades equityCurve runtimeErrors).maxDrawdownPct =
      round 4 (simulatedDrawdown equityCurve) := by
  cases equityCurve with
  | nil => exact absurd rfl hne
  | cons start rest => rfl

/-! ## §2 Falls from the running peak -/

/-- The fall from a peak, in percent of it. -/
def fallPct (peak value : ℚ) : ℚ := (peak - value) / peak * 100

/-- The falls of a curve of positive equities, in percent of the peak up to each. -/
def drawdowns (curve : List ℚ) : Set ℚ := scores fallPct 0 curve

/-- One of the deepest falls, in percent, starts at the highest equity of the curve. -/
def DeepestFromTop (curve : List ℚ) : Prop :=
  ∃ (s : ℕ) (hs : s < curve.length), peakTo 0 curve s = highest 0 curve ∧
    ∀ (t : ℕ) (ht : t < curve.length),
      fallPct (peakTo 0 curve t) curve[t] ≤ fallPct (peakTo 0 curve s) curve[s]

theorem fallPct_self {value : ℚ} : fallPct value value = 0 := by
  simp [fallPct]

section Curves

variable {curve : List ℚ}

/-- The first value of a positive curve is its first peak. -/
theorem peakTo_zero {first : ℚ} {rest : List ℚ} (h : 0 < first) :
    peakTo 0 (first :: rest) 0 = first :=
  max_eq_right h.le

/-- Any score that does not count a value against itself starts at zero. -/
theorem zero_mem_scores {score : ℚ → ℚ → ℚ} (hself : ∀ value, score value value = 0)
    (hne : curve ≠ []) (hpos : ∀ e ∈ curve, 0 < e) : 0 ∈ scores score 0 curve := by
  cases curve with
  | nil => exact absurd rfl hne
  | cons first rest =>
    refine ⟨0, Nat.zero_lt_succ _, ?_⟩
    rw [peakTo_zero (hpos first List.mem_cons_self)]
    exact (hself first).symm

theorem peakTo_pos {t : ℕ} (ht : t < curve.length) (hpos : ∀ e ∈ curve, 0 < e) :
    0 < peakTo 0 curve t :=
  lt_of_lt_of_le (hpos _ (List.getElem_mem ht)) (getElem_le_peakTo 0 ht)

/-! ## §3 The simulation report -/

/-- On positive peaks the pass of the simulation report scores the fall in percent. -/
theorem drawdownStep_eq_track {acc : ℚ × ℚ} {value : ℚ} (h : 0 < value) :
    drawdownStep acc value = track fallPct acc value := by
  have hpeak : (if acc.1 < value then value else acc.1) = max acc.1 value :=
    (max_def_lt acc.1 value).symm
  have hpos : 0 < max acc.1 value := lt_max_of_lt_right h
  simp only [drawdownStep, track, hpeak, if_pos hpos, fallPct]
  rw [max_def_lt acc.2]

theorem foldl_drawdownStep (hpos : ∀ e ∈ curve, 0 < e) (acc : ℚ × ℚ) :
    curve.foldl drawdownStep acc = curve.foldl (track fallPct) acc := by
  induction curve generalizing acc with
  | nil => rfl
  | cons value rest ih =>
    obtain ⟨hvalue, hrest⟩ := List.forall_mem_cons.mp hpos
    rw [List.foldl_cons, List.foldl_cons, drawdownStep_eq_track hvalue]
    exact ih hrest _

/-- The report starts its peak at the first value, which changes nothing. -/
theorem simulatedDrawdown_eq (hne : curve ≠ []) (hpos : ∀ e ∈ curve, 0 < e) :
    simulatedDrawdown curve = (curve.foldl (track fallPct) (0, 0)).2 := by
  cases curve with
  | nil => exact absurd rfl hne
  | cons first rest =>
    have hfirst : 0 < first := hpos first List.mem_cons_self
    have hbegin : track fallPct (first, 0) first = track fallPct (0, 0) first := by
      simp only [track, max_self, max_eq_right hfirst.le]
    rw [simulatedDrawdown, foldl_drawdownStep hpos, List.headD_cons, List.foldl_cons, hbegin,
      List.foldl_cons]

/-- **The simulation report has the maximum drawdown of every positive curve.** -/
theorem isGreatest_simulatedDrawdown (hne : curve ≠ []) (hpos : ∀ e ∈ curve, 0 < e) :
    IsGreatest (drawdowns curve) (simulatedDrawdown curve) := by
  rw [simulatedDrawdown_eq hne hpos]
  exact isGreatest_scores (zero_mem_scores (fun _ => fallPct_self) hne hpos)

/-! ## §4 The backtest -/

end Curves

section Snapshots

variable {snapshots : List PortfolioSnapshot}

/-- The equities of the snapshots. -/
def equityCurve (snapshots : List PortfolioSnapshot) : List ℚ := snapshots.map (·.equity)

theorem foldl_drawdownPass (snapshots : List PortfolioSnapshot) (acc : ℚ × ℚ) :
    snapshots.foldl drawdownPass acc =
      (equityCurve snapshots).foldl (track fun peak value => peak - value) acc := by
  rw [equityCurve, List.foldl_map]
  rfl

/-- The figure of the backtest: the largest fall in money over the highest equity. -/
theorem maxDrawdownPct_eq (hne : snapshots ≠ []) (hpos : ∀ e ∈ equityCurve snapshots, 0 < e) :
    maxDrawdownPct snapshots =
      maxDrawdown snapshots / highest 0 (equityCurve snapshots) * 100 := by
  have hpeak : (snapshots.foldl drawdownPass (0, 0)).1 = highest 0 (equityCurve snapshots) := by
    rw [foldl_drawdownPass, foldl_track_peak]
  have hne' : equityCurve snapshots ≠ [] := by simpa [equityCurve] using hne
  have htop : highest 0 (equityCurve snapshots) ≠ 0 := by
    obtain ⟨first, hfirst⟩ := List.exists_mem_of_ne_nil _ hne'
    exact ((hpos first hfirst).trans_le (le_highest 0 hfirst)).ne'
  simp only [maxDrawdownPct, maxDrawdown, hpeak, if_neg htop]

theorem isGreatest_maxDrawdown (hne : snapshots ≠ [])
    (hpos : ∀ e ∈ equityCurve snapshots, 0 < e) :
    IsGreatest (scores (fun peak value => peak - value) 0 (equityCurve snapshots))
      (maxDrawdown snapshots) := by
  have hne' : equityCurve snapshots ≠ [] := by simpa [equityCurve] using hne
  rw [maxDrawdown, foldl_drawdownPass]
  exact isGreatest_scores (zero_mem_scores sub_self hne' hpos)

/-- The backtest reports the maximum drawdown of the curve, and so does the simulation. -/
def ReportsMaxDrawdown (snapshots : List PortfolioSnapshot) : Prop :=
  IsGreatest (drawdowns (equityCurve snapshots)) (maxDrawdownPct snapshots) ∧
    maxDrawdownPct snapshots = simulatedDrawdown (equityCurve snapshots)

/-! ## §5 When the reports agree -/

/-- A fall in money is its share of the peak it falls from. -/
theorem fall_eq {peak : ℚ} (value : ℚ) (h : 0 < peak) :
    peak - value = fallPct peak value / 100 * peak := by
  unfold fallPct
  field_simp

theorem fallPct_nonneg {peak value : ℚ} (hpeak : 0 < peak) (h : value ≤ peak) :
    0 ≤ fallPct peak value :=
  mul_nonneg (div_nonneg (sub_nonneg.mpr h) hpeak.le) (by norm_num)

/-- Every fall in money is at most the deepest share of the highest equity. -/
theorem fall_le {curve : List ℚ} {deepest : ℚ} (hpos : ∀ e ∈ curve, 0 < e)
    (hdeepest : ∀ (t : ℕ) (ht : t < curve.length), fallPct (peakTo 0 curve t) curve[t] ≤ deepest)
    {t : ℕ} (ht : t < curve.length) :
    peakTo 0 curve t - curve[t] ≤ deepest / 100 * highest 0 curve := by
  have hpeak : 0 < peakTo 0 curve t := peakTo_pos ht hpos
  have hnonneg : 0 ≤ deepest :=
    (fallPct_nonneg hpeak (getElem_le_peakTo 0 ht)).trans (hdeepest t ht)
  calc peakTo 0 curve t - curve[t]
      = fallPct (peakTo 0 curve t) curve[t] / 100 * peakTo 0 curve t := fall_eq _ hpeak
    _ ≤ deepest / 100 * peakTo 0 curve t :=
        mul_le_mul_of_nonneg_right (div_le_div_of_nonneg_right (hdeepest t ht) (by norm_num))
          hpeak.le
    _ ≤ deepest / 100 * highest 0 curve :=
        mul_le_mul_of_nonneg_left (peakTo_le_highest 0 curve t) (by positivity)

/-- A deepest fall from the top is also the largest fall in money. -/
theorem reports_of_deepestFromTop (hne : snapshots ≠ [])
    (hpos : ∀ e ∈ equityCurve snapshots, 0 < e) (h : DeepestFromTop (equityCurve snapshots)) :
    IsGreatest (drawdowns (equityCurve snapshots)) (maxDrawdownPct snapshots) := by
  obtain ⟨s, hs, htop, hdeepest⟩ := h
  obtain ⟨⟨t, ht, hfall⟩, hle⟩ := isGreatest_maxDrawdown hne hpos
  have hpeak := peakTo_pos hs hpos
  have hmoney : maxDrawdown snapshots =
      peakTo 0 (equityCurve snapshots) s - (equityCurve snapshots)[s] := by
    apply le_antisymm
    · calc maxDrawdown snapshots
          ≤ fallPct (peakTo 0 (equityCurve snapshots) s) (equityCurve snapshots)[s] / 100 *
              highest 0 (equityCurve snapshots) := hfall.trans_le (fall_le hpos hdeepest ht)
        _ = peakTo 0 (equityCurve snapshots) s - (equityCurve snapshots)[s] := by
          rw [fall_eq _ hpeak, htop]
    · exact hle ⟨s, hs, rfl⟩
  have hpct : maxDrawdownPct snapshots =
      fallPct (peakTo 0 (equityCurve snapshots) s) (equityCurve snapshots)[s] := by
    rw [maxDrawdownPct_eq hne hpos, hmoney, ← htop]
    rfl
  rw [hpct]
  refine ⟨⟨s, hs, rfl⟩, ?_⟩
  rintro d ⟨t', ht', rfl⟩
  exact hdeepest t' ht'

/-- A correct figure stands for a fall from the top: the same fall from a lower peak would be a
    larger share. -/
theorem deepestFromTop_of_reports (hne : snapshots ≠ [])
    (hpos : ∀ e ∈ equityCurve snapshots, 0 < e)
    (h : IsGreatest (drawdowns (equityCurve snapshots)) (maxDrawdownPct snapshots)) :
    DeepestFromTop (equityCurve snapshots) := by
  obtain ⟨⟨s, hs, hfall⟩, -⟩ := isGreatest_maxDrawdown hne hpos
  have hne' : equityCurve snapshots ≠ [] := by simpa [equityCurve] using hne
  have hpeak := peakTo_pos hs hpos
  have htop : 0 < highest 0 (equityCurve snapshots) :=
    hpeak.trans_le (peakTo_le_highest 0 _ s)
  have hpct := maxDrawdownPct_eq hne hpos
  have hdeepest (t : ℕ) (ht : t < (equityCurve snapshots).length) :
      fallPct (peakTo 0 (equityCurve snapshots) t) (equityCurve snapshots)[t] ≤
        maxDrawdownPct snapshots := h.2 ⟨t, ht, rfl⟩
  rcases eq_or_ne (maxDrawdown snapshots) 0 with hzero | hnonzero
  · -- nothing ever falls, so the last value will do
    have hlast : (equityCurve snapshots).length - 1 < (equityCurve snapshots).length :=
      Nat.sub_lt (List.length_pos_iff.mpr hne') Nat.one_pos
    have hpeak' := peakTo_pos hlast hpos
    have hnone : maxDrawdownPct snapshots = 0 := by rw [hpct, hzero]; simp
    refine ⟨_, hlast, peakTo_last 0 hne', fun t ht => ?_⟩
    exact ((hdeepest t ht).trans_eq hnone).trans
      (fallPct_nonneg hpeak' (getElem_le_peakTo 0 hlast))
  · have hsame : fallPct (peakTo 0 (equityCurve snapshots) s) (equityCurve snapshots)[s] =
        maxDrawdown snapshots / peakTo 0 (equityCurve snapshots) s * 100 := by
      rw [hfall]
      rfl
    have hmoney : 0 < maxDrawdown snapshots := lt_of_le_of_ne
      (hfall.symm ▸ sub_nonneg.mpr (getElem_le_peakTo 0 hs)) hnonzero.symm
    -- the share of the lower peak is not larger, so the peak is not lower
    have hreach : peakTo 0 (equityCurve snapshots) s = highest 0 (equityCurve snapshots) := by
      apply le_antisymm (peakTo_le_highest 0 _ s)
      have hle := hdeepest s hs
      rw [hsame, hpct] at hle
      have hshare := le_of_mul_le_mul_right hle (by norm_num : (0 : ℚ) < 100)
      exact (div_le_div_iff_of_pos_left hmoney hpeak htop).mp hshare
    refine ⟨s, hs, hreach, fun t ht => ?_⟩
    rw [hsame, hreach, ← hpct]
    exact hdeepest t ht

/-- **Exactly when the backtest's figure is the maximum drawdown, and that of the simulation.**

    The calculator takes the largest fall in money and divides it by the highest equity of the whole
    curve.  That is the largest fall in percent where one of the deepest falls starts at the top. -/
theorem maxDrawdown_reports_iff (hne : snapshots ≠ [])
    (hpos : ∀ e ∈ equityCurve snapshots, 0 < e) :
    ReportsMaxDrawdown snapshots ↔ DeepestFromTop (equityCurve snapshots) := by
  have hne' : equityCurve snapshots ≠ [] := by simpa [equityCurve] using hne
  constructor
  · exact fun h => deepestFromTop_of_reports hne hpos h.1
  · intro h
    have hgreatest := reports_of_deepestFromTop hne hpos h
    exact ⟨hgreatest, hgreatest.unique (isGreatest_simulatedDrawdown hne' hpos)⟩

/-- The backtest never reports more than the simulation does. -/
theorem maxDrawdownPct_le_simulated (hne : snapshots ≠ [])
    (hpos : ∀ e ∈ equityCurve snapshots, 0 < e) :
    maxDrawdownPct snapshots ≤ simulatedDrawdown (equityCurve snapshots) := by
  obtain ⟨⟨s, hs, hfall⟩, -⟩ := isGreatest_maxDrawdown hne hpos
  have hne' : equityCurve snapshots ≠ [] := by simpa [equityCurve] using hne
  have hpeak := peakTo_pos hs hpos
  rw [maxDrawdownPct_eq hne hpos, hfall]
  calc _ ≤ fallPct (peakTo 0 (equityCurve snapshots) s) (equityCurve snapshots)[s] :=
        mul_le_mul_of_nonneg_right
          (div_le_div_of_nonneg_left (sub_nonneg.mpr (getElem_le_peakTo 0 hs)) hpeak
            (peakTo_le_highest 0 _ s)) (by norm_num)
    _ ≤ _ := (isGreatest_simulatedDrawdown hne' hpos).2 ⟨s, hs, rfl⟩

end Snapshots

/-! ## §6 Two curves -/

/-- A curve that halves, recovers to twice its start and ends a little lower. -/
def recoveredCurve : List PortfolioSnapshot :=
  [⟨0, 100, Dict.empty, 100⟩, ⟨60, 50, Dict.empty, 50⟩, ⟨120, 200, Dict.empty, 200⟩,
    ⟨180, 190, Dict.empty, 190⟩]

/-- It lost half of its first peak; the backtest divides that loss by the later one. -/
theorem recoveredCurve_misreported :
    maxDrawdownPct recoveredCurve = 25 ∧ simulatedDrawdown (equityCurve recoveredCurve) = 50 ∧
      ¬ ReportsMaxDrawdown recoveredCurve := by
  have hbacktest : maxDrawdownPct recoveredCurve = 25 := by decide +kernel
  have hsimulated : simulatedDrawdown (equityCurve recoveredCurve) = 50 := by decide +kernel
  refine ⟨hbacktest, hsimulated, fun h => ?_⟩
  have heq := h.2
  rw [hbacktest, hsimulated] at heq
  exact absurd heq (by decide)

/-- A curve that falls from its only peak. -/
def fallingCurve : List PortfolioSnapshot :=
  [⟨0, 100, Dict.empty, 100⟩, ⟨60, 80, Dict.empty, 80⟩]

theorem fallingCurve_reported :
    ReportsMaxDrawdown fallingCurve ↔ DeepestFromTop (equityCurve fallingCurve) :=
  maxDrawdown_reports_iff (by decide) (by decide +kernel)

end CryptoTrading.Backtest
