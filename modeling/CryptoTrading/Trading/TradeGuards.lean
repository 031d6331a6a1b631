import CryptoTrading.Lib.SortedTail
import CryptoTrading.Session.SessionManager
import Mathlib.Tactic.Linarith

/-!
# The drawdown guard

Embeds `src/trading/protection/guards/maxdrawdown_guard.py`, with the peak and the trough of
`PortfolioHelper` (`src/trading/helpers/portfolio_helper.py`) that it reads.

The drawdown guard replays the trades of its window as cash: it finds the highest cash, and then
the lowest cash of the trades after that.  It lets a purchase through as long as the cash since its
highest has not fallen by more than the limit, as a share of the highest
(`maxDrawDown_canTrade_iff`).

Amounts are exact.  Left out: log lines.
-/

namespace CryptoTrading.Trading

open CryptoTrading.Lib
open CryptoTrading.Session (PositionEntry TradingContext)

/-! ## §1 Cash -/

/-- A position entry of the window, and whether it was bought. -/
structure WindowTrade where
  entry : PositionEntry
  isBuy : Bool

namespace WindowTrade

def time (t : WindowTrade) : ℚ := t.entry.timestamp

/-- What the trade brings in. -/
def proceeds (t : WindowTrade) : ℚ :=
  if t.isBuy then -(t.entry.price * t.entry.quantity) else t.entry.price * t.entry.quantity

end WindowTrade

/-- `all_trades`, sorted. -/
def allTrades (openPositions closedPositions : List PositionEntry) : List WindowTrade :=
  sortOn WindowTrade.time
    ((openPositions.map fun p => ⟨p, true⟩) ++ closedPositions.map fun p => ⟨p, false⟩)

/-- The loop of `calculate_peak_value` and of `calculate_trough_value`, which only differ in when a
    value replaces the extreme one. -/
def extremeLoop (replaces : ℚ → ℚ → Bool) (value extreme : ℚ) (time : Option ℚ) :
    List WindowTrade → ℚ × Option ℚ
  | [] => (extreme, time)
  | trade :: rest =>
    let value := value + trade.proceeds
    let extremeAt := if replaces value extreme then (value, some trade.time) else (extreme, time)
    if value ≤ 0 then extremeAt else extremeLoop replaces value extremeAt.1 extremeAt.2 rest

/-- `calculate_peak_value`, of a starting balance that is positive. -/
def calculatePeakValue (startingBalance : ℚ) (openPositions closedPositions : List PositionEntry) :
    ℚ × Option ℚ :=
  extremeLoop (fun value peak => value > peak) startingBalance startingBalance none
    (allTrades openPositions closedPositions)

/-- `calculate_trough_value`. -/
def calculateTroughValue (startingBalance : ℚ)
    (openPositions closedPositions : List PositionEntry) : ℚ × Option ℚ :=
  extremeLoop (fun value trough => value < trough) startingBalance startingBalance none
    (allTrades openPositions closedPositions)

/-! ## §2 The guard -/

/-- `_get_window_positions`. -/
def getWindowPositions (period : Option ℕ) (context : TradingContext) :
    List PositionEntry × List PositionEntry :=
  let allPositions :=
    sortOn PositionEntry.timestamp (context.openPositions ++ context.closePositions)
  match period with
  | none => (context.openPositions, context.closePositions)
  | some period =>
    if period < allPositions.length then
      let window := keepLast period allPositions
      (context.openPositions.filter (· ∈ window), context.closePositions.filter (· ∈ window))
    else (context.openPositions, context.closePositions)

/-- Whether a position is later than the peak; a peak at time zero counts as none. -/
def isAfter (peakTime : Option ℚ) (time : ℚ) : Bool :=
  match peakTime with
  | none => true
  | some peakTime => peakTime = 0 ∨ peakTime < time

/-- The share by which the cash has fallen from the peak, as a number that is not positive. -/
def drawDownOf (startingBalance : ℚ) (openPositions closePositions : List PositionEntry) : ℚ :=
  let peak := calculatePeakValue startingBalance openPositions closePositions
  let filteredOpen := openPositions.filter fun p => isAfter peak.2 p.timestamp
  let filteredClose := closePositions.filter fun p => isAfter peak.2 p.timestamp
  let trough := calculateTroughValue peak.1 filteredOpen filteredClose
  (trough.1 - peak.1) / peak.1

/-- `MaxDrawDownGuard.can_trade`. -/
def maxDrawDownCanTrade (percentage : ℚ) (period : Option ℕ) (action : TradeAction)
    (context : TradingContext) : Bool :=
  match action with
  | .sell => true
  | .buy =>
    if context.startingBalance ≤ 0 then false
    else
      let window := getWindowPositions period context
      if window.1.isEmpty && window.2.isEmpty then true
      else if (calculatePeakValue context.startingBalance window.1 window.2).1 ≤ 0 then false
      else
        let drawDown := drawDownOf context.startingBalance window.1 window.2
        drawDown ≥ -percentage || drawDown = 0

/-! ## §3 The highest cash -/

/-- The cash after some trades. -/
def cashAt (start : ℚ) (trades : List WindowTrade) : ℚ :=
  start + (trades.map WindowTrade.proceeds).sum

/-- The cash after each trade, up to the first that leaves none. -/
def cashFrom (value : ℚ) : List WindowTrade → List ℚ
  | [] => []
  | trade :: rest =>
    (value + trade.proceeds) ::
      if value + trade.proceeds ≤ 0 then [] else cashFrom (value + trade.proceeds) rest

/-- The cash is highest for the first time between the two parts of the trades. -/
structure IsTop (start : ℚ) (before after : List WindowTrade) : Prop where
  rising : before ≠ [] → ∀ v ∈ start :: cashFrom start before.dropLast,
    0 < v ∧ v < cashAt start before
  highest : ∀ v ∈ cashFrom (cashAt start before) after, v ≤ cashAt start before

@[simp] theorem cashAt_nil (start : ℚ) : cashAt start [] = start := by
  simp [cashAt]

@[simp] theorem cashAt_cons (start : ℚ) (t : WindowTrade) (trades : List WindowTrade) :
    cashAt start (t :: trades) = cashAt (start + t.proceeds) trades := by
  simp [cashAt, add_assoc]

@[simp] theorem cashFrom_cons_of_pos {value : ℚ} {t : WindowTrade} (rest : List WindowTrade)
    (h : 0 < value + t.proceeds) :
    cashFrom value (t :: rest) =
      (value + t.proceeds) :: cashFrom (value + t.proceeds) rest := by
  rw [cashFrom, if_neg (not_le.mpr h)]

/-- The trades before `t` leave the cash below what it is after `t`, and those after `t` do not lift
    it any more. -/
structure TopsAt (value : ℚ) (before : List WindowTrade) (t : WindowTrade)
    (after : List WindowTrade) : Prop where
  below : ∀ v ∈ cashFrom value before, 0 < v ∧ v < cashAt value (before ++ [t])
  highest : ∀ v ∈ cashFrom (cashAt value (before ++ [t])) after, v ≤ cashAt value (before ++ [t])

/-- A trade in front that leaves some cash, but less than the highest. -/
theorem TopsAt.cons {value : ℚ} {t u : WindowTrade} {before after : List WindowTrade}
    (h : TopsAt (value + t.proceeds) before u after) (hpos : 0 < value + t.proceeds)
    (hlt : value + t.proceeds < cashAt (value + t.proceeds) (before ++ [u])) :
    TopsAt value (t :: before) u after where
  below := by
    intro v hv
    rw [List.cons_append, cashAt_cons]
    rw [cashFrom_cons_of_pos before hpos] at hv
    rcases List.mem_cons.mp hv with rfl | hv
    · exact ⟨hpos, hlt⟩
    · exact h.below v hv
  highest := by
    rw [List.cons_append, cashAt_cons]
    exact h.highest

/-- The loop of `calculate_peak_value`. -/
def peakLoop (value peak : ℚ) (time : Option ℚ) (trades : List WindowTrade) : ℚ × Option ℚ :=
  extremeLoop (fun value peak => value > peak) value peak time trades

section PeakLoop

variable {value peak : ℚ} {time : Option ℚ} {t : WindowTrade} {rest : List WindowTrade}

theorem peakLoop_cons_of_lt (hpos : 0 < value + t.proceeds) (h : peak < value + t.proceeds) :
    peakLoop value peak time (t :: rest) =
      peakLoop (value + t.proceeds) (value + t.proceeds) (some t.time) rest := by
  simp [peakLoop, extremeLoop, h, not_le.mpr hpos]

theorem peakLoop_cons_of_le (hpos : 0 < value + t.proceeds) (h : value + t.proceeds ≤ peak) :
    peakLoop value peak time (t :: rest) = peakLoop (value + t.proceeds) peak time rest := by
  simp [peakLoop, extremeLoop, not_lt.mpr h, not_le.mpr hpos]

/-- Once the cash is gone, the loop ends. -/
theorem peakLoop_cons_of_nonpos (hpos : value + t.proceeds ≤ 0) (h : value + t.proceeds ≤ peak) :
    peakLoop value peak time (t :: rest) = (peak, time) := by
  simp [peakLoop, extremeLoop, not_lt.mpr h, hpos]

end PeakLoop

/-- Either no trade lifts the cash above the peak so far, or the loop ends with the first trade that
    lifts it to its highest. -/
theorem peakLoop_spec (trades : List WindowTrade) {value peak : ℚ} (time : Option ℚ)
    (hvalue : 0 < value) (hpeak : value ≤ peak) :
    (peakLoop value peak time trades = (peak, time) ∧ ∀ v ∈ cashFrom value trades, v ≤ peak) ∨
    ∃ before t after, trades = before ++ t :: after ∧
      peakLoop value peak time trades = (cashAt value (before ++ [t]), some t.time) ∧
      peak < cashAt value (before ++ [t]) ∧ TopsAt value before t after := by
  induction trades generalizing value peak time with
  | nil => exact .inl ⟨rfl, fun v hv => absurd hv List.not_mem_nil⟩
  | cons t rest ih =>
    by_cases hrise : peak < value + t.proceeds
    · -- a new peak, which is above zero
      have hpos : 0 < value + t.proceeds := hvalue.trans_le (hpeak.trans hrise.le)
      rw [peakLoop_cons_of_lt hpos hrise]
      right
      rcases ih (some t.time) hpos le_rfl with
        ⟨hsame, hbelow⟩ | ⟨before, u, after, rfl, hsame, hlt, htops⟩
      · refine ⟨[], t, rest, rfl, ?_, ?_, ?_⟩
        · simpa using hsame
        · simpa using hrise
        · exact ⟨fun v hv => absurd hv List.not_mem_nil, by simpa using hbelow⟩
      · refine ⟨t :: before, u, after, rfl, ?_, ?_, htops.cons hpos hlt⟩
        · simpa using hsame
        · simpa using hrise.trans hlt
    · by_cases hpos : 0 < value + t.proceeds
      · rw [peakLoop_cons_of_le hpos (not_lt.mp hrise)]
        rcases ih time hpos (not_lt.mp hrise) with
          ⟨hsame, hbelow⟩ | ⟨before, u, after, rfl, hsame, hlt, htops⟩
        · left
          refine ⟨hsame, ?_⟩
          rw [cashFrom_cons_of_pos rest hpos]
          exact List.forall_mem_cons.mpr ⟨not_lt.mp hrise, hbelow⟩
        · right
          have hbelow : value + t.proceeds < cashAt (value + t.proceeds) (before ++ [u]) :=
            (not_lt.mp hrise).trans_lt hlt
          refine ⟨t :: before, u, after, rfl, ?_, ?_, htops.cons hpos hbelow⟩
          · simpa using hsame
          · simpa using hlt
      · left
        refine ⟨peakLoop_cons_of_nonpos (not_lt.mp hpos) (not_lt.mp hrise), ?_⟩
        rw [cashFrom, if_pos (not_lt.mp hpos)]
        exact List.forall_mem_singleton.mpr (not_lt.mp hrise)

/-- The time of the last trade. -/
def lastTime (trades : List WindowTrade) : Option ℚ := trades.getLast?.map WindowTrade.time

/-- The peak is the highest cash, at the time of the trade that reaches it. -/
theorem exists_isTop {start : ℚ} (hstart : 0 < start) (trades : List WindowTrade) :
    ∃ before after, trades = before ++ after ∧ IsTop start before after ∧
      peakLoop start start none trades = (cashAt start before, lastTime before) := by
  rcases peakLoop_spec trades none hstart le_rfl with
    ⟨hsame, hbelow⟩ | ⟨before, t, after, rfl, hsame, hlt, htops⟩
  · refine ⟨[], trades, rfl, ⟨fun h => absurd rfl h, by simpa using hbelow⟩, ?_⟩
    simpa [lastTime] using hsame
  · refine ⟨before ++ [t], after, by simp, ⟨?_, htops.highest⟩, ?_⟩
    · intro _ v hv
      rw [List.dropLast_concat] at hv
      rcases List.mem_cons.mp hv with rfl | hv
      · exact ⟨hstart, hlt⟩
      · exact htops.below v hv
    · simpa [lastTime] using hsame

theorem IsTop.pos {start : ℚ} {before after : List WindowTrade} (h : IsTop start before after)
    (hstart : 0 < start) : 0 < cashAt start before := by
  by_cases hne : before = []
  · subst hne
    simpa using hstart
  · exact hstart.trans (h.rising hne start List.mem_cons_self).2

/-- The trough is at least what all the cash is at least. -/
theorem le_troughLoop_iff (bound : ℚ) (trades : List WindowTrade) (value trough : ℚ)
    (time : Option ℚ) :
    bound ≤ (extremeLoop (fun value trough => value < trough) value trough time trades).1 ↔
      bound ≤ trough ∧ ∀ v ∈ cashFrom value trades, bound ≤ v := by
  induction trades generalizing value trough time with
  | nil => simp [extremeLoop, cashFrom]
  | cons t rest ih =>
    have hleast (found : ℚ × Option ℚ)
        (hfound : found = if value + t.proceeds < trough then (value + t.proceeds, some t.time)
          else (trough, time)) :
        bound ≤ found.1 ↔ bound ≤ trough ∧ bound ≤ value + t.proceeds := by
      subst hfound
      split
      · rename_i hlt
        exact ⟨fun h => ⟨h.trans hlt.le, h⟩, And.right⟩
      · rename_i hge
        exact ⟨fun h => ⟨h, h.trans (not_lt.mp hge)⟩, And.left⟩
    by_cases hpos : value + t.proceeds ≤ 0
    · simp only [extremeLoop, cashFrom, if_pos hpos, decide_eq_true_eq]
      rw [hleast _ rfl]
      simp
    · simp only [extremeLoop, cashFrom, if_neg hpos, decide_eq_true_eq]
      rw [ih, hleast _ rfl]
      simp [and_assoc]

/-! ## §4 What the drawdown guard measures -/

section Drawdown

variable {openPositions closedPositions : List PositionEntry} {before after : List WindowTrade}

/-- What is later than the last of the first trades is the rest. -/
theorem filter_isAfter (hsorted : (before ++ after).Pairwise fun a b => a.time < b.time)
    (hpos : ∀ t ∈ before ++ after, 0 < t.time) :
    ((before ++ after).filter fun t => isAfter (lastTime before) t.time) = after := by
  rcases List.eq_nil_or_concat before with rfl | ⟨init, u, rfl⟩
  · simp [lastTime, isAfter]
  · rw [List.concat_eq_append] at hsorted hpos ⊢
    have hlast : lastTime (init ++ [u]) = some u.time := by simp [lastTime]
    have hu : u.time ≠ 0 := (hpos u (by simp)).ne'
    obtain ⟨hbefore, -, hcross⟩ := List.pairwise_append.mp hsorted
    have hdrop : ((init ++ [u]).filter fun t => isAfter (some u.time) t.time) = [] := by
      apply List.filter_eq_nil_iff.mpr
      intro t ht
      have hle : t.time ≤ u.time := by
        rcases List.mem_append.mp ht with ht | ht
        · have hlt : t.time < u.time :=
            (List.pairwise_append.mp hbefore).2.2 t ht u List.mem_cons_self
          exact hlt.le
        · rw [List.mem_singleton.mp ht]
      simp [isAfter, hu, hle]
    have hkeep : (after.filter fun t => isAfter (some u.time) t.time) = after := by
      apply List.filter_eq_self.mpr
      intro t ht
      simp [isAfter, hcross u (by simp) t ht]
    rw [hlast, List.filter_append, hdrop, hkeep, List.nil_append]

/-- At distinct times, the trades of the positions after the peak are the trades after the peak. -/
theorem allTrades_filter (hsplit : allTrades openPositions closedPositions = before ++ after)
    (hnodup : ((allTrades openPositions closedPositions).map WindowTrade.time).Nodup)
    (hpos : ∀ t ∈ allTrades openPositions closedPositions, 0 < t.time) :
    allTrades (openPositions.filter fun p => isAfter (lastTime before) p.timestamp)
      (closedPositions.filter fun p => isAfter (lastTime before) p.timestamp) = after := by
  have hle : (allTrades openPositions closedPositions).Pairwise fun a b => a.time ≤ b.time :=
    pairwise_sortOn _ _
  have hlt : (allTrades openPositions closedPositions).Pairwise fun a b => a.time < b.time :=
    (hle.and (List.pairwise_map.mp hnodup)).imp fun h => lt_of_le_of_ne h.1 h.2
  have hperm : (allTrades (openPositions.filter fun p => isAfter (lastTime before) p.timestamp)
      (closedPositions.filter fun p => isAfter (lastTime before) p.timestamp)).Perm after := by
    have hafter := filter_isAfter (hsplit ▸ hlt) (hsplit ▸ hpos)
    rw [← hsplit] at hafter
    rw [← hafter]
    refine (perm_sortOn _ _).trans (List.Perm.trans ?_ ((perm_sortOn _ _).filter _).symm)
    rw [List.filter_append, List.filter_map, List.filter_map]
    exact List.Perm.refl _
  apply hperm.eq_of_pairwise ?_ (pairwise_sortOn _ _) ((hsplit ▸ hle).sublist
    (List.sublist_append_right before after))
  intro a b ha hb hab hba
  have hin {t : WindowTrade} (ht : t ∈ after) : t ∈ allTrades openPositions closedPositions :=
    hsplit ▸ List.mem_append_right before ht
  exact List.inj_on_of_nodup_map hnodup (hin (hperm.mem_iff.mp ha)) (hin hb) (le_antisymm hab hba)

/-- The drawdown is within the limit if the cash since its highest is. -/
theorem le_drawDownOf_iff {start percentage : ℚ} (hstart : 0 < start)
    (hpercentage : 0 ≤ percentage)
    (hsplit : allTrades openPositions closedPositions = before ++ after)
    (htop : IsTop start before after)
    (hpeak : calculatePeakValue start openPositions closedPositions =
      (cashAt start before, lastTime before))
    (hnodup : ((allTrades openPositions closedPositions).map WindowTrade.time).Nodup)
    (hpos : ∀ t ∈ allTrades openPositions closedPositions, 0 < t.time) :
    -percentage ≤ drawDownOf start openPositions closedPositions ↔
      ∀ v ∈ cashFrom (cashAt start before) after,
        (1 - percentage) * cashAt start before ≤ v := by
  have hpositive := htop.pos hstart
  have hlimit : (1 - percentage) * cashAt start before ≤ cashAt start before :=
    mul_le_of_le_one_left hpositive.le (by linarith)
  unfold drawDownOf
  rw [hpeak]
  dsimp only
  rw [le_div_iff₀ hpositive, calculateTroughValue, allTrades_filter hsplit hnodup hpos]
  have htrough := le_troughLoop_iff ((1 - percentage) * cashAt start before) after
    (cashAt start before) (cashAt start before) none
  rw [← and_iff_right (a := (1 - percentage) * cashAt start before ≤ cashAt start before)
    (b := ∀ v ∈ cashFrom (cashAt start before) after, _) hlimit, ← htrough]
  constructor <;> intro h <;> linarith

end Drawdown

/-- The trades of the window. -/
def windowTrades (period : Option ℕ) (context : TradingContext) : List WindowTrade :=
  allTrades (getWindowPositions period context).1 (getWindowPositions period context).2

/-- **What the drawdown guard measures.** Where the trades of the window have times of their own, it
    lets a purchase through if and only if the cash since its highest, until it is used up, is at
    least what the limit leaves of the highest.

    The two loops of the helper find the peak and then the trough behind it; they see sales and
    purchases as they are booked, not the worth of what is held. -/
theorem maxDrawDown_canTrade_iff (percentage : ℚ) (period : Option ℕ) (context : TradingContext)
    (hpercentage : 0 < percentage) (hstart : 0 < context.startingBalance)
    (hnodup : ((windowTrades period context).map WindowTrade.time).Nodup)
    (hpos : ∀ t ∈ windowTrades period context, 0 < t.time) :
    ∃ before after, windowTrades period context = before ++ after ∧
      IsTop context.startingBalance before after ∧
      (maxDrawDownCanTrade percentage period .buy context = true ↔
        ∀ v ∈ cashFrom (cashAt context.startingBalance before) after,
          (1 - percentage) * cashAt context.startingBalance before ≤ v) := by
  obtain ⟨before, after, hsplit, htop, hpeak⟩ :=
    exists_isTop hstart (windowTrades period context)
  refine ⟨before, after, hsplit, htop, ?_⟩
  have hlimit := le_drawDownOf_iff hstart hpercentage.le hsplit htop hpeak hnodup hpos
  have hvalue : calculatePeakValue context.startingBalance (getWindowPositions period context).1
      (getWindowPositions period context).2 =
        (cashAt context.startingBalance before, lastTime before) := hpeak
  have hpeakPos : ¬ (calculatePeakValue context.startingBalance
      (getWindowPositions period context).1 (getWindowPositions period context).2).1 ≤ 0 := by
    rw [hvalue]
    exact not_le.mpr (htop.pos hstart)
  unfold maxDrawDownCanTrade
  simp only [not_le.mpr hstart, hpeakPos, if_false]
  split
  · -- without trades there is no cash to compare
    rename_i hempty
    have hnone : windowTrades period context = [] := by
      simp only [Bool.and_eq_true, List.isEmpty_iff] at hempty
      simp [windowTrades, hempty.1, hempty.2, allTrades]
    obtain ⟨rfl, rfl⟩ := List.append_eq_nil_iff.mp (hsplit.symm.trans hnone)
    simp [cashFrom]
  · rw [← hlimit, Bool.or_eq_true, decide_eq_true_eq, decide_eq_true_eq]
    constructor
    · rintro (h | h)
      · exact h
      · rw [h]
        exact neg_nonpos.mpr hpercentage.le
    · exact .inl

/-- A purchase that takes most of the cash, a sale that brings more back, and a small purchase after
    that. -/
def recoveredContext : TradingContext :=
  { TradingContext.new "BTC/USD" "KRAKEN" 100 none with
    openPositions := [⟨10, 6, 1⟩, ⟨30, 1, 3⟩]
    closePositions := [⟨20, 4, 2⟩] }

theorem maxDrawDown_canTrade_recovered :
    ∃ before after, windowTrades none recoveredContext = before ++ after ∧
      IsTop recoveredContext.startingBalance before after ∧
      (maxDrawDownCanTrade (1 / 2) none .buy recoveredContext = true ↔
        ∀ v ∈ cashFrom (cashAt recoveredContext.startingBalance before) after,
          (1 - 1 / 2) * cashAt recoveredContext.startingBalance before ≤ v) :=
  maxDrawDown_canTrade_iff (1 / 2) none recoveredContext (by norm_num) (by decide +kernel)
    (by decide +kernel) (by decide +kernel)

/-- Of 100 in cash the first purchase leaves 40, which is before the highest and does not count; the
    last one leaves 90 of 120. -/
example : maxDrawDownCanTrade (1 / 2) none .buy recoveredContext = true := by decide +kernel

end CryptoTrading.Trading
