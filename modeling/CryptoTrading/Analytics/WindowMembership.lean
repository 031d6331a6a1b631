import CryptoTrading.Consensus.ScheduleWindows

/-!
# Two readings of a window

Embeds `_is_trade_within_windows` of `src/trading/analytics/strategy_optimizer.py`, which picks
the trades that count as evidence for a set of windows.  `StrategyWeightResolver` decides with
the same windows when the strategy trades.

The optimizer includes the end of a window, has no windows over midnight and knows no
end-of-day bars, so the two agree on a timestamp only where these differences do not show
(`SameReading`).
-/

namespace CryptoTrading.Analytics

open CryptoTrading.Consensus

/-! ## §1 The optimizer's reading -/

/-- A window with both ends, on its own days. -/
def ClosedContains (window : TradingWindow) (dt : DateTime) : Prop :=
  dt.weekday ∈ window.days ∧ window.startTime ≤ dt.time ∧ dt.time ≤ window.endTime

instance (window : TradingWindow) (dt : DateTime) : Decidable (ClosedContains window dt) := by
  unfold ClosedContains
  infer_instance

/-- `_is_trade_within_windows`. -/
def isTradeWithinWindows (zones : ZoneInfo) (entryTimestamp : ℚ) (windows : List TradingWindow)
    (timezone : String) : Bool :=
  if windows.isEmpty then true
  else
    let dt := localClock zones timezone (fromTimestamp entryTimestamp)
    windows.any fun window => ClosedContains window dt

/-- The window ends on the day on which it starts. -/
def IsDayWindow (window : TradingWindow) : Prop := window.startTime < window.endTime

/-- The day window ends at what the clock shows. -/
def EndsAt (window : TradingWindow) (dt : DateTime) : Prop :=
  IsDayWindow window ∧ dt.weekday ∈ window.days ∧ dt.time = window.endTime

/-- The optimizer sees day windows with their ends, and no others. -/
theorem closedContains_iff (window : TradingWindow) (dt : DateTime) :
    ClosedContains window dt ↔
      (IsDayWindow window ∧ window.PlainlyContains dt) ∨ EndsAt window dt := by
  unfold ClosedContains EndsAt
  by_cases hday : IsDayWindow window
  · have hlt : window.startTime < window.endTime := hday
    rw [TradingWindow.plainlyContains_of_lt hlt]
    constructor
    · rintro ⟨hweekday, hstart, hend⟩
      rcases lt_or_eq_of_le hend with hbefore | heq
      · exact Or.inl ⟨hday, hweekday, hstart, hbefore⟩
      · exact Or.inr ⟨hday, hweekday, heq⟩
    · rintro (⟨-, hweekday, hstart, hbefore⟩ | ⟨-, hweekday, heq⟩)
      · exact ⟨hweekday, hstart, hbefore.le⟩
      · exact ⟨hweekday, heq ▸ hlt.le, heq.le⟩
  · -- the end of a window over midnight comes before its start
    have hgt : window.endTime < window.startTime :=
      lt_of_le_of_ne (not_lt.mp hday) (Ne.symm window.startTime_ne_endTime)
    constructor
    · rintro ⟨-, hstart, hend⟩
      exact absurd (hstart.trans hend) (not_le.mpr hgt)
    · rintro (⟨h, -⟩ | ⟨h, -⟩)
      · exact absurd h hday
      · exact absurd h hday

section Readings

variable (zones : ZoneInfo) (windows : List TradingWindow) (timezone : String) (timestamp : ℚ)

/-- Of the two readings, one sees the windows that the other sees: outside end-of-day bars a day
    window is open in the plain sense, or a day window ends at that very moment exactly if a
    window over midnight is open; at an end-of-day bar a window contains the local time with its
    end exactly if a window has the weekday of the bar's clock. -/
def SameReading : Prop :=
  let localDt := localClock zones timezone (fromTimestamp timestamp)
  match barClock localDt (fromTimestamp timestamp) with
  | none =>
    (∃ window ∈ windows, IsDayWindow window ∧ window.PlainlyContains localDt) ∨
      ((∃ window ∈ windows, EndsAt window localDt) ↔
        ∃ window ∈ windows, ¬ IsDayWindow window ∧ window.PlainlyContains localDt)
  | some clock =>
    (∃ window ∈ windows, ClosedContains window localDt) ↔
      ∃ window ∈ windows, clock.weekday ∈ window.days

variable {windows}

theorem isTradeWithinWindows_iff (hne : windows ≠ []) :
    isTradeWithinWindows zones timestamp windows timezone = true ↔
      ∃ window ∈ windows,
        ClosedContains window (localClock zones timezone (fromTimestamp timestamp)) := by
  have hempty : windows.isEmpty = false := by
    rw [List.isEmpty_eq_false_iff]
    exact hne
  simp only [isTradeWithinWindows, hempty, Bool.false_eq_true, if_false, List.any_eq_true,
    decide_eq_true_eq]

/-- An alternative inside an existential over the windows. -/
theorem exists_window_or {P Q : TradingWindow → Prop} :
    (∃ window ∈ windows, P window ∨ Q window) ↔
      (∃ window ∈ windows, P window) ∨ ∃ window ∈ windows, Q window := by
  constructor
  · rintro ⟨window, hmem, h | h⟩
    · exact Or.inl ⟨window, hmem, h⟩
    · exact Or.inr ⟨window, hmem, h⟩
  · rintro (⟨window, hmem, h⟩ | ⟨window, hmem, h⟩)
    · exact ⟨window, hmem, Or.inl h⟩
    · exact ⟨window, hmem, Or.inr h⟩

/-- A window is one of a day or one over midnight. -/
theorem plainlyContains_split (dt : DateTime) :
    (∃ window ∈ windows, window.PlainlyContains dt) ↔
      (∃ window ∈ windows, IsDayWindow window ∧ window.PlainlyContains dt) ∨
        ∃ window ∈ windows, ¬ IsDayWindow window ∧ window.PlainlyContains dt := by
  rw [← exists_window_or]
  constructor
  · rintro ⟨window, hmem, h⟩
    by_cases hday : IsDayWindow window
    · exact ⟨window, hmem, Or.inl ⟨hday, h⟩⟩
    · exact ⟨window, hmem, Or.inr ⟨hday, h⟩⟩
  · rintro ⟨window, hmem, ⟨-, h⟩ | ⟨-, h⟩⟩
    · exact ⟨window, hmem, h⟩
    · exact ⟨window, hmem, h⟩

/-- **Where the optimizer and live trading agree** on a list of windows.

    The optimizer closes a window with its end, reads one over midnight as empty, and knows no
    end-of-day bars.  The agreement is therefore a matter of the windows and the clock alone, and
    `SameReading` says which. -/
theorem isTradeWithinWindows_eq_isScheduleActive_iff (hne : windows ≠ []) :
    (isTradeWithinWindows zones timestamp windows timezone = true ↔
      isScheduleActive zones ⟨timezone, windows⟩ timestamp = true) ↔
      SameReading zones windows timezone timestamp := by
  rw [isTradeWithinWindows_iff zones timezone timestamp hne]
  simp only [SameReading]
  cases hbar : barClock (localClock zones timezone (fromTimestamp timestamp))
      (fromTimestamp timestamp) with
  | some clock => rw [isScheduleActive_of_barClock zones ⟨timezone, windows⟩ timestamp hbar]
  | none =>
    rw [isScheduleActive_of_none zones ⟨timezone, windows⟩ timestamp hbar]
    simp only [StrategySchedule.localDt, closedContains_iff]
    rw [exists_window_or, plainlyContains_split]
    -- both sides share the day windows that are open in the plain sense
    by_cases hopen : ∃ window ∈ windows, IsDayWindow window ∧
        window.PlainlyContains (localClock zones timezone (fromTimestamp timestamp))
    · simp only [hopen, true_or]
    · simp only [hopen, false_or]

end Readings

/-- On Sunday at 23:00 both readings are taken of the night of Sunday. -/
theorem sundayNight_readings :
    (isTradeWithinWindows (fun _ _ => 0) 1791759600 [sundayNight] "UTC" = true ↔
      isScheduleActive (fun _ _ => 0) ⟨"UTC", [sundayNight]⟩ 1791759600 = true) ↔
      SameReading (fun _ _ => 0) [sundayNight] "UTC" 1791759600 :=
  isTradeWithinWindows_eq_isScheduleActive_iff (fun _ _ => 0) "UTC" 1791759600
    (List.cons_ne_nil _ _)

/-- On Sunday at 23:00 the strategy trades, and the optimizer does not count the trade. -/
theorem sundayNight_not_within :
    ¬ (isTradeWithinWindows (fun _ _ => 0) 1791759600 [sundayNight] "UTC" = true ↔
      isScheduleActive (fun _ _ => 0) ⟨"UTC", [sundayNight]⟩ 1791759600 = true) := by
  have hwithin : isTradeWithinWindows (fun _ _ => 0) 1791759600 [sundayNight] "UTC" = false := by
    decide +kernel
  have hactive : isScheduleActive (fun _ _ => 0) ⟨"UTC", [sundayNight]⟩ 1791759600 = true := by
    decide +kernel
  rw [hwithin, hactive]
  decide

end CryptoTrading.Analytics
