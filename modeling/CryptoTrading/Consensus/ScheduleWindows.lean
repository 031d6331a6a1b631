import CryptoTrading.Consensus.StrategyWeight

/-!
# Windows of a schedule in the plain sense

A window is a set of weekdays with a start and an end on the clock of its time zone, the end
excluded and possibly on the next day (`PlainlyContains`).  `StrategyWeightResolver` reads it
so, except at an end-of-day bar: then only the weekday of one clock decides, that of UTC if the
bar ends a day there and the local one otherwise (`barClock`).
-/

namespace CryptoTrading.Consensus

/-! ## §1 Plain windows -/

def DateTime.weekday (dt : DateTime) : Weekday := Weekday.ofInt dt.dayNumber

def DateTime.previousWeekday (dt : DateTime) : Weekday := Weekday.ofInt (dt.dayNumber - 1)

/-- The window is open at what a clock shows: from its start to its end on its days, where an end
    that does not come after the start is one of the next day. -/
def TradingWindow.PlainlyContains (window : TradingWindow) (dt : DateTime) : Prop :=
  if window.startTime < window.endTime then
    dt.weekday ∈ window.days ∧ window.startTime ≤ dt.time ∧ dt.time < window.endTime
  else
    (dt.weekday ∈ window.days ∧ window.startTime ≤ dt.time) ∨
      (dt.previousWeekday ∈ window.days ∧ dt.time < window.endTime)

instance (window : TradingWindow) (dt : DateTime) : Decidable (window.PlainlyContains dt) := by
  unfold TradingWindow.PlainlyContains
  infer_instance

/-- A window that does not go on after midnight. -/
theorem TradingWindow.plainlyContains_of_lt {window : TradingWindow}
    (h : window.startTime < window.endTime) (dt : DateTime) :
    window.PlainlyContains dt ↔
      dt.weekday ∈ window.days ∧ window.startTime ≤ dt.time ∧ dt.time < window.endTime := by
  rw [TradingWindow.PlainlyContains, if_pos h]

/-! ## §2 End-of-day bars -/

/-- What the clocks of a time zone show at a moment of UTC. -/
def localClock (zones : ZoneInfo) (timezone : String) (utcDt : DateTime) : DateTime :=
  ⟨utcDt.microseconds + zones timezone utcDt⟩

/-- The clock whose weekday decides at an end-of-day bar. -/
def barClock (localDt utcDt : DateTime) : Option DateTime :=
  if isEndOfDayBar utcDt then some utcDt
  else if isEndOfDayBar localDt then some localDt
  else none

/-- At an end-of-day bar the weekday of its clock decides. -/
theorem isWindowActive_of_barClock {localDt utcDt clock : DateTime}
    (h : barClock localDt utcDt = some clock) (window : TradingWindow) :
    isWindowActive window localDt utcDt = true ↔ clock.weekday ∈ window.days := by
  unfold barClock at h
  unfold isWindowActive DateTime.weekday
  split at h
  · rename_i hutc
    obtain rfl := Option.some.inj h
    simp [hutc]
  · rename_i hutc
    split at h
    · rename_i hlocal
      obtain rfl := Option.some.inj h
      simp [hutc, hlocal]
    · cases h

/-- At any other moment the window is read in the plain sense. -/
theorem isWindowActive_of_none {localDt utcDt : DateTime} (h : barClock localDt utcDt = none)
    (window : TradingWindow) :
    isWindowActive window localDt utcDt = true ↔ window.PlainlyContains localDt := by
  unfold barClock at h
  split at h
  · cases h
  · rename_i hutc
    split at h
    · cases h
    · rename_i hlocal
      unfold isWindowActive TradingWindow.PlainlyContains DateTime.weekday
        DateTime.previousWeekday
      simp only [hutc, hlocal]
      by_cases hday : window.startTime < window.endTime <;> simp [hday]

section Schedule

variable (zones : ZoneInfo) (schedule : StrategySchedule) (timestamp : ℚ)

/-- The local clock at a timestamp. -/
def StrategySchedule.localDt : DateTime :=
  localClock zones schedule.timezone (fromTimestamp timestamp)

/-- The clock of the end-of-day bar at a timestamp, if it is one. -/
def StrategySchedule.barClockAt : Option DateTime :=
  barClock (schedule.localDt zones timestamp) (fromTimestamp timestamp)

theorem isScheduleActive_eq_any :
    isScheduleActive zones schedule timestamp = true ↔ ∃ window ∈ schedule.windows,
      isWindowActive window (schedule.localDt zones timestamp) (fromTimestamp timestamp) = true :=
  List.any_eq_true

theorem isScheduleActive_of_barClock {clock : DateTime}
    (h : schedule.barClockAt zones timestamp = some clock) :
    isScheduleActive zones schedule timestamp = true ↔
      ∃ window ∈ schedule.windows, clock.weekday ∈ window.days := by
  rw [isScheduleActive_eq_any]
  simp only [isWindowActive_of_barClock h]

theorem isScheduleActive_of_none (h : schedule.barClockAt zones timestamp = none) :
    isScheduleActive zones schedule timestamp = true ↔
      ∃ window ∈ schedule.windows,
        window.PlainlyContains (schedule.localDt zones timestamp) := by
  rw [isScheduleActive_eq_any]
  simp only [isWindowActive_of_none h]

/-- Some window of the schedule contains the local time in the plain sense. -/
def StrategySchedule.PlainlyOpen : Prop :=
  ∃ window ∈ schedule.windows, window.PlainlyContains (schedule.localDt zones timestamp)

/-- **What the end-of-day rule takes away**: a schedule that is open in the plain sense is active
    unless an end-of-day bar has a weekday on its clock that none of the windows has.

    At such a bar only the weekday is looked at.  Midnight belongs to the day that begins, so the
    window of the evening before does not count there. -/
theorem isScheduleActive_iff_of_plainlyOpen {zones : ZoneInfo} {schedule : StrategySchedule}
    {timestamp : ℚ} (hopen : schedule.PlainlyOpen zones timestamp) :
    isScheduleActive zones schedule timestamp = true ↔
      ∀ clock, schedule.barClockAt zones timestamp = some clock →
        ∃ window ∈ schedule.windows, clock.weekday ∈ window.days := by
  cases hbar : schedule.barClockAt zones timestamp with
  | none =>
    rw [isScheduleActive_of_none zones schedule timestamp hbar]
    refine iff_of_true hopen ?_
    intro clock hclock
    cases hclock
  | some clock =>
    rw [isScheduleActive_of_barClock zones schedule timestamp hbar]
    constructor
    · intro h clock' hclock
      obtain rfl := Option.some.inj hclock
      exact h
    · intro h
      exact h clock rfl

end Schedule

/-! ## §3 A window that closes at midnight -/

theorem sunday_ne_nil : [Weekday.sunday] ≠ [] := List.cons_ne_nil _ _

theorem evening_ne_morning :
    (22 * 60 * 60 * 1000000 : ℤ) ≠ 4 * 60 * 60 * 1000000 := by decide

/-- Sunday from 22:00 until 04:00 of Monday. -/
def sundayNight : TradingWindow :=
  ⟨[.sunday], 22 * 60 * 60 * 1000000, 4 * 60 * 60 * 1000000, sunday_ne_nil, evening_ne_morning⟩

/-- The night of Sunday, on the clock of UTC. -/
def sundayNights : StrategySchedule := ⟨"UTC", [sundayNight]⟩

/-- One second after midnight on Monday the schedule is active. -/
theorem sundayNights_active_after_midnight :
    isScheduleActive (fun _ _ => 0) sundayNights 1791763201 = true ↔
      ∀ clock, sundayNights.barClockAt (fun _ _ => 0) 1791763201 = some clock →
        ∃ window ∈ sundayNights.windows, clock.weekday ∈ window.days := by
  have hopen : sundayNight.PlainlyContains
      (sundayNights.localDt (fun _ _ => 0) 1791763201) := by decide +kernel
  exact isScheduleActive_iff_of_plainlyOpen ⟨sundayNight, List.mem_singleton.mpr rfl, hopen⟩

/-- At midnight on Monday the night of Sunday is open, and the schedule is not active. -/
theorem sundayNights_inactive_at_midnight :
    ¬ (sundayNights.PlainlyOpen (fun _ _ => 0) 1791763200 →
      isScheduleActive (fun _ _ => 0) sundayNights 1791763200 = true) := by
  intro h
  have hopen : sundayNight.PlainlyContains
      (sundayNights.localDt (fun _ _ => 0) 1791763200) := by decide +kernel
  have hclosed : isScheduleActive (fun _ _ => 0) sundayNights 1791763200 = false := by
    decide +kernel
  rw [h ⟨sundayNight, List.mem_singleton.mpr rfl, hopen⟩] at hclosed
  cases hclosed

end CryptoTrading.Consensus
