import Mathlib.Data.Finset.Basic
import CryptoTrading.Api.Interfaces
import CryptoTrading.Lib.Rounding

/-!
# Weights and schedules of strategies

`StrategyWeightResolver` decides how much a strategy counts at a moment: its configured weight
while it is enabled and one of the windows of its schedule is open, and nothing otherwise.

A moment is a number of seconds since the epoch.  The time zone database is a parameter: it
says by how many microseconds the clocks of a zone are ahead of UTC at a moment.  Weights are
rational numbers.
-/

namespace CryptoTrading.Consensus

open CryptoTrading.Lib (roundHalfEven)

/-! ## §1 Clocks -/

inductive Weekday where
  | monday | tuesday | wednesday | thursday | friday | saturday | sunday
  deriving DecidableEq, Repr

/-- `Weekday(n % 7)`. -/
def Weekday.ofInt (n : ℤ) : Weekday :=
  match (n % 7).toNat with
  | 0 => .monday
  | 1 => .tuesday
  | 2 => .wednesday
  | 3 => .thursday
  | 4 => .friday
  | 5 => .saturday
  | _ => .sunday

/-- What a clock shows, in microseconds since 1970-01-01 00:00, a Thursday. -/
structure DateTime where
  microseconds : ℤ

namespace DateTime

def microsecondsPerDay : ℤ := 24 * 60 * 60 * 1000000

/-- `dt.weekday()`, as a number that counts on over the weeks. -/
def dayNumber (dt : DateTime) : ℤ := dt.microseconds / microsecondsPerDay + 3

/-- `dt.time()`, in microseconds since midnight. -/
def time (dt : DateTime) : ℤ := dt.microseconds % microsecondsPerDay

def hour (dt : DateTime) : ℤ := dt.time / (60 * 60 * 1000000)

def minute (dt : DateTime) : ℤ := dt.time / (60 * 1000000) % 60

def second (dt : DateTime) : ℤ := dt.time / 1000000 % 60

end DateTime

/-- `datetime.fromtimestamp(timestamp, tz=timezone.utc)`. -/
def fromTimestamp (timestamp : ℚ) : DateTime := ⟨roundHalfEven (timestamp * 1000000)⟩

/-! ## §2 Schedules -/

/-- `TradingWindow`, as its validators leave it.  Times are microseconds since midnight. -/
structure TradingWindow where
  days : List Weekday
  startTime : ℤ
  endTime : ℤ
  days_ne_nil : days ≠ []
  startTime_ne_endTime : startTime ≠ endTime

structure StrategySchedule where
  timezone : String
  windows : List TradingWindow

/-- `_is_end_of_day_bar`. -/
def isEndOfDayBar (dt : DateTime) : Bool :=
  (dt.hour = 23 ∧ 50 ≤ dt.minute) ∨ (dt.hour = 0 ∧ dt.minute = 0 ∧ dt.second = 0)

/-- `is_window_active`. -/
def isWindowActive (window : TradingWindow) (localDt utcDt : DateTime) : Bool :=
  let opensOn (dt : DateTime) : Bool := Weekday.ofInt dt.dayNumber ∈ window.days
  if isEndOfDayBar utcDt then opensOn utcDt
  else if isEndOfDayBar localDt then opensOn localDt
  else if window.startTime < window.endTime then
    opensOn localDt ∧ window.startTime ≤ localDt.time ∧ localDt.time < window.endTime
  else
    -- the window goes on after midnight
    (opensOn localDt ∧ window.startTime ≤ localDt.time) ∨
      (Weekday.ofInt (localDt.dayNumber - 1) ∈ window.days ∧ localDt.time < window.endTime)

/-- The time zone database: how many microseconds a zone is ahead of UTC. -/
abbrev ZoneInfo := String → DateTime → ℤ

/-- `is_schedule_active`. -/
def isScheduleActive (zones : ZoneInfo) (schedule : StrategySchedule) (timestamp : ℚ) : Bool :=
  let utcDt := fromTimestamp timestamp
  let localDt : DateTime := ⟨utcDt.microseconds + zones schedule.timezone utcDt⟩
  schedule.windows.any fun window => isWindowActive window localDt utcDt

/-! ## §3 Strategies -/

/-- `TradingStrategy`.  `object` tells the objects apart; a strategy without `tickerSymbols` is
    not restricted. -/
structure TradingStrategy where
  object : ℕ
  name : String
  action : Option TradeAction
  tickerSymbols : Option (Finset String)
  weight : ℚ
  schedule : Option StrategySchedule
  enabled : Bool

/-- `resolve_effective_weight`. -/
def resolveEffectiveWeight (zones : ZoneInfo) (strategy : TradingStrategy) (timestamp : ℚ) : ℚ :=
  if strategy.enabled = false then 0
  else if strategy.weight ≤ 0 then 0
  else
    match strategy.schedule with
    | none => strategy.weight
    | some schedule =>
      if schedule.windows = [] then 0
      else if isScheduleActive zones schedule timestamp then strategy.weight
      else 0

/-- A strategy counts with its own weight or not at all. -/
theorem resolveEffectiveWeight_eq (zones : ZoneInfo) (strategy : TradingStrategy)
    (timestamp : ℚ) :
    resolveEffectiveWeight zones strategy timestamp = 0 ∨
      0 < strategy.weight ∧
        resolveEffectiveWeight zones strategy timestamp = strategy.weight := by
  unfold resolveEffectiveWeight
  split
  · exact .inl rfl
  · split
    · exact .inl rfl
    · rename_i hweight
      have hpos := not_le.mp hweight
      split
      · exact .inr ⟨hpos, rfl⟩
      · split
        · exact .inl rfl
        · split
          · exact .inr ⟨hpos, rfl⟩
          · exact .inl rfl

theorem resolveEffectiveWeight_nonneg (zones : ZoneInfo) (strategy : TradingStrategy)
    (timestamp : ℚ) : 0 ≤ resolveEffectiveWeight zones strategy timestamp := by
  rcases resolveEffectiveWeight_eq zones strategy timestamp with hzero | ⟨hpos, heq⟩
  · exact hzero.ge
  · rw [heq]
    exact hpos.le

end CryptoTrading.Consensus
