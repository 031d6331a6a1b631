import CryptoTrading.Analytics.TradeAttribution
import CryptoTrading.Consensus.ScheduleWindows
import CryptoTrading.Lib.Grouping
import Mathlib.Data.Finset.Sort

/-!
# Windows proposed from the profitable hours

Embeds `profile_hourly_profitability` and `optimize_trading_windows` of
`src/trading/analytics/strategy_optimizer.py` with the two helpers between them.

Trades are filed under the weekday and the hour of their entry.  The profitable slots of each
weekday are compressed into ranges of hours, equal ranges of several weekdays become one
window, and the range that ends the day stops a second early.  Read by
`StrategyWeightResolver` the windows denote the profitable slots again, since the last second
of a day is always part of an end-of-day bar.
-/

namespace CryptoTrading.Analytics

open CryptoTrading.Lib
open CryptoTrading.Consensus
open CryptoTrading.Session (Trade)

/-! ## §1 Profiles of the hours of a week -/

/-- The number of a `Weekday`. -/
def weekdayValue : Weekday → ℕ
  | .monday => 0
  | .tuesday => 1
  | .wednesday => 2
  | .thursday => 3
  | .friday => 4
  | .saturday => 5
  | .sunday => 6

/-- A weekday and an hour. -/
abbrev Slot := Weekday × ℤ

/-- What a clock shows, as a slot. -/
def slotOf (dt : DateTime) : Slot := (dt.weekday, dt.hour)

structure HourlyProfitabilityProfile where
  weekday : Weekday
  hour : ℤ
  totalTrades : ℕ
  winningTrades : ℕ
  winRatePct : ℚ
  netPnl : ℚ
  grossPnl : ℚ
  profitFactor : ℚ
  deriving DecidableEq

/-- The slot of the entry of a trade. -/
def entrySlot (zones : ZoneInfo) (timezone : String) (trade : Trade) : Slot :=
  slotOf (localClock zones timezone (fromTimestamp trade.entryTimestamp))

/-- The order of pairs of numbers. -/
def slotLe (a b : Slot) : Prop :=
  weekdayValue a.1 < weekdayValue b.1 ∨ (weekdayValue a.1 = weekdayValue b.1 ∧ a.2 ≤ b.2)

instance (a b : Slot) : Decidable (slotLe a b) := by
  unfold slotLe
  infer_instance

/-- The profile of the trades of one slot. -/
def profileOf (slot : Slot) (bucket : List Trade) : HourlyProfitabilityProfile :=
  let metrics := calculateMetrics bucket
  { weekday := slot.1
    hour := slot.2
    totalTrades := metrics.totalTrades
    winningTrades := metrics.winningTrades
    winRatePct := metrics.winRatePct
    netPnl := metrics.netPnl
    grossPnl := metrics.grossPnl
    profitFactor := metrics.profitFactor }

/-- `profile_hourly_profitability`. -/
def profileHourlyProfitability (zones : ZoneInfo) (trades : List Trade) (timezone : String) :
    List HourlyProfitabilityProfile :=
  let hourlyBuckets := Dict.groupBy (entrySlot zones timezone) id trades
  (hourlyBuckets.entries.insertionSort fun a b => slotLe a.1 b.1).map fun e => profileOf e.1 e.2

/-! ## §2 Ranges of hours -/

/-- The loop of `_extract_contiguous_day_ranges` over the hours of a day. -/
def contiguousFrom (startH prevH : ℤ) : List ℤ → List (ℤ × ℤ)
  | [] => [(startH, prevH + 1)]
  | h :: rest =>
    if h = prevH + 1 then contiguousFrom startH h rest
    else (startH, prevH + 1) :: contiguousFrom h h rest

-- the order of the hours, under names of its own
local instance isTrans_hour : IsTrans ℤ fun a b => a ≤ b := inferInstance
local instance antisymm_hour : Std.Antisymm fun a b : ℤ => a ≤ b := inferInstance

/-- The ranges of one weekday; a weekday without hours is passed over. -/
def rangesOfDay (hours : Finset ℤ) : Option (List (ℤ × ℤ)) :=
  match hours.sort with
  | [] => none
  | first :: rest => some (contiguousFrom first first rest)

/-- `_extract_contiguous_day_ranges`. -/
def extractContiguousDayRanges (profitableSlots : Dict Weekday (Finset ℤ)) :
    Dict Weekday (List (ℤ × ℤ)) :=
  let sorted := profitableSlots.entries.insertionSort fun a b => weekdayValue a.1 ≤ weekdayValue b.1
  Dict.ofList (sorted.filterMap fun e => (rangesOfDay e.2).map fun ranges => (e.1, ranges))

/-- Add an element to the set under a key, as with `defaultdict(set)`. -/
def addHour (slots : Dict Weekday (Finset ℤ)) (weekday : Weekday) (hour : ℤ) :
    Dict Weekday (Finset ℤ) :=
  slots.set weekday (insert hour (slots.getD weekday ∅))

/-! ## §3 Windows -/

def microsecondsPerHour : ℤ := 60 * 60 * 1000000

/-- `time(hour=h, minute=0, second=0)`; an hour out of range is a `ValueError`. -/
def timeOfHour (h : ℤ) : Option ℤ :=
  if 0 ≤ h ∧ h < 24 then some (h * microsecondsPerHour) else none

/-- `time(hour=23, minute=59, second=59)`. -/
def lastSecond : ℤ := 24 * microsecondsPerHour - 1000000

/-- `end_t`: the end of the day is its last second. -/
def endTimeOfHour (h : ℤ) : Option ℤ := if h ≥ 24 then some lastSecond else timeOfHour h

/-- `TradingWindow(days=…, start_time=…, end_time=…)` with its validators. -/
def tradingWindow? (days : List Weekday) (startTime endTime : ℤ) : Option TradingWindow :=
  if hdays : (days.dedup.insertionSort fun a b => weekdayValue a ≤ weekdayValue b) = [] then none
  else if htimes : startTime = endTime then none
  else some
    { days := days.dedup.insertionSort fun a b => weekdayValue a ≤ weekdayValue b
      startTime := startTime
      endTime := endTime
      days_ne_nil := hdays
      startTime_ne_endTime := htimes }

/-- One round of the loop of `_build_trading_windows_from_ranges`. -/
def windowOfRange (range : ℤ × ℤ) (days : List Weekday) : Option TradingWindow := do
  let startT ← timeOfHour range.1
  let endT ← endTimeOfHour range.2
  tradingWindow? days startT endT

/-- The loop; it ends with the first window that cannot be built. -/
def windowsOfRanges : List ((ℤ × ℤ) × List Weekday) → Option (List TradingWindow)
  | [] => some []
  | e :: rest => do
    let window ← windowOfRange e.1 e.2
    let others ← windowsOfRanges rest
    return window :: others

/-- The order of pairs of hours. -/
def rangeLe (a b : ℤ × ℤ) : Prop := a.1 < b.1 ∨ (a.1 = b.1 ∧ a.2 ≤ b.2)

instance (a b : ℤ × ℤ) : Decidable (rangeLe a b) := by
  unfold rangeLe
  infer_instance

/-- `_build_trading_windows_from_ranges`. -/
def buildTradingWindowsFromRanges (dayRanges : Dict Weekday (List (ℤ × ℤ))) :
    Option (List TradingWindow) :=
  let pairs := dayRanges.entries.flatMap fun e => e.2.map fun r => (r, e.1)
  let rangeToDays := Dict.groupBy Prod.fst Prod.snd pairs
  windowsOfRanges (rangeToDays.entries.insertionSort fun a b => rangeLe a.1 b.1)

/-- A profile with enough trades, enough of them won, and a profit. -/
def isProfitable (minTrades : ℤ) (minWinRate : ℚ) (p : HourlyProfitabilityProfile) : Bool :=
  minTrades ≤ p.totalTrades ∧ minWinRate ≤ p.winRatePct ∧ 0 < p.netPnl

/-- `profitable_slots`. -/
def profitableSlots (zones : ZoneInfo) (trades : List Trade) (timezone : String)
    (minTrades : ℤ) (minWinRate : ℚ) : Dict Weekday (Finset ℤ) :=
  let profiles := profileHourlyProfitability zones trades timezone
  (profiles.filter (isProfitable minTrades minWinRate)).foldl
    (fun slots p => addHour slots p.weekday p.hour) Dict.empty

/-- `optimize_trading_windows`; `none` when a window is rejected. -/
def optimizeTradingWindows (zones : ZoneInfo) (trades : List Trade) (timezone : String)
    (minTrades : ℤ) (minWinRate : ℚ) : Option (List TradingWindow) :=
  let slots := profitableSlots zones trades timezone minTrades minWinRate
  if slots.entries = [] then some []
  else buildTradingWindowsFromRanges (extractContiguousDayRanges slots)

/-! ## §4 The profitable slots -/

section Slots

variable (zones : ZoneInfo) (trades : List Trade) (timezone : String)

/-- The trades that were entered in a slot. -/
def tradesOf (slot : Slot) : List Trade :=
  trades.filter fun trade => entrySlot zones timezone trade = slot

/-- Enough trades, enough of them won, and a profit. -/
def ProfitableSlot (minTrades : ℤ) (minWinRate : ℚ) (slot : Slot) : Prop :=
  let metrics := calculateMetrics (tradesOf zones trades timezone slot)
  minTrades ≤ metrics.totalTrades ∧ minWinRate ≤ metrics.winRatePct ∧ 0 < metrics.netPnl

theorem mem_profiles {p : HourlyProfitabilityProfile} :
    p ∈ profileHourlyProfitability zones trades timezone ↔
      ∃ slot, tradesOf zones trades timezone slot ≠ [] ∧
        p = profileOf slot (tradesOf zones trades timezone slot) := by
  have hbucket : ∀ slot, Dict.valuesUnder (entrySlot zones timezone) id slot trades =
      tradesOf zones trades timezone slot := by
    intro slot
    simp [Dict.valuesUnder, tradesOf]
  unfold profileHourlyProfitability
  simp only [List.mem_map, (List.perm_insertionSort _ _).mem_iff]
  constructor
  · rintro ⟨⟨slot, bucket⟩, hmem, rfl⟩
    obtain ⟨hne, rfl⟩ := (Dict.mem_entries_groupBy _ _).mp hmem
    rw [hbucket] at hne
    exact ⟨slot, hne, by rw [hbucket]⟩
  · rintro ⟨slot, hne, rfl⟩
    refine ⟨(slot, tradesOf zones trades timezone slot), ?_, rfl⟩
    exact (Dict.mem_entries_groupBy _ _).mpr ⟨hne, (hbucket slot).symm⟩

theorem isProfitable_profileOf {minTrades : ℤ} {minWinRate : ℚ} {slot : Slot} :
    isProfitable minTrades minWinRate (profileOf slot (tradesOf zones trades timezone slot)) =
      true ↔ ProfitableSlot zones trades timezone minTrades minWinRate slot :=
  decide_eq_true_iff

/-- A slot without trades makes no profit, so it needs no profile. -/
theorem profitableSlot_iff {minTrades : ℤ} {minWinRate : ℚ} {slot : Slot} :
    ProfitableSlot zones trades timezone minTrades minWinRate slot ↔
      ∃ p ∈ (profileHourlyProfitability zones trades timezone).filter
        (isProfitable minTrades minWinRate), (p.weekday, p.hour) = slot := by
  simp only [List.mem_filter, mem_profiles]
  constructor
  · intro h
    have hne : tradesOf zones trades timezone slot ≠ [] := by
      intro hnil
      rw [ProfitableSlot, hnil] at h
      exact absurd h.2.2 (lt_irrefl 0)
    have hprofit := (isProfitable_profileOf zones trades timezone).mpr h
    exact ⟨profileOf slot (tradesOf zones trades timezone slot), ⟨⟨slot, hne, rfl⟩, hprofit⟩, rfl⟩
  · rintro ⟨p, ⟨⟨slot', -, rfl⟩, hprofit⟩, rfl⟩
    exact (isProfitable_profileOf zones trades timezone).mp hprofit

end Slots

/-- The hours of the weekdays after more have been added. -/
theorem mem_addHours {ps : List HourlyProfitabilityProfile} {slots : Dict Weekday (Finset ℤ)}
    {weekday : Weekday} {hour : ℤ} :
    hour ∈ (ps.foldl (fun slots p => addHour slots p.weekday p.hour) slots).getD weekday ∅ ↔
      hour ∈ slots.getD weekday ∅ ∨ ∃ p ∈ ps, (p.weekday, p.hour) = (weekday, hour) := by
  induction ps generalizing slots with
  | nil => simp
  | cons p rest ih =>
    rw [List.foldl_cons, ih]
    have hstep : hour ∈ (addHour slots p.weekday p.hour).getD weekday ∅ ↔
        hour ∈ slots.getD weekday ∅ ∨ (p.weekday, p.hour) = (weekday, hour) := by
      unfold addHour
      by_cases hday : weekday = p.weekday
      · subst hday
        simp only [Dict.getD, Dict.get?_set_self, Option.getD_some, Finset.mem_insert,
          Prod.mk.injEq, true_and]
        rw [or_comm, eq_comm (a := hour)]
      · have hne : p.weekday ≠ weekday := Ne.symm hday
        simp [Dict.getD, hday, hne]
    rw [hstep, List.exists_mem_cons_iff, or_assoc]

/-! ## §5 Ranges denote the hours -/

/-- The ranges cover what the loop has passed and the hours that are left. -/
theorem covered_contiguousFrom {startH prevH : ℤ} (hle : startH ≤ prevH) (rest : List ℤ)
    (h : ℤ) :
    (∃ r ∈ contiguousFrom startH prevH rest, r.1 ≤ h ∧ h < r.2) ↔
      (startH ≤ h ∧ h ≤ prevH) ∨ h ∈ rest := by
  induction rest generalizing startH prevH with
  | nil =>
    have hlast : startH ≤ h ∧ h < prevH + 1 ↔ startH ≤ h ∧ h ≤ prevH := by omega
    simp only [contiguousFrom, List.exists_mem_cons_iff, List.not_mem_nil, false_and,
      exists_false, or_false, hlast]
  | cons next rest ih =>
    simp only [contiguousFrom]
    by_cases hnext : next = prevH + 1
    · rw [if_pos hnext, ih (by omega), List.mem_cons]
      constructor
      · rintro (hin | hrest)
        · by_cases heq : h = next
          · exact Or.inr (Or.inl heq)
          · exact Or.inl (by omega)
        · exact Or.inr (Or.inr hrest)
      · rintro (hin | heq | hrest)
        · exact Or.inl (by omega)
        · exact Or.inl (by omega)
        · exact Or.inr hrest
    · rw [if_neg hnext, List.exists_mem_cons_iff, ih le_rfl, List.mem_cons]
      have hone : next ≤ h ∧ h ≤ next ↔ h = next := by omega
      have hlast : startH ≤ h ∧ h < prevH + 1 ↔ startH ≤ h ∧ h ≤ prevH := by omega
      rw [hone, hlast]

/-- A range of hours of a day. -/
def RangeOfDay (r : ℤ × ℤ) : Prop := 0 ≤ r.1 ∧ r.1 < r.2 ∧ r.2 ≤ 24

theorem rangeOfDay_contiguousFrom {startH prevH : ℤ} (hstart : 0 ≤ startH)
    (hle : startH ≤ prevH) (hprev : prevH < 24) {rest : List ℤ}
    (hrest : ∀ h ∈ rest, 0 ≤ h ∧ h < 24) :
    ∀ r ∈ contiguousFrom startH prevH rest, RangeOfDay r := by
  induction rest generalizing startH prevH with
  | nil =>
    intro r hr
    obtain rfl := List.mem_singleton.mp hr
    exact ⟨hstart, by omega, by omega⟩
  | cons next rest ih =>
    obtain ⟨hnext, hrest'⟩ := List.forall_mem_cons.mp hrest
    simp only [contiguousFrom]
    split
    · exact ih hstart (by omega) hnext.2 hrest'
    · have hrange : RangeOfDay (startH, prevH + 1) := ⟨hstart, by omega, by omega⟩
      exact List.forall_mem_cons.mpr ⟨hrange, ih hnext.1 le_rfl hnext.2 hrest'⟩

/-- The ranges of a weekday denote its hours. -/
theorem covered_rangesOfDay {hours : Finset ℤ} {ranges : List (ℤ × ℤ)}
    (hranges : rangesOfDay hours = some ranges) (h : ℤ) :
    (∃ r ∈ ranges, r.1 ≤ h ∧ h < r.2) ↔ h ∈ hours := by
  unfold rangesOfDay at hranges
  rw [← Finset.mem_sort (· ≤ ·)]
  split at hranges
  · cases hranges
  · rename_i first rest hsort
    obtain rfl := Option.some.inj hranges
    have hone : first ≤ h ∧ h ≤ first ↔ h = first := by omega
    rw [covered_contiguousFrom le_rfl, hsort, List.mem_cons, hone]

theorem rangeOfDay_rangesOfDay {hours : Finset ℤ} (hday : ∀ h ∈ hours, 0 ≤ h ∧ h < 24)
    {ranges : List (ℤ × ℤ)} (hranges : rangesOfDay hours = some ranges) :
    ∀ r ∈ ranges, RangeOfDay r := by
  unfold rangesOfDay at hranges
  split at hranges
  · cases hranges
  · rename_i first rest hsort
    obtain rfl := Option.some.inj hranges
    have hall : ∀ h ∈ first :: rest, 0 ≤ h ∧ h < 24 := by
      intro h hh
      rw [← hsort, Finset.mem_sort] at hh
      exact hday h hh
    obtain ⟨hfirst, hrest⟩ := List.forall_mem_cons.mp hall
    exact rangeOfDay_contiguousFrom hfirst.1 le_rfl hfirst.2 hrest

theorem rangesOfDay_of_mem {hours : Finset ℤ} {h : ℤ} (hmem : h ∈ hours) :
    ∃ ranges, rangesOfDay hours = some ranges := by
  unfold rangesOfDay
  split
  · rename_i hsort
    rw [← Finset.mem_sort (· ≤ ·), hsort] at hmem
    cases hmem
  · exact ⟨_, rfl⟩

/-- The ranges of each weekday are those of its hours. -/
theorem mem_extractContiguousDayRanges {slots : Dict Weekday (Finset ℤ)} {weekday : Weekday}
    {ranges : List (ℤ × ℤ)} :
    (weekday, ranges) ∈ (extractContiguousDayRanges slots).entries ↔
      ∃ hours, slots.get? weekday = some hours ∧ rangesOfDay hours = some ranges := by
  -- the days are sorted and keep their keys, so the dictionary has the entries of the list
  have hentries : (extractContiguousDayRanges slots).entries =
      (slots.entries.insertionSort fun a b => weekdayValue a.1 ≤ weekdayValue b.1).filterMap
        fun e => (rangesOfDay e.2).map fun ranges => (e.1, ranges) := by
    apply Dict.entries_ofList
    have hperm := List.perm_insertionSort
      (fun a b : Weekday × Finset ℤ => weekdayValue a.1 ≤ weekdayValue b.1) slots.entries
    have hkeys : (slots.entries.insertionSort fun a b =>
        weekdayValue a.1 ≤ weekdayValue b.1).Pairwise fun a b => a.1 ≠ b.1 :=
      List.pairwise_map.mp ((hperm.map Prod.fst).nodup_iff.mpr slots.nodupKeys)
    rw [List.Nodup, List.pairwise_map]
    apply List.Pairwise.filterMap _ _ hkeys
    intro a b hne a' ha b' hb
    obtain ⟨ra, -, rfl⟩ := Option.map_eq_some_iff.mp ha
    obtain ⟨rb, -, rfl⟩ := Option.map_eq_some_iff.mp hb
    exact hne
  rw [hentries, List.mem_filterMap]
  constructor
  · rintro ⟨⟨day, hours⟩, hmem, heq⟩
    obtain ⟨rs, hrs, hpair⟩ := Option.map_eq_some_iff.mp heq
    obtain ⟨rfl, rfl⟩ := Prod.mk.inj hpair
    rw [(List.perm_insertionSort _ _).mem_iff] at hmem
    exact ⟨hours, (Dict.get?_eq_some_iff slots day hours).mpr hmem, hrs⟩
  · rintro ⟨hours, hget, hranges⟩
    refine ⟨(weekday, hours), ?_, Option.map_eq_some_iff.mpr ⟨ranges, hranges, rfl⟩⟩
    rw [(List.perm_insertionSort _ _).mem_iff]
    exact (Dict.get?_eq_some_iff slots weekday hours).mp hget

/-- The ranges of all weekdays denote the hours of all weekdays. -/
theorem covered_extractContiguousDayRanges (slots : Dict Weekday (Finset ℤ)) (weekday : Weekday)
    (h : ℤ) :
    (∃ e ∈ (extractContiguousDayRanges slots).entries, e.1 = weekday ∧
      ∃ r ∈ e.2, r.1 ≤ h ∧ h < r.2) ↔ h ∈ slots.getD weekday ∅ := by
  constructor
  · rintro ⟨⟨day, ranges⟩, he, rfl, hcover⟩
    obtain ⟨hours, hget, hranges⟩ := mem_extractContiguousDayRanges.mp he
    rw [Dict.getD, hget]
    exact (covered_rangesOfDay hranges h).mp hcover
  · intro hmem
    cases hget : slots.get? weekday with
    | none => simp [Dict.getD, hget] at hmem
    | some hours =>
      rw [Dict.getD, hget] at hmem
      obtain ⟨ranges, hranges⟩ := rangesOfDay_of_mem hmem
      exact ⟨(weekday, ranges), mem_extractContiguousDayRanges.mpr ⟨hours, hget, hranges⟩, rfl,
        (covered_rangesOfDay hranges h).mpr hmem⟩

/-! ## §6 Windows denote the ranges -/

/-- The window of a range of hours on some weekdays. -/
structure Denotes (range : ℤ × ℤ) (days : List Weekday) (window : TradingWindow) : Prop where
  days_iff : ∀ d, d ∈ window.days ↔ d ∈ days
  startTime_eq : window.startTime = range.1 * microsecondsPerHour
  endTime_eq : window.endTime =
    if range.2 = 24 then lastSecond else range.2 * microsecondsPerHour

/-- No window of a range of hours is rejected. -/
theorem windowOfRange_denotes {range : ℤ × ℤ} (hrange : RangeOfDay range) {days : List Weekday}
    (hdays : days ≠ []) :
    ∃ window, windowOfRange range days = some window ∧ Denotes range days window := by
  obtain ⟨hstart, hlt, hend⟩ := hrange
  have hsort : ∀ d, d ∈ (days.dedup.insertionSort fun a b => weekdayValue a ≤ weekdayValue b) ↔
      d ∈ days := by
    intro d
    rw [(List.perm_insertionSort _ _).mem_iff, List.mem_dedup]
  have hne : (days.dedup.insertionSort fun a b => weekdayValue a ≤ weekdayValue b) ≠ [] := by
    intro hnil
    obtain ⟨d, hd⟩ := List.exists_mem_of_ne_nil days hdays
    rw [← hsort, hnil] at hd
    cases hd
  -- hour 24 is the last second of the day, so both ends are times and they differ
  have hstartT : timeOfHour range.1 = some (range.1 * microsecondsPerHour) :=
    if_pos ⟨hstart, by omega⟩
  have hendT : endTimeOfHour range.2 =
      some (if range.2 = 24 then lastSecond else range.2 * microsecondsPerHour) := by
    unfold endTimeOfHour
    by_cases h24 : range.2 = 24
    · rw [if_pos h24.ge, if_pos h24]
    · rw [if_neg (by omega), if_neg h24]
      exact if_pos ⟨by omega, by omega⟩
  have htimes : range.1 * microsecondsPerHour ≠
      if range.2 = 24 then lastSecond else range.2 * microsecondsPerHour := by
    unfold lastSecond microsecondsPerHour
    split <;> omega
  refine ⟨⟨_, _, _, hne, htimes⟩, ?_, hsort, rfl, rfl⟩
  simp only [windowOfRange, hstartT, hendT, Option.bind_eq_bind, Option.bind_some,
    tradingWindow?, dif_neg hne, dif_neg htimes]

/-- A list of ranges with their weekdays is turned into windows one by one. -/
theorem windowsOfRanges_denotes {items : List ((ℤ × ℤ) × List Weekday)}
    (hitems : ∀ e ∈ items, RangeOfDay e.1 ∧ e.2 ≠ []) :
    ∃ windows, windowsOfRanges items = some windows ∧
      (∀ window ∈ windows, ∃ e ∈ items, Denotes e.1 e.2 window) ∧
      ∀ e ∈ items, ∃ window ∈ windows, Denotes e.1 e.2 window := by
  induction items with
  | nil => exact ⟨[], rfl, List.forall_mem_nil _, List.forall_mem_nil _⟩
  | cons e rest ih =>
    obtain ⟨⟨hrange, hdays⟩, hrest⟩ := List.forall_mem_cons.mp hitems
    obtain ⟨window, hwindow, hdenotes⟩ := windowOfRange_denotes hrange hdays
    obtain ⟨windows, hwindows, hfrom, hto⟩ := ih hrest
    refine ⟨window :: windows, ?_, ?_, ?_⟩
    · simp only [windowsOfRanges, hwindow, hwindows, Option.bind_eq_bind, Option.bind_some]
      rfl
    · intro w hw
      rcases List.mem_cons.mp hw with rfl | hw
      · exact ⟨e, List.mem_cons_self, hdenotes⟩
      · obtain ⟨e', he', h⟩ := hfrom w hw
        exact ⟨e', List.mem_cons_of_mem _ he', h⟩
    · intro e' he'
      rcases List.mem_cons.mp he' with rfl | he'
      · exact ⟨window, List.mem_cons_self, hdenotes⟩
      · obtain ⟨w, hw, h⟩ := hto e' he'
        exact ⟨w, List.mem_cons_of_mem _ hw, h⟩

theorem hour_bounds (dt : DateTime) : 0 ≤ dt.hour ∧ dt.hour < 24 := by
  unfold DateTime.hour DateTime.time DateTime.microsecondsPerDay
  omega

/-- Outside end-of-day bars a window is open at the hours of its range: only the last second of
    the day tells 23:59:59 from midnight. -/
theorem Denotes.plainlyContains_iff {range : ℤ × ℤ} (hrange : RangeOfDay range)
    {days : List Weekday} {window : TradingWindow} (h : Denotes range days window)
    {dt : DateTime} (hbar : isEndOfDayBar dt = false) :
    window.PlainlyContains dt ↔ dt.weekday ∈ days ∧ range.1 ≤ dt.hour ∧ dt.hour < range.2 := by
  obtain ⟨hstart, hlt, hend⟩ := hrange
  have hbar' : ¬ (dt.hour = 23 ∧ 50 ≤ dt.minute) := by
    intro hlast
    simp [isEndOfDayBar, hlast] at hbar
  have horder : window.startTime < window.endTime := by
    rw [h.startTime_eq, h.endTime_eq]
    unfold lastSecond microsecondsPerHour
    split <;> omega
  have hfrom : window.startTime ≤ dt.time ↔ range.1 ≤ dt.hour := by
    rw [h.startTime_eq]
    unfold DateTime.hour microsecondsPerHour
    omega
  have hto : dt.time < window.endTime ↔ dt.hour < range.2 := by
    rw [h.endTime_eq]
    unfold DateTime.hour DateTime.minute at hbar'
    unfold lastSecond microsecondsPerHour DateTime.hour
    have htime : 0 ≤ dt.time ∧ dt.time < 24 * 60 * 60 * 1000000 := by
      unfold DateTime.time DateTime.microsecondsPerDay
      omega
    split <;> omega
  rw [TradingWindow.plainlyContains_of_lt horder, h.days_iff, hfrom, hto]

/-- The windows of the ranges of the weekdays are open at the hours of the ranges. -/
theorem buildTradingWindowsFromRanges_spec {dayRanges : Dict Weekday (List (ℤ × ℤ))}
    (hranges : ∀ e ∈ dayRanges.entries, ∀ r ∈ e.2, RangeOfDay r) :
    ∃ windows, buildTradingWindowsFromRanges dayRanges = some windows ∧
      ∀ dt, isEndOfDayBar dt = false →
        ((∃ window ∈ windows, window.PlainlyContains dt) ↔
          ∃ e ∈ dayRanges.entries, e.1 = dt.weekday ∧
            ∃ r ∈ e.2, r.1 ≤ dt.hour ∧ dt.hour < r.2) := by
  set pairs := dayRanges.entries.flatMap fun e => e.2.map fun r => (r, e.1) with hpairs
  have hmem : ∀ r d, (r, d) ∈ pairs ↔ ∃ e ∈ dayRanges.entries, e.1 = d ∧ r ∈ e.2 := by
    intro r d
    simp only [hpairs, List.mem_flatMap, List.mem_map, Prod.mk.injEq]
    constructor
    · rintro ⟨e, he, r', hr', rfl, rfl⟩
      exact ⟨e, he, rfl, hr'⟩
    · rintro ⟨e, he, rfl, hr⟩
      exact ⟨e, he, r, hr, rfl, rfl⟩
  set items := (Dict.groupBy Prod.fst Prod.snd pairs).entries.insertionSort
    fun a b => rangeLe a.1 b.1 with hitems
  -- an item is a range with all the weekdays that have it
  have hitem : ∀ r days, (r, days) ∈ items ↔
      days ≠ [] ∧ days = Dict.valuesUnder Prod.fst Prod.snd r pairs := by
    intro r days
    rw [hitems, (List.perm_insertionSort _ _).mem_iff, Dict.mem_entries_groupBy]
  have hvalues : ∀ r d, d ∈ Dict.valuesUnder Prod.fst Prod.snd r pairs ↔ (r, d) ∈ pairs := by
    intro r d
    rw [Dict.mem_valuesUnder]
    constructor
    · rintro ⟨⟨r', d'⟩, hp, rfl, rfl⟩
      exact hp
    · intro hp
      exact ⟨(r, d), hp, rfl, rfl⟩
  -- so each item is a range of a day with at least one weekday
  have hgood : ∀ e ∈ items, RangeOfDay e.1 ∧ e.2 ≠ [] := by
    rintro ⟨r, days⟩ he
    obtain ⟨hne, rfl⟩ := (hitem r days).mp he
    obtain ⟨d, hd⟩ := List.exists_mem_of_ne_nil _ hne
    obtain ⟨e, he', -, hr⟩ := (hmem r d).mp ((hvalues r d).mp hd)
    exact ⟨hranges e he' r hr, hne⟩
  obtain ⟨windows, hwindows, hfrom, hto⟩ := windowsOfRanges_denotes hgood
  refine ⟨windows, hwindows, ?_⟩
  intro dt hbar
  constructor
  · -- an open window comes from an item with the weekday of the clock
    rintro ⟨window, hw, hopen⟩
    obtain ⟨⟨r, days⟩, he, hdenotes⟩ := hfrom window hw
    obtain ⟨hday, hcover⟩ := (hdenotes.plainlyContains_iff (hgood _ he).1 hbar).mp hopen
    obtain ⟨-, rfl⟩ := (hitem r days).mp he
    obtain ⟨e, he', hd, hr⟩ := (hmem r dt.weekday).mp ((hvalues r dt.weekday).mp hday)
    exact ⟨e, he', hd, r, hr, hcover⟩
  · -- a range of the weekday is in an item, which has a window
    rintro ⟨e, he, hd, r, hr, hcover⟩
    have hday := (hvalues r dt.weekday).mpr ((hmem r dt.weekday).mpr ⟨e, he, hd, hr⟩)
    have hin : (r, Dict.valuesUnder Prod.fst Prod.snd r pairs) ∈ items :=
      (hitem r _).mpr ⟨List.ne_nil_of_mem hday, rfl⟩
    obtain ⟨window, hw, hdenotes⟩ := hto _ hin
    exact ⟨window, hw, (hdenotes.plainlyContains_iff (hgood _ hin).1 hbar).mpr ⟨hday, hcover⟩⟩

/-! ## §7 The round trip -/

section RoundTrip

variable (zones : ZoneInfo) (trades : List Trade) (timezone : String) (minTrades : ℤ)
  (minWinRate : ℚ)

theorem mem_profitableSlots {weekday : Weekday} {hour : ℤ} :
    hour ∈ (profitableSlots zones trades timezone minTrades minWinRate).getD weekday ∅ ↔
      ProfitableSlot zones trades timezone minTrades minWinRate (weekday, hour) := by
  rw [profitableSlots, mem_addHours, profitableSlot_iff]
  simp [Dict.getD]

/-- The hours come from a clock. -/
theorem profitableSlot_hour {slot : Slot}
    (h : ProfitableSlot zones trades timezone minTrades minWinRate slot) :
    0 ≤ slot.2 ∧ slot.2 < 24 := by
  obtain ⟨p, hp, rfl⟩ := (profitableSlot_iff zones trades timezone).mp h
  obtain ⟨slot, hne, rfl⟩ := (mem_profiles zones trades timezone).mp (List.mem_filter.mp hp).1
  obtain ⟨trade, htrade⟩ := List.exists_mem_of_ne_nil _ hne
  have hslot : entrySlot zones timezone trade = slot := by
    simpa using (List.mem_filter.mp htrade).2
  rw [← hslot]
  exact hour_bounds _

/-- No window is rejected, and outside end-of-day bars they are open at the profitable slots. -/
theorem optimizeTradingWindows_spec :
    ∃ windows, optimizeTradingWindows zones trades timezone minTrades minWinRate = some windows ∧
      ∀ dt, isEndOfDayBar dt = false →
        ((∃ window ∈ windows, window.PlainlyContains dt) ↔
          ProfitableSlot zones trades timezone minTrades minWinRate (slotOf dt)) := by
  simp only [optimizeTradingWindows]
  split
  · -- without a profitable slot there are no windows
    rename_i hnil
    refine ⟨[], rfl, ?_⟩
    intro dt _
    have hempty : profitableSlots zones trades timezone minTrades minWinRate = Dict.empty :=
      Dict.ext_entries hnil
    rw [slotOf, ← mem_profitableSlots, hempty]
    simp [Dict.getD]
  · have hranges : ∀ e ∈ (extractContiguousDayRanges
        (profitableSlots zones trades timezone minTrades minWinRate)).entries,
        ∀ r ∈ e.2, RangeOfDay r := by
      rintro ⟨weekday, ranges⟩ he
      obtain ⟨hours, hget, hranges⟩ := mem_extractContiguousDayRanges.mp he
      apply rangeOfDay_rangesOfDay _ hranges
      intro h hh
      have hslot : ProfitableSlot zones trades timezone minTrades minWinRate (weekday, h) := by
        rw [← mem_profitableSlots, Dict.getD, hget]
        exact hh
      exact profitableSlot_hour zones trades timezone minTrades minWinRate hslot
    obtain ⟨windows, hwindows, hopen⟩ := buildTradingWindowsFromRanges_spec hranges
    refine ⟨windows, hwindows, ?_⟩
    intro dt hbar
    rw [hopen dt hbar, covered_extractContiguousDayRanges, mem_profitableSlots]
    rfl

/-- **The proposed windows denote exactly the profitable slots**: at every instant that is no
    end-of-day bar, on the clock of UTC or on the local one, the schedule of the windows is
    active when the local slot is profitable, and only then. -/
theorem optimizeTradingWindows_active_iff (timestamp : ℚ)
    (hutc : isEndOfDayBar (fromTimestamp timestamp) = false)
    (hlocal : isEndOfDayBar (localClock zones timezone (fromTimestamp timestamp)) = false) :
    ∃ windows, optimizeTradingWindows zones trades timezone minTrades minWinRate = some windows ∧
      (isScheduleActive zones ⟨timezone, windows⟩ timestamp = true ↔
        ProfitableSlot zones trades timezone minTrades minWinRate
          (slotOf (localClock zones timezone (fromTimestamp timestamp)))) := by
  obtain ⟨windows, hwindows, hopen⟩ :=
    optimizeTradingWindows_spec zones trades timezone minTrades minWinRate
  refine ⟨windows, hwindows, ?_⟩
  have hbar : StrategySchedule.barClockAt zones ⟨timezone, windows⟩ timestamp = none := by
    simp [StrategySchedule.barClockAt, StrategySchedule.localDt, barClock, hutc, hlocal]
  rw [isScheduleActive_of_none zones _ timestamp hbar]
  exact hopen _ hlocal

end RoundTrip

/-- A winning trade entered on Monday 2026-10-12 at the given hour of UTC. -/
def winningTrade (hour : ℚ) : Trade :=
  Session.Trade.create
    { orderUuid := "entry", tickerSymbol := "BTC_USD", price := 100, quantity := 1,
      remainingQuantity := 1, feePerUnit := 0, timestamp := 1791763200 + hour * 3600,
      slippagePerUnit := 0, winningStrategy := none, strategyVotes := none,
      strategyAttributions := none, regime := none }
    { tickerSymbol := "BTC_USD", orderUuid := "exit", price := 110, quantity := 1, fee := 0,
      timestamp := 1791763200 + hour * 3600, commitHash := none, winningStrategy := none,
      strategyVotes := none, strategyAttributions := none, slippage := 0, regime := none } 1

/-- Trades of the last two hours of Monday, seen half past ten in the evening. -/
theorem optimizeTradingWindows_monday_evening :
    ∃ windows, optimizeTradingWindows (fun _ _ => 0) [winningTrade 22, winningTrade 23] "UTC" 1 50 =
        some windows ∧
      (isScheduleActive (fun _ _ => 0) ⟨"UTC", windows⟩ 1791844200 = true ↔
        ProfitableSlot (fun _ _ => 0) [winningTrade 22, winningTrade 23] "UTC" 1 50
          (slotOf (localClock (fun _ _ => 0) "UTC" (fromTimestamp 1791844200)))) :=
  optimizeTradingWindows_active_iff (fun _ _ => 0) [winningTrade 22, winningTrade 23] "UTC" 1 50
    1791844200 (by decide +kernel) (by decide +kernel)

end CryptoTrading.Analytics
