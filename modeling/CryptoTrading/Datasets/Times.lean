import CryptoTrading.Retention.Durations
import CryptoTrading.Vcs.CommitPreimage
import Mathlib.Data.Int.ConditionallyCompleteOrder
import Mathlib.Data.Rat.Floor

/-!
# Times of data rows

The parts of `datetime` that dataset uploads compute with: the days of the calendar
(`_ymd2ord`, `_ord2ymd`), a time with its zone taken to UTC, `isoformat` of a time in UTC and
its seconds from 1970.

Seconds are exact rationals where Python has floats.  The text of a time is read back as the
seconds it stands for (`readIsoformat_isoText`).
-/

namespace CryptoTrading.Datasets

open CryptoTrading.Retention (Instant)
open CryptoTrading.Vcs.Hashing

/-! ## §1 The calendar -/

/-- `_days_before_year`. -/
def daysBeforeYear (year : ℕ) : ℕ :=
  (year - 1) * 365 + (year - 1) / 4 - (year - 1) / 100 + (year - 1) / 400

/-- `_days_before_month`, in a year that is a leap year or is not. -/
def daysBeforeMonth (leap : Bool) (month : ℕ) : ℕ :=
  [0, 0, 31, 59, 90, 120, 151, 181, 212, 243, 273, 304, 334].getD month 0 +
    if 2 < month && leap then 1 else 0

/-- `_ymd2ord`: the number of a day, the first of the year 1 being day 1. -/
def ymdToOrd (year month day : ℕ) : ℕ :=
  daysBeforeYear year + daysBeforeMonth (isLeapYear year) month + day

/-- The month and the day from the days since the first of January. -/
def monthDay (leap : Bool) (n : ℕ) : ℕ × ℕ :=
  let month := (n + 50) / 32
  -- the estimate may be a month too far
  let month := if n < daysBeforeMonth leap month then month - 1 else month
  (month, n - daysBeforeMonth leap month + 1)

/-- `_ord2ymd`, from the days since the first of the year 1. -/
def ordToYmd (n : ℕ) : ℕ × ℕ × ℕ :=
  let n400 := n / 146097
  let n := n % 146097
  let n100 := n / 36524
  let n := n % 36524
  let n4 := n / 1461
  let n := n % 1461
  let n1 := n / 365
  let n := n % 365
  let year := n400 * 400 + 1 + n100 * 100 + n4 * 4 + n1
  if n1 = 4 ∨ n100 = 4 then (year - 1, 12, 31)
  else
    let leap := n1 = 3 ∧ (n4 ≠ 24 ∨ n100 = 3)
    (year, monthDay leap n)

/-- The days of a month, in a year that is a leap year or is not. -/
def monthLength (leap : Bool) (month : ℕ) : ℕ :=
  if month = 2 then if leap then 29 else 28 else if month ∈ [4, 6, 9, 11] then 30 else 31

theorem daysInMonth_eq (year month : ℕ) :
    daysInMonth year month = monthLength (isLeapYear year) month := rfl

/-- A day of the year falls into the month found for it. -/
theorem monthDay_spec : ∀ leap : Bool, ∀ n < 365 + leap.toNat,
    (1 ≤ (monthDay leap n).1 ∧ (monthDay leap n).1 ≤ 12) ∧
      (1 ≤ (monthDay leap n).2 ∧ (monthDay leap n).2 ≤ monthLength leap (monthDay leap n).1) ∧
      daysBeforeMonth leap (monthDay leap n).1 + (monthDay leap n).2 = n + 1 := by
  decide +kernel

/-- The last day of a leap year. -/
theorem ymdToOrd_lastDay {year : ℕ} (hleap : isLeapYear year = true) :
    ymdToOrd year 12 31 = daysBeforeYear year + 366 := by
  rw [ymdToOrd, hleap]
  rfl

/-- The days before a year, by its place in the cycles of 400, 100 and 4 years. -/
theorem daysBeforeYear_cycles {n400 n100 n4 n1 : ℕ} (h100 : n100 ≤ 3) (h4 : n4 ≤ 24)
    (h1 : n1 ≤ 3) : daysBeforeYear (n400 * 400 + 1 + n100 * 100 + n4 * 4 + n1) =
      146097 * n400 + 36524 * n100 + 1461 * n4 + 365 * n1 := by
  have hyear : n400 * 400 + 1 + n100 * 100 + n4 * 4 + n1 - 1 =
      n400 * 400 + n100 * 100 + n4 * 4 + n1 := by omega
  have hfours : (n400 * 400 + n100 * 100 + n4 * 4 + n1) / 4 = 100 * n400 + 25 * n100 + n4 := by
    omega
  have hcenturies : (n400 * 400 + n100 * 100 + n4 * 4 + n1) / 100 = 4 * n400 + n100 := by omega
  have hcycles : (n400 * 400 + n100 * 100 + n4 * 4 + n1) / 400 = n400 := by omega
  rw [daysBeforeYear, hyear, hfours, hcenturies, hcycles]
  omega

/-- A day is found in its year, month and place in the month. -/
theorem ordToYmd_spec {n : ℕ} (hn : n < 3652059) :
    (1 ≤ (ordToYmd n).1 ∧ (ordToYmd n).1 ≤ 9999) ∧
      (1 ≤ (ordToYmd n).2.1 ∧ (ordToYmd n).2.1 ≤ 12) ∧
      (1 ≤ (ordToYmd n).2.2 ∧
        (ordToYmd n).2.2 ≤ daysInMonth (ordToYmd n).1 (ordToYmd n).2.1) ∧
      ymdToOrd (ordToYmd n).1 (ordToYmd n).2.1 (ordToYmd n).2.2 = n + 1 := by
  obtain ⟨n400, hn400⟩ : ∃ q, n / 146097 = q := ⟨_, rfl⟩
  obtain ⟨n100, hn100⟩ : ∃ q, n % 146097 / 36524 = q := ⟨_, rfl⟩
  obtain ⟨n4, hn4⟩ : ∃ q, n % 146097 % 36524 / 1461 = q := ⟨_, rfl⟩
  obtain ⟨n1, hn1⟩ : ∃ q, n % 146097 % 36524 % 1461 / 365 = q := ⟨_, rfl⟩
  obtain ⟨day, hday⟩ : ∃ q, n % 146097 % 36524 % 1461 % 365 = q := ⟨_, rfl⟩
  have hsplit : n = 146097 * n400 + 36524 * n100 + 1461 * n4 + 365 * n1 + day := by omega
  simp only [ordToYmd, hn400, hn100, hn4, hn1, hday]
  by_cases hlast : n1 = 4 ∨ n100 = 4
  · -- the 366th day of a leap year, whose cycles are not over
    obtain ⟨m100, m4, hm100, hm4, hyear⟩ : ∃ m100 m4, m100 ≤ 3 ∧ m4 ≤ 24 ∧
        n400 * 400 + 1 + n100 * 100 + n4 * 4 + n1 - 1 =
          n400 * 400 + 1 + m100 * 100 + m4 * 4 + 3 := by
      rcases hlast with hlast | hlast
      · exact ⟨n100, n4, by omega, by omega, by omega⟩
      · exact ⟨3, 24, by omega, by omega, by omega⟩
    have hleap : isLeapYear (n400 * 400 + 1 + m100 * 100 + m4 * 4 + 3) = true := by
      simp only [isLeapYear, Bool.and_eq_true, Bool.or_eq_true, decide_eq_true_eq]
      omega
    simp only [hlast, if_true, hyear, ymdToOrd_lastDay hleap, daysInMonth_eq,
      daysBeforeYear_cycles hm100 hm4 le_rfl]
    refine ⟨by omega, by omega, ⟨by omega, by simp [monthLength]⟩, by omega⟩
  · obtain ⟨leap, hleap⟩ : ∃ leap, decide (n1 = 3 ∧ (n4 ≠ 24 ∨ n100 = 3)) = leap := ⟨_, rfl⟩
    have hyear : isLeapYear (n400 * 400 + 1 + n100 * 100 + n4 * 4 + n1) = leap := by
      rw [← hleap, Bool.eq_iff_iff]
      simp only [isLeapYear, Bool.and_eq_true, Bool.or_eq_true, decide_eq_true_eq]
      omega
    have hbound : day < 365 + leap.toNat := by omega
    obtain ⟨hmonth, hdayOfMonth, hsum⟩ := monthDay_spec leap day hbound
    simp only [hlast, if_false, hleap, daysInMonth_eq, hyear, ymdToOrd]
    refine ⟨by omega, hmonth, hdayOfMonth, ?_⟩
    rw [Nat.add_assoc, hsum, daysBeforeYear_cycles (by omega) (by omega) (by omega)]
    omega

/-! ## §2 Times in UTC -/

/-- The microseconds from `datetime.min`, by the clock of the zone. -/
def clockMicros (t : Timestamp) : ℕ :=
  (((ymdToOrd t.year t.month t.day - 1) * 86400 + t.hour * 3600 + t.minute * 60 + t.second) *
    1000000) + t.microsecond

/-- A count of microseconds from `datetime.min`, unless a `datetime` cannot hold it. -/
def instantOfMicros (micros : ℤ) : Option Instant :=
  if h : 0 ≤ micros ∧ micros.toNat < 3652059 * 86400 * 10 ^ 6 then some ⟨micros.toNat, h.2⟩
  else none

/-- `replace(tzinfo=timezone.utc)` of a time without a zone, `astimezone(timezone.utc)` of one
with a zone. -/
def toUtc (t : Timestamp) : Option Instant :=
  instantOfMicros (clockMicros t - t.utcoffset.getD 0)

/-- The microseconds from `datetime.min` to 1970. -/
def epochMicros : ℤ := 62135596800 * 1000000

/-- `datetime.fromtimestamp(seconds, tz=timezone.utc)`, from microseconds. -/
def fromTimestamp (micros : ℤ) : Option Instant := instantOfMicros (epochMicros + micros)

/-- `datetime.timestamp`. -/
def timestamp (t : Instant) : ℚ := ((t.micros : ℤ) - epochMicros) / 1000000

/-- `int` of a number that may have a fraction: towards zero. -/
def truncate (q : ℚ) : ℤ := if 0 ≤ q then ⌊q⌋ else ⌈q⌉

/-- `int(t.timestamp())`. -/
def epochSecond (t : Instant) : ℤ := truncate (timestamp t)

theorem truncate_intCast (n : ℤ) : truncate n = n := by
  simp [truncate]

theorem truncate_mono : Monotone truncate := by
  intro p q h
  unfold truncate
  split_ifs with hp hq hq
  · exact Int.floor_le_floor h
  · exact absurd (hp.trans h) hq
  · exact (Int.ceil_nonpos.mpr (le_of_not_ge hp)).trans (Int.floor_nonneg.mpr hq)
  · exact Int.ceil_le_ceil h

theorem timestamp_mono {t u : Instant} (h : t.micros ≤ u.micros) :
    timestamp t ≤ timestamp u := by
  unfold timestamp
  gcongr

theorem epochSecond_mono {t u : Instant} (h : t.micros ≤ u.micros) :
    epochSecond t ≤ epochSecond u := truncate_mono (timestamp_mono h)

/-- The seconds of a time on a whole second. -/
theorem epochSecond_of_micros {t : Instant} {n : ℤ} (h : t.micros = epochMicros + n * 1000000) :
    epochSecond t = n := by
  have htimestamp : timestamp t = n := by
    rw [timestamp, h, div_eq_iff (by norm_num)]
    push_cast
    ring
  rw [epochSecond, htimestamp, truncate_intCast]

/-- The second of a time is within what a `datetime` can hold. -/
theorem fromTimestamp_epochSecond (t : Instant) :
    ∃ second, fromTimestamp (epochSecond t * 1000000) = some second := by
  have hmicros : (t.micros : ℤ) < 3652059 * 86400 * 1000000 := by exact_mod_cast t.inRange
  have hlow : (-62135596800 : ℤ) ≤ epochSecond t := by
    rw [← truncate_intCast (-62135596800)]
    refine truncate_mono ?_
    rw [timestamp, le_div_iff₀ (by norm_num), epochMicros]
    push_cast
    have hnonneg : (0 : ℚ) ≤ t.micros := Nat.cast_nonneg _
    linarith
  have hhigh : epochSecond t ≤ 253402300799 := by
    have hq : (t.micros : ℚ) < 3652059 * 86400 * 1000000 := by exact_mod_cast hmicros
    have hlt : timestamp t < 253402300800 := by
      rw [timestamp, div_lt_iff₀ (by norm_num), epochMicros]
      push_cast
      linarith
    unfold epochSecond truncate
    split_ifs with hsign
    · exact Int.lt_add_one_iff.mp (Int.floor_lt.mpr (by exact_mod_cast hlt))
    · exact (Int.ceil_le.mpr (by push_cast; linarith)).trans (by norm_num : (0 : ℤ) ≤ _)
  refine ⟨⟨(epochMicros + epochSecond t * 1000000).toNat, ?_⟩, ?_⟩
  · rw [epochMicros]
    omega
  · rw [fromTimestamp, instantOfMicros, dif_pos]
    rw [epochMicros]
    omega

/-- The fields of a time in UTC. -/
def toDatetime (t : Instant) : Timestamp :=
  let day := ordToYmd (t.micros / 86400000000)
  let clock := t.micros % 86400000000
  have hday : t.micros / 86400000000 < 3652059 := by
    have hrange := t.inRange
    omega
  { year := day.1
    month := day.2.1
    day := day.2.2
    hour := clock / 3600000000
    minute := clock / 60000000 % 60
    second := clock / 1000000 % 60
    microsecond := clock % 1000000
    utcoffset := some 0
    year_mem := (ordToYmd_spec hday).1
    month_mem := (ordToYmd_spec hday).2.1
    day_mem := (ordToYmd_spec hday).2.2.1
    hour_lt := by omega
    minute_lt := by omega
    second_lt := by omega
    microsecond_lt := by omega
    utcoffset_lt := by simp }

/-- The fields of a time are those of its microseconds. -/
theorem clockMicros_toDatetime (t : Instant) : clockMicros (toDatetime t) = t.micros := by
  have hday : t.micros / 86400000000 < 3652059 := by
    have hrange := t.inRange
    omega
  have hord := (ordToYmd_spec hday).2.2.2
  simp only [clockMicros, toDatetime, hord]
  omega

theorem toUtc_toDatetime (t : Instant) : toUtc (toDatetime t) = some t := by
  have hoffset : (toDatetime t).utcoffset = some 0 := rfl
  have hrange := t.inRange
  rw [toUtc, clockMicros_toDatetime, hoffset, instantOfMicros, dif_pos (by simpa using hrange)]
  simp

/-- `isoformat` of a time in UTC. -/
def isoText (t : Instant) : List Char := isoformat (toDatetime t)

/-! ## §3 Reading the text of a time -/

theorem isDigit_of_mem_padded {width n : ℕ} {c : Char} (h : c ∈ padded width n) :
    c.isDigit = true := by
  induction width generalizing n with
  | zero => simp [padded] at h
  | succ width ih =>
    rcases List.mem_append.mp h with h | h
    · exact ih h
    · obtain rfl := List.mem_singleton.mp h
      simp [Nat.isDigit_digitChar, Nat.mod_lt]

theorem ofDigitChars_padded (width n : ℕ) :
    Nat.ofDigitChars 10 (padded width n) 0 = n % 10 ^ width := by
  induction width generalizing n with
  | zero => simp [padded, Nat.mod_one]
  | succ width ih =>
    rw [padded, Nat.ofDigitChars_append, ih,
      Nat.ofDigitChars_cons_digitChar_of_lt_ten (Nat.mod_lt _ (by decide)), Nat.ofDigitChars_nil,
      Nat.pow_succ, Nat.mul_comm (10 ^ width) 10, Nat.mod_mul]
    omega

/-- The number in `width` digits from a place on. -/
def numberAt (text : List Char) (start width : ℕ) : ℕ :=
  Nat.ofDigitChars 10 ((text.drop start).take width) 0

/-- The microseconds after the point, if there is one. -/
def fractionAt (text : List Char) (start : ℕ) : ℕ :=
  if (text.drop start).head? = some '.' then numberAt text (start + 1) 6 else 0

/-- The seconds from 1970 to the time of an ISO text in UTC. -/
def readIsoformat (text : List Char) : ℚ :=
  let day := ymdToOrd (numberAt text 0 4) (numberAt text 5 2) (numberAt text 8 2) - 1
  let second := day * 86400 + numberAt text 11 2 * 3600 + numberAt text 14 2 * 60 +
    numberAt text 17 2
  ((second * 1000000 + fractionAt text 19 : ℕ) - epochMicros) / 1000000

theorem numberAt_padded {width n : ℕ} (hn : n < 10 ^ width) (rest : List Char) :
    numberAt (padded width n ++ rest) 0 width = n := by
  have htake : (padded width n ++ rest).take width = padded width n :=
    List.take_left' (length_padded width n)
  rw [numberAt, List.drop_zero, htake, ofDigitChars_padded, Nat.mod_eq_of_lt hn]

theorem numberAt_append (front rest : List Char) (place width : ℕ) :
    numberAt (front ++ rest) (front.length + place) width = numberAt rest place width := by
  rw [numberAt, numberAt, List.drop_length_add_append]

/-- Past a number and the mark behind it. -/
theorem numberAt_skip {length n : ℕ} {mark : Char} (rest : List Char) (place width : ℕ) :
    numberAt (padded length n ++ mark :: rest) (length + 1 + place) width =
      numberAt rest place width := by
  have hlength : (padded length n ++ [mark]).length = length + 1 := by simp
  rw [← hlength, ← numberAt_append (padded length n ++ [mark]) rest, List.append_assoc,
    List.singleton_append]

/-- The fields of a text are read from their places. -/
theorem numberAt_isoformat (t : Timestamp) :
    (numberAt (isoformat t) 0 4 = t.year ∧ numberAt (isoformat t) 5 2 = t.month ∧
      numberAt (isoformat t) 8 2 = t.day) ∧
      (numberAt (isoformat t) 11 2 = t.hour ∧ numberAt (isoformat t) 14 2 = t.minute ∧
        numberAt (isoformat t) 17 2 = t.second) := by
  have hyear := t.year_mem
  have hmonth := t.month_mem
  have hday := t.day_mem.2.trans (daysInMonth_le _ _)
  have hhour := t.hour_lt
  have hminute := t.minute_lt
  have hsecond := t.second_lt
  refine ⟨⟨?_, ?_, ?_⟩, ?_, ?_, ?_⟩
  · exact numberAt_padded (by omega) _
  · exact (numberAt_skip _ 0 2).trans (numberAt_padded (by omega) _)
  · exact (numberAt_skip _ 3 2).trans
      ((numberAt_skip _ 0 2).trans (numberAt_padded (by omega) _))
  · exact (numberAt_skip _ 6 2).trans ((numberAt_skip _ 3 2).trans
      ((numberAt_skip _ 0 2).trans (numberAt_padded (by omega) _)))
  · exact (numberAt_skip _ 9 2).trans ((numberAt_skip _ 6 2).trans ((numberAt_skip _ 3 2).trans
      ((numberAt_skip _ 0 2).trans (numberAt_padded (by omega) _))))
  · exact (numberAt_skip _ 12 2).trans ((numberAt_skip _ 9 2).trans ((numberAt_skip _ 6 2).trans
      ((numberAt_skip _ 3 2).trans
        ((numberAt_skip _ 0 2).trans (numberAt_padded (by omega) _)))))

/-- The text of a time up to its seconds. -/
def clockText (t : Timestamp) : List Char :=
  padded 4 t.year ++ '-' :: padded 2 t.month ++ '-' :: padded 2 t.day ++ 'T' :: padded 2 t.hour ++
    ':' :: padded 2 t.minute ++ ':' :: padded 2 t.second

theorem isoformat_eq (t : Timestamp) :
    isoformat t = clockText t ++ (fractionText t.microsecond ++ offsetText t.utcoffset) := by
  simp only [isoformat, clockText, List.append_assoc, List.cons_append]

theorem length_clockText (t : Timestamp) : (clockText t).length = 19 := by
  simp [clockText]

theorem fractionAt_isoText (t : Instant) :
    fractionAt (isoText t) 19 = (toDatetime t).microsecond := by
  have hlength := length_clockText (toDatetime t)
  have htext : isoText t = clockText (toDatetime t) ++
      (fractionText (toDatetime t).microsecond ++ offsetText (some 0)) := isoformat_eq _
  have hdrop : (isoText t).drop 19 =
      fractionText (toDatetime t).microsecond ++ offsetText (some 0) := by
    rw [htext, ← hlength, List.drop_left]
  by_cases hzero : (toDatetime t).microsecond = 0
  · have hplus : ((isoText t).drop 19).head? ≠ some '.' := by
      rw [hdrop, hzero]
      decide
    rw [fractionAt, if_neg hplus, hzero]
  · have hpoint : ((isoText t).drop 19).head? = some '.' := by
      simp [hdrop, fractionText, hzero]
    have hmicros := (toDatetime t).microsecond_lt
    rw [fractionAt, if_pos hpoint, htext, ← hlength, numberAt_append, fractionText, if_neg hzero]
    exact (numberAt_append ['.'] _ 0 6).trans (numberAt_padded (by omega) _)

/-- The text of a time is read as its seconds. -/
theorem readIsoformat_isoText (t : Instant) : readIsoformat (isoText t) = timestamp t := by
  obtain ⟨⟨hyear, hmonth, hday⟩, hhour, hminute, hsecond⟩ := numberAt_isoformat (toDatetime t)
  have hfraction : fractionAt (isoformat (toDatetime t)) 19 = _ := fractionAt_isoText t
  have hclock := clockMicros_toDatetime t
  rw [clockMicros] at hclock
  simp only [readIsoformat, isoText, hyear, hmonth, hday, hhour, hminute, hsecond, hfraction,
    hclock, timestamp, Int.cast_natCast]

/-- What the text of a time is written with. -/
theorem mem_isoText {t : Instant} {c : Char} (h : c ∈ isoText t) :
    c.isDigit = true ∨ c ∈ ['-', '+', '.', ':', 'T'] := by
  have hoffset : offsetText (toDatetime t).utcoffset = ['+', '0', '0', ':', '0', '0'] := rfl
  have hfraction : ∀ c ∈ fractionText (toDatetime t).microsecond,
      c.isDigit = true ∨ c = '.' := by
    intro c hc
    unfold fractionText at hc
    split at hc
    · cases hc
    · rcases List.mem_cons.mp hc with rfl | hc
      · exact .inr rfl
      · exact .inl (isDigit_of_mem_padded hc)
  simp only [isoText, isoformat, hoffset, List.mem_append, List.mem_cons, List.not_mem_nil,
    or_false] at h
  rcases h with h | rfl | h | rfl | h | rfl | h | rfl | h | rfl | h | h | h
  all_goals first
    | exact .inl (isDigit_of_mem_padded h)
    | exact .inr (by decide)
    | skip
  · rcases hfraction c h with h | rfl
    · exact .inl h
    · exact .inr (by decide)
  · rcases h with rfl | rfl | rfl | rfl | rfl | rfl <;> decide

end CryptoTrading.Datasets
