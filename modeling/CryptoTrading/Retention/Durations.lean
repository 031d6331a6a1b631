import CryptoTrading.Expressions.Inspection
import CryptoTrading.Lib.Run
import CryptoTrading.Lib.Text

/-!
# Retention durations

Embeds `src/retention/durations.py`, with the parts of `datetime` that `RetentionPolicy.cutoff`
computes with.

A duration is written `90d`, `12h`, `30m` or `45s`; `KEEP` stands for indefinite retention.  A text
that was accepted once keeps what it was parsed to (`DurationText`), so that reading it again
cannot fail.  Times are whole microseconds from the first that a `datetime` can hold.
-/

namespace CryptoTrading.Retention

open CryptoTrading.Expressions (strip)
open CryptoTrading.Lib (upper)

/-- What a call of the retention code raises. -/
inductive RetentionError where
  /-- `ValueError`, with the message of the source. -/
  | valueError (message : String)
  /-- `ValueError` of `RetentionMode(value)`. -/
  | notAMode (value : String)
  /-- `ValueError` of `int`, for a text of more digits than it reads. -/
  | tooManyDigits
  | keyError (key : String)
  | overflowError
  /-- `RetentionConfirmationRequired`. -/
  | confirmationRequired (message : String)
  /-- Whatever the database raised while an audit event was stored. -/
  | auditNotStored
  deriving DecidableEq, Repr

/-! ## §1 Digits -/

/-- The zeros of the decimal digits, each followed by the other nine. -/
def digitZeros : List ℕ :=
  [0x30, 0x660, 0x6f0, 0x7c0, 0x966, 0x9e6, 0xa66, 0xae6, 0xb66, 0xbe6, 0xc66, 0xce6, 0xd66,
    0xde6, 0xe50, 0xed0, 0xf20, 0x1040, 0x1090, 0x17e0, 0x1810, 0x1946, 0x19d0, 0x1a80, 0x1a90,
    0x1b50, 0x1bb0, 0x1c40, 0x1c50, 0xa620, 0xa8d0, 0xa900, 0xa9d0, 0xa9f0, 0xaa50, 0xabf0,
    0xff10, 0x104a0, 0x10d30, 0x11066, 0x110f0, 0x11136, 0x111d0, 0x112f0, 0x11450, 0x114d0,
    0x11650, 0x116c0, 0x11730, 0x118e0, 0x11950, 0x11c50, 0x11d50, 0x11da0, 0x11f50, 0x16a60,
    0x16ac0, 0x16b50, 0x1d7ce, 0x1d7d8, 0x1d7e2, 0x1d7ec, 0x1d7f6, 0x1e140, 0x1e2f0, 0x1e4d0,
    0x1e950, 0x1fbf0]

/-- The value of a decimal digit (`\d`). -/
def digitValue? (c : Char) : Option ℕ :=
  (digitZeros.find? fun first => first ≤ c.toNat && c.toNat < first + 10).map fun first =>
    c.toNat - first

/-- `int(text)` of a text of decimal digits. -/
def intOfDigits (digits : List ℕ) : Except RetentionError ℕ :=
  if 4300 < digits.length then .error .tooManyDigits
  else .ok (digits.foldl (fun value digit => 10 * value + digit) 0)

/-! ## §2 Durations -/

/-- A `timedelta` of whole seconds that is not negative. -/
structure Timedelta where
  seconds : ℕ
  inRange : seconds < 86400 * 10 ^ 9
  deriving DecidableEq

/-- `timedelta(seconds=seconds)`. -/
def Timedelta.ofSeconds (seconds : ℕ) : Except RetentionError Timedelta :=
  if h : seconds < 86400 * 10 ^ 9 then .ok ⟨seconds, h⟩ else .error .overflowError

/-- `timedelta(0)`. -/
def Timedelta.zero : Timedelta := ⟨0, Nat.mul_pos (Nat.succ_pos _) (Nat.pow_pos (Nat.succ_pos _))⟩

def Timedelta.micros (d : Timedelta) : ℕ := d.seconds * 10 ^ 6

/-- `KEEP_TOKEN`. -/
def keepToken : String := "KEEP"

/-- `_UNIT_SECONDS`. -/
def unitSeconds : List (Char × ℕ) := [('d', 86400), ('h', 3600), ('m', 60), ('s', 1)]

/-- What `[dhms]` matches when the letter case is ignored: the long `s` too. -/
def isUnit (c : Char) : Bool := c.toLower ∈ unitSeconds.map Prod.fst || c.toNat = 0x17f

/-- `_DURATION_PATTERN.match(text)`: the values of the digits, and the unit. -/
def matchDuration (text : String) : Option (List ℕ × Char) :=
  match text.toList.reverse with
  | [] => none
  | unit :: digits =>
    if isUnit unit && !digits.isEmpty then
      (digits.reverse.mapM digitValue?).map fun values => (values, unit)
    else none

/-- `_UNIT_SECONDS[unit.lower()]`. -/
def secondsOfUnit (unit : Char) : Except RetentionError ℕ :=
  match unitSeconds.lookup unit.toLower with
  | some seconds => .ok seconds
  | none => .error (.keyError (String.singleton unit))

/-- `RetentionDuration.parse` of a text; `none` is indefinite retention. -/
def parseDuration (raw : String) : Except RetentionError (Option Timedelta) :=
  let text := strip raw
  if text = "" then .error (.valueError "Empty retention duration")
  else if upper text = keepToken then .ok none
  else
    match matchDuration text with
    | none =>
      .error (.valueError s!"Invalid retention duration '{text}'. Use <number><d|h|m|s> or KEEP.")
    | some (digits, unit) => do
      let value ← intOfDigits digits
      let seconds ← secondsOfUnit unit
      let delta ← Timedelta.ofSeconds (value * seconds)
      .ok (some delta)

theorem parseDuration_keep : parseDuration "KEEP" = .ok none := rfl

/-- A text that `RetentionDuration.parse` accepts, with its duration. -/
structure DurationText where
  text : String
  delta : Option Timedelta
  parses : parseDuration text = .ok delta

namespace DurationText

theorem ext_text {d e : DurationText} (h : d.text = e.text) : d = e := by
  obtain ⟨text, delta, hparses⟩ := d
  obtain ⟨text', delta', hparses'⟩ := e
  obtain rfl : text = text' := h
  obtain rfl : delta = delta' := Except.ok.inj (hparses.symm.trans hparses')
  rfl

instance : DecidableEq DurationText := fun d e =>
  if h : d.text = e.text then isTrue (ext_text h) else isFalse fun heq => h (heq ▸ rfl)

/-- Accept a text, or raise what its parsing raises. -/
def ofText (text : String) : Except RetentionError DurationText :=
  match h : parseDuration text with
  | .ok delta => .ok ⟨text, delta, h⟩
  | .error error => .error error

theorem ofText_eq_ok {text : String} {d : DurationText} : ofText text = .ok d ↔ d.text = text := by
  unfold ofText
  split
  case h_1 delta h =>
    constructor
    · intro hd
      rw [← Except.ok.inj hd]
    · intro hd
      rw [ext_text (d := ⟨text, delta, h⟩) (e := d) hd.symm]
  case h_2 error h =>
    constructor
    · intro hd
      cases hd
    · intro hd
      have hparses := d.parses
      rw [hd, h] at hparses
      cases hparses

@[simp] theorem ofText_text (d : DurationText) : ofText d.text = .ok d := ofText_eq_ok.mpr rfl

end DurationText

/-! ## §3 Times -/

/-- A `datetime` in UTC: the microseconds from `datetime.min`, up to `datetime.max`. -/
structure Instant where
  micros : ℕ
  inRange : micros < 3652059 * 86400 * 10 ^ 6
  deriving DecidableEq

theorem Instant.zero_inRange : 0 < 3652059 * 86400 * 10 ^ 6 := by decide

/-- `datetime.min`. -/
def Instant.min : Instant := ⟨0, zero_inRange⟩

/-- `time - delta`, which raises below `datetime.min`. -/
def Instant.sub (time : Instant) (delta : Timedelta) : Except RetentionError Instant :=
  if delta.micros ≤ time.micros then
    .ok ⟨time.micros - delta.micros, Nat.lt_of_le_of_lt (Nat.sub_le _ _) time.inRange⟩
  else .error .overflowError

theorem Instant.sub_eq_ok {time result : Instant} {delta : Timedelta} :
    time.sub delta = .ok result ↔ time.micros = result.micros + delta.micros := by
  unfold Instant.sub
  split
  case isTrue h =>
    constructor
    · intro hresult
      rw [← Except.ok.inj hresult]
      exact (Nat.sub_add_cancel h).symm
    · intro hresult
      obtain ⟨micros, hrange⟩ := result
      simp only at hresult
      congr 2
      omega
  case isFalse h =>
    constructor
    · intro hresult
      cases hresult
    · intro hresult
      omega

end CryptoTrading.Retention
