import Mathlib.Algebra.Field.Rat
import Mathlib.Algebra.Order.Ring.Rat
import Mathlib.Order.WithBot

/-!
# Decimal numbers

Decimal numbers as the General Decimal Arithmetic has them: a sign, a coefficient and an exponent
of ten, and besides the finite numbers two infinities and the values that are not a number.  They
are read from numerals (`ofNumeral`) and written in scientific notation (`toText`), and a number
that is written is read back as it was (`ofNumeral_toText`).

Numbers are compared by value, the infinities below and above the rationals.  A comparison with
what is not a number raises (`less`).
-/

namespace CryptoTrading.Lib

/-! ## §1 Numbers -/

/-- The least exponent. -/
def minExponent : ℤ := -1999999999999999997

/-- The largest exponent of a leading digit. -/
def maxAdjusted : ℤ := 999999999999999999

/-- The exponent of the leading digit. -/
def adjustedExponent (coefficient : ℕ) (exponent : ℤ) : ℤ :=
  exponent + (Nat.toDigits 10 coefficient).length - 1

/-- A finite number, within the limits of the arithmetic. -/
structure FiniteDecimal where
  negative : Bool
  coefficient : ℕ
  exponent : ℤ
  inRange : minExponent ≤ exponent ∧ adjustedExponent coefficient exponent ≤ maxAdjusted
  deriving DecidableEq

inductive Decimal where
  | finite (number : FiniteDecimal)
  | infinite (negative : Bool)
  | nan (negative signaling : Bool) (payload : ℕ)
  deriving DecidableEq

def FiniteDecimal.toRat (d : FiniteDecimal) : ℚ :=
  (if d.negative then -1 else 1) * d.coefficient * 10 ^ d.exponent

namespace Decimal

/-- The value of a number, with the infinities at the ends; none of what is not a number. -/
def value : Decimal → Option (WithBot (WithTop ℚ))
  | finite d => some ((d.toRat : WithTop ℚ) : WithBot (WithTop ℚ))
  | infinite true => some ⊥
  | infinite false => some ((⊤ : WithTop ℚ) : WithBot (WithTop ℚ))
  | nan _ _ _ => none

def IsNan (d : Decimal) : Prop := d.value = none

instance (d : Decimal) : Decidable d.IsNan := inferInstanceAs (Decidable (_ = _))

/-- A finite number, by its value. -/
def IsFinite (d : Decimal) : Prop := ∃ q : ℚ, d.value = some ((q : WithTop ℚ) : WithBot _)

/-- Two numbers of one value. -/
def Same (d e : Decimal) : Prop := ∃ x, d.value = some x ∧ e.value = some x

/-- The order of the values. -/
instance : LE Decimal := ⟨fun d e => ∃ x y, d.value = some x ∧ e.value = some y ∧ x ≤ y⟩

theorem le_iff {d e : Decimal} :
    d ≤ e ↔ ∃ x y, d.value = some x ∧ e.value = some y ∧ x ≤ y := Iff.rfl

theorem le_of_toRat_le {d e : FiniteDecimal} (h : d.toRat ≤ e.toRat) : finite d ≤ finite e :=
  ⟨_, _, rfl, rfl, WithBot.coe_le_coe.mpr (WithTop.coe_le_coe.mpr h)⟩

theorem isFinite_finite (d : FiniteDecimal) : (finite d).IsFinite := ⟨d.toRat, rfl⟩

theorem isFinite_iff (d : Decimal) : d.IsFinite ↔ ∃ number, d = finite number := by
  constructor
  · rintro ⟨q, hq⟩
    match d, hq with
    | finite number, _ => exact ⟨number, rfl⟩
    | infinite false, hq =>
      have htop : (⊤ : WithTop ℚ) = q := WithBot.coe_injective (Option.some.inj hq)
      exact absurd htop.symm WithTop.coe_ne_top
    | infinite true, hq => exact absurd (Option.some.inj hq).symm WithBot.coe_ne_bot
  · rintro ⟨number, rfl⟩
    exact isFinite_finite number

theorem Same.le_congr {d d' e e' : Decimal} (hd : d.Same d') (he : e.Same e') :
    d ≤ e ↔ d' ≤ e' := by
  obtain ⟨x, hd, hd'⟩ := hd
  obtain ⟨y, he, he'⟩ := he
  simp only [le_iff, hd, hd', he, he']

theorem Same.isFinite {d e : Decimal} (h : d.Same e) (hd : d.IsFinite) : e.IsFinite := by
  obtain ⟨x, hx, hex⟩ := h
  obtain ⟨q, hq⟩ := hd
  exact ⟨q, hex.trans (hx.symm.trans hq)⟩

theorem Same.symm {d e : Decimal} (h : d.Same e) : e.Same d := by
  obtain ⟨x, hd, he⟩ := h
  exact ⟨x, he, hd⟩

/-! ## §2 Comparisons that raise -/

/-- `d < e`, which raises when one of them is not a number. -/
def less {E : Type} (nanCompared : E) (d e : Decimal) : Except E Bool :=
  match d.value, e.value with
  | some x, some y => .ok (decide (x < y))
  | _, _ => .error nanCompared

section Less

variable {E : Type} {nanCompared : E} {d e : Decimal}

theorem less_eq_ok_false : less nanCompared d e = .ok false ↔ e ≤ d := by
  rw [le_iff]
  unfold less
  cases d.value <;> cases e.value <;> simp

theorem less_eq_error {error : E} :
    less nanCompared d e = .error error ↔ (d.IsNan ∨ e.IsNan) ∧ error = nanCompared := by
  unfold less IsNan
  cases d.value <;> cases e.value <;> simp [eq_comm]

end Less

/-! ## §3 Numerals -/

/-- A text of decimal digits, with at least one. -/
def readDigits (text : List Char) : Option ℕ :=
  if text ≠ [] ∧ text.all Char.isDigit then some (Nat.ofDigitChars 10 text 0) else none

/-- Decimal digits with a sign, which may be left out. -/
def readInteger : List Char → Option ℤ
  | '+' :: digits => (readDigits digits).map Int.ofNat
  | '-' :: digits => (readDigits digits).map fun n => -Int.ofNat n
  | digits => (readDigits digits).map Int.ofNat

/-- The exponent at the end of a numeral, which may be left out. -/
def readExponent : List Char → Option ℤ
  | [] => some 0
  | mark :: rest => if mark.toLower = 'e' then readInteger rest else none

/-- The digits after a point, if there is one, and what follows them. -/
def splitFraction : List Char → List Char × List Char
  | '.' :: rest => (rest.takeWhile Char.isDigit, rest.dropWhile Char.isDigit)
  | rest => ([], rest)

/-- A numeral without a sign that is made of digits. -/
def readFinite (negative : Bool) (text : List Char) : Option Decimal := do
  let integer := text.takeWhile Char.isDigit
  let (fraction, rest) := splitFraction (text.dropWhile Char.isDigit)
  let coefficient ← readDigits (integer ++ fraction)
  let exponent ← readExponent rest
  let exponent := exponent - fraction.length
  if h : minExponent ≤ exponent ∧ adjustedExponent coefficient exponent ≤ maxAdjusted then
    some (finite ⟨negative, coefficient, exponent, h⟩)
  else none

/-- What is not a number, with its digits if there are any. -/
def readNan (negative signaling : Bool) (payload : List Char) : Option Decimal :=
  if payload.all Char.isDigit then
    some (nan negative signaling (Nat.ofDigitChars 10 payload 0))
  else none

/-- The words, in small letters. -/
def readWord (negative : Bool) (word : List Char) : Option Decimal :=
  if word = ['i', 'n', 'f'] ∨ word = ['i', 'n', 'f', 'i', 'n', 'i', 't', 'y'] then
    some (infinite negative)
  else if word.take 3 = ['n', 'a', 'n'] then readNan negative false (word.drop 3)
  else if word.take 4 = ['s', 'n', 'a', 'n'] then readNan negative true (word.drop 4)
  else none

def readUnsigned (negative : Bool) (text : List Char) : Option Decimal :=
  match text.head? with
  | none => none
  | some c =>
    if c.toLower ∈ ['i', 'n', 's'] then readWord negative (text.map Char.toLower)
    else readFinite negative text

/-- The number that a numeral stands for. -/
def ofNumeral : List Char → Option Decimal
  | '+' :: text => readUnsigned false text
  | '-' :: text => readUnsigned true text
  | text => readUnsigned false text

/-! ## §4 Scientific notation -/

/-- Digits with a point after as many of them as `place` says. -/
def placePoint (digits : List Char) (place : ℤ) : List Char :=
  if place ≤ 0 then '0' :: '.' :: (List.replicate (-place).toNat '0' ++ digits)
  else if digits.length ≤ place.toNat then
    digits ++ List.replicate (place.toNat - digits.length) '0'
  else digits.take place.toNat ++ '.' :: digits.drop place.toNat

/-- An exponent with its sign, which is left out when it is zero. -/
def exponentText (exponent : ℤ) : List Char :=
  if exponent = 0 then []
  else 'E' :: (if exponent < 0 then '-' else '+') :: Nat.toDigits 10 exponent.natAbs

/-- Where the point stands: small numbers without an exponent are written without one. -/
def pointPlace (d : FiniteDecimal) : ℤ :=
  let left := d.exponent + (Nat.toDigits 10 d.coefficient).length
  if d.exponent ≤ 0 ∧ -6 < left then left else 1

def unsignedText (d : FiniteDecimal) : List Char :=
  let digits := Nat.toDigits 10 d.coefficient
  placePoint digits (pointPlace d) ++
    exponentText (d.exponent + digits.length - pointPlace d)

def signText (negative : Bool) : List Char := if negative then ['-'] else []

/-- A number in scientific notation. -/
def toText : Decimal → List Char
  | finite d => signText d.negative ++ unsignedText d
  | infinite negative => signText negative ++ ['I', 'n', 'f', 'i', 'n', 'i', 't', 'y']
  | nan negative signaling payload =>
    signText negative ++ (if signaling then ['s'] else []) ++ ['N', 'a', 'N'] ++
      (if payload = 0 then [] else Nat.toDigits 10 payload)

example : ofNumeral ['-', '1', '.', '5', '0'] = some (finite ⟨true, 150, -2, by decide⟩) := by
  decide

/-! ## §5 Reading what was written -/

section RoundTrip

/-- Digits, up to what does not start with one. -/
theorem takeWhile_digits {digits rest : List Char} (hdigits : ∀ c ∈ digits, c.isDigit = true)
    (hrest : ∀ c ∈ rest.head?, c.isDigit = false) :
    (digits ++ rest).takeWhile Char.isDigit = digits ∧
      (digits ++ rest).dropWhile Char.isDigit = rest := by
  rw [List.takeWhile_append_of_pos hdigits, List.dropWhile_append_of_pos hdigits]
  cases rest with
  | nil => simp
  | cons c rest =>
    have hc := hrest c rfl
    simp [hc]

theorem readDigits_of_digits {digits : List Char} (hne : digits ≠ [])
    (hdigits : ∀ c ∈ digits, c.isDigit = true) :
    readDigits digits = some (Nat.ofDigitChars 10 digits 0) := by
  rw [readDigits, if_pos ⟨hne, List.all_eq_true.mpr hdigits⟩]

theorem isDigit_of_mem_toDigits {n : ℕ} {c : Char} (h : c ∈ Nat.toDigits 10 n) :
    c.isDigit = true :=
  Nat.isDigit_of_mem_toDigits (by decide) (by decide) h

theorem readDigits_toDigits (n : ℕ) : readDigits (Nat.toDigits 10 n) = some n := by
  rw [readDigits_of_digits Nat.toDigits_ne_nil fun _ => isDigit_of_mem_toDigits,
    Nat.ofDigitChars_ten_toDigits]

theorem readExponent_exponentText (exponent : ℤ) :
    readExponent (exponentText exponent) = some exponent := by
  by_cases hzero : exponent = 0
  · simp [exponentText, readExponent, hzero]
  · have hmark : 'E'.toLower = 'e' := by decide
    by_cases hneg : exponent < 0
    · simp only [exponentText, hzero, hneg, if_true, if_false, readExponent, hmark, readInteger,
        readDigits_toDigits, Option.map_some, Option.some.injEq, Int.ofNat_eq_natCast]
      omega
    · simp only [exponentText, hzero, hneg, if_true, if_false, readExponent, hmark, readInteger,
        readDigits_toDigits, Option.map_some, Option.some.injEq, Int.ofNat_eq_natCast]
      omega

theorem head?_exponentText (exponent : ℤ) :
    ∀ c ∈ (exponentText exponent).head?, c.isDigit = false ∧ c ≠ '.' := by
  intro c hc
  by_cases hzero : exponent = 0
  · simp [exponentText, hzero] at hc
  · simp only [exponentText, hzero, if_false, List.head?_cons, Option.mem_some_iff] at hc
    subst hc
    decide

/-- The digits behind a point, which is left out when there are none. -/
def pointed (fraction : List Char) : List Char :=
  if fraction = [] then [] else '.' :: fraction

theorem splitFraction_pointed {fraction rest : List Char}
    (hfraction : ∀ c ∈ fraction, c.isDigit = true)
    (hrest : ∀ c ∈ rest.head?, c.isDigit = false ∧ c ≠ '.') :
    splitFraction (pointed fraction ++ rest) = (fraction, rest) := by
  by_cases hnil : fraction = []
  · subst hnil
    cases rest with
    | nil => rfl
    | cons c rest =>
      have hpoint := (hrest c rfl).2
      simp only [pointed, if_true, List.nil_append]
      unfold splitFraction
      split
      case h_1 heq => exact absurd (List.cons.inj heq).1 hpoint
      case h_2 => rfl
  · have hspan := takeWhile_digits hfraction fun c hc => (hrest c hc).1
    simp only [pointed, hnil, if_false, List.cons_append, splitFraction, hspan.1, hspan.2]

theorem head?_pointed (fraction : List Char) {rest : List Char}
    (hrest : ∀ c ∈ rest.head?, c.isDigit = false ∧ c ≠ '.') :
    ∀ c ∈ (pointed fraction ++ rest).head?, c.isDigit = false := by
  by_cases hnil : fraction = []
  · subst hnil
    simp only [pointed, if_true, List.nil_append]
    exact fun c hc => (hrest c hc).1
  · simp [pointed, hnil]

/-- A numeral of digits, a fraction and an exponent is read part by part. -/
theorem readFinite_parts (d : FiniteDecimal) {integer fraction : List Char} {exponent : ℤ}
    (hne : integer ≠ []) (hinteger : ∀ c ∈ integer, c.isDigit = true)
    (hfraction : ∀ c ∈ fraction, c.isDigit = true)
    (hcoefficient : Nat.ofDigitChars 10 (integer ++ fraction) 0 = d.coefficient)
    (hexponent : exponent - fraction.length = d.exponent) :
    readFinite d.negative (integer ++ (pointed fraction ++ exponentText exponent)) =
      some (finite d) := by
  have hrest := head?_exponentText exponent
  have hspan := takeWhile_digits hinteger (head?_pointed fraction hrest)
  have hdigits : readDigits (integer ++ fraction) = some d.coefficient := by
    rw [readDigits_of_digits (by simp [hne]) fun c hc =>
      (List.mem_append.mp hc).elim (hinteger c) (hfraction c), hcoefficient]
  have hrange := d.inRange
  unfold readFinite
  simp only [hspan.1, hspan.2, splitFraction_pointed hfraction hrest, hdigits,
    readExponent_exponentText, hexponent, Option.bind_eq_bind, Option.bind_some, hrange, and_self,
    dif_pos]

/-- Digits with a point placed among them or before them. -/
theorem placePoint_parts {digits : List Char} (hdigits : ∀ c ∈ digits, c.isDigit = true)
    (hne : digits ≠ []) {place : ℤ} (hplace : place ≤ digits.length) :
    ∃ integer fraction, placePoint digits place = integer ++ pointed fraction ∧ integer ≠ [] ∧
      (∀ c ∈ integer, c.isDigit = true) ∧ (∀ c ∈ fraction, c.isDigit = true) ∧
      Nat.ofDigitChars 10 (integer ++ fraction) 0 = Nat.ofDigitChars 10 digits 0 ∧
      (fraction.length : ℤ) = digits.length - place := by
  by_cases hfront : place ≤ 0
  · -- zeros stand between the point and the digits
    refine ⟨['0'], List.replicate (-place).toNat '0' ++ digits, ?_, by simp, by simp, ?_, ?_, ?_⟩
    · simp [placePoint, hfront, pointed, hne]
    · intro c hc
      rcases List.mem_append.mp hc with hzero | hc
      · rw [(List.mem_replicate.mp hzero).2]
        decide
      · exact hdigits c hc
    · have hzeros : ['0'] ++ (List.replicate (-place).toNat '0' ++ digits) =
          List.replicate ((-place).toNat + 1) '0' ++ digits := rfl
      rw [hzeros, Nat.ofDigitChars_append, Nat.ofDigitChars_replicate_zero, Nat.mul_zero]
    · simp only [List.length_append, List.length_replicate, Nat.cast_add]
      omega
  · by_cases hend : digits.length ≤ place.toNat
    · have hlength : place.toNat - digits.length = 0 := by omega
      refine ⟨digits, [], ?_, hne, hdigits, by simp, by simp, ?_⟩
      · simp [placePoint, hfront, hend, hlength, pointed]
      · simp only [List.length_nil, Nat.cast_zero]
        omega
    · have hdrop : digits.drop place.toNat ≠ [] := by
        simp only [ne_eq, List.drop_eq_nil_iff]
        omega
      refine ⟨digits.take place.toNat, digits.drop place.toNat, ?_, ?_,
        fun c hc => hdigits c (List.mem_of_mem_take hc),
        fun c hc => hdigits c (List.mem_of_mem_drop hc), ?_, ?_⟩
      · simp [placePoint, hfront, hend, pointed, hdrop]
      · simp only [ne_eq, List.take_eq_nil_iff, hne, or_false]
        omega
      · rw [List.take_append_drop]
      · simp only [List.length_drop]
        omega

theorem pointPlace_le (d : FiniteDecimal) :
    pointPlace d ≤ (Nat.toDigits 10 d.coefficient).length := by
  have hpos := Nat.length_toDigits_pos (b := 10) (n := d.coefficient)
  simp only [pointPlace]
  split <;> omega

/-- A number without its sign starts with a digit and is read as it was. -/
theorem unsignedText_spec (d : FiniteDecimal) :
    (∃ c rest, unsignedText d = c :: rest ∧ c.isDigit = true) ∧
      readFinite d.negative (unsignedText d) = some (finite d) := by
  obtain ⟨integer, fraction, htext, hne, hinteger, hfraction, hvalue, hlength⟩ :=
    placePoint_parts (fun _ => isDigit_of_mem_toDigits) Nat.toDigits_ne_nil (pointPlace_le d)
  rw [Nat.ofDigitChars_ten_toDigits] at hvalue
  simp only [unsignedText, htext, List.append_assoc]
  constructor
  · obtain ⟨c, rest, rfl⟩ := List.exists_cons_of_ne_nil hne
    exact ⟨c, _, rfl, hinteger c List.mem_cons_self⟩
  · exact readFinite_parts d hne hinteger hfraction hvalue (by omega)

theorem toLower_of_isDigit {c : Char} (h : c.isDigit = true) : c.toLower ∉ ['i', 'n', 's'] := by
  have hrange : 48 ≤ c.val.toNat ∧ c.val.toNat ≤ 57 := by
    simpa [Char.isDigit, UInt32.le_iff_toNat_le] using h
  have hlower : c.toLower = c := by
    refine dif_neg ?_
    rintro ⟨hupper, -⟩
    have hlarge : 65 ≤ c.val.toNat := UInt32.le_iff_toNat_le.mp hupper
    omega
  rw [hlower]
  intro hmem
  simp only [List.mem_cons, List.not_mem_nil, or_false] at hmem
  rcases hmem with rfl | rfl | rfl <;> exact absurd h (by decide)

/-- A text that starts with a digit is a numeral made of digits. -/
theorem readUnsigned_digit (negative : Bool) {c : Char} (hdigit : c.isDigit = true)
    (rest : List Char) : readUnsigned negative (c :: rest) = readFinite negative (c :: rest) := by
  have hword := toLower_of_isDigit hdigit
  unfold readUnsigned
  rw [List.head?_cons]
  simp only [hword, if_false]

theorem ofNumeral_digit {c : Char} (hdigit : c.isDigit = true) (rest : List Char) :
    ofNumeral (c :: rest) = readFinite false (c :: rest) := by
  rw [← readUnsigned_digit false hdigit]
  unfold ofNumeral
  split
  case h_1 heq =>
    obtain rfl : c = '+' := (List.cons.inj heq).1
    exact absurd hdigit (by decide)
  case h_2 heq =>
    obtain rfl : c = '-' := (List.cons.inj heq).1
    exact absurd hdigit (by decide)
  case h_3 => rfl

/-- Digits and then a mark that no numeral has there. -/
theorem ofNumeral_eq_none {digits rest : List Char} {mark : Char} (hne : digits ≠ [])
    (hdigits : ∀ c ∈ digits, c.isDigit = true) (hdigit : mark.isDigit = false)
    (hpoint : mark ≠ '.') (hexponent : mark.toLower ≠ 'e') :
    ofNumeral (digits ++ mark :: rest) = none := by
  obtain ⟨hfront, hback⟩ : (digits ++ mark :: rest).takeWhile Char.isDigit = digits ∧
      (digits ++ mark :: rest).dropWhile Char.isDigit = mark :: rest :=
    takeWhile_digits hdigits (by simpa using hdigit)
  have hfraction : splitFraction (mark :: rest) = ([], mark :: rest) := by
    unfold splitFraction
    split
    case h_1 heq => exact absurd (List.cons.inj heq).1 hpoint
    case h_2 => rfl
  obtain ⟨c, more, rfl⟩ := List.exists_cons_of_ne_nil hne
  rw [List.cons_append] at hfront hback ⊢
  rw [ofNumeral_digit (hdigits c List.mem_cons_self), readFinite]
  simp [hfront, hback, hfraction, readExponent, hexponent]

/-- A finite number that was written is read back as it was. -/
theorem ofNumeral_toText (d : FiniteDecimal) :
    ofNumeral (toText (finite d)) = some (finite d) := by
  obtain ⟨⟨c, rest, htext, hdigit⟩, hread⟩ := unsignedText_spec d
  cases hsign : d.negative with
  | true =>
    rw [hsign, htext, ← readUnsigned_digit true hdigit, ← htext] at hread
    simp only [toText, signText, hsign, if_true, List.singleton_append, ofNumeral, hread]
  | false =>
    rw [hsign, htext, ← ofNumeral_digit hdigit, ← htext] at hread
    simp only [toText, signText, hsign, Bool.false_eq_true, if_false, List.nil_append, hread]

/-- What a finite number is written with. -/
theorem mem_toText {d : FiniteDecimal} {c : Char} (h : c ∈ toText (finite d)) :
    c.isDigit = true ∨ c ∈ ['-', '+', '.', 'E'] := by
  obtain ⟨integer, fraction, htext, -, hinteger, hfraction, -⟩ :=
    placePoint_parts (fun _ => isDigit_of_mem_toDigits) Nat.toDigits_ne_nil (pointPlace_le d)
  simp only [toText, unsignedText, htext, List.mem_append] at h
  rcases h with hsign | (hint | hpoint) | hexponent
  · right
    cases hneg : d.negative <;> simp_all [signText]
  · exact .inl (hinteger c hint)
  · by_cases hnil : fraction = []
    · simp [pointed, hnil] at hpoint
    · rw [pointed, if_neg hnil] at hpoint
      rcases List.mem_cons.mp hpoint with rfl | hc
      · exact .inr (by decide)
      · exact .inl (hfraction c hc)
  · unfold exponentText at hexponent
    split at hexponent
    · cases hexponent
    · rcases List.mem_cons.mp hexponent with rfl | hexponent
      · exact .inr (by decide)
      · rcases List.mem_cons.mp hexponent with rfl | hc
        · right
          split <;> decide
        · exact .inl (isDigit_of_mem_toDigits hc)

theorem toText_ne_nil (d : FiniteDecimal) : toText (finite d) ≠ [] := by
  obtain ⟨⟨c, rest, htext, -⟩, -⟩ := unsignedText_spec d
  simp [toText, htext]

end RoundTrip

end Decimal

end CryptoTrading.Lib
