import Mathlib.Data.List.Basic

/-!
# Letter case

Upper and lower case of a text, as far as a comparison with an ASCII name can tell: besides the
ASCII letters, only the few letters matter whose other case lies inside ASCII.
-/

namespace CryptoTrading.Lib

/-- The upper case of a character; outside ASCII, where it lies inside. -/
def upperChar (c : Char) : List Char :=
  match c.toNat with
  | 0xdf => ['S', 'S']
  | 0x131 => ['I']
  | 0x17f => ['S']
  | 0xfb00 => ['F', 'F']
  | 0xfb01 => ['F', 'I']
  | 0xfb02 => ['F', 'L']
  | 0xfb03 => ['F', 'F', 'I']
  | 0xfb04 => ['F', 'F', 'L']
  | 0xfb05 => ['S', 'T']
  | 0xfb06 => ['S', 'T']
  | _ => [c.toUpper]

/-- `str.upper`. -/
def upper (text : String) : String := String.ofList (text.toList.flatMap upperChar)

/-- The lower case of a character; outside ASCII, where it lies inside. -/
def lowerChar (c : Char) : Char := if c.toNat = 0x212a then 'k' else c.toLower

/-- `str.lower`. -/
def lower (text : String) : String := String.ofList (text.toList.map lowerChar)

end CryptoTrading.Lib
