/-!
# Base sixteen
-/

namespace ScriptService.Text

/-- The value of a base-sixteen digit. -/
def hexValue? (c : Char) : Option Nat :=
  if c.isDigit then some (c.toNat - 48)
  else if 'a' ≤ c && c ≤ 'f' then some (c.toNat - 87)
  else if 'A' ≤ c && c ≤ 'F' then some (c.toNat - 55)
  else none

/-- Whether a character is a base-sixteen digit. -/
def isHexDigit (c : Char) : Bool :=
  (hexValue? c).isSome

/-- A number in base sixteen with at least that many digits, letters small. -/
def hexDigits (width n : Nat) : List Char :=
  let ds := Nat.toDigits 16 n
  List.replicate (width - ds.length) '0' ++ ds

/-- A number in base sixteen with at least that many digits, letters capital. -/
def hexCapitals (width n : Nat) : List Char :=
  (hexDigits width n).map Char.toUpper

end ScriptService.Text
