import ScriptService.Text.CodeSet

/-!
# Decimal digits

The decimal digits of every script stand in runs of ten, from zero to nine. A numeral is a run of
them, of any mixture of scripts; one of more than 4300 digits is refused.
-/

namespace ScriptService.Text

/-- The decimal digits of every script. -/
def decimalSet : CodeSet := ⟨[
    48, 10, 1574, 10, 134, 10, 198, 10, 412, 10, 118, 10, 118, 10, 118, 10, 118, 10, 118, 10, 118,
    10, 118, 10, 118, 10, 118, 10, 96, 10, 118, 10, 70, 10, 278, 10, 70, 10, 1862, 10, 38, 10,
    300, 10, 128, 10, 166, 10, 6, 10, 182, 10, 86, 10, 134, 10, 6, 10, 35270, 10, 678, 10, 38, 10,
    198, 10, 22, 10, 86, 10, 406, 10, 21270, 10, 1414, 10, 2182, 10, 812, 10, 128, 10, 60, 10,
    144, 10, 278, 10, 342, 10, 118, 10, 374, 10, 102, 10, 102, 10, 422, 10, 102, 10, 758, 10, 246,
    10, 70, 10, 19638, 10, 86, 10, 134, 10, 27764, 50, 2368, 10, 422, 10, 1622, 10, 4758, 10]⟩

/-- Decimal digits and the other characters that stand for a digit, such as superscripts. -/
def digitSet : CodeSet := ⟨[
    48, 10, 120, 2, 5, 1, 1446, 10, 134, 10, 198, 10, 412, 10, 118, 10, 118, 10, 118, 10, 118, 10,
    118, 10, 118, 10, 118, 10, 118, 10, 118, 10, 96, 10, 118, 10, 70, 10, 278, 10, 70, 10, 719, 9,
    1134, 10, 38, 10, 300, 10, 128, 11, 165, 10, 6, 10, 182, 10, 86, 10, 134, 10, 6, 10, 1046, 1,
    3, 6, 6, 10, 982, 9, 11, 9, 11, 9, 89, 1, 10, 9, 1, 1, 630, 9, 1, 9, 1, 9, 32397, 10, 678, 10,
    38, 10, 198, 10, 22, 10, 86, 10, 406, 10, 21270, 10, 1414, 10, 1430, 4, 748, 10, 294, 9, 489,
    9, 11, 10, 128, 10, 60, 10, 144, 10, 278, 10, 342, 10, 118, 10, 374, 10, 102, 10, 102, 10,
    422, 10, 102, 10, 758, 10, 246, 10, 70, 10, 19638, 10, 86, 10, 134, 10, 27764, 50, 2368, 10,
    422, 10, 1622, 10, 1958, 11, 2789, 10]⟩

/-- Whether a character is a decimal digit. -/
def isDecimal (c : Char) : Bool :=
  decimalSet.contains c

/-- Whether a character stands for a digit. -/
def isDigitSign (c : Char) : Bool :=
  digitSet.contains c

/-- The value of a decimal digit. -/
def decimalValue? (c : Char) : Option Nat :=
  (decimalSet.offset? c).map (· % 10)

/-- The number that a run of decimal digits continues, `acc` being the number so far. -/
def numeralFrom? (acc : Nat) : List Char → Option Nat
  | [] => some acc
  | c :: s => (decimalValue? c).bind fun d => numeralFrom? (10 * acc + d) s

/-- The most digits that a numeral may have. -/
def maxNumeralDigits : Nat := 4300

/-- The number that a numeral stands for: one digit or more, and at most `maxNumeralDigits`. -/
def numeral? (s : List Char) : Option Nat :=
  if s.isEmpty || maxNumeralDigits < s.length then none else numeralFrom? 0 s

/-- The number that ASCII digits stand for. -/
def digitsValue (ds : List Char) : Nat :=
  ds.foldl (fun n c => n * 10 + (c.toNat - 48)) 0

end ScriptService.Text
