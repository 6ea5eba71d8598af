import ScriptService.Number.Shortest
import ScriptService.Text.Blank
import ScriptService.Text.Decimal
import ScriptService.Text.Hex
import ScriptService.Text.Lowercase
import ScriptService.Value.Literal
import ScriptService.Value.ReadError

/-!
# Numerals

Numbers as people write them: white space around them counts for nothing, and the decimal digits of
every script do. Lines may part the digits of a floating-point number. The four information
separators are no white space here.
-/

namespace ScriptService.Number

open Text

/-- White space that may stand around a numeral. -/
def isMargin (c : Char) : Bool :=
  isBlank c && !('\x1c' ≤ c && c ≤ '\x1f')

/-- A text without the white space around it and with its decimal digits in ASCII. -/
def plainDigits (s : List Char) : List Char :=
  let inner := ((s.dropWhile isMargin).reverse.dropWhile isMargin).reverse
  inner.map fun c => (decimalValue? c).elim c fun d => Char.ofNat (48 + d)

/-- A sign, if there is one, and the rest. -/
def splitSign : List Char → Bool × List Char
  | '-' :: s => (true, s)
  | '+' :: s => (false, s)
  | s => (false, s)

/-- The number that digits of a base stand for, if there is one digit at least. -/
def digitsIn? (base : Nat) (s : List Char) : Option Nat :=
  if s.isEmpty then none
  else s.foldlM (fun n c => (hexValue? c).bind fun d => if d < base then some (n * base + d) else none) 0

/-- The letter that marks a base in front of a numeral. -/
def baseMark : Nat → Option Char
  | 2 => some 'b'
  | 8 => some 'o'
  | 16 => some 'x'
  | _ => none

/-- Digits without the mark of their base. -/
def dropBaseMark (base : Nat) : List Char → List Char
  | '0' :: m :: s => if baseMark base == some m.toLower then s else '0' :: m :: s
  | s => s

/-- The most characters of a text in quotation marks that a complaint about an integer shows. -/
def maxShown : Nat := 200

/-- A text, given in quotation marks, is no integer of a base. -/
def notAnInteger (base : Nat) (quoted : String) : ReadError :=
  .noValue ("invalid literal for int() with base " ++ toString base ++ ": " ++
    String.ofList (quoted.toList.take maxShown))

/-- The integer that a numeral of a base stands for. Too many decimal digits are refused, whatever
follows them. -/
def int? (base : Nat) (s : List Char) : Except ReadError Int :=
  let (negative, t) := splitSign (plainDigits s)
  let ds := dropBaseMark base t
  let lead := (ds.takeWhile Char.isDigit).length
  if base = 10 && maxNumeralDigits < lead then .error (.tooManyDigits lead)
  else
    match digitsIn? base ds with
    | some n => .ok (if negative then -(n : Int) else n)
    | none => .error (notAnInteger base (quoteText (String.ofList s)))

/-- A text without the lines that part its digits; none if a line stands elsewhere. -/
def dropLines? : Option Char → List Char → Option (List Char)
  | before, [] => if before == some '_' then none else some []
  | before, c :: s =>
    if c == '_' then
      if before.any Char.isDigit then dropLines? (some c) s else none
    else if before == some '_' && !c.isDigit then none
    else (dropLines? (some c) s).map (c :: ·)

/-- The number of digits, a point and an exponent. -/
def unsignedFloat? (negative : Bool) (s : List Char) : Option Float :=
  let whole := s.takeWhile Char.isDigit
  let t := s.dropWhile Char.isDigit
  let (fraction, t) := match t with
    | '.' :: u => (u.takeWhile Char.isDigit, u.dropWhile Char.isDigit)
    | t => ([], t)
  if whole.isEmpty && fraction.isEmpty then none
  else
    let m := digitsValue (whole ++ fraction)
    match t with
    | [] => some (ofDecimal negative m (-(fraction.length : Int)))
    | e :: u =>
      let (down, ds) := splitSign u
      if e.toLower == 'e' && !ds.isEmpty && ds.all Char.isDigit then
        let power : Int := if down then -(digitsValue ds : Int) else digitsValue ds
        some (ofDecimal negative m (power - fraction.length))
      else none

/-- The floating-point number that a numeral stands for. -/
def float? (s : List Char) : Option Float := do
  let t ← dropLines? none (plainDigits s)
  let (negative, t) := splitSign t
  let word := String.ofList (t.map Char.toLower)
  if word == "inf" || word == "infinity" then
    some (Float.ofBits (if negative then 0xFFF0000000000000 else 0x7FF0000000000000))
  else if word == "nan" then some (Float.ofBits 0x7FF8000000000000)
  else unsignedFloat? negative t

end ScriptService.Number
