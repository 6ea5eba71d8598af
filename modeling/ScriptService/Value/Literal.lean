import ScriptService.Number.Shortest
import ScriptService.Text.Hex
import ScriptService.Text.Printable
import ScriptService.Value.Basic
import ScriptService.Value.ReadError

/-!
# Values in messages

How a value is written in a message: texts in quotation marks with escapes, lists in brackets,
mappings in braces. A list or a mapping inside itself is left out there. Not every value can be
written: an integer may have too many digits, and values may stand too deep inside one another.
-/

namespace ScriptService

open Text

/-- A character inside quotation marks. -/
def quoteChar (mark c : Char) : List Char :=
  if c == mark || c == '\\' then ['\\', c]
  else if c == '\n' then ['\\', 'n']
  else if c == '\r' then ['\\', 'r']
  else if c == '\t' then ['\\', 't']
  else if isPrintable c then [c]
  else if c.toNat < 0x100 then '\\' :: 'x' :: hexDigits 2 c.toNat
  else if c.toNat < 0x10000 then '\\' :: 'u' :: hexDigits 4 c.toNat
  else '\\' :: 'U' :: hexDigits 8 c.toNat

/-- A text in quotation marks: single ones, unless it holds these and no double ones. -/
def quoteText (s : String) : String :=
  let mark := if s.contains '\'' && !s.contains '"' then '"' else '\''
  String.ofList (mark :: s.toList.flatMap (quoteChar mark) ++ [mark])

/-- A code point inside quotation marks. -/
def quoteCode (mark : Char) (n : Nat) : List Char :=
  if isHalf n then '\\' :: 'u' :: hexDigits 4 n else quoteChar mark (Char.ofNat n)

/-- Code points in quotation marks. -/
def quoteCodes (ns : List Nat) : String :=
  let mark := if ns.contains 39 && !ns.contains 34 then '"' else '\''
  String.ofList (mark :: ns.flatMap (quoteCode mark) ++ [mark])

/-- A byte inside quotation marks. -/
def quoteByte (mark : Char) (b : UInt8) : List Char :=
  if b < 0x80 then quoteChar mark (Char.ofNat b.toNat) else '\\' :: 'x' :: hexDigits 2 b.toNat

/-- Bytes in quotation marks. -/
def quoteBytes (bs : List UInt8) : String :=
  let mark := if bs.contains 39 && !bs.contains 34 then '"' else '\''
  String.ofList ('b' :: mark :: bs.flatMap (quoteByte mark) ++ [mark])

/-- Numbers with commas between them. -/
def numbers (ns : List Nat) : String :=
  ", ".intercalate (ns.map fun n => String.ofList (Nat.toDigits 10 n))

/-- A duration of seconds as parts of a day, which may lie in the past. -/
def offsetLiteral (seconds : Int) : String :=
  let days := seconds / 86400
  let rest := seconds % 86400
  let parts := (if days = 0 then [] else ["days=" ++ toString days]) ++
    (if rest = 0 then [] else ["seconds=" ++ toString rest])
  if parts.isEmpty then "datetime.timedelta(0)"
  else "datetime.timedelta(" ++ ", ".intercalate parts ++ ")"

/-- A time zone in a message. -/
def zoneLiteral (minutes : Int) : String :=
  if minutes = 0 then "datetime.timezone.utc"
  else "datetime.timezone(" ++ offsetLiteral (minutes * 60) ++ ")"

/-- A day in a message. -/
def Day.literal (d : Day) : String :=
  "datetime.date(" ++ numbers [d.year, d.month, d.day] ++ ")"

/-- A moment in a message: seconds and microseconds only where they matter. -/
def Moment.literal (m : Moment) : String :=
  "datetime.datetime(" ++
    numbers ([m.day.year, m.day.month, m.day.day, m.hour, m.minute] ++
      (if m.microsecond ≠ 0 then [m.second, m.microsecond] else if m.second ≠ 0 then [m.second] else [])) ++
    m.zone.elim "" (fun z => ", tzinfo=" ++ zoneLiteral z) ++ ")"

/-- A natural number with at least that many digits. -/
def padded (width n : Nat) : String :=
  let ds := Nat.toDigits 10 n
  String.ofList (List.replicate (width - ds.length) '0' ++ ds)

/-- A day as people write it. -/
def Day.display (d : Day) : String :=
  padded 4 d.year ++ "-" ++ padded 2 d.month ++ "-" ++ padded 2 d.day

/-- A zone's offset as people write it. -/
def zoneDisplay (minutes : Int) : String :=
  (if minutes < 0 then "-" else "+") ++ padded 2 (minutes.natAbs / 60) ++ ":" ++
    padded 2 (minutes.natAbs % 60)

/-- A moment as people write it. -/
def Moment.display (m : Moment) : String :=
  m.day.display ++ " " ++ padded 2 m.hour ++ ":" ++ padded 2 m.minute ++ ":" ++ padded 2 m.second ++
    (if m.microsecond = 0 then "" else "." ++ padded 6 m.microsecond) ++ m.zone.elim "" zoneDisplay

namespace Value

mutual
/-- A value inside a message. -/
def literal : Value → String
  | .null => "None"
  | .bool true => "True"
  | .bool false => "False"
  | .int n => toString n
  | .float x => Number.text x
  | .text s => quoteText s
  | .codes ns => quoteCodes ns
  | .day d => d.literal
  | .moment m => m.literal
  | .bytes bs => quoteBytes bs
  | .list xs => "[" ++ ", ".intercalate (literals xs) ++ "]"
  | .pair a b => "(" ++ a.literal ++ ", " ++ b.literal ++ ")"
  | .set [] => "set()"
  | .set xs => "\x7b" ++ ", ".intercalate (literals xs) ++ "\x7d"
  | .mapping es => "\x7b" ++ ", ".intercalate (entryLiterals es) ++ "\x7d"
  | .loop false => "[...]"
  | .loop true => "\x7b...\x7d"

/-- The values of a list inside a message. -/
def literals : List Value → List String
  | [] => []
  | v :: vs => v.literal :: literals vs

/-- The entries of a mapping inside a message. -/
def entryLiterals : List (Value × Value) → List String
  | [] => []
  | (k, v) :: es => (k.literal ++ ": " ++ v.literal) :: entryLiterals es
end

mutual
/-- Why a value cannot be written inside a message that has room for a number of values inside one
another, if it cannot: the first fault that is met. A set is written as the list that it holds, a zone
as a value in its moment, and an offset as one in its zone. -/
def fault? : Nat → Value → Option ReadError
  | 0, _ => some .tooDeep
  | _ + 1, .int n => if (Value.int n).hasLongInt then some .longInt else none
  | room + 1, .list xs => firstFault? room xs
  | room + 1, .set xs =>
    if xs.isEmpty then none else if room = 0 then some .tooDeep else firstFault? (room - 1) xs
  | room + 1, .pair a b => (a.fault? room).or (b.fault? room)
  | room + 1, .mapping es => firstEntryFault? room es
  | room + 1, .moment m =>
    if room < m.zone.elim 0 fun z => if z = 0 then 1 else 2 then some .tooDeep else none
  | _ + 1, _ => none

/-- Why one of some values cannot be written. -/
def firstFault? (room : Nat) : List Value → Option ReadError
  | [] => none
  | v :: vs => (v.fault? room).or (firstFault? room vs)

/-- Why a key or a value of some entries cannot be written. -/
def firstEntryFault? (room : Nat) : List (Value × Value) → Option ReadError
  | [] => none
  | (k, v) :: es => ((k.fault? room).or (v.fault? room)).or (firstEntryFault? room es)
end

/-- A value on its own: a text as it stands, all else as inside a message. -/
def display : Value → String
  | .text s => s
  | .codes ns => ofCodesLossy ns
  | .day d => d.display
  | .moment m => m.display
  | v => v.literal

end Value

end ScriptService
