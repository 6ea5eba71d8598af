import ScriptService.Number.Shortest
import ScriptService.Text.Codes
import ScriptService.Text.Decimal

/-!
# Configuration values

The values that configuration files hold. Entries of a mapping keep the order in which their keys
first stood; numbers that are equal are the same key, whatever their kind, and so are moments of the
same time in different zones.
-/

namespace ScriptService

/-- A calendar day. -/
structure Day where
  year : Nat
  month : Nat
  day : Nat
deriving DecidableEq

/-- Whether a year has a day more. -/
def isLeap (year : Nat) : Bool :=
  year % 4 = 0 && (year % 100 ≠ 0 || year % 400 = 0)

/-- The number of days of a month. -/
def monthDays (year month : Nat) : Nat :=
  if month = 2 then if isLeap year then 29 else 28
  else if month = 4 || month = 6 || month = 9 || month = 11 then 30
  else 31

/-- The number of a day, counted from the first day of the year one on. -/
def Day.number (d : Day) : Nat :=
  let years := d.year - 1
  let months := (List.range (d.month - 1)).foldl (fun n m => n + monthDays d.year (m + 1)) 0
  365 * years + years / 4 - years / 100 + years / 400 + months + d.day

/-- A time of day on a day, with the offset of its zone in minutes if it has one. -/
structure Moment where
  day : Day
  hour : Nat
  minute : Nat
  second : Nat
  microsecond : Nat
  zone : Option Int
deriving DecidableEq

/-- The minute of a moment, counted from the start of the calendar on, in a zone with an offset. -/
def Moment.minuteCount (m : Moment) (offset : Int) : Int :=
  ((m.day.number * 24 + m.hour) * 60 + m.minute : Nat) - offset

/-- Whether two moments are the same: both without a zone and equal, or both of the same time. -/
def Moment.same (m n : Moment) : Bool :=
  match m.zone, n.zone with
  | some a, some b =>
    m.minuteCount a = n.minuteCount b && m.second = n.second && m.microsecond = n.microsecond
  | _, _ => m = n

/-- A configuration value. -/
inductive Value where
  | null
  | bool (b : Bool)
  | int (n : Int)
  | float (x : Float)
  | text (s : String)
  /-- A text with halves of surrogate pairs in it, as its code points. -/
  | codes (ns : List Nat)
  | day (d : Day)
  | moment (m : Moment)
  | bytes (bs : List UInt8)
  | list (items : List Value)
  | pair (a b : Value)
  | set (items : List Value)
  | mapping (entries : List (Value × Value))
  /-- A list or a mapping where it is met again inside itself. -/
  | loop (isMapping : Bool)

namespace Value

/-- The text that code points make up. -/
def ofCodes (ns : List Nat) : Value :=
  match Text.ofCodes? ns with
  | some s => .text s
  | none => .codes ns

/-- The name of a value's type in messages. -/
def typeName : Value → String
  | .null => "NoneType"
  | .bool _ => "bool"
  | .int _ => "int"
  | .float _ => "float"
  | .text _ | .codes _ => "str"
  | .day _ => "date"
  | .moment _ => "datetime"
  | .bytes _ => "bytes"
  | .list _ | .loop false => "list"
  | .pair _ _ => "tuple"
  | .set _ => "set"
  | .mapping _ | .loop true => "dict"

/-- Whether a value counts as given: neither nothing, nor zero, nor empty. -/
def isGiven : Value → Bool
  | .null => false
  | .bool b => b
  | .int n => n ≠ 0
  | .float x => x != 0
  | .text s => !s.isEmpty
  | .codes ns => !ns.isEmpty
  | .day _ => true
  | .moment _ => true
  | .bytes bs => !bs.isEmpty
  | .list xs => !xs.isEmpty
  | .pair _ _ => true
  | .set xs => !xs.isEmpty
  | .mapping es => !es.isEmpty
  | .loop _ => true

/-- The number that a value stands for as a key. -/
def asNumber? : Value → Option (Int ⊕ Float)
  | .bool b => some (.inl b.toInt)
  | .int n => some (.inl n)
  | .float x => some (.inr x)
  | _ => none

/-- Whether two values are the same key. What is not a number is the same as nothing. -/
def sameKey : Value → Value → Bool
  | .null, .null => true
  | .text s, .text t => s == t
  | .codes s, .codes t => s == t
  | .day d, .day e => d = e
  | .moment d, .moment e => d.same e
  | .bytes d, .bytes e => d == e
  | .pair a b, .pair c d => a.sameKey c && b.sameKey d
  | a, b =>
    match a.asNumber?, b.asNumber? with
    | some (.inl m), some (.inl n) => m == n
    | some (.inl m), some (.inr y) => Number.equalsInt y m
    | some (.inr x), some (.inl n) => Number.equalsInt x n
    | some (.inr x), some (.inr y) => x == y
    | _, _ => false

/-- The entries of a mapping once a key is given a value: in the place of the same key, else last. -/
def insertEntry (key value : Value) : List (Value × Value) → List (Value × Value)
  | [] => [(key, value)]
  | (k, v) :: es => if k.sameKey key then (k, value) :: es else (k, v) :: insertEntry key value es

/-- The mapping that entries make when later ones replace earlier ones of the same key. -/
def ofEntries (entries : List (Value × Value)) : Value :=
  .mapping (entries.foldl (fun es (k, v) => insertEntry k v es) [])

/-- The value at a text key of some entries. -/
def lookup? (key : String) : List (Value × Value) → Option Value
  | [] => none
  | (.text k, v) :: es => if k = key then some v else lookup? key es
  | _ :: es => lookup? key es

/-- The value at a text key of a mapping. -/
def get? (v : Value) (key : String) : Option Value :=
  match v with
  | .mapping es => lookup? key es
  | _ => none

mutual
/-- Whether a value holds an integer of more digits than a numeral may have. -/
def hasLongInt : Value → Bool
  | .int n => Text.maxNumeralDigits < (Nat.toDigits 10 n.natAbs).length
  | .list xs | .set xs => anyLongInt xs
  | .pair a b => a.hasLongInt || b.hasLongInt
  | .mapping es => anyLongEntry es
  | _ => false

/-- Whether one of some values holds an integer of too many digits. -/
def anyLongInt : List Value → Bool
  | [] => false
  | v :: vs => v.hasLongInt || anyLongInt vs

/-- Whether a key or a value of some entries holds an integer of too many digits. -/
def anyLongEntry : List (Value × Value) → Bool
  | [] => false
  | (k, v) :: es => k.hasLongInt || v.hasLongInt || anyLongEntry es
end

mutual
/-- Whether a value is met again inside itself. -/
def hasLoop : Value → Bool
  | .loop _ => true
  | .list xs | .set xs => anyLoop xs
  | .pair a b => a.hasLoop || b.hasLoop
  | .mapping es => anyLoopEntry es
  | _ => false

/-- Whether one of some values is met again inside itself. -/
def anyLoop : List Value → Bool
  | [] => false
  | v :: vs => v.hasLoop || anyLoop vs

/-- Whether a key or a value of some entries is met again inside itself. -/
def anyLoopEntry : List (Value × Value) → Bool
  | [] => false
  | (k, v) :: es => k.hasLoop || v.hasLoop || anyLoopEntry es
end

end Value

end ScriptService
