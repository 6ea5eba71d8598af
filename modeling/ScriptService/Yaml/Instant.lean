import ScriptService.Text.Decimal
import ScriptService.Value.Literal
import ScriptService.Value.ReadError

/-!
# Days and moments in YAML

A day is written `2001-12-14`; a time may follow it, behind a `T` or blanks, and a zone may follow
the time. What the digits stand for is checked after the form: first the zone, then the day from the
year on, then the time from the hour on.
-/

namespace ScriptService.Yaml

open Text

/-- A time of day as written. -/
structure Clock where
  hour : Nat
  minute : Nat
  second : Nat
  microsecond : Nat
  /-- The offset of the zone in minutes. -/
  zone : Option Int

/-- A day, with or without a time, as written. -/
structure Instant where
  day : Day
  clock : Option Clock
  /-- Whether month and day have two digits. -/
  padded : Bool

/-- A run of ASCII digits of at least `low` and at most `high`, and the rest. -/
def digitRun? (low high : Nat) (s : List Char) : Option (List Char × List Char) :=
  let run := (s.take high).takeWhile Char.isDigit
  if run.length < low then none else some (run, s.drop run.length)

/-- The text behind a character that must stand first. -/
def behind? (c : Char) : List Char → Option (List Char)
  | d :: s => if d == c then some s else none
  | [] => none

/-- A zone and nothing behind it: `Z`, or an offset in hours and minutes. -/
def zone? (s : List Char) : Option (Option Int) :=
  if s.isEmpty then some none
  else
    match s.dropWhile fun c => c == ' ' || c == '\t' with
    | ['Z'] => some (some 0)
    | sign :: t =>
      if sign == '+' || sign == '-' then do
        let (hours, t) ← digitRun? 1 2 t
        let minutes ← if t.isEmpty then some [] else do
          let (ms, rest) ← digitRun? 2 2 (← behind? ':' t)
          if rest.isEmpty then some ms else none
        let offset : Int := digitsValue hours * 60 + digitsValue minutes
        some (some (if sign == '-' then -offset else offset))
      else none
    | [] => none

/-- A time of day and nothing behind it. -/
def clock? (s : List Char) : Option Clock := do
  let (hour, s) ← digitRun? 1 2 s
  let (minute, s) ← digitRun? 2 2 (← behind? ':' s)
  let (second, s) ← digitRun? 2 2 (← behind? ':' s)
  let fraction := match s with
    | '.' :: t => t.takeWhile Char.isDigit
    | _ => []
  let rest := match s with
    | '.' :: t => t.dropWhile Char.isDigit
    | _ => s
  let micro := fraction.take 6
  some {
    hour := digitsValue hour
    minute := digitsValue minute
    second := digitsValue second
    microsecond := digitsValue (micro ++ List.replicate (6 - micro.length) '0')
    zone := ← zone? rest }

/-- A text without the line break at its end, if it has one. -/
def dropLastBreak (s : List Char) : List Char :=
  if s.getLast? == some '\n' then s.dropLast else s

/-- The instant that a text has the form of; a line break may end it. -/
def instant? (s : List Char) : Option Instant := do
  let (year, s) ← digitRun? 4 4 (dropLastBreak s)
  let (month, s) ← digitRun? 1 2 (← behind? '-' s)
  let (day, s) ← digitRun? 1 2 (← behind? '-' s)
  let clock ← match s with
    | [] => some none
    | c :: t =>
      if c == 'T' || c == 't' then (clock? t).map some
      else if c == ' ' || c == '\t' then
        (clock? (t.dropWhile fun c => c == ' ' || c == '\t')).map some
      else none
  some {
    day := ⟨digitsValue year, digitsValue month, digitsValue day⟩
    clock
    padded := month.length = 2 && day.length = 2 }

/-- Refuses what does not hold. -/
def demand (ok : Bool) (reason : String) : Except ReadError Unit :=
  if ok then .ok () else .error (.noValue reason)

/-- Refuses a day that is in no calendar. -/
def checkDay (d : Day) : Except ReadError Unit := do
  demand (1 ≤ d.year) ("year " ++ toString d.year ++ " is out of range")
  demand (1 ≤ d.month && d.month ≤ 12) "month must be in 1..12"
  demand (1 ≤ d.day && d.day ≤ monthDays d.year d.month) "day is out of range for month"

/-- Refuses an offset of a day or more. -/
def checkZone (minutes : Int) : Except ReadError Unit :=
  demand (minutes.natAbs < 24 * 60)
    ("offset must be a timedelta strictly between -timedelta(hours=24) and timedelta(hours=24), not " ++
      offsetLiteral (minutes * 60) ++ ".")

/-- The day or moment that an instant stands for. -/
def Instant.value (i : Instant) : Except ReadError Value :=
  match i.clock with
  | none => do
    checkDay i.day
    .ok (.day i.day)
  | some c => do
    c.zone.forM checkZone
    checkDay i.day
    demand (c.hour ≤ 23) "hour must be in 0..23"
    demand (c.minute ≤ 59) "minute must be in 0..59"
    demand (c.second ≤ 59) "second must be in 0..59"
    .ok (.moment ⟨i.day, c.hour, c.minute, c.second, c.microsecond, c.zone⟩)

end ScriptService.Yaml
