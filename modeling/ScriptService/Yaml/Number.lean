import ScriptService.Number.Numeral

/-!
# Numbers in YAML

Integers in base two, eight, ten and sixteen, and numbers in parts of sixty, as for hours, minutes
and seconds. Lines may part the digits anywhere.
-/

namespace ScriptService.Yaml

open Text

/-- The integer of a numeral: in base two, sixteen or eight by its lead, in parts of sixty, or
decimal. -/
def int? (s : String) : Except ReadError Value := do
  let cs := s.toList.filter (· != '_')
  let (negative, ds) := Number.splitSign cs
  let n ← match cs, ds with
    | [], _ => .error .emptyNumeral
    | _, [] => .error .emptyNumeral
    | _, ['0'] => .ok 0
    | _, '0' :: 'b' :: t => Number.int? 2 t
    | _, '0' :: 'x' :: t => Number.int? 16 t
    | _, '0' :: t => Number.int? 8 ('0' :: t)
    | _, ds =>
      if ds.contains ':' then do
        let parts ← (ds.splitOn ':').mapM (Number.int? 10)
        .ok (parts.foldl (fun n p => n * 60 + p) 0)
      else Number.int? 10 ds
  return .int (if negative then -n else n)

/-- A text, given in quotation marks, is no floating-point number. -/
def notAFloat (quoted : String) : ReadError :=
  .noValue ("could not convert string to float: " ++ quoted)

/-- The floating-point number of a text. -/
def floatPart? (s : List Char) : Except ReadError Float :=
  match Number.float? s with
  | some x => .ok x
  | none => .error (notAFloat (quoteText (String.ofList s)))

/-- The number of parts of sixty, the last part first, each with its weight. -/
def sumSixtieths : List Float → Nat → Float → Float
  | [], _, acc => acc
  | x :: xs, weight, acc => sumSixtieths xs (weight * 60) (acc + x * Float.ofNat weight)

/-- The characters of a numeral that count, in small letters. -/
def numeralChars (s : String) : List Char :=
  (lower (String.ofList (s.toList.filter (· != '_')))).toList

/-- Whether a numeral is the word for what is not a number. -/
def isNotANumber (s : String) : Bool :=
  (Number.splitSign (numeralChars s)).2 == ['.', 'n', 'a', 'n']

/-- The floating-point number of a numeral. -/
def float? (s : String) : Except ReadError Value := do
  let cs := numeralChars s
  if cs.isEmpty then throw .emptyNumeral
  let (negative, ds) := Number.splitSign cs
  let x ←
    if ds = ['.', 'i', 'n', 'f'] then .ok (Float.ofBits 0x7FF0000000000000)
    else if isNotANumber s then .ok (Float.ofBits 0x7FF8000000000000)
    else if ds.contains ':' then do
      let parts ← (ds.splitOn ':').mapM floatPart?
      .ok (sumSixtieths parts.reverse 1 0)
    else floatPart? ds
  return .float (if negative then -x else x)

end ScriptService.Yaml
