import ScriptService.Number.Shortest
import ScriptService.Text.Decimal
import ScriptService.Text.Hex
import ScriptService.Value.Basic
import ScriptService.Value.ReadError

/-!
# Reading JSON

The reader takes the standard's grammar and three words for numbers that the standard has not:
`NaN`, `Infinity` and `-Infinity`. A repeated key replaces the earlier value. An escape that names
half of a surrogate pair takes the other half behind it; a half without its partner stays one.
-/

namespace ScriptService

namespace Json

open Text

/-- The text behind blanks. -/
def skipBlanks (s : List Char) : List Char :=
  s.dropWhile fun c => c == ' ' || c == '\t' || c == '\n' || c == '\r'

/-- Four base-sixteen digits. -/
def hex4? : List Char → Option (Nat × List Char)
  | a :: b :: c :: d :: s => do
    let a ← hexValue? a
    let b ← hexValue? b
    let c ← hexValue? c
    let d ← hexValue? d
    some (((a * 16 + b) * 16 + c) * 16 + d, s)
  | _ => none

/-- The character of an escape that is one letter. -/
def letterEscape? : Char → Option Char
  | '"' => some '"'
  | '\\' => some '\\'
  | '/' => some '/'
  | 'b' => some '\x08'
  | 'f' => some '\x0c'
  | 'n' => some '\n'
  | 'r' => some '\r'
  | 't' => some '\t'
  | _ => none

/-- The code point of the code unit `n`, and what follows it: a high unit takes the low unit behind
it; a unit without its partner is a code point of its own. -/
def unitCode (n : Nat) (s : List Char) : Nat × List Char :=
  if 0xD800 ≤ n && n < 0xDC00 then
    match s with
    | '\\' :: 'u' :: t =>
      match hex4? t with
      | some (m, rest) =>
        if 0xDC00 ≤ m && m < 0xE000 then (0x10000 + (n - 0xD800) * 0x400 + (m - 0xDC00), rest) else (n, s)
      | none => (n, s)
    | _ => (n, s)
  else (n, s)

/-- The code points of a string behind its opening mark, of which `acc` are read, in reverse. -/
def string? : Nat → List Nat → List Char → Option (List Nat × List Char)
  | 0, _, _ => none
  | fuel + 1, acc, s =>
    match s with
    | [] => none
    | '"' :: rest => some (acc.reverse, rest)
    | '\\' :: 'u' :: t => do
      let (n, rest) ← hex4? t
      let (n, rest) := unitCode n rest
      string? fuel (n :: acc) rest
    | '\\' :: c :: t => (letterEscape? c).bind fun c => string? fuel (c.toNat :: acc) t
    | c :: t => if c.toNat < 0x20 || c == '\\' then none else string? fuel (c.toNat :: acc) t

/-- A number: its integer part without needless zeros, and a fraction or an exponent, which make it
a floating-point number. -/
def number? (s : List Char) : Option (Except ReadError Value × List Char) :=
  let (negative, t) := match s with
    | '-' :: t => (true, t)
    | t => (false, t)
  let whole := match t with
    | '0' :: _ => ['0']
    | t => t.takeWhile Char.isDigit
  if whole.isEmpty then none
  else
    let t := t.drop whole.length
    let fraction := match t with
      | '.' :: u => u.takeWhile Char.isDigit
      | _ => []
    let t := if fraction.isEmpty then t else t.drop (fraction.length + 1)
    let (mark, expNegative, u) := match t with
      | e :: '-' :: u => (e, true, u)
      | e :: '+' :: u => (e, false, u)
      | e :: u => (e, false, u)
      | [] => (' ', false, [])
    let power := if mark == 'e' || mark == 'E' then u.takeWhile Char.isDigit else []
    let rest := if power.isEmpty then t else u.drop power.length
    if fraction.isEmpty && power.isEmpty then
      if whole.length > Text.maxNumeralDigits then
        some (.error (.tooManyDigits whole.length), rest)
      else some (.ok (.int (if negative then -(Text.digitsValue whole : Int) else Text.digitsValue whole)), rest)
    else
      let e : Int := if expNegative then -(Text.digitsValue power : Int) else Text.digitsValue power
      let m := Text.digitsValue (whole ++ fraction)
      some (.ok (.float (Number.ofDecimal negative m (e - fraction.length))), rest)

/-- The value of a word that stands for one. -/
def words : List (String × Value) :=
  [("null", .null), ("true", .bool true), ("false", .bool false),
   ("NaN", .float (Float.ofBits 0x7FF8000000000000)),
   ("Infinity", .float (Float.ofBits 0x7FF0000000000000)),
   ("-Infinity", .float (Float.ofBits 0xFFF0000000000000))]

/-- The most levels of nested lists and mappings that a text may have. -/
def maxLevels : Nat := 985

mutual
/-- A value of at most `room` levels at the front of a text, and the rest. -/
def value : Nat → Nat → List Char → Except ReadError (Value × List Char)
  | 0, _, _ => .error .malformed
  | fuel + 1, room, s =>
    match s with
    | '"' :: t =>
      match string? (t.length + 1) [] t with
      | some (text, rest) => .ok (Value.ofCodes text, rest)
      | none => .error .malformed
    | '[' :: t =>
      if room = 0 then .error .tooDeep
      else
        match skipBlanks t with
        | ']' :: rest => .ok (.list [], rest)
        | t => (items fuel (room - 1) t).map fun (vs, rest) => (.list vs, rest)
    | '\x7b' :: t =>
      if room = 0 then .error .tooDeep
      else
        match skipBlanks t with
        | '\x7d' :: rest => .ok (.mapping [], rest)
        | t => (entries fuel (room - 1) t).map fun (es, rest) => (Value.ofEntries es, rest)
    | s =>
      match words.findSome? fun (w, v) => (w.toList.isPrefixOf? s).map (v, ·) with
      | some r => .ok r
      | none =>
        match number? s with
        | some (.ok v, rest) => .ok (v, rest)
        | some (.error e, _) => .error e
        | none => .error .malformed

/-- The items of a list up to and with its end. -/
def items : Nat → Nat → List Char → Except ReadError (List Value × List Char)
  | 0, _, _ => .error .malformed
  | fuel + 1, room, s => do
    let (v, rest) ← value fuel room s
    match skipBlanks rest with
    | ']' :: rest => .ok ([v], rest)
    | ',' :: rest => do
      let (vs, rest) ← items fuel room (skipBlanks rest)
      .ok (v :: vs, rest)
    | _ => .error .malformed

/-- The entries of a mapping up to and with its end. -/
def entries : Nat → Nat → List Char → Except ReadError (List (Value × Value) × List Char)
  | 0, _, _ => .error .malformed
  | fuel + 1, room, s =>
    match s with
    | '"' :: t =>
      match string? (t.length + 1) [] t with
      | none => .error .malformed
      | some (key, rest) =>
        match skipBlanks rest with
        | ':' :: rest => do
          let (v, rest) ← value fuel room (skipBlanks rest)
          match skipBlanks rest with
          | '\x7d' :: rest => .ok ([(Value.ofCodes key, v)], rest)
          | ',' :: rest => do
            let (es, rest) ← entries fuel room (skipBlanks rest)
            .ok ((Value.ofCodes key, v) :: es, rest)
          | _ => .error .malformed
        | _ => .error .malformed
    | _ => .error .malformed
end

/-- The value that a text stands for. -/
def read (s : String) : Except ReadError Value := do
  let cs := s.toList
  let (v, rest) ← value (2 * cs.length + 2) maxLevels (skipBlanks cs)
  if (skipBlanks rest).isEmpty then .ok v else .error .malformed

end Json

end ScriptService
