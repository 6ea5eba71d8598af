import ScriptService.Text.Hex

/-!
# Writing YAML scalars

A pen keeps the text written so far and where it stands. Scalars are written plainly, in single or
in double quotation marks. A line that passes the eightieth column is folded at the next single
space, or in double quotation marks also behind an escape.
-/

namespace ScriptService.Yaml

open Text

/-- What is written, and where the pen stands. -/
structure Pen where
  /-- The text so far, in reverse. -/
  written : List Char := []
  column : Nat := 0
  /-- Whether a blank or a line's start is behind the pen. -/
  spaced : Bool := true
  /-- Whether only indentation and markers stand on the line. -/
  leading : Bool := true

/-- The column behind which lines are folded. -/
def lineWidth : Nat := 80

/-- Characters that end a line in a scalar that is written. -/
def isScalarBreak (c : Char) : Bool :=
  c == '\n' || c == '\u0085' || c == '\u2028' || c == '\u2029'

namespace Pen

/-- Writes characters of one line. -/
def put (cs : List Char) (p : Pen) : Pen :=
  { p with written := cs.reverse ++ p.written, column := p.column + cs.length }

/-- Ends the line with a character. -/
def endLine (c : Char) (p : Pen) : Pen :=
  ⟨c :: p.written, 0, true, true⟩

/-- Goes to an indentation, on a new line if the line at hand is past it. -/
def toIndent (indent : Nat) (p : Pen) : Pen :=
  let p := if !p.leading || p.column > indent || (p.column = indent && !p.spaced) then
      p.endLine '\n' else p
  if p.column < indent then
    { p.put (List.replicate (indent - p.column) ' ') with spaced := true } else p

/-- Writes a marker, apart from what stands before it if so asked. -/
def mark (s : String) (apart leads : Bool) (p : Pen) : Pen :=
  let p' := p.put (if p.spaced || !apart then s.toList else ' ' :: s.toList)
  { p' with spaced := false, leading := p.leading && leads }

/-- Starts what counts as text. -/
def asText (p : Pen) : Pen :=
  { p with spaced := false, leading := false }

end Pen

/-- What a run of characters of a scalar is. -/
inductive RunClass where
  | spaces
  | breaks
  | other
deriving DecidableEq

/-- The class of a character. -/
def RunClass.ofChar (c : Char) : RunClass :=
  if c == ' ' then .spaces else if isScalarBreak c then .breaks else .other

/-- The longest runs of one class. -/
def runs : List Char → List (List Char)
  | [] => []
  | c :: s =>
    match runs s with
    | (d :: r) :: rs => if RunClass.ofChar c = RunClass.ofChar d then (c :: d :: r) :: rs
      else [c] :: (d :: r) :: rs
    | rs => [c] :: rs

/-- Writes a scalar as it stands. -/
def Pen.plain (indent : Nat) (folds : Bool) (s : List Char) (p : Pen) : Pen :=
  if s.isEmpty then p
  else
    let p := (if p.spaced then p else p.put [' ']).asText
    (runs s).foldl (fun p run =>
      if run = [' '] && p.column > lineWidth && folds then (p.toIndent indent).asText
      else p.put run) p

/-- Writes a run of line breaks inside single quotation marks: the first of them once more, since
one break alone reads as a space. -/
def Pen.breaks (indent : Nat) (run : List Char) (p : Pen) : Pen :=
  let p := if run.head? == some '\n' then p.endLine '\n' else p
  (run.foldl (fun p c => p.endLine c) p).toIndent indent

/-- Writes the runs of a scalar inside single quotation marks; `first` for the first of them. -/
def Pen.singleRuns (indent : Nat) (folds : Bool) : Bool → List (List Char) → Pen → Pen
  | _, [], p => p
  | first, run :: rest, p =>
    let p := match RunClass.ofChar (run.headD 'x') with
      | .spaces =>
        if run = [' '] && p.column > lineWidth && folds && !first && !rest.isEmpty then
          p.toIndent indent
        else p.put run
      | .breaks => p.breaks indent run
      | .other => p.put (run.flatMap fun c => if c == '\'' then ['\'', '\''] else [c])
    singleRuns indent folds false rest p

/-- Writes a scalar in single quotation marks. -/
def Pen.single (indent : Nat) (folds : Bool) (s : List Char) (p : Pen) : Pen :=
  (singleRuns indent folds true (runs s) (p.mark "'" true false)).mark "'" false false

/-- The letters of escapes that are one letter. -/
def escapeLetters : List (Char × Char) :=
  [('\x00', '0'), ('\x07', 'a'), ('\x08', 'b'), ('\t', 't'), ('\n', 'n'), ('\x0b', 'v'), ('\x0c', 'f'),
   ('\r', 'r'), ('\x1b', 'e'), ('"', '"'), ('\\', '\\'), ('\u0085', 'N'), ('\u00a0', '_'),
   ('\u2028', 'L'), ('\u2029', 'P')]

/-- The escape of a character inside double quotation marks; none if it stands for itself. -/
def escape? (c : Char) : Option (List Char) :=
  match escapeLetters.lookup c with
  | some l => some ['\\', l]
  | none =>
    if ' ' ≤ c && c ≤ '~' then none
    else if c.toNat ≤ 0xFF then some ('\\' :: 'x' :: hexCapitals 2 c.toNat)
    else if c.toNat ≤ 0xFFFF then some ('\\' :: 'u' :: hexCapitals 4 c.toNat)
    else some ('\\' :: 'U' :: hexCapitals 8 c.toNat)

/-- Folds the line inside double quotation marks, in front of `next`. -/
def Pen.foldDouble (indent : Nat) (next : Char) (p : Pen) : Pen :=
  let p := ((p.put ['\\']).toIndent indent).asText
  if next == ' ' then p.put ['\\'] else p

/-- Writes the characters of a scalar inside double quotation marks, of which `held` are not yet
written, in reverse; `first` for the first of them. -/
def Pen.doubleFrom (indent : Nat) (folds : Bool) : Bool → List Char → List Char → Pen → Pen
  | _, held, [], p => p.put held.reverse
  | first, held, c :: s, p =>
    let inside := !first && !s.isEmpty
    match escape? c with
    | some e =>
      let p := (p.put held.reverse).put e
      let p := if inside && p.column > lineWidth + 1 && folds then
          p.foldDouble indent (s.headD 'x') else p
      doubleFrom indent folds false [] s p
    | none =>
      if inside && (c == ' ' || held.isEmpty) && p.column + held.length > lineWidth && folds then
        doubleFrom indent folds false [c] s ((p.put held.reverse).foldDouble indent c)
      else doubleFrom indent folds false (c :: held) s p

/-- Writes a scalar in double quotation marks. -/
def Pen.double (indent : Nat) (folds : Bool) (s : List Char) (p : Pen) : Pen :=
  (doubleFrom indent folds true [] s (p.mark "\"" true false)).mark "\"" false false

end ScriptService.Yaml
