import ScriptService.Text.Codes
import ScriptService.Text.Decimal
import ScriptService.Text.Hex
import ScriptService.Yaml.Cursor

/-!
# Scalars of YAML

Plain, quoted and block scalars. Each reader gives the scalar's text and the place behind it. Quoted
scalars may name any code point, so theirs is a list of code points.
-/

namespace ScriptService.Yaml

open Text

/-! ## Plain scalars -/

/-- Whether a plain scalar ends at a character, given the one behind it. -/
def endsPlain (flow : Bool) (c d : Char) : Bool :=
  isGapOrEnd c ||
    (c == ':' && (isGapOrEnd d || (flow && ",[]\x7b\x7d".toList.contains d))) ||
    (flow && ",?[]\x7b\x7d".toList.contains c)

/-- The characters of a plain scalar up to the next white space or its end. -/
def plainRun (flow : Bool) : List Char → List Char
  | [] => []
  | c :: s => if endsPlain flow c (s.head?.getD '\x00') then [] else c :: plainRun flow s

/-- Line breaks and spaces behind a line break in a plain scalar; none when a document marker
stands at the start of a line. -/
def plainBreaks : Nat → Cursor → Option (List Char) × Cursor
  | 0, c => (none, c)
  | fuel + 1, c =>
    if c.peek == ' ' then plainBreaks fuel c.next
    else if isBreak c.peek then
      let (b, c) := c.lineBreak
      if c.atDocumentMarker then (none, c)
      else
        let (bs, c) := plainBreaks fuel c
        (bs.map (b ++ ·), c)
    else (some [], c)

/-- The white space behind a run of a plain scalar as it counts in the text, whether a line ended,
and the place behind it. -/
def plainSpaces (c : Cursor) : List Char × Bool × Cursor :=
  let (spaces, c) := c.takeRun (· == ' ')
  if isBreak c.peek then
    let (b, c) := c.lineBreak
    if c.atDocumentMarker then ([], true, c)
    else
      match plainBreaks (c.rest.length + 1) c with
      | (none, c) => ([], true, c)
      | (some bs, c) =>
        ((if b != ['\n'] then b else if bs.isEmpty then [' '] else []) ++ bs, true, c)
  else (spaces, false, c)

/-- A plain scalar behind `acc` and the white space `spaces`. The flag says whether a line ended
behind the last run. -/
def plainFrom (flow : Bool) (indent : Int) :
    Nat → List Char → List Char → Bool → Cursor → List Char × Bool × Cursor
  | 0, acc, _, broke, c => (acc, broke, c)
  | fuel + 1, acc, spaces, broke, c =>
    if c.peek == '#' then (acc, broke, c)
    else
      let run := plainRun flow c.rest
      if run.isEmpty then (acc, broke, c)
      else
        let acc := acc ++ spaces ++ run
        let (spaces, broke, c) := plainSpaces (c.advance run.length)
        if spaces.isEmpty || c.peek == '#' || (!flow && c.column < indent) then (acc, broke, c)
        else plainFrom flow indent fuel acc spaces broke c

/-- A plain scalar in a block that is indented by `indent`. -/
def plain (flow : Bool) (indent : Int) (c : Cursor) : List Char × Bool × Cursor :=
  plainFrom flow (indent + 1) (c.rest.length + 1) [] [] false c

/-! ## Quoted scalars -/

/-- The character of an escape that is one letter. -/
def letterEscape? (c : Char) : Option Char :=
  [('0', '\x00'), ('a', '\x07'), ('b', '\x08'), ('t', '\t'), ('\t', '\t'), ('n', '\n'), ('v', '\x0b'),
   ('f', '\x0c'), ('r', '\r'), ('e', '\x1b'), (' ', ' '), ('"', '"'), ('\\', '\\'), ('/', '/'),
   ('N', '\u0085'), ('_', '\u00a0'), ('L', '\u2028'), ('P', '\u2029')].lookup c

/-- How many digits follow the letter of a numeric escape. -/
def escapeWidth? (c : Char) : Option Nat :=
  [('x', 2), ('u', 4), ('U', 8)].lookup c

/-- The number that base-sixteen digits stand for. -/
def hexNumber? (ds : List Char) : Option Nat :=
  ds.foldlM (fun n c => (hexValue? c).map (n * 16 + ·)) 0

/-- Line breaks of a quoted scalar, with the white space around them. -/
def quotedBreaks : Nat → Cursor → Except ReadError (List Char × Cursor)
  | 0, _ => .error .malformed
  | fuel + 1, c =>
    if c.atDocumentMarker then .error (c.rejectAt 3)
    else
      let c := (c.takeRun fun ch => ch == ' ' || ch == '\t').2
      if isBreak c.peek then do
        let (b, c) := c.lineBreak
        let (bs, c) ← quotedBreaks fuel c
        .ok (b ++ bs, c)
      else .ok ([], c)

/-- White space of a quoted scalar: a single line break counts as a space. -/
def quotedSpaces (c : Cursor) : Except ReadError (List Char × Cursor) := do
  let (spaces, c) := c.takeRun fun ch => ch == ' ' || ch == '\t'
  if c.peek == '\x00' then .error c.reject
  else if isBreak c.peek then do
    let (b, c) := c.lineBreak
    let (bs, c) ← quotedBreaks (c.rest.length + 1) c
    .ok ((if b != ['\n'] then b else if bs.isEmpty then [' '] else []) ++ bs, c)
  else .ok (spaces, c)

/-- The last number that an escape can name at all; those beyond the last code point name nothing. -/
def maxEscape : Nat := 0x7FFFFFFF

/-- The code point that a number in an escape names. -/
def codePoint? (n : Nat) : Except ReadError Nat :=
  if n > maxEscape then .error .escapeTooLarge
  else if n > 0x10FFFF then .error (.noValue "chr() arg not in range(0x110000)")
  else .ok n

/-- An escape behind its backslash. -/
def escape (c : Cursor) : Except ReadError (List Nat × Cursor) :=
  match letterEscape? c.peek with
  | some ch => .ok ([ch.toNat], c.next)
  | none =>
    match escapeWidth? c.peek with
    | some width =>
      let digits := c.next.rest.take width
      match hexNumber? digits with
      | none => .error .malformed
      | some n =>
        if digits.length < width then .error .cutShort
        else (codePoint? n).map ([·], c.next.advance width)
    | none =>
      if isBreak c.peek then
        let c := c.lineBreak.2
        (quotedBreaks (c.rest.length + 1) c).map fun (s, c) => (codesOf s, c)
      else .error c.reject

/-- The rest of a quoted scalar behind `acc`, up to and with its closing mark. -/
def quotedFrom (mark : Char) : Nat → List Nat → Cursor → Except ReadError (List Nat × Cursor)
  | 0, _, _ => .error .malformed
  | fuel + 1, acc, c =>
    let (run, c) := c.takeRun fun ch => !isGapOrEnd ch && ch != '\'' && ch != '"' && ch != '\\'
    let acc := acc ++ codesOf run
    let ch := c.peek
    if mark == '\'' && ch == '\'' && c.peekAt 1 == '\'' then
      quotedFrom mark fuel (acc ++ [ch.toNat]) (c.advance 2)
    else if ch == mark then .ok (acc, c.next)
    else if mark == '"' && ch == '\\' then do
      let (s, c) ← escape c.next
      quotedFrom mark fuel (acc ++ s) c
    else if ch == '\'' || ch == '"' || ch == '\\' then quotedFrom mark fuel (acc ++ [ch.toNat]) c.next
    else do
      let (s, c) ← quotedSpaces c
      quotedFrom mark fuel (acc ++ codesOf s) c

/-- A quoted scalar. -/
def quoted (c : Cursor) : Except ReadError (List Nat × Cursor) :=
  quotedFrom c.peek (c.rest.length + 1) [] c.next

/-! ## Block scalars -/

/-- What becomes of the line breaks at the end of a block scalar. -/
inductive Chomping where
  | clip
  | strip
  | keep
deriving DecidableEq

/-- The mark of what becomes of the line breaks at the end. -/
def chomping? : Char → Option Chomping
  | '+' => some .keep
  | '-' => some .strip
  | _ => none

/-- The indentation that a block scalar's head gives. -/
def increment? (c : Char) : Except ReadError (Option Nat) :=
  if c == '0' then .error .malformed
  else .ok (if c.isDigit then some (c.toNat - 48) else none)

/-- A block scalar's head: what becomes of its end and how far it is indented, in either order. -/
def blockHead (c : Cursor) : Except ReadError (Chomping × Option Nat × Cursor) := do
  let (chomp, inc, c) ← match chomping? c.peek with
    | some chomp => do
      let c := c.next
      match ← increment? c.peek with
      | some n => pure (chomp, some n, c.next)
      | none => pure (chomp, none, c)
    | none => do
      match ← increment? c.peek with
      | some n =>
        let c := c.next
        match chomping? c.peek with
        | some chomp => pure (chomp, some n, c.next)
        | none => pure (.clip, some n, c)
      | none => pure (.clip, none, c)
  if isSpaceOrEnd c.peek then
    let c ← c.skipLineRest
    .ok (chomp, inc, c)
  else .error .malformed

/-- The empty lines at the start of a block scalar, and the widest indentation seen. -/
def blockIndentation : Nat → Nat → Cursor → List Char × Nat × Cursor
  | 0, widest, c => ([], widest, c)
  | fuel + 1, widest, c =>
    if c.peek == ' ' then
      let c := c.next
      blockIndentation fuel (max widest c.column) c
    else if isBreak c.peek then
      let (b, c) := c.lineBreak
      let (bs, widest, c) := blockIndentation fuel widest c
      (b ++ bs, widest, c)
    else ([], widest, c)

/-- The place behind spaces, up to a column. -/
def skipIndent (indent : Nat) (c : Cursor) : Cursor :=
  c.advance (min (indent - c.column) (c.rest.takeWhile (· == ' ')).length)

/-- Empty lines inside a block scalar, each as it counts in the text. -/
def blockBreaks (indent : Nat) : Nat → Cursor → List (List Char) × Cursor
  | 0, c => ([], c)
  | fuel + 1, c =>
    let c := skipIndent indent c
    if isBreak c.peek then
      let (b, c) := c.lineBreak
      let (bs, c) := blockBreaks indent fuel c
      (b :: bs, c)
    else ([], c)

/-- The lines of a block scalar behind `acc` and empty lines; at the end also the last line break and
the empty lines behind it. -/
def blockLines (folded : Bool) (indent : Nat) :
    Nat → List Char → List (List Char) → List Char → Cursor →
      List Char × List Char × List (List Char) × Cursor
  | 0, acc, breaks, last, c => (acc, last, breaks, c)
  | fuel + 1, acc, breaks, last, c =>
    if c.column == indent && c.peek != '\x00' then
      let acc := acc ++ breaks.flatten
      let solid := c.peek != ' ' && c.peek != '\t'
      let (line, c) := c.takeRun (!isBreakOrEnd ·)
      let acc := acc ++ line
      let (last, c) := c.lineBreak
      let (breaks, c) := blockBreaks indent (c.rest.length + 1) c
      if c.column == indent && c.peek != '\x00' then
        let join :=
          if folded && last == ['\n'] && solid && c.peek != ' ' && c.peek != '\t' then
            if breaks.isEmpty then [' '] else []
          else last
        blockLines folded indent fuel (acc ++ join) breaks last c
      else (acc, last, breaks, c)
    else (acc, last, breaks, c)

/-- A block scalar in a block that is indented by `indent`. -/
def block (folded : Bool) (indent : Int) (c : Cursor) : Except ReadError (List Char × Cursor) := do
  let (chomp, inc, c) ← blockHead c.next
  let least := (max (indent + 1) 1).toNat
  let (breaks, width, c) := match inc with
    | none =>
      let (bs, widest, c) := blockIndentation (c.rest.length + 1) 0 c
      ([bs], max least widest, c)
    | some n =>
      let width := least + n - 1
      let (bs, c) := blockBreaks width (c.rest.length + 1) c
      (bs, width, c)
  let (text, last, breaks, c) := blockLines folded width (c.rest.length + 1) [] breaks [] c
  let tail := match chomp with
    | .strip => []
    | .clip => last
    | .keep => last ++ breaks.flatten
  .ok (text ++ tail, c)

end ScriptService.Yaml
