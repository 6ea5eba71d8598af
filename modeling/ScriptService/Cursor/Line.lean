import ScriptService.Text.Lines

/-!
# Lines by number

Lines of a document by number, the line of an offset, and the offset of a position.
-/

namespace ScriptService

open Text

/-- The line of a document with a given number, counted from zero. -/
def lineAt? (text : List Char) (line : Int) : Option (List Char) :=
  if line < 0 then none else (documentLines text)[line.toNat]?

/-- How many line breaks stand in front of an offset; a negative offset counts from the end. -/
def lineOfOffset (text : List Char) (offset : Int) : Nat :=
  lineBreaks (text.take (if offset < 0 then offset + text.length else offset).toNat)

/-- Where the lines of a text start. -/
structure LineOffsets where
  length : Nat
  starts : List Nat

/-- The offsets behind the line breaks of a text that starts at `pos`; a line ends at `\r\n`, `\r` or
`\n`. -/
def LineOffsets.breaksFrom (pos : Nat) : List Char → List Nat
  | [] => []
  | '\r' :: '\n' :: s => (pos + 2) :: breaksFrom (pos + 2) s
  | c :: s =>
    if c == '\r' || c == '\n' then (pos + 1) :: breaksFrom (pos + 1) s else breaksFrom (pos + 1) s

/-- Where the lines of a text start. -/
def LineOffsets.ofText (text : List Char) : LineOffsets :=
  ⟨text.length, 0 :: LineOffsets.breaksFrom 0 text⟩

/-- How many lines there are. -/
def LineOffsets.lineCount (o : LineOffsets) : Nat :=
  o.starts.length

/-- The offset of a position. Lines behind the last one are at the end of the text, lines in front of
the first at its start. -/
def LineOffsets.offsetAt (o : LineOffsets) (line character : Int) : Int :=
  if line < 0 then 0
  else match o.starts[line.toNat]? with
    | none => o.length
    | some start => min (start + character) o.length

end ScriptService
