import ScriptService.Value.ReadError

/-!
# A place in a YAML text

The text from a place on, with the place's line and column. Lines end at `\n`, `\r`, `\r\n` and at
the next-line, line-separator and paragraph-separator characters. Behind the end of the text stand
null characters, which no YAML text holds.
-/

namespace ScriptService.Yaml

/-- A place in a text. -/
structure Cursor where
  rest : List Char
  index : Nat
  line : Nat
  column : Nat

/-- Characters that end a line. -/
def isBreak (c : Char) : Bool :=
  c == '\n' || c == '\r' || c == '\u0085' || c == '\u2028' || c == '\u2029'

/-- Whether a line or the text ends here. -/
def isBreakOrEnd (c : Char) : Bool :=
  isBreak c || c == '\x00'

/-- Whether a space, a line's end or the text's end is here. -/
def isSpaceOrEnd (c : Char) : Bool :=
  isBreakOrEnd c || c == ' '

/-- Whether a space, a tab, a line's end or the text's end is here. -/
def isGapOrEnd (c : Char) : Bool :=
  isSpaceOrEnd c || c == '\t'

/-- Characters of anchors and of tag handles. -/
def isNameChar (c : Char) : Bool :=
  c.isAlphanum || c == '-' || c == '_'

namespace Cursor

/-- The character some places ahead. -/
def peekAt (c : Cursor) (k : Nat) : Char :=
  (c.rest.drop k).head?.getD '\x00'

/-- The character here. -/
def peek (c : Cursor) : Char :=
  c.rest.head?.getD '\x00'

/-- Why the text makes no sense some places ahead: it ends before, or goes on in a wrong way. -/
def rejectAt (c : Cursor) (k : Nat) : ReadError :=
  if (c.rest.drop k).isEmpty then .cutShort else .malformed

/-- Why the text makes no sense here. -/
def reject (c : Cursor) : ReadError :=
  c.rejectAt 0

/-- The place behind the character here. -/
def next (c : Cursor) : Cursor :=
  match c.rest with
  | [] => c
  | ch :: r =>
    if (isBreak ch && ch != '\r') || (ch == '\r' && r.head? != some '\n') then
      ⟨r, c.index + 1, c.line + 1, 0⟩
    else ⟨r, c.index + 1, c.line, if ch == '\uFEFF' then c.column else c.column + 1⟩

/-- The place some characters ahead. -/
def advance : Nat → Cursor → Cursor
  | 0, c => c
  | k + 1, c => advance k c.next

/-- The longest run here of characters of a class, and the place behind it. -/
def takeRun (p : Char → Bool) (c : Cursor) : List Char × Cursor :=
  let run := c.rest.takeWhile p
  (run, c.advance run.length)

/-- The place behind spaces. -/
def skipSpaces (c : Cursor) : Cursor :=
  (c.takeRun (· == ' ')).2

/-- The line break here as it counts in a text, and the place behind it; nothing if there is none. -/
def lineBreak (c : Cursor) : List Char × Cursor :=
  if c.peek == '\r' && c.peekAt 1 == '\n' then (['\n'], c.advance 2)
  else if c.peek == '\r' || c.peek == '\n' || c.peek == '\u0085' then (['\n'], c.next)
  else if isBreak c.peek then ([c.peek], c.next)
  else ([], c)

/-- Whether a marker of three characters stands here as a word of its own. -/
def atMarker (c : Cursor) (ch : Char) : Bool :=
  c.rest.take 3 == [ch, ch, ch] && isGapOrEnd (c.peekAt 3)

/-- Whether a document's start or end is marked here. -/
def atDocumentMarker (c : Cursor) : Bool :=
  c.atMarker '-' || c.atMarker '.'

/-- The place behind spaces and a comment, if nothing else is left on the line. -/
def skipLineRest (c : Cursor) : Except ReadError Cursor :=
  let c := c.skipSpaces
  let c := if c.peek == '#' then (c.takeRun (!isBreakOrEnd ·)).2 else c
  if isBreakOrEnd c.peek then .ok c.lineBreak.2 else .error .malformed

end Cursor

end ScriptService.Yaml
