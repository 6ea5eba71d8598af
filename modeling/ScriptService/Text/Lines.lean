/-!
# Lines

Three ways to cut a text into lines are in use: at every line boundary of any script (`textLines`,
for comments), at `\n` and `\r\n` (`documentLines`, for editor positions), and by counting `\n`
(`lineBreaks`, for declarations). Reading a file turns `\r\n` and `\r` into `\n` first
(`unifyNewlines`).
-/

namespace ScriptService.Text

/-- Characters that end a line on their own. -/
def isLineBoundary (c : Char) : Bool :=
  c == '\n' || c == '\r' || c == '\x0b' || c == '\x0c' || c == '\x1c' || c == '\x1d' || c == '\x1e' ||
    c == '\u0085' || c == '\u2028' || c == '\u2029'

/-- The lines of a text that continues the line `cur`, whose characters are in reverse. -/
def textLinesFrom : List Char → List Char → List (List Char)
  | cur, [] => if cur.isEmpty then [] else [cur.reverse]
  | cur, '\r' :: '\n' :: s => cur.reverse :: textLinesFrom [] s
  | cur, c :: s =>
    if isLineBoundary c then cur.reverse :: textLinesFrom [] s else textLinesFrom (c :: cur) s

/-- The lines of a text, cut at every line boundary. A boundary at the end of the text starts no
further line. -/
def textLines (s : List Char) : List (List Char) :=
  textLinesFrom [] s

/-- The lines of a document that continues the line `cur`, whose characters are in reverse. -/
def documentLinesFrom : List Char → List Char → List (List Char)
  | cur, [] => [cur.reverse]
  | cur, '\r' :: '\n' :: s => cur.reverse :: documentLinesFrom [] s
  | cur, c :: s => if c == '\n' then cur.reverse :: documentLinesFrom [] s
    else documentLinesFrom (c :: cur) s

/-- The lines of a document, cut at `\n` and `\r\n`; there is always at least one. -/
def documentLines (s : List Char) : List (List Char) :=
  documentLinesFrom [] s

/-- How many `\n` a text holds. -/
def lineBreaks (s : List Char) : Nat :=
  s.count '\n'

/-- A text with `\r\n` and `\r` replaced by `\n`. -/
def unifyNewlines : List Char → List Char
  | [] => []
  | '\r' :: '\n' :: s => '\n' :: unifyNewlines s
  | c :: s => (if c == '\r' then '\n' else c) :: unifyNewlines s

end ScriptService.Text
