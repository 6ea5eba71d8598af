import ScriptService.Text.Word

/-!
# Pieces of patterns

Each piece takes something from the front of a text and gives back the rest.
-/

namespace ScriptService.Scan

open Text

/-- The text behind a fixed word. -/
def word? (w : String) (s : List Char) : Option (List Char) :=
  w.toList.isPrefixOf? s

/-- The longest run of characters of a class, if it is not empty. -/
def run? (p : Char → Bool) (s : List Char) : Option (List Char × List Char) :=
  if (s.takeWhile p).isEmpty then none else some (s.takeWhile p, s.dropWhile p)

/-- The text up to a character and the text behind that character. -/
def upTo? (stop : Char) : List Char → Option (List Char × List Char)
  | [] => none
  | c :: s => if c == stop then some ([], s) else (upTo? stop s).map fun (t, rest) => (c :: t, rest)

/-- The text behind one `\n` or `\r\n`. -/
def newline? : List Char → Option (List Char)
  | '\n' :: s => some s
  | '\r' :: '\n' :: s => some s
  | _ => none

/-- Whether a word character stands at the front. -/
def startsWord (s : List Char) : Bool :=
  s.head?.any isWord

/-- Whether a place with these characters around it lies between a word character and another or
none. -/
def isWordEdge (before : Option Char) (s : List Char) : Bool :=
  before.any isWord != startsWord s

end ScriptService.Scan
