import ScriptService.Text.CodeSet

/-!
# Blank characters

White space of every script, line and paragraph breaks and the four information separators. Trimming
and splitting into words go by this class.
-/

namespace ScriptService.Text

/-- White space and breaks. -/
def blankSet : CodeSet := ⟨[
    9, 5, 14, 5, 100, 1, 26, 1, 5599, 1, 2431, 11, 29, 2, 5, 1, 47, 1, 4000, 1]⟩

/-- Whether a character is white space. -/
def isBlank (c : Char) : Bool :=
  blankSet.contains c

/-- A space or a tab. -/
def isGap (c : Char) : Bool :=
  c == ' ' || c == '\t'

/-- A text without its leading white space. -/
def trimLeft (s : List Char) : List Char :=
  s.dropWhile isBlank

/-- A text without its trailing white space. -/
def trimRight (s : List Char) : List Char :=
  (s.reverse.dropWhile isBlank).reverse

/-- A text without its leading and trailing white space. -/
def trim (s : List Char) : List Char :=
  trimRight (trimLeft s)

/-- The words of a text that continues the word `cur`, whose characters are in reverse. -/
def wordsFrom : List Char → List Char → List (List Char)
  | cur, [] => if cur.isEmpty then [] else [cur.reverse]
  | cur, c :: s =>
    if isBlank c then
      if cur.isEmpty then wordsFrom [] s else cur.reverse :: wordsFrom [] s
    else wordsFrom (c :: cur) s

/-- The words of a text: its longest runs without white space. -/
def words (s : List Char) : List (List Char) :=
  wordsFrom [] s

/-- The first word of a text, and what follows it from the next word on. -/
def firstWord? (s : List Char) : Option (List Char × List Char) :=
  let t := trimLeft s
  if t.isEmpty then none
  else some (t.takeWhile (!isBlank ·), trimLeft (t.dropWhile (!isBlank ·)))

/-- The words of a text with one space between them. -/
def collapse (s : List Char) : List Char :=
  [' '].intercalate (words s)

end ScriptService.Text
