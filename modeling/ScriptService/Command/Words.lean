/-!
# Command lines and their words

A command line is cut into words at blanks. Quotation marks hold a word together, a backslash takes
the next character as it is; between double marks it does so only in front of another backslash or
such a mark. `quote` writes a word so that cutting gives it back.
-/

namespace ScriptService.Words

/-- Why a command line has no words. -/
inductive Error where
  | noClosingQuotation
  | noEscapedCharacter
deriving DecidableEq

/-- What an error says. -/
def Error.message : Error → String
  | .noClosingQuotation => "No closing quotation"
  | .noEscapedCharacter => "No escaped character"

/-- Where a place in a command line lies. -/
inductive Mode where
  | between
  | word
  | quoted (mark : Char)
  | escaped (inQuotes : Bool)
deriving DecidableEq

/-- Characters between words. -/
def isSeparator (c : Char) : Bool :=
  c == ' ' || c == '\t' || c == '\r' || c == '\n'

/-- Quotation marks. -/
def isMark (c : Char) : Bool :=
  c == '\'' || c == '"'

/-- The words of a command line that goes on in a mode, with the word at hand in reverse. -/
def splitFrom : Mode → List Char → List Char → Except Error (List (List Char))
  | .between, _, [] => .ok []
  | .word, cur, [] => .ok [cur.reverse]
  | .quoted _, _, [] => .error .noClosingQuotation
  | .escaped _, _, [] => .error .noEscapedCharacter
  | .between, _, c :: s =>
    if isSeparator c then splitFrom .between [] s
    else if c == '\\' then splitFrom (.escaped false) [] s
    else if isMark c then splitFrom (.quoted c) [] s
    else splitFrom .word [c] s
  | .word, cur, c :: s =>
    if isSeparator c then (splitFrom .between [] s).map (cur.reverse :: ·)
    else if c == '\\' then splitFrom (.escaped false) cur s
    else if isMark c then splitFrom (.quoted c) cur s
    else splitFrom .word (c :: cur) s
  | .quoted mark, cur, c :: s =>
    if c == mark then splitFrom .word cur s
    else if c == '\\' && mark == '"' then splitFrom (.escaped true) cur s
    else splitFrom (.quoted mark) (c :: cur) s
  | .escaped false, cur, c :: s => splitFrom .word (c :: cur) s
  | .escaped true, cur, c :: s =>
    if c == '\\' || c == '"' then splitFrom (.quoted '"') (c :: cur) s
    else splitFrom (.quoted '"') (c :: '\\' :: cur) s

/-- The words of a command line. -/
def split (s : String) : Except Error (List String) :=
  (splitFrom .between [] s.toList).map (·.map String.ofList)

/-- Characters that stand for themselves everywhere in a command line. -/
def isPlain (c : Char) : Bool :=
  c.isAlphanum || "_@%+=:,./-".toList.contains c

/-- A character between single quotation marks; such a mark itself steps out of them. -/
def quoteChar (c : Char) : List Char :=
  if c == '\'' then "'\"'\"'".toList else [c]

/-- A word as it is written in a command line. -/
def quote (s : String) : String :=
  let cs := s.toList
  if cs.isEmpty then "''"
  else if cs.all isPlain then s
  else String.ofList ('\'' :: cs.flatMap quoteChar ++ ['\''])

end ScriptService.Words
