import ScriptService.Cursor.Line
import ScriptService.Text.Blank
import ScriptService.Text.Decimal
import ScriptService.Text.Word

/-!
# The token at a cursor

The word at a cursor, or the whole run without blanks around it when the word is a number.
-/

namespace ScriptService

open Text

/-- The longest run at the end of a text of characters of a class. -/
def tailRun (p : Char → Bool) (s : List Char) : List Char :=
  (s.reverse.takeWhile p).reverse

/-- The run of characters of a class that holds the character at a cursor, or that ends the line when
the cursor stands behind it. -/
def runAt? (p : Char → Bool) (line : List Char) (character : Nat) : Option (List Char) :=
  let left := tailRun p (line.take (character + 1))
  if left.isEmpty then none else some (left ++ (line.drop (character + 1)).takeWhile p)

/-- The last column that a search can start from. -/
def maxColumn : Nat := 9223372036854775807

/-- Why no token can be looked for. -/
inductive CursorError where
  /-- The cursor stands behind its line, in a column that no search can start from. -/
  | columnTooLarge
deriving DecidableEq

/-- The run at a cursor. Its end is searched for from the cursor on, once its start is found. -/
def searchRun? (p : Char → Bool) (line : List Char) (character : Nat) :
    Except CursorError (Option (List Char)) :=
  match runAt? p line character with
  | none => .ok none
  | some run =>
    if line.length ≤ character && maxColumn < character then .error .columnTooLarge else .ok (some run)

/-- The token of a line at a cursor. -/
def tokenAt? (line : List Char) (character : Nat) : Except CursorError (Option (List Char)) := do
  match ← searchRun? isWord line character with
  | none => .ok none
  | some word =>
    if word.all isDecimal then .ok ((← searchRun? (!isBlank ·) line character).or (some word))
    else .ok (some word)

/-- The token of a text at a cursor. -/
def symbolAt? (text : String) (line character : Int) : Except CursorError (Option String) :=
  match lineAt? text.toList line with
  | none => .ok none
  | some l =>
    if character < 0 then .ok none else (tokenAt? l character.toNat).map (·.map String.ofList)

end ScriptService
