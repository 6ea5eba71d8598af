import ScriptService.Cursor.Token

/-!
# The call around a cursor

The name that is called at a cursor and which of its arguments the cursor is in, as far as the
cursor's line tells.
-/

namespace ScriptService

open Text

/-- A called name and the number of the argument at hand, counted from zero. -/
structure Call where
  label : String
  parameter : Nat
deriving DecidableEq

/-- The name at the end of a text, white space behind it left out. -/
def callee? (s : List Char) : Option (List Char) :=
  let name := tailRun isWord (trimRight s)
  if name.isEmpty then none else some name

/-- The text in front of the innermost parenthesis that is open at the end of a text, and how many
commas stand behind it on its own level. The text is given in reverse; `depth` parentheses were
closed and `commas` passed so far. -/
def openCall? (depth commas : Nat) : List Char → Option (List Char × Nat)
  | [] => none
  | c :: s =>
    if c == ')' then openCall? (depth + 1) commas s
    else if c == '(' then
      match depth with
      | 0 => some (s.reverse, commas)
      | d + 1 => openCall? d commas s
    else if c == ',' && depth == 0 then openCall? depth (commas + 1) s
    else openCall? depth commas s

/-- The call around a cursor in a line. -/
def callIn? (line : List Char) (character : Int) : Option Call := do
  let (before, commas) ← openCall? 0 0 (line.take character.toNat).reverse
  let name ← callee? before
  some ⟨String.ofList name, commas⟩

/-- The call around a cursor in a text. -/
def callAt? (text : String) (line character : Int) : Option Call := do
  let l ← lineAt? text.toList line
  callIn? l character

end ScriptService
