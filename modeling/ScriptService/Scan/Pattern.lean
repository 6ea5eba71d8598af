/-!
# Patterns and the scan of a text

A pattern looks at one place of a text. A scan tries it at each place in turn, from the start on:
after a match the search goes on behind it, or one character further when the match is empty. The
place behind the last character is tried as well, so a pattern of empty text matches there too.
-/

namespace ScriptService.Scan

/-- A recogniser at one place of a text: given the character before that place and the text from
there on, what it finds and the text behind the match. -/
abbrev Pattern (α : Type) := Option Char → List Char → Option (α × List Char)

/-- A match: where it starts, how long it is, and what was found. -/
structure Match (α : Type) where
  start : Nat
  length : Nat
  value : α

/-- Where a match ends. -/
def Match.stop {α : Type} (m : Match α) : Nat :=
  m.start + m.length

/-- The match of a pattern at one place, `pos` characters from the start of the text. -/
def Pattern.at? {α : Type} (p : Pattern α) (before : Option Char) (pos : Nat) (s : List Char) :
    Option (Match α) :=
  (p before s).map fun (a, rest) => ⟨pos, s.length - rest.length, a⟩

/-- The matches in the text from position `pos` on, of which the first `skip` characters belong to
an earlier match. -/
def Pattern.scanFrom {α : Type} (p : Pattern α) (before : Option Char) (pos skip : Nat) :
    List Char → List (Match α)
  | [] => if skip = 0 then (p.at? before pos []).toList else []
  | c :: s =>
    match skip with
    | k + 1 => scanFrom p (some c) (pos + 1) k s
    | 0 =>
      match p.at? before pos (c :: s) with
      | none => scanFrom p (some c) (pos + 1) 0 s
      | some m => m :: scanFrom p (some c) (pos + 1) (m.length - 1) s

/-- The matches of a pattern in a text: leftmost first, without overlap. -/
def Pattern.scan {α : Type} (p : Pattern α) (text : List Char) : List (Match α) :=
  p.scanFrom none 0 0 text

end ScriptService.Scan
