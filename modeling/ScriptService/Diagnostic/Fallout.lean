import ScriptService.Cursor.Line
import ScriptService.Diagnostic.Basic
import ScriptService.Scan.Lexeme
import ScriptService.Scan.Pattern
import ScriptService.Text.Blank
import ScriptService.Text.Decimal

/-!
# Output of the Fallout compiler

A complaint is a line such as

    [Error] <Semantic> <script.ssl>:26:25: Unknown identifier
    [Warning] <Optimizer> <script.ssl>:30:: Unused variable

whose category and column may be missing. A line whose numbers cannot be read is passed over.
-/

namespace ScriptService.Fallout

open Text Scan

/-- A complaint as it stands in the output, with its numerals. -/
structure Printed where
  file : List Char
  line : List Char
  column : List Char
  message : List Char

/-- A text between angle brackets on one line. -/
def bracketed? (s : List Char) : Option (List Char × List Char) := do
  let s ← word? "<" s
  let rest ← word? ">" (s.dropWhile fun c => c != '>' && c != '\n')
  some (s.takeWhile fun c => c != '>' && c != '\n', rest)

/-- A place with its message, `<file>:line:column: message`, where the column and its colon may be missing. -/
def place? (s : List Char) : Option (Printed × List Char) := do
  let (file, s) ← bracketed? s
  if file.isEmpty then none
  else
    let s ← word? ":" s
    let line := s.takeWhile isDecimal
    let s ← word? ":" (s.dropWhile isDecimal)
    let column := s.takeWhile isDecimal
    let s := s.dropWhile isDecimal
    let s := ((word? ":" s).getD s).dropWhile isGap
    some (⟨file, line, column, s.takeWhile (· != '\n')⟩, s.dropWhile (· != '\n'))

/-- A category in angle brackets with a gap behind it. -/
def category? (s : List Char) : Option (List Char) := do
  let (_, s) ← bracketed? s
  let (_, s) ← run? isGap s
  some s

/-- A complaint of one severity, marked by a word in square brackets. -/
def complaint (mark : String) : Pattern Printed := fun _ s => do
  let s ← word? mark s
  let (_, s) ← run? isGap s
  ((category? s).bind place?) <|> place? s

/-- How the severities are marked. -/
def mark : Severity → String
  | .error => "[Error]"
  | .warning => "[Warning]"

/-- An error starts at the start of its line and ends in front of the printed column. -/
def error? (p : Printed) : Option Complaint := do
  let column ← if p.column.isEmpty then some 1 else numeral? p.column
  let line ← numeral? p.line
  some { file := String.ofList p.file, line, columnStart := 0, columnEnd := (column - 1 : Nat)
         message := String.ofList (trimRight p.message), severity := .error }

/-- A warning starts at the printed column. With the document at hand it ends in front of the offset
at which the next line starts. -/
def warning? (offsets : Option LineOffsets) (p : Printed) : Option Complaint := do
  let line ← numeral? p.line
  let column ← if p.column.isEmpty then some 0 else numeral? p.column
  let columnEnd := match offsets with
    | some o => max (o.offsetAt line 0 - 1) 0
    | none => column
  some { file := String.ofList p.file, line, columnStart := column, columnEnd
         message := String.ofList (trimRight p.message), severity := .warning }

/-- The complaints in the compiler's output, given the compiled document if it is at hand. -/
def report (output : String) (document : Option String) : Report :=
  let offsets := document.map fun d => LineOffsets.ofText d.toList
  { errors := ((complaint (mark .error)).scan output.toList).filterMap (error? ·.value)
    warnings := ((complaint (mark .warning)).scan output.toList).filterMap (warning? offsets ·.value) }

end ScriptService.Fallout
