import ScriptService.Diagnostic.Basic
import ScriptService.Scan.Lexeme
import ScriptService.Scan.Pattern
import ScriptService.Text.Blank
import ScriptService.Text.Decimal

/-!
# Output of WeiDU

A complaint is a line, with or without a second one that shows the text nearby:

    [setup.tp2] PARSE ERROR at line 30 column 1-63
    Near Text: BEGIN
-/

namespace ScriptService.Weidu

open Text Scan

/-- A complaint as it stands in the output, with its numerals. -/
structure Printed where
  file : List Char
  parseError : Bool
  line : List Char
  columnStart : List Char
  columnEnd : List Char
  near : List Char

/-- The text behind the words `Near Text:` at the start of the next line, and the rest. -/
def near? (s : List Char) : Option (List Char × List Char) := do
  let s ← newline? s
  let s ← word? "Near Text:" s
  let s := s.dropWhile isGap
  some (s.takeWhile (· != '\n'), s.dropWhile (· != '\n'))

/-- What is wrong: whether it is a parse error. -/
def kind? (s : List Char) : Option (Bool × List Char) :=
  ((word? "PARSE ERROR" s).map (true, ·)) <|> ((word? "ERROR" s).map (false, ·))

/-- A complaint, `[file] ERROR at line l column a-b`, and perhaps the text nearby. -/
def complaint : Pattern Printed := fun _ s => do
  let s ← word? "[" s
  let (file, s) ← run? (fun c => c != ']' && c != '\n') s
  let s ← word? "]" s
  let (_, s) ← run? isGap s
  let (parseError, s) ← kind? s
  let s ← word? " at line " s
  let (line, s) ← run? isDecimal s
  let s ← word? " column " s
  let (columnStart, s) ← run? isDecimal s
  let s ← word? "-" s
  let (columnEnd, s) ← run? isDecimal s
  let (near, rest) := (near? s).getD ([], s)
  some (⟨file, parseError, line, columnStart, columnEnd, near⟩, rest)

/-- A complaint, unless a number cannot be read. -/
def error? (p : Printed) : Option Complaint := do
  let near := trim p.near
  let line ← numeral? p.line
  let columnStart ← numeral? p.columnStart
  let columnEnd ← numeral? p.columnEnd
  some { file := String.ofList p.file, line, columnStart := (columnStart : Int) - 1, columnEnd
         message := (if p.parseError then "Parse error" else "Error") ++
           (if near.isEmpty then "" else ", near text: " ++ String.ofList near)
         severity := .error }

/-- The complaints in WeiDU's output. -/
def report (output : String) : Report :=
  { errors := (complaint.scan output.toList).filterMap (error? ·.value) }

end ScriptService.Weidu
