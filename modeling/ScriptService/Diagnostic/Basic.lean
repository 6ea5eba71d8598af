/-!
# Diagnostics

What a compiler complains about, as it prints it and as an editor takes it. Compilers count lines
from one, editors from zero.
-/

namespace ScriptService

/-- How grave a complaint is. -/
inductive Severity where
  | error
  | warning
deriving DecidableEq

/-- The name of a severity. -/
def Severity.name : Severity → String
  | .error => "error"
  | .warning => "warning"

/-- The severity with a given name. -/
def Severity.ofName? (s : String) : Option Severity :=
  [error, warning].find? (·.name = s)

/-- The number by which editors know a severity. -/
def Severity.code : Severity → Nat
  | .error => 1
  | .warning => 2

/-- A complaint as a compiler prints it. -/
structure Complaint where
  file : String
  /-- Counted from one. -/
  line : Int
  columnStart : Int
  columnEnd : Int
  message : String
  severity : Severity
deriving DecidableEq

/-- The complaints of one compiler run. -/
structure Report where
  errors : List Complaint := []
  warnings : List Complaint := []
deriving DecidableEq

/-- Whether a compiler complained about nothing. -/
def Report.isEmpty (r : Report) : Bool :=
  r.errors.isEmpty && r.warnings.isEmpty

/-- All complaints, errors first. -/
def Report.all (r : Report) : List Complaint :=
  r.errors ++ r.warnings

/-- A position in a document, counted from zero. -/
structure Position where
  line : Int
  character : Int
deriving DecidableEq

/-- A complaint as an editor takes it. -/
structure Diagnostic where
  start : Position
  stop : Position
  message : String
  severity : Severity
deriving DecidableEq

/-- Who an editor names as the source of diagnostics. -/
def Diagnostic.source : String := "BGforge MLS"

/-- A complaint for an editor. -/
def Complaint.diagnostic (c : Complaint) : Diagnostic where
  start := ⟨c.line - 1, c.columnStart⟩
  stop := ⟨c.line - 1, c.columnEnd⟩
  message := c.message
  severity := c.severity

/-- All complaints for an editor, errors first. -/
def Report.diagnostics (r : Report) : List Diagnostic :=
  r.all.map Complaint.diagnostic

end ScriptService
