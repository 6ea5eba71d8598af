import Mathlib.Tactic.MkIffOfInductiveProp
import ScriptService.Diagnostic.Fallout
import ScriptService.Diagnostic.Weidu

/-!
# Ranges of diagnostics

An editor takes a range that lies on one line, starts at no negative place and ends
no earlier than it starts (`Diagnostic.IsRange`). Lines and columns are shifted from
the numbers that a compiler printed, each kind of complaint in its own way, and
only the end of an error and the end of a warning are kept from becoming negative. So
whether a diagnostic has a range depends on the numbers printed
(`diagnostics_isRange_iff`): a line 0 or a column 0 of WeiDU's loses it
(`firstColumn_not_isRange`), and so does a warning behind the end of its document.
-/

namespace ScriptService

open Text Scan

/-- A range that an editor takes. -/
@[mk_iff]
structure Diagnostic.IsRange (d : Diagnostic) : Prop where
  line_eq : d.start.line = d.stop.line
  line_nonneg : 0 ≤ d.start.line
  start_nonneg : 0 ≤ d.start.character
  start_le : d.start.character ≤ d.stop.character

instance : DecidablePred Diagnostic.IsRange := fun d => decidable_of_iff' _ (d.isRange_iff)

theorem Complaint.isRange_iff (c : Complaint) :
    c.diagnostic.IsRange ↔ 1 ≤ c.line ∧ 0 ≤ c.columnStart ∧ c.columnStart ≤ c.columnEnd := by
  rw [Diagnostic.isRange_iff, diagnostic]
  constructor
  · rintro ⟨-, hline, hstart, hle⟩
    exact ⟨Int.sub_nonneg.mp hline, hstart, hle⟩
  · rintro ⟨hline, hstart, hle⟩
    exact ⟨rfl, Int.sub_nonneg.mpr hline, hstart, hle⟩

/-! ## The Fallout compiler -/

namespace Fallout

/-- The column of a complaint; one that is not printed is the first for an error, and lies in front of
it for a warning. -/
def Printed.column? (p : Printed) : Severity → Option Nat
  | .error => if p.column.isEmpty then some 1 else numeral? p.column
  | .warning => if p.column.isEmpty then some 0 else numeral? p.column

/-- The complaint that is read from what was printed with a severity. -/
def read? (document : Option String) (p : Printed) : Severity → Option Complaint
  | .error => error? p
  | .warning => warning? (document.map fun d => LineOffsets.ofText d.toList) p

/-- Where a warning ends: in its own column, or in front of the offset at which the next line of its
document starts. -/
def warningEnd (document : Option String) (line column : Nat) : Int :=
  document.elim column fun text => max ((LineOffsets.ofText text.toList).offsetAt line 0 - 1) 0

theorem error?_isRange {p : Printed} {c : Complaint} (h : error? p = some c) :
    c.severity = .error ∧ ∃ line column, numeral? p.line = some line ∧ p.column? .error = some column ∧
      (c.diagnostic.IsRange ↔ 1 ≤ line) := by
  have hread : ∃ column line, p.column? .error = some column ∧ numeral? p.line = some line ∧
      c.severity = .error ∧ c.line = line ∧ c.columnStart = 0 ∧ c.columnEnd = (column - 1 : Nat) := by
    rw [error?] at h
    by_cases hcolumn : p.column.isEmpty = true
    · simp only [if_pos hcolumn, Option.bind_eq_bind, Option.bind_some, Option.bind_eq_some_iff] at h
      obtain ⟨line, hline, h⟩ := h
      obtain rfl := Option.some.inj h
      exact ⟨1, line, if_pos hcolumn, hline, rfl, rfl, rfl, rfl⟩
    · simp only [if_neg hcolumn, Option.bind_eq_bind, Option.bind_eq_some_iff] at h
      obtain ⟨column, hread, line, hline, h⟩ := h
      obtain rfl := Option.some.inj h
      exact ⟨column, line, (if_neg hcolumn).trans hread, hline, rfl, rfl, rfl, rfl⟩
  obtain ⟨column, line, hcolumn, hline, hseverity, hat⟩ := hread
  refine ⟨hseverity, line, column, hline, hcolumn, ?_⟩
  rw [c.isRange_iff]
  omega

/-- What a warning is read to, from the numbers printed. -/
theorem warning?_eq_some {document : Option String} {p : Printed} {c : Complaint}
    (h : warning? (document.map fun d => LineOffsets.ofText d.toList) p = some c) :
    ∃ line column, numeral? p.line = some line ∧ p.column? .warning = some column ∧
      c.severity = .warning ∧ c.line = line ∧ c.columnStart = column ∧
        c.columnEnd = warningEnd document line column := by
  rw [warning?] at h
  by_cases hcolumn : p.column.isEmpty = true
  · simp only [if_pos hcolumn, Option.bind_eq_bind, Option.bind_some, Option.bind_eq_some_iff] at h
    obtain ⟨line, hline, h⟩ := h
    obtain rfl := Option.some.inj h
    exact ⟨line, 0, hline, if_pos hcolumn, rfl, rfl, rfl, by cases document <;> rfl⟩
  · simp only [if_neg hcolumn, Option.bind_eq_bind, Option.bind_eq_some_iff] at h
    obtain ⟨line, hline, column, hread, h⟩ := h
    obtain rfl := Option.some.inj h
    exact ⟨line, column, hline, (if_neg hcolumn).trans hread, rfl, rfl, rfl, by cases document <;> rfl⟩

theorem warning?_isRange {document : Option String} {p : Printed} {c : Complaint}
    (h : warning? (document.map fun d => LineOffsets.ofText d.toList) p = some c) :
    c.severity = .warning ∧ ∃ line column,
      numeral? p.line = some line ∧ p.column? .warning = some column ∧
        (c.diagnostic.IsRange ↔ 1 ≤ line ∧ column ≤ warningEnd document line column) := by
  obtain ⟨line, column, hline, hcolumn, hseverity, hat⟩ := warning?_eq_some h
  refine ⟨hseverity, line, column, hline, hcolumn, ?_⟩
  rw [c.isRange_iff]
  omega

end Fallout

/-! ## WeiDU -/

theorem Weidu.error?_isRange {p : Weidu.Printed} {c : Complaint} (h : Weidu.error? p = some c) :
    ∃ line first last, numeral? p.line = some line ∧ numeral? p.columnStart = some first ∧
      numeral? p.columnEnd = some last ∧
      (c.diagnostic.IsRange ↔ 1 ≤ line ∧ 1 ≤ first ∧ first ≤ last + 1) := by
  rw [Weidu.error?] at h
  simp only [Option.bind_eq_bind, Option.bind_eq_some_iff] at h
  obtain ⟨line, hline, first, hfirst, last, hlast, h⟩ := h
  obtain rfl := Option.some.inj h
  refine ⟨line, first, last, hline, hfirst, hlast, ?_⟩
  rw [Complaint.isRange_iff]
  dsimp only
  omega

/-! ## Which diagnostics have a range -/

/-- A diagnostic is that of a complaint which was printed, and has a range if the numbers printed allow
it: a line from 1 on, and for a warning with its document a column in front of its end, for a
complaint of WeiDU's columns from 1 on, of which the last may be one less than the first. -/
theorem diagnostics_isRange_iff (output : String) :
    (∀ document, ∀ d ∈ (Fallout.report output document).diagnostics,
      ∃ m ∈ (Fallout.complaint (Fallout.mark d.severity)).scan output.toList, ∃ c,
        Fallout.read? document m.value d.severity = some c ∧ d = c.diagnostic ∧ ∃ line column,
          numeral? m.value.line = some line ∧ m.value.column? d.severity = some column ∧
            (d.IsRange ↔ 1 ≤ line ∧
              (d.severity = .warning → column ≤ Fallout.warningEnd document line column))) ∧
    ∀ d ∈ (Weidu.report output).diagnostics,
      ∃ m ∈ Weidu.complaint.scan output.toList, ∃ c,
        Weidu.error? m.value = some c ∧ d = c.diagnostic ∧ ∃ line first last,
          numeral? m.value.line = some line ∧ numeral? m.value.columnStart = some first ∧
            numeral? m.value.columnEnd = some last ∧
              (d.IsRange ↔ 1 ≤ line ∧ 1 ≤ first ∧ first ≤ last + 1) := by
  constructor
  · intro document d hd
    obtain ⟨c, hc, rfl⟩ := List.mem_map.mp hd
    have hsame : c.diagnostic.severity = c.severity := rfl
    rcases List.mem_append.mp hc with hc | hc <;> obtain ⟨m, hm, hread⟩ := List.mem_filterMap.mp hc
    · obtain ⟨hseverity, line, column, hline, hcolumn, hrange⟩ := Fallout.error?_isRange hread
      rw [hsame, hseverity]
      exact ⟨m, hm, c, hread, rfl, line, column, hline, hcolumn, hrange.trans (by simp)⟩
    · obtain ⟨hseverity, line, column, hline, hcolumn, hrange⟩ := Fallout.warning?_isRange hread
      rw [hsame, hseverity]
      exact ⟨m, hm, c, hread, rfl, line, column, hline, hcolumn, hrange.trans (by simp)⟩
  · intro d hd
    obtain ⟨c, hc, rfl⟩ := List.mem_map.mp hd
    rcases List.mem_append.mp hc with hc | hc
    · obtain ⟨m, hm, hread⟩ := List.mem_filterMap.mp hc
      exact ⟨m, hm, c, hread, rfl, Weidu.error?_isRange hread⟩
    · cases hc

/-- A column 0 of WeiDU's, a line 0, and a warning at the end of a document of one line. -/
theorem firstColumn_not_isRange :
    (¬ ∀ d ∈ (Weidu.report "[a.tp2] ERROR at line 1 column 0-5\n").diagnostics, d.IsRange) ∧
    (¬ ∀ d ∈ (Fallout.report "[Error] <a.ssl>:0:1: Unexpected end" none).diagnostics, d.IsRange) ∧
    ¬ ∀ d ∈ (Fallout.report "[Warning] <a.ssl>:1:5: Unused" (some "int x")).diagnostics, d.IsRange := by
  decide +kernel

end ScriptService
