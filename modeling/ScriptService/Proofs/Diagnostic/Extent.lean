import ScriptService.Proofs.Cursor.Line
import ScriptService.Proofs.Diagnostic.Fallout
import ScriptService.Proofs.Diagnostic.Range

/-!
# How far a warning goes

With its document at hand, a warning should go to the end of its line. It ends one
character in front of the offset at which the next line starts, which is the end of
the line or behind it, whatever the line ends with (`le_warningEnd`). The last line
has no next one: there the end of the document stands for it, so that the warning
ends one character in front of it. On a line that others stand in front of, that is
far enough, but the only line of a document lacks its last character
(`warningEnd_onlyLine`).

`warning_reaches_lineEnd_iff` says so of every warning, `onlyLine_endsShort` of one.
-/

namespace ScriptService.Fallout

open Text

variable {document : String} {n : Nat} {line : List Char}

/-- In a document of several lines, a warning goes to the end of its line at least. -/
theorem le_warningEnd (h : (offsetLines document.toList)[n]? = some line)
    (hmany : 1 < (LineOffsets.ofText document.toList).lineCount) (column : Nat) :
    (line.length : Int) ≤ warningEnd (some document) (n + 1) column := by
  obtain ⟨before, ending, rest, -, hbefore, -, hnext, hend⟩ := LineOffsets.exists_line h
  have hlong : 1 ≤ before.length + ending.length := by
    rcases hend with ⟨-, hending⟩ | ⟨hlast, -⟩
    · have : ∀ e ∈ lineEnds, 1 ≤ e.length := by decide
      have := this ending hending
      omega
    · have hne : before ≠ [] := fun e => by
        have := hbefore.mp e
        omega
      have := List.length_pos_iff.mpr hne
      omega
  rw [warningEnd, Option.elim_some, hnext]
  omega

/-- On the only line of a document, a warning ends in front of the line's last character. -/
theorem warningEnd_onlyLine (h : (offsetLines document.toList)[n]? = some line)
    (hone : (LineOffsets.ofText document.toList).lineCount = 1) (column : Nat) :
    line = document.toList ∧ warningEnd (some document) (n + 1) column = (line.length - 1 : Nat) := by
  obtain ⟨before, ending, rest, htext, hbefore, -, hnext, hend⟩ := LineOffsets.exists_line h
  obtain ⟨hlast, rfl, rfl⟩ : n + 1 = 1 ∧ ending = [] ∧ rest = [] := by
    rcases hend with ⟨hlt, -⟩ | ⟨hlast, hending⟩
    · omega
    · exact ⟨hlast.trans hone, hending⟩
  obtain rfl : before = [] := hbefore.mpr (by omega)
  refine ⟨by simpa using htext.symm, ?_⟩
  rw [warningEnd, Option.elim_some, hnext]
  simp only [List.length_nil]
  omega

/-- A warning as it is printed is read with its line and column. Every warning on a line of the document,
with a column on that line, ends behind its start and goes to the end of the line exactly if the
document has several lines or is empty; the only line of a document lacks its last character. -/
theorem warning_reaches_lineEnd_iff (document : String) :
    (∀ l : Line, l.WellFormed → l.severity = .warning →
      ∃ w, (report (String.ofList l.text) (some document)).warnings = [w] ∧ w.line = number l.line ∧
        w.columnStart = number l.column) ∧
    ∀ output, ∀ w ∈ (report output (some document)).warnings, 1 ≤ w.line →
      w.line ≤ (LineOffsets.ofText document.toList).lineCount →
      ∃ line, (offsetLines document.toList)[(w.line - 1).toNat]? = some line ∧
        (w.columnStart ≤ line.length →
          (w.columnStart ≤ w.columnEnd ∧ line.length ≤ w.columnEnd ↔
            1 < (LineOffsets.ofText document.toList).lineCount ∨ document = "")) ∧
        ((LineOffsets.ofText document.toList).lineCount = 1 → w.columnEnd = (line.length - 1 : Nat)) := by
  constructor
  · intro l hl hs
    refine ⟨l.complaint (some document), ?_, rfl, ?_⟩
    · rw [report_text hl, single, show (l.complaint (some document)).severity = .warning from hs]
    · rw [Line.complaint, hs]
  · intro output w hw hfirst hlast
    obtain ⟨m, -, hread⟩ := List.mem_filterMap.mp hw
    obtain ⟨number, column, -, -, -, hline, hstart, hend⟩ := warning?_eq_some hread
    obtain ⟨n, rfl⟩ : ∃ n, number = n + 1 := ⟨number - 1, by omega⟩
    have hn : n < (offsetLines document.toList).length := by
      rw [← LineOffsets.lineCount_ofText]
      omega
    obtain ⟨line, hat⟩ : ∃ line, (offsetLines document.toList)[n]? = some line :=
      ⟨_, List.getElem?_eq_getElem hn⟩
    have honly := fun hone => warningEnd_onlyLine hat hone column
    refine ⟨line, ?_, fun hcolumn => ⟨?_, ?_⟩, fun hone => ?_⟩
    · rw [hline, show ((n + 1 : Nat) - 1 : Int).toNat = n by omega]
      exact hat
    · rintro ⟨-, hreach⟩
      by_contra hnot
      simp only [not_or, Nat.not_lt] at hnot
      obtain ⟨rfl, hshort⟩ := honly (by omega)
      have hpos : 0 < document.toList.length := List.length_pos_iff.mpr (by simpa using hnot.2)
      omega
    · rintro (hmany | rfl)
      · have := le_warningEnd hat hmany column
        omega
      · obtain ⟨rfl, hshort⟩ := honly rfl
        simp only [String.toList_empty, List.length_nil] at hcolumn hshort ⊢
        omega
    · rw [hend, (honly hone).2]

/-- A warning at the end of a second line. -/
def secondLine : Line where
  severity := .warning
  category := some "Optimizer".toList
  file := "a.ssl".toList
  line := "2".toList
  column := "4".toList
  message := "Unused".toList

theorem secondLine_reaches_end :
    secondLine.WellFormed ∧
      ∃ w, (report (String.ofList secondLine.text) (some "int x\r\nend.")).warnings = [w] ∧
        w.line = 2 ∧ w.columnStart = 4 ∧ w.columnStart ≤ w.columnEnd ∧ 4 ≤ w.columnEnd := by
  have hwf : secondLine.WellFormed := by decide +kernel
  obtain ⟨hprinted, hend⟩ := warning_reaches_lineEnd_iff "int x\r\nend."
  obtain ⟨w, hw, hline, hcolumn⟩ := hprinted secondLine hwf rfl
  have hline : w.line = 2 := hline.trans (by decide +kernel)
  have hcolumn : w.columnStart = 4 := hcolumn.trans (by decide +kernel)
  have hcount : (LineOffsets.ofText "int x\r\nend.".toList).lineCount = 2 := by decide +kernel
  have hmem : w ∈ (report (String.ofList secondLine.text) (some "int x\r\nend.")).warnings := by simp [hw]
  obtain ⟨line, hat, hreach, -⟩ := hend _ w hmem (by omega) (by omega)
  obtain rfl : "end.".toList = line := by
    rw [hline] at hat
    exact Option.some.inj (Eq.trans (by decide +kernel) hat)
  have hfour : ("end.".toList.length : Int) = 4 := by decide +kernel
  obtain ⟨hstart, hreach⟩ := (hreach (by omega)).mpr (.inl (by omega))
  exact ⟨hwf, w, hw, hline, hcolumn, hstart, hfour ▸ hreach⟩

/-- On a document of one line, a warning behind its last character ends in front of it. -/
theorem onlyLine_endsShort :
    ¬ ∀ w ∈ (report "[Warning] <a.ssl>:1:5: Unused" (some "int x")).warnings,
      w.columnStart ≤ w.columnEnd ∧ ("int x".length : Int) ≤ w.columnEnd := by
  decide +kernel

end ScriptService.Fallout
