import ScriptService.Cursor.Line

/-!
# Where the lines of a document start

The lines that offsets count are those of the text with its line ends unified
(`Text.offsetLines`). Each of them stands in the text at the offset of its start, and
what ends it goes up to the start of the next one; the last line ends the text
(`LineOffsets.exists_line`).
-/

namespace ScriptService

open Text

namespace Text

/-- The lines of a text, cut at `\r\n`, `\r` and `\n`; there is always at least one. -/
def offsetLines (text : List Char) : List (List Char) :=
  (unifyNewlines text).splitOn '\n'

theorem offsetLines_crlf (s : List Char) : offsetLines ('\r' :: '\n' :: s) = [] :: offsetLines s := by
  rw [offsetLines, unifyNewlines, List.splitOn_cons_eq_if_modifyHead]
  rfl

theorem offsetLines_break {c : Char} {s : List Char} (hcr : ∀ t, c = '\r' → s = '\n' :: t → False)
    (hc : (c == '\r' || c == '\n') = true) : offsetLines (c :: s) = [] :: offsetLines s := by
  have hbreak : (if c == '\r' then '\n' else c) = '\n' := by
    rcases (Bool.or_eq_true _ _).mp hc with h | h
    · rw [if_pos h]
    · rw [beq_iff_eq.mp h]
      rfl
  rw [offsetLines, unifyNewlines.eq_3 c s hcr, hbreak, List.splitOn_cons_eq_if_modifyHead]
  rfl

theorem offsetLines_cons {c : Char} {s : List Char} (hcr : ∀ t, c = '\r' → s = '\n' :: t → False)
    (hc : ¬ (c == '\r' || c == '\n') = true) :
    offsetLines (c :: s) = (offsetLines s).modifyHead (c :: ·) := by
  simp only [Bool.or_eq_true, not_or] at hc
  rw [offsetLines, unifyNewlines.eq_3 c s hcr, if_neg hc.1, List.splitOn_cons_eq_if_modifyHead, if_neg hc.2]
  rfl

/-- What ends a line. -/
def lineEnds : List (List Char) := [['\r', '\n'], ['\r'], ['\n']]

end Text

namespace LineOffsets

/-- A line of a text that starts at `pos` stands at the start that the table has for its number, and
what ends it goes up to the next start; behind the last start, the line ends the text. -/
def LineAt (pos : Nat) (starts : List Nat) (s : List Char) (n : Nat) (line : List Char) : Prop :=
  ∃ before ending rest, s = before ++ (line ++ (ending ++ rest)) ∧
    starts[n]? = some (pos + before.length) ∧
    (starts[n + 1]? = some (pos + before.length + line.length + ending.length) ∧ ending ∈ lineEnds ∨
      starts[n + 1]? = none ∧ ending = [] ∧ rest = [])

/-- A line behind some text, which has `m` starts of its own. -/
theorem LineAt.behind {pos n m : Nat} {u s line : List Char} {starts starts' : List Nat}
    (h : LineAt (pos + u.length) starts s n line) (hn : starts'[n + m]? = starts[n]?)
    (hnext : starts'[n + m + 1]? = starts[n + 1]?) : LineAt pos starts' (u ++ s) (n + m) line := by
  obtain ⟨before, ending, rest, rfl, hstart, hend⟩ := h
  refine ⟨u ++ before, ending, rest, (List.append_assoc ..).symm, ?_, ?_⟩
  · rw [hn, hstart, List.length_append, Nat.add_assoc]
  · rw [hnext, List.length_append, ← Nat.add_assoc]
    exact hend

theorem lineAt_of_getElem? (pos : Nat) {s : List Char} {n : Nat} {line : List Char}
    (h : (offsetLines s)[n]? = some line) : LineAt pos (pos :: breaksFrom pos s) s n line := by
  fun_induction breaksFrom pos s generalizing n line with
  | case1 pos =>
    cases n with
    | zero =>
      obtain rfl : [] = line := Option.some.inj h
      exact ⟨[], [], [], rfl, rfl, .inr ⟨rfl, rfl, rfl⟩⟩
    | succ n => cases h
  | case2 pos s ih =>
    rw [offsetLines_crlf] at h
    cases n with
    | zero =>
      obtain rfl : [] = line := Option.some.inj h
      exact ⟨[], ['\r', '\n'], s, rfl, rfl, .inl ⟨rfl, by decide⟩⟩
    | succ n => exact (ih h).behind (u := ['\r', '\n']) rfl rfl
  | case3 pos c s hcr hc ih =>
    rw [offsetLines_break hcr hc] at h
    cases n with
    | zero =>
      obtain rfl : [] = line := Option.some.inj h
      have hend : [c] ∈ lineEnds := by
        rcases (Bool.or_eq_true _ _).mp hc with h | h <;> rw [beq_iff_eq.mp h] <;> decide
      exact ⟨[], [c], s, rfl, rfl, .inl ⟨rfl, hend⟩⟩
    | succ n => exact (ih h).behind (u := [c]) rfl rfl
  | case4 pos c s hcr hc ih =>
    rw [offsetLines_cons hcr hc, List.getElem?_modifyHead] at h
    cases n with
    | zero =>
      obtain ⟨line, hline, rfl⟩ := Option.map_eq_some_iff.mp h
      obtain ⟨before, ending, rest, rfl, hstart, hend⟩ := ih hline
      -- the line begins the text, so the character in front belongs to it
      obtain rfl : before = [] := by
        rw [List.getElem?_cons_zero, Option.some.injEq] at hstart
        exact List.length_eq_zero_iff.mp (by omega)
      have hlength : pos + 1 + ([] : List Char).length + line.length + ending.length =
          pos + ([] : List Char).length + (c :: line).length + ending.length := by
        simp only [List.length_nil, List.length_cons]
        omega
      rw [hlength] at hend
      exact ⟨[], ending, rest, rfl, rfl, hend⟩
    | succ n => exact (ih h).behind (u := [c]) (m := 0) rfl rfl

theorem length_offsetLines (pos : Nat) (s : List Char) :
    (offsetLines s).length = (breaksFrom pos s).length + 1 := by
  fun_induction breaksFrom pos s with
  | case1 pos => rfl
  | case2 pos s ih => rw [offsetLines_crlf, List.length_cons, ih, List.length_cons]
  | case3 pos c s hcr hc ih => rw [offsetLines_break hcr hc, List.length_cons, ih, List.length_cons]
  | case4 pos c s hcr hc ih => rw [offsetLines_cons hcr hc, List.length_modifyHead, ih]

/-- There is a line for each start. -/
theorem lineCount_ofText (text : List Char) : (ofText text).lineCount = (offsetLines text).length :=
  (length_offsetLines 0 text).symm

theorem lt_of_mem_breaksFrom {pos p : Nat} {s : List Char} (h : p ∈ breaksFrom pos s) : pos < p := by
  fun_induction breaksFrom pos s with
  | case1 pos => cases h
  | case2 pos s ih =>
    rcases List.mem_cons.mp h with rfl | h
    · omega
    · have := ih h
      omega
  | case3 pos c s hcr hc ih =>
    rcases List.mem_cons.mp h with rfl | h
    · omega
    · have := ih h
      omega
  | case4 pos c s hcr hc ih =>
    have := ih h
    omega

theorem offsetAt_of_getElem? {o : LineOffsets} {n start : Nat} (h : o.starts[n]? = some start)
    (hle : start ≤ o.length) : o.offsetAt n 0 = start := by
  rw [offsetAt, if_neg (by omega), Int.toNat_natCast, h]
  dsimp only
  omega

theorem offsetAt_of_none {o : LineOffsets} {n : Nat} (h : o.starts[n]? = none) :
    o.offsetAt n 0 = o.length := by
  rw [offsetAt, if_neg (by omega), Int.toNat_natCast, h]

/-- Where a line starts, what ends it and where the next line starts. -/
theorem exists_line {text : List Char} {n : Nat} {line : List Char}
    (h : (offsetLines text)[n]? = some line) :
    ∃ before ending rest, text = before ++ (line ++ (ending ++ rest)) ∧ (before = [] ↔ n = 0) ∧
      (ofText text).offsetAt n 0 = before.length ∧
      (ofText text).offsetAt ↑(n + 1) 0 = ↑(before.length + line.length + ending.length) ∧
      (n + 1 < (ofText text).lineCount ∧ ending ∈ lineEnds ∨
        n + 1 = (ofText text).lineCount ∧ ending = [] ∧ rest = []) := by
  obtain ⟨before, ending, rest, htext, hstart, hend⟩ := lineAt_of_getElem? 0 h
  have hlength : (ofText text).length = before.length + line.length + ending.length + rest.length := by
    rw [ofText, htext]
    simp only [List.length_append]
    omega
  have hn : n < (ofText text).lineCount := by
    rw [lineCount_ofText]
    exact (List.getElem?_eq_some_iff.mp h).1
  rw [Nat.zero_add] at hstart
  rw [Nat.zero_add] at hend
  refine ⟨before, ending, rest, htext, ?_, offsetAt_of_getElem? hstart (by omega), ?_, ?_⟩
  · rw [← List.length_eq_zero_iff]
    cases n with
    | zero =>
      have hzero : 0 = before.length := Option.some.inj hstart
      exact iff_of_true hzero.symm rfl
    | succ n =>
      have hpos : 0 < before.length := lt_of_mem_breaksFrom (List.mem_of_getElem? hstart)
      omega
  · rcases hend with ⟨hnext, -⟩ | ⟨hnext, rfl, rfl⟩
    · exact offsetAt_of_getElem? hnext (by omega)
    · rw [offsetAt_of_none hnext]
      simp only [List.length_nil, Nat.add_zero] at hlength ⊢
      rw [hlength]
  · rcases hend with ⟨hnext, hending⟩ | ⟨hnext, hending⟩
    · exact .inl ⟨(List.getElem?_eq_some_iff.mp hnext).1, hending⟩
    · have := List.getElem?_eq_none_iff.mp hnext
      exact .inr ⟨Nat.le_antisymm hn this, hending⟩

end LineOffsets

end ScriptService
