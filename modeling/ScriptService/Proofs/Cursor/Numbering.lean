import ScriptService.Proofs.Cursor.Line
import ScriptService.Proofs.Text.Lines

/-!
# Three ways to number lines

Cursors count lines that end at `\n` or `\r\n`, offsets those that end at `\r` as well,
and declarations the `\n` in front of them. Where `\r` stands only in front of `\n`
(`Text.ReturnsPaired`) the first two cut a text into the same lines
(`Text.documentLines_eq_offsetLines`), and the number of the line that holds an offset
is the count of `\n` in front of it (`LineOffsets.lineBreaks_take_eq_iff`).

Main statement: `line_numbers_agree`.
-/

namespace ScriptService

namespace Text

/-- Each `\r` of a text is followed at once by `\n`. -/
def ReturnsPaired (text : List Char) : Prop :=
  ∀ i, text[i]? = some '\r' → text[i + 1]? = some '\n'

instance (text : List Char) : Decidable (ReturnsPaired text) :=
  decidable_of_iff (∀ i < text.length, text[i]? = some '\r' → text[i + 1]? = some '\n')
    ⟨fun h i hi => h i (List.getElem?_eq_some_iff.mp hi).1 hi, fun h i _ => h i⟩

theorem ReturnsPaired.tail {c : Char} {s : List Char} (h : ReturnsPaired (c :: s)) : ReturnsPaired s :=
  fun i hi => h (i + 1) hi

/-- A character that begins no `\r\n` is no `\r`. -/
theorem ReturnsPaired.ne_return {c : Char} {s : List Char} (h : ReturnsPaired (c :: s))
    (hcr : ∀ t, c = '\r' → s = '\n' :: t → False) : c ≠ '\r' := by
  rintro rfl
  have hnext : s[0]? = some '\n' := h 0 rfl
  cases s with
  | nil => cases hnext
  | cons d t => exact hcr t rfl (by rw [Option.some.inj hnext])

theorem documentLinesFrom_eq {cur s : List Char} (h : ReturnsPaired s) :
    documentLinesFrom cur s = (offsetLines s).modifyHead (cur.reverse ++ ·) := by
  have hfirst : ∀ ls : List (List Char), ls.modifyHead (([] : List Char).reverse ++ ·) = ls := fun ls => by
    cases ls <;> rfl
  fun_induction documentLinesFrom cur s with
  | case1 cur => exact congrArg (fun l => [l]) (List.append_nil cur.reverse).symm
  | case2 cur s ih =>
    rw [ih h.tail.tail, hfirst, offsetLines_crlf, List.modifyHead_cons, List.append_nil]
  | case3 cur c s hcr hc ih =>
    rw [ih h.tail, hfirst, offsetLines_break hcr (by rw [hc, Bool.or_true]), List.modifyHead_cons, List.append_nil]
  | case4 cur c s hcr hc ih =>
    have hbreak : ¬ (c == '\r' || c == '\n') = true := by
      rw [Bool.or_eq_true, not_or]
      exact ⟨by simpa using h.ne_return hcr, hc⟩
    rw [ih h.tail, offsetLines_cons hcr hbreak, List.modifyHead_modifyHead]
    congr 1
    funext l
    simp

/-- Cursors and offsets cut the text into the same lines. -/
theorem documentLines_eq_offsetLines {text : List Char} (h : ReturnsPaired text) :
    documentLines text = offsetLines text := by
  rw [documentLines, documentLinesFrom_eq h]
  cases offsetLines text <;> rfl

end Text

open Text

namespace LineOffsets

/-- The line with a number starts at an offset or in front of it, and the next one, if there is any,
behind it. -/
def Holds (starts : List Nat) (n offset : Nat) : Prop :=
  (∃ start ∈ starts[n]?, start ≤ offset) ∧ ∀ next ∈ starts[n + 1]?, offset < next

theorem holds_zero {start : Nat} {starts : List Nat} {offset : Nat} (h : start ≤ offset)
    (hnext : ∀ next ∈ starts, offset < next) : Holds (start :: starts) 0 offset :=
  ⟨⟨start, rfl, h⟩, fun _ hn => hnext _ (List.mem_of_getElem? hn)⟩

theorem not_holds {starts : List Nat} {offset : Nat} (h : ∀ start ∈ starts, offset < start) (n : Nat) :
    ¬ Holds starts n offset :=
  fun ⟨⟨start, hstart, hle⟩, _⟩ => absurd hle (Nat.not_le.mpr (h start (List.mem_of_getElem? hstart)))

/-- In front of the second line, only the first one holds an offset. -/
theorem holds_first {start : Nat} {starts : List Nat} {offset : Nat} (h : start ≤ offset)
    (hnext : ∀ next ∈ starts, offset < next) (n : Nat) : 0 = n ↔ Holds (start :: starts) n offset := by
  cases n with
  | zero => exact iff_of_true rfl (holds_zero h hnext)
  | succ n => exact iff_of_false nofun (not_holds hnext n)

/-- Behind the start of the second line, it and the later ones are counted from one on. -/
theorem holds_later {start next : Nat} {starts : List Nat} {offset count : Nat} (hnext : next ≤ offset)
    (h : ∀ n, count = n ↔ Holds (next :: starts) n offset) (n : Nat) :
    count + 1 = n ↔ Holds (start :: next :: starts) n offset := by
  cases n with
  | zero => exact iff_of_false nofun fun hzero => absurd (hzero.2 next rfl) (Nat.not_lt.mpr hnext)
  | succ n => exact Nat.add_right_cancel_iff.trans (h n)

theorem holds_congr {start start' : Nat} {starts : List Nat} {offset : Nat} (h : start ≤ offset)
    (h' : start' ≤ offset) (n : Nat) : Holds (start :: starts) n offset ↔ Holds (start' :: starts) n offset := by
  cases n with
  | zero => exact and_congr_left fun _ => iff_of_true ⟨start, rfl, h⟩ ⟨start', rfl, h'⟩
  | succ n => exact Iff.rfl

/-- The number of the line that holds an offset is the count of `\n` in front of the offset. -/
theorem lineBreaks_take_eq_iff {s : List Char} (h : ReturnsPaired s) (pos : Nat) {k : Nat} (hk : k ≤ s.length)
    (n : Nat) : lineBreaks (s.take k) = n ↔ Holds (pos :: breaksFrom pos s) n (pos + k) := by
  fun_induction breaksFrom pos s generalizing k n with
  | case1 pos =>
    rw [List.take_nil]
    exact holds_first (Nat.le_add_right pos k) (List.forall_mem_nil _) n
  | case2 pos s ih =>
    have hlater : ∀ start ∈ (pos + 2) :: breaksFrom (pos + 2) s, pos + 1 < start :=
      List.forall_mem_cons.mpr ⟨Nat.lt_succ_self _, fun start hstart => by
        have := lt_of_mem_breaksFrom hstart
        omega⟩
    rcases k with _ | _ | k
    · exact holds_first (Nat.le_refl pos) (fun start hstart => Nat.lt_of_succ_lt (hlater start hstart)) n
    · exact holds_first (Nat.le_succ pos) hlater n
    · rw [List.length_cons, List.length_cons] at hk
      have hoffset : pos + (k + 2) = pos + 2 + k := by omega
      have hcount : lineBreaks (('\r' :: '\n' :: s).take (k + 2)) = lineBreaks (s.take k) + 1 := by
        rw [lineBreaks, List.take_succ_cons, List.take_succ_cons, List.count_cons_of_ne (by decide),
          List.count_cons_self]
        rfl
      rw [hcount, hoffset]
      exact holds_later (Nat.le_add_right _ k) (ih h.tail.tail (by omega)) n
  | case3 pos c s hcr hc ih =>
    obtain rfl : c = '\n' := by simpa [h.ne_return hcr] using hc
    have hlater : ∀ start ∈ (pos + 1) :: breaksFrom (pos + 1) s, pos < start :=
      List.forall_mem_cons.mpr ⟨Nat.lt_succ_self _, fun start hstart =>
        Nat.lt_of_succ_lt (lt_of_mem_breaksFrom hstart)⟩
    cases k with
    | zero => exact holds_first (Nat.le_refl pos) hlater n
    | succ k =>
      have hoffset : pos + (k + 1) = pos + 1 + k := by omega
      have hcount : lineBreaks (('\n' :: s).take (k + 1)) = lineBreaks (s.take k) + 1 := List.count_cons_self
      rw [hcount, hoffset]
      exact holds_later (Nat.le_add_right _ k) (ih h.tail (Nat.le_of_succ_le_succ hk)) n
  | case4 pos c s hcr hc ih =>
    cases k with
    | zero =>
      exact holds_first (Nat.le_refl pos) (fun start hstart => Nat.lt_of_succ_lt (lt_of_mem_breaksFrom hstart)) n
    | succ k =>
      have hoffset : pos + (k + 1) = pos + 1 + k := by omega
      have hcount : lineBreaks ((c :: s).take (k + 1)) = lineBreaks (s.take k) := by
        have hnewline : c ≠ '\n' := fun e => hc (by simp [e])
        exact List.count_cons_of_ne hnewline
      rw [hcount, hoffset, ih h.tail (Nat.le_of_succ_le_succ hk)]
      exact holds_congr (Nat.le_add_right _ k) (by omega) n

theorem start_le_length {text : List Char} {n start : Nat} (h : (ofText text).starts[n]? = some start) :
    start ≤ (ofText text).length := by
  have hn : n < (offsetLines text).length := by
    rw [← lineCount_ofText]
    exact (List.getElem?_eq_some_iff.mp h).1
  obtain ⟨before, ending, rest, htext, hstart, -⟩ := lineAt_of_getElem? 0 (List.getElem?_eq_getElem hn)
  have hbefore : start = 0 + before.length := Option.some.inj (h.symm.trans hstart)
  have hlength := congrArg List.length htext
  rw [List.length_append] at hlength
  change start ≤ text.length
  omega

theorem newline_of_mem_breaksFrom {s : List Char} (h : ReturnsPaired s) {pos next : Nat}
    (hnext : next ∈ breaksFrom pos s) : ∃ k, next = pos + k + 1 ∧ s[k]? = some '\n' := by
  fun_induction breaksFrom pos s with
  | case1 pos => cases hnext
  | case2 pos s ih =>
    rcases List.mem_cons.mp hnext with rfl | hnext
    · exact ⟨1, rfl, rfl⟩
    · obtain ⟨k, rfl, hk⟩ := ih h.tail.tail hnext
      exact ⟨k + 2, by omega, hk⟩
  | case3 pos c s hcr hc ih =>
    rcases List.mem_cons.mp hnext with rfl | hnext
    · exact ⟨0, rfl, by simpa [h.ne_return hcr] using hc⟩
    · obtain ⟨k, rfl, hk⟩ := ih h.tail hnext
      exact ⟨k + 1, by omega, hk⟩
  | case4 pos c s hcr hc ih =>
    obtain ⟨k, rfl, hk⟩ := ih h.tail hnext
    exact ⟨k + 1, by omega, hk⟩

/-- What ends a line that is not the last one. -/
theorem ending_of_next {before line ending rest : List Char}
    (h : ReturnsPaired (before ++ (line ++ (ending ++ rest)))) {n : Nat}
    (hnext : (ofText (before ++ (line ++ (ending ++ rest)))).offsetAt ↑(n + 1) 0 =
      ↑(before.length + line.length + ending.length))
    (hmore : n + 1 < (ofText (before ++ (line ++ (ending ++ rest)))).lineCount) (hending : ending ∈ lineEnds) :
    ending = ['\n'] ∨ ending = ['\r', '\n'] := by
  simp only [lineEnds, List.mem_cons, List.not_mem_nil, or_false] at hending
  obtain rfl | rfl | rfl := hending
  · exact .inr rfl
  · -- the next line would start in front of the `\n`
    have hstart := List.getElem?_eq_getElem hmore
    rw [offsetAt_of_getElem? hstart (start_le_length hstart), Int.natCast_inj] at hnext
    obtain ⟨k, hk, hnewline⟩ := newline_of_mem_breaksFrom h (List.mem_of_getElem? hstart)
    obtain rfl : k = before.length + line.length := by
      rw [List.length_singleton] at hnext
      omega
    rw [← List.append_assoc, ← List.length_append, List.getElem?_append_right (Nat.le_refl _), Nat.sub_self]
      at hnewline
    cases hnewline
  · exact .inl rfl

/-- The offsets at which a line and the next one start say which offsets it holds. -/
theorem holds_iff {text : List Char} {n offset : Nat} (hoffset : offset ≤ text.length) :
    Holds (ofText text).starts n offset ↔
      (ofText text).offsetAt n 0 ≤ offset ∧
        (n + 1 = (ofText text).lineCount ∨ (offset : Int) < (ofText text).offsetAt ↑(n + 1) 0) := by
  have hlength : (ofText text).length = text.length := rfl
  cases hstart : (ofText text).starts[n]? with
  | none =>
    have hcount : (ofText text).lineCount ≤ n := List.getElem?_eq_none_iff.mp hstart
    have hnext : (ofText text).starts[n + 1]? = none := List.getElem?_eq_none_iff.mpr (Nat.le_succ_of_le hcount)
    rw [Holds, hstart, offsetAt_of_none hstart, offsetAt_of_none hnext]
    refine iff_of_false (fun hholds => nomatch hholds.1) fun hlast => ?_
    omega
  | some start =>
    rw [Holds, hstart, offsetAt_of_getElem? hstart (start_le_length hstart)]
    have hstarts : (∃ s ∈ some start, s ≤ offset) ↔ (start : Int) ≤ offset := by simp
    refine and_congr hstarts ?_
    cases hnext : (ofText text).starts[n + 1]? with
    | none =>
      have hlast : n + 1 = (ofText text).lineCount :=
        Nat.le_antisymm (List.getElem?_eq_some_iff.mp hstart).1 (List.getElem?_eq_none_iff.mp hnext)
      exact iff_of_true nofun (.inl hlast)
    | some next =>
      have hmore : n + 1 < (ofText text).lineCount := (List.getElem?_eq_some_iff.mp hnext).1
      rw [offsetAt_of_getElem? hnext (start_le_length hnext), or_iff_right (by omega)]
      simp

end LineOffsets

/-- The same lines are counted by cursors, by offsets and by declarations, where `\r` stands only in
front of `\n`. -/
theorem line_numbers_agree {text : List Char} (h : ReturnsPaired text) :
    (∀ n : Int, (lineAt? text n).isSome ↔ 0 ≤ n ∧ n < (LineOffsets.ofText text).lineCount) ∧
      (∀ (n : Int) (line : List Char), lineAt? text n = some line →
        ∃ before ending rest, text = before ++ (line ++ (ending ++ rest)) ∧
          (LineOffsets.ofText text).offsetAt n 0 = before.length ∧
          (ending = [] ∧ rest = [] ∨
            (ending = ['\n'] ∨ ending = ['\r', '\n']) ∧
              (LineOffsets.ofText text).offsetAt (n + 1) 0 = (before ++ (line ++ ending)).length)) ∧
      ∀ offset n : Nat, offset ≤ text.length →
        (lineOfOffset text offset = n ↔
          (LineOffsets.ofText text).offsetAt n 0 ≤ offset ∧
            (n + 1 = (LineOffsets.ofText text).lineCount ∨
              (offset : Int) < (LineOffsets.ofText text).offsetAt (n + 1) 0)) := by
  have hlines := documentLines_eq_offsetLines h
  have hcount := LineOffsets.lineCount_ofText text
  refine ⟨fun n => ?_, fun n line hline => ?_, fun offset n hoffset => ?_⟩
  · rw [lineAt?, hlines, hcount]
    split
    · exact iff_of_false nofun (by omega)
    · rw [Option.isSome_iff_ne_none, ne_eq, List.getElem?_eq_none_iff]
      omega
  · rw [lineAt?, hlines] at hline
    split at hline
    · cases hline
    · obtain ⟨n, rfl⟩ := Int.eq_ofNat_of_zero_le (Int.not_lt.mp ‹_›)
      rw [Int.toNat_natCast] at hline
      obtain ⟨before, ending, rest, rfl, -, hstart, hnext, hend⟩ := LineOffsets.exists_line hline
      refine ⟨before, ending, rest, rfl, hstart, ?_⟩
      rcases hend with ⟨hmore, hending⟩ | ⟨-, hending⟩
      · refine .inr ⟨LineOffsets.ending_of_next h hnext hmore hending, ?_⟩
        rw [List.length_append, List.length_append, ← Nat.add_assoc]
        exact hnext
      · exact .inl hending
  · rw [lineOfOffset, if_neg (by omega), Int.toNat_natCast, LineOffsets.lineBreaks_take_eq_iff h 0 hoffset,
      Nat.zero_add]
    exact LineOffsets.holds_iff hoffset

/-- Lines that end in both ways, one of them empty, and no line end behind the last one. -/
theorem mixedEnds_agree :
    ReturnsPaired "a\r\n\nbc".toList ∧
      (∀ n : Int, (lineAt? "a\r\n\nbc".toList n).isSome ↔ 0 ≤ n ∧ n < 3) ∧
      ∀ offset : Nat, offset ≤ 6 → (lineOfOffset "a\r\n\nbc".toList offset = 1 ↔ offset = 3) := by
  have hpaired : ReturnsPaired "a\r\n\nbc".toList := by decide +kernel
  obtain ⟨hlines, -, hoffsets⟩ := line_numbers_agree hpaired
  refine ⟨hpaired, hlines, fun offset hoffset => (hoffsets offset 1 hoffset).trans ?_⟩
  have hfirst : (LineOffsets.ofText "a\r\n\nbc".toList).offsetAt (1 : Nat) 0 = 3 := by decide +kernel
  have hnext : (LineOffsets.ofText "a\r\n\nbc".toList).offsetAt ((1 : Nat) + 1) 0 = 4 := by decide +kernel
  have hcount : (LineOffsets.ofText "a\r\n\nbc".toList).lineCount = 3 := by decide +kernel
  rw [hfirst, hnext, hcount]
  omega

end ScriptService
