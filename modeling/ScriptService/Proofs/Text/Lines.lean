import Mathlib.Data.List.Infix
import ScriptService.Text.Lines

/-!
# Lines of a document

A word that holds no line break stands on the line whose number is the count of the
line breaks in front of it (`exists_documentLine`), whichever of them are `\n` and
which are `\r\n`. A text with given lines is told by a relation (`HasLines`), which
leaves open how each of them ends.
-/

namespace ScriptService.Text

/-- The lines behind the breaks of a text that does not end in the middle of one. -/
theorem drop_documentLinesFrom (cur a : List Char) {s : List Char} (hs : s.head? ≠ some '\n') :
    ∃ cur', (documentLinesFrom cur (a ++ s)).drop (lineBreaks a) = documentLinesFrom cur' s ∧
      cur'.reverse <:+ cur.reverse ++ a := by
  fun_induction documentLinesFrom cur a with
  | case1 cur => exact ⟨cur, rfl, by simp⟩
  | case2 cur a ih =>
    obtain ⟨cur', hdrop, hcur⟩ := ih
    refine ⟨cur', ?_, hcur.trans ⟨cur.reverse ++ ['\r', '\n'], by simp⟩⟩
    rw [← hdrop, lineBreaks, List.count_cons_of_ne (by decide), List.count_cons_self, List.cons_append,
      List.cons_append, documentLinesFrom]
    rfl
  | case3 cur c a hcr hc ih =>
    obtain rfl : c = '\n' := beq_iff_eq.mp hc
    obtain ⟨cur', hdrop, hcur⟩ := ih
    refine ⟨cur', ?_, hcur.trans ⟨cur.reverse ++ ['\n'], by simp⟩⟩
    rw [← hdrop, lineBreaks, List.count_cons_self]
    rfl
  | case4 cur c a hcr hc ih =>
    obtain ⟨cur', hdrop, hcur⟩ := ih
    have hnot : ∀ t, c = '\r' → a ++ s = '\n' :: t → False := fun t hr ht => by
      cases a with
      | nil => exact hs (by rw [List.nil_append] at ht; rw [ht]; rfl)
      | cons d a =>
        obtain ⟨rfl, -⟩ := List.cons.inj ht
        exact hcr a hr rfl
    refine ⟨cur', ?_, by simpa using hcur⟩
    rw [← hdrop, List.cons_append, documentLinesFrom.eq_3 cur c _ hnot, if_neg hc, lineBreaks,
      List.count_cons_of_ne (by simpa using hc)]
    rfl

/-- A text without line breaks goes on with its line. -/
theorem documentLinesFrom_append {w : List Char} (hn : '\n' ∉ w) (hr : '\r' ∉ w) (cur b : List Char) :
    documentLinesFrom cur (w ++ b) = documentLinesFrom (w.reverse ++ cur) b := by
  induction w generalizing cur with
  | nil => rfl
  | cons c w ih =>
    rw [List.mem_cons, not_or] at hn hr
    have hnot : ∀ t, c = '\r' → w ++ b = '\n' :: t → False := fun _ e => absurd e.symm hr.1
    rw [List.cons_append, documentLinesFrom.eq_3 cur c _ hnot, if_neg (by simpa using Ne.symm hn.1),
      ih hn.2 hr.2, List.reverse_cons, List.append_assoc, List.singleton_append]

theorem head?_documentLinesFrom (cur b : List Char) :
    ∃ v, (documentLinesFrom cur b).head? = some (cur.reverse ++ v) ∧ v <+: b := by
  fun_induction documentLinesFrom cur b with
  | case1 cur => exact ⟨[], by simp, List.nil_prefix⟩
  | case2 cur b ih => exact ⟨[], by simp, List.nil_prefix⟩
  | case3 cur c b hcr hc ih => exact ⟨[], by simp, List.nil_prefix⟩
  | case4 cur c b hcr hc ih =>
    obtain ⟨v, hv, hb⟩ := ih
    exact ⟨c :: v, by simpa using hv, (List.cons_prefix_cons).mpr ⟨rfl, hb⟩⟩

/-- The line that holds a word has the number of the line breaks in front of the word. -/
theorem exists_documentLine {w : List Char} (hw : w ≠ []) (hn : '\n' ∉ w) (hr : '\r' ∉ w)
    (a b : List Char) :
    ∃ u v, (documentLines (a ++ (w ++ b)))[lineBreaks a]? = some (u ++ (w ++ v)) ∧ u <:+ a ∧ v <+: b := by
  have hhead : (w ++ b).head? ≠ some '\n' := by
    obtain ⟨c, t, rfl⟩ := List.exists_cons_of_ne_nil hw
    rintro h
    exact hn (by simp [Option.some.inj h])
  obtain ⟨cur, hdrop, hcur⟩ := drop_documentLinesFrom [] a hhead
  obtain ⟨v, hv, hb⟩ := head?_documentLinesFrom (w.reverse ++ cur) b
  refine ⟨cur.reverse, v, ?_, by simpa using hcur, hb⟩
  rw [documentLines, ← List.head?_drop, hdrop, documentLinesFrom_append hn hr, hv]
  simp

/-! ## Texts with given lines -/

/-- A text is made of some lines, each of which ends at `\n` or `\r\n`; the last one may end the
text as well. -/
inductive HasLines : List (List Char) → List Char → Prop
  | nil : HasLines [] []
  | last (l : List Char) : HasLines [l] l
  | lf {ls : List (List Char)} {s : List Char} (l : List Char) (h : HasLines ls s) :
    HasLines (l :: ls) (l ++ '\n' :: s)
  | crlf {ls : List (List Char)} {s : List Char} (l : List Char) (h : HasLines ls s) :
    HasLines (l :: ls) (l ++ '\r' :: '\n' :: s)

theorem HasLines.eq_nil {s : List Char} (h : HasLines [] s) : s = [] := by
  cases h
  rfl

/-- Behind a line stands nothing, or its end and the lines that follow. -/
theorem HasLines.cons_cases {l : List Char} {ls : List (List Char)} {s : List Char}
    (h : HasLines (l :: ls) s) :
    ls = [] ∧ s = l ∨ ∃ cr t, (cr = [] ∨ cr = ['\r']) ∧ s = l ++ (cr ++ '\n' :: t) ∧ HasLines ls t := by
  cases h with
  | last => exact .inl ⟨rfl, rfl⟩
  | lf _ h => exact .inr ⟨[], _, .inl rfl, rfl, h⟩
  | crlf _ h => exact .inr ⟨['\r'], _, .inr rfl, rfl, h⟩

/-- A text begins with its first line. -/
theorem HasLines.starts {l : List Char} {ls : List (List Char)} {s : List Char}
    (h : HasLines (l :: ls) s) : l <+: s := by
  rcases h.cons_cases with ⟨-, rfl⟩ | ⟨cr, t, -, rfl, -⟩
  · exact List.prefix_rfl
  · exact List.prefix_append l _

/-- Unifying line ends leaves all other characters. -/
theorem mem_unifyNewlines {c : Char} (hr : c ≠ '\r') (hn : c ≠ '\n') {s : List Char} :
    c ∈ unifyNewlines s ↔ c ∈ s := by
  fun_induction unifyNewlines s with
  | case1 => exact Iff.rfl
  | case2 s ih => simp only [List.mem_cons, hr, hn, ih, false_or]
  | case3 d s _ ih =>
    rw [List.mem_cons, List.mem_cons, ih]
    split
    · rename_i hd
      simp only [beq_iff_eq.mp hd, hr, hn]
    · rfl
end ScriptService.Text
