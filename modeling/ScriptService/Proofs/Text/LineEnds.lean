import Mathlib.Data.List.Basic
import Mathlib.Data.List.Induction
import Mathlib.Data.List.TakeWhile
import ScriptService.Proofs.Text.Class
import ScriptService.Text.Lines

/-!
# Line ends

A text is written with line ends `\r\n` (`crlf`). Each class of characters that tells
`\n` and `\r` not apart takes the same from both (`takeWhile_crlf`, `dropWhile_crlf`),
so both have the same words (`words_crlf`); a text without `\r` has the same lines
in both (`textLines_crlf`), and is what reading the other one gives
(`unifyNewlines_crlf`). Whatever follows it, a text with no line boundary of its own is
one line (`textLines_line`).
-/

namespace ScriptService.Text

/-- A text with line ends `\r\n` for `\n`. -/
def crlf (s : List Char) : List Char :=
  s.flatMap fun c => if c = '\n' then ['\r', '\n'] else [c]

@[simp]
theorem crlf_nil : crlf [] = [] := rfl

@[simp]
theorem crlf_newline (s : List Char) : crlf ('\n' :: s) = '\r' :: '\n' :: crlf s := rfl

theorem crlf_cons {c : Char} (hc : c ≠ '\n') (s : List Char) : crlf (c :: s) = c :: crlf s := by
  rw [crlf, List.flatMap_cons, if_neg hc]
  rfl

@[simp]
theorem crlf_append (a b : List Char) : crlf (a ++ b) = crlf a ++ crlf b :=
  List.flatMap_append

theorem crlf_eq_self {s : List Char} (h : '\n' ∉ s) : crlf s = s := by
  induction s with
  | nil => rfl
  | cons c s ih =>
    rw [List.mem_cons, not_or] at h
    rw [crlf_cons (Ne.symm h.1), ih h.2]

theorem mem_crlf {c : Char} (hc : c ≠ '\r') {s : List Char} : c ∈ crlf s ↔ c ∈ s := by
  rw [crlf, List.mem_flatMap]
  constructor
  · rintro ⟨d, hd, h⟩
    split at h
    · rename_i hn
      have hc' : c = '\n' := by simpa [hc] using h
      rwa [hc', ← hn]
    · rwa [List.mem_singleton.mp h]
  · intro h
    refine ⟨c, h, ?_⟩
    split
    · rename_i hn
      simp [hn]
    · exact List.mem_singleton_self c

theorem crlf_ne_self {s : List Char} (h : '\n' ∈ s) : crlf s ≠ s := by
  have hlen : ∀ s, s.length + s.count '\n' = (crlf s).length := fun s => by
    induction s with
    | nil => rfl
    | cons c s ih =>
      by_cases hc : c = '\n'
      · subst hc
        rw [crlf_newline, List.count_cons_self]
        simp only [List.length_cons]
        omega
      · rw [crlf_cons hc, List.count_cons_of_ne hc]
        simp only [List.length_cons]
        omega
  intro e
  have hcount := List.count_pos_iff.mpr h
  have := hlen s
  rw [e] at this
  omega

theorem lineBreaks_crlf (s : List Char) : lineBreaks (crlf s) = lineBreaks s := by
  rw [lineBreaks, lineBreaks]
  induction s with
  | nil => rfl
  | cons c s ih =>
    by_cases hc : c = '\n'
    · rw [hc, crlf_newline, List.count_cons_of_ne (by decide), List.count_cons_self, List.count_cons_self, ih]
    · rw [crlf_cons hc, List.count_cons_of_ne hc, List.count_cons_of_ne hc, ih]

theorem getLast?_crlf (s : List Char) : (crlf s).getLast? = s.getLast? := by
  induction s using List.reverseRecOn with
  | nil => rfl
  | append_singleton s c =>
    by_cases hc : c = '\n'
    · subst hc
      rw [crlf_append, List.getLast?_concat]
      exact List.getLast?_append_of_ne_nil _ (by decide)
    · rw [crlf_append, crlf_cons hc, crlf_nil, List.getLast?_concat, List.getLast?_concat]

theorem head?_crlf_any {p : Char → Bool} (hp : p '\r' = p '\n') (s : List Char) :
    (crlf s).head?.any p = s.head?.any p := by
  cases s with
  | nil => rfl
  | cons c s =>
    by_cases hc : c = '\n'
    · subst hc
      exact hp
    · rw [crlf_cons hc]
      rfl

/-- To read a text unifies its line ends. -/
theorem unifyNewlines_crlf {s : List Char} (h : '\r' ∉ s) : unifyNewlines (crlf s) = s := by
  induction s with
  | nil => rfl
  | cons c s ih =>
    rw [List.mem_cons, not_or] at h
    by_cases hc : c = '\n'
    · subst hc
      rw [crlf_newline, unifyNewlines, ih h.2]
    · have hnot : ∀ t, c = '\r' → crlf s = '\n' :: t → False := fun _ e => absurd e.symm h.1
      rw [crlf_cons hc, unifyNewlines.eq_3 c _ hnot, if_neg (by simpa using Ne.symm h.1), ih h.2]

/-! ## Classes that tell no line ends apart -/

section

variable {p : Char → Bool} (hp : p '\r' = p '\n')
include hp

theorem takeWhile_crlf (s : List Char) : (crlf s).takeWhile p = crlf (s.takeWhile p) := by
  induction s with
  | nil => rfl
  | cons c s ih =>
    by_cases hc : c = '\n'
    · subst hc
      cases hb : p '\n' with
      | true =>
        rw [crlf_newline, List.takeWhile_cons_of_pos (hp.trans hb), List.takeWhile_cons_of_pos hb,
          List.takeWhile_cons_of_pos hb, crlf_newline, ih]
      | false =>
        rw [crlf_newline, List.takeWhile_cons_of_neg (Bool.eq_false_iff.mp (hp.trans hb)),
          List.takeWhile_cons_of_neg (Bool.eq_false_iff.mp hb), crlf_nil]
    · rw [crlf_cons hc, List.takeWhile_cons, List.takeWhile_cons, ih]
      split
      · rw [crlf_cons hc]
      · rfl

theorem dropWhile_crlf (s : List Char) : (crlf s).dropWhile p = crlf (s.dropWhile p) := by
  have h : (crlf s).takeWhile p ++ (crlf s).dropWhile p = crlf (s.takeWhile p) ++ crlf (s.dropWhile p) := by
    rw [List.takeWhile_append_dropWhile, ← crlf_append, List.takeWhile_append_dropWhile]
  rw [takeWhile_crlf hp] at h
  exact List.append_cancel_left h

end

theorem isBlank_cr : isBlank '\r' = true := by decide

theorem isBlank_lf : isBlank '\n' = true := by decide

theorem isBlank_lineEnds : isBlank '\r' = isBlank '\n' := isBlank_cr.trans isBlank_lf.symm

theorem isBlank_of_isLineBoundary {c : Char} (h : isLineBoundary c = true) : isBlank c = true := by
  simp only [isLineBoundary, Bool.or_eq_true, beq_iff_eq] at h
  rcases h with ((((((((rfl | rfl) | rfl) | rfl) | rfl) | rfl) | rfl) | rfl) | rfl) | rfl <;> decide

/-! ## Trimmed texts and words -/

theorem trimRight_crlf (s : List Char) : trimRight (crlf s) = crlf (trimRight s) := by
  induction s using List.reverseRecOn with
  | nil => rfl
  | append_singleton s c ih =>
    by_cases hc : c = '\n'
    · subst hc
      have hend : crlf (s ++ ['\n']) = (crlf s ++ ['\r']) ++ ['\n'] := by
        rw [crlf_append, List.append_assoc]
        rfl
      rw [hend, trimRight_concat_blank isBlank_lf, trimRight_concat_blank isBlank_cr,
        trimRight_concat_blank isBlank_lf, ih]
    · rw [crlf_append, crlf_cons hc, crlf_nil]
      cases hb : isBlank c with
      | true => rw [trimRight_concat_blank hb, trimRight_concat_blank hb, ih]
      | false => rw [trimRight_concat hb, trimRight_concat hb, crlf_append, crlf_cons hc, crlf_nil]

theorem trim_crlf (s : List Char) : trim (crlf s) = crlf (trim s) := by
  rw [trim, trimLeft, dropWhile_crlf isBlank_lineEnds, trimRight_crlf]
  rfl

theorem wordsFrom_crlf (cur s : List Char) : wordsFrom cur (crlf s) = wordsFrom cur s := by
  induction s generalizing cur with
  | nil => rfl
  | cons c s ih =>
    by_cases hc : c = '\n'
    · subst hc
      -- behind the `\r`, the `\n` ends no further word
      simp only [crlf_newline, wordsFrom, isBlank_cr, isBlank_lf, if_true, List.isEmpty_nil, ih]
    · rw [crlf_cons hc, wordsFrom, wordsFrom]
      simp only [ih]

theorem words_crlf (s : List Char) : words (crlf s) = words s :=
  wordsFrom_crlf [] s

theorem collapse_crlf (s : List Char) : collapse (crlf s) = collapse s := by
  rw [collapse, words_crlf, collapse]

/-! ## Lines of a comment -/

theorem textLinesFrom_cons {c : Char} (hc : c ≠ '\r') (cur s : List Char) :
    textLinesFrom cur (c :: s) =
      if isLineBoundary c then cur.reverse :: textLinesFrom [] s else textLinesFrom (c :: cur) s := by
  rw [textLinesFrom.eq_def]
  split
  · rename_i h
    cases h
  · rename_i h
    exact absurd (List.cons.inj h).1 hc
  · rename_i h
    obtain ⟨rfl, rfl⟩ := List.cons.inj h
    rfl

/-- A text without line boundaries goes on with its line. -/
theorem textLinesFrom_append {l : List Char} (h : l.all (!isLineBoundary ·) = true) (cur s : List Char) :
    textLinesFrom cur (l ++ s) = textLinesFrom (l.reverse ++ cur) s := by
  induction l generalizing cur with
  | nil => rfl
  | cons c l ih =>
    rw [List.all_cons, Bool.and_eq_true, Bool.not_eq_true'] at h
    have hcr : c ≠ '\r' := fun e => by
      rw [e] at h
      exact absurd h.1 (by decide)
    rw [List.cons_append, textLinesFrom_cons hcr, h.1, if_neg Bool.false_ne_true, ih h.2,
      List.reverse_cons, List.append_assoc, List.singleton_append]

theorem textLines_line {l : List Char} (h : l.all (!isLineBoundary ·) = true) (s : List Char) :
    textLines (l ++ '\n' :: s) = l :: textLines s := by
  rw [textLines, textLinesFrom_append h, textLinesFrom_cons (by decide), if_pos (by decide),
    List.append_nil, List.reverse_reverse, textLines]

theorem textLinesFrom_crlf {s : List Char} (h : '\r' ∉ s) (cur : List Char) :
    textLinesFrom cur (crlf s) = textLinesFrom cur s := by
  induction s generalizing cur with
  | nil => rfl
  | cons c s ih =>
    rw [List.mem_cons, not_or] at h
    rw [textLinesFrom_cons (Ne.symm h.1)]
    by_cases hc : c = '\n'
    · subst hc
      exact congrArg (cur.reverse :: ·) (ih h.2 [])
    · rw [crlf_cons hc, textLinesFrom_cons (Ne.symm h.1), ih h.2, ih h.2]

theorem textLines_crlf {s : List Char} (h : '\r' ∉ s) : textLines (crlf s) = textLines s :=
  textLinesFrom_crlf h []

end ScriptService.Text
