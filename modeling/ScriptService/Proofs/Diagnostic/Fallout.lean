import Mathlib.Tactic.MkIffOfInductiveProp
import ScriptService.Diagnostic.Fallout
import ScriptService.Proofs.Scan.Lines
import ScriptService.Proofs.Text.Class
import ScriptService.Proofs.Text.Decimal

/-!
# What the Fallout compiler's lines say

A complaint stays on its line (`complaint_onLine`), so a report is put together
from those on the lines of the output, and a line adds one complaint of each
severity at most. A complaint as the compiler prints it (`Line`) is read back
(`report_text`), with the numbers that its digits stand for.

`report_by_line` says both.
-/

namespace ScriptService.Fallout

open Text Scan

/-! ## Complaints stay on their lines -/

/-- The characters that may stand between angle brackets. -/
def isBracketed (c : Char) : Bool := c != '>' && c != '\n'

theorem bracketed?_eq (s : List Char) :
    bracketed? s = (word? "<" s).bind fun s =>
      (word? ">" (s.dropWhile isBracketed)).map fun rest => (s.takeWhile isBracketed, rest) := by
  rw [bracketed?]
  cases word? "<" s with
  | none => rfl
  | some s =>
    change (word? ">" (s.dropWhile isBracketed)).bind _ = (word? ">" (s.dropWhile isBracketed)).map _
    cases word? ">" (s.dropWhile isBracketed) <;> rfl

theorem bracketed?_newline (u v : List Char) :
    bracketed? (u ++ '\n' :: v) = (bracketed? u).map fun (t, rest) => (t, rest ++ '\n' :: v) := by
  have hstop : isBracketed '\n' = false := by decide
  rw [bracketed?_eq, bracketed?_eq, word?_newline (by decide)]
  cases word? "<" u with
  | none => rfl
  | some s =>
    simp only [Option.map_some, Option.bind_some, takeWhile_append_cons hstop,
      dropWhile_append_cons hstop, word?_newline (show '\n' ∉ ">".toList by decide), Option.map_map]
    rfl

theorem category?_newline (u v : List Char) :
    category? (u ++ '\n' :: v) = (category? u).map (· ++ '\n' :: v) := by
  rw [category?, category?, bracketed?_newline]
  cases bracketed? u with
  | none => rfl
  | some t =>
    simp only [Option.bind_eq_bind, Option.bind_some, Option.map_some,
      run?_newline (show isGap '\n' = false by decide)]
    cases run? isGap t.2 <;> rfl

/-- What follows a file's name: its line, its column and the message. -/
def numbers? (file s : List Char) : Option (Printed × List Char) := do
  let s ← word? ":" s
  let rest ← word? ":" (s.dropWhile isDecimal)
  let behind := ((word? ":" (rest.dropWhile isDecimal)).getD (rest.dropWhile isDecimal)).dropWhile isGap
  some (⟨file, s.takeWhile isDecimal, rest.takeWhile isDecimal, behind.takeWhile (· != '\n')⟩,
    behind.dropWhile (· != '\n'))

theorem place?_eq (s : List Char) :
    place? s = (bracketed? s).bind fun (file, s) => if file.isEmpty then none else numbers? file s :=
  rfl

theorem numbers?_newline (file u v : List Char) :
    numbers? file (u ++ '\n' :: v) = (numbers? file u).map fun (p, rest) => (p, rest ++ '\n' :: v) := by
  have hdigit : isDecimal '\n' = false := by decide
  have hgap : isGap '\n' = false := by decide
  have hline : ('\n' != '\n') = false := rfl
  have hcolon : '\n' ∉ ":".toList := by decide
  have hgetD : ∀ s, ((word? ":" (s ++ '\n' :: v)).getD (s ++ '\n' :: v)) =
      (word? ":" s).getD s ++ '\n' :: v := fun s => by
    rw [word?_newline hcolon]
    cases word? ":" s <;> rfl
  rw [numbers?, numbers?, word?_newline hcolon]
  cases word? ":" u with
  | none => rfl
  | some s =>
    simp only [Option.map_some, Option.bind_eq_bind, Option.bind_some,
      dropWhile_append_cons hdigit, takeWhile_append_cons hdigit, word?_newline hcolon]
    cases word? ":" (s.dropWhile isDecimal) with
    | none => rfl
    | some rest =>
      simp only [Option.map_some, Option.bind_some, dropWhile_append_cons hdigit,
        takeWhile_append_cons hdigit, hgetD, dropWhile_append_cons hgap]
      rw [takeWhile_append_cons (p := (· != '\n')) hline, dropWhile_append_cons (p := (· != '\n')) hline]

theorem place?_newline (u v : List Char) :
    place? (u ++ '\n' :: v) = (place? u).map fun (p, rest) => (p, rest ++ '\n' :: v) := by
  rw [place?_eq, place?_eq, bracketed?_newline]
  cases bracketed? u with
  | none => rfl
  | some t =>
    simp only [Option.map_some, Option.bind_some, numbers?_newline]
    split <;> rfl

theorem bracketed?_suffix {s t rest : List Char} (h : bracketed? s = some (t, rest)) : rest <:+ s := by
  rw [bracketed?_eq, Option.bind_eq_some_iff] at h
  obtain ⟨s₁, h₁, h⟩ := h
  obtain ⟨rest', h₂, h⟩ := Option.map_eq_some_iff.mp h
  obtain ⟨-, rfl⟩ := Prod.mk.inj h
  exact (word?_suffix h₂).trans ((List.dropWhile_suffix _).trans (word?_suffix h₁))

theorem category?_suffix {s rest : List Char} (h : category? s = some rest) : rest <:+ s := by
  rw [category?, Option.bind_eq_bind, Option.bind_eq_some_iff] at h
  obtain ⟨⟨t, s₁⟩, h₁, h⟩ := h
  dsimp only at h
  rw [Option.bind_eq_some_iff] at h
  obtain ⟨⟨gap, s₂⟩, h₂, h⟩ := h
  obtain rfl := Option.some.inj h
  exact (run?_suffix h₂).trans (bracketed?_suffix h₁)

theorem getD_word?_suffix (w : String) (s : List Char) : (word? w s).getD s <:+ s := by
  cases h : word? w s with
  | none => exact List.suffix_rfl
  | some rest => exact word?_suffix h

/-- What stands behind a complaint stands behind the line of the complaint. -/
theorem place?_rest {s : List Char} {p : Printed} {rest : List Char} (h : place? s = some (p, rest)) :
    ∃ t, t <:+ s ∧ rest = t.dropWhile (· != '\n') := by
  rw [place?_eq, Option.bind_eq_some_iff] at h
  obtain ⟨⟨file, s₁⟩, h₁, h⟩ := h
  dsimp only at h
  split at h
  · cases h
  · rw [numbers?, Option.bind_eq_bind, Option.bind_eq_some_iff] at h
    obtain ⟨s₂, h₂, h⟩ := h
    rw [Option.bind_eq_some_iff] at h
    obtain ⟨s₃, h₃, h⟩ := h
    obtain ⟨-, rfl⟩ := Prod.mk.inj (Option.some.inj h)
    have hline : s₃ <:+ s₁ := (word?_suffix h₃).trans ((List.dropWhile_suffix _).trans (word?_suffix h₂))
    have hcolumn := (getD_word?_suffix ":" (s₃.dropWhile isDecimal)).trans (List.dropWhile_suffix _)
    exact ⟨_, (List.dropWhile_suffix isGap).trans (hcolumn.trans (hline.trans (bracketed?_suffix h₁))), rfl⟩

theorem complaint_eq (w : String) (before : Option Char) (s : List Char) :
    complaint w before s = (word? w s).bind fun s => (run? isGap s).bind fun (_, s) =>
      ((category? s).bind place?).or (place? s) := by
  rw [complaint]
  cases word? w s with
  | none => rfl
  | some s =>
    simp only [Option.bind_eq_bind, Option.bind_some, Option.orElse_eq_orElse, Option.orElse_eq_or]

/-- A complaint stays on its line, if its mark does. -/
theorem complaint_onLine {w : String} (hw : '\n' ∉ w.toList) (hne : w.toList ≠ []) :
    (complaint w).OnLine where
  before_eq _ _ := rfl
  nil before := by
    rw [complaint, word?_eq_none (by simpa using hne)]
    rfl
  newline before u v := by
    rw [complaint_eq, complaint_eq, word?_newline hw]
    cases word? w u with
    | none => rfl
    | some s =>
      simp only [Option.map_some, Option.bind_some, run?_newline (show isGap '\n' = false by decide)]
      cases run? isGap s with
      | none => rfl
      | some t =>
        simp only [Option.map_some, Option.bind_some, category?_newline, place?_newline]
        cases category? t.2 with
        | none => rfl
        | some r =>
          simp only [Option.map_some, Option.bind_some, place?_newline]
          cases place? r <;> rfl
  rest_eq_nil {before s a rest} hs h := by
    rw [complaint_eq, Option.bind_eq_some_iff] at h
    obtain ⟨s₁, h₁, h⟩ := h
    rw [Option.bind_eq_some_iff] at h
    obtain ⟨⟨gap, s₂⟩, h₂, h⟩ := h
    have hs₂ : s₂ <:+ s := (run?_suffix h₂).trans (word?_suffix h₁)
    have hplace : ∃ t, t <:+ s ∧ rest = t.dropWhile (· != '\n') := by
      rcases Option.or_eq_some_iff.mp h with h | ⟨-, h⟩
      · obtain ⟨s₃, h₃, h⟩ := Option.bind_eq_some_iff.mp h
        obtain ⟨t, ht, he⟩ := place?_rest h
        exact ⟨t, ht.trans ((category?_suffix h₃).trans hs₂), he⟩
      · obtain ⟨t, ht, he⟩ := place?_rest h
        exact ⟨t, ht.trans hs₂, he⟩
    obtain ⟨t, ht, rfl⟩ := hplace
    rw [List.dropWhile_eq_nil_iff]
    intro c hc
    simp only [bne_iff_ne, ne_eq]
    rintro rfl
    exact hs (ht.subset hc)

theorem mark_onLine (severity : Severity) : (complaint (mark severity)).OnLine := by
  cases severity <;> exact complaint_onLine (by decide) (by decide)

/-! ## Complaints as they are printed -/

/-- A complaint on a line, as the compiler prints it. -/
structure Line where
  severity : Severity
  category : Option (List Char)
  file : List Char
  line : List Char
  /-- The column's digits, of which there may be none. -/
  column : List Char
  message : List Char

/-- A text between angle brackets. -/
def inBrackets (s : List Char) : List Char := '<' :: s ++ ['>']

/-- Where a complaint is and what it says. -/
def Line.place (l : Line) : List Char :=
  inBrackets l.file ++ ':' :: (l.line ++ ':' :: (l.column ++ ':' :: ' ' :: l.message))

/-- The line as it is printed. -/
def Line.text (l : Line) : List Char :=
  (mark l.severity).toList ++ ' ' :: (l.category.elim [] (inBrackets · ++ [' ']) ++ l.place)

/-- A text without the marks of complaints. -/
@[mk_iff]
structure IsUnmarked (s : List Char) : Prop where
  error : Lacks "[Error]" s
  warning : Lacks "[Warning]" s

/-- A text that can stand between angle brackets. -/
@[mk_iff]
structure IsBracketText (s : List Char) : Prop where
  unmarked : IsUnmarked s
  close : '>' ∉ s
  newline : '\n' ∉ s

/-- A text that can stand as a message: nothing blank at its ends. -/
@[mk_iff]
structure IsMessage (s : List Char) : Prop where
  unmarked : IsUnmarked s
  newline : '\n' ∉ s
  head : s.head?.any isBlank = false
  last : s.getLast?.any isBlank = false

/-- The parts of a line are what the places where they stand allow. -/
@[mk_iff]
structure Line.WellFormed (l : Line) : Prop where
  category : ∀ s ∈ l.category, IsBracketText s
  file : IsBracketText l.file
  file_ne_nil : l.file ≠ []
  line : IsDigits l.line
  line_ne_nil : l.line ≠ []
  column : IsDigits l.column
  message : IsMessage l.message

instance (s : List Char) : Decidable (IsUnmarked s) := decidable_of_iff' _ (isUnmarked_iff s)

instance (s : List Char) : Decidable (IsBracketText s) := decidable_of_iff' _ (isBracketText_iff s)

instance (s : List Char) : Decidable (IsMessage s) := decidable_of_iff' _ (isMessage_iff s)

instance (l : Line) : Decidable l.WellFormed := decidable_of_iff' _ (l.wellFormed_iff)

/-! ### Patterns on a line -/

theorem IsBracketText.all_isBracketed {s : List Char} (h : IsBracketText s) :
    s.all isBracketed = true := by
  refine List.all_eq_true.mpr fun c hc => ?_
  have hclose : c ≠ '>' := fun e => h.close (e ▸ hc)
  have hnewline : c ≠ '\n' := fun e => h.newline (e ▸ hc)
  simp [isBracketed, hclose, hnewline]

theorem bracketed?_inBrackets {t : List Char} (h : IsBracketText t) (s : List Char) :
    bracketed? (inBrackets t ++ s) = some (t, s) := by
  have htext : inBrackets t ++ s = "<".toList ++ (t ++ '>' :: s) := by simp [inBrackets]
  have hstop : isBracketed '>' = false := by decide
  have hclose : word? ">" ('>' :: s) = some s := word?_append ">" s
  rw [htext, bracketed?_eq, word?_append, Option.bind_some, takeWhile_run h.all_isBracketed hstop,
    dropWhile_run h.all_isBracketed hstop, hclose, Option.map_some]

theorem category?_inBrackets {t : List Char} (h : IsBracketText t) {s : List Char}
    (hs : s.head?.any isGap = false) : category? (inBrackets t ++ ' ' :: s) = some s := by
  have hgap : run? isGap (' ' :: s) = some ([' '], s) :=
    run?_append (u := [' ']) (by simp) (by decide) hs
  rw [category?, bracketed?_inBrackets h]
  simp only [Option.bind_eq_bind, Option.bind_some, hgap]

/-- A place without a gap behind its file is no category. -/
theorem category?_place {l : Line} (h : l.WellFormed) : category? l.place = none := by
  have hgap : ∀ s, run? isGap (':' :: s) = none := fun s => by
    rw [run?, List.takeWhile_cons_of_neg (by decide)]
    rfl
  rw [category?, Line.place, bracketed?_inBrackets h.file]
  simp only [Option.bind_eq_bind, Option.bind_some, hgap]
  rfl

/-- The parts of a line that are read. -/
def Line.printed (l : Line) : Printed := ⟨l.file, l.line, l.column, l.message⟩

theorem place?_place {l : Line} (h : l.WellFormed) : place? l.place = some (l.printed, []) := by
  have hcolon : ∀ s, word? ":" (':' :: s) = some s := word?_append ":"
  have hdigit : isDecimal ':' = false := by decide
  have hgap : (' ' :: l.message).dropWhile isGap = l.message := by
    rw [List.dropWhile_cons_of_pos (by decide)]
    cases hm : l.message with
    | nil => rfl
    | cons c s =>
      have hc : isBlank c = false := by
        have := h.message.head
        rwa [hm] at this
      rw [List.dropWhile_cons_of_neg (Bool.eq_false_iff.mp (isGap_of_isBlank hc))]
  have hline : ∀ c ∈ l.message, (c != '\n') = true := fun c hc => by
    rw [bne_iff_ne]
    rintro rfl
    exact h.message.newline hc
  rw [place?_eq, Line.place, bracketed?_inBrackets h.file, Option.bind_some]
  dsimp only
  rw [if_neg (by simpa using h.file_ne_nil), numbers?]
  simp only [Option.bind_eq_bind, Option.bind_some, hcolon, takeWhile_run h.line.decimal hdigit,
    dropWhile_run h.line.decimal hdigit, takeWhile_run h.column.decimal hdigit,
    dropWhile_run h.column.decimal hdigit, Option.getD_some, hgap,
    List.takeWhile_eq_self_iff.mpr hline, List.dropWhile_eq_nil_iff.mpr hline]
  rfl

theorem complaint_text {l : Line} (h : l.WellFormed) (before : Option Char) :
    complaint (mark l.severity) before l.text = some (l.printed, []) := by
  have hhead : l.place.head?.any isGap = false := by
    simp only [Line.place, inBrackets, List.cons_append, List.head?_cons]
    decide
  rw [complaint_eq, Line.text, word?_append, Option.bind_some]
  cases hc : l.category with
  | none =>
    have hgap : run? isGap (' ' :: l.place) = some ([' '], l.place) :=
      run?_append (u := [' ']) (by simp) (by decide) hhead
    simp only [Option.elim_none, List.nil_append, hgap, Option.bind_some, category?_place h,
      Option.bind_none, Option.none_or, place?_place h]
  | some t =>
    have ht : IsBracketText t := h.category t hc
    have htext : inBrackets t ++ [' '] ++ l.place = inBrackets t ++ ' ' :: l.place := by simp
    have hgap : run? isGap (' ' :: (inBrackets t ++ ' ' :: l.place)) =
        some ([' '], inBrackets t ++ ' ' :: l.place) :=
      run?_append (u := [' ']) (by simp) (by decide) (show isGap '<' = false by decide)
    simp only [Option.elim_some, htext, hgap, Option.bind_some, category?_inBrackets ht hhead,
      place?_place h, Option.some_or]

theorem IsUnmarked.lacks {s : List Char} (h : IsUnmarked s) (severity : Severity) :
    Lacks (mark severity) s := by
  cases severity
  · exact h.error
  · exact h.warning

/-- Digits hold no mark, as no digit is a square bracket. -/
theorem lacks_digits {s : List Char} (h : s.all isDecimal = true) (severity : Severity) :
    Lacks (mark severity) s := by
  have hmem : '[' ∈ (mark severity).toList := by cases severity <;> decide
  intro hw
  exact absurd (List.all_eq_true.mp h '[' (hw.subset hmem)) (by decide)

/-- The characters between the parts of a line are in no mark. -/
theorem separator_not_mem_mark (severity : Severity) {c : Char} (h : c ∈ ['<', '>', ':', ' ']) :
    c ∉ (mark severity).toList := by
  have hall : (['<', '>', ':', ' '].all fun c => !(mark severity).toList.contains c) = true := by
    cases severity <;> decide
  have hc := List.all_eq_true.mp hall c h
  rwa [Bool.not_eq_true', ← Bool.not_eq_true, List.contains_iff_mem] at hc

/-- No mark begins in one part of a line and ends in another. -/
theorem lacks_place {l : Line} (h : l.WellFormed) (severity : Severity) :
    Lacks (mark severity) l.place := by
  have hsep := fun c => separator_not_mem_mark severity (c := c)
  have hnil : Lacks (mark severity) [] := by cases severity <;> decide
  have htext : l.place = [] ++ '<' :: (l.file ++ '>' :: ([] ++ ':' :: (l.line ++ ':' ::
      (l.column ++ ':' :: ([] ++ ' ' :: l.message))))) := by
    simp [Line.place, inBrackets]
  have hmessage := hnil.append_cons (h.message.unmarked.lacks severity) (hsep ' ' (by simp))
  have hcolumn := (lacks_digits h.column.decimal severity).append_cons hmessage (hsep ':' (by simp))
  have hline := (lacks_digits h.line.decimal severity).append_cons hcolumn (hsep ':' (by simp))
  have hfile := (h.file.unmarked.lacks severity).append_cons
    (hnil.append_cons hline (hsep ':' (by simp))) (hsep '>' (by simp))
  rw [htext]
  exact hnil.append_cons hfile (hsep '<' (by simp))

theorem lacks_text {l : Line} (h : l.WellFormed) {severity : Severity} (hs : severity ≠ l.severity) :
    Lacks (mark severity) l.text := by
  have hsep := fun c => separator_not_mem_mark severity (c := c)
  have hnil : Lacks (mark severity) [] := by cases severity <;> decide
  have hmark : Lacks (mark severity) (mark l.severity).toList := by
    revert hs
    cases severity <;> cases l.severity <;> decide
  refine hmark.append_cons ?_ (hsep ' ' (by simp))
  cases hc : l.category with
  | none => exact lacks_place h severity
  | some t =>
    have htext : inBrackets t ++ [' '] ++ l.place = [] ++ '<' :: (t ++ '>' :: ([] ++ ' ' :: l.place)) := by
      simp [inBrackets]
    rw [Option.elim_some, htext]
    exact hnil.append_cons (((h.category t hc).unmarked.lacks severity).append_cons
      (hnil.append_cons (lacks_place h severity) (hsep ' ' (by simp))) (hsep '>' (by simp)))
      (hsep '<' (by simp))

/-- On a line as it is printed, one complaint of its severity is found. -/
theorem scan_text {l : Line} (h : l.WellFormed) :
    (complaint (mark l.severity)).scan l.text = [⟨0, l.text.length, l.printed⟩] := by
  have hne : l.text ≠ [] := by
    rw [Line.text]
    simp
  have hmatch := Pattern.scanFrom_of_match (v := []) hne
    (show complaint (mark l.severity) none (l.text ++ []) = some (l.printed, []) by
      rw [List.append_nil]
      exact complaint_text h none) 0
  rw [List.append_nil, (mark_onLine l.severity).scanFrom_nil] at hmatch
  exact hmatch

/-- And none of the other. -/
theorem scan_text_of_ne {l : Line} (h : l.WellFormed) (severity : Severity) (hs : severity ≠ l.severity) :
    (complaint (mark severity)).scan l.text = [] := by
  have hnone := Pattern.scanFrom_of_none (p := complaint (mark severity)) (u := l.text) (v := [])
    (fun b hb _ before => by
      have hw : ¬ (mark severity).toList <+: b ++ [] := fun hp =>
        lacks_text h hs ((List.append_nil b ▸ hp).isInfix.trans hb.isInfix)
      rw [complaint_eq, word?_eq_none hw, Option.bind_none]) none 0
  rw [List.append_nil, (mark_onLine severity).scanFrom_nil] at hnone
  exact hnone

/-! ## Reports -/

/-- The report of one complaint. -/
def single (c : Complaint) : Report :=
  match c.severity with
  | .error => { errors := [c] }
  | .warning => { warnings := [c] }

/-- What a line says. An error starts at the start of its line and ends in front of its column, a
warning starts at its column; a column without digits counts as zero. With the document at hand, a
warning ends in front of the next line. -/
def Line.complaint (document : Option String) (l : Line) : Complaint where
  file := String.ofList l.file
  line := number l.line
  columnStart := match l.severity with
    | .error => 0
    | .warning => number l.column
  columnEnd := match l.severity with
    | .error => max (number l.column - 1 : Int) 0
    | .warning => document.elim (number l.column : Int) fun d =>
        max ((LineOffsets.ofText d.toList).offsetAt (number l.line) 0 - 1) 0
  message := String.ofList l.message
  severity := l.severity

theorem error?_printed {l : Line} (h : l.WellFormed) (hs : l.severity = .error)
    (document : Option String) : error? l.printed = some (l.complaint document) := by
  have hmessage := trimRight_eq_self h.message.last
  have hline := numeral?_eq h.line h.line_ne_nil
  rw [error?]
  by_cases hc : l.column = []
  · have hnumber : number l.column = 0 := by rw [hc]; rfl
    simp only [Line.printed, hc, List.isEmpty_nil, if_true, Option.bind_eq_bind, Option.bind_some, hline,
      hmessage]
    rw [Line.complaint, hs, hnumber]
    rfl
  · have hcolumn := numeral?_eq h.column hc
    have hmax : ((number l.column - 1 : Nat) : Int) = max (number l.column - 1 : Int) 0 := by omega
    simp only [Line.printed, List.isEmpty_iff, hc, if_false, Option.bind_eq_bind, Option.bind_some,
      hcolumn, hline, hmessage, hmax]
    rw [Line.complaint, hs]

theorem warning?_printed {l : Line} (h : l.WellFormed) (hs : l.severity = .warning)
    (document : Option String) :
    warning? (document.map fun d => LineOffsets.ofText d.toList) l.printed =
      some (l.complaint document) := by
  have hmessage := trimRight_eq_self h.message.last
  have hline := numeral?_eq h.line h.line_ne_nil
  rw [warning?]
  by_cases hc : l.column = []
  · have hnumber : number l.column = 0 := by rw [hc]; rfl
    simp only [Line.printed, hc, List.isEmpty_nil, if_true, Option.bind_eq_bind, Option.bind_some, hline,
      hmessage]
    rw [Line.complaint, hs, hnumber]
    cases document <;> rfl
  · have hcolumn := numeral?_eq h.column hc
    simp only [Line.printed, List.isEmpty_iff, hc, if_false, Option.bind_eq_bind, Option.bind_some,
      hcolumn, hline, hmessage]
    rw [Line.complaint, hs]
    cases document <;> rfl

/-- A line as it is printed is read back. -/
theorem report_text {l : Line} (h : l.WellFormed) (document : Option String) :
    report (String.ofList l.text) document = single (l.complaint document) := by
  have hown := scan_text h
  have hother := scan_text_of_ne h
  have hsingle : (l.complaint document).severity = l.severity := rfl
  rw [report, single, hsingle, String.toList_ofList]
  cases hs : l.severity with
  | error =>
    rw [hs] at hown hother
    simp only [hown, hother .warning nofun, List.filterMap_nil, List.filterMap_cons,
      error?_printed h hs document]
  | warning =>
    rw [hs] at hown hother
    simp only [hown, hother .error nofun, List.filterMap_nil, List.filterMap_cons,
      warning?_printed h hs document]

/-- The lines of an output, cut at its line breaks. -/
def linesOf (output : String) : List String :=
  (output.toList.splitOn '\n').map String.ofList

theorem complaints_linesOf {severity : Severity} (read : Printed → Option Complaint) (output : String) :
    ((complaint (mark severity)).scan output.toList).filterMap (read ·.value) =
      (linesOf output).flatMap fun line =>
        ((complaint (mark severity)).scan line.toList).filterMap (read ·.value) := by
  have hvalues : ∀ s, ((complaint (mark severity)).scan s).filterMap (read ·.value) =
      (((complaint (mark severity)).scan s).map Scan.Match.value).filterMap read := fun s => by
    rw [List.filterMap_map]
    rfl
  rw [hvalues, (mark_onLine severity).values_scan, List.filterMap_flatMap, linesOf, List.flatMap_map]
  refine List.flatMap_congr fun line _ => ?_
  rw [hvalues, String.toList_ofList]

theorem length_complaints_le {severity : Severity} (read : Printed → Option Complaint) {output line : String}
    (h : line ∈ linesOf output) :
    (((complaint (mark severity)).scan line.toList).filterMap (read ·.value)).length ≤ 1 := by
  obtain ⟨s, hs, rfl⟩ := List.mem_map.mp h
  rw [String.toList_ofList]
  exact (List.length_filterMap_le _ _).trans ((mark_onLine severity).length_scan_le (not_mem_of_mem_splitOn hs))

/-- A report is that of the lines of the output, each of which adds one complaint of each severity at
most; and a line as it is printed adds what it says. -/
theorem report_by_line (output : String) (document : Option String) :
    ((report output document).errors =
        (linesOf output).flatMap (fun line => (report line document).errors) ∧
      (report output document).warnings =
        (linesOf output).flatMap (fun line => (report line document).warnings) ∧
      ∀ line ∈ linesOf output, (report line document).errors.length ≤ 1 ∧
        (report line document).warnings.length ≤ 1) ∧
      ∀ l : Line, l.WellFormed →
        report (String.ofList l.text) document = single (l.complaint document) := by
  refine ⟨⟨complaints_linesOf error? output, complaints_linesOf (warning? _) output, fun line h => ⟨?_, ?_⟩⟩,
    fun l h => report_text h document⟩
  · exact length_complaints_le error? h
  · exact length_complaints_le (warning? _) h

/-- A complaint about a file with angle brackets in its name, whose line has digits of two scripts. -/
def unknownIdentifier : Line where
  severity := .error
  category := some "Semantic".toList
  file := "<a<.ssl".toList
  line := "٢6".toList
  column := "25".toList
  message := "Unknown identifier [qq]:".toList

theorem unknownIdentifier_read :
    unknownIdentifier.WellFormed ∧
      report (String.ofList unknownIdentifier.text) none =
        { errors := [⟨"<a<.ssl", 26, 0, 24, "Unknown identifier [qq]:", .error⟩] } := by
  have hwf : unknownIdentifier.WellFormed := by decide +kernel
  refine ⟨hwf, ((report_by_line "" none).2 _ hwf).trans ?_⟩
  decide +kernel

end ScriptService.Fallout
