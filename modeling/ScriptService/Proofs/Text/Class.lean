import Mathlib.Data.List.TakeWhile
import ScriptService.Text.Blank
import ScriptService.Text.Word

/-!
# Classes of characters

A set of code points is the union of its runs (`CodeSet.exists_run`), so two sets
are disjoint if their runs are: no word character is blank (`isBlank_of_isWord`).
What is taken of a class ends where a character outside it stands
(`takeWhile_append_stop`). Trimming undoes blanks at both ends of a text
(`trim_blank_append`, `trim_append_blank`) and nothing else (`trim_eq_self`), and they
change nothing about its words (`words_cons_blank`, `words_concat_blank`). A run of a
class is told by what stands around it (`IsRun`).
-/

namespace ScriptService.Text

/-- The runs of a set as half-open intervals, where the next length is that of a run when `inRun`. -/
def CodeSet.runsFrom (inRun : Bool) (start : Nat) : List Nat → List (Nat × Nat)
  | [] => []
  | k :: ks =>
    if inRun then (start, start + k) :: runsFrom (!inRun) (start + k) ks
    else runsFrom (!inRun) (start + k) ks

theorem CodeSet.exists_run {inRun : Bool} {ks : List Nat} {n : Nat} (start : Nat)
    (h : (offsetFrom inRun ks n).isSome) :
    ∃ r ∈ runsFrom inRun start ks, r.1 ≤ start + n ∧ start + n < r.2 := by
  induction ks generalizing inRun n start with
  | nil => simp [offsetFrom] at h
  | cons k ks ih =>
    rw [offsetFrom] at h
    rw [runsFrom]
    split at h
    · rename_i hk
      cases inRun with
      | false => simp at h
      | true => exact ⟨_, List.mem_cons_self, by simp, by simpa using hk⟩
    · rename_i hk
      obtain ⟨r, hr, hlow, hhigh⟩ := ih (start + k) h
      have hmem : r ∈ if inRun then (start, start + k) :: runsFrom (!inRun) (start + k) ks
          else runsFrom (!inRun) (start + k) ks := by
        split
        · exact List.mem_cons_of_mem _ hr
        · exact hr
      exact ⟨r, hmem, by omega, by omega⟩

/-- Sets whose runs do not meet have no character in common. -/
theorem CodeSet.disjoint {s t : CodeSet}
    (h : ∀ r ∈ runsFrom false 0 s.lengths, ∀ q ∈ runsFrom false 0 t.lengths, r.2 ≤ q.1 ∨ q.2 ≤ r.1)
    {c : Char} (hs : s.contains c = true) : t.contains c = false := by
  refine Bool.eq_false_iff.mpr fun ht => ?_
  obtain ⟨r, hr, hrl, hrh⟩ := exists_run 0 hs
  obtain ⟨q, hq, hql, hqh⟩ := exists_run 0 ht
  have := h r hr q hq
  omega

theorem isBlank_of_isWord {c : Char} (h : isWord c = true) : isBlank c = false :=
  CodeSet.disjoint (s := wordSet) (by decide +kernel) h

theorem isWord_of_isBlank {c : Char} (h : isBlank c = true) : isWord c = false :=
  Bool.eq_false_iff.mpr fun hw => by rw [isBlank_of_isWord hw] at h; cases h

theorem isBlank_of_isGap {c : Char} (h : isGap c = true) : isBlank c = true := by
  simp only [isGap, Bool.or_eq_true, beq_iff_eq] at h
  rcases h with rfl | rfl <;> decide

theorem isGap_of_isBlank {c : Char} (h : isBlank c = false) : isGap c = false :=
  Bool.eq_false_iff.mpr fun hg => Bool.eq_false_iff.mp h (isBlank_of_isGap hg)

/-- Where no character of a text is of a class, none at an end of it is. -/
theorem any_eq_false {p : Char → Bool} {s : List Char} (h : ∀ c ∈ s, p c = false) {o : Option Char}
    (ho : ∀ c ∈ o, c ∈ s) : o.any p = false := by
  cases o with
  | none => rfl
  | some c => exact h c (ho c rfl)

theorem head?_dropWhile_any (p : Char → Bool) (s : List Char) : (s.dropWhile p).head?.any p = false := by
  have h := List.head?_dropWhile_not p s
  cases hd : (s.dropWhile p).head? with
  | none => rfl
  | some c => rwa [hd] at h

theorem takeWhile_append_stop {p : Char → Bool} {u s : List Char} (hu : u.all p = true)
    (hs : s.head?.any p = false) : (u ++ s).takeWhile p = u := by
  have hstop : s.takeWhile p = [] := by
    cases s with
    | nil => rfl
    | cons c s => exact List.takeWhile_cons_of_neg (Bool.eq_false_iff.mp hs)
  rw [List.takeWhile_append_of_pos (List.all_eq_true.mp hu), hstop, List.append_nil]

theorem dropWhile_append_stop {p : Char → Bool} {u s : List Char} (hu : u.all p = true)
    (hs : s.head?.any p = false) : (u ++ s).dropWhile p = s := by
  rw [List.dropWhile_append_of_pos (List.all_eq_true.mp hu)]
  cases s with
  | nil => rfl
  | cons c s => exact List.dropWhile_cons_of_neg (Bool.eq_false_iff.mp hs)

theorem trimRight_eq_self {s : List Char} (h : s.getLast?.any isBlank = false) : trimRight s = s := by
  have hdrop : s.reverse.dropWhile isBlank = s.reverse := by
    rw [← List.head?_reverse] at h
    cases hr : s.reverse with
    | nil => rfl
    | cons c t =>
      have hc : isBlank c = false := by rwa [hr] at h
      rw [List.dropWhile_cons_of_neg (Bool.eq_false_iff.mp hc)]
  rw [trimRight, hdrop, List.reverse_reverse]

theorem exists_trimRight (s : List Char) : ∃ b, s = trimRight s ++ b ∧ b.all isBlank = true := by
  refine ⟨(s.reverse.takeWhile isBlank).reverse, ?_, ?_⟩
  · rw [trimRight, ← List.reverse_append, List.takeWhile_append_dropWhile, List.reverse_reverse]
  · rw [List.all_reverse]
    exact List.all_takeWhile

theorem trimRight_append_blank {b : List Char} (hb : b.all isBlank = true) (s : List Char) :
    trimRight (s ++ b) = trimRight s := by
  have hall : ∀ c ∈ b.reverse, isBlank c = true := fun c hc =>
    List.all_eq_true.mp hb c (List.mem_reverse.mp hc)
  rw [trimRight, List.reverse_append, List.dropWhile_append_of_pos hall, trimRight]

theorem trimRight_concat_blank {c : Char} (hc : isBlank c = true) (s : List Char) :
    trimRight (s ++ [c]) = trimRight s :=
  trimRight_append_blank (by simpa using hc) s

theorem trimRight_concat {c : Char} (hc : isBlank c = false) (s : List Char) :
    trimRight (s ++ [c]) = s ++ [c] :=
  trimRight_eq_self (by rw [List.getLast?_concat, Option.any_some, hc])

theorem trimRight_cons {c : Char} (hc : isBlank c = false) (s : List Char) :
    trimRight (c :: s) = c :: trimRight s := by
  rw [trimRight, List.reverse_cons, List.dropWhile_append]
  split
  · rename_i h
    rw [List.dropWhile_cons_of_neg (Bool.eq_false_iff.mp hc), trimRight, List.isEmpty_iff.mp h]
    rfl
  · rw [List.reverse_append, trimRight]
    rfl

theorem trim_append_blank {b : List Char} (hb : b.all isBlank = true) (s : List Char) :
    trim (s ++ b) = trim s := by
  rw [trim, trim, trimLeft, trimLeft, List.dropWhile_append]
  split
  · rename_i h
    rw [List.isEmpty_iff.mp h, List.dropWhile_eq_nil_iff.mpr (List.all_eq_true.mp hb)]
  · exact trimRight_append_blank hb _

theorem trim_concat_blank {c : Char} (hc : isBlank c = true) (s : List Char) :
    trim (s ++ [c]) = trim s :=
  trim_append_blank (by simpa using hc) s

theorem trim_blank_append {a : List Char} (ha : a.all isBlank = true) (s : List Char) :
    trim (a ++ s) = trim s := by
  rw [trim, trimLeft, List.dropWhile_append_of_pos (List.all_eq_true.mp ha)]
  rfl

theorem trim_trimRight (s : List Char) : trim (trimRight s) = trim s := by
  obtain ⟨b, hs, hb⟩ := exists_trimRight s
  exact (trim_append_blank hb (trimRight s)).symm.trans (congrArg trim hs.symm)

theorem trimLeft_eq_self {s : List Char} (h : s.head?.any isBlank = false) : trimLeft s = s := by
  cases s with
  | nil => rfl
  | cons c s => exact List.dropWhile_cons_of_neg (Bool.eq_false_iff.mp h)

theorem trimLeft_trimLeft (s : List Char) : trimLeft (trimLeft s) = trimLeft s :=
  trimLeft_eq_self (head?_dropWhile_any isBlank s)

theorem trim_trimLeft (s : List Char) : trim (trimLeft s) = trim s :=
  congrArg trimRight (trimLeft_trimLeft s)

theorem trim_cons {c : Char} (hc : isBlank c = false) (s : List Char) : trim (c :: s) = c :: trimRight s := by
  have hleft : trimLeft (c :: s) = c :: s := trimLeft_eq_self hc
  rw [trim, hleft, trimRight_cons hc]

theorem trim_eq_self {s : List Char} (hhead : s.head?.any isBlank = false)
    (hlast : s.getLast?.any isBlank = false) : trim s = s := by
  rw [trim, trimLeft_eq_self hhead, trimRight_eq_self hlast]

/-- A trimmed text ends in no blank. -/
theorem last_of_trim {s : List Char} (h : trim s = s) : s.getLast?.any isBlank = false := by
  rw [← h, trim, trimRight, List.getLast?_reverse]
  exact head?_dropWhile_any isBlank _

/-- A trimmed text begins with no blank. -/
theorem head_of_trim {s : List Char} (h : trim s = s) : s.head?.any isBlank = false := by
  cases s with
  | nil => rfl
  | cons c s =>
    rw [List.head?_cons, Option.any_some]
    refine Bool.eq_false_iff.mpr fun hc => ?_
    -- it would be shorter than itself
    have hle : (trim (c :: s)).length ≤ s.length := by
      rw [trim, trimLeft, List.dropWhile_cons_of_pos hc, trimRight, List.length_reverse]
      have hright := (List.dropWhile_sublist isBlank (l := (s.dropWhile isBlank).reverse)).length_le
      have hleft := (List.dropWhile_sublist isBlank (l := s)).length_le
      rw [List.length_reverse] at hright
      omega
    rw [h, List.length_cons] at hle
    omega

theorem words_cons_blank {c : Char} (hc : isBlank c = true) (s : List Char) : words (c :: s) = words s := by
  rw [words, wordsFrom, if_pos hc]
  rfl

theorem wordsFrom_concat_blank {c : Char} (hc : isBlank c = true) (cur s : List Char) :
    wordsFrom cur (s ++ [c]) = wordsFrom cur s := by
  induction s generalizing cur with
  | nil =>
    rw [List.nil_append, wordsFrom.eq_2, if_pos hc]
    rfl
  | cons d s ih =>
    rw [List.cons_append, wordsFrom, wordsFrom]
    simp only [ih]

theorem words_concat_blank {c : Char} (hc : isBlank c = true) (s : List Char) :
    words (s ++ [c]) = words s :=
  wordsFrom_concat_blank hc [] s

theorem not_isBlank_of_mem_words {s w : List Char} (hw : w ∈ words s) : ∀ c ∈ w, isBlank c = false := by
  have hfrom : ∀ cur s, (∀ c ∈ cur, isBlank c = false) →
      ∀ w ∈ wordsFrom cur s, ∀ c ∈ w, isBlank c = false := by
    intro cur s
    fun_induction wordsFrom cur s with
    | case1 => exact fun _ w hw => nomatch hw
    | case2 cur =>
      intro hcur w hw c hc
      rw [List.mem_singleton.mp hw, List.mem_reverse] at hc
      exact hcur c hc
    | case3 _ c s _ _ ih => exact fun _ => ih (List.forall_mem_nil _)
    | case4 cur c s _ _ ih =>
      intro hcur w hw d hd
      rcases List.mem_cons.mp hw with rfl | hw
      · exact hcur d (List.mem_reverse.mp hd)
      · exact ih (List.forall_mem_nil _) w hw d hd
    | case5 cur c s hc ih => exact fun hcur => ih (List.forall_mem_cons.mpr ⟨Bool.eq_false_iff.mpr hc, hcur⟩)
  exact hfrom [] s (List.forall_mem_nil _) w hw

/-- A character stands between others just if it stands in what they part. -/
theorem mem_intercalate {c d : Char} (h : c ≠ d) (ls : List (List Char)) :
    c ∈ [d].intercalate ls ↔ ∃ l ∈ ls, c ∈ l := by
  induction ls with
  | nil => simp
  | cons l ls ih =>
    cases ls with
    | nil => simp
    | cons m ls =>
      rw [List.intercalate_cons_cons, List.mem_append, List.mem_append, List.mem_singleton, ih]
      simp only [h, or_false, List.mem_cons, exists_eq_or_imp]

/-- Of white space, a collapsed text holds spaces only. -/
theorem not_mem_collapse {c : Char} (hc : isBlank c = true) (hspace : c ≠ ' ') (s : List Char) :
    c ∉ collapse s := by
  rw [collapse, mem_intercalate hspace]
  rintro ⟨w, hw, hmem⟩
  cases hc.symm.trans (not_isBlank_of_mem_words hw c hmem)

/-- Between two texts stands a run of characters of a class, which reaches into neither. -/
structure IsRun (p : Char → Bool) (u w v : List Char) : Prop where
  ne_nil : w ≠ []
  all : w.all p = true
  left : u.getLast?.any p = false
  right : v.head?.any p = false

/-- A run is one in every part of the text that holds it. -/
theorem IsRun.of_infix {p : Char → Bool} {a u w v b : List Char} (h : IsRun p a w b) (hu : u <:+ a)
    (hv : v <+: b) : IsRun p u w v := by
  refine ⟨h.ne_nil, h.all, ?_, ?_⟩
  · obtain ⟨t, rfl⟩ := hu
    cases hl : u.getLast? with
    | none => rfl
    | some c => simpa [List.getLast?_append, hl] using h.left
  · obtain ⟨t, rfl⟩ := hv
    cases v with
    | nil => rfl
    | cons c v => exact h.right

theorem IsRun.not_mem {p : Char → Bool} {u w v : List Char} (h : IsRun p u w v) {c : Char}
    (hc : p c = false) : c ∉ w := fun hm => by
  rw [List.all_eq_true.mp h.all c hm] at hc
  cases hc

end ScriptService.Text
