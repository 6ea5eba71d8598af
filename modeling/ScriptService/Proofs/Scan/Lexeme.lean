import Mathlib.Data.List.Infix
import ScriptService.Proofs.Text.Class
import ScriptService.Scan.Lexeme

/-!
# Pieces of patterns on texts that hold them

What a piece takes from a text that begins with something it looks for: a word
(`word?_append`), a run up to the first character outside its class (`run?_append`),
a text up to the first stop (`upTo?_append`). A text may lack a word altogether
(`Lacks`); two such texts lack it together if the character between them is not
in the word (`Lacks.append_cons`).
-/

namespace ScriptService.Scan

open Text

theorem word?_append (w : String) (s : List Char) : word? w (w.toList ++ s) = some s :=
  List.isPrefixOf?_eq_some_iff_append_eq.mpr rfl

theorem word?_eq_none {w : String} {s : List Char} (h : ¬ w.toList <+: s) : word? w s = none := by
  by_contra hn
  obtain ⟨t, ht⟩ := Option.ne_none_iff_exists'.mp hn
  exact h ⟨t, List.isPrefixOf?_eq_some_iff_append_eq.mp ht⟩

theorem run?_append {p : Char → Bool} {u s : List Char} (hu : u ≠ []) (hp : u.all p = true)
    (hs : s.head?.any p = false) : run? p (u ++ s) = some (u, s) := by
  rw [run?, takeWhile_append_stop hp hs, dropWhile_append_stop hp hs, if_neg (by simpa using hu)]

theorem run?_eq_none {p : Char → Bool} {s : List Char} (h : s.head?.any p = false) : run? p s = none := by
  have htake : s.takeWhile p = [] := takeWhile_append_stop (u := []) rfl h
  rw [run?, htake]
  rfl

theorem upTo?_append {stop : Char} {u : List Char} (h : stop ∉ u) (s : List Char) :
    upTo? stop (u ++ stop :: s) = some (u, s) := by
  induction u with
  | nil => rw [List.nil_append, upTo?, if_pos (beq_self_eq_true stop)]
  | cons c u ih =>
    rw [List.mem_cons, not_or] at h
    rw [List.cons_append, upTo?, if_neg (by simpa using Ne.symm h.1), ih h.2]
    rfl

/-! ## Texts without a word -/

/-- A word stands nowhere in a text. -/
def Lacks (w : String) (s : List Char) : Prop := ¬ w.toList <:+: s

instance (w : String) (s : List Char) : Decidable (Lacks w s) :=
  inferInstanceAs (Decidable (¬ w.toList <:+: s))

theorem Lacks.of_infix {w : String} {s t : List Char} (h : Lacks w t) (hs : s <:+: t) : Lacks w s :=
  fun hw => h (hw.trans hs)

/-- A word in front of a text that goes on with a character outside the word lies within the text. -/
theorem prefix_of_prefix_append_cons {w b v : List Char} {c : Char} (hc : c ∉ w)
    (h : w <+: b ++ c :: v) : w <+: b := by
  rcases List.prefix_or_prefix_of_prefix h (List.prefix_append b (c :: v)) with hw | ⟨t, rfl⟩
  · exact hw
  · cases t with
    | nil => simp
    | cons d t =>
      obtain ⟨rest, hr⟩ := h
      rw [List.append_assoc, List.append_cancel_left_eq, List.cons_append, List.cons.injEq] at hr
      exact absurd (by simp [hr.1]) hc

theorem Lacks.not_starts {w : String} {u b v : List Char} {c : Char} (h : Lacks w u)
    (hc : c ∉ w.toList) (hb : b <:+ u) : ¬ w.toList <+: b ++ c :: v := fun hw =>
  h ((prefix_of_prefix_append_cons hc hw).isInfix.trans hb.isInfix)

/-- Texts on both sides of a character outside a word lack the word together. -/
theorem Lacks.append_cons {w : String} {a b : List Char} {c : Char} (ha : Lacks w a) (hb : Lacks w b)
    (hc : c ∉ w.toList) : Lacks w (a ++ c :: b) := by
  rintro ⟨s, t, h⟩
  rw [List.append_assoc] at h
  rcases List.append_eq_append_iff.mp h with ⟨u, rfl, hu⟩ | ⟨u, rfl, hu⟩
  · -- the word begins in the first text
    exact ha (((prefix_of_prefix_append_cons hc ⟨t, hu⟩).isInfix).trans ⟨s, [], by simp⟩)
  · cases u with
    | nil => exact hc (by
        cases hw : w.toList with
        | nil => exact absurd (hw ▸ List.nil_infix) hb
        | cons d w' =>
          rw [hw, List.nil_append, List.cons_append, List.cons.injEq] at hu
          simp [hu.1])
    | cons d u =>
      rw [List.cons_append, List.cons.injEq] at hu
      exact hb ⟨u, t, by rw [hu.2, List.append_assoc]⟩

end ScriptService.Scan
