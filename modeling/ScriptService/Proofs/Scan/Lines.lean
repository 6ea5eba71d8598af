import Mathlib.Data.List.TakeWhile
import ScriptService.Proofs.Scan.Lexeme
import ScriptService.Proofs.Scan.Pieces

/-!
# Patterns that stay on a line

A line break ends what a piece of a pattern takes from a text, so what follows the
break changes nothing (`word?_newline`, `run?_newline`). A pattern of such pieces
stays on its line (`Pattern.OnLine`). What it finds in a text is what it finds in
the lines of the text, one after the other (`Pattern.OnLine.values_scan`); and if
it takes a line to its end, it finds one match there at most
(`Pattern.OnLine.length_scan_le`).
-/

namespace ScriptService.Scan

open Text

variable {α : Type}

/-! ## Pieces -/

theorem takeWhile_append_cons {p : Char → Bool} {c : Char} (hc : p c = false) (u v : List Char) :
    (u ++ c :: v).takeWhile p = u.takeWhile p := by
  rw [List.takeWhile_append, List.takeWhile_cons_of_neg (Bool.eq_false_iff.mp hc), List.append_nil]
  split
  · rename_i h
    exact ((List.takeWhile_prefix p).eq_of_length h).symm
  · rfl

theorem dropWhile_append_cons {p : Char → Bool} {c : Char} (hc : p c = false) (u v : List Char) :
    (u ++ c :: v).dropWhile p = u.dropWhile p ++ c :: v := by
  rw [List.dropWhile_append, List.dropWhile_cons_of_neg (Bool.eq_false_iff.mp hc)]
  split
  · rename_i h
    rw [List.isEmpty_iff.mp h, List.nil_append]
  · rfl

theorem takeWhile_run {p : Char → Bool} {u : List Char} {c : Char} (hu : u.all p = true)
    (hc : p c = false) (v : List Char) : (u ++ c :: v).takeWhile p = u :=
  takeWhile_append_stop hu hc

theorem dropWhile_run {p : Char → Bool} {u : List Char} {c : Char} (hu : u.all p = true)
    (hc : p c = false) (v : List Char) : (u ++ c :: v).dropWhile p = c :: v :=
  dropWhile_append_stop hu hc

theorem word?_newline {w : String} (hw : '\n' ∉ w.toList) (u v : List Char) :
    word? w (u ++ '\n' :: v) = (word? w u).map (· ++ '\n' :: v) := by
  by_cases h : w.toList <+: u
  · obtain ⟨t, rfl⟩ := h
    rw [List.append_assoc, word?_append, word?_append, Option.map_some]
  · rw [word?_eq_none h, word?_eq_none fun hp => h (prefix_of_prefix_append_cons hw hp),
      Option.map_none]

theorem run?_newline {p : Char → Bool} (hp : p '\n' = false) (u v : List Char) :
    run? p (u ++ '\n' :: v) = (run? p u).map fun (t, rest) => (t, rest ++ '\n' :: v) := by
  rw [run?, run?, takeWhile_append_cons hp, dropWhile_append_cons hp]
  split <;> rfl

theorem word?_suffix {w : String} {s rest : List Char} (h : word? w s = some rest) : rest <:+ s :=
  ⟨w.toList, List.isPrefixOf?_eq_some_iff_append_eq.mp h⟩

theorem run?_suffix {p : Char → Bool} {s t rest : List Char} (h : run? p s = some (t, rest)) :
    rest <:+ s := by
  rw [run?] at h
  split at h
  · cases h
  · obtain ⟨-, rfl⟩ := Prod.mk.inj (Option.some.inj h)
    exact List.dropWhile_suffix p

theorem not_mem_of_mem_splitOn {c : Char} {s line : List Char} (h : line ∈ s.splitOn c) : c ∉ line := by
  induction s generalizing line with
  | nil =>
    obtain rfl : line = [] := by simpa using h
    exact List.not_mem_nil
  | cons d s ih =>
    rw [List.splitOn_cons_eq_if_modifyHead] at h
    split at h
    · rcases List.mem_cons.mp h with rfl | h
      · exact List.not_mem_nil
      · exact ih h
    · rename_i hd
      obtain ⟨first, rest, hlines⟩ := List.exists_cons_of_ne_nil (List.splitOn_ne_nil c s)
      rw [hlines, List.modifyHead_cons, List.mem_cons] at h
      rcases h with rfl | h
      · have hfirst : c ∉ first := ih (hlines ▸ List.mem_cons_self)
        have hne : c ≠ d := fun e => hd (beq_iff_eq.mpr e.symm)
        exact List.not_mem_cons_of_ne_of_not_mem hne hfirst
      · exact ih (hlines ▸ List.mem_cons_of_mem _ h)

/-! ## Patterns -/

namespace Pattern

/-- A pattern stays on its line: neither what stands in front of a place nor what stands behind its
line changes what is found there, and what is found goes to the end of the line. -/
structure OnLine (p : Pattern α) : Prop where
  before_eq : ∀ before s, p before s = p none s
  nil : ∀ before, p before [] = none
  newline : ∀ before u v,
    p before (u ++ '\n' :: v) = (p before u).map fun (a, rest) => (a, rest ++ '\n' :: v)
  rest_eq_nil : ∀ {before s a rest}, '\n' ∉ s → p before s = some (a, rest) → rest = []

namespace OnLine

variable {p : Pattern α}

theorem scanFrom_nil (h : p.OnLine) (before : Option Char) (pos skip : Nat) :
    p.scanFrom before pos skip [] = [] := by
  rw [scanFrom, at?, h.nil]
  split <;> rfl

theorem at?_newline (h : p.OnLine) (before : Option Char) (pos : Nat) (u v : List Char) :
    p.at? before pos (u ++ '\n' :: v) = p.at? before pos u := by
  rw [at?, at?, h.newline, Option.map_map]
  refine Option.map_congr fun x _ => ?_
  obtain ⟨a, rest⟩ := x
  simp only [Function.comp_apply, List.length_append, Nat.add_sub_add_right]

/-- A match on a line that holds no line break takes the rest of the line. -/
theorem length_of_at? (h : p.OnLine) {before : Option Char} {pos : Nat} {s : List Char}
    (hs : '\n' ∉ s) {m : Match α} (hm : p.at? before pos s = some m) : m.length = s.length := by
  rw [at?, Option.map_eq_some_iff] at hm
  obtain ⟨⟨a, rest⟩, hp, rfl⟩ := hm
  dsimp only
  rw [h.rest_eq_nil hs hp, List.length_nil, Nat.sub_zero]

/-- What the scan finds does not depend on where the text starts. -/
theorem values_scanFrom (h : p.OnLine) (before : Option Char) (pos skip : Nat) (s : List Char) :
    (p.scanFrom before pos skip s).map Match.value = (p.scanFrom none 0 skip s).map Match.value := by
  have hat : ∀ before pos s, (p.at? before pos s).map (fun m => (m.length, m.value)) =
      (p.at? none 0 s).map fun m => (m.length, m.value) := fun before pos s => by
    rw [at?, at?, h.before_eq, Option.map_map, Option.map_map]
    rfl
  induction s generalizing before pos skip with
  | nil => rw [h.scanFrom_nil, h.scanFrom_nil]
  | cons c s ih =>
    cases skip with
    | succ k => rw [scanFrom, scanFrom, ih, ih (some c) (0 + 1)]
    | zero =>
      have hc := hat before pos (c :: s)
      rw [scanFrom, scanFrom]
      cases hb : p.at? before pos (c :: s) with
      | none =>
        rw [hb, Option.map_none, eq_comm, Option.map_eq_none_iff] at hc
        rw [hc]
        dsimp only
        rw [ih, ih (some c) (0 + 1)]
      | some m =>
        rw [hb, Option.map_some, eq_comm, Option.map_eq_some_iff] at hc
        obtain ⟨n, hn, he⟩ := hc
        obtain ⟨hlen, hval⟩ := Prod.mk.inj he
        rw [hn]
        dsimp only
        rw [List.map_cons, List.map_cons, ih, ih (some c) (0 + 1), hlen, hval]

/-- The matches in a line and those in the text behind its line break. -/
theorem scanFrom_newline (h : p.OnLine) {u : List Char} (hu : '\n' ∉ u) (v : List Char)
    (before : Option Char) (pos : Nat) {skip : Nat} (hskip : skip ≤ u.length) :
    p.scanFrom before pos skip (u ++ '\n' :: v) =
      p.scanFrom before pos skip u ++ p.scanFrom (some '\n') (pos + u.length + 1) 0 v := by
  induction u generalizing before pos skip with
  | nil =>
    obtain rfl : skip = 0 := Nat.le_zero.mp hskip
    have hnone : p.at? before pos ('\n' :: v) = none := by
      rw [← List.nil_append ('\n' :: v), h.at?_newline, at?, h.nil, Option.map_none]
    rw [List.nil_append, h.scanFrom_nil, scanFrom, hnone]
    rfl
  | cons c u ih =>
    rw [List.mem_cons, not_or] at hu
    have hpos : pos + (c :: u).length + 1 = pos + 1 + u.length + 1 := by
      rw [List.length_cons]
      omega
    cases skip with
    | succ k =>
      have hk : k ≤ u.length := Nat.le_of_succ_le_succ hskip
      rw [List.cons_append, scanFrom, scanFrom, ih hu.2 _ _ hk, hpos]
    | zero =>
      rw [List.cons_append, scanFrom, scanFrom, ← List.cons_append, h.at?_newline]
      cases hm : p.at? before pos (c :: u) with
      | none =>
        dsimp only
        rw [ih hu.2 _ _ (Nat.zero_le _), hpos]
      | some m =>
        have hlen : m.length - 1 ≤ u.length := by
          rw [h.length_of_at? (by simp [hu]) hm, List.length_cons, Nat.add_sub_cancel]
        dsimp only
        rw [ih hu.2 _ _ hlen, hpos]
        rfl

/-- What a pattern finds in a text is what it finds in the lines of the text. -/
theorem values_scan (h : p.OnLine) (text : List Char) :
    (p.scan text).map Match.value =
      (text.splitOn '\n').flatMap fun line => (p.scan line).map Match.value := by
  induction hn : text.length using Nat.strongRecOn generalizing text with
  | ind n ih =>
    by_cases hmem : '\n' ∈ text
    · obtain ⟨u, v, rfl, hu⟩ := List.eq_append_cons_of_mem hmem
      have hlt : v.length < n := by
        rw [← hn, List.length_append, List.length_cons]
        omega
      rw [List.splitOn_append_cons_self_of_not_mem hu, List.flatMap_cons, ← ih _ hlt v rfl, scan,
        h.scanFrom_newline hu v none 0 (Nat.zero_le _), List.map_append, h.values_scanFrom (some '\n')]
      rfl
    · rw [List.splitOn_eq_singleton hmem, List.flatMap_singleton]

/-- On a line that holds no line break there is one match at most. -/
theorem length_scan_le (h : p.OnLine) {line : List Char} (hl : '\n' ∉ line) :
    (p.scan line).length ≤ 1 := by
  have hfrom : ∀ (s : List Char) (before : Option Char) (pos : Nat), '\n' ∉ s →
      (p.scanFrom before pos 0 s).length ≤ 1 := fun s => by
    induction s with
    | nil =>
      intro before pos _
      rw [h.scanFrom_nil]
      exact Nat.zero_le 1
    | cons c s ih =>
      intro before pos hs
      rw [scanFrom]
      cases hm : p.at? before pos (c :: s) with
      | none => exact ih _ _ fun hmem => hs (List.mem_cons_of_mem c hmem)
      | some m =>
        -- the match takes the rest of the line
        have hrest := scanFrom_skip p (some c) (pos + 1) s []
        rw [List.append_nil, h.scanFrom_nil] at hrest
        have hlen : m.length - 1 = s.length := by
          rw [h.length_of_at? hs hm, List.length_cons, Nat.add_sub_cancel]
        dsimp only
        rw [hlen, hrest]
        exact Nat.le_refl 1
  exact hfrom line none 0 hl

end OnLine

end Pattern

end ScriptService.Scan
