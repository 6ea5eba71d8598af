import Mathlib.Data.List.Nodup
import ScriptService.Declaration.Extract
import ScriptService.Proofs.Scan.Pieces

/-!
# Extraction: sources, lines and order of symbols

Every symbol is that of a declaration, attributed to the text's file
(`Language.exists_declaration`). Where a text is made of pieces that a pattern reads,
the symbols are those of its pieces, each on its line (`Declaration.find_flatMap`),
and by line they stand in the order of the pieces (`Extraction.symbols_eq`,
`pairwise_line_withLines`). To sort by a key leaves elements of one key in their order
(`filter_mergeSort_key`).
-/

namespace ScriptService

open Text Scan

theorem Extraction.mem_symbols {e : Extraction} {x : Symbol} :
    x ∈ e.symbols ↔ x ∈ e.macros ∨ x ∈ e.procedures := by
  rw [symbols, List.mem_mergeSort, List.mem_append]

/-- Symbols that are found in the order of their lines stay in it. -/
theorem Extraction.symbols_of_sorted {e : Extraction}
    (h : (e.macros ++ e.procedures).Pairwise fun x y => x.line ≤ y.line) : e.symbols = e.macros ++ e.procedures :=
  List.mergeSort_of_pairwise (h.imp decide_eq_true)

theorem extract_of_serving? {language : String} {l : Language} (h : Language.serving? language = some l)
    (text path : String) : extract language text path = l.extractor text path := by
  rw [extract, extractor?, h]
  rfl

/-- Only languages with an extraction have symbols. -/
theorem serving?_of_mem_extract {language text path : String} {x : Symbol}
    (h : x ∈ (extract language text path).symbols) :
    ∃ l, Language.serving? language = some l ∧ extract language text path = l.extractor text path := by
  cases hl : Language.serving? language with
  | none =>
    rw [extract, extractor?, hl, Option.map_none, Extraction.mem_symbols] at h
    exact h.elim nofun nofun
  | some l => exact ⟨l, rfl, extract_of_serving? hl text path⟩

/-- Every symbol of a text is that of a declaration, attributed to the text's file. -/
theorem Language.exists_declaration {l : Language} {text path : String} {x : Symbol}
    (h : x ∈ (l.extractor text path).symbols) :
    ∃ (d : Declaration) (line : Nat), x = (d.symbol line).withSource path := by
  have hfind : ∀ {name : String} {p : Pattern Declaration},
      x ∈ ((Declaration.rule name p).find text.toList).map (·.withSource path) →
      ∃ (d : Declaration) (line : Nat), x = (d.symbol line).withSource path := fun hx => by
    obtain ⟨y, hy, rfl⟩ := List.mem_map.mp hx
    obtain ⟨m, -, hm⟩ := List.mem_filterMap.mp hy
    obtain rfl := Option.some.inj hm
    exact ⟨m.value, _, rfl⟩
  rw [Extraction.mem_symbols] at h
  cases l with
  | falloutSsl => exact h.elim hfind hfind
  | weiduTp2 => exact h.elim (fun h => hfind (List.mem_filter.mp h).1) fun h => hfind (List.mem_filter.mp h).1

theorem Language.source_of_mem_symbols {l : Language} {text path : String} {x : Symbol}
    (h : x ∈ (l.extractor text path).symbols) : x.source = path := by
  obtain ⟨d, line, rfl⟩ := exists_declaration h
  rfl

/-- To attribute the symbols of a text to its file changes nothing. -/
theorem Language.map_withSource_symbols (l : Language) (text path : String) :
    (l.extractor text path).symbols.map (·.withSource path) = (l.extractor text path).symbols := by
  refine (List.map_congr_left fun x hx => ?_).trans (List.map_id _)
  have hs := source_of_mem_symbols hx
  cases hs
  rfl

/-! ## Symbols of pieces -/

section Pieces

variable {ι : Type} (text : ι → List Char)

/-- The symbols that the matches in a piece declare, whose first line has a number. -/
def Declaration.symbolsAt (found : ι → List (Match Declaration)) (line : Nat) (i : ι) : List Symbol :=
  (found i).map fun m =>
    m.value.symbol (line + lineBreaks ((text i).take (m.start + m.value.nameOffset)))

/-- Pieces with the numbers of their first lines. -/
def withLines (line : Nat) (items : List ι) : List (Nat × ι) :=
  placed (fun i => lineBreaks (text i)) line items

variable {text}

theorem Declaration.map_symbolIn_placed {found : ι → List (Match Declaration)} {items : List ι}
    (h : ∀ i ∈ items, ∀ m ∈ found i, m.start + m.value.nameOffset ≤ (text i).length)
    (before : List Char) :
    ((placed (fun i => (text i).length) before.length items).flatMap fun (n, i) =>
        (found i).map (Match.shift n)).map (symbolIn (before ++ items.flatMap text)) =
      (withLines text (lineBreaks before) items).flatMap fun (n, i) => symbolsAt text found n i := by
  induction items generalizing before with
  | nil => rfl
  | cons i items ih =>
    have hrest := ih (fun j hj => h j (List.mem_cons_of_mem _ hj)) (before ++ text i)
    have hi : ((found i).map (Match.shift before.length)).map
        (symbolIn (before ++ (text i ++ items.flatMap text))) =
        symbolsAt text found (lineBreaks before) i := by
      rw [List.map_map]
      refine List.map_congr_left fun m hm => ?_
      have hm := h i List.mem_cons_self m hm
      simp only [Function.comp_apply, symbolIn, Match.shift, Nat.add_assoc]
      rw [List.take_length_add_append, List.take_append_of_le_length hm, lineBreaks, List.count_append]
      rfl
    rw [List.length_append, lineBreaks, List.count_append] at hrest
    rw [placed, withLines, placed, List.flatMap_cons, List.flatMap_cons, List.flatMap_cons,
      List.map_append, hi, ← List.append_assoc, hrest]
    rfl

/-- The symbols in a text of pieces are those of its pieces, each on its line. -/
theorem Declaration.find_flatMap {p : Pattern Declaration} (name : String)
    {found : ι → List (Match Declaration)} {items : List ι}
    (hend : ∀ before, withDoc p before [] = none)
    (hread : ∀ i ∈ items, (withDoc p).Reads (text i) (found i))
    (h : ∀ i ∈ items, ∀ m ∈ found i, m.start + m.value.nameOffset ≤ (text i).length) :
    (rule name p).find (items.flatMap text) =
      (withLines text 0 items).flatMap fun (n, i) => symbolsAt text found n i := by
  calc (rule name p).find (items.flatMap text)
      = ((withDoc p).scan (items.flatMap text)).map (symbolIn (items.flatMap text)) :=
        congrFun List.filterMap_eq_map _
    _ = ((placed (fun i => (text i).length) 0 items).flatMap fun (n, i) =>
          (found i).map (Match.shift n)).map (symbolIn (items.flatMap text)) := by
        rw [Pattern.scan_flatMap hend hread]
    _ = _ := map_symbolIn_placed h []

/-! ## Order -/

section Key

variable {α : Type} (key : α → Int)

theorem key_trans (a b c : α) (hab : decide (key a ≤ key b) = true) (hbc : decide (key b ≤ key c) = true) :
    decide (key a ≤ key c) = true := by
  simp only [decide_eq_true_eq] at hab hbc ⊢
  omega

theorem key_total (a b : α) : (decide (key a ≤ key b) || decide (key b ≤ key a)) = true := by
  simp only [Bool.or_eq_true, decide_eq_true_eq]
  omega

theorem pairwise_mergeSort_key (xs : List α) :
    (xs.mergeSort fun a b => key a ≤ key b).Pairwise fun a b => key a ≤ key b :=
  (List.pairwise_mergeSort (key_trans key) (key_total key) xs).imp of_decide_eq_true

/-- Elements of one key keep their order. -/
theorem filter_mergeSort_key (xs : List α) (k : Int) :
    (xs.mergeSort fun a b => key a ≤ key b).filter (key · = k) = xs.filter (key · = k) := by
  -- they are sorted already, so they stand among the sorted elements in their order
  have hsorted : (xs.filter (key · = k)).Pairwise fun a b => decide (key a ≤ key b) = true :=
    List.pairwise_of_forall_mem_list fun a ha b hb => by
      simp only [List.mem_filter, decide_eq_true_eq] at ha hb ⊢
      omega
  have hsub := (List.sublist_mergeSort (key_trans key) (key_total key) hsorted List.filter_sublist).filter
    (key · = k)
  rw [List.filter_filter] at hsub
  simp only [Bool.and_self] at hsub
  have hlength := ((List.mergeSort_perm xs fun a b => key a ≤ key b).filter (key · = k)).length_eq
  exact (hsub.eq_of_length hlength.symm).symm

end Key

/-- Symbols are listed by line. -/
theorem Extraction.symbols_sorted (e : Extraction) : e.symbols.Pairwise fun a b => a.line ≤ b.line :=
  pairwise_mergeSort_key Symbol.line _

/-- Symbols on different lines stand in the order of their lines. -/
theorem Extraction.symbols_eq {e : Extraction} {xs : List Symbol}
    (hp : (e.macros ++ e.procedures).Perm xs) (hs : xs.Pairwise fun a b => a.line < b.line) :
    e.symbols = xs := by
  have hlines : (xs.map Symbol.line).Nodup := List.nodup_iff_pairwise_ne.mpr
    (List.pairwise_map.mpr (hs.imp Int.ne_of_lt))
  have hperm : e.symbols.Perm xs := (List.mergeSort_perm _ _).trans hp
  refine hperm.eq_of_pairwise (fun a b ha hb hab hba => ?_) e.symbols_sorted (hs.imp Int.le_of_lt)
  -- symbols of one line are the same
  exact List.inj_on_of_nodup_map hlines (hperm.mem_iff.mp ha) hb (by omega)

/-- The symbols of pieces stand in the order of their lines, if those of each piece do. -/
theorem pairwise_line_withLines {f : Nat → ι → List Symbol} {items : List ι}
    (h : ∀ i ∈ items, ∀ n, (f n i).Pairwise (fun a b => a.line < b.line) ∧
      ∀ x ∈ f n i, n ≤ x.line ∧ x.line < n + lineBreaks (text i)) (line : Nat) :
    ((withLines text line items).flatMap fun (n, i) => f n i).Pairwise fun a b => a.line < b.line := by
  induction items generalizing line with
  | nil => exact .nil
  | cons i items ih =>
    have hrest := ih (fun j hj => h j (List.mem_cons_of_mem _ hj)) (line + lineBreaks (text i))
    obtain ⟨hi, hlines⟩ := h i List.mem_cons_self line
    rw [withLines, placed, List.flatMap_cons]
    refine List.pairwise_append.mpr ⟨hi, hrest, fun a ha b hb => ?_⟩
    obtain ⟨⟨n, j⟩, hj, hb⟩ := List.mem_flatMap.mp hb
    obtain ⟨hn, hmem⟩ := le_of_mem_placed hj
    have hb := (h j (List.mem_cons_of_mem _ hmem) n).2 b hb
    have ha := hlines a ha
    omega

end Pieces

end ScriptService
