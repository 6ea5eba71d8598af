import ScriptService.Proofs.Index.Bucket

/-!
# Reloads, file by file

To pick symbols by their keys and to cut a list down to a bucket can be done in
either order (`filter_ofSymbols`), so a reload is told by what it does to each
file: the reloaded file has the symbols of its new text and no others, and those
of another file are cut down and stay in their order (`filter_source_reload`,
`filter_ne_reload`). To reload the same text again changes nothing
(`reload_reload`), as a reload sees of a bucket only the symbols of other files.

Main statement: `reload_isolated`.
-/

namespace ScriptService.Bucket

theorem filter_put (q : String × String → Bool) (s : Symbol) (b : Bucket) :
    (put s b).filter (q ·.key) = if q s.key then put s (b.filter (q ·.key)) else b.filter (q ·.key) := by
  induction b with
  | nil => cases h : q s.key <;> simp [put, h]
  | cons t b ih =>
    by_cases hkey : t.key = s.key
    · rw [put_cons_of_key hkey]
      cases h : q s.key <;> simp [h, hkey, put_cons_of_key hkey]
    · rw [put_cons_of_ne hkey, List.filter_cons, ih]
      cases h : q s.key <;> cases ht : q t.key <;> simp [ht, put_cons_of_ne hkey]

/-- Symbols picked by their keys are cut down as they are among others. -/
theorem filter_ofSymbols (q : String × String → Bool) (xs : List Symbol) :
    (ofSymbols xs).filter (q ·.key) = ofSymbols (xs.filter (q ·.key)) := by
  induction xs using List.reverseRecOn with
  | nil => rfl
  | append_singleton xs x ih =>
    have hput : ∀ ys : List Symbol, ofSymbols (ys ++ [x]) = put x (ofSymbols ys) := fun ys =>
      ofSymbols_append_eq_putAll ys [x]
    rw [hput, filter_put, ih, List.filter_append, List.filter_singleton]
    cases q x.key
    · simp
    · exact (hput _).symm

/-! ## One reload -/

section

variable (b : List Symbol) (path text : String) (extract : Extractor)

/-- The symbols of some files: those of the new text, if the reloaded file is among the files, behind
those of the others. -/
theorem filter_reload (q : String → Bool) :
    (reload b path text extract).filter (q ·.source) =
      ofSymbols (b.filter fun x => q x.source && x.source ≠ path) ++
        if q path then ofSymbols ((extract text path).symbols.map (·.withSource path)) else [] := by
  have hfilter : ∀ xs : List Symbol, (ofSymbols xs).filter (q ·.source) =
      ofSymbols (xs.filter (q ·.source)) := filter_ofSymbols fun k => q k.2
  rw [reload_eq_append, List.filter_append, hfilter, hfilter, List.filter_filter]
  congr 1
  split
  · rename_i hq
    rw [List.filter_eq_self.mpr fun x hx => (source_of_mem_withSource hx).symm ▸ hq]
  · rename_i hq
    rw [List.filter_eq_nil_iff.mpr fun x hx => (source_of_mem_withSource hx).symm ▸ hq]
    rfl

/-- The symbols of other files stay. -/
theorem filter_ne_reload :
    (reload b path text extract).filter (·.source ≠ path) = ofSymbols (b.filter (·.source ≠ path)) := by
  have h := filter_reload b path text extract fun source => source ≠ path
  simpa using h

/-- The reloaded file has the symbols of its new text, any other file those that it had. -/
theorem filter_source_reload (source : String) :
    (reload b path text extract).filter (·.source = source) =
      if source = path then ofSymbols ((extract text path).symbols.map (·.withSource path))
      else ofSymbols (b.filter (·.source = source)) := by
  rw [filter_reload b path text extract fun s => s = source]
  by_cases hs : source = path
  · have hnone : (b.filter fun x => decide (x.source = source) && decide (x.source ≠ path)) = [] :=
      List.filter_eq_nil_iff.mpr fun x _ => by simp [hs]
    rw [hnone, if_pos (decide_eq_true hs.symm), if_pos hs]
    rfl
  · have hkept : (b.filter fun x => decide (x.source = source) && decide (x.source ≠ path)) =
        b.filter (·.source = source) :=
      List.filter_congr fun x _ => by
        by_cases hx : x.source = source <;> simp [hx, hs]
    rw [hkept, if_neg (by simpa using Ne.symm hs), if_neg hs, List.append_nil]

/-- A second reload of the same text changes nothing. -/
theorem reload_reload :
    reload (reload b path text extract) path text extract = reload b path text extract := by
  rw [reload_eq_append, filter_ne_reload, ofSymbols_of_distinct (distinct_ofSymbols _), ← reload_eq_append]

end

/-- A reload of any list of symbols, of none for a new bucket, gives those of other files, each key once,
and behind them those of the new text. If the list held each key once, other files keep what they had;
the reloaded file has only what its new text declares. To reload the text again changes nothing, and
reloads of two files leave every file the same symbols in either order. -/
theorem reload_isolated (extract : Extractor) (b : List Symbol) (path text : String) :
    let fresh := (extract text path).symbols.map (·.withSource path)
    let reloaded := reload b path text extract
    reloaded = ofSymbols (b.filter (·.source ≠ path)) ++ ofSymbols fresh ∧
      (Distinct b → reloaded.filter (·.source ≠ path) = b.filter (·.source ≠ path)) ∧
      (∀ x ∈ reloaded, x.source = path → x ∈ fresh) ∧
      reload reloaded path text extract = reloaded ∧
      ∀ other text', other ≠ path → ∀ source,
        (reload reloaded other text' extract).filter (·.source = source) =
          (reload (reload b other text' extract) path text extract).filter (·.source = source) := by
  intro fresh reloaded
  refine ⟨reload_eq_append b path text extract, fun hb => ?_, fun x hx hs => ?_,
    reload_reload b path text extract, fun other text' hne source => ?_⟩
  · rw [filter_ne_reload, ofSymbols_of_distinct (hb.filter _)]
  · have hown := filter_source_reload b path text extract path
    rw [if_pos rfl] at hown
    have hmem : x ∈ reloaded.filter (·.source = path) := List.mem_filter.mpr ⟨hx, decide_eq_true hs⟩
    exact mem_of_mem_ofSymbols (hown ▸ hmem)
  · simp only [reloaded, filter_source_reload]
    by_cases hother : source = other
    · rw [if_pos hother, if_neg (hother ▸ hne), if_pos hother, ofSymbols_of_distinct (distinct_ofSymbols _)]
    · rw [if_neg hother]
      by_cases hpath : source = path
      · rw [if_pos hpath, if_pos hpath, ofSymbols_of_distinct (distinct_ofSymbols _)]
      · rw [if_neg hpath, if_neg hpath, if_neg hother]

/-- Symbols of two headers, each of which declares one name. -/
def sharedName : List Symbol :=
  [{ name := "A", kind := .constant, detail := "1", source := "b.h", value := "1" },
    { name := "A", kind := .constant, detail := "1", source := "a.h", value := "1" },
    { name := "B", kind := .constant, detail := "1", source := "b.h", value := "1" }]

theorem sharedName_keeps_other :
    Distinct sharedName ∧
      (reload sharedName "a.h" "#define C 2\n#define A 2\n" extractFallout).filter (·.source ≠ "a.h") =
        [{ name := "A", kind := .constant, detail := "1", source := "b.h", value := "1" },
          { name := "B", kind := .constant, detail := "1", source := "b.h", value := "1" }] := by
  have hd : Distinct sharedName := by
    rw [Distinct]
    decide +kernel
  refine ⟨hd, ((reload_isolated extractFallout sharedName "a.h" _).2.1 hd).trans ?_⟩
  decide +kernel

end ScriptService.Bucket
