import ScriptService.Index.Bucket
import ScriptService.Proofs.Declaration.Name

/-!
# The order of declarations in their text

Macros and procedures of a script are found by two scans, each of which goes through
the text in order (`Declaration.placedSymbols_sorted`), since a match ends behind its
name (`EndsBehindName`). The two lists are merged by line alone, so on one line the
macros come first, wherever they stand on it (`Placement.listed_comesBefore`).

Main statement: `Language.symbols_inOrder_iff` says in which order all symbols of a
text are listed, when that is the order of the text, and which declaration of a name
comes last. `procedureFirst_outOfOrder` is a line on which that is not the last one of
the text.
-/

namespace ScriptService

open Text Scan

/-- A symbol with the offset of its name in its text. -/
structure Placed where
  offset : Nat
  symbol : Symbol
deriving DecidableEq

/-- The name of a symbol stands at its offset as a word of its own, on the symbol's line. -/
def Placed.StandsIn (q : Placed) (text : List Char) : Prop :=
  ∃ a b, text = a ++ (q.symbol.name.toList ++ b) ∧ a.length = q.offset ∧
    IsRun isWord a q.symbol.name.toList b ∧ q.symbol.line = lineBreaks a

/-- The symbol as declared in another file. -/
def Placed.withSource (q : Placed) (source : String) : Placed :=
  { q with symbol := q.symbol.withSource source }

/-- A symbol of an earlier line stands in front of one of a later line. -/
theorem Placed.StandsIn.offset_lt {q r : Placed} {text : List Char} (hq : q.StandsIn text)
    (hr : r.StandsIn text) (h : q.symbol.line < r.symbol.line) : q.offset < r.offset := by
  obtain ⟨a, b, htext, hoffset, -, hline⟩ := hq
  obtain ⟨c, d, htext', hoffset', -, hline'⟩ := hr
  by_contra hle
  -- of two texts in front of names, the shorter one holds no more line breaks
  have hprefix : c <+: a :=
    List.prefix_of_prefix_length_le ⟨_, htext'.symm⟩ ⟨_, htext.symm⟩ (by omega)
  have hcount : lineBreaks c ≤ lineBreaks a := hprefix.sublist.count_le '\n'
  omega

/-! ## One scan -/

namespace Declaration

/-- A pattern takes the name of a declaration in front of what it leaves. -/
def EndsBehindName (p : Pattern Declaration) : Prop :=
  ∀ {before : Option Char} {s : List Char} {d : Declaration} {rest : List Char},
    p before s = some (d, rest) → d.nameOffset + rest.length ≤ s.length

theorem endsBehindName_define : EndsBehindName define := fun {before s d rest} h => by
  simp only [define, Option.bind_eq_bind, Option.bind_eq_some_iff] at h
  obtain ⟨t, hword, ⟨gap, u⟩, hgap, ⟨name, v⟩, hname, ⟨value, w⟩, hvalue, h⟩ := h
  obtain ⟨rfl, rfl⟩ := Prod.mk.inj (Option.some.inj h)
  have hhead : u <:+ s := (run?_suffix hgap).trans (word?_suffix hword)
  have hparams := elim_params_suffix fun x (hx : x ∈ (params? v).filter (!·.1.isEmpty)) =>
    (Option.filter_eq_some_iff.mp hx).1
  have hrest : w <:+ u := (value?_suffix hvalue).trans (hparams.trans (run?_suffix hname))
  have hle := hhead.length_le
  have hle' := hrest.length_le
  dsimp only
  omega

theorem endsBehindName_procedure : EndsBehindName procedure := fun {before s d rest} h => by
  simp only [procedure, Option.bind_eq_bind, Option.bind_eq_some_iff] at h
  obtain ⟨t, hword, ⟨gap, u⟩, hgap, ⟨name, v⟩, hname, ⟨gap', w⟩, hgap', x, hbegin, h⟩ := h
  split at h
  · obtain ⟨rfl, rfl⟩ := Prod.mk.inj (Option.some.inj h)
    have hhead : u <:+ s := (run?_suffix hgap).trans (word?_suffix hword)
    have hparams : (params? v).elim v Prod.snd <:+ v := elim_params_suffix fun _ hx => hx
    have hrest : x <:+ u :=
      (word?_suffix hbegin).trans ((run?_suffix hgap').trans (hparams.trans (run?_suffix hname)))
    have hle := hhead.length_le
    have hle' := hrest.length_le
    dsimp only
    omega
  · cases h

theorem endsBehindName_definition : EndsBehindName definition := fun {before s d rest} h => by
  simp only [definition, Option.bind_eq_bind, Option.bind_eq_some_iff] at h
  obtain ⟨t, hword, ⟨scope, u⟩, hscope, v, hmid, ⟨callable, w⟩, hcallable, ⟨gap, x⟩, hgap, ⟨name, y⟩,
    hname, ⟨header, z⟩, hheader, h⟩ := h
  split at h
  · obtain ⟨rfl, rfl⟩ := Prod.mk.inj (Option.some.inj h)
    have hkeyword : w <:+ s := (either?_suffix hcallable).trans
      ((word?_suffix hmid).trans ((either?_suffix hscope).trans (word?_suffix hword)))
    have hhead : skipQuote x <:+ s := (skipQuote_suffix x).trans ((run?_suffix hgap).trans hkeyword)
    have hrest : z <:+ skipQuote x :=
      (header?_suffix hheader).trans ((skipQuote_suffix y).trans (run?_suffix hname))
    have hle := hhead.length_le
    have hle' := hrest.length_le
    dsimp only
    omega
  · cases h

theorem EndsBehindName.withDoc {p : Pattern Declaration} (hp : EndsBehindName p) :
    EndsBehindName (withDoc p) := fun {before s d rest} h => by
  rcases eq_some_of_orElse h with h | h
  · simp only [Option.bind_eq_bind, Option.bind_eq_some_iff] at h
    obtain ⟨⟨doc, t⟩, hdoc, ⟨e, u⟩, he, h⟩ := h
    obtain ⟨rfl, rfl⟩ := Prod.mk.inj (Option.some.inj h)
    have hcomment := (docBlock?_suffix hdoc).length_le
    have hrest : e.nameOffset + u.length ≤ t.length := hp he
    dsimp only
    omega
  · exact hp h

/-- The symbols that a pattern finds in a text, each with the place of its name. -/
def placedSymbols (p : Pattern Declaration) (text : List Char) : List Placed :=
  ((withDoc p).scan text).map fun m => ⟨m.start + m.value.nameOffset, symbolIn text m⟩

theorem map_symbol_placedSymbols (name : String) (p : Pattern Declaration) (text : List Char) :
    (placedSymbols p text).map Placed.symbol = (rule name p).find text := by
  rw [placedSymbols, List.map_map]
  exact (congrFun List.filterMap_eq_map _).symm

theorem standsIn_of_mem_placedSymbols {p : Pattern Declaration} (hp : TakesName p) {text : List Char}
    {q : Placed} (h : q ∈ placedSymbols p text) : q.StandsIn text := by
  obtain ⟨m, hm, rfl⟩ := List.mem_map.mp h
  exact exists_name_of_mem_scan hp hm

/-- One scan finds names in the order in which they stand. -/
theorem placedSymbols_sorted {p : Pattern Declaration} (hp : TakesName p) (he : EndsBehindName p)
    (text : List Char) : (placedSymbols p text).Pairwise fun a b => a.offset < b.offset := by
  refine List.pairwise_map.mpr ((Pattern.pairwise_scan _ text).imp_of_mem ?_)
  intro m m' hm hm' hstop
  obtain ⟨-, hat⟩ := Pattern.at?_of_mem_scan hm
  obtain ⟨⟨d, rest⟩, hd, hmatch⟩ := Option.map_eq_some_iff.mp hat
  obtain ⟨-, hat'⟩ := Pattern.at?_of_mem_scan hm'
  obtain ⟨⟨d', rest'⟩, hd', hmatch'⟩ := Option.map_eq_some_iff.mp hat'
  have hbehind := he.withDoc hd
  obtain ⟨a, -, -, hne, hoffset, -⟩ := hp.withDoc hd'
  have hpos := List.length_pos_iff.mpr hne
  have hvalue : m.value = d := (congrArg Match.value hmatch).symm
  have hvalue' : m'.value = d' := (congrArg Match.value hmatch').symm
  have hlength : m.length = (text.drop m.start).length - rest.length := (congrArg Match.length hmatch).symm
  rw [Match.stop] at hstop
  rw [hvalue, hvalue']
  dsimp only
  omega

end Declaration

/-! ## Both scans -/

/-- The symbols of a text with their places, macros and constants apart from procedures. -/
structure Placement where
  macros : List Placed
  procedures : List Placed

/-- The symbols that the extraction of a language finds, with their places. -/
def Language.placement : Language → String → String → Placement
  | .falloutSsl, text, path =>
    { macros := (Declaration.placedSymbols Declaration.define text.toList).map (·.withSource path)
      procedures := (Declaration.placedSymbols Declaration.procedure text.toList).map (·.withSource path) }
  | .weiduTp2, text, path =>
    let found := (Declaration.placedSymbols Declaration.definition text.toList).map (·.withSource path)
    { macros := found.filter (·.symbol.kind ≠ .procedure)
      procedures := found.filter (·.symbol.kind = .procedure) }

namespace Placement

/-- All symbols by line; of those on one line, macros come first. -/
def listed (f : Placement) : List Placed :=
  (f.macros ++ f.procedures).mergeSort fun a b => a.symbol.line ≤ b.symbol.line

/-- A symbol is listed in front of another one: it stands in front of it in the text, or it is a macro
on the line of a procedure. -/
def ComesBefore (f : Placement) (q r : Placed) : Prop :=
  q.offset < r.offset ∨ q.symbol.line = r.symbol.line ∧ q ∈ f.macros ∧ r ∈ f.procedures

/-- The places are those of an extraction from a text: each symbol's name stands at its offset, and
both kinds of symbols are in the order of their offsets. -/
structure Locates (f : Placement) (text : List Char) (e : Extraction) : Prop where
  map_macros : f.macros.map Placed.symbol = e.macros
  map_procedures : f.procedures.map Placed.symbol = e.procedures
  standsIn : ∀ q ∈ f.macros ++ f.procedures, q.StandsIn text
  macros_sorted : f.macros.Pairwise fun a b => a.offset < b.offset
  procedures_sorted : f.procedures.Pairwise fun a b => a.offset < b.offset

variable {f : Placement} {text : List Char} {e : Extraction}

theorem listed_perm (f : Placement) : f.listed.Perm (f.macros ++ f.procedures) :=
  List.mergeSort_perm _ _

theorem listed_of_sorted (h : (f.macros ++ f.procedures).Pairwise fun a b => a.symbol.line ≤ b.symbol.line) :
    f.listed = f.macros ++ f.procedures :=
  List.mergeSort_of_pairwise (h.imp decide_eq_true)

theorem filter_line_listed (f : Placement) (line : Int) :
    f.listed.filter (·.symbol.line = line) =
      f.macros.filter (·.symbol.line = line) ++ f.procedures.filter (·.symbol.line = line) := by
  rw [listed, filter_mergeSort_key fun q : Placed => q.symbol.line, List.filter_append]

namespace Locates

theorem map_listed (h : f.Locates text e) : f.listed.map Placed.symbol = e.symbols := by
  have hmap : f.listed.map Placed.symbol =
      ((f.macros ++ f.procedures).map Placed.symbol).mergeSort fun a b => a.line ≤ b.line :=
    List.map_mergeSort fun _ _ _ _ => rfl
  rw [hmap, List.map_append, h.map_macros, h.map_procedures, Extraction.symbols]

theorem standsIn_of_mem_listed (h : f.Locates text e) {q : Placed} (hq : q ∈ f.listed) :
    q.StandsIn text :=
  h.standsIn q (f.listed_perm.mem_iff.mp hq)

/-- Symbols are listed in the order of the text, but for macros on the line of a procedure. -/
theorem listed_comesBefore (h : f.Locates text e) : f.listed.Pairwise f.ComesBefore := by
  have hline : ∀ line, (f.listed.filter (·.symbol.line = line)).Pairwise f.ComesBefore := fun line => by
    rw [filter_line_listed]
    refine List.pairwise_append.mpr
      ⟨(h.macros_sorted.imp .inl).filter _, (h.procedures_sorted.imp .inl).filter _, ?_⟩
    intro q hq r hr
    simp only [List.mem_filter, decide_eq_true_eq] at hq hr
    exact .inr ⟨hq.2.trans hr.2.symm, hq.1, hr.1⟩
  refine List.pairwise_iff_forall_sublist.mpr fun {q r} hqr => ?_
  have hle : q.symbol.line ≤ r.symbol.line :=
    List.pairwise_iff_forall_sublist.mp (pairwise_mergeSort_key (fun q : Placed => q.symbol.line) _) hqr
  by_cases heq : q.symbol.line = r.symbol.line
  · have hfilter := hqr.filter (·.symbol.line = r.symbol.line)
    simp only [List.filter_cons, heq, decide_true, if_true, List.filter_nil] at hfilter
    exact List.pairwise_iff_forall_sublist.mp (hline _) hfilter
  · have hq := h.standsIn_of_mem_listed (hqr.subset (by simp : q ∈ [q, r]))
    have hr := h.standsIn_of_mem_listed (hqr.subset (by simp : r ∈ [q, r]))
    exact .inl (hq.offset_lt hr (by omega))

/-- The order is that of the text if on no line a procedure stands in front of a macro. -/
theorem listed_sorted_iff (h : f.Locates text e) :
    (f.listed.Pairwise fun a b => a.offset < b.offset) ↔
      ∀ m ∈ f.macros, ∀ q ∈ f.procedures, m.symbol.line = q.symbol.line → m.offset < q.offset := by
  constructor
  · intro hsorted m hm q hq hmq
    have hline := hsorted.filter (·.symbol.line = q.symbol.line)
    rw [filter_line_listed] at hline
    exact (List.pairwise_append.mp hline).2.2 m (List.mem_filter.mpr ⟨hm, decide_eq_true hmq⟩) q
      (List.mem_filter.mpr ⟨hq, decide_eq_true rfl⟩)
  · intro hfirst
    refine h.listed_comesBefore.imp fun hqr => ?_
    rcases hqr with hlt | ⟨hline, hm, hq⟩
    · exact hlt
    · exact hfirst _ hm _ hq hline

/-- The declaration that answers for a name is listed behind all others of that name. -/
theorem find?_symbols (h : f.Locates text e) {x : Symbol} (hx : x ∈ e.symbols) :
    ∃ q ∈ f.listed, Bucket.find? e.symbols x.name = some q.symbol ∧
      ∀ r ∈ f.listed, r.symbol.name = x.name → r = q ∨ f.ComesBefore r q := by
  rw [← h.map_listed] at hx ⊢
  obtain ⟨y, hy, rfl⟩ := List.mem_map.mp hx
  cases hfind : f.listed.reverse.find? fun q => q.symbol.name = y.symbol.name with
  | none =>
    have hnone := List.find?_eq_none.mp hfind y (List.mem_reverse.mpr hy)
    simp at hnone
  | some q =>
    obtain ⟨-, later, earlier, hlisted, hlater⟩ := List.find?_eq_some_iff_append.mp hfind
    have heq : f.listed = earlier.reverse ++ q :: later.reverse := by
      rw [← List.reverse_reverse f.listed, hlisted]
      simp
    have hbefore := h.listed_comesBefore
    rw [heq] at hbefore
    refine ⟨q, by simp [heq], ?_, fun r hr hname => ?_⟩
    · rw [Bucket.find?, ← List.map_reverse, List.find?_map]
      exact congrArg (Option.map Placed.symbol) hfind
    · rw [heq] at hr
      rcases List.mem_append.mp hr with hr | hr
      · exact .inr ((List.pairwise_append.mp hbefore).2.2 r hr q List.mem_cons_self)
      · rcases List.mem_cons.mp hr with rfl | hr
        · exact .inl rfl
        · have hne := hlater r (List.mem_reverse.mp hr)
          simp [hname] at hne

end Locates

end Placement

theorem Language.placement_locates (l : Language) (text path : String) :
    (l.placement text path).Locates text.toList (l.extractor text path) := by
  have hmap : ∀ (name : String) (p : Pattern Declaration),
      ((Declaration.placedSymbols p text.toList).map (·.withSource path)).map Placed.symbol =
        ((Declaration.rule name p).find text.toList).map (·.withSource path) := fun name p => by
    rw [← Declaration.map_symbol_placedSymbols name p, List.map_map, List.map_map]
    rfl
  have hstands : ∀ {p : Pattern Declaration}, Declaration.TakesName p →
      ∀ q ∈ (Declaration.placedSymbols p text.toList).map (·.withSource path), q.StandsIn text.toList :=
    fun hp q hq => by
      obtain ⟨r, hr, rfl⟩ := List.mem_map.mp hq
      have hr : r.StandsIn text.toList := Declaration.standsIn_of_mem_placedSymbols hp hr
      exact hr
  have hsorted : ∀ p : Pattern Declaration, Declaration.TakesName p → Declaration.EndsBehindName p →
      ((Declaration.placedSymbols p text.toList).map (·.withSource path)).Pairwise
        fun a b => a.offset < b.offset := fun p hp he =>
    List.pairwise_map.mpr (Declaration.placedSymbols_sorted hp he text.toList)
  cases l with
  | falloutSsl =>
    exact {
      map_macros := hmap "macros" Declaration.define
      map_procedures := hmap "procedures" Declaration.procedure
      standsIn := fun q hq => (List.mem_append.mp hq).elim (hstands Declaration.takesName_define q)
        (hstands Declaration.takesName_procedure q)
      macros_sorted := hsorted _ Declaration.takesName_define Declaration.endsBehindName_define
      procedures_sorted := hsorted _ Declaration.takesName_procedure Declaration.endsBehindName_procedure }
  | weiduTp2 =>
    have hkind : ∀ kind : SymbolKind → Bool,
        (((Declaration.placedSymbols Declaration.definition text.toList).map (·.withSource path)).filter
            fun q => kind q.symbol.kind).map Placed.symbol =
          ((Declaration.definitions.find text.toList).map (·.withSource path)).filter fun x => kind x.kind :=
      fun kind => by
        rw [Declaration.definitions, ← hmap, List.filter_map (f := Placed.symbol)]
        rfl
    have hall := hsorted Declaration.definition Declaration.takesName_definition Declaration.endsBehindName_definition
    exact {
      map_macros := hkind (· ≠ .procedure)
      map_procedures := hkind (· = .procedure)
      standsIn := fun q hq => hstands Declaration.takesName_definition q
        ((List.mem_append.mp hq).elim (fun h => (List.mem_filter.mp h).1) fun h => (List.mem_filter.mp h).1)
      macros_sorted := hall.filter _
      procedures_sorted := hall.filter _ }

/-- All symbols of a text are its macros and procedures by line, of which on one line the macros come
first, and each kind is in the order of the text. So they are in the order of the text if on no line a
procedure stands in front of a macro, and the declaration that answers for a name is the last one of
the text, unless it is a procedure that stands in front of a macro of its name on one line. -/
theorem Language.symbols_inOrder_iff (l : Language) (text path : String) :
    let e := l.extractor text path
    let found := l.placement text path
    found.Locates text.toList e ∧
      e.symbols.Perm (e.macros ++ e.procedures) ∧
      e.symbols = found.listed.map Placed.symbol ∧
      (found.listed.Pairwise fun q r => q.symbol.line ≤ r.symbol.line) ∧
      (∀ line, found.listed.filter (·.symbol.line = line) =
        found.macros.filter (·.symbol.line = line) ++ found.procedures.filter (·.symbol.line = line)) ∧
      ((found.listed.Pairwise fun q r => q.offset < r.offset) ↔
        ∀ m ∈ found.macros, ∀ q ∈ found.procedures, m.symbol.line = q.symbol.line → m.offset < q.offset) ∧
      ∀ x ∈ e.symbols, ∃ q ∈ found.listed, Bucket.find? e.symbols x.name = some q.symbol ∧
        ∀ r ∈ found.listed, r.symbol.name = x.name → r = q ∨ found.ComesBefore r q := by
  intro e found
  have hfound : found.Locates text.toList e := l.placement_locates text path
  exact ⟨hfound, List.mergeSort_perm _ _, hfound.map_listed.symm,
    pairwise_mergeSort_key (fun q : Placed => q.symbol.line) _, found.filter_line_listed,
    hfound.listed_sorted_iff, fun x hx => hfound.find?_symbols hx⟩

/-- Where a procedure stands in front of a macro on one line, the macro is listed first, and the procedure
answers for a name that both declare. So it is for the functions and macros of a library. -/
theorem procedureFirst_outOfOrder :
    let script := "procedure f begin end #define A 1"
    let listed := (Language.falloutSsl.placement script "").listed
    let library := "DEFINE_ACTION_FUNCTION f BEGIN END DEFINE_ACTION_MACRO m BEGIN END"
    let listed' := (Language.weiduTp2.placement library "").listed
    (extractFallout script "").symbols = listed.map Placed.symbol ∧
      (listed.map fun q => (q.offset, q.symbol.name)) = [(30, "A"), (10, "f")] ∧
      (¬ listed.Pairwise fun q r => q.offset < r.offset) ∧
      (Bucket.find? (extractFallout "procedure A begin end #define A 1" "").symbols "A").map Symbol.kind =
        some .procedure ∧
      (extractWeidu library "").symbols = listed'.map Placed.symbol ∧
      ¬ listed'.Pairwise fun q r => q.offset < r.offset := by
  intro script listed library listed'
  have hlisted : listed = _ := Placement.listed_of_sorted (by decide +kernel)
  have hlisted' : listed' = _ := Placement.listed_of_sorted (by decide +kernel)
  rw [hlisted, hlisted', Extraction.symbols_of_sorted (by decide +kernel),
    Extraction.symbols_of_sorted (by decide +kernel), Extraction.symbols_of_sorted (by decide +kernel)]
  decide +kernel

end ScriptService
