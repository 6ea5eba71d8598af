import ScriptService.Proofs.Declaration.LineEnds
import ScriptService.Proofs.Doc.LineEnds
import ScriptService.Proofs.Header.Rebuild
import ScriptService.Proofs.Text.Utf8

/-!
# Headers with other line ends

Declarations that are the same but for line ends declare the same symbols, where the
signature line of a macro is taken from the text as it stands (`Symbol.crlf`). A scan
finds such declarations on the same lines (`Declaration.find_crlf`), so a text and the
same text with line ends `\r\n` have the same symbols (`symbols_crlf`), and what a
header contributes that was read from a file with `\r\n` is what it contributes when
an editor hands it over as it is (`crlf_extracted`).
-/

namespace ScriptService

open Text Scan

/-! ## Symbols -/

/-- A symbol of a text with line ends `\r\n`, given that of the text with `\n`: only the signature line
of a macro is taken from the text as it stands. -/
def Symbol.crlf (x : Symbol) : Symbol :=
  if x.kind = .functionMacro ∧ x.doc = none then
    { x with detail := String.ofList (Text.crlf x.detail.toList) }
  else x

namespace Declaration

variable {s : List Char} {d d' : Declaration}

theorem Agrees.doc_map {same : Form → Form → Prop} (h : Agrees same s d d') :
    d'.doc.map Doc.ofComment = d.doc.map Doc.ofComment := by
  rw [h.doc, Option.map_map]
  exact Option.map_congr fun doc hdoc => Doc.ofComment_crlf (h.docText doc hdoc)

/-- Procedures declare the same symbols. -/
theorem Agrees.symbol_procedure (h : Agrees Form.SameProcedure s d d') (line : Nat) :
    d'.symbol line = d.symbol line ∧ (d.symbol line).crlf = d.symbol line := by
  obtain ⟨doc, name, offset, form⟩ := d
  obtain ⟨doc', name', offset', form'⟩ := d'
  have hdoc := h.doc_map
  obtain rfl : name' = name := h.name
  dsimp only at hdoc
  cases h.form with
  | procedure params =>
    simp only [symbol, hdoc, procedureSymbol, collapse_crlf, true_and]
    exact if_neg fun hkind => by cases hkind.1

/-- Definitions declare the same symbols. -/
theorem Agrees.symbol_definition (h : Agrees Form.SameDefinition s d d') (line : Nat) :
    d'.symbol line = d.symbol line := by
  obtain ⟨doc, name, offset, form⟩ := d
  obtain ⟨doc', name', offset', form'⟩ := d'
  have hdoc := h.doc_map
  obtain rfl : name' = name := h.name
  dsimp only at hdoc
  cases h.form with
  | definition scope callable header =>
    simp only [symbol, hdoc, definitionSymbol, collapse_crlf]

theorem defineSymbol_crlf {name : List Char} (hname : '\n' ∉ name) (params : Option (List Char))
    {value value' : List Char} (h : trimRight value' = trimRight value) (doc : Option Doc) (line : Nat) :
    defineSymbol name (params.map crlf) value' doc line = (defineSymbol name params value doc line).crlf := by
  have hwritten : crlf (name ++ params.elim [] fun ps => '(' :: ps ++ [')']) =
      name ++ (params.map crlf).elim [] fun ps => '(' :: ps ++ [')'] := by
    rw [crlf_append, crlf_eq_self hname]
    cases params with
    | none => rfl
    | some ps =>
      rw [Option.map_some, Option.elim_some, Option.elim_some, List.cons_append, crlf_cons (by decide),
        crlf_append]
      rfl
  rw [defineSymbol, defineSymbol, h, ← hwritten]
  by_cases hc : (!((trimRight value).getLast? == some '\\') && isConstantName name) = true
  · simp [Symbol.crlf, signatureLine, hc]
  · cases doc with
    | some doc => simp [Symbol.crlf, signatureLine, hc]
    | none => simp [Symbol.crlf, signatureLine, hc]

/-- Macros declare the same symbols, but for the line ends in a signature line. -/
theorem Agrees.symbol_macro (h : Agrees Form.SameMacro s d d') (line : Nat) :
    d'.symbol line = (d.symbol line).crlf := by
  obtain ⟨doc, name, offset, form⟩ := d
  obtain ⟨doc', name', offset', form'⟩ := d'
  have hdoc := h.doc_map
  obtain rfl : name' = name := h.name
  dsimp only at hdoc
  cases h.form with
  | define hvalue =>
    simp only [symbol, hdoc]
    exact defineSymbol_crlf h.oneLine _ hvalue _ line

/-- Where matches agree, the symbols that they declare stand on the same lines. -/
theorem map_symbolIn_crlf {same : Form → Form → Prop} {f : Symbol → Symbol}
    (hf : ∀ {s d d'}, Agrees same s d d' → ∀ line, d'.symbol line = f (d.symbol line)) {text : List Char}
    {ms ms' : List (Match Declaration)}
    (h : List.Forall₂ (Pattern.Agrees (Agrees same) text) ms ms') :
    ms'.map (symbolIn (Text.crlf text)) = (ms.map (symbolIn text)).map f := by
  induction h with
  | nil => rfl
  | cons hm _ ih =>
    obtain ⟨a, s, rfl, hstart, hstart', hd⟩ := hm
    obtain ⟨u, t, rfl, hoffset, hoffset'⟩ := hd.place
    have htake : (a ++ (u ++ t)).take (a.length + u.length) = a ++ u := by
      rw [← List.append_assoc, ← List.length_append]
      exact List.take_left
    have htake' : (Text.crlf (a ++ (u ++ t))).take ((Text.crlf a).length + (Text.crlf u).length) =
        Text.crlf (a ++ u) := by
      rw [← List.append_assoc, crlf_append (a ++ u), ← List.length_append, ← crlf_append]
      exact List.take_left
    rw [List.map_cons, List.map_cons, List.map_cons, ih, symbolIn, symbolIn, hf hd, hstart, hstart', hoffset,
      hoffset', htake, htake', lineBreaks_crlf]

/-- A rule finds the same symbols, if its pattern finds the same declarations. -/
theorem find_crlf {same : Form → Form → Prop} {f : Symbol → Symbol}
    (hf : ∀ {s d d'}, Agrees same s d d' → ∀ line, d'.symbol line = f (d.symbol line))
    {p : Pattern Declaration} {keyword : String} (hp : Led p keyword) (hkeyword : '\r' ∉ keyword.toList)
    {text : List Char} (hr : '\r' ∉ text)
    (hagrees : ∀ before s, s <:+ text → Pattern.AgreesAt p (Agrees same s) before s) (name : String) :
    (rule name p).find (Text.crlf text) = ((rule name p).find text).map f := by
  have hfind : ∀ t, (rule name p).find t = ((withDoc p).scan t).map (symbolIn t) :=
    fun t => congrFun List.filterMap_eq_map _
  have hend : ∀ c, c = '\r' ∨ c = '\n' → ∀ before s, withDoc p before (c :: s) = none := by
    rintro c (rfl | rfl) before s
    · exact withDoc_eq_none (docBlock?_of_not_starts (by simp))
        (hp.eq_none before _ (hp.not_starts_cons hkeyword s))
    · exact hp.withDoc_newline before s
  rw [hfind, hfind]
  refine map_symbolIn_crlf hf (Pattern.scan_crlf hp.withDoc_nil hend fun s hs before => ?_)
  exact withDoc_agrees before (fun hm => hr (hs.subset hm)) fun before t ht => hagrees before t (ht.trans hs)

end Declaration

/-! ## Extractions -/

theorem Symbol.crlf_withSource (x : Symbol) (path : String) :
    (x.withSource path).crlf = x.crlf.withSource path := by
  rw [crlf, crlf, apply_ite (Symbol.withSource · path)]
  rfl

theorem Symbol.line_crlf (x : Symbol) : x.crlf.line = x.line := by
  rw [crlf]
  split <;> rfl

/-- Line ends matter to a symbol whose signature line holds one. -/
theorem Symbol.crlf_eq_self_iff (x : Symbol) :
    x.crlf = x ↔ (x.kind = .functionMacro → x.doc = none → '\n' ∉ x.detail.toList) := by
  rw [crlf]
  constructor
  · intro h hkind hdoc hmem
    rw [if_pos ⟨hkind, hdoc⟩] at h
    have hdetail := congrArg (String.toList ∘ Symbol.detail) h
    simp only [Function.comp_apply, String.toList_ofList] at hdetail
    exact crlf_ne_self hmem hdetail
  · intro h
    split
    · rename_i hc
      rw [crlf_eq_self (h hc.1 hc.2), String.ofList_toList]
    · rfl

section

variable {text : List Char} (hr : '\r' ∉ text) (path : String)
include hr

theorem extractWeidu_crlf :
    extractWeidu (String.ofList (crlf text)) path = extractWeidu (String.ofList text) path := by
  have hfind := Declaration.find_crlf (f := id) (fun h line => h.symbol_definition line) Library.led_definition
    (by decide) hr (fun before s _ => Declaration.definition_agrees before s) "macros"
  rw [List.map_id] at hfind
  simp only [extractWeidu, String.toList_ofList, Declaration.definitions, hfind]

theorem procedures_crlf :
    (extractFallout (String.ofList (crlf text)) path).procedures =
      (extractFallout (String.ofList text) path).procedures ∧
    (extractFallout (String.ofList text) path).procedures.map Symbol.crlf =
      (extractFallout (String.ofList text) path).procedures := by
  have hfind := Declaration.find_crlf (f := id) (fun h line => (h.symbol_procedure line).1)
    Script.led_procedure (by decide) hr (fun before s _ => Declaration.procedure_agrees before s) "procedures"
  have hself := Declaration.find_crlf
    (fun h line => (h.symbol_procedure line).1.trans (h.symbol_procedure line).2.symm)
    Script.led_procedure (by decide) hr (fun before s _ => Declaration.procedure_agrees before s) "procedures"
  rw [List.map_id] at hfind
  simp only [extractFallout, String.toList_ofList, Declaration.procedures, List.map_map]
  refine ⟨by rw [hfind], ?_⟩
  calc _ = (((Declaration.rule "procedures" Declaration.procedure).find text).map Symbol.crlf).map
        (·.withSource path) := by
        rw [List.map_map]
        exact List.map_congr_left fun x _ => x.crlf_withSource path
    _ = _ := by rw [← hself, hfind]

theorem macros_crlf (hbare : ∀ s, s <:+ text → Declaration.isBare s = false) :
    (extractFallout (String.ofList (crlf text)) path).macros =
      (extractFallout (String.ofList text) path).macros.map Symbol.crlf := by
  have hfind := Declaration.find_crlf (fun h line => h.symbol_macro line) Script.led_define (by decide) hr
    (fun before s hs => Declaration.define_agrees before (hbare s hs)) "macros"
  simp only [extractFallout, String.toList_ofList, Declaration.defines, hfind, List.map_map]
  exact List.map_congr_left fun x _ => (x.crlf_withSource path).symm

theorem symbols_crlf (hbare : ∀ s, s <:+ text → Declaration.isBare s = false) :
    (extractFallout (String.ofList (crlf text)) path).symbols =
      (extractFallout (String.ofList text) path).symbols.map Symbol.crlf := by
  obtain ⟨hprocedures, hself⟩ := procedures_crlf hr path
  rw [Extraction.symbols, Extraction.symbols, macros_crlf hr path hbare, hprocedures, ← hself,
    ← List.map_append, hself]
  exact (List.map_mergeSort fun a _ b _ => by rw [Symbol.line_crlf, Symbol.line_crlf]).symm

/-- A file with line ends `\r\n` is read as the text with `\n`. -/
theorem sourceText_crlf {files : Files} {p : Path} (h : files.read p = .ok (encodeUtf8 (crlf text))) :
    sourceText files p = .ok (some (String.ofList text)) := by
  rw [sourceText, h]
  dsimp only
  rw [decodeUtf8?_encodeUtf8, Option.getD_some, unifyNewlines_crlf hr]

/-- A header that is read from a file contributes the symbols of the text with `\n`, and the same header
with line ends `\r\n` from an editor those of that text. -/
theorem entries_crlf {l : Language} {s : Service} {files : Files} {root : Path} {n : Nat} {i : Index}
    (hload : s.index.loadWorkspace files root l.id = .ok (n, i)) {names : List String}
    (hnames : findFiles files root l.headerExtension = .ok names) (hpath : path ∈ names)
    (hread : files.read (root.join (Path.ofString path)) = .ok (encodeUtf8 (crlf text)))
    {language : String} (hl : Language.serving? language = some l)
    (hheader : l.isHeader (Path.ofString path) = true) :
    (i.getDynamic l.id).filter (·.source = path) =
        Bucket.ofSymbols (l.extractor (String.ofList text) path).symbols ∧
      ((Service.reloadFile { s with index := i } path language (String.ofList (crlf text))).index.getDynamic
          l.id).filter (·.source = path) =
        Bucket.ofSymbols (l.extractor (String.ofList (crlf text)) path).symbols := by
  obtain ⟨order, -, harranged⟩ := arranged_load hload
  have htext : headerText? files root l path = some (String.ofList text) := by
    rw [headerText?, hnames]
    dsimp only
    rw [if_pos hpath, sourceText_crlf hr hread]
  constructor
  · rw [harranged.filter_source, blockAt, declaredAt, htext]
    rfl
  · rw [getDynamic_reloadFile_header _ hl hheader, (harranged.reload path _).filter_source, blockAt,
      declaredAt, Function.update_self]
    rfl

/-- To a text without `\r`, line ends `\r\n` make no difference in a library; in a script they make
none to procedures, and to a macro only where its signature line holds a line break, unless one blank
behind the head of a macro ends a line. So a header contributes the same entries when it is read
from its file and when an editor hands it over. -/
theorem crlf_extracted :
    extractWeidu (String.ofList (crlf text)) path = extractWeidu (String.ofList text) path ∧
    (extractFallout (String.ofList (crlf text)) path).procedures =
      (extractFallout (String.ofList text) path).procedures ∧
    ((∀ s, s <:+ text → Declaration.isBare s = false) →
      (extractFallout (String.ofList (crlf text)) path).symbols =
        (extractFallout (String.ofList text) path).symbols.map Symbol.crlf ∧
      ((extractFallout (String.ofList (crlf text)) path).symbols =
          (extractFallout (String.ofList text) path).symbols ↔
        ∀ x ∈ (extractFallout (String.ofList text) path).symbols,
          x.kind = .functionMacro → x.doc = none → '\n' ∉ x.detail.toList)) ∧
    ∀ {l : Language} {s : Service} {files : Files} {root : Path} {n : Nat} {i : Index}
      {names : List String} {language : String},
      s.index.loadWorkspace files root l.id = .ok (n, i) →
      findFiles files root l.headerExtension = .ok names → path ∈ names →
      files.read (root.join (Path.ofString path)) = .ok (encodeUtf8 (crlf text)) →
      Language.serving? language = some l → l.isHeader (Path.ofString path) = true →
      (i.getDynamic l.id).filter (·.source = path) =
          Bucket.ofSymbols (l.extractor (String.ofList text) path).symbols ∧
        ((Service.reloadFile { s with index := i } path language (String.ofList (crlf text))).index.getDynamic
            l.id).filter (·.source = path) =
          Bucket.ofSymbols (l.extractor (String.ofList (crlf text)) path).symbols := by
  refine ⟨extractWeidu_crlf hr path, (procedures_crlf hr path).1, fun hbare => ?_,
    fun hload hnames hpath hread hl hheader => entries_crlf hr path hload hnames hpath hread hl hheader⟩
  have hsymbols := symbols_crlf hr path hbare
  refine ⟨hsymbols, ?_⟩
  have hself : ∀ xs : List Symbol, xs.map Symbol.crlf = xs ↔ ∀ x ∈ xs, x.crlf = x := fun xs => by
    rw [← List.map_inj_left, List.map_id']
  rw [hsymbols, hself]
  exact forall₂_congr fun x _ => x.crlf_eq_self_iff

end

/-- A header with a macro whose parameters stand on two lines, blanks behind values, and a procedure
whose keywords stand on lines of their own. -/
def spacedHeader : List Char :=
  "/**\n@arg {int} a\n*/\n#define f(a,\n b) a \t\n#define E  \nprocedure g\nbegin".toList

/-- A workspace with one header. -/
def headerOf (bytes : List UInt8) : Files :=
  ⟨.directory [("a.h", .file bytes)], ⟨.root, []⟩, 900⟩

theorem spacedHeader_extracted :
    ('\r' ∉ spacedHeader ∧ ∀ s, s <:+ spacedHeader → Declaration.isBare s = false) ∧
      (extractFallout (String.ofList (crlf spacedHeader)) "a.h").symbols =
        (extractFallout (String.ofList spacedHeader) "a.h").symbols ∧
      ∃ n i, Index.loadWorkspace {} (headerOf (encodeUtf8 (crlf spacedHeader))) ⟨.root, []⟩ "fallout-ssl" =
          .ok (n, i) ∧
        ((Service.reloadFile { root := ⟨.root, []⟩, index := i } "a.h" "fallout-ssl"
            (String.ofList (crlf spacedHeader))).index.getDynamic "fallout-ssl").filter (·.source = "a.h") =
          (i.getDynamic "fallout-ssl").filter (·.source = "a.h") := by
  have hr : '\r' ∉ spacedHeader := by decide +kernel
  have hbare : ∀ s, s <:+ spacedHeader → Declaration.isBare s = false := by
    have htails : ∀ s ∈ spacedHeader.tails, Declaration.isBare s = false := by decide +kernel
    exact fun s hs => htails s ((List.mem_tails s _).mpr hs)
  have hread : (headerOf (encodeUtf8 (crlf spacedHeader))).read
      ((⟨.root, []⟩ : Path).join (Path.ofString "a.h")) = .ok (encodeUtf8 (crlf spacedHeader)) := by
    decide +kernel
  have hnames : findFiles (headerOf (encodeUtf8 (crlf spacedHeader))) ⟨.root, []⟩
      Language.falloutSsl.headerExtension = .ok ["a.h"] := by
    decide +kernel
  have hheader : headerSymbols (headerOf (encodeUtf8 (crlf spacedHeader))) ⟨.root, []⟩
      Language.falloutSsl.extractor "a.h" =
        .ok (extractFallout (String.ofList spacedHeader) "a.h").symbols :=
    headerSymbols_of_read (sourceText_crlf hr hread) _
  have hload : Index.loadWorkspace {} (headerOf (encodeUtf8 (crlf spacedHeader))) ⟨.root, []⟩
      Language.falloutSsl.id =
      let symbols := [(extractFallout (String.ofList spacedHeader) "a.h").symbols].flatten
      .ok (symbols.length, Index.setDynamic {} Language.falloutSsl.id symbols) := by
    rw [Index.loadWorkspace, loadHeaders_eq_ok hnames (by rw [List.mapM_cons, hheader]; rfl), ok_bind]
    rfl
  obtain ⟨-, -, hsymbols, hentries⟩ := crlf_extracted hr "a.h"
  obtain ⟨-, hsame⟩ := hsymbols hbare
  have hmacros : ∀ x ∈ (extractFallout (String.ofList spacedHeader) "a.h").macros,
      x.kind = .functionMacro → x.doc = none → '\n' ∉ x.detail.toList := by decide +kernel
  have hprocedures : ∀ x ∈ (extractFallout (String.ofList spacedHeader) "a.h").procedures,
      x.kind = .functionMacro → x.doc = none → '\n' ∉ x.detail.toList := by decide +kernel
  have hsame := hsame.mpr fun x hx => (Extraction.mem_symbols.mp hx).elim (hmacros x) (hprocedures x)
  have hl : Language.serving? "fallout-ssl" = some .falloutSsl := rfl
  obtain ⟨hfile, heditor⟩ := hentries (s := { root := ⟨.root, []⟩ }) hload hnames List.mem_cons_self
    hread hl (by decide +kernel)
  exact ⟨⟨hr, hbare⟩, hsame, _, _, hload, heditor.trans ((congrArg Bucket.ofSymbols hsame).trans hfile.symm)⟩

/-- Line ends count where one blank behind the head of a macro ends its line, and where the parameters of
a macro stand on two lines. -/
theorem bareMacro_differs :
    (extractFallout "#define A \r\n" "").symbols ≠ (extractFallout "#define A \n" "").symbols ∧
      (extractFallout "#define f(a,\r\n b) 1" "").symbols ≠ (extractFallout "#define f(a,\n b) 1" "").symbols := by
  decide +kernel

end ScriptService
