import Mathlib.Data.List.Perm.Basic
import Mathlib.Tactic.MkIffOfInductiveProp
import ScriptService.Proofs.Declaration.Extract
import ScriptService.Proofs.Declaration.Keyword
import ScriptService.Proofs.Text.Class

/-!
# Scripts as they are written

A script is a list of items (`Item`): macros and procedures, each with or without
a doc comment, and lines between them that declare nothing. Where the parts of the
items hold neither keywords nor openings of comments (`Item.WellFormed`), extraction
gives back what was written (`extractFallout_written`).

* `define_line`, `procedure_line`: each pattern matches the line of its form;
* `reads_define`, `reads_procedure`: and it reads every item, finding those of its
  form only.
-/

namespace ScriptService.Script

open Text Scan Declaration

/-! ## Items -/

/-- An item of a script. -/
inductive Item where
  /-- A line that declares nothing. -/
  | filler (line : List Char)
  /-- A macro, with the text of its comment. -/
  | define (doc : Option (List Char)) (name : List Char) (params : Option (List Char))
      (value : List Char)
  /-- A procedure, with the text of its comment. -/
  | procedure (doc : Option (List Char)) (name : List Char) (params : Option (List Char))

/-- Parameters as they are written behind a name. -/
def paramsText (params : Option (List Char)) : List Char :=
  params.elim [] fun ps => '(' :: ps ++ [')']

/-- A line with a keyword, a name, parameters and what follows them. -/
def declarationLine (keyword : String) (name : List Char) (params : Option (List Char))
    (tail : List Char) : List Char :=
  keyword.toList ++ ' ' :: (name ++ paramsText params ++ ' ' :: tail)

namespace Item

/-- The text of an item's comment. -/
def doc : Item → Option (List Char)
  | filler _ => none
  | define doc .. => doc
  | procedure doc .. => doc

/-- The line of an item, behind its comment. -/
def code : Item → List Char
  | filler line => line
  | define _ name params value => declarationLine "#define" name params value
  | procedure _ name params => declarationLine "procedure" name params "begin".toList

/-- An item as it is written. -/
def text (i : Item) : List Char := commentLines i.doc ++ i.code ++ ['\n']

end Item

/-- A text without keywords and openings of comments. -/
@[mk_iff]
structure IsPlain (s : List Char) : Prop where
  define : Lacks "#define" s
  procedure : Lacks "procedure" s
  open_ : Lacks "/**" s

/-- A text that can stand between the delimiters of a comment. -/
@[mk_iff]
structure IsDocText (s : List Char) : Prop where
  plain : IsPlain s
  close : Lacks "*/" s

theorem IsDocText.isBody {s : List Char} (h : IsDocText s) : IsBody s := ⟨h.plain.open_, h.close⟩

@[mk_iff]
structure IsName (s : List Char) : Prop where
  plain : IsPlain s
  ne_nil : s ≠ []
  word : s.all isWord = true

@[mk_iff]
structure IsParams (s : List Char) : Prop where
  plain : IsPlain s
  close : ')' ∉ s
  newline : '\n' ∉ s

/-- A text that can stand behind the name of a macro. -/
@[mk_iff]
structure IsValue (s : List Char) : Prop where
  plain : IsPlain s
  ne_nil : s ≠ []
  newline : '\n' ∉ s
  head : s.head?.any isBlank = false
  last : s.getLast?.any isBlank = false

instance (s : List Char) : Decidable (IsPlain s) := decidable_of_iff' _ (isPlain_iff s)

instance (s : List Char) : Decidable (IsDocText s) := decidable_of_iff' _ (isDocText_iff s)

instance (s : List Char) : Decidable (IsName s) := decidable_of_iff' _ (isName_iff s)

instance (s : List Char) : Decidable (IsParams s) := decidable_of_iff' _ (isParams_iff s)

instance (s : List Char) : Decidable (IsValue s) := decidable_of_iff' _ (isValue_iff s)

/-- The parts of an item are what the places where they stand allow. -/
def Item.WellFormed : Item → Prop
  | filler line => IsPlain line ∧ '\n' ∉ line
  | define doc name params value =>
    (∀ s ∈ doc, IsDocText s) ∧ IsName name ∧ (∀ ps ∈ params, IsParams ps ∧ ps ≠ []) ∧ IsValue value
  | procedure doc name params =>
    (∀ s ∈ doc, IsDocText s) ∧ IsName name ∧ ∀ ps ∈ params, IsParams ps

instance : DecidablePred Item.WellFormed
  | .filler line => inferInstanceAs (Decidable (IsPlain line ∧ '\n' ∉ line))
  | .define doc name params value => inferInstanceAs (Decidable
      ((∀ s ∈ doc, IsDocText s) ∧ IsName name ∧ (∀ ps ∈ params, IsParams ps ∧ ps ≠ []) ∧
        IsValue value))
  | .procedure doc name params => inferInstanceAs (Decidable
      ((∀ s ∈ doc, IsDocText s) ∧ IsName name ∧ ∀ ps ∈ params, IsParams ps))

/-! ## Patterns on their lines -/

theorem led_define : Led define "#define" where
  eq_none before s h := by rw [define, word?_eq_none h]; rfl
  newline := by decide
  star := by decide
  slash := by decide
  ne_nil := by decide

theorem led_procedure : Led procedure "procedure" where
  eq_none before s h := by rw [procedure, word?_eq_none h]; rfl
  newline := by decide
  star := by decide
  slash := by decide
  ne_nil := by decide

theorem params?_text {params : Option (List Char)} (h : ∀ ps ∈ params, ')' ∉ ps) (s : List Char) :
    params? (paramsText params ++ ' ' :: s) = params.map fun ps => (ps, ' ' :: s) := by
  cases params with
  | none =>
    have hs : ¬ "(".toList <+: ' ' :: s := by simp
    rw [paramsText, Option.elim_none, List.nil_append, params?, word?_eq_none hs]
    rfl
  | some ps =>
    have htext : paramsText (some ps) ++ ' ' :: s = "(".toList ++ (ps ++ ')' :: ' ' :: s) := by
      simp [paramsText]
    rw [htext, params?, word?_append]
    exact upTo?_append (h ps rfl) (' ' :: s)

/-- Behind a name stands a parenthesis or a space. -/
theorem isWord_head_paramsText (params : Option (List Char)) (s : List Char) :
    (paramsText params ++ ' ' :: s).head?.any isWord = false := by
  cases params with
  | none => exact show isWord ' ' = false by decide
  | some ps => exact show isWord '(' = false by decide

theorem IsName.isBlank_head {name : List Char} (h : IsName name) (s : List Char) :
    (name ++ s).head?.any isBlank = false := by
  obtain ⟨c, t, rfl⟩ := List.exists_cons_of_ne_nil h.ne_nil
  exact isBlank_of_isWord (List.all_eq_true.mp h.word c List.mem_cons_self)

theorem IsValue.isBlank_head {value : List Char} (h : IsValue value) (s : List Char) :
    (value ++ s).head?.any isBlank = false := by
  obtain ⟨c, t, rfl⟩ := List.exists_cons_of_ne_nil h.ne_nil
  exact h.head

theorem isGap_head {s : List Char} (h : s.head?.any isBlank = false) : s.head?.any isGap = false := by
  cases s with
  | nil => rfl
  | cons c s => exact isGap_of_isBlank h

theorem run?_space {p : Char → Bool} (hp : p ' ' = true) {s : List Char} (hs : s.head?.any p = false) :
    run? p (' ' :: s) = some ([' '], s) :=
  run?_append (u := [' ']) (by simp) (by simp [hp]) hs

theorem declarationLine_append (keyword : String) (name : List Char) (params : Option (List Char))
    (tail s : List Char) :
    declarationLine keyword name params tail ++ s =
      keyword.toList ++ ' ' :: (name ++ (paramsText params ++ ' ' :: (tail ++ s))) := by
  simp [declarationLine]

/-- A name stands one place behind its keyword. -/
theorem length_sub_keyword (keyword : String) (s : List Char) :
    (keyword.toList ++ ' ' :: s).length - s.length = keyword.toList.length + 1 := by
  rw [List.length_append, List.length_cons]
  omega

theorem IsName.run? {name : List Char} (h : IsName name) (params : Option (List Char)) (s : List Char) :
    run? isWord (name ++ (paramsText params ++ ' ' :: s)) = some (name, paramsText params ++ ' ' :: s) :=
  run?_append h.ne_nil h.word (isWord_head_paramsText params s)

/-- What follows the parameters of a line. -/
theorem elim_params (params : Option (List Char)) (s : List Char) :
    (params.map fun ps => (ps, ' ' :: s)).elim (paramsText params ++ ' ' :: s) Prod.snd = ' ' :: s := by
  cases params <;> rfl

theorem value?_text {value : List Char} (h : IsValue value) (s : List Char) :
    value? (' ' :: (value ++ '\n' :: s)) = some (value, '\n' :: s) := by
  have hline : ∀ c ∈ value, (c != '\n') = true := fun c hc =>
    bne_iff_ne.mpr fun e => h.newline (e ▸ hc)
  have htake : (value ++ '\n' :: s).takeWhile (· != '\n') = value := by
    rw [List.takeWhile_append_of_pos hline, List.takeWhile_cons_of_neg (by simp), List.append_nil]
  have hdrop : (value ++ '\n' :: s).dropWhile (· != '\n') = '\n' :: s := by
    rw [List.dropWhile_append_of_pos hline, List.dropWhile_cons_of_neg (by simp)]
  rw [value?, run?_space rfl (isGap_head (h.isBlank_head _))]
  simp only [Option.bind_eq_bind, Option.bind_some, htake, hdrop]
  rw [if_neg (by simpa using h.ne_nil)]

theorem define_line {name : List Char} {params : Option (List Char)} {value : List Char}
    (hn : IsName name) (hp : ∀ ps ∈ params, IsParams ps ∧ ps ≠ []) (hv : IsValue value)
    (before : Option Char) (s : List Char) :
    define before (declarationLine "#define" name params value ++ '\n' :: s) =
      some ({ name, nameOffset := 8, form := .define params value }, '\n' :: s) := by
  have hparams : (params? (paramsText params ++ ' ' :: (value ++ '\n' :: s))).filter (!·.1.isEmpty) =
      params.map fun ps => (ps, ' ' :: (value ++ '\n' :: s)) := by
    rw [params?_text fun ps hps => (hp ps hps).1.close]
    cases params with
    | none => rfl
    | some ps => simp [(hp ps rfl).2]
  rw [declarationLine_append, define, word?_append]
  simp only [Option.bind_eq_bind, Option.bind_some, run?_space rfl (isGap_head (hn.isBlank_head _)),
    hn.run?, hparams, elim_params, value?_text hv, length_sub_keyword]
  cases params <;> rfl

theorem procedure_line {name : List Char} {params : Option (List Char)} (hn : IsName name)
    (hp : ∀ ps ∈ params, IsParams ps) {before : Option Char} (hb : LineStart before) (s : List Char) :
    procedure before (declarationLine "procedure" name params "begin".toList ++ '\n' :: s) =
      some ({ name, nameOffset := 10, form := .procedure (params.getD []) }, '\n' :: s) := by
  have hparams := params?_text (fun ps hps => (hp ps hps).close) ("begin".toList ++ '\n' :: s)
  have hbefore : before.any isWord = false := by
    cases before with
    | none => rfl
    | some c => rw [hb c rfl]; decide
  have hstart : ∀ u, startsWord ("procedure".toList ++ u) = true := fun _ =>
    show isWord 'p' = true by decide
  have hbegin : ("begin".toList ++ '\n' :: s).head?.any isBlank = false :=
    show isBlank 'b' = false by decide
  have hend : startsWord ('\n' :: s) = false := show isWord '\n' = false by decide
  rw [declarationLine_append, procedure, word?_append]
  simp only [Option.bind_eq_bind, Option.bind_some, run?_space rfl (hn.isBlank_head _), hn.run?, hparams,
    elim_params, run?_space rfl hbegin, word?_append, length_sub_keyword, isWordEdge, hbefore, hstart, hend]
  cases params <;> rfl

/-! ## Reading items -/

/-- A line lacks a word that its parts lack, if the characters between them are not in the word. -/
theorem lacks_declarationLine {w keyword : String} {name tail : List Char}
    {params : Option (List Char)} (hw : ∀ c ∈ [' ', '(', ')'], c ∉ w.toList)
    (hk : Lacks w keyword.toList) (hn : Lacks w name) (hp : ∀ ps ∈ params, Lacks w ps)
    (ht : Lacks w tail) : Lacks w (declarationLine keyword name params tail) := by
  refine hk.append_cons ?_ (hw ' ' (by simp))
  cases params with
  | none =>
    rw [paramsText, Option.elim_none, List.append_nil]
    exact hn.append_cons ht (hw ' ' (by simp))
  | some ps =>
    have htext : name ++ paramsText (some ps) ++ ' ' :: tail =
        name ++ '(' :: (ps ++ ')' :: ([] ++ ' ' :: tail)) := by
      simp [paramsText]
    have hempty : Lacks w [] := ht.of_infix List.nil_infix
    rw [htext]
    exact hn.append_cons ((hp ps rfl).append_cons (hempty.append_cons ht (hw ' ' (by simp)))
      (hw ')' (by simp))) (hw '(' (by simp))

namespace Item

def isDefine : Item → Bool
  | define .. => true
  | _ => false

def isProcedure : Item → Bool
  | procedure .. => true
  | _ => false

/-- The declaration that an item makes. -/
def declaration? : Item → Option Declaration
  | filler _ => none
  | define doc name params value => some (documented doc name 8 (.define params value))
  | procedure doc name params => some (documented doc name 10 (.procedure (params.getD [])))

/-- The match of an item of some kind: all of it but the end of its line. -/
def found (kind : Item → Bool) (i : Item) : List (Match Declaration) :=
  if kind i then
    (i.declaration?.map fun d => ⟨0, (commentLines i.doc ++ i.code).length, d⟩).toList
  else []

theorem reads_define {i : Item} (h : i.WellFormed) :
    (withDoc Declaration.define).Reads i.text (i.found isDefine) := by
  cases i with
  | filler line => exact led_define.reads_plain h.1.define h.1.open_
  | define doc name params value =>
    obtain ⟨hd, hn, hp, hv⟩ := h
    exact led_define.reads_declaration (fun s hs => (hd s hs).close)
      (List.prefix_append _ _) fun before s _ => define_line hn hp hv before s
  | procedure doc name params =>
    obtain ⟨hd, hn, hp⟩ := h
    refine led_define.reads_foreign
      (fun s hs => ⟨(hd s hs).isBody, (hd s hs).plain.define⟩) ?_ ?_
    · exact lacks_declarationLine (by simp) (by decide) hn.plain.define
        (fun ps hps => (hp ps hps).plain.define) (by decide)
    · exact lacks_declarationLine (by simp) (by decide) hn.plain.open_
        (fun ps hps => (hp ps hps).plain.open_) (by decide)

theorem reads_procedure {i : Item} (h : i.WellFormed) :
    (withDoc Declaration.procedure).Reads i.text (i.found isProcedure) := by
  cases i with
  | filler line => exact led_procedure.reads_plain h.1.procedure h.1.open_
  | define doc name params value =>
    obtain ⟨hd, hn, hp, hv⟩ := h
    refine led_procedure.reads_foreign
      (fun s hs => ⟨(hd s hs).isBody, (hd s hs).plain.procedure⟩) ?_ ?_
    · exact lacks_declarationLine (by simp) (by decide) hn.plain.procedure
        (fun ps hps => (hp ps hps).1.plain.procedure) hv.plain.procedure
    · exact lacks_declarationLine (by simp) (by decide) hn.plain.open_
        (fun ps hps => (hp ps hps).1.plain.open_) hv.plain.open_
  | procedure doc name params =>
    obtain ⟨hd, hn, hp⟩ := h
    exact led_procedure.reads_declaration (fun s hs => (hd s hs).close)
      (List.prefix_append _ _) fun before s hb => procedure_line hn hp hb s

/-! ## Symbols of items -/

/-- The symbol that an item declares, where its first line has a number. -/
def symbol? (line : Nat) (i : Item) : Option Symbol :=
  i.declaration?.map fun d => d.symbol (line + lineBreaks (commentLines i.doc))

/-- A name stands on the line of its keyword. -/
theorem lineBreaks_take (doc : Option (List Char)) (keyword : String) (hk : '\n' ∉ keyword.toList)
    (name : List Char) (params : Option (List Char)) (tail : List Char) :
    lineBreaks ((commentLines doc ++ declarationLine keyword name params tail ++ ['\n']).take
      ((commentLines doc).length + (keyword.toList.length + 1))) = lineBreaks (commentLines doc) := by
  have htext : declarationLine keyword name params tail ++ ['\n'] =
      (keyword.toList ++ [' ']) ++ (name ++ paramsText params ++ ' ' :: tail ++ ['\n']) := by
    simp [declarationLine]
  have hlen : keyword.toList.length + 1 = (keyword.toList ++ [' ']).length := by simp
  have hnone : (keyword.toList ++ [' ']).count '\n' = 0 := List.count_eq_zero.mpr (by simpa using hk)
  rw [List.append_assoc, List.take_length_add_append, htext, hlen, List.take_left, lineBreaks,
    List.count_append, hnone]
  rfl

theorem symbolsAt_found (kind : Item → Bool) (line : Nat) (i : Item) :
    symbolsAt text (found kind) line i = (if kind i then i.symbol? line else none).toList := by
  rw [symbolsAt, found]
  split
  · cases i with
    | filler _ => rfl
    | define doc name params value =>
      have hb : lineBreaks ((define doc name params value).text.take
          (0 + ((commentLines doc).length + 8))) = lineBreaks (commentLines doc) := by
        rw [Nat.zero_add]
        exact lineBreaks_take doc "#define" (by decide) name params value
      simp only [symbol?, declaration?, documented, Option.map_some, Option.toList_some, List.map_cons,
        List.map_nil, hb, Item.doc]
    | procedure doc name params =>
      have hb : lineBreaks ((procedure doc name params).text.take
          (0 + ((commentLines doc).length + 10))) = lineBreaks (commentLines doc) := by
        rw [Nat.zero_add]
        exact lineBreaks_take doc "procedure" (by decide) name params "begin".toList
      simp only [symbol?, declaration?, documented, Option.map_some, Option.toList_some, List.map_cons,
        List.map_nil, hb, Item.doc]
  · rfl

theorem nameOffset_le (kind : Item → Bool) (i : Item) :
    ∀ m ∈ found kind i, m.start + m.value.nameOffset ≤ i.text.length := by
  intro m hm
  rw [found] at hm
  split at hm
  · cases i with
    | filler _ => cases hm
    | define doc name params value =>
      obtain rfl := List.mem_singleton.mp hm
      simp [documented, text, code, declarationLine, Item.doc]
    | procedure doc name params =>
      obtain rfl := List.mem_singleton.mp hm
      simp [documented, text, code, declarationLine, Item.doc]
  · cases hm

theorem line_of_symbol? {line : Nat} {i : Item} {s : Symbol} (h : s ∈ i.symbol? line) :
    line ≤ s.line ∧ s.line < line + lineBreaks i.text := by
  have hline : s.line = line + lineBreaks (commentLines i.doc) := by
    obtain ⟨d, hd, rfl⟩ := Option.map_eq_some_iff.mp h
    rw [Declaration.symbol]
    split <;> rfl
  have htext : lineBreaks (commentLines i.doc) < lineBreaks i.text := by
    rw [text, lineBreaks, lineBreaks, List.count_append, List.count_append, List.count_singleton_self]
    omega
  omega

end Item

/-! ## Scripts -/

/-- What a symbol tells of its declaration. -/
structure Entry where
  name : String
  source : String
  line : Int
  doc : Option Doc
  value : String
  multiline : Bool
deriving DecidableEq

def Entry.ofSymbol (s : Symbol) : Entry :=
  ⟨s.name, s.source, s.line, s.doc, s.value, s.multiline⟩

/-- What an item of a file tells of its declaration, where its first line has a number. A declaration
stands on the line of its keyword, behind the lines of its comment. -/
def Item.entry? (source : String) (line : Nat) : Item → Option Entry
  | filler _ => none
  | define doc name _ value =>
    some { name := String.ofList name
           source
           line := line + lineBreaks (commentLines doc)
           doc := doc.map fun s => Doc.ofComment (comment s)
           value := String.ofList value
           multiline := value.getLast? == some '\\' }
  | procedure doc name _ =>
    some { name := String.ofList name
           source
           line := line + lineBreaks (commentLines doc)
           doc := doc.map fun s => Doc.ofComment (comment s)
           value := ""
           multiline := false }

theorem Item.entry_symbol? {i : Item} (h : i.WellFormed) (source : String) (line : Nat) :
    (i.symbol? line).map (fun s => Entry.ofSymbol (s.withSource source)) = i.entry? source line := by
  cases i with
  | filler _ => rfl
  | define doc name params value =>
    have hv : trimRight value = value := trimRight_eq_self h.2.2.2.last
    simp only [symbol?, declaration?, documented, Option.map_some, Declaration.symbol, defineSymbol, hv,
      Option.map_map, Symbol.withSource, Entry.ofSymbol, entry?, Item.doc]
    rfl
  | procedure doc name params =>
    simp only [symbol?, declaration?, documented, Option.map_some, Declaration.symbol, procedureSymbol,
      Option.map_map, Symbol.withSource, Entry.ofSymbol, entry?, Item.doc]
    rfl

/-- The symbols that items of some kind declare, in order. -/
def symbols (kind : Item → Bool) (source : String) (items : List Item) : List Symbol :=
  (withLines Item.text 0 items).flatMap fun (n, i) =>
    ((if kind i then i.symbol? n else none).map (·.withSource source)).toList

/-- A pattern that reads the items, and finds those of some kind, finds their symbols. -/
theorem find_items {p : Pattern Declaration} {keyword : String} (hp : Led p keyword) (name : String)
    {kind : Item → Bool} {items : List Item}
    (h : ∀ i ∈ items, (withDoc p).Reads i.text (i.found kind)) (source : String) :
    ((rule name p).find (items.flatMap Item.text)).map (·.withSource source) =
      symbols kind source items := by
  rw [find_flatMap name hp.withDoc_nil h fun i _ => i.nameOffset_le kind, List.map_flatMap]
  refine List.flatMap_congr fun ⟨n, i⟩ _ => ?_
  dsimp only
  rw [Item.symbolsAt_found, Option.toList_map]

theorem map_entry_symbols {items : List Item} (h : ∀ i ∈ items, i.WellFormed)
    (kind : Item → Bool) (source : String) :
    (symbols kind source items).map Entry.ofSymbol =
      (withLines Item.text 0 items).filterMap fun (n, i) =>
        if kind i then i.entry? source n else none := by
  rw [List.filterMap_eq_flatMap_toList, symbols, List.map_flatMap]
  refine List.flatMap_congr fun ⟨n, i⟩ hi => ?_
  dsimp only
  rw [← Option.toList_map, Option.map_map, ← Item.entry_symbol? (h i (le_of_mem_placed hi).2)]
  split <;> rfl

theorem symbols_perm (source : String) (items : List Item) :
    (symbols Item.isDefine source items ++ symbols Item.isProcedure source items).Perm
      (symbols (fun _ => true) source items) := by
  refine (List.flatMap_append_perm ..).trans (.of_eq (List.flatMap_congr fun ⟨n, i⟩ _ => ?_))
  cases i <;> rfl

theorem symbols_pairwise (source : String) (items : List Item) :
    (symbols (fun _ => true) source items).Pairwise fun a b => a.line < b.line := by
  refine pairwise_line_withLines (f := fun n (i : Item) => ((i.symbol? n).map (·.withSource source)).toList)
    (fun i _ n => ⟨?_, fun x hx => ?_⟩) 0
  · cases i.symbol? n <;> simp
  · obtain ⟨s, hs, rfl⟩ := Option.map_eq_some_iff.mp (Option.mem_toList.mp hx)
    exact Item.line_of_symbol? (s := s) hs

/-- Extraction gives back what was written: the macros and the procedures in order, and all of them
in the order of the script. -/
theorem extractFallout_written {items : List Item} (h : ∀ i ∈ items, i.WellFormed) (path : String) :
    let written := withLines Item.text 0 items
    let found := extractFallout (String.ofList (items.flatMap Item.text)) path
    found.macros.map Entry.ofSymbol =
        written.filterMap (fun (n, i) => if i.isDefine then i.entry? path n else none) ∧
      found.procedures.map Entry.ofSymbol =
        written.filterMap (fun (n, i) => if i.isProcedure then i.entry? path n else none) ∧
      found.symbols.map Entry.ofSymbol = written.filterMap fun (n, i) => i.entry? path n := by
  intro written found
  have htext : (String.ofList (items.flatMap Item.text)).toList = items.flatMap Item.text := by simp
  have hmacros : found.macros = symbols Item.isDefine path items := by
    have := find_items led_define "macros" (fun i hi => Item.reads_define (h i hi)) path
    rwa [← htext] at this
  have hprocedures : found.procedures = symbols Item.isProcedure path items := by
    have := find_items led_procedure "procedures" (fun i hi => Item.reads_procedure (h i hi)) path
    rwa [← htext] at this
  have hsymbols : found.symbols = symbols (fun _ => true) path items := by
    refine Extraction.symbols_eq ?_ (symbols_pairwise path items)
    rw [hmacros, hprocedures]
    exact symbols_perm path items
  rw [hmacros, hprocedures, hsymbols]
  exact ⟨map_entry_symbols h _ path, map_entry_symbols h _ path,
    map_entry_symbols h (fun _ => true) path⟩

/-- A script whose first comment ends as another would begin. -/
def short : List Item :=
  [.filler "// limits".toList,
    .define (some "The most. /*".toList) "MAX".toList none "10".toList,
    .procedure none "start".toList (some []),
    .define none "add".toList (some "a, b".toList) "(a + \\".toList]

theorem short_extracted :
    (∀ i ∈ short, i.WellFormed) ∧
      (extractFallout (String.ofList (short.flatMap Item.text)) "a.h").symbols.map Entry.ofSymbol =
        [⟨"MAX", "a.h", 3, some { description := some "The most. /*" }, "10", false⟩,
          ⟨"start", "a.h", 4, none, "", false⟩, ⟨"add", "a.h", 5, none, "(a + \\", true⟩] := by
  have hwf : ∀ i ∈ short, i.WellFormed := by decide +kernel
  refine ⟨hwf, (extractFallout_written hwf "a.h").2.2.trans ?_⟩
  decide +kernel

end ScriptService.Script
