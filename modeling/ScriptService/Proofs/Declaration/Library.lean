import Mathlib.Data.List.Perm.Basic
import ScriptService.Proofs.Declaration.Extract
import ScriptService.Proofs.Declaration.Keyword
import ScriptService.Proofs.Text.Class

/-!
# Libraries as they are written

A library is a list of items (`Item`): definitions of functions and macros, each
with or without a doc comment and a header, and lines between them that declare
nothing. A header may run over several lines and hold anything but the word that
ends it (`Item.WellFormed`). Extraction gives back what was written
(`extractWeidu_written`).

* `header?_append`: a header ends at the first `BEGIN` that stands alone
  (`HoldsWord`), so it reaches neither less nor more than what was written;
* `definition_code`: the pattern matches a definition up to that word;
* `Item.WellFormed.reads`: and it reads every item, finding the definitions only. What a header
  or a comment holds is never looked at for further definitions.
-/

namespace ScriptService.Library

open Text Scan Declaration

/-! ## Items -/

/-- The marks around the name of a definition. -/
inductive Quote where
  | bare
  | tilde
  | double
deriving DecidableEq

/-- A mark as it is written on each side of a name. -/
def Quote.mark : Quote → List Char
  | bare => []
  | tilde => ['~']
  | double => ['"']

/-- A definition, with the text of its comment and the header behind its name. -/
structure Definition where
  doc : Option (List Char) := none
  scope : Scope
  callable : Callable
  quote : Quote := .bare
  name : List Char
  header : Option (List Char) := none

namespace Definition

/-- What stands in front of the name. -/
def lead (d : Definition) : List Char :=
  "DEFINE_".toList ++ (d.scope.keyword.toList ++ ("_".toList ++ (d.callable.keyword.toList ++
    ([' '] ++ d.quote.mark))))

/-- What stands between the name with its marks and the word that ends the header. -/
def gap (d : Definition) : List Char := d.header.elim [] (' ' :: ·) ++ [' ']

/-- A definition behind its comment. -/
def code (d : Definition) : List Char :=
  d.lead ++ (d.name ++ (d.quote.mark ++ (d.gap ++ "BEGIN".toList)))

end Definition

/-- An item of a library. -/
inductive Item where
  /-- A line that declares nothing. -/
  | filler (line : List Char)
  | definition (d : Definition)

namespace Item

/-- An item as it is written. -/
def text : Item → List Char
  | filler line => line ++ ['\n']
  | definition d => commentLines d.doc ++ d.code ++ ['\n']

/-- What kind of code an item defines. -/
def callable? : Item → Option Callable
  | filler _ => none
  | definition d => some d.callable

end Item

/-- A word stands in a text as a word of its own. -/
def HoldsWord (w : String) (s : List Char) : Prop :=
  ∃ a b, s = a ++ (w.toList ++ b) ∧ a.getLast?.any isWord = false ∧ startsWord b = false

/-- The word stands at one of the places of the text. -/
theorem holdsWord_iff (w : String) (s : List Char) :
    HoldsWord w s ↔ ∃ n ∈ List.range (s.length + 1), w.toList <+: s.drop n ∧
      (s.take n).getLast?.any isWord = false ∧ startsWord ((s.drop n).drop w.toList.length) = false := by
  constructor
  · rintro ⟨a, b, rfl, ha, hb⟩
    refine ⟨a.length, List.mem_range.mpr (by rw [List.length_append]; omega), ?_⟩
    rw [List.drop_left, List.take_left, List.drop_left]
    exact ⟨List.prefix_append _ _, ha, hb⟩
  · rintro ⟨n, -, ⟨b, hb⟩, ha, hs⟩
    rw [← hb, List.drop_left] at hs
    exact ⟨s.take n, b, by rw [hb, List.take_append_drop], ha, hs⟩

instance (w : String) (s : List Char) : Decidable (HoldsWord w s) :=
  decidable_of_iff' _ (holdsWord_iff w s)

/-- The parts of an item are what the places where they stand allow. -/
def Item.WellFormed : Item → Prop
  | filler line => Lacks "DEFINE_" line ∧ Lacks "/**" line ∧ '\n' ∉ line
  | definition d =>
    (∀ body ∈ d.doc, Lacks "*/" body) ∧ d.name ≠ [] ∧ d.name.all isWord = true ∧
      ∀ h ∈ d.header, ¬ HoldsWord "BEGIN" h

instance : DecidablePred Item.WellFormed
  | .filler line =>
    inferInstanceAs (Decidable (Lacks "DEFINE_" line ∧ Lacks "/**" line ∧ '\n' ∉ line))
  | .definition d => inferInstanceAs (Decidable
      ((∀ body ∈ d.doc, Lacks "*/" body) ∧ d.name ≠ [] ∧ d.name.all isWord = true ∧
        ∀ h ∈ d.header, ¬ HoldsWord "BEGIN" h))

/-! ## Headers -/

theorem header?_begin {before : Option Char} (hb : before.any isWord = false) {s : List Char}
    (hs : startsWord s = false) : header? before ("BEGIN".toList ++ s) = some ([], s) := by
  have hedge : isWordEdge before ("BEGIN".toList ++ s) = true := by
    rw [isWordEdge, hb]
    exact show (false != isWord 'B') = true by decide
  have htext : "BEGIN".toList ++ s = 'B' :: ("EGIN".toList ++ s) := rfl
  rw [htext, header?, ← htext, word?_append, Option.filter_some, hedge, hs]
  rfl

theorem header?_cons {before : Option Char} {c : Char} {s : List Char}
    (h : ∀ t, c :: s = "BEGIN".toList ++ t → before.any isWord = false → startsWord t = true) :
    header? before (c :: s) = (header? (some c) s).map fun (t, rest) => (c :: t, rest) := by
  have hnone : ((word? "BEGIN" (c :: s)).filter fun rest =>
      isWordEdge before (c :: s) && !startsWord rest) = none := by
    refine Option.filter_eq_none_iff.mpr fun t ht => ?_
    have hs : c :: s = "BEGIN".toList ++ t := (List.isPrefixOf?_eq_some_iff_append_eq.mp ht).symm
    have hword : startsWord (c :: s) = true := by
      rw [hs]
      exact show isWord 'B' = true by decide
    rw [isWordEdge, hword]
    cases hb : before.any isWord with
    | true => simp
    | false => simp [h t hs hb]
  rw [header?, hnone]

/-- A header ends at the first word of its own that can end it. -/
theorem header?_append {h : List Char} {before : Option Char}
    (hh : ∀ a b, h = a ++ ("BEGIN".toList ++ b) → (a.getLast?.or before).any isWord = false →
      startsWord b = true) {s : List Char} (hs : startsWord s = false) :
    header? before (h ++ ' ' :: ("BEGIN".toList ++ s)) = some (h ++ [' '], s) := by
  induction h generalizing before with
  | nil =>
    have hend : header? (some ' ') ("BEGIN".toList ++ s) = some ([], s) := header?_begin (by decide) hs
    rw [List.nil_append, header?_cons fun t ht => by simp at ht, hend]
    rfl
  | cons c h ih =>
    have hhead : ∀ t, c :: (h ++ ' ' :: ("BEGIN".toList ++ s)) = "BEGIN".toList ++ t →
        before.any isWord = false → startsWord t = true := fun t ht hb => by
      -- the word cannot reach over the space that ends the header
      obtain ⟨b, hb'⟩ := prefix_of_prefix_append_cons (b := c :: h) (c := ' ') (by decide)
        (⟨t, ht.symm⟩ : "BEGIN".toList <+: c :: h ++ ' ' :: ("BEGIN".toList ++ s))
      have hstart := hh [] b hb'.symm hb
      rw [← List.cons_append, ← hb', List.append_assoc, List.append_cancel_left_eq] at ht
      rw [← ht]
      cases b with
      | nil => cases hstart
      | cons d b => exact hstart
    have htail : ∀ a b, h = a ++ ("BEGIN".toList ++ b) → (a.getLast?.or (some c)).any isWord = false →
        startsWord b = true := fun a b hab hlast => by
      refine hh (c :: a) b (by rw [hab, List.cons_append]) ?_
      rwa [Pattern.getLast?_cons_or]
    rw [List.cons_append, header?_cons hhead, ih htail]
    rfl

theorem header?_gap {d : Definition} (hd : ∀ h ∈ d.header, ¬ HoldsWord "BEGIN" h)
    (before : Option Char) {s : List Char} (hs : startsWord s = false) :
    header? before (d.gap ++ ("BEGIN".toList ++ s)) = some (d.gap, s) := by
  have hgap : d.gap ++ ("BEGIN".toList ++ s) =
      d.header.elim [] (' ' :: ·) ++ ' ' :: ("BEGIN".toList ++ s) := by
    rw [Definition.gap, List.append_assoc, List.singleton_append]
  rw [hgap]
  refine header?_append (fun a b hab hlast => ?_) hs
  cases hh : d.header with
  | none =>
    rw [hh, Option.elim_none] at hab
    simp at hab
  | some h =>
    rw [hh, Option.elim_some] at hab
    cases a with
    | nil => simp at hab
    | cons c a =>
      obtain ⟨rfl, rfl⟩ := List.cons.inj hab
      by_contra hb
      refine hd _ hh ⟨a, b, rfl, ?_, Bool.eq_false_iff.mpr hb⟩
      rw [Pattern.getLast?_cons_or] at hlast
      cases hlast' : a.getLast? with
      | none => rfl
      | some e => rwa [hlast'] at hlast

/-! ## The pattern on a definition -/

theorem led_definition : Led definition "DEFINE_" where
  eq_none before s h := by rw [definition, word?_eq_none h]; rfl
  newline := by decide
  star := by decide
  slash := by decide
  ne_nil := by decide

theorem either?_scope (scope : Scope) (s : List Char) :
    either? Scope.keyword .action .patch (scope.keyword.toList ++ s) = some (scope, s) := by
  cases scope with
  | action => rw [either?, word?_append]; rfl
  | patch =>
    have hne : ¬ Scope.action.keyword.toList <+: Scope.patch.keyword.toList ++ s := by
      simp [Scope.keyword]
    rw [either?, word?_eq_none hne, word?_append]
    rfl

theorem either?_callable (callable : Callable) (s : List Char) :
    either? Callable.keyword .function .expansion (callable.keyword.toList ++ s) = some (callable, s) := by
  cases callable with
  | function => rw [either?, word?_append]; rfl
  | expansion =>
    have hne : ¬ Callable.function.keyword.toList <+: Callable.expansion.keyword.toList ++ s := by
      simp [Callable.keyword]
    rw [either?, word?_eq_none hne, word?_append]
    rfl

/-- A mark is passed over, and nothing else is. -/
theorem skipQuote_mark (q : Quote) {c : Char} (hc : (c == '"' || c == '~') = false) (s : List Char) :
    skipQuote (q.mark ++ c :: s) = c :: s := by
  cases q with
  | bare => rw [Quote.mark, List.nil_append, skipQuote, hc]; rfl
  | tilde => rfl
  | double => rfl

theorem isQuote_of_isWord {c : Char} (h : isWord c = true) : (c == '"' || c == '~') = false := by
  rw [Bool.or_eq_false_iff, beq_eq_false_iff_ne, beq_eq_false_iff_ne]
  constructor <;> rintro rfl
  · exact absurd h (by decide)
  · exact absurd h (by decide)

/-- Behind a name stands a mark or a space. -/
theorem isWord_head_mark (q : Quote) (s : List Char) :
    (q.mark ++ ' ' :: s).head?.any isWord = false := by
  cases q with
  | bare => exact show isWord ' ' = false by decide
  | tilde => exact show isWord '~' = false by decide
  | double => exact show isWord '"' = false by decide

/-- In front of a name stands a mark or none of the spaces before it. -/
theorem isBlank_head_mark (q : Quote) {c : Char} (hc : isWord c = true) (s : List Char) :
    (q.mark ++ c :: s).head?.any isBlank = false := by
  cases q with
  | bare => exact isBlank_of_isWord hc
  | tilde => exact show isBlank '~' = false by decide
  | double => exact show isBlank '"' = false by decide

theorem gap_eq_cons (d : Definition) : ∃ t, d.gap = ' ' :: t := by
  rw [Definition.gap]
  cases d.header with
  | none => exact ⟨[], rfl⟩
  | some h => exact ⟨h ++ [' '], rfl⟩

/-- The pattern matches a definition that begins a line, to the end of its last word. -/
theorem definition_code {d : Definition} (h : (Item.definition d).WellFormed) {before : Option Char}
    (hb : LineStart before) (s : List Char) :
    definition before (d.code ++ '\n' :: s) =
      some ({ name := d.name, nameOffset := d.lead.length, form := .definition d.scope d.callable d.gap },
        '\n' :: s) := by
  obtain ⟨-, hne, hword, hheader⟩ := h
  obtain ⟨c, name, hname⟩ := List.exists_cons_of_ne_nil hne
  obtain ⟨gap, hgap⟩ := gap_eq_cons d
  have hc : isWord c = true := List.all_eq_true.mp hword c (hname ▸ List.mem_cons_self)
  have hedge : isWordEdge before (d.code ++ '\n' :: s) = true := by
    have hbefore : before.any isWord = false := by
      cases before with
      | none => rfl
      | some e => rw [hb e rfl]; decide
    rw [isWordEdge, hbefore]
    exact show (false != isWord 'D') = true by decide
  -- what follows the header, the marks and the name, in turn
  have hrest : ∀ before, header? before (d.gap ++ ("BEGIN".toList ++ '\n' :: s)) = some (d.gap, '\n' :: s) :=
    fun before => header?_gap hheader before (show isWord '\n' = false by decide)
  have hmark : skipQuote (d.quote.mark ++ (d.gap ++ ("BEGIN".toList ++ '\n' :: s))) =
      d.gap ++ ("BEGIN".toList ++ '\n' :: s) := by
    rw [hgap, List.cons_append]
    exact skipQuote_mark d.quote (by decide) _
  have hrun : ∀ t, run? isWord (d.name ++ (d.quote.mark ++ (d.gap ++ t))) =
      some (d.name, d.quote.mark ++ (d.gap ++ t)) := fun t => by
    refine run?_append hne hword ?_
    rw [hgap, List.cons_append]
    exact isWord_head_mark d.quote _
  have hopen : ∀ t, skipQuote (d.quote.mark ++ (d.name ++ t)) = d.name ++ t := fun t => by
    rw [hname, List.cons_append]
    exact skipQuote_mark d.quote (isQuote_of_isWord hc) _
  have hspace : ∀ t, run? isBlank ([' '] ++ (d.quote.mark ++ (d.name ++ t))) =
      some ([' '], d.quote.mark ++ (d.name ++ t)) := fun t => by
    refine run?_append (by simp) (by decide) ?_
    rw [hname, List.cons_append]
    exact isBlank_head_mark d.quote hc _
  have htext : d.code ++ '\n' :: s = "DEFINE_".toList ++ (d.scope.keyword.toList ++ ("_".toList ++
      (d.callable.keyword.toList ++ ([' '] ++ (d.quote.mark ++ (d.name ++ (d.quote.mark ++
        (d.gap ++ ("BEGIN".toList ++ '\n' :: s))))))))) := by
    unfold Definition.code Definition.lead
    simp only [List.append_assoc]
  have hoffset : (d.code ++ '\n' :: s).length -
      (d.name ++ (d.quote.mark ++ (d.gap ++ ("BEGIN".toList ++ '\n' :: s)))).length = d.lead.length := by
    simp only [Definition.code, List.append_assoc]
    rw [List.length_append, Nat.add_sub_cancel]
  rw [definition, hedge, htext, word?_append]
  simp only [Option.bind_eq_bind, Option.bind_some, either?_scope, word?_append, either?_callable, hspace,
    hopen, hrun, hmark, hrest]
  rw [← htext, hoffset]
  rfl

/-! ## Reading items -/

namespace Item

/-- The match of an item: all of it but the end of its last line. -/
def found : Item → List (Match Declaration)
  | filler _ => []
  | definition d =>
    [⟨0, (commentLines d.doc ++ d.code).length,
      documented d.doc d.name d.lead.length (.definition d.scope d.callable d.gap)⟩]

theorem WellFormed.reads {i : Item} (h : i.WellFormed) : (withDoc Declaration.definition).Reads i.text i.found := by
  cases i with
  | filler line => exact led_definition.reads_plain h.1 h.2.1
  | definition d =>
    have hk : "DEFINE_".toList <+: d.code := by
      unfold Definition.code Definition.lead
      rw [List.append_assoc]
      exact List.prefix_append _ _
    exact led_definition.reads_declaration h.1 hk fun before s hb => definition_code h hb s

theorem nameOffset_le_text (i : Item) : ∀ m ∈ i.found, m.start + m.value.nameOffset ≤ i.text.length := by
  intro m hm
  cases i with
  | filler _ => cases hm
  | definition d =>
    obtain rfl := List.mem_singleton.mp hm
    simp only [documented, text, Definition.code, List.length_append]
    omega

end Item

/-! ## Symbols of items -/

/-- The symbol that a definition of a file declares, where its first line has a number. The definition
stands on the line of its keyword, behind the lines of its comment. -/
def Definition.symbol (source : String) (line : Nat) (d : Definition) : Symbol :=
  let name := String.ofList d.name
  let doc := d.doc.map fun body => Doc.ofComment (comment body)
  let header := collapse (d.header.getD [])
  { name
    source
    doc
    line := line + lineBreaks (commentLines d.doc)
    kind := match d.callable with | .function => .procedure | .expansion => .functionMacro
    detail := match doc with
      | some doc => doc.signature name
      | none => d.scope.name ++ " " ++ d.callable.name ++ " " ++ name ++
          (if header = [] then "" else " " ++ String.ofList header) }

/-- The symbol that an item of a file declares, where its first line has a number. -/
def Item.symbol? (source : String) (line : Nat) : Item → Option Symbol
  | filler _ => none
  | definition d => some (d.symbol source line)

theorem newline_not_mem_lead (d : Definition) : '\n' ∉ d.lead := by
  unfold Definition.lead
  cases d.scope <;> cases d.callable <;> cases d.quote <;> decide

/-- A name stands on the line of its keyword. -/
theorem lineBreaks_lead (d : Definition) :
    lineBreaks ((Item.definition d).text.take ((commentLines d.doc).length + d.lead.length)) =
      lineBreaks (commentLines d.doc) := by
  have hlead : d.lead.count '\n' = 0 := List.count_eq_zero.mpr (newline_not_mem_lead d)
  rw [Item.text, Definition.code, List.append_assoc, List.append_assoc, List.take_length_add_append,
    List.take_left, lineBreaks, List.count_append, hlead]
  rfl

theorem collapse_gap (d : Definition) : collapse d.gap = collapse (d.header.getD []) := by
  rw [Definition.gap, collapse, words_concat_blank (by decide)]
  cases d.header with
  | none => rfl
  | some h => rw [Option.elim_some, words_cons_blank (by decide)]; rfl

/-- The symbol of a match is that of the definition. -/
theorem symbol_documented (d : Definition) (source : String) (line : Nat) :
    ((documented d.doc d.name d.lead.length (.definition d.scope d.callable d.gap)).symbol
        (line + lineBreaks (commentLines d.doc))).withSource source = d.symbol source line := by
  have hheader : String.ofList (if (collapse d.gap).isEmpty then [] else ' ' :: collapse d.gap) =
      if collapse (d.header.getD []) = [] then "" else " " ++ String.ofList (collapse (d.header.getD [])) := by
    rw [collapse_gap]
    cases collapse (d.header.getD []) with
    | nil => rfl
    | cons c s => simp
  have hdoc : (documented d.doc d.name d.lead.length (.definition d.scope d.callable d.gap)).doc.map
      Doc.ofComment = d.doc.map fun body => Doc.ofComment (comment body) := by
    rw [documented, Option.map_map]
    rfl
  rw [Declaration.symbol, hdoc]
  simp only [documented, definitionSymbol, hheader, Definition.symbol, Symbol.withSource]
  cases d.doc <;> rfl

theorem symbolsAt_item (source : String) (line : Nat) (i : Item) :
    (symbolsAt Item.text Item.found line i).map (·.withSource source) = (i.symbol? source line).toList := by
  cases i with
  | filler _ => rfl
  | definition d =>
    have hline := lineBreaks_lead d
    rw [symbolsAt, Item.found, List.map_singleton, List.map_singleton]
    simp only [documented, Nat.zero_add, hline]
    exact congrArg (fun x => [x]) (symbol_documented d source line)

theorem line_of_item {source : String} {line : Nat} {i : Item} {x : Symbol} (h : x ∈ i.symbol? source line) :
    line ≤ x.line ∧ x.line < line + lineBreaks i.text := by
  cases i with
  | filler _ => cases h
  | definition d =>
    obtain rfl := Option.some.inj h
    have hline : (d.symbol source line).line = line + lineBreaks (commentLines d.doc) := rfl
    have htext : lineBreaks (commentLines d.doc) < lineBreaks (Item.definition d).text := by
      rw [Item.text, lineBreaks, lineBreaks, List.count_append, List.count_append,
        List.count_singleton_self]
      omega
    omega

/-! ## Libraries -/

/-- The symbols of the items of a file, in order. -/
def symbols (source : String) (items : List Item) : List Symbol :=
  (withLines Item.text 0 items).filterMap fun (n, i) => i.symbol? source n

theorem find_written {items : List Item} (h : ∀ i ∈ items, i.WellFormed) (source : String) :
    (definitions.find (items.flatMap Item.text)).map (·.withSource source) = symbols source items := by
  rw [definitions, find_flatMap "macros" led_definition.withDoc_nil (fun i hi => (h i hi).reads)
    fun i _ => i.nameOffset_le_text, List.map_flatMap, symbols, List.filterMap_eq_flatMap_toList]
  exact List.flatMap_congr fun ⟨n, i⟩ _ => symbolsAt_item source n i

theorem symbols_pairwise (source : String) (items : List Item) :
    (symbols source items).Pairwise fun a b => a.line < b.line := by
  rw [symbols, List.filterMap_eq_flatMap_toList]
  refine pairwise_line_withLines (f := fun n (i : Item) => (i.symbol? source n).toList)
    (fun i _ n => ⟨?_, fun x hx => line_of_item (Option.mem_toList.mp hx)⟩) 0
  cases i.symbol? source n <;> simp

/-- The symbols of one kind are those of the items that define such code. -/
theorem filter_symbols (source : String) (items : List Item) (callable : Callable) {p : Symbol → Bool}
    (hp : ∀ (d : Definition) (n : Nat), p (d.symbol source n) = decide (d.callable = callable)) :
    (symbols source items).filter p = (withLines Item.text 0 items).filterMap fun (n, i) =>
      if i.callable? = some callable then i.symbol? source n else none := by
  rw [symbols, List.filter_filterMap]
  refine List.filterMap_congr fun ⟨n, i⟩ _ => ?_
  cases i with
  | filler _ => rfl
  | definition d =>
    simp only [Item.symbol?, Item.callable?, Option.filter_some, hp, Option.some.injEq, decide_eq_true_eq]

/-- Extraction gives back what was written: the macros and the functions in order, and all of them in
the order of the library. -/
theorem extractWeidu_written {items : List Item} (h : ∀ i ∈ items, i.WellFormed) (path : String) :
    let written := withLines Item.text 0 items
    let found := extractWeidu (String.ofList (items.flatMap Item.text)) path
    found.macros = written.filterMap (fun (n, i) =>
        if i.callable? = some .expansion then i.symbol? path n else none) ∧
      found.procedures = written.filterMap (fun (n, i) =>
        if i.callable? = some .function then i.symbol? path n else none) ∧
      found.symbols = written.filterMap fun (n, i) => i.symbol? path n := by
  intro written found
  have hfound : (definitions.find (String.ofList (items.flatMap Item.text)).toList).map
      (·.withSource path) = symbols path items := by
    rw [String.toList_ofList]
    exact find_written h path
  have hmacros : found.macros = (symbols path items).filter (·.kind ≠ .procedure) := by rw [← hfound]; rfl
  have hprocedures : found.procedures = (symbols path items).filter (·.kind = .procedure) := by
    rw [← hfound]; rfl
  refine ⟨hmacros.trans (filter_symbols path items _ fun d n => ?_),
    hprocedures.trans (filter_symbols path items _ fun d n => ?_),
    Extraction.symbols_eq ?_ (symbols_pairwise path items)⟩
  · cases hc : d.callable <;> simp [Definition.symbol, hc]
  · cases hc : d.callable <;> simp [Definition.symbol, hc]
  · have hsplit := List.filter_append_perm (fun x : Symbol => decide (x.kind ≠ .procedure))
      (symbols path items)
    simp only [decide_not, Bool.not_not] at hsplit
    rw [hmacros, hprocedures]
    simp only [ne_eq, decide_not]
    exact hsplit

/-- A library in which keywords and openings of comments stand in headers and comments. -/
def spells : List Item :=
  [.filler "// spells".toList,
    .definition { doc := some "DEFINE_PATCH_MACRO old BEGIN\n @return {int} /**".toList, scope := .action,
                  callable := .function, quote := .tilde, name := "learn".toList,
                  header := some "INT_VAR level = 1\n  STR_VAR BEGINNING = ~DEFINE_~".toList },
    .definition { scope := .patch, callable := .expansion, quote := .double, name := "BEGIN".toList },
    .definition { scope := .patch, callable := .function, name := "fix".toList,
                  header := some " RET\t x\n".toList }]

theorem spells_extracted :
    (∀ i ∈ spells, i.WellFormed) ∧
      (extractWeidu (String.ofList (spells.flatMap Item.text)) "lib.tph").symbols =
        [{ name := "learn", kind := .procedure, detail := "int learn()", source := "lib.tph", line := 4,
           doc := some { description := some "DEFINE_PATCH_MACRO old BEGIN",
                         returns := some ⟨"int", "/**"⟩ } },
          { name := "BEGIN", kind := .functionMacro, detail := "patch macro BEGIN", source := "lib.tph",
            line := 6 },
          { name := "fix", kind := .procedure, detail := "patch function fix RET x", source := "lib.tph",
            line := 7 }] := by
  have hwf : ∀ i ∈ spells, i.WellFormed := by decide +kernel
  refine ⟨hwf, (extractWeidu_written hwf "lib.tph").2.2.trans ?_⟩
  decide +kernel

end ScriptService.Library
