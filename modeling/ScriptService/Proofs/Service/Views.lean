import ScriptService.CommandLine.Commands
import ScriptService.Proofs.Service.Lookup
import ScriptService.Proofs.Service.Reachable
import ScriptService.Proofs.Symbol.Block
import ScriptService.Proofs.Symbol.Signature

/-!
# One line in all views

A symbol is shown in completions, in hover texts and in the listings of a file. All
of them choose its signature line anew; as that changes nothing, all show the line
that was chosen when the symbol was found (`shows_of_mem_extract`), but for a hover
text whose first block the line itself closes (`fenceSymbol_cut`). It stays so through
the index, which hands out the symbols that it was given
(`Service.mem_completions`, `Service.hover_eq`), and requests give it no others
(`Service.Reachable.shown`).

Main statement: `views_agree`.
-/

namespace ScriptService

open CommandLine.Call (symbolLine symbolValue)
open Markdown (BeginsWith IsTag Uncut backticks firstBlock? lines)

/-! ## The views of a symbol -/

/-- All views of a symbol show a line, the hover text as far as the line does not close the block that it
stands in. -/
structure Symbol.Shows (x : Symbol) (line : String) : Prop where
  detail : x.detail = line
  displayLine : x.displayLine = line
  completion : ∀ language, (x.completion language).detail = line
  hover : ∀ language, BeginsWith (x.hover language).contents language line
  listed : symbolLine x = toString (x.line + 1) ++ ":" ++ x.kind.name ++ "\t" ++ x.name ++ "\t" ++ line
  listedValue : symbolValue x = Config.textMapping
    [("name", .text x.name), ("kind", .text x.kind.name), ("line", .int (x.line + 1)), ("detail", .text line)]

/-- What follows the signature line in a hover text begins on a line of its own. -/
theorem Symbol.markdown_eq (x : Symbol) (language : String) :
    ∃ rest, x.markdown language = fenced language x.displayLine ++ rest ∧
      (rest = "" ∨ ∃ t, rest = "\n" ++ t) := by
  have happend : ∀ {a b : String}, (a = "" ∨ ∃ t, a = "\n" ++ t) → (b = "" ∨ ∃ t, b = "\n" ++ t) →
      a ++ b = "" ∨ ∃ t, a ++ b = "\n" ++ t := by
    rintro a b (rfl | ⟨t, rfl⟩) hb
    · rwa [String.empty_append]
    · exact .inr ⟨t ++ b, String.append_assoc ..⟩
  simp only [markdown, String.append_assoc]
  refine ⟨_, rfl, happend ?_ (happend ?_ ?_)⟩
  · split
    · exact .inl rfl
    · exact .inr ⟨"\n" ++ fenced commentFence x.source, rfl⟩
  · split
    · exact .inr ⟨_, rfl⟩
    · exact .inl rfl
  · split
    · rename_i d _
      split
      · exact .inl rfl
      · simp only [Doc.markdown, String.append_assoc]
        exact .inr ⟨_, @String.append_assoc "\n" "---\n" _⟩
    · exact .inl rfl

/-- The views show the line that the symbol has, if to choose it anew changes nothing. -/
theorem Symbol.Shows.of_displayLine {x : Symbol} (h : x.displayLine = x.detail)
    (hlast : x.detail.toList.getLast? ≠ some '\r') : x.Shows x.detail where
  detail := rfl
  displayLine := h
  completion _ := h
  hover language := by
    obtain ⟨rest, hrest, hshape⟩ := x.markdown_eq language
    rw [h] at hrest
    exact Markdown.beginsWith hlast hrest hshape
  listed := by rw [symbolLine, h]
  listedValue := by rw [symbolValue, h]

theorem Language.shows_of_mem_symbols {l : Language} {text path : String} {x : Symbol}
    (h : x ∈ (l.extractor text path).symbols) : x.Shows x.detail :=
  .of_displayLine (displayLine_eq_detail h) (getLast?_detail h)

/-- The views of an extracted symbol show its line, whatever file it is said to be from. -/
theorem shows_of_mem_extract {language text path : String} {x : Symbol}
    (h : x ∈ (extract language text path).symbols) (source : String) :
    (x.withSource source).Shows x.detail := by
  obtain ⟨l, -, hl⟩ := serving?_of_mem_extract h
  rw [hl] at h
  have hline : (x.withSource source).displayLine = x.detail := Language.displayLine_eq_detail (x := x) h
  have hlast : x.detail.toList.getLast? ≠ some '\r' := Language.getLast?_detail h
  exact .of_displayLine (x := x.withSource source) hline hlast

/-! ## Through the index -/

namespace Index

/-- All views of the symbols of an index show the lines that the symbols have. -/
def Shown (i : Index) : Prop := ∀ tier key, ∀ x ∈ i.get tier key, x.Shows x.detail

theorem shown_empty : Shown {} := fun tier _ x hx => by
  cases tier <;> cases hx

theorem Shown.update {i : Index} (hi : i.Shown) {u : Update} (hu : ∀ x ∈ u.symbols, x.Shows x.detail) :
    (i.update u).Shown := fun tier key x hx => by
  rw [get_update] at hx
  split at hx
  · exact hu x (Bucket.mem_of_mem_ofSymbols hx)
  · exact hi tier key x hx

theorem shows_of_mem_reload {b : Bucket} (hb : ∀ x ∈ b, x.Shows x.detail) {l : Language} {path text : String}
    {x : Symbol} (hx : x ∈ Bucket.reload b path text l.extractor) : x.Shows x.detail := by
  rcases List.mem_append.mp (Bucket.mem_of_mem_ofSymbols hx) with hx | hx
  · exact hb x (List.mem_filter.mp hx).1
  · rw [Language.map_withSource_symbols] at hx
    exact Language.shows_of_mem_symbols hx

theorem shows_of_mem_loadHeaders {files : Files} {dir : Path} {language : String} {symbols : List Symbol}
    (h : loadHeaders files dir language = .ok symbols) : ∀ x ∈ symbols, x.Shows x.detail := fun x hx => by
  obtain ⟨l, names, text, -, -, -, -, hx⟩ := mem_loadHeaders h hx
  exact Language.shows_of_mem_symbols hx

theorem Write.shown {i j : Index} (h : Write i j) (hi : i.Shown) : j.Shown := by
  cases h with
  | reloadSelf l path text _ =>
    exact hi.update (u := .setSelf path _) fun _ => shows_of_mem_reload (hi .self path)
  | reloadHeader l path text _ =>
    exact hi.update (u := .setDynamic l.id _) fun _ => shows_of_mem_reload (hi .dynamic l.id)
  | close path => exact hi.update (u := .dropSelf path) nofun
  | loadWorkspace files root l h =>
    obtain ⟨symbols, hs, rfl⟩ := loadWorkspace_eq_ok h
    exact hi.update (u := .setDynamic l.id symbols) (shows_of_mem_loadHeaders hs)
  | loadExternal files workspace dir h =>
    obtain rfl | ⟨d, p, symbols, -, -, hs, rfl⟩ := loadExternal_eq_ok h
    · exact hi
    · refine hi.update (u := .setStatic _ _) fun x hx => ?_
      rcases List.mem_append.mp hx with hx | hx
      · exact hi .static _ x hx
      · exact shows_of_mem_loadHeaders hs x hx

/-- A bucket hands out the last symbol of a key that it was given. -/
theorem withKey?_get_ofHistory {history : List Update} {tier : Tier} {key : String} {x : Symbol}
    (h : Bucket.IsLastOfKey (lastGiven history tier key) x) :
    Bucket.withKey? ((ofHistory history).get tier key) x.key = some x := by
  rw [get_ofHistory, Bucket.withKey?_ofSymbols, Bucket.withKey?_reverse_eq_some_iff.mpr h]

end Index

namespace Service

theorem Reachable.shown {s : Service} (hs : s.Reachable) : s.index.Shown :=
  hs.of_write Index.shown_empty Index.Write.shown

/-- All symbols in the buckets of a document are offered in it. -/
theorem mem_completions {s : Service} {document path : String} {tier : Tier} {x : Symbol}
    (h : x ∈ s.index.get tier (tier.key (dataId document) path)) :
    x.completion (dataId document) ∈ s.completions document path := by
  refine List.mem_map_of_mem ?_
  simp only [Index.visible, Index.tiers, List.flatMap_cons, List.flatMap_nil, List.append_nil,
    List.mem_append]
  cases tier with
  | self => exact .inl h
  | static => exact .inr (.inl h)
  | dynamic => exact .inr (.inr h)

/-- The hover text of a name is that of the symbol which answers for it. -/
theorem hover_eq {s : Service} {document path name : String} {tier : Tier} {x : Symbol}
    (hbefore : ∀ t ∈ tier.before,
      ¬ Bucket.Declares (s.index.get t (t.key (dataId document) path)) name)
    (hlast : Bucket.IsLast (s.index.get tier (tier.key (dataId document) path)) name x) :
    s.hover document path name = some (x.hover (dataId document)) := by
  rw [hover, Index.query?, Index.locate?_eq_some_iff.mpr ⟨hbefore, hlast⟩]
  rfl

end Service

theorem Service.isTag_dataId (document : String) : IsTag (dataId document) := by
  rw [dataId]
  cases DataLanguage.serving document <;> decide

/-- The declarations of a file are listed one by one. -/
theorem CommandLine.Call.symbols_eq {c : Call} {language text : String} {l : Language}
    (hserving : Language.serving? language = some l) (hl : c.language = .ok language)
    (ht : c.readText c.file = .ok text) :
    let found := (extract language text c.file.name).symbols
    c.symbols = .ok
      { stdout := asLines (if c.has jsonOption then
            [Json.write ⟨true, false⟩ (.list (found.map symbolValue))] else found.map symbolLine)
        files := c.env.files } := by
  have hextractor : extractor? language = some l.extractor := by
    rw [extractor?, hserving]
    rfl
  intro found
  rw [symbols, hl, ok_bind]
  dsimp only
  rw [hextractor]
  dsimp only
  rw [ht, ok_bind]
  dsimp only [found]
  rw [extract_of_serving? hserving]

/-- The line that was chosen for a symbol when it was found is shown in all its views, whatever file it
is said to be from. A bucket of any tier that was last given the symbol hands it out again, as long as
it was not given a later one of the same name and file; so its line stands in the completions of each
document that sees the bucket, and in the hover text of its name where it is the one to answer. There the
first block is the line just if no line of it closes the fence of the block. The line stands in both
listings of its file as well. And nothing else is in the index of a service: whatever requests were made,
all views of each of its symbols show the symbol's line. -/
theorem views_agree {language text path : String} {s : Symbol}
    (hs : s ∈ (extract language text path).symbols) (source : String) :
    let x := s.withSource source
    x.Shows s.detail ∧
      (∀ history tier key, Bucket.IsLastOfKey (Index.lastGiven history tier key) x →
        Bucket.withKey? ((Index.ofHistory history).get tier key) x.key = some x ∧
          ∀ (v : Service) (document path' : String), v.index = Index.ofHistory history →
            tier.key (Service.dataId document) path' = key →
              (∃ entry ∈ v.completions document path', entry.label = s.name ∧ entry.detail = s.detail) ∧
                ((∀ t ∈ tier.before,
                    ¬ Bucket.Declares (v.index.get t (t.key (Service.dataId document) path')) s.name) →
                  Bucket.IsLast (v.index.get tier key) s.name x →
                  ∃ h, v.hover document path' s.name = some h ∧
                    BeginsWith h.contents (Service.dataId document) s.detail ∧
                    (firstBlock? h.contents = some (lines s.detail.toList) ↔ Uncut s.detail.toList))) ∧
      (∀ c : CommandLine.Call, c.language = .ok language → c.readText c.file = .ok text →
        c.file.name = path → ∃ earlier later : List Symbol, c.symbols = .ok
          { stdout := CommandLine.asLines (if c.has CommandLine.jsonOption then
                [Json.write ⟨true, false⟩ (.list (earlier.map symbolValue ++ Config.textMapping
                  [("name", .text s.name), ("kind", .text s.kind.name), ("line", .int (s.line + 1)),
                    ("detail", .text s.detail)] :: later.map symbolValue))]
              else earlier.map symbolLine ++
                (toString (s.line + 1) ++ ":" ++ s.kind.name ++ "\t" ++ s.name ++ "\t" ++ s.detail) ::
                  later.map symbolLine)
            files := c.env.files }) ∧
      ∀ v : Service, v.Reachable → ∀ tier key, ∀ y ∈ v.index.get tier key, y.Shows y.detail := by
  intro x
  have hx : x.Shows s.detail := shows_of_mem_extract hs source
  refine ⟨hx, fun history tier key hlast => ?_, fun c hl ht hname => ?_, fun v hv => hv.shown⟩
  · have hkey := Index.withKey?_get_ofHistory hlast
    refine ⟨hkey, fun v document path' hindex htier => ?_⟩
    subst htier
    have hmem : x ∈ v.index.get tier (tier.key (Service.dataId document) path') :=
      hindex ▸ List.mem_of_find?_eq_some hkey
    constructor
    · exact ⟨x.completion (Service.dataId document), Service.mem_completions hmem, rfl, hx.completion _⟩
    · intro hbefore hanswers
      have hhover := hx.hover (Service.dataId document)
      exact ⟨_, Service.hover_eq hbefore hanswers, hhover, hhover.whole (Service.isTag_dataId document)⟩
  · subst hname
    obtain ⟨l, hserving, -⟩ := serving?_of_mem_extract hs
    obtain ⟨earlier, later, hfound⟩ := List.append_of_mem hs
    have hline : symbolLine s = _ := hx.listed
    have hvalue : symbolValue s = _ := hx.listedValue
    refine ⟨earlier, later, (CommandLine.Call.symbols_eq hserving hl ht).trans ?_⟩
    rw [hfound, List.map_append, List.map_append, List.map_cons, List.map_cons, hline, hvalue]
    rfl

/-- The procedure of a header and, in another file, a constant. -/
def giveHistory : List Index.Update :=
  [.setDynamic "fallout-ssl" [giveSymbol.withSource "lib/a.h"],
    .setSelf "b.ssl" [{ name := "A", kind := .constant, detail := "1", source := "b.ssl", value := "1" }]]

/-- A service that knows them. -/
def giveService : Service where
  root := ⟨.root, ["w"]⟩
  index := Index.ofHistory giveHistory

theorem giveSymbol_shown :
    giveSymbol ∈ (extract "fallout-ssl" giveScript "a.ssl").symbols ∧
      (giveSymbol.withSource "lib/a.h").Shows "void give(ObjectPtr who, int pid)" ∧
      (∃ entry ∈ giveService.completions "fallout-ssl" "b.ssl",
        entry.label = "give" ∧ entry.detail = "void give(ObjectPtr who, int pid)") ∧
      ∃ h, giveService.hover "fallout-ssl" "b.ssl" "give" = some h ∧
        firstBlock? h.contents = some ["void give(ObjectPtr who, int pid)".toList] := by
  have hs : giveSymbol ∈ (extract "fallout-ssl" giveScript "a.ssl").symbols := by decide +kernel
  obtain ⟨hshows, hstored, -, -⟩ := views_agree hs "lib/a.h"
  have hlast : Bucket.IsLastOfKey (Index.lastGiven giveHistory .dynamic "fallout-ssl")
      (giveSymbol.withSource "lib/a.h") :=
    ⟨[], [], by decide +kernel, nofun⟩
  obtain ⟨-, hviews⟩ := hstored giveHistory .dynamic "fallout-ssl" hlast
  obtain ⟨hoffered, hhover⟩ := hviews giveService "fallout-ssl" "b.ssl" rfl (by decide +kernel)
  have hbefore : ∀ t ∈ Tier.before .dynamic,
      ¬ Bucket.Declares (giveService.index.get t (t.key (Service.dataId "fallout-ssl") "b.ssl")) "give" := by
    simp only [← Bucket.find?_eq_none_iff]
    decide +kernel
  have hanswers : Bucket.IsLast (giveService.index.get .dynamic "fallout-ssl") "give"
      (giveSymbol.withSource "lib/a.h") :=
    ⟨[], [], by decide +kernel, rfl, nofun⟩
  obtain ⟨h, hh, -, hblock⟩ := hhover hbefore hanswers
  exact ⟨hs, hshows, hoffered, h, hh, hblock.mpr (by decide +kernel)⟩

/-- A constant whose value is the fence of a block. -/
def fenceSymbol : Symbol :=
  { name := "FENCE", kind := .constant, detail := "```", source := "a.ssl", value := "```" }

/-- The first block of its hover text is empty, and not its line. -/
theorem fenceSymbol_cut :
    fenceSymbol ∈ (extract "fallout-ssl" "#define FENCE ```\n" "a.ssl").symbols ∧
      firstBlock? (fenceSymbol.hover "fallout-ssl").contents = some [] ∧
      lines fenceSymbol.detail.toList = ["```".toList] := by
  decide +kernel

end ScriptService
