import ScriptService.Proofs.Header.External
import ScriptService.Proofs.Service.Run
import ScriptService.Yaml.Format

/-!
# Headers outside the workspace

A header directory is refused if it lies in the workspace, but not if the workspace
lies in it, and headers are looked for at any depth. So what a load adds to the
static tier was read in the workspace just if the way from the directory leads there
(`loadExternal_reads_workspace_iff`), which needs a directory above the workspace. A
header that got into the static tier in this way hides its own later edits
(`enclosed_hides_edit`).
-/

namespace ScriptService

namespace Index

/-- What a load adds to the static tier was found below the header directory, which does not lie in the
workspace, and read there. -/
theorem mem_getStatic_loadExternal {files : Files} {i j : Index} {n : Nat} {workspace : String} {dir : Value}
    {language : String} (h : i.loadExternal files workspace dir language = .ok (n, j)) {m : String} {x : Symbol}
    (hx : x ∈ j.getStatic m) (hnew : x ∉ i.getStatic m) :
    ∃ d l names text, dir = .text d ∧ m = language ∧
      (Path.resolve files.cwd (Path.ofString d)).within
        (Path.resolve files.cwd (Path.ofString workspace)) = false ∧
      findFiles files (Path.ofString d) (Language.headerExtension l) = .ok names ∧ x.source ∈ names ∧
      sourceText files ((Path.ofString d).join (Path.ofString x.source)) = .ok (some text) ∧
      x ∈ (extract language text x.source).symbols := by
  obtain rfl | ⟨d, p, symbols, rfl, hcheck, hload, rfl⟩ := loadExternal_eq_ok h
  · exact absurd hx hnew
  · obtain ⟨rfl, hout⟩ := checkExternal_eq_ok hcheck
    rw [getStatic_setStatic] at hx
    split at hx
    · rename_i hm
      rw [hm] at hnew
      rcases List.mem_append.mp (Bucket.mem_of_mem_ofSymbols hx) with hx | hx
      · exact absurd hx hnew
      · obtain ⟨l, names, text, hl, hnames, hsource, htext, hx⟩ := mem_loadHeaders hload hx
        rw [← extract_of_serving? hl] at hx
        exact ⟨d, l, names, text, rfl, hm, hout, hnames, hsource, htext, hx⟩
    · exact absurd hx hnew

/-- What a load adds to the static tier was read in a file below the header directory. The file lies in
the workspace just if the way to it leads into the workspace, so none does unless the workspace lies
below the directory. -/
theorem loadExternal_reads_workspace_iff {files : Files} (hf : files.Sound) {i j : Index} {n : Nat}
    {workspace : String} {dir : Value} {language : String}
    (h : i.loadExternal files workspace dir language = .ok (n, j)) {m : String} {x : Symbol}
    (hx : x ∈ j.getStatic m) (hnew : x ∉ i.getStatic m) :
    ∃ d text, dir = .text d ∧ m = language ∧
      let file := (Path.ofString d).join (Path.ofString x.source)
      let headers := Path.resolve files.cwd (Path.ofString d)
      let root := Path.resolve files.cwd (Path.ofString workspace)
      sourceText files file = .ok (some text) ∧ x ∈ (extract language text x.source).symbols ∧
        ((Path.resolve files.cwd file).within root = true ↔
          Path.LeadsInto headers (Path.ofString x.source) root) ∧
        (root.within headers = false → (Path.resolve files.cwd file).within root = false) := by
  obtain ⟨d, l, names, text, hdir, hm, hout, hnames, hsource, htext, hx⟩ :=
    mem_getStatic_loadExternal h hx hnew
  have hfound : FoundBelow l.headerExtension (Path.ofString x.source) :=
    foundBelow_of_mem_findFiles hf hnames hsource
  have hleads := Path.within_resolve_join hfound.relative hfound.normal.dots files.cwd (Path.ofString d)
    (Path.resolve files.cwd (Path.ofString workspace))
  rw [hout, Bool.false_eq_true, false_or] at hleads
  refine ⟨d, text, hdir, hm, htext, hx, hleads, fun habove => ?_⟩
  rw [Bool.eq_false_iff]
  intro hin
  rw [(hleads.mp hin).within] at habove
  cases habove

end Index

namespace Service

/-- A workspace with a header, and a directory of headers beside it. -/
def besideWorkspace : Environment where
  files :=
    ⟨.directory [("ws", .directory [("a.h", .file (Text.encodeUtf8 "#define A 1\n".toList))]),
      ("ws2", .directory [("b.h", .file (Text.encodeUtf8 "#define B 2\n".toList))])], ⟨.root, []⟩, 900⟩
  home := ⟨.root, []⟩
  configFile := ""
  yaml := Yaml.format
  room := 900

theorem sound_besideWorkspace : besideWorkspace.files.Sound := by
  refine .directory (by decide) (List.forall_mem_cons.mpr ⟨?_, List.forall_mem_singleton.mpr ?_⟩)
  · exact .directory (by decide) (List.forall_mem_singleton.mpr (.file _))
  · exact .directory (by decide) (List.forall_mem_singleton.mpr (.file _))

/-- What the header beside the workspace declares. -/
def besideSymbol : Symbol :=
  { name := "B", kind := .constant, detail := "2", source := "b.h", value := "2" }

theorem beside_lies_outside :
    let file := (Path.ofString "/ws2").join (Path.ofString besideSymbol.source)
    (∃ text, sourceText besideWorkspace.files file = .ok (some text) ∧
        besideSymbol ∈ (extract "fallout-ssl" text besideSymbol.source).symbols) ∧
      (Path.resolve ⟨.root, []⟩ file).within ⟨.root, ["ws"]⟩ = false := by
  have hload : Index.loadExternal {} besideWorkspace.files "/ws" (.text "/ws2") "fallout-ssl" =
      .ok (1, { static := [("fallout-ssl", [besideSymbol])] }) := by
    decide +kernel
  have hmem : besideSymbol ∈ Index.getStatic { static := [("fallout-ssl", [besideSymbol])] } "fallout-ssl" := by
    decide +kernel
  obtain ⟨d, text, hd, -, hread, hdeclared, -, hout⟩ :=
    Index.loadExternal_reads_workspace_iff sound_besideWorkspace hload hmem List.not_mem_nil
  obtain rfl : "/ws2" = d := Value.text.inj hd
  exact ⟨⟨text, hread, hdeclared⟩, hout (by decide)⟩

/-- What the header in the workspace declares, seen from the directory above. -/
def enclosedSymbol : Symbol :=
  { name := "A", kind := .constant, detail := "1", source := "ws/a.h", value := "1" }

/-- The static tier with the headers of both directories. -/
def enclosingTier : Shelf :=
  [("fallout-ssl", [enclosedSymbol, { besideSymbol with source := "ws2/b.h" }])]

/-- What the header in the workspace declares once it is edited. -/
def editedSymbol : Symbol :=
  { name := "A", kind := .constant, detail := "3", source := "a.h", value := "3" }

/-- A service whose header directory is the one that the workspace lies in. -/
def enclosedService : Service :=
  { root := ⟨.root, ["ws"]⟩, config := { fallout := { headersDirectory := .text "/" } } }

theorem load_enclosing :
    Index.loadExternal {} besideWorkspace.files "/ws" (.text "/") "fallout-ssl" =
      .ok (2, { static := enclosingTier }) := by
  have hcheck : checkExternal besideWorkspace.files "/ws" "/" = .ok (Path.ofString "/") := by decide +kernel
  have hnames : findFiles besideWorkspace.files (Path.ofString "/") Language.falloutSsl.headerExtension =
      .ok ["ws/a.h", "ws2/b.h"] :=
    findFiles_of_sorted (by decide +kernel) (by decide +kernel)
  have hparts : ["ws/a.h", "ws2/b.h"].mapM
      (headerSymbols besideWorkspace.files (Path.ofString "/") Language.falloutSsl.extractor) =
        .ok [[enclosedSymbol], [{ besideSymbol with source := "ws2/b.h" }]] := by
    decide +kernel
  refine (Index.loadExternal_added {} (by decide) hcheck
    (loadHeaders_eq_ok (l := .falloutSsl) hnames hparts)).trans ?_
  decide +kernel

theorem run_enclosedService :
    (enclosedService.run
      [.loadAll besideWorkspace, .reloadFile "a.h" "fallout-ssl" "#define A 3\n"]).index =
      { static := enclosingTier, dynamic := [("fallout-ssl", [editedSymbol]), ("weidu-tp2", [])] } := by
  have hheaders : loadHeaders besideWorkspace.files enclosedService.root Language.falloutSsl.id =
      .ok [{ enclosedSymbol with source := "a.h" }] := by
    decide +kernel
  have hlibraries : loadHeaders besideWorkspace.files enclosedService.root Language.weiduTp2.id = .ok [] := by
    decide +kernel
  rw [run, List.foldl_cons, after, loadAll_eq_ok (s := enclosedService) load_enclosing hheaders hlibraries]
  decide +kernel

/-- A header of the workspace that was loaded from above it answers for its names even after an edit. -/
theorem enclosed_hides_edit :
    let file := (Path.ofString "/").join (Path.ofString enclosedSymbol.source)
    let edited := enclosedService.run
      [.loadAll besideWorkspace, .reloadFile "a.h" "fallout-ssl" "#define A 3\n"]
    Index.loadExternal {} besideWorkspace.files "/ws" (.text "/") "fallout-ssl" =
        .ok (2, { static := enclosingTier }) ∧
      enclosedSymbol ∈ Index.getStatic { static := enclosingTier } "fallout-ssl" ∧
      sourceText besideWorkspace.files file = .ok (some "#define A 1\n") ∧
      (Path.resolve ⟨.root, []⟩ file).within ⟨.root, ["ws"]⟩ = true ∧
      edited.index.getDynamic "fallout-ssl" = [editedSymbol] ∧
      edited.index.locate? "fallout-ssl" "x.ssl" "A" = some (.static, enclosedSymbol) := by
  dsimp only
  rw [run_enclosedService]
  exact ⟨load_enclosing, by decide +kernel, by decide +kernel, by decide, by decide +kernel, by decide +kernel⟩

end Service

end ScriptService
