import ScriptService.Proofs.Path.Uri
import ScriptService.Proofs.Service.Run
import ScriptService.Yaml.Format

/-!
# Where static symbols come from

Headers outside the workspace are loaded any number of times during a run, each
time from the directory that is set by then (`HeaderLoad`), and what is loaded is
never forgotten:

* `staticIs_after`, `staticIs_run`: the static tier is the bucket of all that the
  loads of a run found, in order;
* `exists_foundIn`: every symbol of it was read in the header that the last load
  with its name and source found it in (`FoundIn`);
* `static_definition_of_run`: the answer to where it is declared is worked out from
  the directory that is set at the time of the question, so it leads to that header
  just if this directory places it there.
-/

namespace ScriptService

/-- A load of headers outside the workspace: the files at that time, the workspace and the setting. -/
structure HeaderLoad where
  files : Files
  workspace : String
  directory : Value

/-- What is found below a directory was read in its own file there. -/
theorem read_of_mem_loadHeaders {files : Files} {dir : Path} {l : Language} {symbols : List Symbol}
    (h : loadHeaders files dir l.id = .ok symbols) {x : Symbol} (hx : x ∈ symbols) :
    ∃ text, sourceText files (dir.join (Path.ofString x.source)) = .ok (some text) ∧
      x ∈ (l.extractor text x.source).symbols := by
  obtain ⟨l', names, text, hl, -, -, htext, hx⟩ := mem_loadHeaders h hx
  rw [serving?_id] at hl
  obtain rfl := Option.some.inj hl
  exact ⟨text, htext, hx⟩

namespace HeaderLoad

/-- The symbols that a load finds; none if the directory cannot be used. -/
def symbols (h : HeaderLoad) : List Symbol :=
  match h.directory with
  | .text d =>
    if d.isEmpty then []
    else
      match checkExternal h.files h.workspace d with
      | .error _ => []
      | .ok p => (loadHeaders h.files p Language.falloutSsl.id).toOption.getD []
  | _ => []

/-- The index once the load was tried. -/
def index (h : HeaderLoad) (i : Index) : Index :=
  match i.loadExternal h.files h.workspace h.directory Language.falloutSsl.id with
  | .ok (_, j) => j
  | .error _ => i

/-- A load adds the symbols that it finds to the static tier. -/
theorem index_cases (h : HeaderLoad) (i : Index) :
    h.index i = i ∧ h.symbols = [] ∨
      h.index i =
        i.setStatic Language.falloutSsl.id (i.getStatic Language.falloutSsl.id ++ h.symbols) := by
  obtain ⟨files, workspace, directory⟩ := h
  unfold index Index.loadExternal
  by_cases hgiven : directory.isGiven = true
  · rw [hgiven, Bool.not_true, if_neg Bool.false_ne_true]
    cases directory with
    | text d =>
      have hd : d.isEmpty = false := by simpa only [Value.isGiven, Bool.not_eq_true'] using hgiven
      dsimp only [symbols]
      rw [hd, if_neg Bool.false_ne_true]
      cases hcheck : checkExternal files workspace d with
      | error e => cases e <;> exact .inl ⟨rfl, rfl⟩
      | ok p =>
        dsimp only
        cases loadHeaders files p Language.falloutSsl.id with
        | error e => exact .inl ⟨rfl, rfl⟩
        | ok symbols => exact .inr rfl
    | _ => exact .inl ⟨rfl, rfl⟩
  · rw [Bool.not_eq_true] at hgiven
    rw [hgiven, Bool.not_false, if_pos rfl]
    refine .inl ⟨rfl, ?_⟩
    cases directory with
    | text d =>
      have hd : d.isEmpty = true := by simpa only [Value.isGiven, Bool.not_eq_false'] using hgiven
      dsimp only [symbols]
      rw [hd, if_pos rfl]
    | _ => rfl

/-- What a load finds was read in its own file below the directory. -/
theorem read_of_mem_symbols {h : HeaderLoad} {x : Symbol} (hx : x ∈ h.symbols) :
    ∃ d text, h.directory = .text d ∧
      sourceText h.files ((Path.ofString d).join (Path.ofString x.source)) = .ok (some text) ∧
      x ∈ (extractFallout text x.source).symbols := by
  unfold symbols at hx
  split at hx
  · rename_i d hd
    split at hx
    · cases hx
    · split at hx
      · cases hx
      · rename_i p hp
        obtain ⟨rfl, -⟩ := checkExternal_eq_ok hp
        cases hload : loadHeaders h.files (Path.ofString d) Language.falloutSsl.id with
        | error e => rw [hload] at hx; cases hx
        | ok symbols =>
          rw [hload] at hx
          obtain ⟨text, htext, hx⟩ := read_of_mem_loadHeaders hload hx
          exact ⟨d, text, hd, htext, hx⟩
  · cases hx

end HeaderLoad

/-! ## The static tier after a run -/

/-- The static tier is the bucket of some symbols, and only one language has any. -/
def Index.StaticIs (i : Index) (xs : List Symbol) : Prop :=
  ∀ m, i.getStatic m = if m = Language.falloutSsl.id then Bucket.ofSymbols xs else []

theorem Index.staticIs_empty : Index.StaticIs {} [] := fun m => by
  split <;> rfl

theorem Index.StaticIs.congr {i j : Index} {xs : List Symbol} (hi : i.StaticIs xs)
    (h : j.static = i.static) : j.StaticIs xs := fun m => by
  rw [← hi m, getStatic, h, getStatic]

/-- A load adds its symbols behind those of earlier ones. -/
theorem HeaderLoad.staticIs (h : HeaderLoad) {i : Index} {xs : List Symbol} (hi : i.StaticIs xs) :
    (h.index i).StaticIs (xs ++ h.symbols) := by
  rcases h.index_cases i with ⟨hindex, hnone⟩ | hindex
  · rw [hindex, hnone, List.append_nil]
    exact hi
  · intro m
    rw [hindex, Index.getStatic_setStatic, hi, if_pos rfl]
    split
    · rw [Bucket.ofSymbols_append_eq_putAll, Bucket.ofSymbols_append_eq_putAll,
        Bucket.ofSymbols_of_distinct (Bucket.distinct_ofSymbols xs)]
    · rename_i hm
      rw [hi, if_neg hm]

namespace Service

/-- The load that an operation makes. -/
def load? (s : Service) : Operation → Option HeaderLoad
  | .loadAll env | .loadStatic env => some ⟨env.files, s.root.text, s.config.fallout.headersDirectory⟩
  | _ => none

/-- The loads of a run, in order. -/
def loads : Service → List Operation → List HeaderLoad
  | _, [] => []
  | s, op :: ops => (s.load? op).toList ++ (s.after op).loads ops

theorem static_reloadFile (s : Service) (path language text : String) :
    (s.reloadFile path language text).index.static = s.index.static := by
  rw [reloadFile]
  split
  · rfl
  · dsimp only
    split <;> rfl

theorem static_loadTiers (env : Environment) (ls : List Language) (s : Service) :
    (s.loadTiers env ls).index.static = s.index.static := by
  induction ls generalizing s with
  | nil => rfl
  | cons l ls ih =>
    rw [loadTiers]
    split
    · rename_i h
      obtain ⟨symbols, -, rfl⟩ := Index.loadWorkspace_eq_ok h
      exact ih _
    · rfl

theorem static_startSave (s : Service) (env : Environment) (uri language text : String) :
    (s.startSave env uri language text).service.index.static = s.index.static := by
  rcases s.startSave_index_cases env uri language text with h | ⟨path, h⟩
  · rw [h]
  · rw [h, static_reloadFile]

theorem index_loadStatic (s : Service) (env : Environment) :
    (s.orStay (s.loadStatic env)).index =
      HeaderLoad.index ⟨env.files, s.root.text, s.config.fallout.headersDirectory⟩ s.index := by
  rw [loadStatic, HeaderLoad.index]
  cases s.index.loadExternal env.files s.root.text s.config.fallout.headersDirectory
    Language.falloutSsl.id <;> rfl

/-- Loading all headers does to the static tier what loading those outside the workspace does. -/
theorem static_loadAll (s : Service) (env : Environment) :
    (s.after (.loadAll env)).index.static = (s.orStay (s.loadStatic env)).index.static := by
  rcases s.loadAll_index_cases env with ⟨t, ht, h⟩ | ⟨⟨e, he⟩, h⟩
  · rw [h, static_loadTiers, ht, orStay]
  · rw [h, he, orStay]

theorem static_after {s : Service} {op : Operation} (h : s.load? op = none) :
    (s.after op).index.static = s.index.static := by
  have hstay : ∀ x : Except Failure Service, (∀ t, x = .ok t → t.index.static = s.index.static) →
      (s.orStay x).index.static = s.index.static := fun x hx => by
    cases x with
    | ok t => exact hx t rfl
    | error e => rfl
  cases op with
  | loadAll env => cases h
  | loadStatic env => cases h
  | loadDynamic env => exact static_loadTiers env _ s
  | reloadConfig env => exact hstay _ fun t ht => by rw [reloadConfig_index ht]
  | reloadFile path language text => exact s.static_reloadFile path language text
  | onOpen uri language text =>
    refine hstay _ fun t ht => ?_
    rw [onOpen, bind_eq_ok] at ht
    obtain ⟨path, -, ht⟩ := ht
    obtain rfl := Except.ok.inj ht
    exact s.static_reloadFile path language text
  | onClose uri =>
    refine hstay _ fun t ht => ?_
    rw [onClose, bind_eq_ok] at ht
    obtain ⟨path, -, ht⟩ := ht
    obtain rfl := Except.ok.inj ht
    rfl
  | save env uri language text => exact s.static_startSave env uri language text
  | compile r =>
    rw [after, startCompile_index]

/-- An operation adds what it loads to the static tier. -/
theorem staticIs_after {s : Service} {xs : List Symbol} (hs : s.index.StaticIs xs) (op : Operation) :
    (s.after op).index.StaticIs (xs ++ (s.load? op).toList.flatMap HeaderLoad.symbols) := by
  have hload : ∀ env : Environment, (s.orStay (s.loadStatic env)).index.StaticIs
      (xs ++ HeaderLoad.symbols ⟨env.files, s.root.text, s.config.fallout.headersDirectory⟩) := fun env => by
    rw [index_loadStatic]
    exact HeaderLoad.staticIs _ hs
  cases h : s.load? op with
  | none =>
    rw [Option.toList_none, List.flatMap_nil, List.append_nil]
    exact hs.congr (static_after h)
  | some load =>
    rw [Option.toList_some, List.flatMap_singleton]
    cases op with
    | loadAll env =>
      obtain rfl := Option.some.inj h
      exact (hload env).congr (s.static_loadAll env)
    | loadStatic env =>
      obtain rfl := Option.some.inj h
      exact hload env
    | _ => cases h

/-- After a run the static tier is the bucket of all that was loaded. -/
theorem staticIs_run {s : Service} {xs : List Symbol} (hs : s.index.StaticIs xs) (ops : List Operation) :
    (s.run ops).index.StaticIs (xs ++ (s.loads ops).flatMap HeaderLoad.symbols) := by
  induction ops generalizing s xs with
  | nil =>
    rw [loads, List.flatMap_nil, List.append_nil]
    exact hs
  | cons op ops ih =>
    rw [loads, List.flatMap_append, ← List.append_assoc]
    exact ih (staticIs_after hs op)

end Service

/-! ## The header that declares a static symbol -/

/-- A load found a symbol in a file, and no later one found a symbol of its name and source. -/
structure FoundIn (loads : List HeaderLoad) (x : Symbol) (load : HeaderLoad) (file : Path) : Prop where
  mem : x ∈ load.symbols
  last : ∃ before after, loads = before ++ load :: after ∧
    ∀ later ∈ after, ∀ y ∈ later.symbols, y.key ≠ x.key
  below : ∃ d, load.directory = .text d ∧ file = (Path.ofString d).join (Path.ofString x.source)
  read : ∃ text, sourceText load.files file = .ok (some text) ∧ x ∈ (extractFallout text x.source).symbols

theorem exists_last_load {loads : List HeaderLoad} {x : Symbol}
    (h : x ∈ Bucket.ofSymbols (loads.flatMap HeaderLoad.symbols)) :
    ∃ before load after, loads = before ++ load :: after ∧ x ∈ load.symbols ∧
      ∀ later ∈ after, ∀ y ∈ later.symbols, y.key ≠ x.key := by
  induction loads using List.reverseRecOn with
  | nil => cases h
  | append_singleton loads load ih =>
    rw [List.flatMap_append, List.flatMap_singleton] at h
    rcases Bucket.mem_ofSymbols_append h with hx | ⟨hx, hnew⟩
    · exact ⟨loads, load, [], rfl, hx, nofun⟩
    · obtain ⟨before, found, after, rfl, hfound, hlater⟩ := ih hx
      refine ⟨before, found, after ++ [load], by rw [List.append_assoc, List.cons_append], hfound, ?_⟩
      intro later hmem
      rcases List.mem_append.mp hmem with hmem | hmem
      · exact hlater later hmem
      · obtain rfl := List.mem_singleton.mp hmem
        exact hnew

theorem exists_foundIn {loads : List HeaderLoad} {x : Symbol}
    (h : x ∈ Bucket.ofSymbols (loads.flatMap HeaderLoad.symbols)) :
    ∃ load file, FoundIn loads x load file := by
  obtain ⟨before, load, after, hloads, hx, hlater⟩ := exists_last_load h
  obtain ⟨d, text, hd, htext, hdeclared⟩ := HeaderLoad.read_of_mem_symbols hx
  exact ⟨load, _, hx, ⟨before, after, hloads, hlater⟩, ⟨d, hd, rfl⟩, ⟨text, htext, hdeclared⟩⟩

theorem nul_not_mem_of_sourceText {files : Files} {p : Path} {text : String}
    (h : sourceText files p = .ok (some text)) : '\x00' ∉ p.text.toList := by
  intro hnul
  have hlookup : files.lookup p.text = .error .nulInPath := by
    rw [Files.lookup, List.contains_eq_mem, decide_eq_true hnul, if_pos rfl]
  rw [sourceText, Files.read, Files.stat, hlookup, error_bind] at h
  cases h

namespace Service

/-- The header directory that is set, with a symbol's source below it, is a place for a working
directory. -/
def PlacesHeader (s : Service) (cwd : Path) (source : String) (place : Path) : Prop :=
  ∃ d, s.config.fallout.headersDirectory = .text d ∧
    '\x00' ∉ ((Path.ofString d).join (Path.ofString source)).text.toList ∧
    (Path.resolve cwd ((Path.ofString d).join (Path.ofString source))).text = place.text

theorem definition_static_iff {s : Service} {language path word : String} {x : Symbol}
    (h : s.index.locate? (dataId language) path word = some (.static, x)) (cwd place : Path) :
    s.definition cwd language path word = .ok (some ⟨Uri.ofText place.text, x.line⟩) ↔
      s.PlacesHeader cwd x.source place := by
  rw [definition, h]
  simp only [declaringFile, bind_eq_ok, asFailure_eq_ok, Uri.ofPath_eq_ok_iff]
  constructor
  · rintro ⟨file, ⟨dir, hdir, hfile⟩, uri, ⟨hnul, huri⟩, hanswer⟩
    obtain rfl := Except.ok.inj hfile
    have hsame : uri = Uri.ofText place.text :=
      congrArg Location.uri (Option.some.inj (Except.ok.inj hanswer))
    rw [hsame, Uri.ofText_inj] at huri
    cases hd : s.config.fallout.headersDirectory with
    | text d =>
      rw [hd] at hdir
      obtain rfl := Except.ok.inj hdir
      exact ⟨d, hd, hnul, huri⟩
    | _ =>
      rw [hd] at hdir
      cases hdir
  · rintro ⟨d, hd, hnul, hplace⟩
    refine ⟨_, ⟨Path.ofString d, ?_, rfl⟩, _, ⟨hnul, ?_⟩, rfl⟩
    · rw [hd]; rfl
    · rw [hplace]

theorem mem_getStatic_of_locate? {i : Index} {language path word : String} {x : Symbol}
    (h : i.locate? language path word = some (.static, x)) : x ∈ i.getStatic language := by
  rw [Index.locate?_eq] at h
  cases hself : (i.getSelf path).find? word with
  | some y => rw [hself] at h; cases h
  | none =>
    cases hstatic : (i.getStatic language).find? word with
    | some y =>
      rw [hself, hstatic] at h
      cases h
      exact List.mem_reverse.mp (List.mem_of_find?_eq_some hstatic)
    | none =>
      rw [hself, hstatic] at h
      cases hdynamic : (i.getDynamic language).find? word <;> rw [hdynamic] at h <;> cases h

/-- Where a word that the static tier answers for is declared after a run: the header is the one that
the last load that found it read, and the answer leads there just if the header directory that is set
by now places the header where it was. It does if the setting is that of the load. -/
theorem static_definition_of_run {env : Environment} {root : String} {config : Option Config} {s : Service}
    (hs : Service.start env root config = .ok s) (ops : List Operation) {language path word : String}
    {x : Symbol} (hx : (s.run ops).index.locate? (dataId language) path word = some (.static, x)) :
    ∃ load file uri, FoundIn (s.loads ops) x load file ∧ Uri.ofPath load.files.cwd file = .ok uri ∧
      (∀ cwd, (s.run ops).definition cwd language path word = .ok (some ⟨uri, x.line⟩) ↔
        (s.run ops).PlacesHeader cwd x.source (Path.resolve load.files.cwd file)) ∧
      ((s.run ops).config.fallout.headersDirectory = load.directory →
        (s.run ops).definition load.files.cwd language path word = .ok (some ⟨uri, x.line⟩)) := by
  have hempty : s.index.StaticIs [] := start_index hs ▸ Index.staticIs_empty
  have hstatic : (s.run ops).index.StaticIs ((s.loads ops).flatMap HeaderLoad.symbols) :=
    staticIs_run hempty ops
  have hmem := mem_getStatic_of_locate? hx
  rw [hstatic] at hmem
  split at hmem
  · obtain ⟨load, file, hfound⟩ := exists_foundIn hmem
    obtain ⟨d, hd, hfile⟩ := hfound.below
    obtain ⟨text, htext, -⟩ := hfound.read
    have hnul := nul_not_mem_of_sourceText htext
    refine ⟨load, file, Uri.ofText (Path.resolve load.files.cwd file).text, hfound,
      Uri.ofPath_eq_ok_iff.mpr ⟨hnul, rfl⟩, fun cwd => definition_static_iff hx cwd _, fun hsame => ?_⟩
    rw [definition_static_iff hx]
    exact ⟨d, hsame.trans hd, hfile ▸ hnul, by rw [hfile]⟩
  · cases hmem

/-- Files with a header outside the workspace. -/
def outsideHeader : Environment where
  files :=
    ⟨.directory [("ext", .directory [("a.h", .file (Text.encodeUtf8 "#define A 1\n".toList))]),
      ("ws", .directory [])], ⟨.root, []⟩, 900⟩
  home := ⟨.root, []⟩
  configFile := ""
  yaml := Yaml.format
  room := 900

/-- A service whose header directory is set. -/
def outsideService : Service :=
  { root := ⟨.root, ["ws"]⟩, config := { fallout := { headersDirectory := .text "/ext" } } }

theorem start_outsideService :
    Service.start outsideHeader "/ws" (some outsideService.config) = .ok outsideService := by
  have hroot : Path.resolve outsideHeader.files.cwd (Path.ofString "/ws") = outsideService.root := by
    decide +kernel
  rw [start_with (by decide), hroot]
  rfl

/-- What the header declares. -/
def outsideSymbol : Symbol :=
  { name := "A", kind := .constant, detail := "1", source := "a.h", value := "1" }

theorem load_outsideHeader :
    outsideService.run [.loadStatic outsideHeader] =
      { outsideService with index := { static := [("fallout-ssl", [outsideSymbol])] } } := by
  have hload : Index.loadExternal {} outsideHeader.files outsideService.root.text (.text "/ext")
      Language.falloutSsl.id = .ok (1, { static := [("fallout-ssl", [outsideSymbol])] }) := by
    decide +kernel
  change outsideService.orStay (outsideService.loadStatic outsideHeader) = _
  rw [loadStatic]
  change outsideService.orStay (Index.loadExternal {} _ _ (.text "/ext") _ >>= _) = _
  rw [hload]
  rfl

theorem firstFile_eq_none {files : Files} {ps : List Path} (h : ∀ p ∈ ps, files.isFile p = .ok false) :
    Config.firstFile files ps = .ok none := by
  induction ps with
  | nil => rfl
  | cons p ps ih =>
    rw [Config.firstFile, h p List.mem_cons_self, ok_bind, if_neg Bool.false_ne_true]
    exact ih fun q hq => h q (List.mem_cons_of_mem p hq)

/-- Where there is no configuration file, the configuration is the default one. -/
theorem loadWorkspace_default {env : Environment} {root : Path}
    (h : ∀ p ∈ Config.candidates env none [root.join (Path.ofString Config.fileName)],
      env.files.isFile p = .ok false) : Config.loadWorkspace env root = .ok {} := by
  rw [Config.loadWorkspace, Config.load, firstFile_eq_none h]
  rfl

theorem loadWorkspace_outsideHeader :
    Config.loadWorkspace outsideHeader outsideService.root = .ok {} := by
  refine loadWorkspace_default ?_
  simp only [Files.isFile, Files.probe, Files.stat, Files.lookup, List.contains_eq_mem]
  decide +kernel

theorem reload_outsideHeader :
    outsideService.run [.loadStatic outsideHeader, .reloadConfig outsideHeader] =
      { root := outsideService.root, index := { static := [("fallout-ssl", [outsideSymbol])] } } := by
  have hrun : outsideService.run [.loadStatic outsideHeader, .reloadConfig outsideHeader] =
      (outsideService.run [.loadStatic outsideHeader]).after (.reloadConfig outsideHeader) := rfl
  have hreload := loadWorkspace_outsideHeader
  rw [hrun, load_outsideHeader, after, Service.reloadConfig, hreload]
  rfl

theorem uri_outsideHeader :
    Uri.ofPath ⟨.root, []⟩ (Path.ofString "/ext/a.h") = .ok "file:///ext/a.h" := by
  rw [Uri.ofPath_eq, if_neg (by decide)]
  decide +kernel

theorem outsideHeader_found :
    (outsideService.run [.loadStatic outsideHeader]).definition ⟨.root, []⟩ "fallout-ssl" "x.ssl" "A" =
      .ok (some ⟨"file:///ext/a.h", 0⟩) := by
  have hx : (outsideService.run [.loadStatic outsideHeader]).index.locate? (dataId "fallout-ssl")
      "x.ssl" "A" = some (.static, outsideSymbol) := by
    rw [load_outsideHeader]
    decide +kernel
  obtain ⟨load, file, uri, hfound, huri, -, hsame⟩ := static_definition_of_run start_outsideService _ hx
  obtain ⟨before, after, hloads, -⟩ := hfound.last
  have hmem : load ∈ outsideService.loads [.loadStatic outsideHeader] :=
    hloads ▸ List.mem_append_right before List.mem_cons_self
  obtain rfl := List.mem_singleton.mp hmem
  obtain ⟨d, hd, rfl⟩ := hfound.below
  obtain rfl : "/ext" = d := Value.text.inj hd
  have hsetting : (outsideService.run [.loadStatic outsideHeader]).config.fallout.headersDirectory =
      .text "/ext" := by rw [load_outsideHeader]; rfl
  obtain rfl := Except.ok.inj (uri_outsideHeader.symm.trans huri)
  exact hsame hsetting

/-- Once the header directory is no longer set, the answer leads to the working directory. -/
theorem outsideHeader_lost :
    let ops := [.loadStatic outsideHeader, .reloadConfig outsideHeader]
    (outsideService.run ops).index.locate? (dataId "fallout-ssl") "x.ssl" "A" =
        some (.static, outsideSymbol) ∧
      FoundIn (outsideService.loads ops) outsideSymbol ⟨outsideHeader.files, "/ws", .text "/ext"⟩
        (Path.ofString "/ext/a.h") ∧
      Uri.ofPath ⟨.root, []⟩ (Path.ofString "/ext/a.h") = .ok "file:///ext/a.h" ∧
      (outsideService.run ops).definition ⟨.root, []⟩ "fallout-ssl" "x.ssl" "A" =
        .ok (some ⟨"file:///a.h", 0⟩) := by
  have hx : (outsideService.run [.loadStatic outsideHeader, .reloadConfig outsideHeader]).index.locate?
      (dataId "fallout-ssl") "x.ssl" "A" = some (.static, outsideSymbol) := by
    rw [reload_outsideHeader]
    decide +kernel
  have hread : sourceText outsideHeader.files (Path.ofString "/ext/a.h") = .ok (some "#define A 1\n") := by
    decide +kernel
  have hsymbols : HeaderLoad.symbols ⟨outsideHeader.files, "/ws", .text "/ext"⟩ = [outsideSymbol] := by
    decide +kernel
  have hmem : outsideSymbol ∈ HeaderLoad.symbols ⟨outsideHeader.files, "/ws", .text "/ext"⟩ := by
    rw [hsymbols]
    exact List.mem_cons_self
  refine ⟨hx, ⟨hmem, ⟨[], [], rfl, List.forall_mem_nil _⟩, ⟨"/ext", rfl, by decide⟩, _, hread,
      by decide +kernel⟩,
    uri_outsideHeader, ?_⟩
  have huri : Uri.ofText (Path.ofString "/a.h").text = "file:///a.h" := by decide +kernel
  rw [← huri]
  refine (definition_static_iff hx _ _).mpr ⟨"", ?_, by decide, by decide⟩
  rw [reload_outsideHeader]

end Service

end ScriptService
