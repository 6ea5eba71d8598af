import ScriptService.CommandLine.Commands
import ScriptService.Proofs.Service.DocumentKey
import ScriptService.Proofs.Service.Startup
import ScriptService.Proofs.Service.StaticOrigin
import ScriptService.Proofs.Text.Lines
import ScriptService.Proofs.Text.Utf8

/-!
# Opening a header from the command line

A header of the workspace is read twice: once with all others, when bytes that are no
UTF-8 stand for one character each (`loadedText`), and once when it is opened, when
they are replaced (`openedText`). Both read the same bytes (`Files.read_resolve`) and
attribute what they find to the same path (`Service.relativePath_below`,
`headerText?_below`). The texts are the same just if the bytes are well-formed
(`openedText_eq_iff`).

Main statement: `openWorkspace_header`. Opening a header leaves the symbols of all
others, and its own just if both texts declare the same.
-/

namespace ScriptService

open Text

/-! ## Two texts of one file -/

/-- The text of a header's bytes when it is opened from the command line. -/
def openedText (bytes : List UInt8) : String :=
  String.ofList (unifyNewlines (decodeUtf8Lossy bytes))

theorem openedText_eq_iff (bytes : List UInt8) :
    openedText bytes = loadedText bytes ↔ (decodeUtf8? bytes).isSome := by
  rw [openedText, loadedText, String.ofList_inj]
  cases h : decodeUtf8? bytes with
  | some s =>
    rw [decodeUtf8Lossy_of_eq_some h]
    exact iff_of_true rfl rfl
  | none =>
    refine iff_of_false (fun htexts => replacement_not_mem_decodeLatin1 bytes ?_) (by decide)
    rw [← mem_unifyNewlines (by decide) (by decide), ← Option.getD_none (a := decodeLatin1 bytes), ← htexts,
      mem_unifyNewlines (by decide) (by decide)]
    exact replacement_mem_decodeUtf8Lossy h

/-! ## The key of a file -/

namespace Uri

theorem scheme?_slash (s : List Char) : scheme? ('/' :: s) = none := by
  rw [scheme?]
  refine if_neg fun h => ?_
  rw [List.takeWhile_cons_of_pos (by decide), Bool.and_eq_true, Bool.and_eq_true] at h
  cases h.1.2

theorem clean_slash (s : List Char) : ∃ t, clean ('/' :: s) = '/' :: t := by
  rw [clean, List.dropWhile_cons_of_neg (by decide), List.filter_cons_of_pos (by decide)]
  exact ⟨_, rfl⟩

/-- A text that starts with a slash has no scheme, so it is the path that it names. -/
theorem toPath_slash {s : String} {t : List Char} (hs : s.toList = '/' :: t) {p : Path}
    (hp : toPath s = .ok p) : p = Path.ofString s := by
  obtain ⟨u, hu⟩ := clean_slash t
  rw [toPath, bind_eq_ok] at hp
  obtain ⟨⟨scheme, path⟩, hparts, hp⟩ := hp
  have hscheme : scheme = [] := by
    rw [parts, hs, hu, scheme?_slash, Option.getD_none] at hparts
    dsimp only at hparts
    split at hparts
    · rw [bind_eq_ok] at hparts
      obtain ⟨_, -, hparts⟩ := hparts
      exact (Prod.mk.inj (Except.ok.inj hparts)).1.symm
    · exact (Prod.mk.inj (Except.ok.inj hparts)).1.symm
  rw [hscheme] at hp
  exact (Except.ok.inj hp).symm

end Uri

/-- The key of a file below the workspace is the way to it. -/
theorem Service.relativePath_below {s : Service} {p : Path} (hp : p.Normal) (ha : p.anchor = .root)
    {names : List String} (hne : names ≠ []) (hparts : p.parts = s.root.parts ++ names) {q : Path}
    (hq : Uri.toPath p.text = .ok q) : s.relativePath p.text = .ok (relativeText names) := by
  have hself : q = p := by rw [Uri.toPath_slash (Uri.text_root ha) hq, Path.ofString_text hp.named]
  have hnormal : Path.Normal ⟨.relative, names⟩ :=
    hp.of_subset (by rw [hparts]; exact List.subset_append_right ..)
  rw [relativePath, hq, hself, asFailure, ok_bind, if_pos (Path.isAbsolute_of_root ha),
    Path.resolve_of_normal hp ha, (Path.relativeTo_eq_iff rfl hnormal).mpr hparts, ← relativeText_eq hne]

/-! ## The headers of a workspace -/

theorem Path.name_resolve {cwd p : Path} (hne : p.parts ≠ []) (hdots : p.name ≠ "..") :
    (resolve cwd p).name = p.name := by
  rcases List.eq_nil_or_concat p.parts with h | ⟨names, last, h⟩
  · exact absurd h hne
  · rw [List.concat_eq_append] at h
    have hname : p.name = last := by rw [name, h, List.getLast?_concat, Option.getD_some]
    obtain ⟨before, hjoin⟩ : ∃ before, (cwd.join p).parts = before ++ [last] := by
      rw [join]
      split
      · exact ⟨names, h⟩
      · exact ⟨cwd.parts ++ names, by rw [h, List.append_assoc]⟩
    have hlast : ".." ∉ [last] := fun hm => hdots (hname.trans (List.mem_singleton.mp hm).symm)
    rw [hname, name, resolve, hjoin, collapseFrom_append hlast, List.getLast?_concat, Option.getD_some]

namespace Language

theorem isHeader_congr {p q : Path} (h : p.name = q.name) (l : Language) : l.isHeader p = l.isHeader q := by
  rw [isHeader, isHeader, Path.lowerSuffix, Path.lowerSuffix, Path.suffix, Path.suffix, h]

variable {l : Language} {p : Path} (h : l.isHeader p = true)
include h

theorem guessLanguage?_of_isHeader : guessLanguage? p = some l.id := by
  unfold guessLanguage?
  rw [of_decide_eq_true h]
  cases l <;> rfl

theorem parts_ne_nil_of_isHeader : p.parts ≠ [] := by
  intro e
  rw [isHeader_congr (q := ⟨.relative, []⟩) (by rw [Path.name, e]; rfl)] at h
  cases l <;> revert h <;> decide +kernel

theorem name_ne_of_isHeader : p.name ≠ ".." := by
  intro e
  rw [isHeader_congr (q := ⟨.relative, [".."]⟩) (by rw [e]; rfl)] at h
  cases l <;> revert h <;> decide +kernel

end Language

/-- The symbols that the bucket of a language holds for a source. -/
def Service.entries (s : Service) (l : Language) (source : String) : List Symbol :=
  (s.index.getDynamic l.id).filter (·.source = source)

namespace CommandLine.Call

theorem lift_eq_ok {α : Type} {x : Except Failure α} {a : α} : lift x = .ok a ↔ x = .ok a := by
  cases x with
  | ok b => rw [lift, Except.ok.injEq, Except.ok.injEq]
  | error e => exact ⟨nofun, nofun⟩

/-- The service of the workspace with its headers loaded and no file open. -/
def initialized (c : Call) : Except Stop Service := do
  let config ← c.config
  let s ← lift (Service.start c.env c.workspace.text (some config))
  lift (s.loadAll c.env)

theorem openWorkspace_eq (c : Call) (language : String) :
    c.openWorkspace language = (do
      let s ← c.initialized
      let key ← lift (s.relativePath (Path.resolve c.env.files.cwd c.file).text)
      let text ← c.readText c.file
      .ok (s.reloadFile key language text, key)) := by
  simp only [openWorkspace, initialized, bind_assoc]

/-- Without a configuration file, the service starts with the default configuration. -/
theorem initialized_eq_ok {c : Call} {root : Path} {t : Service}
    (hnone : ∀ p ∈ Config.candidates c.env none [c.workspace.join (Path.ofString Config.fileName)],
      c.env.files.isFile p = .ok false)
    (hnul : '\x00' ∉ c.workspace.text.toList)
    (hroot : Path.resolve c.env.files.cwd (Path.ofString c.workspace.text) = root)
    (hload : Service.loadAll { root } c.env = .ok t) : c.initialized = .ok t := by
  have hconfig : c.config = .ok {} := by rw [config, Service.loadWorkspace_default hnone]
  simp only [initialized, bind_eq_ok, lift_eq_ok]
  exact ⟨_, hconfig, _, hroot ▸ Service.start_with hnul {}, hload⟩

/-- With the default configuration, the headers of both languages in the workspace are all that is loaded. -/
theorem loadAll_of_headers {env : Environment} {root : Path} {xs ys : List Symbol}
    (hfallout : loadHeaders env.files root Language.falloutSsl.id = .ok xs)
    (hweidu : loadHeaders env.files root Language.weiduTp2.id = .ok ys) :
    Service.loadAll { root } env = .ok
      { root
        index := (Index.setDynamic {} Language.falloutSsl.id xs).setDynamic Language.weiduTp2.id ys
        isInitialized := true } :=
  Service.loadAll_eq_ok (Index.loadExternal_of_not_isGiven {} rfl _) hfallout hweidu

/-- In the service of a workspace, the headers of each language are found and arranged. -/
theorem arranged_initialized {c : Call} {s : Service} (h : c.initialized = .ok s) (l : Language) :
    s.root.anchor = .root ∧ (∃ found, findFiles c.env.files s.root l.headerExtension = .ok found) ∧
      ∃ order, Arranged l (headerText? c.env.files s.root l) order (s.index.getDynamic l.id) := by
  simp only [initialized, bind_eq_ok, lift_eq_ok] at h
  obtain ⟨config, -, s', hstart, hload⟩ := h
  obtain ⟨hroot, hfound, order, -, harranged⟩ := Service.arranged_loadAll hload l
  rw [hroot]
  exact ⟨by rw [Service.root_start hstart]; rfl, hfound, order, harranged⟩

/-- The file of a call is a header in the workspace of a service, at the end of a way of names from its
root. -/
structure OpensHeader (c : Call) (s : Service) (l : Language) (names : List String) (bytes : List UInt8) :
    Prop where
  cwd : c.env.files.cwd.Named
  isHeader : l.isHeader c.file = true
  below : (Path.resolve c.env.files.cwd c.file).parts = s.root.parts ++ names
  ne_nil : names ≠ []
  read : c.env.files.read c.file = .ok bytes
  /-- The absolute path, by which headers are loaded, is not too long to be read. -/
  readResolved : ∃ bytes', c.env.files.read (Path.resolve c.env.files.cwd c.file) = .ok bytes'
  /-- The absolute path is not taken for a URI with a faulty host. -/
  isPath : ∃ p, Uri.toPath (Path.resolve c.env.files.cwd c.file).text = .ok p

namespace OpensHeader

variable {c : Call} {s : Service} {l : Language} {names : List String} {bytes : List UInt8}

theorem normal (h : c.OpensHeader s l names bytes) : (Path.resolve c.env.files.cwd c.file).Normal :=
  Path.Named.normal_resolve h.cwd (Path.named_ofString _)

theorem normal_names (h : c.OpensHeader s l names bytes) : Path.Normal ⟨.relative, names⟩ :=
  h.normal.of_subset (by rw [h.below]; exact List.subset_append_right ..)

/-- The way to the file ends in the name that was given. -/
theorem isHeader_names (h : c.OpensHeader s l names bytes) : l.isHeader ⟨.relative, names⟩ = true := by
  have hname : (Path.mk .relative names).name = (Path.resolve c.env.files.cwd c.file).name := by
    obtain ⟨before, last, hnames⟩ := (List.eq_nil_or_concat names).resolve_left h.ne_nil
    rw [Path.name, Path.name, h.below, hnames, List.concat_eq_append, ← List.append_assoc,
      List.getLast?_concat, List.getLast?_concat]
  rw [Language.isHeader_congr hname, Language.isHeader_congr (Path.name_resolve
    (Language.parts_ne_nil_of_isHeader h.isHeader) (Language.name_ne_of_isHeader h.isHeader))]
  exact h.isHeader

/-- The file is opened under the key that it has among the headers. -/
theorem openWorkspace_eq_ok (h : c.OpensHeader s l names bytes) (hs : c.initialized = .ok s) :
    c.openWorkspace l.id =
      .ok (s.reloadFile (relativeText names) l.id (openedText bytes), relativeText names) := by
  obtain ⟨q, hq⟩ := h.isPath
  rw [openWorkspace_eq, hs, ok_bind, Service.relativePath_below h.normal rfl h.ne_nil h.below hq, lift,
    ok_bind, readText, h.read]
  rfl

/-- The file was loaded with the other headers, with the same bytes. -/
theorem headerText?_eq (h : c.OpensHeader s l names bytes) (hroot : s.root.anchor = .root)
    {found : List String} (hfound : findFiles c.env.files s.root l.headerExtension = .ok found) :
    headerText? c.env.files s.root l (relativeText names) = some (loadedText bytes) := by
  obtain ⟨bytes', hresolved⟩ := h.readResolved
  obtain rfl := Files.read_resolve h.cwd (Path.named_ofString _) h.read hresolved
  have hheader := h.isHeader_names
  have hbelow := h.below
  obtain ⟨name, rest, rfl⟩ := List.exists_cons_of_ne_nil h.ne_nil
  exact headerText?_below h.cwd h.normal rfl hroot hbelow hheader hresolved hfound

end OpensHeader

/-- Opening a header from the command line leaves the symbols of all other sources, and those of the
header just if its two texts declare the same. They do if its bytes are well-formed; then only the
order of the headers changes. -/
theorem openWorkspace_header {c : Call} {s₀ : Service} (h₀ : c.initialized = .ok s₀) {l : Language}
    {names : List String} {bytes : List UInt8} (h : c.OpensHeader s₀ l names bytes) :
    guessLanguage? c.file = some l.id ∧
      ∃ s, c.openWorkspace l.id = .ok (s, relativeText names) ∧
        (∀ r, r ≠ relativeText names → s.entries l r = s₀.entries l r) ∧
        ((∀ r, s.entries l r = s₀.entries l r) ↔
          Bucket.ofSymbols (l.extractor (openedText bytes) (relativeText names)).symbols =
            Bucket.ofSymbols (l.extractor (loadedText bytes) (relativeText names)).symbols) ∧
        ((decodeUtf8? bytes).isSome →
          (∀ r, s.entries l r = s₀.entries l r) ∧
            (s.index.getDynamic l.id).Perm (s₀.index.getDynamic l.id)) := by
  refine ⟨Language.guessLanguage?_of_isHeader h.isHeader, _, h.openWorkspace_eq_ok h₀, ?_⟩
  obtain ⟨hroot, ⟨found, hfound⟩, order, harranged⟩ := arranged_initialized h₀ l
  have hheader : l.isHeader (Path.ofString (relativeText names)) = true := by
    rw [ofString_relativeText h.ne_nil h.normal_names.named]
    exact h.isHeader_names
  have hloaded := h.headerText?_eq hroot hfound
  generalize relativeText names = key at hheader hloaded ⊢
  generalize headerText? c.env.files s₀.root l = texts at harranged hloaded
  have hbucket := getDynamic_reloadFile_header s₀ (serving?_id l) hheader (openedText bytes)
  have hreload := harranged.reload key (openedText bytes)
  rw [← hbucket] at hreload
  generalize s₀.reloadFile key l.id (openedText bytes) = s at hreload ⊢
  have hentries : ∀ r, s.entries l r = blockAt l (Function.update texts key (some (openedText bytes))) r :=
    hreload.filter_source
  have hentries₀ : ∀ r, s₀.entries l r = blockAt l texts r := harranged.filter_source
  have hother : ∀ r, r ≠ key → s.entries l r = s₀.entries l r := fun r hr => by
    rw [hentries, hentries₀, blockAt_update_of_ne l texts hr]
  have hown : s.entries l key = Bucket.ofSymbols (l.extractor (openedText bytes) key).symbols := by
    rw [hentries, blockAt, declaredAt, Function.update_self]
    rfl
  have hown₀ : s₀.entries l key = Bucket.ofSymbols (l.extractor (loadedText bytes) key).symbols := by
    rw [hentries₀, blockAt, declaredAt, hloaded]
    rfl
  refine ⟨hother, ⟨fun hall => ?_, fun hsymbols r => ?_⟩, fun hbytes => ?_⟩
  · rw [← hown, ← hown₀, hall key]
  · by_cases hr : r = key
    · rw [hr, hown, hown₀, hsymbols]
    · exact hother r hr
  · have hsame : Function.update texts key (some (openedText bytes)) = texts := by
      rw [(openedText_eq_iff bytes).mpr hbytes, ← hloaded, Function.update_eq_self]
    rw [hsame] at hreload
    exact ⟨fun r => (hreload.filter_source r).trans (hentries₀ r).symm, hreload.perm harranged⟩

/-- A call on a file, in the workspace `ws` with some headers. -/
def onFile (file : String) (entries : List (String × Node)) : Call where
  env :=
    { files := ⟨.directory [("ws", .directory entries)], ⟨.root, []⟩, 900⟩
      home := ⟨.root, []⟩
      configFile := ""
      yaml := Yaml.format
      room := 900 }
  values := [(fileArgument, file), (workspaceOption, "ws")]

/-- The bytes of a header with a letter outside ASCII. -/
def accentedHeader : List UInt8 := encodeUtf8 "#define A \"é\"\n".toList

/-- A call on the first of two headers. -/
def accentedCall : Call :=
  onFile "ws/../ws/a.h" [("a.h", .file accentedHeader), ("b.h", .file (encodeUtf8 "#define B 2\n".toList))]

/-- The service of the workspace with both headers loaded. -/
def accentedService : Service where
  root := ⟨.root, ["ws"]⟩
  index :=
    { dynamic :=
        [("fallout-ssl",
            [{ name := "A", kind := .constant, detail := "\"é\"", source := "a.h", value := "\"é\"" },
              { name := "B", kind := .constant, detail := "2", source := "b.h", value := "2" }]),
          ("weidu-tp2", [])] }
  isInitialized := true

theorem initialized_accentedCall : accentedCall.initialized = .ok accentedService := by
  have hnames : findFiles accentedCall.env.files ⟨.root, ["ws"]⟩ Language.falloutSsl.headerExtension =
      .ok ["a.h", "b.h"] :=
    findFiles_of_sorted (by decide +kernel) (by decide +kernel)
  -- each of the headers declares one name
  have hparts : ["a.h", "b.h"].mapM
      (headerSymbols accentedCall.env.files ⟨.root, ["ws"]⟩ Language.falloutSsl.extractor) =
        .ok ((accentedService.index.getDynamic "fallout-ssl").map ([·])) := by
    decide +kernel
  have hlibraries : loadHeaders accentedCall.env.files ⟨.root, ["ws"]⟩ Language.weiduTp2.id = .ok [] := by
    decide +kernel
  have hload := loadAll_of_headers (loadHeaders_eq_ok hnames hparts) hlibraries
  exact initialized_eq_ok (by decide +kernel) (by decide +kernel) (by decide +kernel) hload

theorem opens_accentedCall : accentedCall.OpensHeader accentedService .falloutSsl ["a.h"] accentedHeader where
  cwd := nofun
  isHeader := by decide +kernel
  below := by decide +kernel
  ne_nil := by decide
  read := by decide +kernel
  readResolved := ⟨accentedHeader, by decide +kernel⟩
  isPath := ⟨⟨.root, ["ws", "a.h"]⟩, by decide +kernel⟩

theorem accentedCall_keeps_entries :
    accentedCall.initialized = .ok accentedService ∧
      accentedCall.OpensHeader accentedService .falloutSsl ["a.h"] accentedHeader ∧
      ∃ s, accentedCall.openWorkspace "fallout-ssl" = .ok (s, "a.h") ∧
        (∀ r, s.entries .falloutSsl r = accentedService.entries .falloutSsl r) ∧
        (s.index.getDynamic "fallout-ssl").Perm (accentedService.index.getDynamic "fallout-ssl") := by
  obtain ⟨-, s, hopen, -, -, hsame⟩ := openWorkspace_header initialized_accentedCall opens_accentedCall
  exact ⟨initialized_accentedCall, opens_accentedCall, s, hopen, hsame (by decide +kernel)⟩

/-- The bytes of a header in an old encoding, in which one byte is a letter. -/
def legacyHeader : List UInt8 := encodeUtf8 "#define A \"".toList ++ 0xE9 :: encodeUtf8 "\"\n".toList

/-- A call on that header. -/
def legacyCall : Call := onFile "ws/a.h" [("a.h", .file legacyHeader)]

/-- The service of the workspace with the header loaded. -/
def legacyService : Service where
  root := ⟨.root, ["ws"]⟩
  index :=
    { dynamic :=
        [("fallout-ssl",
            [{ name := "A", kind := .constant, detail := "\"é\"", source := "a.h", value := "\"é\"" }]),
          ("weidu-tp2", [])] }
  isInitialized := true

theorem initialized_legacyCall : legacyCall.initialized = .ok legacyService := by
  have hheaders : loadHeaders legacyCall.env.files ⟨.root, ["ws"]⟩ Language.falloutSsl.id =
      .ok (legacyService.index.getDynamic "fallout-ssl") := by
    decide +kernel
  have hlibraries : loadHeaders legacyCall.env.files ⟨.root, ["ws"]⟩ Language.weiduTp2.id = .ok [] := by
    decide +kernel
  have hload := loadAll_of_headers hheaders hlibraries
  exact initialized_eq_ok (by decide +kernel) (by decide +kernel) (by decide +kernel) hload

/-- Once the header is opened, the mark for ill-formed bytes stands in the place of the letter. -/
theorem legacyCall_changes_entries :
    ∃ s, legacyCall.initialized = .ok legacyService ∧ guessLanguage? legacyCall.file = some "fallout-ssl" ∧
      legacyCall.openWorkspace "fallout-ssl" = .ok (s, "a.h") ∧
      (legacyService.entries .falloutSsl "a.h").map Symbol.value = ["\"é\""] ∧
      (s.entries .falloutSsl "a.h").map Symbol.value = ["\"\uFFFD\""] := by
  have hopens : legacyCall.OpensHeader legacyService .falloutSsl ["a.h"] legacyHeader :=
    { cwd := nofun
      isHeader := by decide +kernel
      below := by decide +kernel
      ne_nil := by decide
      read := by decide +kernel
      readResolved := ⟨legacyHeader, by decide +kernel⟩
      isPath := ⟨⟨.root, ["ws", "a.h"]⟩, by decide +kernel⟩ }
  refine ⟨_, initialized_legacyCall, by decide +kernel, hopens.openWorkspace_eq_ok initialized_legacyCall,
    by decide +kernel, by decide +kernel⟩

end CommandLine.Call

end ScriptService
