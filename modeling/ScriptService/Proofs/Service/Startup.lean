import ScriptService.Proofs.Files.Order
import ScriptService.Proofs.Header.External
import ScriptService.Proofs.Header.Rebuild
import ScriptService.Proofs.Service.Run
import ScriptService.Yaml.Format

/-!
# What a service loads when it starts

A service that starts reads its configuration, the headers outside the workspace and
those in it. All of it is read through a few questions about files, whose answers do
not depend on the order of entries in directories (`Files.Alike.loadHeaders`,
`Service.loadAll_alike`, `Service.after_loadAll_alike`), but for which of the paths
that are out of reach is met first.

All headers are loaded just if the searches for them get everywhere
(`Service.loadAll_isOk_iff`). A load arranges those of the workspace by path
(`Service.arranged_loadAll`); they are the files of the workspace whose paths are
those of headers (`headerText?_eq_some_iff`), which is how a reload tells the files of
the dynamic tier as well (`Language.routes_iff`).

Main statement: `startup_exact`.
-/

namespace ScriptService

open Text

/-! ## The order of entries -/

namespace Files.Alike

variable {f g : Files} (h : f.Alike g)
include h

theorem sourceText (p : Path) : sourceText f p = sourceText g p := by
  unfold ScriptService.sourceText
  rw [h.read]

theorem loadHeaders (dir : Path) (language : String) :
    (loadHeaders f dir language).toOption = (loadHeaders g dir language).toOption := by
  have hsymbols : headerSymbols f dir = headerSymbols g dir := by
    funext extract name
    rw [headerSymbols, headerSymbols, h.sourceText]
  unfold ScriptService.loadHeaders
  split
  · rfl
  · rw [toOption_bind, toOption_bind, h.findFiles, hsymbols]

theorem checkExternal (workspace dir : String) :
    checkExternal f workspace dir = checkExternal g workspace dir := by
  unfold ScriptService.checkExternal
  simp only [h.isDirectory, h.cwd]

theorem loadExternal (i : Index) (workspace : String) (dir : Value) (language : String) :
    (i.loadExternal f workspace dir language).toOption = (i.loadExternal g workspace dir language).toOption := by
  unfold Index.loadExternal
  split
  · rfl
  · split
    · rw [h.checkExternal]
      split
      · rfl
      · rfl
      · rw [toOption_bind, toOption_bind, h.loadHeaders]
    · rfl

theorem loadWorkspace (i : Index) (root : Path) (language : String) :
    (i.loadWorkspace f root language).toOption = (i.loadWorkspace g root language).toOption := by
  rw [Index.loadWorkspace, Index.loadWorkspace, toOption_bind, toOption_bind, h.loadHeaders]

theorem firstFile (ps : List Path) : Config.firstFile f ps = Config.firstFile g ps := by
  induction ps with
  | nil => rfl
  | cons p ps ih => rw [Config.firstFile, Config.firstFile, h.isFile, ih]

end Files.Alike

namespace Service

variable {env : Environment} {g : Files} (h : env.files.Alike g)
include h

theorem start_alike (root : String) (config : Option Config) :
    start { env with files := g } root config = start env root config := by
  have hread : ∀ p, Config.readFile { env with files := g } p = Config.readFile env p := fun p => by
    rw [Config.readFile, Config.readFile, h.read]
  have hload : ∀ root, Config.loadWorkspace { env with files := g } root = Config.loadWorkspace env root :=
    fun root => by
      rw [Config.loadWorkspace, Config.loadWorkspace, Config.load, Config.load, Config.candidates,
        Config.candidates]
      simp only [h.firstFile, hread, h.cwd]
  unfold start initialConfig
  simp only [hload, h.cwd]

theorem loadStatic_alike (s : Service) :
    (s.loadStatic { env with files := g }).toOption = (s.loadStatic env).toOption := by
  rw [loadStatic, loadStatic, toOption_bind, toOption_bind, h.loadExternal]

theorem loadDynamic_alike (s : Service) :
    (s.loadDynamic { env with files := g }).toOption = (s.loadDynamic env).toOption := by
  unfold loadDynamic
  generalize Language.all = ls
  induction ls generalizing s with
  | nil => rfl
  | cons l ls ih =>
    rw [List.foldlM_cons, List.foldlM_cons, toOption_bind, toOption_bind, toOption_bind, toOption_bind,
      h.loadWorkspace]
    simp only [ih]

/-- The same service comes of a load, or none in both. -/
theorem loadAll_alike (s : Service) :
    (s.loadAll { env with files := g }).toOption = (s.loadAll env).toOption := by
  rw [loadAll, loadAll, toOption_bind, toOption_bind, loadStatic_alike h]
  simp only [toOption_bind, loadDynamic_alike h]

theorem loadTiers_alike (ls : List Language) (s : Service) :
    s.loadTiers { env with files := g } ls = s.loadTiers env ls := by
  induction ls generalizing s with
  | nil => rfl
  | cons l ls ih =>
    rw [loadTiers, loadTiers]
    obtain ⟨r, hg, hf⟩ | ⟨e, e', hg, hf⟩ := toOption_eq_cases (h.loadWorkspace s.index s.root l.id)
    · rw [hg, hf]
      exact ih _
    · rw [hg, hf]

/-- A load leaves the same service, also if it fails. -/
theorem after_loadAll_alike (s : Service) :
    s.after (.loadAll { env with files := g }) = s.after (.loadAll env) := by
  rw [after, after]
  obtain ⟨t, hg, hf⟩ | ⟨e, e', hg, hf⟩ := toOption_eq_cases (loadAll_alike h s)
  · rw [hg, hf]
  · rw [hg, hf]
    obtain ⟨t, hg, hf⟩ | ⟨e, e', hg, hf⟩ := toOption_eq_cases (loadStatic_alike h s)
    · rw [hg, hf]
      exact loadTiers_alike h Language.all t
    · rw [hg, hf]

end Service

/-! ## Headers of the workspace -/

/-- The text of a header's bytes when it is loaded with the workspace. -/
def loadedText (bytes : List UInt8) : String :=
  String.ofList (unifyNewlines ((decodeUtf8? bytes).getD (decodeLatin1 bytes)))

namespace Language

theorem mem_all (l : Language) : l ∈ all := by
  cases l <;> decide

theorem suffix_of_isHeader {l : Language} {p : Path} (h : l.isHeader p = true) :
    p.lowerSuffix = dottedExtension l.headerExtension :=
  (of_decide_eq_true h).trans (dottedExtension_header l).symm

/-- A change of a file at a path is a reload of the dynamic bucket of a language. -/
def Routes (l : Language) (path : String) : Prop :=
  ∀ (s : Service) (document text : String), serving? document = some l →
    (s.reloadFile path document text).index =
      s.index.setDynamic l.id (Bucket.reload (s.index.getDynamic l.id) path text l.extractor)

theorem routes_iff {l : Language} {path : String} : l.Routes path ↔ l.isHeader (Path.ofString path) = true := by
  constructor
  · intro h
    by_contra hheader
    -- any other file gets a bucket of its own, also in an empty index
    have hempty := congrArg Index.self (h { root := ⟨.root, []⟩ } l.id "" (serving?_id l))
    rw [Service.reloadFile, serving?_id] at hempty
    dsimp only at hempty
    rw [if_neg hheader] at hempty
    cases hempty
  · intro h s document text hl
    rw [Service.reloadFile, hl]
    dsimp only
    rw [if_pos h]

end Language

/-- A header below a directory that can be read is found there, if the headers there are. -/
theorem headerText?_below {files : Files} (hcwd : files.cwd.Named) {dir p : Path} (hp : p.Normal)
    (ha : p.anchor = .root) (hdir : dir.anchor = .root) {name : String} {names : List String}
    (hparts : p.parts = dir.parts ++ name :: names) {l : Language}
    (hl : l.isHeader ⟨.relative, name :: names⟩ = true) {bytes : List UInt8} (h : files.read p = .ok bytes)
    {found : List String} (hfound : findFiles files dir l.headerExtension = .ok found) :
    headerText? files dir l (relativeText (name :: names)) = some (loadedText bytes) := by
  have hmem := Files.mem_findFiles hcwd hp ha hdir hparts h (Language.suffix_of_isHeader hl) hfound
  have hnormal : Path.Normal ⟨.relative, name :: names⟩ :=
    hp.of_subset (by rw [hparts]; exact List.subset_append_right ..)
  have hjoin : dir.join ⟨.relative, name :: names⟩ = p := by
    rw [Path.join_of_relative rfl, ← hparts, hdir, ← ha]
  rw [headerText?, hfound]
  dsimp only
  rw [if_pos hmem, ofString_relativeText (List.cons_ne_nil name names) hnormal.named, hjoin, sourceText, h]
  rfl

namespace Service

/-- A file stands in the workspace at a path from there, which is short enough to be looked up. -/
def HasFile (s : Service) (files : Files) (path : String) (bytes : List UInt8) : Prop :=
  ∃ names, names ≠ [] ∧ path = relativeText names ∧
    files.root.below? (s.root.parts ++ names) = some (.file bytes) ∧
    Files.Fits (s.root.join ⟨.relative, names⟩)

/-- The files of a workspace are those below its directory that can be read. -/
theorem hasFile_iff {s : Service} {files : Files} (hf : files.Proper) (hroot : s.root.Normal)
    (ha : s.root.anchor = .root) {path : String} {bytes : List UInt8} :
    s.HasFile files path bytes ↔ ∃ names, names ≠ [] ∧ Path.Normal ⟨.relative, names⟩ ∧
      path = relativeText names ∧ files.read (s.root.join ⟨.relative, names⟩) = .ok bytes := by
  refine exists_congr fun names => and_congr_right fun hne => ?_
  have hparts : (s.root.join ⟨.relative, names⟩).parts = s.root.parts ++ names := by
    rw [Path.join_of_relative rfl]
  have hread : ∀ {bytes : List UInt8}, (s.root.join ⟨.relative, names⟩).Normal →
      (files.read (s.root.join ⟨.relative, names⟩) = .ok bytes ↔
        files.root.below? (s.root.parts ++ names) = some (.file bytes) ∧
          Files.Fits (s.root.join ⟨.relative, names⟩)) := fun hnormal => by
    rw [Files.read_iff hf hnormal (by rw [Path.join_of_relative rfl, ha]) (by rw [hparts]; simp [hne]), hparts]
  constructor
  · rintro ⟨hpath, hbelow, hfits⟩
    have hnormal : (s.root.join ⟨.relative, names⟩).Normal :=
      (hf.root.sound.normal_of_mem_files (Node.mem_files_of_below? hbelow)).of_subset
        (by rw [hparts]; exact List.Subset.refl _)
    exact ⟨hnormal.of_subset (by rw [hparts]; exact List.subset_append_right ..), hpath,
      (hread hnormal).mpr ⟨hbelow, hfits⟩⟩
  · rintro ⟨hnames, hpath, hbytes⟩
    exact ⟨hpath, (hread (hroot.join hnames rfl)).mp hbytes⟩

end Service

/-- The headers that are found in the workspace and can be read are the files in it whose paths are those
of headers. -/
theorem headerText?_eq_some_iff {files : Files} (hf : files.Proper) {s : Service} (hroot : s.root.Normal)
    (ha : s.root.anchor = .root) {l : Language} {found : List String}
    (hfound : findFiles files s.root l.headerExtension = .ok found) {path text : String} :
    headerText? files s.root l path = some text ↔
      ∃ bytes, s.HasFile files path bytes ∧ l.isHeader (Path.ofString path) = true ∧
        text = loadedText bytes := by
  simp only [Service.hasFile_iff hf hroot ha]
  constructor
  · intro h
    rw [headerText?, hfound] at h
    dsimp only at h
    split at h
    · rename_i hpath
      have hheader := (foundBelow_of_mem_findFiles hf.root.sound hfound hpath).isHeader
      obtain ⟨n, hn, names, _, hne, hbelow, rfl, -⟩ := ((findFiles_exact hf hfound).2 path).mp hpath
      have hnames := (hf.of_probe hn).sound.normal_of_mem_files (Node.mem_files_of_below? hbelow)
      rw [ofString_relativeText hne hnames.named, sourceText] at h
      cases hread : files.read (s.root.join ⟨.relative, names⟩) with
      | ok bytes =>
        rw [hread] at h
        exact ⟨bytes, ⟨names, hne, hnames, rfl, hread⟩, hheader, (Option.some.inj h).symm⟩
      | error e =>
        rw [hread] at h
        cases e <;> cases h
    · cases h
  · rintro ⟨bytes, ⟨names, hne, hnames, rfl, hread⟩, hheader, rfl⟩
    obtain ⟨name, names, rfl⟩ := List.exists_cons_of_ne_nil hne
    rw [ofString_relativeText hne hnames.named] at hheader
    refine headerText?_below hf.cwd (hroot.join hnames rfl) ?_ ha ?_ hheader hread hfound
    · rw [Path.join_of_relative rfl, ha]
    · rw [Path.join_of_relative rfl]

namespace Service

/-- Loading the headers of some languages arranges those of each that are found by path, and leaves the
buckets of others. -/
theorem arranged_loadLanguages {env : Environment} {ls : List Language} {s t : Service}
    (h : ls.foldlM (fun s l => do
      let (_, index) ← Index.loadWorkspace s.index env.files s.root l.id
      .ok { s with index }) s = (.ok t : Except Failure Service)) (l : Language) :
    t.root = s.root ∧
      if l ∈ ls then (∃ found, findFiles env.files s.root l.headerExtension = .ok found) ∧
        ∃ order : List String, order.Pairwise (· < ·) ∧
          Arranged l (headerText? env.files s.root l) order (t.index.getDynamic l.id)
      else t.index.getDynamic l.id = s.index.getDynamic l.id := by
  induction ls generalizing s with
  | nil =>
    obtain rfl := Except.ok.inj h
    exact ⟨rfl, rfl⟩
  | cons m ls ih =>
    rw [List.foldlM_cons, bind_eq_ok] at h
    obtain ⟨u, hu, h⟩ := h
    rw [bind_eq_ok] at hu
    obtain ⟨⟨n, index⟩, hindex, hu⟩ := hu
    obtain rfl := Except.ok.inj hu
    obtain ⟨hroot, hrest⟩ := ih h
    refine ⟨hroot, ?_⟩
    by_cases hl : l ∈ ls
    · rw [if_pos hl] at hrest
      rwa [if_pos (List.mem_cons_of_mem m hl)]
    · rw [if_neg hl] at hrest
      rw [hrest]
      by_cases hm : l = m
      · subst hm
        rw [if_pos List.mem_cons_self]
        exact ⟨Index.exists_findFiles_of_loadWorkspace hindex, arranged_load hindex⟩
      · rw [if_neg (by rw [List.mem_cons, not_or]; exact ⟨hm, hl⟩)]
        obtain ⟨symbols, -, rfl⟩ := Index.loadWorkspace_eq_ok hindex
        exact (Index.getDynamic_setDynamic ..).trans (if_neg fun hid => hm (Language.id_inj hid))

/-- Loading all headers arranges those that are found in the workspace by path in the bucket of each
language. -/
theorem arranged_loadAll {s t : Service} {env : Environment} (h : s.loadAll env = .ok t) (l : Language) :
    t.root = s.root ∧ (∃ found, findFiles env.files s.root l.headerExtension = .ok found) ∧
      ∃ order : List String, order.Pairwise (· < ·) ∧
        Arranged l (headerText? env.files s.root l) order (t.index.getDynamic l.id) := by
  rw [loadAll, bind_eq_ok] at h
  obtain ⟨u, hu, h⟩ := h
  rw [bind_eq_ok] at h
  obtain ⟨v, hv, h⟩ := h
  obtain rfl := Except.ok.inj h
  obtain ⟨hroot, harranged⟩ := arranged_loadLanguages hv l
  rw [if_pos l.mem_all] at harranged
  rw [loadStatic, bind_eq_ok] at hu
  obtain ⟨⟨n, index⟩, -, hu⟩ := hu
  obtain rfl := Except.ok.inj hu
  exact ⟨hroot, harranged⟩

theorem root_loadStatic {s t : Service} {env : Environment} (h : s.loadStatic env = .ok t) : t.root = s.root := by
  rw [loadStatic, bind_eq_ok] at h
  obtain ⟨⟨n, index⟩, -, h⟩ := h
  obtain rfl := Except.ok.inj h
  rfl

theorem root_start {env : Environment} {root : String} {config : Option Config} {s : Service}
    (h : start env root config = .ok s) : s.root = Path.resolve env.files.cwd (Path.ofString root) := by
  rw [start] at h
  split at h
  · cases h
  · dsimp only at h
    split at h
    all_goals
      rw [bind_eq_ok] at h
      obtain ⟨c, -, h⟩ := h
      obtain rfl := Except.ok.inj h
      rfl

/-- The searches for headers get everywhere: those in the workspace, and the one in the directory of
headers outside of it, if one is set that can be used. -/
structure CanLoad (s : Service) (files : Files) : Prop where
  workspace : ∀ l : Language, files.Reaches s.root l.headerExtension
  external : s.config.fallout.headersDirectory.isGiven = true →
    ∃ d, s.config.fallout.headersDirectory = .text d ∧ ∀ p, checkExternal files s.root.text d = .ok p →
      files.Reaches p Language.falloutSsl.headerExtension

/-- The headers of some languages in a directory are loaded just if the searches for them get
everywhere. -/
theorem loadLanguages_isOk_iff {env : Environment} (hf : env.files.Proper) {root : Path} {node : Option Node}
    (hprobe : env.files.probe root = .ok node) (hnul : '\x00' ∉ root.text.toList) (ls : List Language)
    {u : Service} (hu : u.root = root) :
    (∃ t, ls.foldlM (fun s l => do
        let (_, index) ← Index.loadWorkspace s.index env.files s.root l.id
        .ok { s with index }) u = (.ok t : Except Failure Service)) ↔
      ∀ l ∈ ls, env.files.Reaches root l.headerExtension := by
  induction ls generalizing u with
  | nil => exact iff_of_true ⟨u, rfl⟩ (List.forall_mem_nil _)
  | cons l ls ih =>
    have hserving : ∀ l', Language.serving? l.id = some l' → l' = l := fun l' h => by
      rw [serving?_id] at h
      exact (Option.some.inj h).symm
    have hreaches : (∃ symbols, loadHeaders env.files root l.id = .ok symbols) ↔
        env.files.Reaches root l.headerExtension := by
      rw [loadHeaders_isOk_iff hf hprobe hnul]
      exact ⟨fun h => h l (serving?_id l), fun h l' hl' => hserving l' hl' ▸ h⟩
    subst hu
    rw [List.forall_mem_cons, ← hreaches, List.foldlM_cons, Index.loadWorkspace]
    cases loadHeaders env.files u.root l.id with
    | ok symbols =>
      have hrest := ih (u := { u with index := u.index.setDynamic l.id symbols }) rfl
      exact ⟨fun h => ⟨⟨symbols, rfl⟩, hrest.mp h⟩, fun h => hrest.mpr h.2⟩
    | error e => exact iff_of_false not_exists_error_eq_ok fun h => not_exists_error_eq_ok h.1

/-- All headers are loaded just if the searches for them get everywhere, where the workspace is a
directory. -/
theorem loadAll_isOk_iff {s : Service} {env : Environment} (hf : env.files.Proper)
    (hdir : env.files.isDirectory s.root = .ok true) :
    (∃ t, s.loadAll env = .ok t) ↔ s.CanLoad env.files := by
  obtain ⟨hnul, es, hprobe⟩ := Files.nul_not_mem_of_isDirectory hdir
  have hexternal : (∃ t, s.loadStatic env = .ok t) ↔
      (s.config.fallout.headersDirectory.isGiven = true →
        ∃ d, s.config.fallout.headersDirectory = .text d ∧ ∀ p, checkExternal env.files s.root.text d = .ok p →
          env.files.Reaches p Language.falloutSsl.headerExtension) := by
    have hload : (∃ n j, s.index.loadExternal env.files s.root.text s.config.fallout.headersDirectory
        Language.falloutSsl.id = .ok (n, j)) ↔ _ := s.index.loadExternal_isOk_iff hf hnul
    simp only [serving?_id, Option.some.injEq, forall_eq'] at hload
    rw [← hload, loadStatic]
    cases s.index.loadExternal env.files s.root.text s.config.fallout.headersDirectory
        Language.falloutSsl.id with
    | ok r => exact iff_of_true ⟨_, rfl⟩ ⟨r.1, r.2, rfl⟩
    | error e => exact iff_of_false not_exists_error_eq_ok (by simp)
  have hworkspace : ∀ t : Service, t.root = s.root → ((∃ u, t.loadDynamic env = .ok u) ↔
      ∀ l : Language, env.files.Reaches s.root l.headerExtension) := fun t ht => by
    rw [loadDynamic, loadLanguages_isOk_iff hf hprobe hnul Language.all ht]
    exact forall_congr' fun l => imp_iff_right l.mem_all
  constructor
  · rintro ⟨t, ht⟩
    rw [loadAll, bind_eq_ok] at ht
    obtain ⟨u, hu, ht⟩ := ht
    rw [bind_eq_ok] at ht
    obtain ⟨v, hv, -⟩ := ht
    exact ⟨(hworkspace u (root_loadStatic hu)).mp ⟨v, hv⟩, hexternal.mp ⟨u, hu⟩⟩
  · rintro ⟨hall, hset⟩
    obtain ⟨u, hu⟩ := hexternal.mpr hset
    obtain ⟨v, hv⟩ := (hworkspace u (root_loadStatic hu)).mpr hall
    exact ⟨_, by rw [loadAll, hu, ok_bind, hv, ok_bind]⟩

/-- The dynamic bucket of a language is that of the files that are headers of it, by path. -/
theorem exists_loaded {env : Environment} (hf : env.files.Proper) {s t : Service} (hroot : s.root.Normal)
    (ha : s.root.anchor = .root) (h : s.loadAll env = .ok t) (l : Language) :
    ∃ loaded : List (String × String), (loaded.map Prod.fst).Pairwise (· < ·) ∧
      (∀ path text, (path, text) ∈ loaded ↔
        ∃ bytes, s.HasFile env.files path bytes ∧ l.Routes path ∧ text = loadedText bytes) ∧
      t.index.getDynamic l.id =
        loaded.flatMap fun (path, text) => Bucket.ofSymbols (l.extractor text path).symbols := by
  obtain ⟨-, ⟨found, hfound⟩, order, hlt, harranged⟩ := arranged_loadAll h l
  have htext : ∀ path ∈ order, ∃ text, headerText? env.files s.root l path = some text := fun path hpath =>
    Option.isSome_iff_exists.mp ((harranged.mem path).mp hpath)
  refine ⟨order.map fun path => (path, (headerText? env.files s.root l path).getD ""), ?_,
    fun path text => ?_, ?_⟩
  · rw [List.map_map]
    exact (List.map_id order).symm ▸ hlt
  · simp only [Language.routes_iff, ← headerText?_eq_some_iff hf hroot ha hfound, List.mem_map, Prod.mk.injEq]
    constructor
    · rintro ⟨path, hpath, rfl, rfl⟩
      obtain ⟨text, htext⟩ := htext path hpath
      rw [htext, Option.getD_some]
    · intro htext
      exact ⟨path, (harranged.mem path).mpr (htext ▸ rfl), rfl, by rw [htext, Option.getD_some]⟩
  · rw [harranged.eq, List.flatMap_map]
    refine List.flatMap_congr fun path hpath => ?_
    obtain ⟨text, htext⟩ := htext path hpath
    rw [blockAt, declaredAt, htext]
    rfl

/-- What is found and loaded at the start, in the files of a file system. A search succeeds just if it
gets everywhere, and then lists the paths of just the files below a directory that have the extension,
in strict order; else it fails as a whole. To list entries in another order leaves the same tree, and
with it the same search results, the same configuration and the same service once all headers are
loaded, or as many of them as can be. Where the workspace is a directory, all are loaded just if the
searches for them get everywhere, and the dynamic bucket of each language is then made of just the files
of the workspace whose changes go there, by path. -/
theorem startup_exact {env : Environment} (hf : env.files.Proper) :
    (∀ dir node, env.files.probe dir = .ok node → ∀ extension,
        ((∃ found, findFiles env.files dir extension = .ok found) ↔ env.files.Reaches dir extension) ∧
        (¬ env.files.Reaches dir extension →
          ∃ e, findFiles env.files dir extension = .error e ∧ IsSearchFailure e)) ∧
      (∀ dir extension found, findFiles env.files dir extension = .ok found → found.Pairwise (· < ·) ∧
        ∀ path, path ∈ found ↔ ∃ n, env.files.probe dir = .ok (some n) ∧ n.Lists extension path) ∧
      (∀ tree, env.files.root.Reordered tree → tree.Proper ∧ env.files.root.Same tree) ∧
      (∀ tree, tree.Proper → env.files.root.Same tree →
        let env' := { env with files := { env.files with root := tree } }
        (∀ dir extension, (findFiles env'.files dir extension).toOption =
            (findFiles env.files dir extension).toOption) ∧
          (∀ root config, start env' root config = start env root config) ∧
          ∀ s, (loadAll s env').toOption = (loadAll s env).toOption ∧
            s.after (.loadAll env') = s.after (.loadAll env)) ∧
      ∀ root config s, start env root config = .ok s →
        (env.files.isDirectory s.root = .ok true →
          ((∃ t, s.loadAll env = .ok t) ↔ s.CanLoad env.files)) ∧
        ∀ t, s.loadAll env = .ok t → ∀ l : Language, ∃ loaded : List (String × String),
          (loaded.map Prod.fst).Pairwise (· < ·) ∧
            (∀ path text, (path, text) ∈ loaded ↔
              ∃ bytes, s.HasFile env.files path bytes ∧ l.Routes path ∧ text = loadedText bytes) ∧
            t.index.getDynamic l.id =
              loaded.flatMap fun (path, text) => Bucket.ofSymbols (l.extractor text path).symbols := by
  refine ⟨fun dir node hnode extension =>
      ⟨findFiles_isOk_iff hf hnode extension, findFiles_out_of_reach hf hnode⟩,
    fun dir extension found hfound => findFiles_exact hf hfound,
    fun tree h => ⟨h.proper hf.root, h.same hf.root⟩, fun tree hproper hsame => ?_,
    fun root config s hs => ⟨loadAll_isOk_iff hf, fun t ht l => ?_⟩⟩
  · have halike : env.files.Alike { env.files with root := tree } := ⟨hf, ⟨hproper, hf.cwd⟩, hsame, rfl, rfl⟩
    exact ⟨fun dir extension => (halike.findFiles dir extension).symm, start_alike halike, fun s =>
      ⟨loadAll_alike halike s, after_loadAll_alike halike s⟩⟩
  · have hroot := root_start hs
    refine exists_loaded hf ?_ ?_ ht l
    · rw [hroot]
      exact hf.cwd.normal_resolve (Path.named_ofString root)
    · rw [hroot]
      rfl

/-- The bytes of a header that declares a constant. -/
def constantHeader (name : String) : Node :=
  .file (encodeUtf8 ("#define " ++ name ++ " 1\n").toList)

/-- A workspace whose entries are listed in some order, and its entries in another order. -/
def unsortedEntries : List (String × Node) :=
  [("sub", .directory [("c.H", constantHeader "C"), ("d.ssl", constantHeader "D")]),
    (".h", constantHeader "E"), ("b.h", constantHeader "B")]

/-- The same entries in another order, also below. -/
def reorderedEntries : List (String × Node) :=
  [("b.h", constantHeader "B"), (".h", constantHeader "E"),
    ("sub", .directory [("d.ssl", constantHeader "D"), ("c.H", constantHeader "C")])]

/-- The files around a workspace. -/
def aroundWorkspace (entries : List (String × Node)) : Environment where
  files := ⟨.directory [("ws", .directory entries)], ⟨.root, []⟩, 900⟩
  home := ⟨.root, []⟩
  configFile := ""
  yaml := Yaml.format
  room := 900

theorem proper_unsorted : (aroundWorkspace unsortedEntries).files.Proper where
  root := by
    refine .directory (by decide) (by decide) (List.forall_mem_singleton.mpr ?_)
    refine .directory (by decide) (by decide) (List.forall_mem_cons.mpr ⟨?_, List.forall_mem_cons.mpr
      ⟨.file _, List.forall_mem_singleton.mpr (.file _)⟩⟩)
    exact .directory (by decide) (by decide) (List.forall_mem_cons.mpr
      ⟨.file _, List.forall_mem_singleton.mpr (.file _)⟩)
  cwd := nofun

theorem reordered_unsorted :
    (aroundWorkspace unsortedEntries).files.root.Reordered (aroundWorkspace reorderedEntries).files.root := by
  refine .entry [] "ws" [] (.trans (.entry [] "sub" _ (.entries (.swap _ _ []))) (.entries ?_))
  exact (List.reverse_perm _).symm

theorem unsorted_loaded :
    (aroundWorkspace unsortedEntries).files.Proper ∧
      ["b.h", "sub/c.H"].Pairwise (· < ·) ∧
      findFiles (aroundWorkspace reorderedEntries).files (Path.ofString "/ws") ".H" = .ok ["b.h", "sub/c.H"] ∧
      ∃ s t, start (aroundWorkspace reorderedEntries) "/ws" (some {}) = .ok s ∧
        s.loadAll (aroundWorkspace reorderedEntries) = .ok t ∧
        ∃ loaded : List (String × String), (loaded.map Prod.fst).Pairwise (· < ·) ∧
          ("sub/c.H", "#define C 1\n") ∈ loaded ∧
          t.index.getDynamic "fallout-ssl" =
            loaded.flatMap fun (path, text) => Bucket.ofSymbols (extractFallout text path).symbols := by
  obtain ⟨hreach, hfound, hreordered, hsame, hloaded⟩ := startup_exact proper_unsorted
  obtain ⟨hproper, htree⟩ := hreordered _ reordered_unsorted
  obtain ⟨hsearch, hstarts, hload⟩ := hsame _ hproper htree
  have hdirectory : (aroundWorkspace unsortedEntries).files.isDirectory (Path.ofString "/ws") = .ok true := by
    decide +kernel
  obtain ⟨-, es, hprobe⟩ := Files.nul_not_mem_of_isDirectory hdirectory
  -- the search meets the headers in order where the entries are
  have hheaders : ∀ extension ∈ [".H", "h"],
      findFiles (aroundWorkspace reorderedEntries).files (Path.ofString "/ws") extension =
        .ok ["b.h", "sub/c.H"] := fun extension h =>
    findFiles_of_sorted ((by decide +kernel : ∀ extension ∈ [".H", "h"],
      filesMet (aroundWorkspace reorderedEntries).files (Path.ofString "/ws") extension =
        .ok ["b.h", "sub/c.H"]) extension h) (by decide +kernel)
  have hunsorted : ∀ {extension : String} {names : List String},
      findFiles (aroundWorkspace reorderedEntries).files (Path.ofString "/ws") extension = .ok names →
        findFiles (aroundWorkspace unsortedEntries).files (Path.ofString "/ws") extension = .ok names :=
    fun h => eq_ok_of_toOption ((hsearch _ _).symm.trans (congrArg Except.toOption h))
  have hreaches : ∀ l : Language,
      (aroundWorkspace unsortedEntries).files.Reaches (Path.ofString "/ws") l.headerExtension := fun l =>
    ((hreach _ _ hprobe _).1).mp <| by
      cases l with
      | falloutSsl => exact ⟨_, hunsorted (hheaders "h" (by decide))⟩
      | weiduTp2 => exact ⟨[], hunsorted (by decide +kernel)⟩
  have hlt := (hfound _ _ _ (hunsorted (hheaders ".H" (by decide)))).1
  have hroot : Path.resolve (aroundWorkspace unsortedEntries).files.cwd (Path.ofString "/ws") =
      Path.ofString "/ws" := by
    decide +kernel
  have hstart : start (aroundWorkspace unsortedEntries) "/ws" (some {}) =
      .ok { root := Path.ofString "/ws" } := by
    rw [start_with (by decide), hroot]
  obtain ⟨hresult, hbuckets⟩ := hloaded _ _ _ hstart
  obtain ⟨t, ht⟩ := (hresult hdirectory).mpr ⟨hreaches, fun hgiven => absurd hgiven (by decide)⟩
  obtain ⟨loaded, hpaths, hmem, hbucket⟩ := hbuckets t ht .falloutSsl
  have hload' := (hload { root := Path.ofString "/ws" }).1
  rw [ht] at hload'
  refine ⟨proper_unsorted, hlt, hheaders ".H" (by decide), _, t, (hstarts _ _).trans hstart,
    eq_ok_of_toOption hload', loaded, hpaths,
    (hmem _ _).mpr ⟨(encodeUtf8 "#define C 1\n".toList), ?_, ?_, ?_⟩, hbucket⟩
  · exact ⟨["sub", "c.H"], by decide, by decide +kernel, rfl, by decide +kernel, by decide +kernel⟩
  · exact Language.routes_iff.mpr (by decide +kernel)
  · decide +kernel

end Service

/-- A header is listed below a directory, and a search does not find it. -/
theorem rootHeader_not_found :
    rootHeader.Proper ∧ rootHeader.probe (roundabout 1364) = .ok (some rootHeader.root) ∧
      rootHeader.root.Lists "h" "a.h" ∧ ∃ e, findFiles rootHeader (roundabout 1364) "h" = .error e := by
  have hprobe : rootHeader.probe (roundabout 1364) = _ := probe_roundabout (by decide)
  obtain ⟨e, he, -⟩ := findFiles_out_of_reach proper_rootHeader hprobe
    (not_reaches_roundabout (by decide) (by decide))
  exact ⟨proper_rootHeader, hprobe, ⟨["a.h"], _, by decide, rfl, by decide +kernel, by decide +kernel⟩, e, he⟩

end ScriptService
