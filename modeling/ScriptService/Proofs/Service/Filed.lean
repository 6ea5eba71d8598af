import ScriptService.Proofs.Service.Run
import ScriptService.Yaml.Format

/-!
# What the index holds after any run

Three shelves are written by many operations, each in its own way. In an index that
is filed (`Index.Filed`) the keys of every bucket are distinct, the symbols of an
open file are attributed to it, and those of the other two tiers to headers of the
language that their bucket belongs to. The empty index is filed, and every write
keeps it so (`Filed.setSelf`, `Filed.setDynamic`, …), hence every operation
(`filed_after`) and every run (`filed_run`).

Main statement: `run_index_filed`.
-/

namespace ScriptService

namespace Bucket

/-- All symbols are attributed to headers of a language. -/
def HeadersOf (l : Language) (b : List Symbol) : Prop :=
  ∀ x ∈ b, l.isHeader (Path.ofString x.source) = true

theorem HeadersOf.ofSymbols {l : Language} {b : List Symbol} (h : HeadersOf l b) :
    HeadersOf l (ofSymbols b) :=
  fun x hx => h x (mem_of_mem_ofSymbols hx)

theorem HeadersOf.append {l : Language} {b c : List Symbol} (hb : HeadersOf l b) (hc : HeadersOf l c) :
    HeadersOf l (b ++ c) :=
  List.forall_mem_append.mpr ⟨hb, hc⟩

/-- What is there after a reload was there before, or is attributed to the file. -/
theorem mem_or_source_of_mem_reload {b : List Symbol} {path text : String} {extract : Extractor} {x : Symbol}
    (h : x ∈ reload b path text extract) : x ∈ b ∨ x.source = path := by
  rcases List.mem_append.mp (mem_of_mem_ofSymbols h) with h | h
  · exact .inl (List.mem_filter.mp h).1
  · exact .inr (source_of_mem_withSource h)

theorem HeadersOf.reload {l : Language} {b : List Symbol} (hb : HeadersOf l b) {path : String}
    (hp : l.isHeader (Path.ofString path) = true) (text : String) (extract : Extractor) :
    HeadersOf l (reload b path text extract) := by
  intro x hx
  rcases mem_or_source_of_mem_reload hx with hx | hx
  · exact hb x hx
  · rw [hx]
    exact hp

/-- In a bucket of one file the names are distinct. -/
theorem Distinct.names_nodup {b : Bucket} (h : Distinct b) {path : String} (hs : ∀ x ∈ b, x.source = path) :
    (b.map Symbol.name).Nodup := by
  have hkeys : b.map Symbol.key = (b.map Symbol.name).map (·, path) := by
    rw [List.map_map]
    exact List.map_congr_left fun x hx => by rw [Symbol.key, hs x hx, Function.comp]
  rw [Distinct, hkeys] at h
  exact h.of_map _

end Bucket

/-- What is loaded from a tree of files is attributed to headers. -/
theorem headersOf_loadHeaders {files : Files} (hf : files.Sound) {dir : Path} {l : Language}
    {symbols : List Symbol} (h : loadHeaders files dir l.id = .ok symbols) : Bucket.HeadersOf l symbols := by
  intro x hx
  obtain ⟨l', names, text, hl, hnames, hsource, -, -⟩ := mem_loadHeaders h hx
  obtain rfl := Option.some.inj (hl.symm.trans (serving?_id l))
  exact (foundBelow_of_mem_findFiles hf hnames hsource).isHeader

/-! ## Filed indexes -/

namespace Index

/-- Keys are distinct, and symbols stand in buckets that they belong to. -/
structure Filed (i : Index) : Prop where
  distinct : i.Distinct
  self : ∀ path, ∀ x ∈ i.getSelf path, x.source = path
  dynamic : ∀ l : Language, Bucket.HeadersOf l (i.getDynamic l.id)
  dynamicOnly : ∀ m, (∀ l : Language, m ≠ l.id) → i.getDynamic m = []
  static : Bucket.HeadersOf .falloutSsl (i.getStatic Language.falloutSsl.id)
  staticOnly : ∀ m, m ≠ Language.falloutSsl.id → i.getStatic m = []

theorem filed_empty : Filed {} where
  distinct := distinct_empty
  self _ := List.forall_mem_nil _
  dynamic _ := List.forall_mem_nil _
  dynamicOnly _ _ := rfl
  static := List.forall_mem_nil _
  staticOnly _ _ := rfl

variable {i : Index}

theorem Filed.setSelf (hi : i.Filed) {path : String} {symbols : List Symbol}
    (h : ∀ x ∈ symbols, x.source = path) : (i.setSelf path symbols).Filed := by
  refine { hi with distinct := hi.distinct.setSelf path symbols, self := fun p => ?_ }
  rw [getSelf_setSelf]
  split
  · rename_i hp
    rw [hp]
    exact fun x hx => h x (Bucket.mem_of_mem_ofSymbols hx)
  · exact hi.self p

theorem Filed.dropSelf (hi : i.Filed) (path : String) : (i.dropSelf path).Filed := by
  refine { hi with distinct := hi.distinct.dropSelf path, self := fun p => ?_ }
  rw [getSelf_dropSelf]
  split
  · exact List.forall_mem_nil _
  · exact hi.self p

theorem Filed.setDynamic (hi : i.Filed) {l : Language} {symbols : List Symbol}
    (h : Bucket.HeadersOf l symbols) : (i.setDynamic l.id symbols).Filed := by
  refine { hi with
    distinct := hi.distinct.setDynamic l.id symbols
    dynamic := fun m => ?_
    dynamicOnly := fun m hm => ?_ }
  · rw [getDynamic_setDynamic]
    split
    · rename_i hid
      rw [Language.id_inj hid]
      exact h.ofSymbols
    · exact hi.dynamic m
  · rw [getDynamic_setDynamic, if_neg (hm l)]
    exact hi.dynamicOnly m hm

theorem Filed.setStatic (hi : i.Filed) {symbols : List Symbol} (h : Bucket.HeadersOf .falloutSsl symbols) :
    (i.setStatic Language.falloutSsl.id symbols).Filed := by
  refine { hi with
    distinct := hi.distinct.setStatic Language.falloutSsl.id symbols
    static := ?_
    staticOnly := fun m hm => ?_ }
  · rw [getStatic_setStatic, if_pos rfl]
    exact h.ofSymbols
  · rw [getStatic_setStatic, if_neg hm]
    exact hi.staticOnly m hm

theorem Filed.loadWorkspace (hi : i.Filed) {files : Files} (hf : files.Sound) {root : Path} {l : Language}
    {n : Nat} {j : Index} (h : i.loadWorkspace files root l.id = .ok (n, j)) : j.Filed := by
  obtain ⟨symbols, hsymbols, rfl⟩ := loadWorkspace_eq_ok h
  exact hi.setDynamic (headersOf_loadHeaders hf hsymbols)

theorem Filed.loadExternal (hi : i.Filed) {files : Files} (hf : files.Sound) {workspace : String}
    {dir : Value} {n : Nat} {j : Index}
    (h : i.loadExternal files workspace dir Language.falloutSsl.id = .ok (n, j)) : j.Filed := by
  obtain rfl | ⟨d, p, symbols, -, -, hsymbols, rfl⟩ := loadExternal_eq_ok h
  · exact hi
  · exact hi.setStatic (hi.static.append (headersOf_loadHeaders hf hsymbols))

end Index

/-! ## Runs -/

/-- The files that an operation loads headers from are some that a file system can hold. -/
def Operation.Sound : Operation → Prop
  | .loadAll env | .loadStatic env | .loadDynamic env => env.files.Sound
  | _ => True

namespace Service

variable {s : Service}

theorem filed_reloadFile (hs : s.index.Filed) (path language text : String) :
    (s.reloadFile path language text).index.Filed := by
  rw [reloadFile]
  split
  · exact hs
  · rename_i l _
    dsimp only
    split
    · rename_i hp
      exact hs.setDynamic ((hs.dynamic l).reload hp text l.extractor)
    · refine hs.setSelf fun x hx => ?_
      rcases Bucket.mem_or_source_of_mem_reload hx with hx | hx
      · exact hs.self path x hx
      · exact hx

theorem filed_loadStatic (hs : s.index.Filed) {env : Environment} (hf : env.files.Sound) {t : Service}
    (h : s.loadStatic env = .ok t) : t.index.Filed := by
  rw [loadStatic, bind_eq_ok] at h
  obtain ⟨⟨n, j⟩, hj, h⟩ := h
  obtain rfl := Except.ok.inj h
  exact hs.loadExternal hf hj

theorem filed_loadTiers (hs : s.index.Filed) {env : Environment} (hf : env.files.Sound) (ls : List Language) :
    (s.loadTiers env ls).index.Filed := by
  induction ls generalizing s with
  | nil => exact hs
  | cons l ls ih =>
    rw [loadTiers]
    split
    · rename_i h
      exact ih (hs.loadWorkspace hf h)
    · exact hs

theorem filed_orStay (hs : s.index.Filed) {x : Except Failure Service}
    (h : ∀ t, x = .ok t → t.index.Filed) : (s.orStay x).index.Filed := by
  cases x with
  | ok t => exact h t rfl
  | error e => exact hs

/-- Every operation leaves a filed index, whether or not it fails. -/
theorem filed_after (hs : s.index.Filed) {op : Operation} (hop : op.Sound) : (s.after op).index.Filed := by
  cases op with
  | loadAll env =>
    rcases s.loadAll_index_cases env with ⟨t, ht, h⟩ | ⟨-, h⟩
    · rw [h]
      exact filed_loadTiers (filed_loadStatic hs hop ht) hop _
    · rw [h]
      exact hs
  | loadStatic env => exact filed_orStay hs fun t ht => filed_loadStatic hs hop ht
  | loadDynamic env => exact filed_loadTiers hs hop _
  | reloadConfig env => exact filed_orStay hs fun t ht => reloadConfig_index ht ▸ hs
  | reloadFile path language text => exact filed_reloadFile hs path language text
  | onOpen uri language text =>
    refine filed_orStay hs fun t ht => ?_
    rw [onOpen, bind_eq_ok] at ht
    obtain ⟨path, -, ht⟩ := ht
    obtain rfl := Except.ok.inj ht
    exact filed_reloadFile hs path language text
  | onClose uri =>
    refine filed_orStay hs fun t ht => ?_
    rw [onClose, bind_eq_ok] at ht
    obtain ⟨path, -, ht⟩ := ht
    obtain rfl := Except.ok.inj ht
    exact hs.dropSelf path
  | save env uri language text =>
    rw [after]
    rcases s.startSave_index_cases env uri language text with h | ⟨path, h⟩
    · rw [h]
      exact hs
    · rw [h]
      exact filed_reloadFile hs path language text
  | compile r =>
    rw [after, startCompile_index]
    exact hs

theorem filed_run (hs : s.index.Filed) {ops : List Operation} (hops : ∀ op ∈ ops, op.Sound) :
    (s.run ops).index.Filed := by
  induction ops generalizing s with
  | nil => exact hs
  | cons op ops ih =>
    exact ih (filed_after hs (hops op List.mem_cons_self)) fun o ho => hops o (List.mem_cons_of_mem op ho)

/-- After any run from an empty index: keys are distinct in every bucket; symbols of an open file are
attributed to it, so names are distinct there; a dynamic bucket that is not empty belongs to a language
and holds symbols of headers of it; and so does a static one, to the one language that has any. -/
theorem run_index_filed (hs : s.index = {}) {ops : List Operation} (hops : ∀ op ∈ ops, op.Sound) :
    let i := (s.run ops).index
    i.Distinct ∧
      (∀ path, (∀ x ∈ i.getSelf path, x.source = path) ∧ ((i.getSelf path).map Symbol.name).Nodup) ∧
      (∀ m, i.getDynamic m ≠ [] → ∃ l : Language, l.id = m ∧
        ∀ x ∈ i.getDynamic m, l.isHeader (Path.ofString x.source) = true) ∧
      (∀ m, i.getStatic m ≠ [] → m = Language.falloutSsl.id ∧
        ∀ x ∈ i.getStatic m, Language.falloutSsl.isHeader (Path.ofString x.source) = true) := by
  have hfiled : (s.run ops).index.Filed := filed_run (hs ▸ Index.filed_empty) hops
  refine ⟨hfiled.distinct, fun path => ?_, fun m hm => ?_, fun m hm => ?_⟩
  · exact ⟨hfiled.self path, (hfiled.distinct.self path).names_nodup (hfiled.self path)⟩
  · by_cases h : ∃ l : Language, l.id = m
    · obtain ⟨l, rfl⟩ := h
      exact ⟨l, rfl, hfiled.dynamic l⟩
    · exact absurd (hfiled.dynamicOnly m fun l hl => h ⟨l, hl.symm⟩) hm
  · by_cases h : m = Language.falloutSsl.id
    · subst h
      exact ⟨rfl, hfiled.static⟩
    · exact absurd (hfiled.staticOnly m h) hm

/-- A workspace with a header. -/
def headerWorkspace : Environment where
  files :=
    ⟨.directory [("ws", .directory [("a.h", .file (Text.encodeUtf8 "#define A 1\n".toList))])],
      ⟨.root, []⟩, 900⟩
  home := ⟨.root, []⟩
  configFile := ""
  yaml := Yaml.format
  room := 900

theorem sound_headerWorkspace : headerWorkspace.files.Sound := by
  refine .directory (by decide) (List.forall_mem_singleton.mpr ?_)
  exact .directory (by decide) (List.forall_mem_singleton.mpr (.file _))

/-- A service of the workspace. -/
def headerService : Service := { root := ⟨.root, ["ws"]⟩ }

/-- What it is once the header is loaded. -/
def loadedService : Service where
  root := ⟨.root, ["ws"]⟩
  index :=
    { dynamic :=
        [("fallout-ssl", [{ name := "A", kind := .constant, detail := "1", source := "a.h", value := "1" }]),
          ("weidu-tp2", [])] }
  isInitialized := true

theorem load_headerService : headerService.run [.loadAll headerWorkspace] = loadedService := by
  have hload : headerService.loadAll headerWorkspace = .ok loadedService := by
    have hheaders : loadHeaders headerWorkspace.files headerService.root Language.falloutSsl.id =
        .ok (loadedService.index.getDynamic "fallout-ssl") := by
      decide +kernel
    have hlibraries : loadHeaders headerWorkspace.files headerService.root Language.weiduTp2.id = .ok [] := by
      decide +kernel
    rw [loadAll_eq_ok rfl hheaders hlibraries]
    rfl
  change headerService.after (.loadAll headerWorkspace) = loadedService
  rw [after, hload]

theorem loadAndRead_filed :
    let i := (headerService.run
      [.loadAll headerWorkspace, .reloadFile "x.ssl" "fallout-ssl" "#define B 2\n"]).index
    (i.getSelf "x.ssl" ≠ [] ∧ ((i.getSelf "x.ssl").map Symbol.name).Nodup) ∧
      i.getDynamic "fallout-ssl" ≠ [] ∧ ∃ l : Language, l.id = "fallout-ssl" ∧
        ∀ x ∈ i.getDynamic "fallout-ssl", l.isHeader (Path.ofString x.source) = true := by
  have hops : ∀ op ∈ [Operation.loadAll headerWorkspace, .reloadFile "x.ssl" "fallout-ssl" "#define B 2\n"],
      op.Sound :=
    List.forall_mem_cons.mpr ⟨sound_headerWorkspace, List.forall_mem_singleton.mpr trivial⟩
  have hrun : headerService.run
      [.loadAll headerWorkspace, .reloadFile "x.ssl" "fallout-ssl" "#define B 2\n"] =
        loadedService.reloadFile "x.ssl" "fallout-ssl" "#define B 2\n" := by
    rw [← load_headerService]
    rfl
  obtain ⟨-, hnames, hheaders, -⟩ := run_index_filed (s := headerService) rfl hops
  rw [hrun] at hnames hheaders
  dsimp only
  rw [hrun]
  have hself : (loadedService.reloadFile "x.ssl" "fallout-ssl" "#define B 2\n").index.getSelf
      "x.ssl" ≠ [] := by
    decide +kernel
  have hdynamic : (loadedService.reloadFile "x.ssl" "fallout-ssl" "#define B 2\n").index.getDynamic
      "fallout-ssl" ≠ [] := by
    decide +kernel
  exact ⟨⟨hself, (hnames "x.ssl").2⟩, hdynamic, hheaders "fallout-ssl" hdynamic⟩

end Service

end ScriptService
