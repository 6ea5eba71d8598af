import Mathlib.Data.List.Dedup
import Mathlib.Data.List.Sort
import ScriptService.Proofs.Declaration.Extract
import ScriptService.Proofs.Header.Load
import ScriptService.Proofs.Index.Basic
import ScriptService.Service.Basic

/-!
# Reloading headers against loading them anew

The dynamic bucket of a language is made of one block for each header
(`blockAt`), in some order of the headers (`Arranged`).

* `arranged_load`: loading a workspace arranges its headers by path;
* `Arranged.reload`: a reload moves the block of its header to the end;
* `arranged_reloads`: so, after any reloads, headers that were not reloaded come
  first, by path, then the others in the order of their last reload;
* `Arranged.filter_source`, `Arranged.find?`, `Arranged.perm`: what an arrangement
  says of the entries of one file, of look-ups, and of another arrangement of the
  same texts.
-/

namespace ScriptService

/-! ## Texts of headers -/

/-- The text of the header of a language at a path from a directory, if one is found there and can be
read. -/
def headerText? (files : Files) (dir : Path) (l : Language) (path : String) : Option String :=
  match findFiles files dir l.headerExtension with
  | .error _ => none
  | .ok names =>
    if path ∈ names then
      match sourceText files (dir.join (Path.ofString path)) with
      | .ok text => text
      | .error _ => none
    else none

/-- The symbols that the header at a path declares, where `texts` has the texts of the headers. -/
def declaredAt (l : Language) (texts : String → Option String) (path : String) : List Symbol :=
  (texts path).elim [] fun text => (l.extractor text path).symbols

/-- What the header at a path adds to the bucket of its language. -/
def blockAt (l : Language) (texts : String → Option String) (path : String) : Bucket :=
  Bucket.ofSymbols (declaredAt l texts path)

/-- Texts of headers once some of them, in order, have changed. -/
def editedTexts (texts : String → Option String) (edits : List (String × String)) :
    String → Option String :=
  edits.foldl (fun texts e => Function.update texts e.1 (some e.2)) texts

theorem source_of_mem_declaredAt {l : Language} {texts : String → Option String} {path : String}
    {x : Symbol} (h : x ∈ declaredAt l texts path) : x.source = path := by
  rw [declaredAt] at h
  cases e : texts path with
  | none => simp [e] at h
  | some text =>
    rw [e] at h
    exact Language.source_of_mem_symbols h

theorem source_of_mem_blockAt {l : Language} {texts : String → Option String} {path : String}
    {x : Symbol} (h : x ∈ blockAt l texts path) : x.source = path :=
  source_of_mem_declaredAt (Bucket.mem_of_mem_ofSymbols h)

theorem blockAt_of_none (l : Language) {texts : String → Option String} {path : String}
    (h : texts path = none) : blockAt l texts path = [] := by
  rw [blockAt, declaredAt, h]
  rfl

theorem blockAt_update_of_ne (l : Language) (texts : String → Option String) {r path : String}
    (h : r ≠ path) (text : Option String) :
    blockAt l (Function.update texts path text) r = blockAt l texts r := by
  rw [blockAt, declaredAt, Function.update_of_ne h]
  rfl

/-! ## Blocks of several headers -/

section

variable (l : Language) (texts : String → Option String)

theorem key_ne_of_paths {paths : List String} {r : String} (h : r ∉ paths) :
    ∀ x ∈ declaredAt l texts r, ∀ y ∈ paths.flatMap (declaredAt l texts), x.key ≠ y.key := by
  intro x hx y hy e
  obtain ⟨p, hp, hy⟩ := List.mem_flatMap.mp hy
  have hxy : x.source = y.source := congrArg Prod.snd e
  rw [source_of_mem_declaredAt hx, source_of_mem_declaredAt hy] at hxy
  exact h (hxy ▸ hp)

/-- The bucket of several headers is made of their blocks. -/
theorem ofSymbols_flatMap {paths : List String} (h : paths.Nodup) :
    Bucket.ofSymbols (paths.flatMap (declaredAt l texts)) = paths.flatMap (blockAt l texts) := by
  induction paths with
  | nil => rfl
  | cons r paths ih =>
    obtain ⟨hr, hn⟩ := List.nodup_cons.mp h
    rw [List.flatMap_cons, List.flatMap_cons, Bucket.ofSymbols_append (key_ne_of_paths l texts hr),
      ih hn, blockAt]

/-- A header that is listed several times in a row adds what it adds once. -/
theorem ofSymbols_flatMap_dedup {paths : List String} (h : paths.Pairwise (· ≤ ·)) :
    Bucket.ofSymbols (paths.flatMap (declaredAt l texts)) =
      Bucket.ofSymbols (paths.dedup.flatMap (declaredAt l texts)) := by
  induction paths with
  | nil => rfl
  | cons r paths ih =>
    obtain ⟨hr, hp⟩ := List.pairwise_cons.mp h
    by_cases hm : r ∈ paths
    · -- by order, the next path is the same one
      obtain ⟨rest, rfl⟩ : ∃ rest, paths = r :: rest := by
        obtain _ | ⟨q, rest⟩ := paths
        · cases hm
        · have hq : q ≤ r := by
            rcases List.mem_cons.mp hm with rfl | hm
            · exact le_rfl
            · exact (List.pairwise_cons.mp hp).1 r hm
          exact ⟨rest, by rw [le_antisymm (hr q List.mem_cons_self) hq]⟩
      have htwice : Bucket.ofSymbols (declaredAt l texts r ++ declaredAt l texts r) =
          Bucket.ofSymbols (declaredAt l texts r) := by
        rw [Bucket.ofSymbols_append_eq_putAll]
        exact Bucket.putAll_of_withKey? (Bucket.distinct_ofSymbols _) fun x _ =>
          Bucket.withKey?_ofSymbols _ _
      rw [List.dedup_cons_of_mem hm, ← ih hp, List.flatMap_cons, List.flatMap_cons,
        ← List.append_assoc, Bucket.ofSymbols_append_eq_putAll, htwice,
        ← Bucket.ofSymbols_append_eq_putAll]
    · rw [List.dedup_cons_of_notMem hm, List.flatMap_cons, List.flatMap_cons,
        Bucket.ofSymbols_append (key_ne_of_paths l texts hm),
        Bucket.ofSymbols_append (key_ne_of_paths l texts (by rwa [List.mem_dedup])), ih hp]

theorem filter_source_flatMap {paths : List String} (h : paths.Nodup) (r : String) :
    (paths.flatMap (blockAt l texts)).filter (·.source = r) =
      if r ∈ paths then blockAt l texts r else [] := by
  induction paths with
  | nil => rfl
  | cons p paths ih =>
    obtain ⟨hp, hn⟩ := List.nodup_cons.mp h
    rw [List.flatMap_cons, List.filter_append, ih hn]
    by_cases e : r = p
    · subst e
      rw [if_neg hp, if_pos List.mem_cons_self, List.append_nil, List.filter_eq_self]
      exact fun x hx => by simpa using source_of_mem_blockAt hx
    · have hnone : (blockAt l texts p).filter (·.source = r) = [] := by
        rw [List.filter_eq_nil_iff]
        intro x hx
        rw [source_of_mem_blockAt hx]
        simpa using Ne.symm e
      simp only [hnone, List.nil_append, List.mem_cons, e, false_or]

theorem filter_source_ne_flatMap (paths : List String) (r : String) :
    (paths.flatMap (blockAt l texts)).filter (·.source ≠ r) =
      (paths.filter (· ≠ r)).flatMap (blockAt l texts) := by
  induction paths with
  | nil => rfl
  | cons p paths ih =>
    rw [List.flatMap_cons, List.filter_append, ih]
    by_cases e : p = r
    · have hnone : (blockAt l texts p).filter (·.source ≠ r) = [] := by
        rw [List.filter_eq_nil_iff]
        intro x hx
        simpa [e] using (source_of_mem_blockAt hx).trans e
      rw [hnone, List.filter_cons_of_neg (by simpa using e), List.nil_append]
    · have hall : (blockAt l texts p).filter (·.source ≠ r) = blockAt l texts p := by
        rw [List.filter_eq_self]
        intro x hx
        simpa [source_of_mem_blockAt hx] using e
      rw [hall, List.filter_cons_of_pos (by simpa using e), List.flatMap_cons]

theorem find?_flatMap (paths : List String) (name : String) :
    Bucket.find? (paths.flatMap (blockAt l texts)) name =
      paths.reverse.findSome? fun r => Bucket.find? (declaredAt l texts r) name := by
  induction paths with
  | nil => rfl
  | cons r paths ih =>
    rw [List.flatMap_cons, Bucket.find?_append, ih, List.reverse_cons, List.findSome?_append, blockAt,
      Bucket.find?_ofSymbols fun x hx => source_of_mem_declaredAt hx]
    simp

end

/-! ## Arrangements -/

/-- A bucket is made of the blocks of all headers, in a given order. -/
structure Arranged (l : Language) (texts : String → Option String) (order : List String)
    (b : Bucket) : Prop where
  nodup : order.Nodup
  mem : ∀ r, r ∈ order ↔ (texts r).isSome
  eq : b = order.flatMap (blockAt l texts)

namespace Arranged

variable {l : Language} {texts : String → Option String} {order order' : List String} {b b' : Bucket}

theorem distinct (h : Arranged l texts order b) : Bucket.Distinct b := by
  rw [h.eq, ← ofSymbols_flatMap l texts h.nodup]
  exact Bucket.distinct_ofSymbols _

/-- The entries of a file are those of its text. -/
theorem filter_source (h : Arranged l texts order b) (r : String) :
    b.filter (·.source = r) = blockAt l texts r := by
  rw [h.eq, filter_source_flatMap l texts h.nodup]
  split
  · rfl
  · rename_i hr
    exact (blockAt_of_none l (by simpa [h.mem] using hr)).symm

/-- The last header that declares a name answers for it, with its last declaration. -/
theorem find? (h : Arranged l texts order b) (name : String) :
    Bucket.find? b name =
      order.reverse.findSome? fun r => Bucket.find? (declaredAt l texts r) name := by
  rw [h.eq, find?_flatMap]

/-- Arrangements of the same texts hold the same entries. -/
theorem perm (h : Arranged l texts order b) (h' : Arranged l texts order' b') : b.Perm b' := by
  have ho : order.Perm order' :=
    (List.perm_ext_iff_of_nodup h.nodup h'.nodup).mpr fun r => by rw [h.mem, h'.mem]
  rw [h.eq, h'.eq]
  exact ho.flatMap_right _

/-- A reload moves the block of its header to the end. -/
theorem reload (h : Arranged l texts order b) (path text : String) :
    Arranged l (Function.update texts path (some text)) (order.filter (· ≠ path) ++ [path])
      (Bucket.reload b path text l.extractor) := by
  refine ⟨?_, fun r => ?_, ?_⟩
  · refine (h.nodup.filter _).append (List.nodup_singleton _) fun r hr hp => ?_
    rw [List.mem_singleton] at hp
    simp [hp] at hr
  · by_cases hr : r = path
    · subst hr
      simp
    · simp [hr, h.mem]
  · have hkept : b.filter (·.source ≠ path) =
        (order.filter (· ≠ path)).flatMap (blockAt l (Function.update texts path (some text))) := by
      rw [h.eq, filter_source_ne_flatMap]
      refine List.flatMap_congr fun r hr => ?_
      rw [blockAt_update_of_ne l texts (by simpa using (List.mem_filter.mp hr).2)]
    rw [Bucket.reload_eq_append, Bucket.ofSymbols_of_distinct (h.distinct.filter _), hkept,
      l.map_withSource_symbols, List.flatMap_append, List.flatMap_singleton, blockAt, declaredAt, Function.update_self]
    rfl

end Arranged

/-! ## Loading a workspace -/

/-- The symbols of a workspace's headers are those of their texts, file by file. -/
theorem loadHeaders_eq {files : Files} {dir : Path} {l : Language} {symbols : List Symbol}
    (h : loadHeaders files dir l.id = .ok symbols) :
    ∃ names : List String, names.Pairwise (· ≤ ·) ∧
      (∀ r, (headerText? files dir l r).isSome → r ∈ names) ∧
      symbols = names.flatMap (declaredAt l (headerText? files dir l)) := by
  rw [loadHeaders, serving?_id] at h
  simp only [bind_eq_ok] at h
  obtain ⟨names, hnames, parts, hparts, h⟩ := h
  obtain rfl := Except.ok.inj h
  refine ⟨names, findFiles_sorted hnames, fun r hr => ?_, ?_⟩
  · by_contra hn
    simp [headerText?, hnames, hn] at hr
  · rw [mapM_eq_map (g := declaredAt l (headerText? files dir l)) (fun r hr part hp => ?_) hparts]
    · rfl
    · rw [headerSymbols, bind_eq_ok] at hp
      obtain ⟨text, htext, hp⟩ := hp
      rw [declaredAt, headerText?, hnames]
      simp only [hr, if_true, htext]
      cases text <;> exact (Except.ok.inj hp).symm

/-- Loading a workspace arranges its headers by path. -/
theorem arranged_load {i j : Index} {n : Nat} {files : Files} {dir : Path} {l : Language}
    (h : i.loadWorkspace files dir l.id = .ok (n, j)) :
    ∃ order : List String, order.Pairwise (· < ·) ∧
      Arranged l (headerText? files dir l) order (j.getDynamic l.id) := by
  obtain ⟨symbols, hsymbols, rfl⟩ := Index.loadWorkspace_eq_ok h
  obtain ⟨names, hsorted, hnames, rfl⟩ := loadHeaders_eq hsymbols
  have hlt : names.dedup.Pairwise (· < ·) :=
    ((hsorted.sublist (List.dedup_sublist names)).sortedLE.sortedLT_of_nodup (List.nodup_dedup names)).pairwise
  refine ⟨names.dedup.filter fun r => (headerText? files dir l r).isSome, hlt.filter _, ?_, ?_, ?_⟩
  · exact (List.nodup_dedup names).filter _
  · intro r
    simp only [List.mem_filter, List.mem_dedup]
    exact ⟨And.right, fun hr => ⟨hnames r hr, hr⟩⟩
  · rw [Index.getDynamic_setDynamic, if_pos rfl, ofSymbols_flatMap_dedup l _ hsorted,
      ofSymbols_flatMap l _ (List.nodup_dedup names)]
    -- headers without a text have empty blocks
    induction names.dedup with
    | nil => rfl
    | cons r rest ih =>
      rw [List.flatMap_cons, ih]
      cases e : headerText? files dir l r with
      | none => rw [blockAt_of_none l e, List.filter_cons_of_neg (by simp [e]), List.nil_append]
      | some text => rw [List.filter_cons_of_pos (by simp [e]), List.flatMap_cons]

/-! ## Runs of reloads -/

/-- The service after the reloads of some files, in order. -/
def Service.reloadFiles (s : Service) (language : String) (edits : List (String × String)) : Service :=
  edits.foldl (fun s e => s.reloadFile e.1 language e.2) s

theorem getDynamic_reloadFile_header (s : Service) {l : Language} {path language : String}
    (hl : Language.serving? language = some l) (hp : l.isHeader (Path.ofString path) = true)
    (text : String) :
    (s.reloadFile path language text).index.getDynamic l.id =
      Bucket.reload (s.index.getDynamic l.id) path text l.extractor := by
  rw [Service.reloadFile, hl]
  simp only [hp, if_true]
  rw [Index.getDynamic_setDynamic, if_pos rfl,
    Bucket.ofSymbols_of_distinct (Bucket.distinct_reload ..)]

theorem dedup_concat (xs : List String) (p : String) :
    (xs ++ [p]).dedup = xs.dedup.filter (· ≠ p) ++ [p] := by
  induction xs with
  | nil => simp
  | cons x xs ih =>
    rw [List.cons_append]
    by_cases hx : x ∈ xs
    · rw [List.dedup_cons_of_mem (List.mem_append_left _ hx), List.dedup_cons_of_mem hx, ih]
    · rw [List.dedup_cons_of_notMem hx]
      by_cases hp : x = p
      · rw [List.dedup_cons_of_mem (by simp [hp]), ih, List.filter_cons_of_neg (by simpa using hp)]
      · rw [List.dedup_cons_of_notMem (by simp [hx, hp]), ih,
          List.filter_cons_of_pos (by simpa using hp), List.cons_append]

/-- After some reloads, headers that were not reloaded come first, then the others in the order of
their last reload. -/
theorem arranged_reloads {s : Service} {l : Language} {language : String}
    (hl : Language.serving? language = some l) {texts : String → Option String} {order : List String}
    (h : Arranged l texts order (s.index.getDynamic l.id)) {edits : List (String × String)}
    (he : ∀ e ∈ edits, l.isHeader (Path.ofString e.1) = true) :
    Arranged l (editedTexts texts edits)
      (order.filter (· ∉ edits.map Prod.fst) ++ (edits.map Prod.fst).dedup)
      ((s.reloadFiles language edits).index.getDynamic l.id) := by
  induction edits using List.reverseRecOn with
  | nil => simpa [editedTexts, Service.reloadFiles] using h
  | append_singleton edits e ih =>
    have ih := (ih fun d hd => he d (List.mem_append_left _ hd)).reload e.1 e.2
    have hkept : order.filter (fun r => decide (r ≠ e.1) && decide (r ∉ edits.map Prod.fst)) =
        order.filter (· ∉ edits.map Prod.fst ++ [e.1]) :=
      List.filter_congr fun r _ => by
        rw [Bool.eq_iff_iff]
        simp only [Bool.and_eq_true, decide_eq_true_iff, List.mem_append, List.mem_singleton, not_or]
        exact and_comm
    rw [← getDynamic_reloadFile_header _ hl (he e (by simp)), List.filter_append, List.append_assoc,
      List.filter_filter, hkept] at ih
    simpa only [Service.reloadFiles, editedTexts, List.foldl_append, List.foldl_cons, List.foldl_nil,
      List.map_append, List.map_cons, List.map_nil, dedup_concat] using ih

/-- Loading the headers of a workspace and then reloading some of them, in any order and any number of
times, leaves what their last texts declare: the bucket holds the block of each header, those that
were never reloaded by path and behind them the others by their last reload. It has the entries that
loading headers with these texts by path gives, and the last header of this order that declares a
name answers for it. -/
theorem reloads_refine_rebuild {s : Service} {files : Files} {root : Path} {l : Language} {n : Nat}
    {i : Index} (hload : s.index.loadWorkspace files root l.id = .ok (n, i)) {language : String}
    (hl : Language.serving? language = some l) {edits : List (String × String)}
    (he : ∀ e ∈ edits, l.isHeader (Path.ofString e.1) = true) :
    ∃ kept : List String, kept.Pairwise (· < ·) ∧
      (∀ r, r ∈ kept ↔ (headerText? files root l r).isSome ∧ r ∉ edits.map Prod.fst) ∧
      let texts := editedTexts (headerText? files root l) edits
      let order := kept ++ (edits.map Prod.fst).dedup
      let b := (Service.reloadFiles { s with index := i } language edits).index.getDynamic l.id
      (∀ r, b.filter (·.source = r) = blockAt l texts r) ∧
      b = order.flatMap (blockAt l texts) ∧
      (∀ paths : List String, paths.Pairwise (· < ·) → (∀ r, r ∈ paths ↔ (texts r).isSome) →
        b.Perm (Bucket.ofSymbols (paths.flatMap (declaredAt l texts)))) ∧
      (∀ (files' : Files) (root' : Path) (j k : Index) (m : Nat),
        j.loadWorkspace files' root' l.id = .ok (m, k) → headerText? files' root' l = texts →
        b.Perm (k.getDynamic l.id)) ∧
      ∀ name, b.find? name =
        order.reverse.findSome? fun r => Bucket.find? (declaredAt l texts r) name := by
  obtain ⟨order, hlt, hload⟩ := arranged_load hload
  have h := arranged_reloads (s := { s with index := i }) hl hload he
  refine ⟨order.filter (· ∉ edits.map Prod.fst), hlt.filter _, fun r => ?_, h.filter_source, h.eq,
    fun paths hp hm => ?_, fun files' root' j k m hk ht => ?_, h.find?⟩
  · rw [List.mem_filter, hload.mem, decide_eq_true_iff]
  · have hn : paths.Nodup := hp.imp ne_of_lt
    exact h.perm ⟨hn, hm, ofSymbols_flatMap l _ hn⟩
  · obtain ⟨order', -, h'⟩ := arranged_load hk
    exact h.perm (ht ▸ h')

/-- A workspace with one header. -/
def oneHeader : Files :=
  ⟨.directory [("a.h", .file (Text.encodeUtf8 "#define A 1\n".toList))], ⟨.root, []⟩, 900⟩

/-- Edits of a new header and of the one that is there. -/
def twoEdits : List (String × String) :=
  [("b.h", "#define A 2\n"), ("a.h", "#define A 3\n")]

theorem oneHeader_reloads_refine_rebuild :
    ∃ n i, Index.loadWorkspace {} oneHeader ⟨.root, []⟩ Language.falloutSsl.id = .ok (n, i) ∧
      Bucket.find? ((Service.reloadFiles { root := ⟨.root, []⟩, index := i } "fallout-ssl"
        twoEdits).index.getDynamic Language.falloutSsl.id) "A" =
        some { name := "A", kind := .constant, detail := "3", source := "a.h", value := "3" } := by
  have hload : Index.loadWorkspace {} oneHeader ⟨.root, []⟩ Language.falloutSsl.id =
      .ok (1, { dynamic := [("fallout-ssl", [{ name := "A", kind := .constant, detail := "1",
                                               source := "a.h", value := "1" }])] }) := by
    decide +kernel
  have hl : Language.serving? "fallout-ssl" = some .falloutSsl := rfl
  have he : ∀ e ∈ twoEdits, Language.falloutSsl.isHeader (Path.ofString e.1) = true := by
    decide +kernel
  obtain ⟨kept, -, -, -, -, -, -, hfind⟩ :=
    reloads_refine_rebuild (s := { root := ⟨.root, []⟩ }) hload hl he
  refine ⟨_, _, hload, (hfind "A").trans ?_⟩
  -- `a.h` was reloaded last
  have horder : (twoEdits.map Prod.fst).dedup.reverse = ["a.h", "b.h"] := by decide +kernel
  have hlast : Bucket.find? (declaredAt .falloutSsl
      (editedTexts (headerText? oneHeader ⟨.root, []⟩ .falloutSsl) twoEdits) "a.h") "A" =
      some { name := "A", kind := .constant, detail := "3", source := "a.h", value := "3" } := by
    decide +kernel
  rw [List.reverse_append, List.findSome?_append, horder, List.findSome?_cons, hlast]
  rfl

end ScriptService
