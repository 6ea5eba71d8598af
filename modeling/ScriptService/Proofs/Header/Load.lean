import Mathlib.Data.String.Basic
import ScriptService.Header.Load
import ScriptService.Proofs.Declaration.Extract
import ScriptService.Proofs.Failure
import ScriptService.Proofs.Files.Tree

/-!
# What loading headers comes to

A load that succeeds replaces the dynamic bucket of a language (`loadWorkspace_eq_ok`)
or adds to a static one (`loadExternal_eq_ok`). Files are found in the order of
their paths (`findFiles_sorted`), which lead on from the directory and have the
extension that was asked for (`FoundBelow`, `foundBelow_of_mem_findFiles`), and each
symbol that is loaded was read in a file that was found (`mem_loadHeaders`). A load is
put together from the files that are found, in whatever order a search meets them
(`findFiles_of_sorted`), and from what each of them declares (`loadHeaders_eq_ok`). A
header directory that is used does not lie in the workspace (`checkExternal_eq_ok`).
-/

namespace ScriptService

theorem serving?_id (l : Language) : Language.serving? l.id = some l := by
  cases l <;> rfl

theorem Language.id_inj {l m : Language} (h : l.id = m.id) : l = m := by
  have hl := serving?_id l
  rw [h, serving?_id m] at hl
  exact (Option.some.inj hl).symm

theorem dottedExtension_header (l : Language) :
    dottedExtension l.headerExtension = "." ++ l.headerExtension := by
  cases l <;> decide +kernel

theorem findFiles_of_directory {files : Files} {dir : Path} {es : List (String × Node)}
    (h : files.probe dir = .ok (some (.directory es))) (extension : String) :
    findFiles files dir extension =
      (Node.searchSteps (hasExtension extension) (.directory es)).forM (files.searchStep dir) >>= fun _ =>
        .ok (listing extension es) := by
  rw [findFiles, h]
  rfl

/-- A search that succeeds lists what stands below a directory, if there is one. -/
theorem findFiles_eq_ok {files : Files} {dir : Path} {extension : String} {names : List String}
    (h : findFiles files dir extension = .ok names) :
    ∃ node, files.probe dir = .ok node ∧
      ((∃ es, node = some (.directory es) ∧ names = listing extension es) ∨
        (∀ es, node ≠ some (.directory es)) ∧ names = []) := by
  have hsteps := h
  rw [findFiles, bind_eq_ok] at hsteps
  obtain ⟨node, hnode, hsteps⟩ := hsteps
  rw [asFailure_eq_ok] at hnode
  refine ⟨node, hnode, ?_⟩
  rcases node with _ | ⟨bytes⟩ | ⟨es⟩
  · exact .inr ⟨nofun, (Except.ok.inj hsteps).symm⟩
  · exact .inr ⟨nofun, (Except.ok.inj hsteps).symm⟩
  · rw [findFiles_of_directory hnode, bind_eq_ok] at h
    obtain ⟨-, -, h⟩ := h
    exact .inl ⟨es, rfl, (Except.ok.inj h).symm⟩

/-- The files below a directory with an extension, in the order in which a search meets them. -/
def filesMet (files : Files) (dir : Path) (extension : String) : Except Failure (List String) := do
  match ← asFailure .file (files.probe dir) with
  | some (.directory es) =>
    (Node.searchSteps (hasExtension extension) (.directory es)).forM (files.searchStep dir)
    .ok (((Node.entryFiles es).filter fun names =>
      Path.lowerSuffix ⟨.relative, names⟩ = dottedExtension extension).map relativeText)
  | _ => .ok []

/-- Files that a search meets in order are listed as it meets them. -/
theorem findFiles_of_sorted {files : Files} {dir : Path} {extension : String} {names : List String}
    (h : filesMet files dir extension = .ok names) (hsorted : names.Pairwise (· ≤ ·)) :
    findFiles files dir extension = .ok names := by
  rw [filesMet, bind_eq_ok] at h
  obtain ⟨node, hnode, h⟩ := h
  rw [findFiles, hnode, ok_bind]
  rcases node with _ | ⟨bytes⟩ | ⟨es⟩
  · exact h
  · exact h
  · rw [bind_eq_ok] at h
    obtain ⟨_, hsteps, h⟩ := h
    obtain rfl := Except.ok.inj h
    dsimp only
    rw [hsteps, ok_bind, listing, List.mergeSort_of_pairwise]
    exact hsorted.imp fun hle => by rw [decide_eq_false (not_lt.mpr hle), Bool.not_false]

theorem findFiles_sorted {files : Files} {dir : Path} {extension : String} {names : List String}
    (h : findFiles files dir extension = .ok names) : names.Pairwise (· ≤ ·) := by
  obtain ⟨node, -, ⟨es, -, rfl⟩ | ⟨-, rfl⟩⟩ := findFiles_eq_ok h
  · refine (List.pairwise_mergeSort (fun a b c hab hbc => ?_) (fun a b => ?_) _).imp fun hab => ?_
    · simp only [Bool.not_eq_true', decide_eq_false_iff_not, not_lt] at hab hbc ⊢
      exact hab.trans hbc
    · simp only [Bool.or_eq_true, Bool.not_eq_true', decide_eq_false_iff_not, not_lt]
      exact le_total a b
    · simpa only [Bool.not_eq_true', decide_eq_false_iff_not, not_lt] using hab
  · exact .nil

theorem relativeText_eq {names : List String} (hne : names ≠ []) :
    relativeText names = Path.text ⟨.relative, names⟩ := by
  cases names with
  | nil => exact absurd rfl hne
  | cons name names => exact String.empty_append.symm

theorem ofString_relativeText {names : List String} (hne : names ≠ [])
    (h : Path.Named ⟨.relative, names⟩) : Path.ofString (relativeText names) = ⟨.relative, names⟩ := by
  rw [relativeText_eq hne, Path.ofString_text h]

/-- A path leads on from a directory to a file with an extension, and never back. -/
structure FoundBelow (extension : String) (p : Path) : Prop where
  relative : p.anchor = .relative
  normal : p.Normal
  suffix : p.lowerSuffix = dottedExtension extension

/-- Files are found below the directory, with the extension that was asked for. -/
theorem foundBelow_of_mem_findFiles {files : Files} (hf : files.Sound) {dir : Path} {extension : String}
    {names : List String} (h : findFiles files dir extension = .ok names) {name : String}
    (hname : name ∈ names) : FoundBelow extension (Path.ofString name) := by
  obtain ⟨node, hnode, ⟨es, rfl, rfl⟩ | ⟨-, rfl⟩⟩ := findFiles_eq_ok h
  · rw [listing, List.mem_mergeSort, List.mem_map] at hname
    obtain ⟨parts, hparts, rfl⟩ := hname
    obtain ⟨hparts, hsuffix⟩ := List.mem_filter.mp hparts
    have hnormal : Path.Normal ⟨.relative, parts⟩ := (hf.of_probe hnode).normal_of_mem_files hparts
    have hne : parts ≠ [] := by
      obtain ⟨e, -, rest, -, rfl⟩ := Node.mem_entryFiles.mp hparts
      exact List.cons_ne_nil e.1 rest
    rw [ofString_relativeText hne hnormal.named]
    exact ⟨rfl, hnormal, of_decide_eq_true hsuffix⟩
  · cases hname

theorem FoundBelow.isHeader {l : Language} {p : Path} (h : FoundBelow l.headerExtension p) :
    l.isHeader p = true := by
  rw [Language.isHeader, h.suffix, dottedExtension_header, decide_eq_true rfl]

theorem headerSymbols_of_read {files : Files} {dir : Path} {name text : String}
    (h : sourceText files (dir.join (Path.ofString name)) = .ok (some text)) (extract : Extractor) :
    headerSymbols files dir extract name = .ok (extract text name).symbols := by
  rw [headerSymbols, h]
  rfl

theorem loadHeaders_eq_ok {files : Files} {dir : Path} {l : Language} {names : List String}
    {parts : List (List Symbol)} (hnames : findFiles files dir l.headerExtension = .ok names)
    (hparts : names.mapM (headerSymbols files dir l.extractor) = .ok parts) :
    loadHeaders files dir l.id = .ok parts.flatten := by
  rw [loadHeaders, serving?_id]
  dsimp only
  rw [hnames, ok_bind, hparts, ok_bind]

/-- A symbol that is loaded was read in the file of its source, which was found below the directory. -/
theorem mem_loadHeaders {files : Files} {dir : Path} {language : String} {symbols : List Symbol}
    (h : loadHeaders files dir language = .ok symbols) {x : Symbol} (hx : x ∈ symbols) :
    ∃ l names text, Language.serving? language = some l ∧
      findFiles files dir l.headerExtension = .ok names ∧ x.source ∈ names ∧
      sourceText files (dir.join (Path.ofString x.source)) = .ok (some text) ∧
      x ∈ (l.extractor text x.source).symbols := by
  rw [loadHeaders] at h
  split at h
  · obtain rfl := Except.ok.inj h
    cases hx
  · rename_i l hl
    simp only [bind_eq_ok] at h
    obtain ⟨names, hnames, parts, hparts, h⟩ := h
    obtain rfl := Except.ok.inj h
    obtain ⟨part, hpart, hx⟩ := List.mem_flatten.mp hx
    obtain ⟨name, hname, hread⟩ := exists_of_mem_mapM hparts hpart
    rw [headerSymbols, bind_eq_ok] at hread
    obtain ⟨text, htext, hread⟩ := hread
    cases text with
    | none =>
      obtain rfl := Except.ok.inj hread
      cases hx
    | some text =>
      obtain rfl := Except.ok.inj hread
      obtain rfl : x.source = name := Language.source_of_mem_symbols hx
      exact ⟨l, names, text, hl, hnames, hname, htext, hx⟩

/-- A header directory that can be used is the one that was named, and does not lie in the workspace. -/
theorem checkExternal_eq_ok {files : Files} {workspace dir : String} {p : Path}
    (h : checkExternal files workspace dir = .ok p) :
    p = Path.ofString dir ∧
      (Path.resolve files.cwd p).within (Path.resolve files.cwd (Path.ofString workspace)) = false := by
  unfold checkExternal at h
  dsimp only at h
  split at h
  · cases h
  · cases h
  · cases h
  · rw [bind_eq_ok] at h
    obtain ⟨inside, hinside, h⟩ := h
    split at h
    · cases h
    · rename_i hout
      obtain rfl := Except.ok.inj h
      simp only [asFailure_eq_ok, isSubpath, bind_eq_ok] at hinside
      obtain ⟨_, -, _, -, hinside⟩ := hinside
      rw [Bool.not_eq_true, ← Except.ok.inj hinside] at hout
      exact ⟨rfl, hout⟩

namespace Index

theorem loadWorkspace_eq_ok {i j : Index} {n : Nat} {files : Files} {root : Path} {language : String}
    (h : i.loadWorkspace files root language = .ok (n, j)) :
    ∃ symbols, loadHeaders files root language = .ok symbols ∧ j = i.setDynamic language symbols := by
  rw [loadWorkspace, bind_eq_ok] at h
  obtain ⟨symbols, hs, h⟩ := h
  exact ⟨symbols, hs, (congrArg Prod.snd (Except.ok.inj h)).symm⟩

/-- The headers that are loaded were searched for. -/
theorem exists_findFiles_of_loadWorkspace {i j : Index} {n : Nat} {files : Files} {root : Path} {l : Language}
    (h : i.loadWorkspace files root l.id = .ok (n, j)) :
    ∃ found, findFiles files root l.headerExtension = .ok found := by
  obtain ⟨symbols, hsymbols, -⟩ := loadWorkspace_eq_ok h
  rw [loadHeaders, serving?_id] at hsymbols
  obtain ⟨found, hfound, -⟩ := bind_eq_ok.mp hsymbols
  exact ⟨found, hfound⟩

/-- Headers outside the workspace are added to their tier, or nothing changes. -/
theorem loadExternal_eq_ok {i j : Index} {n : Nat} {files : Files} {workspace : String} {dir : Value}
    {language : String} (h : i.loadExternal files workspace dir language = .ok (n, j)) :
    j = i ∨ ∃ d p symbols, dir = .text d ∧ checkExternal files workspace d = .ok p ∧
      loadHeaders files p language = .ok symbols ∧
      j = i.setStatic language (i.getStatic language ++ symbols) := by
  unfold loadExternal at h
  split at h
  · exact .inl (congrArg Prod.snd (Except.ok.inj h)).symm
  · split at h
    · rename_i d _
      split at h
      · exact .inl (congrArg Prod.snd (Except.ok.inj h)).symm
      · cases h
      · rename_i p hp
        rw [bind_eq_ok] at h
        obtain ⟨symbols, hs, h⟩ := h
        exact .inr ⟨d, p, symbols, rfl, hp, hs, (congrArg Prod.snd (Except.ok.inj h)).symm⟩
    · cases h

end Index

end ScriptService
