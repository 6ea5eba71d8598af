import ScriptService.Proofs.Files.Reach
import ScriptService.Proofs.Index.Basic

/-!
# Loading headers from outside the workspace

A load of headers has a result just where a search for them gets everywhere below the
directory (`loadHeaders_isOk_iff`): a NUL is the one thing in a path that stops the
reading of a file, and no name in a file system has one. So a directory that is set is
refused (`loadExternal_refused`), or its headers are added to one bucket of the static
tier (`loadExternal_added`), which is all that changes (`Index.Adds`), or the search
fails. To add headers once more changes nothing, as the last symbol of each key is there
already (`Bucket.ofSymbols_append_again`).

Main statement: `loadExternal_framed`.
-/

namespace ScriptService

/-! ## Lookups and NUL -/

namespace Files

theorem walk_ne_nul {path : String} {stack : List Node} {names : List String} :
    walk path stack names ≠ .error .nulInPath := by
  intro h
  fun_induction walk path stack names with
  | case1 | case2 | case3 | case6 | case7 => cases h
  | case4 _ _ _ _ _ ih | case5 _ _ _ _ ih | case8 _ _ _ _ _ _ _ _ _ ih => exact ih h

/-- Only a NUL in a path makes a lookup fail for one. -/
theorem nul_mem_of_lookup {f : Files} {path : String} (h : f.lookup path = .error .nulInPath) :
    '\x00' ∈ path.toList := by
  by_contra hnul
  rw [lookup_eq, if_neg (by simpa using hnul)] at h
  split at h
  · cases h
  split at h
  · cases h
  obtain hstart | ⟨start, -, h⟩ := bind_eq_error.mp h
  · split at hstart
    · cases hstart
    · exact walk_ne_nul hstart
  · obtain hwalk | ⟨out, -, hout⟩ := bind_eq_error.mp h
    · exact walk_ne_nul hwalk
    · cases out <;> cases hout

/-- What can be looked up has no NUL in its path. -/
theorem nul_not_mem_of_isDirectory {f : Files} {p : Path} (h : f.isDirectory p = .ok true) :
    '\x00' ∉ p.text.toList ∧ ∃ es, f.probe p = .ok (some (.directory es)) := by
  rw [isDirectory] at h
  cases hprobe : f.probe p with
  | error e =>
    rw [hprobe] at h
    cases h
  | ok n =>
    rw [hprobe] at h
    rcases n with _ | ⟨bytes⟩ | ⟨es⟩
    · cases h
    · cases h
    · refine ⟨?_, es, rfl⟩
      rw [probe] at hprobe
      split at hprobe
      · rename_i n hn
        exact (lookup_eq_ok_iff.mp hn).1
      · cases hprobe
      · cases hprobe

end Files

/-! ## Loads that have a result -/

theorem sourceText_isOk (files : Files) {p : Path} (h : '\x00' ∉ p.text.toList) :
    ∃ text, sourceText files p = .ok text := by
  unfold sourceText
  split
  · exact ⟨_, rfl⟩
  · rename_i hread
    rw [Files.read, bind_eq_error] at hread
    obtain hstat | ⟨n, -, hn⟩ := hread
    · exact absurd (Files.nul_mem_of_lookup hstat) h
    · cases n <;> cases hn
  · exact ⟨_, rfl⟩

/-- The headers below a directory that can be looked up are loaded just if a search for them gets
everywhere. -/
theorem loadHeaders_isOk_iff {files : Files} (hf : files.Proper) {dir : Path} {node : Option Node}
    (hnode : files.probe dir = .ok node) (hdir : '\x00' ∉ dir.text.toList) {language : String} :
    (∃ symbols, loadHeaders files dir language = .ok symbols) ↔
      ∀ l, Language.serving? language = some l → files.Reaches dir l.headerExtension := by
  rw [loadHeaders]
  split
  · rename_i hl
    exact iff_of_true ⟨[], rfl⟩ fun l h => by cases hl.symm.trans h
  · rename_i l hl
    rw [hl]
    simp only [Option.some.injEq, forall_eq']
    rw [← findFiles_isOk_iff hf hnode]
    cases hfound : findFiles files dir l.headerExtension with
    | error e => exact iff_of_false not_exists_error_eq_ok not_exists_error_eq_ok
    | ok names =>
      refine iff_of_true ?_ ⟨names, rfl⟩
      rw [ok_bind]
      cases hparts : names.mapM (headerSymbols files dir l.extractor) with
      | ok parts => exact ⟨parts.flatten, rfl⟩
      | error e =>
        obtain ⟨name, hname, hfail⟩ := exists_of_mapM_eq_error hparts
        obtain ⟨n, hn, way, bytes, hne, hbelow, rfl, -⟩ := ((findFiles_exact hf hfound).2 name).mp hname
        have hproper := hf.of_probe hn
        have hway := Node.mem_files_of_below? hbelow
        have hnul : '\x00' ∉ (dir.join (Path.ofString (relativeText way))).text.toList := by
          have hnames := (hproper.sound.normal_of_mem_files hway).named
          rw [ofString_relativeText hne hnames, Path.join_of_relative rfl,
            Path.mem_text (by decide) (by decide)]
          rw [Path.mem_text (by decide) (by decide)] at hdir
          rintro ⟨s, hs, hc⟩
          rcases List.mem_append.mp hs with hs | hs
          · exact hdir ⟨s, hs, hc⟩
          · exact hproper.nul_not_mem hway hs hc
        obtain ⟨text, htext⟩ := sourceText_isOk files hnul
        rw [headerSymbols, htext, ok_bind] at hfail
        cases text <;> cases hfail

/-- A search that does not get everywhere fails the load of the headers. -/
theorem loadHeaders_out_of_reach {files : Files} (hf : files.Proper) {dir : Path} {node : Option Node}
    (hnode : files.probe dir = .ok node) {language : String} {l : Language}
    (hl : Language.serving? language = some l) (h : ¬ files.Reaches dir l.headerExtension) :
    ∃ e, loadHeaders files dir language = .error e ∧ IsSearchFailure e := by
  obtain ⟨e, he, hfailure⟩ := findFiles_out_of_reach hf hnode h
  refine ⟨e, ?_, hfailure⟩
  rw [loadHeaders, hl]
  dsimp only
  rw [he, error_bind]

/-! ## The header directory -/

section

variable (files : Files) (workspace d : String)

/-- Whether a directory lies in the workspace. -/
def liesInside : Bool :=
  (Path.resolve files.cwd (Path.ofString d)).within (Path.resolve files.cwd (Path.ofString workspace))

variable {files workspace d}

theorem checkExternal_of_ne (h : files.isDirectory (Path.ofString d) ≠ .ok true) :
    ∃ e, checkExternal files workspace d = .error (.headers e) := by
  unfold checkExternal
  dsimp only
  split
  · exact ⟨_, rfl⟩
  · exact ⟨_, rfl⟩
  · exact ⟨_, rfl⟩
  · rename_i hdir
    exact absurd hdir h

theorem checkExternal_of_isDirectory (h : files.isDirectory (Path.ofString d) = .ok true) :
    checkExternal files workspace d =
      if '\x00' ∈ workspace.toList then .error (.file .nulInPath)
      else if liesInside files workspace d then .error (.headers ⟨d, .insideWorkspace workspace⟩)
      else .ok (Path.ofString d) := by
  have hnul := (Files.nul_not_mem_of_isDirectory h).1
  have houter : '\x00' ∈ (Path.ofString workspace).text.toList ↔ '\x00' ∈ workspace.toList := by
    rw [Path.mem_text (by decide) (by decide), Path.mem_parts_ofString (by decide) (by decide)]
  unfold checkExternal
  dsimp only
  rw [h]
  dsimp only
  rw [isSubpath, checkNul, checkNul, List.contains_eq_mem, List.contains_eq_mem, decide_eq_false hnul]
  by_cases hworkspace : '\x00' ∈ workspace.toList
  · rw [if_pos hworkspace, decide_eq_true (houter.mpr hworkspace)]
    rfl
  · rw [if_neg hworkspace, decide_eq_false (houter.not.mpr hworkspace)]
    rfl

end

/-! ## The static tier -/

namespace Index

/-- What loaded symbols change of an index: the static bucket of one language. -/
structure Adds (i : Index) (language : String) (symbols : List Symbol) (j : Index) : Prop where
  self : j.self = i.self
  dynamic : j.dynamic = i.dynamic
  others : ∀ m, m ≠ language → j.getStatic m = i.getStatic m
  bucket : j.getStatic language = Bucket.ofSymbols (i.getStatic language ++ symbols)
  keeps : ∀ x ∈ i.getStatic language, ∃ y ∈ j.getStatic language, y.key = x.key
  wins : ∀ x, Bucket.IsLastOfKey symbols x → Bucket.withKey? (j.getStatic language) x.key = some x

theorem adds_setStatic (i : Index) (language : String) (symbols : List Symbol) :
    i.Adds language symbols (i.setStatic language (i.getStatic language ++ symbols)) := by
  have hbucket := getStatic_setStatic i language language (i.getStatic language ++ symbols)
  rw [if_pos rfl] at hbucket
  refine ⟨rfl, rfl, fun m hm => ?_, hbucket, fun x hx => ?_, fun x hx => ?_⟩
  · rw [getStatic_setStatic, if_neg hm]
  · rw [hbucket]
    -- a key that were missing would be missing among the symbols as well
    cases hkey : Bucket.withKey? (Bucket.ofSymbols (i.getStatic language ++ symbols)) x.key with
    | some y => exact ⟨y, List.mem_of_find?_eq_some hkey, by simpa using List.find?_some hkey⟩
    | none =>
      rw [Bucket.withKey?_ofSymbols, Bucket.withKey?_eq_none] at hkey
      exact absurd (List.mem_map_of_mem (List.mem_reverse.mpr (List.mem_append_left _ hx))) hkey
  · rw [hbucket, Bucket.ofSymbols_append_eq_putAll, Bucket.withKey?_putAll,
      Bucket.withKey?_reverse_eq_some_iff.mpr hx, Option.some_or]

/-- To add symbols once more changes nothing. -/
theorem setStatic_append_again (i : Index) (language : String) (symbols : List Symbol) :
    let j := i.setStatic language (i.getStatic language ++ symbols)
    j.setStatic language (j.getStatic language ++ symbols) = j := by
  intro j
  rw [(adds_setStatic i language symbols).bucket, setStatic, Bucket.ofSymbols_append_again]
  simp only [j, setStatic, Shelf.set_set]

variable {files : Files} {workspace d : String}

theorem loadExternal_of_not_isGiven (i : Index) {dir : Value} (h : dir.isGiven = false) (language : String) :
    i.loadExternal files workspace dir language = .ok (0, i) := by
  unfold loadExternal
  rw [h]
  exact if_pos rfl

theorem loadExternal_refused (i : Index) {e : HeaderError}
    (h : checkExternal files workspace d = .error (.headers e)) (language : String) :
    i.loadExternal files workspace (.text d) language = .ok (0, i) := by
  unfold loadExternal
  split
  · rfl
  · dsimp only
    rw [h]

theorem loadExternal_added (i : Index) (hd : d ≠ "") {p : Path}
    (h : checkExternal files workspace d = .ok p) {language : String} {symbols : List Symbol}
    (hload : loadHeaders files p language = .ok symbols) :
    i.loadExternal files workspace (.text d) language =
      .ok (symbols.length, i.setStatic language (i.getStatic language ++ symbols)) := by
  have hgiven : (Value.text d).isGiven = true := by simpa [Value.isGiven] using hd
  rw [loadExternal, hgiven, if_neg (by decide), h]
  dsimp only
  rw [hload, ok_bind]

theorem loadExternal_failed (i : Index) (hd : d ≠ "") {p : Path}
    (h : checkExternal files workspace d = .ok p) {language : String} {e : Failure}
    (hload : loadHeaders files p language = .error e) :
    i.loadExternal files workspace (.text d) language = .error e := by
  have hgiven : (Value.text d).isGiven = true := by simpa [Value.isGiven] using hd
  rw [loadExternal, hgiven, if_neg (by decide), h]
  dsimp only
  rw [hload, error_bind]

/-- A load has a result for a workspace that can be looked up just if the directory that is set, if any,
is named by a text, and a search gets everywhere below it if it can be used. -/
theorem loadExternal_isOk_iff (i : Index) (hf : files.Proper) (hworkspace : '\x00' ∉ workspace.toList)
    {dir : Value} {language : String} :
    (∃ n j, i.loadExternal files workspace dir language = .ok (n, j)) ↔
      (dir.isGiven = true → ∃ d, dir = .text d ∧ ∀ p, checkExternal files workspace d = .ok p →
        ∀ l, Language.serving? language = some l → files.Reaches p l.headerExtension) := by
  by_cases hgiven : dir.isGiven = true
  · rw [imp_iff_right hgiven]
    have htext : (∃ d, dir = .text d) ∨ ∀ d, dir ≠ .text d := by
      cases dir with
      | text d => exact .inl ⟨d, rfl⟩
      | _ => exact .inr nofun
    obtain ⟨d, rfl⟩ | hno := htext
    · have hd : d ≠ "" := by simpa [Value.isGiven] using hgiven
      have hreaches : (∃ d', Value.text d = .text d' ∧ ∀ p, checkExternal files workspace d' = .ok p →
          ∀ l, Language.serving? language = some l → files.Reaches p l.headerExtension) ↔
          ∀ p, checkExternal files workspace d = .ok p →
            ∀ l, Language.serving? language = some l → files.Reaches p l.headerExtension :=
        ⟨fun ⟨_, hd', h⟩ => Value.text.inj hd' ▸ h, fun h => ⟨d, rfl, h⟩⟩
      rw [hreaches]
      by_cases hdirectory : files.isDirectory (Path.ofString d) = .ok true
      · have hcheck : checkExternal files workspace d = _ := checkExternal_of_isDirectory hdirectory
        rw [if_neg hworkspace] at hcheck
        split at hcheck
        · exact iff_of_true ⟨0, i, i.loadExternal_refused hcheck language⟩
            fun p hp => nomatch hcheck.symm.trans hp
        · obtain ⟨hnul, es, hprobe⟩ := Files.nul_not_mem_of_isDirectory hdirectory
          rw [hcheck]
          simp only [Except.ok.injEq, forall_eq']
          rw [← loadHeaders_isOk_iff hf hprobe hnul]
          cases hload : loadHeaders files (Path.ofString d) language with
          | ok symbols => exact iff_of_true ⟨_, _, i.loadExternal_added hd hcheck hload⟩ ⟨symbols, rfl⟩
          | error e =>
            rw [i.loadExternal_failed hd hcheck hload]
            exact iff_of_false nofun nofun
      · obtain ⟨e, he⟩ : ∃ e, checkExternal files workspace d = .error (.headers e) :=
          checkExternal_of_ne hdirectory
        exact iff_of_true ⟨0, i, i.loadExternal_refused he language⟩ fun p hp => nomatch he.symm.trans hp
    · have hfails : i.loadExternal files workspace dir language = .error .notText := by
        rw [loadExternal, hgiven, if_neg (by decide)]
        · exact hno
      rw [hfails]
      exact iff_of_false nofun fun ⟨d, hd, _⟩ => hno d hd
  · exact iff_of_true ⟨0, i, i.loadExternal_of_not_isGiven (Bool.eq_false_iff.mpr hgiven) language⟩
      fun h => absurd h hgiven

end Index

/-- Without a header directory, with a path at which there is no directory, and with a directory in the
workspace nothing changes and no symbol is counted. With any other directory all its headers are loaded,
if a search for them gets everywhere: of the index only the static bucket of the language changes, to that
of what it held and of the loaded symbols, so no key is lost and the last loaded symbol of each key is
found under it; to load them again changes nothing. Else the load fails, as the search does. (A workspace
with a NUL in its path is none; then nothing is loaded.) -/
theorem loadExternal_framed {files : Files} (hf : files.Proper) (i : Index) (workspace : String)
    (dir : Value) (language : String) :
    (dir.isGiven = false → i.loadExternal files workspace dir language = .ok (0, i)) ∧
      ∀ d, dir = .text d → d ≠ "" →
        (files.isDirectory (Path.ofString d) ≠ .ok true →
          i.loadExternal files workspace dir language = .ok (0, i)) ∧
        (files.isDirectory (Path.ofString d) = .ok true → '\x00' ∉ workspace.toList →
          (liesInside files workspace d = true →
            i.loadExternal files workspace dir language = .ok (0, i)) ∧
          (liesInside files workspace d = false →
            ((∀ l, Language.serving? language = some l →
                files.Reaches (Path.ofString d) l.headerExtension) → ∃ symbols j,
              loadHeaders files (Path.ofString d) language = .ok symbols ∧
                i.loadExternal files workspace dir language = .ok (symbols.length, j) ∧
                i.Adds language symbols j ∧
                j.loadExternal files workspace dir language = .ok (symbols.length, j)) ∧
            ∀ l, Language.serving? language = some l →
              ¬ files.Reaches (Path.ofString d) l.headerExtension →
                ∃ e, i.loadExternal files workspace dir language = .error e ∧ IsSearchFailure e)) ∧
        (files.isDirectory (Path.ofString d) = .ok true → '\x00' ∈ workspace.toList →
          i.loadExternal files workspace dir language = .error (.file .nulInPath)) := by
  refine ⟨fun hdir => i.loadExternal_of_not_isGiven hdir language, ?_⟩
  · rintro d rfl hd
    refine ⟨fun hno => ?_, fun hdir hworkspace => ⟨fun hin => ?_, fun hout => ?_⟩, fun hdir hworkspace => ?_⟩
    · obtain ⟨e, he⟩ := checkExternal_of_ne hno
      exact i.loadExternal_refused he language
    · have hcheck : checkExternal files workspace d = .error (.headers ⟨d, .insideWorkspace workspace⟩) := by
        rw [checkExternal_of_isDirectory hdir, if_neg hworkspace, if_pos hin]
      exact i.loadExternal_refused hcheck language
    · obtain ⟨hnul, es, hprobe⟩ := Files.nul_not_mem_of_isDirectory hdir
      have hcheck : checkExternal files workspace d = .ok (Path.ofString d) := by
        rw [checkExternal_of_isDirectory hdir, if_neg hworkspace, hout, if_neg Bool.false_ne_true]
      constructor
      · intro hreaches
        obtain ⟨symbols, hsymbols⟩ := (loadHeaders_isOk_iff hf hprobe hnul).mpr hreaches
        refine ⟨symbols, _, hsymbols, i.loadExternal_added hd hcheck hsymbols,
          i.adds_setStatic language symbols, ?_⟩
        rw [Index.loadExternal_added _ hd hcheck hsymbols, Index.setStatic_append_again]
      · intro l hl hreaches
        obtain ⟨e, he, hfailure⟩ := loadHeaders_out_of_reach hf hprobe hl hreaches
        exact ⟨e, i.loadExternal_failed hd hcheck he, hfailure⟩
    · have hgiven : (Value.text d).isGiven = true := by simpa [Value.isGiven] using hd
      rw [Index.loadExternal, hgiven, if_neg (by decide), checkExternal_of_isDirectory hdir, if_pos hworkspace]

/-- A workspace and, beside it, a directory with a header that declares a name twice. -/
def libraryFiles : Files :=
  ⟨.directory [("ws", .directory [("a.h", .file (Text.encodeUtf8 "#define A 1\n".toList))]),
    ("lib", .directory [("b.h", .file (Text.encodeUtf8 "#define B 2\n#define B 3\n".toList))])], ⟨.root, []⟩, 1⟩

theorem proper_libraryFiles : libraryFiles.Proper where
  root := by
    refine .directory (by decide) (by decide) (List.forall_mem_cons.mpr ⟨?_, List.forall_mem_singleton.mpr ?_⟩)
    · exact .directory (by decide) (by decide) (List.forall_mem_singleton.mpr (.file _))
    · exact .directory (by decide) (by decide) (List.forall_mem_singleton.mpr (.file _))
  cwd := nofun

/-- A constant of a header. -/
def headerConstant (name value source : String) (line : Int) : Symbol where
  name := name
  kind := .constant
  detail := value
  source := source
  line := line
  value := value

/-- An index with an older reading of the header, and symbols of others. -/
def olderIndex : Index where
  static := [("fallout-ssl", [headerConstant "B" "1" "b.h" 0, headerConstant "C" "1" "c.h" 0])]
  dynamic := [("fallout-ssl", [headerConstant "A" "1" "a.h" 0])]

theorem olderIndex_updated :
    libraryFiles.Proper ∧
      (∃ j, olderIndex.loadExternal libraryFiles "/ws" (.text "/lib") "fallout-ssl" = .ok (2, j) ∧
        j.getStatic "fallout-ssl" = [headerConstant "B" "3" "b.h" 1, headerConstant "C" "1" "c.h" 0] ∧
        j.dynamic = olderIndex.dynamic ∧
        j.loadExternal libraryFiles "/ws" (.text "/lib") "fallout-ssl" = .ok (2, j)) ∧
      olderIndex.loadExternal libraryFiles "/" (.text "/lib") "fallout-ssl" = .ok (0, olderIndex) ∧
      olderIndex.loadExternal libraryFiles "/ws" (.text "/none") "fallout-ssl" = .ok (0, olderIndex) ∧
      olderIndex.loadExternal libraryFiles "/ws" .null "fallout-ssl" = .ok (0, olderIndex) := by
  have hdirectory : libraryFiles.isDirectory (Path.ofString "/lib") = .ok true := by
    decide +kernel
  have hload : loadHeaders libraryFiles (Path.ofString "/lib") "fallout-ssl" =
      .ok [headerConstant "B" "2" "b.h" 0, headerConstant "B" "3" "b.h" 1] := by
    have hread : sourceText libraryFiles ((Path.ofString "/lib").join (Path.ofString "b.h")) =
        .ok (some "#define B 2\n#define B 3\n") := by
      decide +kernel
    have hnames : findFiles libraryFiles (Path.ofString "/lib") Language.falloutSsl.headerExtension =
        .ok ["b.h"] := by
      decide +kernel
    have hsymbols := headerSymbols_of_read hread Language.falloutSsl.extractor
    rw [Extraction.symbols_of_sorted (by decide +kernel)] at hsymbols
    refine (loadHeaders_eq_ok (l := .falloutSsl) hnames (by rw [List.mapM_cons, hsymbols]; rfl)).trans ?_
    decide +kernel
  have hframed := fun workspace dir =>
    loadExternal_framed proper_libraryFiles olderIndex workspace dir "fallout-ssl"
  refine ⟨proper_libraryFiles, ?_, ?_, ?_, (hframed "/ws" .null).1 rfl⟩
  · obtain ⟨-, hinside, -⟩ := (hframed "/ws" (.text "/lib")).2 "/lib" rfl (by decide)
    obtain ⟨hnul, es, hprobe⟩ := Files.nul_not_mem_of_isDirectory hdirectory
    have hreaches := (loadHeaders_isOk_iff proper_libraryFiles hprobe hnul).mp ⟨_, hload⟩
    obtain ⟨symbols, j, hsymbols, hj, hadds, hagain⟩ :=
      ((hinside hdirectory (by decide)).2 (by decide +kernel)).1 hreaches
    obtain rfl := Except.ok.inj (hload.symm.trans hsymbols)
    exact ⟨j, hj, hadds.bucket.trans (by decide +kernel), hadds.dynamic, hagain⟩
  · obtain ⟨-, hinside, -⟩ := (hframed "/" (.text "/lib")).2 "/lib" rfl (by decide)
    exact (hinside hdirectory (by decide)).1 (by decide +kernel)
  · refine ((hframed "/ws" (.text "/none")).2 "/none" rfl (by decide)).1 ?_
    simp only [Files.isDirectory, Files.probe, Files.stat, Files.lookup, List.contains_eq_mem]
    decide +kernel

/-- A directory outside the workspace with a header, which is not loaded. -/
theorem roundabout_not_loaded :
    rootHeader.isDirectory (Path.ofString (roundabout 1364).text) = .ok true ∧
      liesInside rootHeader "/ws" (roundabout 1364).text = false ∧
      ∃ e, Index.loadExternal {} rootHeader "/ws" (.text (roundabout 1364).text) "fallout-ssl" = .error e := by
  have hprobe : rootHeader.probe (roundabout 1364) = _ := probe_roundabout (by decide)
  have hdirectory : rootHeader.isDirectory (Path.ofString (roundabout 1364).text) = .ok true := by
    rw [Path.ofString_text (named_roundabout 1364), Files.isDirectory, hprobe]
    rfl
  have hinside : liesInside rootHeader "/ws" (roundabout 1364).text = false := by
    rw [liesInside, Path.ofString_text (named_roundabout 1364), resolve_roundabout]
    decide +kernel
  have hcheck : checkExternal rootHeader "/ws" (roundabout 1364).text = .ok (roundabout 1364) := by
    rw [checkExternal_of_isDirectory hdirectory, if_neg (by decide), hinside, if_neg Bool.false_ne_true,
      Path.ofString_text (named_roundabout 1364)]
  obtain ⟨e, he, -⟩ := loadHeaders_out_of_reach proper_rootHeader hprobe (serving?_id .falloutSsl)
    (not_reaches_roundabout (by decide) (by decide))
  refine ⟨hdirectory, hinside, e, Index.loadExternal_failed {} (fun h => ?_) hcheck he⟩
  have hanchor := congrArg Path.anchor (Path.ofString_text (named_roundabout 1364))
  rw [h] at hanchor
  cases hanchor

end ScriptService
