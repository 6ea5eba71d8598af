import Mathlib.Data.List.Sort
import ScriptService.Proofs.Files.Walk
import ScriptService.Proofs.Header.Load

/-!
# What a search for files finds

A file system holds no two entries of one name in a directory, and no name with a NUL
(`Node.Proper`). So each file stands at the end of just one way of names
(`Node.Proper.mem_files_iff`, `Node.Proper.nodup_files`), where it can be read if the
way is not too long (`Files.read_iff`), and no two ways are written as the same path
(`relativeText_inj`).

Main statement: `findFiles_exact`. A search that succeeds lists the paths of just the
files that have the extension, in strict order.
-/

namespace ScriptService

/-! ## Trees of a file system -/

namespace Node

/-- A tree as a file system holds it. -/
inductive Proper : Node → Prop
  | file (bytes : List UInt8) : Proper (.file bytes)
  | directory {es : List (String × Node)}
      (name : ∀ e ∈ es, Path.IsName e.1 ∧ e.1 ≠ ".." ∧ '\x00' ∉ e.1.toList)
      (nodup : (es.map Prod.fst).Nodup) (entry : ∀ e ∈ es, Proper e.2) : Proper (.directory es)

theorem Proper.sound {n : Node} (h : n.Proper) : n.Sound := by
  induction h with
  | file bytes => exact .file bytes
  | directory hname _ _ ih => exact .directory (fun e he => ⟨(hname e he).1, (hname e he).2.1⟩) ih

/-- Under distinct names each entry is found. -/
theorem lookup_eq_some_iff_mem {es : List (String × Node)} (h : (es.map Prod.fst).Nodup) {name : String}
    {n : Node} : es.lookup name = some n ↔ (name, n) ∈ es := by
  induction es with
  | nil => exact iff_of_false nofun List.not_mem_nil
  | cons e es ih =>
    obtain ⟨k, m⟩ := e
    obtain ⟨hnew, hrest⟩ := List.nodup_cons.mp h
    rw [List.lookup_cons, List.mem_cons, Prod.mk.injEq]
    by_cases hk : name = k
    · subst hk
      have hno : (name, n) ∉ es := fun hn => hnew (List.mem_map.mpr ⟨_, hn, rfl⟩)
      rw [beq_self_eq_true, or_iff_left hno, and_iff_right rfl, Option.some.injEq]
      exact eq_comm
    · rw [beq_false_of_ne hk, ih hrest]
      exact (or_iff_right fun heq => hk heq.1).symm

/-- A way leads to a file just if the file stands at its end. -/
theorem Proper.mem_files_iff {n : Node} (h : n.Proper) {names : List String} :
    names ∈ files n ↔ ∃ bytes, n.below? names = some (.file bytes) := by
  refine ⟨fun hmem => ?_, fun ⟨_, hbelow⟩ => mem_files_of_below? hbelow⟩
  induction h generalizing names with
  | file bytes =>
    obtain rfl := List.mem_singleton.mp hmem
    exact ⟨bytes, rfl⟩
  | directory _ hnodup _ ih =>
    obtain ⟨e, he, rest, hrest, rfl⟩ := mem_entryFiles.mp hmem
    obtain ⟨bytes, hbytes⟩ := ih e he hrest
    exact ⟨bytes, by rw [below?, child?, (lookup_eq_some_iff_mem hnodup).mpr he, Option.bind_some, hbytes]⟩

theorem nodup_entryFiles {es : List (String × Node)} (hnames : (es.map Prod.fst).Nodup)
    (h : ∀ e ∈ es, (files e.2).Nodup) : (entryFiles es).Nodup := by
  induction es with
  | nil => exact List.nodup_nil
  | cons e es ih =>
    obtain ⟨hnew, hrest⟩ := List.nodup_cons.mp hnames
    have hfirst := (h e List.mem_cons_self).map (List.cons_injective (a := e.1))
    refine hfirst.append (ih hrest fun e' he' => h e' (List.mem_cons_of_mem _ he')) fun names hm hm' => ?_
    obtain ⟨rest, -, rfl⟩ := List.mem_map.mp hm
    obtain ⟨e', he', rest', -, heq⟩ := mem_entryFiles.mp hm'
    exact hnew ((List.cons.inj heq).1 ▸ List.mem_map_of_mem he')

/-- No way is listed twice. -/
theorem Proper.nodup_files {n : Node} (h : n.Proper) : (files n).Nodup := by
  induction h with
  | file => exact List.nodup_singleton _
  | directory _ hnodup _ ih => exact nodup_entryFiles hnodup ih

/-- No name on the way to a file holds a NUL. -/
theorem Proper.nul_not_mem {n : Node} (h : n.Proper) {names : List String} (hmem : names ∈ files n)
    {name : String} (hname : name ∈ names) : '\x00' ∉ name.toList := by
  induction h generalizing names with
  | file bytes =>
    obtain rfl := List.mem_singleton.mp hmem
    cases hname
  | directory hnames _ _ ih =>
    obtain ⟨e, he, rest, hrest, rfl⟩ := mem_entryFiles.mp hmem
    rcases List.mem_cons.mp hname with rfl | hname
    · exact (hnames e he).2.2
    · exact ih e he hrest hname

theorem Proper.of_lookup {es : List (String × Node)} (h : Proper (.directory es)) {name : String} {n : Node}
    (hn : es.lookup name = some n) : n.Proper := by
  cases h with
  | directory _ hnodup hentry => exact hentry (name, n) ((lookup_eq_some_iff_mem hnodup).mp hn)

theorem Proper.of_below? {m n : Node} (h : m.Proper) {names : List String} (hn : m.below? names = some n) :
    n.Proper := by
  induction names generalizing m with
  | nil => exact Option.some.inj hn ▸ h
  | cons name names ih =>
    rw [below?, Option.bind_eq_some_iff] at hn
    obtain ⟨k, hk, hn⟩ := hn
    cases m with
    | file bytes => cases hk
    | directory es => exact ih (h.of_lookup hk) hn

end Node

/-- The files of a file system, seen from a directory with a path. -/
structure Files.Proper (f : Files) : Prop where
  root : f.root.Proper
  cwd : f.cwd.Named

theorem Files.Proper.of_lookup {f : Files} (hf : f.Proper) {path : String} {n : Node}
    (h : f.lookup path = .ok n) : n.Proper :=
  hf.root.of_below? (below?_of_lookup hf.cwd h)

theorem Files.Proper.of_probe {f : Files} (hf : f.Proper) {p : Path} {n : Node}
    (h : f.probe p = .ok (some n)) : n.Proper := by
  rw [probe] at h
  split at h
  · rename_i m hm
    obtain rfl := Option.some.inj (Except.ok.inj h)
    exact hf.of_lookup hm
  · cases h
  · cases h

/-! ## Files that can be opened -/

namespace Files

/-- A path and its names are short enough to be looked up. -/
def Fits (p : Path) : Prop :=
  Text.utf8Length p.text ≤ maxPathLength ∧ ∀ name ∈ p.parts, Text.utf8Length name ≤ maxNameLength

theorem length_le_of_walk {path : String} {stack out : List Node} {names : List String}
    (h : walk path stack names = .ok out) {name : String} (hname : name ∈ names)
    (hmoves : moves name = true) (hdots : name ≠ "..") : Text.utf8Length name ≤ maxNameLength := by
  fun_induction walk path stack names with
  | case1 => cases hname
  | case2 | case3 | case6 | case7 => cases h
  | case4 es above first names hfirst ih =>
    refine ih h ((List.mem_cons.mp hname).resolve_left ?_)
    rintro rfl
    exact moves_iff.mp hmoves hfirst
  | case5 es above names _ ih => exact ih h ((List.mem_cons.mp hname).resolve_left hdots)
  | case8 es above first names _ _ hlength n _ ih =>
    rcases List.mem_cons.mp hname with rfl | hname
    · exact Nat.not_lt.mp hlength
    · exact ih h hname

/-- A walk follows short names to what stands below a node. -/
theorem walk_of_below? (path : String) {n m : Node} (above : List Node) {names : List String}
    (hnames : ∀ s ∈ names, moves s = true ∧ s ≠ ".." ∧ Text.utf8Length s ≤ maxNameLength)
    (h : n.below? names = some m) : ∃ above', walk path (n :: above) names = .ok (m :: above') := by
  induction names generalizing n above with
  | nil =>
    obtain rfl := Option.some.inj h
    exact ⟨above, by rw [walk]⟩
  | cons name names ih =>
    obtain ⟨⟨hmoves, hdots, hlength⟩, hrest⟩ := List.forall_mem_cons.mp hnames
    rw [Node.below?, Option.bind_eq_some_iff] at h
    obtain ⟨k, hk, h⟩ := h
    cases n with
    | file bytes => cases hk
    | directory es =>
      rw [walk_child (moves_iff.mp hmoves) hdots (Nat.not_lt.mpr hlength) hk]
      exact ih _ hrest h

/-- A file can be read at its path, if the path is short enough. -/
theorem read_iff {f : Files} (hf : f.Proper) {p : Path} (hp : p.Normal) (ha : p.anchor = .root)
    (hne : p.parts ≠ []) {bytes : List UInt8} :
    f.read p = .ok bytes ↔ f.root.below? p.parts = some (.file bytes) ∧ Fits p := by
  have hmoves : ∀ s ∈ p.parts, moves s = true ∧ s ≠ ".." := fun s hs =>
    ⟨moves_of_isName (hp.named s hs), fun e => hp.dots (e ▸ hs)⟩
  have hpieces : (Path.piecesFrom [] p.text.toList).map String.ofList = "" :: p.parts := by
    rw [pieces_text hp.named hne, ha]
    rfl
  constructor
  · intro h
    have hbelow := below?_of_read hf.cwd hp.named h
    obtain ⟨-, -, hlength, start, above, -, hwalk⟩ := lookup_eq_ok_iff.mp (read_eq_ok_iff.mp h)
    rw [hpieces] at hwalk
    rw [Path.resolve_of_normal hp ha] at hbelow
    exact ⟨hbelow, hlength, fun name hname =>
      length_le_of_walk hwalk (List.mem_cons_of_mem _ hname) (hmoves name hname).1 (hmoves name hname).2⟩
  · rintro ⟨hbelow, hlength, hnames⟩
    have hnul : '\x00' ∉ p.text.toList := by
      rw [Path.mem_text (by decide) (by decide)]
      rintro ⟨s, hs, hc⟩
      exact hf.root.nul_not_mem (Node.mem_files_of_below? hbelow) hs hc
    have hempty : p.text ≠ "" := fun he => by
      have hslash := congrArg String.toList he
      rw [Path.text_eq p (.inr hne), ha] at hslash
      cases hslash
    obtain ⟨above, hwalk⟩ := walk_of_below? p.text []
      (fun s hs => ⟨(hmoves s hs).1, (hmoves s hs).2, hnames s hs⟩) hbelow
    refine read_eq_ok_iff.mpr (lookup_eq_ok_iff.mpr ⟨hnul, hempty, hlength, [f.root], above, ?_, ?_⟩)
    · rw [Path.ofString_text hp.named, if_pos (Path.isAbsolute_of_root ha)]
    · -- the root is a directory, at which the empty piece stays
      obtain ⟨name, names, hparts⟩ := List.exists_cons_of_ne_nil hne
      rw [hparts] at hwalk
      obtain ⟨es, above', hroot⟩ := directory_of_walk hwalk (.inl (List.cons_ne_nil name names))
      rw [hpieces, hparts, hroot, walk, if_pos (by decide), ← hroot, hwalk]

end Files

/-! ## Searches -/

theorem relativeText_inj {as bs : List String} (ha : as ≠ []) (hb : bs ≠ [])
    (hna : Path.Named ⟨.relative, as⟩) (hnb : Path.Named ⟨.relative, bs⟩)
    (h : relativeText as = relativeText bs) : as = bs := by
  have hpath := congrArg Path.ofString h
  rw [ofString_relativeText ha hna, ofString_relativeText hb hnb] at hpath
  exact congrArg Path.parts hpath

/-- The path of a file that stands below a node and has an extension. -/
def Node.Lists (n : Node) (extension path : String) : Prop :=
  ∃ names bytes, names ≠ [] ∧ n.below? names = some (.file bytes) ∧ path = relativeText names ∧
    Text.lower (Path.suffix ⟨.relative, names⟩) = dottedExtension extension

/-- A search that succeeds lists the paths of just the files below the directory that have the extension,
in strict order. There are none where there is no directory. -/
theorem findFiles_exact {files : Files} (hf : files.Proper) {dir : Path} {extension : String}
    {found : List String} (h : findFiles files dir extension = .ok found) :
    found.Pairwise (· < ·) ∧
      ∀ path, path ∈ found ↔ ∃ n, files.probe dir = .ok (some n) ∧ n.Lists extension path := by
  obtain ⟨node, hnode, ⟨es, rfl, rfl⟩ | ⟨hno, rfl⟩⟩ := findFiles_eq_ok h
  · have hproper : (Node.directory es).Proper := hf.of_probe hnode
    have hnamed : ∀ names ∈ Node.entryFiles es, names ≠ [] ∧ Path.Named ⟨.relative, names⟩ :=
      fun names hmem => by
        obtain ⟨e, -, rest, -, rfl⟩ := Node.mem_entryFiles.mp hmem
        exact ⟨List.cons_ne_nil e.1 rest, (hproper.sound.normal_of_mem_files hmem).named⟩
    refine ⟨((findFiles_sorted h).sortedLE.sortedLT_of_nodup ?_).pairwise, fun path => ?_⟩
    · rw [listing, (List.mergeSort_perm _ _).nodup_iff]
      refine List.Nodup.map_on (fun as has bs hbs heq => ?_) (hproper.nodup_files.filter _)
      obtain ⟨hane, han⟩ := hnamed as (List.mem_filter.mp has).1
      obtain ⟨hbne, hbn⟩ := hnamed bs (List.mem_filter.mp hbs).1
      exact relativeText_inj hane hbne han hbn heq
    · rw [listing, List.mem_mergeSort, List.mem_map]
      constructor
      · rintro ⟨names, hmem, rfl⟩
        obtain ⟨hmem, hsuffix⟩ := List.mem_filter.mp hmem
        obtain ⟨bytes, hbelow⟩ := hproper.mem_files_iff.mp hmem
        exact ⟨_, hnode, names, bytes, (hnamed names hmem).1, hbelow, rfl, of_decide_eq_true hsuffix⟩
      · rintro ⟨n, hn, names, bytes, -, hbelow, rfl, hsuffix⟩
        obtain rfl := Option.some.inj (Except.ok.inj (hnode.symm.trans hn))
        exact ⟨names, List.mem_filter.mpr ⟨Node.mem_files_of_below? hbelow, decide_eq_true hsuffix⟩, rfl⟩
  · refine ⟨.nil, fun path => iff_of_false List.not_mem_nil ?_⟩
    rintro ⟨n, hn, names, bytes, hne, hbelow, -⟩
    obtain rfl := Except.ok.inj (hnode.symm.trans hn)
    cases n with
    | directory es => exact hno es rfl
    | file bytes' =>
      cases names with
      | nil => exact hne rfl
      | cons name names => cases hbelow

end ScriptService
