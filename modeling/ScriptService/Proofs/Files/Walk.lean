import ScriptService.Header.Discovery
import ScriptService.Proofs.Files.Tree

/-!
# Where a path leads

What stands below a node at the end of a way of names is told by `Node.below?`,
without double dots. A walk follows double dots by a stack of the nodes above; the
stack is that of the names which are left when double dots are collapsed
(`OnWay.of_walk`). So a path leads to what stands below the root at the names that
the path resolves to (`below?_of_lookup`, `below?_of_read`), however it is written.

The other way round, the way to a file is among those that a search of the
directories above it finds (`mem_findFiles`).
-/

namespace ScriptService

namespace Node

/-- The node at the end of a way of names below another. -/
def below? : Node → List String → Option Node
  | n, [] => some n
  | n, name :: names => (n.child? name).bind (below? · names)

theorem below?_append (n : Node) (as bs : List String) :
    n.below? (as ++ bs) = (n.below? as).bind (·.below? bs) := by
  induction as generalizing n with
  | nil => rfl
  | cons a as ih =>
    rw [List.cons_append, below?, below?]
    cases n.child? a with
    | none => rfl
    | some m => exact ih m

theorem mem_files_of_below? {n : Node} {names : List String} {bytes : List UInt8}
    (h : n.below? names = some (.file bytes)) : names ∈ files n := by
  induction names generalizing n with
  | nil =>
    obtain rfl := Option.some.inj h
    exact List.mem_singleton.mpr rfl
  | cons name names ih =>
    rw [below?, Option.bind_eq_some_iff] at h
    obtain ⟨m, hm, h⟩ := h
    cases n with
    | file bytes => cases hm
    | directory es =>
      obtain ⟨before, after, rfl, -⟩ := List.lookup_eq_some_iff.mp hm
      exact mem_entryFiles.mpr ⟨(name, m), by simp, names, ih h, rfl⟩

end Node

namespace Files

/-! ## Walks -/

/-- The nodes of a stack stand on a way from a root, whose names are given from its end. -/
inductive OnWay (root : Node) : List String → List Node → Prop
  | root : OnWay root [] [root]
  | child {above : List Node} {names : List String} {es : List (String × Node)} {name : String} {n : Node}
      (rest : OnWay root names (.directory es :: above)) (entry : es.lookup name = some n) :
      OnWay root (name :: names) (n :: .directory es :: above)

theorem OnWay.below? {root n : Node} {names : List String} {above : List Node}
    (h : OnWay root names (n :: above)) : root.below? names.reverse = some n := by
  generalize hstack : n :: above = stack at h
  induction h generalizing n above with
  | root =>
    obtain ⟨rfl, -⟩ := List.cons.inj hstack
    rfl
  | child _ hn ih =>
    obtain ⟨rfl, -⟩ := List.cons.inj hstack
    rw [List.reverse_cons, Node.below?_append, ih rfl, Option.bind_some, Node.below?, Node.child?, hn]
    rfl

theorem walk_child {path name : String} {es : List (String × Node)} {n : Node}
    (hname : ¬ (name = "" || name = ".") = true) (hdots : ¬ name = "..")
    (hlength : ¬ Text.utf8Length name > maxNameLength) (hn : es.lookup name = some n) (above : List Node)
    (names : List String) :
    walk path (.directory es :: above) (name :: names) = walk path (n :: .directory es :: above) names := by
  rw [walk, if_neg hname, if_neg hdots, if_neg hlength, hn]

/-- Where a walk gets does not depend on how errors name its path. -/
theorem walk_path {path : String} (path' : String) {stack out : List Node} {names : List String}
    (h : walk path stack names = .ok out) : walk path' stack names = .ok out := by
  fun_induction walk path stack names with
  | case1 => exact h
  | case2 | case3 | case6 | case7 => cases h
  | case4 es above name names hname ih => rw [walk, if_pos hname, ih h]
  | case5 es above names hname ih => rw [walk, if_neg hname, if_pos rfl, ih h]
  | case8 es above name names hname hdots hlength n hn ih => rw [walk_child hname hdots hlength hn, ih h]

theorem walk_append (path : String) (stack : List Node) (as bs : List String) :
    walk path stack (as ++ bs) = walk path stack as >>= fun mid => walk path mid bs := by
  fun_induction walk path stack as with
  | case1 => rfl
  | case2 | case3 => rfl
  | case4 es above name names hname ih => rw [List.cons_append, walk, if_pos hname, ih]
  | case5 es above names hname ih => rw [List.cons_append, walk, if_neg hname, if_pos rfl, ih]
  | case6 es above name names hname hdots hlength =>
    rw [List.cons_append, walk, if_neg hname, if_neg hdots, if_pos hlength]
    rfl
  | case7 es above name names hname hdots hlength hn =>
    rw [List.cons_append, walk, if_neg hname, if_neg hdots, if_neg hlength, hn]
    rfl
  | case8 es above name names hname hdots hlength n hn ih =>
    rw [List.cons_append, walk_child hname hdots hlength hn, ih]

/-- Whether a name moves a walk; the others stay at a directory. -/
def moves (name : String) : Bool := name ≠ "" && name ≠ "."

theorem moves_iff {name : String} : moves name = true ↔ ¬ (name = "" || name = ".") = true := by
  simp only [moves, Bool.and_eq_true, decide_eq_true_eq, ne_eq, Bool.or_eq_true, not_or]

theorem moves_of_isName {name : String} (h : Path.IsName name) : moves name = true := by
  rw [moves, decide_eq_true h.ne_empty, decide_eq_true h.ne_dot]
  rfl

theorem walk_filter {path : String} {stack out : List Node} {names : List String}
    (h : walk path stack names = .ok out) : walk path stack (names.filter moves) = .ok out := by
  fun_induction walk path stack names with
  | case1 => exact h
  | case2 | case3 | case6 | case7 => cases h
  | case4 es above name names hname ih =>
    rw [List.filter_cons_of_neg (by rwa [moves_iff, not_not]), ih h]
  | case5 es above names hname ih =>
    rw [List.filter_cons_of_pos (moves_iff.mpr hname), walk, if_neg hname, if_pos rfl, ih h]
  | case8 es above name names hname hdots hlength n hn ih =>
    rw [List.filter_cons_of_pos (moves_iff.mpr hname), walk_child hname hdots hlength hn, ih h]

/-- A walk that has names before it, or that ends at a directory, starts at a directory. -/
theorem directory_of_walk {path : String} {stack out : List Node} {names : List String}
    (h : walk path stack names = .ok out)
    (hnames : names ≠ [] ∨ ∃ es above, out = .directory es :: above) :
    ∃ es above, stack = .directory es :: above := by
  unfold walk at h
  split at h
  · obtain rfl := Except.ok.inj h
    exact hnames.resolve_left fun hne => hne rfl
  · cases h
  · cases h
  · exact ⟨_, _, rfl⟩

/-- Names that do not move a walk are no hindrance on a way to a directory. -/
theorem walk_of_filter {path : String} {stack above : List Node} {es : List (String × Node)}
    {names : List String} (h : walk path stack (names.filter moves) = .ok (.directory es :: above)) :
    walk path stack names = .ok (.directory es :: above) := by
  fun_induction walk path stack names with
  | case1 => exact h
  | case2 | case3 =>
    obtain ⟨_, _, hstack⟩ := directory_of_walk h (.inr ⟨es, above, rfl⟩)
    cases hstack
  | case4 es above name names hname ih =>
    rw [List.filter_cons_of_neg (by rwa [moves_iff, not_not])] at h
    exact ih h
  | case5 es above names hname ih =>
    rw [List.filter_cons_of_pos (moves_iff.mpr hname), walk, if_neg hname, if_pos rfl] at h
    exact ih h
  | case6 es above name names hname hdots hlength =>
    rw [List.filter_cons_of_pos (moves_iff.mpr hname), walk, if_neg hname, if_neg hdots, if_pos hlength] at h
    cases h
  | case7 es above name names hname hdots hlength hn =>
    rw [List.filter_cons_of_pos (moves_iff.mpr hname), walk, if_neg hname, if_neg hdots, if_neg hlength,
      hn] at h
    cases h
  | case8 es above name names hname hdots hlength n hn ih =>
    rw [List.filter_cons_of_pos (moves_iff.mpr hname), walk_child hname hdots hlength hn] at h
    exact ih h

/-- A walk gets to the nodes on the way of the names that are left once double dots are collapsed. -/
theorem OnWay.of_walk {root : Node} {path : String} {stack out : List Node} {acc names : List String}
    (hstack : OnWay root acc stack) (hnames : ∀ s ∈ names, moves s = true)
    (h : walk path stack names = .ok out) : OnWay root (Path.collapseFrom acc names).reverse out := by
  fun_induction walk path stack names generalizing acc with
  | case1 =>
    obtain rfl := Except.ok.inj h
    rwa [Path.collapseFrom, List.reverse_reverse]
  | case2 | case3 | case6 | case7 => cases h
  | case4 es above name names hname ih => exact absurd hname (moves_iff.mp (hnames name List.mem_cons_self))
  | case5 es above names hname ih =>
    rw [Path.collapseFrom, if_pos rfl]
    refine ih ?_ (fun s hs => hnames s (List.mem_cons_of_mem _ hs)) h
    cases hstack with
    | root => exact .root
    | child hrest hn => exact hrest
  | case8 es above name names hname hdots hlength n hn ih =>
    rw [Path.collapseFrom, if_neg hdots]
    exact ih (hstack.child hn) (fun s hs => hnames s (List.mem_cons_of_mem _ hs)) h

/-! ## Paths -/

/-- The pieces of a path's text: an empty one before each slash it starts with, and its names. -/
theorem pieces_text {p : Path} (hp : p.Named) (hne : p.parts ≠ []) :
    (Path.piecesFrom [] p.text.toList).map String.ofList =
      List.replicate p.anchor.text.length "" ++ p.parts := by
  have hnames : (Path.piecesFrom [] (Path.namesText p.parts)).map String.ofList = p.parts := by
    have hsplit : (Path.namesText p.parts).splitOn '/' = p.parts.map String.toList := by
      refine List.splitOn_intercalate '/' (fun l hl => ?_) (by simpa using hne)
      obtain ⟨s, hs, rfl⟩ := List.mem_map.mp hl
      exact (hp s hs).slash
    rw [Path.pieces_eq, hsplit, List.map_map]
    exact (List.map_congr_left fun s _ => String.ofList_toList).trans (List.map_id _)
  have hslash : ∀ s, (Path.piecesFrom [] ('/' :: s)).map String.ofList =
      "" :: (Path.piecesFrom [] s).map String.ofList := fun _ => rfl
  rw [Path.text_eq p (.inr hne)]
  cases p.anchor with
  | relative => exact hnames
  | root => exact (hslash _).trans (congrArg _ hnames)
  | doubleRoot => exact (hslash _).trans (congrArg _ ((hslash _).trans (congrArg _ hnames)))

/-- The names in a path's text that move a walk are those of the path. -/
theorem filter_moves_pieces (path : String) :
    ((Path.piecesFrom [] path.toList).map String.ofList).filter moves = (Path.ofString path).parts := by
  rw [Path.ofString_eq, Path.pieces_eq, Path.namesIn, List.filter_map]
  refine congrArg _ (List.filter_congr fun p _ => ?_)
  simp only [Function.comp_apply, moves, ne_eq, ← String.toList_inj, String.toList_ofList]
  rfl

/-- A path leads to what stands below the root at the names that it resolves to. -/
theorem below?_of_lookup {f : Files} (hcwd : f.cwd.Named) {path : String} {n : Node}
    (h : f.lookup path = .ok n) : f.root.below? (Path.resolve f.cwd (Path.ofString path)).parts = some n := by
  obtain ⟨-, -, -, start, above, hstart, h⟩ := lookup_eq_ok_iff.mp h
  have hnames : ∀ {p : Path}, p.Named → ∀ s ∈ p.parts, moves s = true :=
    fun hp s hs => moves_of_isName (hp s hs)
  have hwalk := walk_filter h
  rw [filter_moves_pieces] at hwalk
  have hpath := hnames (Path.named_ofString path)
  rw [Path.resolve, Path.join]
  split at hstart
  · rename_i habsolute
    obtain rfl := Except.ok.inj hstart
    rw [if_pos habsolute]
    have hway := OnWay.below? (OnWay.root.of_walk hpath hwalk)
    rwa [List.reverse_reverse] at hway
  · rename_i hrelative
    rw [if_neg hrelative, Path.collapseFrom_append_reverse]
    have hway := OnWay.below? ((OnWay.root.of_walk (hnames hcwd) hstart).of_walk hpath hwalk)
    rwa [List.reverse_reverse] at hway

theorem read_eq_ok_iff {f : Files} {p : Path} {bytes : List UInt8} :
    f.read p = .ok bytes ↔ f.lookup p.text = .ok (.file bytes) := by
  rw [read, bind_eq_ok, stat]
  constructor
  · rintro ⟨n, hn, h⟩
    cases n with
    | file bytes' =>
      obtain rfl := Except.ok.inj h
      exact hn
    | directory es => cases h
  · exact fun h => ⟨_, h, rfl⟩

theorem below?_of_read {f : Files} (hcwd : f.cwd.Named) {p : Path} (hp : p.Named) {bytes : List UInt8}
    (h : f.read p = .ok bytes) : f.root.below? (Path.resolve f.cwd p).parts = some (.file bytes) := by
  have hbelow := below?_of_lookup hcwd (read_eq_ok_iff.mp h)
  rwa [Path.ofString_text hp] at hbelow

/-- A file can be read at what its path resolves to with the same bytes, if it can be read there. -/
theorem read_resolve {f : Files} (hcwd : f.cwd.Named) {p : Path} (hp : p.Named) {bytes bytes' : List UInt8}
    (h : f.read p = .ok bytes) (h' : f.read (Path.resolve f.cwd p) = .ok bytes') : bytes = bytes' := by
  have hnormal := Path.Named.normal_resolve hcwd hp
  have hbelow := below?_of_read hcwd hnormal.named h'
  rw [Path.resolve_of_normal hnormal rfl, below?_of_read hcwd hp h] at hbelow
  exact Node.file.inj (Option.some.inj hbelow)

/-- Above a file there are directories, from which the way of names leads to it. -/
theorem probe_of_read {f : Files} (hcwd : f.cwd.Named) {dir p : Path} (hp : p.Normal) (ha : p.anchor = .root)
    (hdir : dir.anchor = .root) {name : String} {names : List String}
    (hparts : p.parts = dir.parts ++ name :: names) {bytes : List UInt8} (h : f.read p = .ok bytes) :
    ∃ es, f.probe dir = .ok (some (.directory es)) ∧
      (Node.directory es).below? (name :: names) = some (.file bytes) := by
  have hnormal : dir.Normal := hp.of_subset (by rw [hparts]; exact List.subset_append_left ..)
  obtain ⟨t, ht⟩ := Path.exists_text_append hdir ha hparts
  obtain ⟨hnul, -, hlength, start, above, hstart, hwalk⟩ := lookup_eq_ok_iff.mp (read_eq_ok_iff.mp h)
  rw [Path.ofString_text hp.named, if_pos (Path.isAbsolute_of_root ha)] at hstart
  obtain rfl := Except.ok.inj hstart
  -- the walk to the file passes the directory
  have hwalk := walk_filter hwalk
  rw [filter_moves_pieces, Path.ofString_text hp.named, hparts, walk_append, bind_eq_ok] at hwalk
  obtain ⟨mid, hmid, hrest⟩ := hwalk
  obtain ⟨es, above', rfl⟩ := directory_of_walk hrest (.inl (List.cons_ne_nil name names))
  have hfound : f.lookup dir.text = .ok (.directory es) := by
    refine lookup_eq_ok_iff.mpr ⟨fun hm => hnul ?_, fun he => ?_, ?_, [f.root], above', ?_, walk_of_filter ?_⟩
    · rw [ht, String.toList_append]
      exact List.mem_append_left _ hm
    · have hslash := congrArg String.toList he
      rw [Path.text_eq dir (.inl (by rw [hdir]; nofun)), hdir] at hslash
      cases hslash
    · rw [ht, Text.utf8Length, String.utf8ByteSize_append] at hlength
      exact Nat.le_trans (Nat.le_add_right _ _) hlength
    · rw [Path.ofString_text hnormal.named, if_pos (Path.isAbsolute_of_root hdir)]
    · rw [filter_moves_pieces, Path.ofString_text hnormal.named]
      exact walk_path _ hmid
  refine ⟨es, by rw [probe, stat, hfound], ?_⟩
  have hbelow := below?_of_lookup hcwd hfound
  have hfile := below?_of_read hcwd hp.named h
  rw [Path.ofString_text hnormal.named, Path.resolve_of_normal hnormal hdir] at hbelow
  rwa [Path.resolve_of_normal hp ha, hparts, Node.below?_append, hbelow, Option.bind_some] at hfile

/-- A search below a directory finds the files on all ways from it that have the extension. -/
theorem mem_findFiles {f : Files} (hcwd : f.cwd.Named) {dir p : Path} (hp : p.Normal) (ha : p.anchor = .root)
    (hdir : dir.anchor = .root) {name : String} {names : List String}
    (hparts : p.parts = dir.parts ++ name :: names) {bytes : List UInt8} (h : f.read p = .ok bytes)
    {extension : String} (hsuffix : Path.lowerSuffix ⟨.relative, name :: names⟩ = dottedExtension extension)
    {found : List String} (hfound : findFiles f dir extension = .ok found) :
    relativeText (name :: names) ∈ found := by
  obtain ⟨es, hes, hbelow⟩ := probe_of_read hcwd hp ha hdir hparts h
  have hmem : name :: names ∈ Node.entryFiles es := Node.mem_files_of_below? hbelow
  rw [findFiles, hes, asFailure, ok_bind, bind_eq_ok] at hfound
  obtain ⟨-, -, hfound⟩ := hfound
  rw [← Except.ok.inj hfound, listing, List.mem_mergeSort]
  exact List.mem_map_of_mem (List.mem_filter.mpr ⟨hmem, decide_eq_true hsuffix⟩)

end Files

end ScriptService
