import ScriptService.Proofs.Files.Listing

/-!
# How far a search reaches

A search lists each directory below its own and asks what stands at each entry with the
extension (`Node.list_mem_searchSteps_iff`, `Node.ask_mem_searchSteps_iff`). No directory
may stand too deep for that, and each path has to be short enough to be looked up
(`Node.InReach`). What is out of reach fails the search as a whole.

Main statements: `findFiles_isOk_iff`, `findFiles_out_of_reach`.
-/

namespace ScriptService

/-! ## The steps of a search -/

namespace Node

variable {wanted : String → Bool}

theorem mem_entrySearchSteps {es : List (String × Node)} {s : SearchStep} :
    s ∈ entrySearchSteps wanted es ↔ ∃ e ∈ es, ∃ t ∈ e.2.searchSteps wanted, t.below e.1 = s := by
  induction es with
  | nil => simp [entrySearchSteps]
  | cons e es ih =>
    obtain ⟨name, n⟩ := e
    rw [entrySearchSteps, List.mem_append, ih, List.mem_map]
    simp only [List.mem_cons, exists_eq_or_imp]

theorem below?_cons_eq_some_iff {es : List (String × Node)} {name : String} {names : List String} {m : Node} :
    (directory es).below? (name :: names) = some m ↔ ∃ n, es.lookup name = some n ∧ n.below? names = some m := by
  rw [below?, child?, Option.bind_eq_some_iff]

/-- Directories are listed just where they stand. -/
theorem list_mem_searchSteps_iff {n : Node} (h : n.Proper) {names : List String} :
    .list names ∈ n.searchSteps wanted ↔ ∃ es, n.below? names = some (.directory es) := by
  induction names generalizing n with
  | nil =>
    cases n with
    | file bytes => exact iff_of_false List.not_mem_nil nofun
    | directory es => exact iff_of_true List.mem_cons_self ⟨es, rfl⟩
  | cons name names ih =>
    cases h with
    | file bytes => exact iff_of_false List.not_mem_nil nofun
    | @directory es _ hnodup hentry =>
      rw [searchSteps, List.cons_append, List.mem_cons, List.mem_append, mem_entrySearchSteps]
      simp only [below?_cons_eq_some_iff, lookup_eq_some_iff_mem hnodup]
      constructor
      · rintro (h | h | ⟨⟨k, n⟩, he, t, ht, hstep⟩)
        · cases h
        · obtain ⟨_, -, h⟩ := List.mem_map.mp h
          cases h
        · cases t with
          | ask => cases hstep
          | list names' =>
            cases hstep
            obtain ⟨fs, hfs⟩ := (ih (hentry _ he)).mp ht
            exact ⟨fs, n, he, hfs⟩
      · rintro ⟨fs, n, he, hfs⟩
        exact .inr (.inr ⟨(name, n), he, .list names, (ih (hentry _ he)).mpr ⟨fs, hfs⟩, rfl⟩)

/-- Entries are asked for just where one stands whose name is wanted. -/
theorem ask_mem_searchSteps_iff {n : Node} (h : n.Proper) {names : List String} :
    .ask names ∈ n.searchSteps wanted ↔
      names.getLast?.any wanted = true ∧ ∃ m, n.below? names = some m := by
  induction names generalizing n with
  | nil =>
    refine iff_of_false (fun h => ?_) fun h => Bool.false_ne_true h.1
    cases n with
    | file bytes => cases h
    | directory es =>
      rw [searchSteps, List.cons_append, List.mem_cons, List.mem_append, mem_entrySearchSteps] at h
      obtain h | h | ⟨e, -, t, -, h⟩ := h
      · cases h
      · obtain ⟨_, -, h⟩ := List.mem_map.mp h
        cases h
      · cases t <;> cases h
  | cons name names ih =>
    cases h with
    | file bytes => exact iff_of_false List.not_mem_nil fun ⟨_, _, h⟩ => nomatch h
    | @directory es _ hnodup hentry =>
      rw [searchSteps, List.cons_append, List.mem_cons, List.mem_append, mem_entrySearchSteps]
      simp only [below?_cons_eq_some_iff, lookup_eq_some_iff_mem hnodup]
      constructor
      · rintro (h | h | ⟨⟨k, n⟩, he, t, ht, hstep⟩)
        · cases h
        · obtain ⟨k, hk, h⟩ := List.mem_map.mp h
          cases h
          obtain ⟨hk, hwanted⟩ := List.mem_filter.mp hk
          obtain ⟨⟨_, n⟩, he, rfl⟩ := List.mem_map.mp hk
          exact ⟨hwanted, n, n, he, rfl⟩
        · cases t with
          | list => cases hstep
          | ask names' =>
            cases hstep
            obtain ⟨hlast, m, hm⟩ := (ih (hentry _ he)).mp ht
            refine ⟨?_, m, n, he, hm⟩
            cases names with
            | nil => cases hlast
            | cons => rwa [List.getLast?_cons_cons]
      · rintro ⟨hlast, m, n, he, hm⟩
        cases names with
        | nil =>
          refine .inr (.inl (List.mem_map_of_mem (List.mem_filter.mpr ⟨?_, hlast⟩)))
          exact List.mem_map.mpr ⟨(name, n), he, rfl⟩
        | cons next names =>
          rw [List.getLast?_cons_cons] at hlast
          exact .inr (.inr ⟨(name, n), he, .ask _, (ih (hentry _ he)).mpr ⟨hlast, m, hm⟩, rfl⟩)

end Node

/-- The extension of a way is that of its last name. -/
theorem any_hasExtension_iff {extension : String} {names : List String} :
    names.getLast?.any (hasExtension extension) = true ↔
      Path.lowerSuffix ⟨.relative, names⟩ = dottedExtension extension := by
  rw [Path.lowerSuffix, Path.suffix, Path.name]
  cases names.getLast? with
  | none =>
    refine iff_of_false Bool.false_ne_true fun h => ?_
    have hdot := congrArg String.toList h
    rw [dottedExtension, String.toList_append] at hdot
    cases hdot
  | some name =>
    rw [Option.any_some, hasExtension, decide_eq_true_eq, Path.lowerSuffix, Path.suffix, Path.name]
    rfl

/-! ## Reach -/

namespace Files

/-- A path is short enough to be looked up. -/
def IsShort (p : Path) : Prop := Text.utf8Length p.text ≤ maxPathLength

theorem checkLength_eq_ok_iff {p : Path} : checkLength p = .ok () ↔ IsShort p := by
  rw [checkLength, IsShort]
  split
  · rename_i h
    exact iff_of_false nofun (Nat.not_le.mpr h)
  · rename_i h
    exact iff_of_true rfl (Nat.not_lt.mp h)

end Files

/-- A search from a directory with a path gets everywhere below a node, if it may go to a depth: no
directory stands deeper, and the paths of the directories and of the entries with the extension are
short enough. -/
structure Node.InReach (n : Node) (depth : Nat) (dir : Path) (extension : String) : Prop where
  shallow : ∀ names es, n.below? names = some (.directory es) → names.length ≤ depth
  directories : ∀ names es, n.below? names = some (.directory es) →
    Files.IsShort (dir.join ⟨.relative, names⟩)
  entries : ∀ names m, n.below? names = some m →
    Path.lowerSuffix ⟨.relative, names⟩ = dottedExtension extension →
      Files.IsShort (dir.join ⟨.relative, names⟩)

/-- A search for an extension gets everywhere below a directory. -/
def Files.Reaches (f : Files) (dir : Path) (extension : String) : Prop :=
  ∀ es, f.probe dir = .ok (some (.directory es)) → (Node.directory es).InReach f.depth dir extension

theorem Node.inReach_iff {n : Node} (h : n.Proper) {f : Files} {dir : Path} {extension : String} :
    n.InReach f.depth dir extension ↔
      ∀ s ∈ n.searchSteps (hasExtension extension), f.searchStep dir s = .ok () := by
  constructor
  · intro hreach s hs
    cases s with
    | list names =>
      obtain ⟨es, hes⟩ := (list_mem_searchSteps_iff h).mp hs
      rw [Files.searchStep, if_neg (Nat.not_lt.mpr (hreach.shallow _ _ hes)), Files.checkLength_eq_ok_iff]
      exact hreach.directories _ _ hes
    | ask names =>
      obtain ⟨hlast, m, hm⟩ := (ask_mem_searchSteps_iff h).mp hs
      exact Files.checkLength_eq_ok_iff.mpr (hreach.entries _ _ hm (any_hasExtension_iff.mp hlast))
  · intro hsteps
    have hlist : ∀ names es, n.below? names = some (.directory es) →
        names.length ≤ f.depth ∧ Files.IsShort (dir.join ⟨.relative, names⟩) := fun names es hes => by
      have hstep := hsteps _ ((list_mem_searchSteps_iff h).mpr ⟨es, hes⟩)
      rw [Files.searchStep] at hstep
      split at hstep
      · cases hstep
      · rename_i hdepth
        exact ⟨Nat.not_lt.mp hdepth, Files.checkLength_eq_ok_iff.mp hstep⟩
    refine ⟨fun names es hes => (hlist names es hes).1, fun names es hes => (hlist names es hes).2,
      fun names m hm hsuffix => ?_⟩
    exact Files.checkLength_eq_ok_iff.mp
      (hsteps (.ask names) ((ask_mem_searchSteps_iff h).mpr ⟨any_hasExtension_iff.mpr hsuffix, m, hm⟩))

/-- A search succeeds just if it gets everywhere. -/
theorem findFiles_isOk_iff {files : Files} (hf : files.Proper) {dir : Path} {node : Option Node}
    (hnode : files.probe dir = .ok node) (extension : String) :
    (∃ found, findFiles files dir extension = .ok found) ↔ files.Reaches dir extension := by
  rcases node with _ | ⟨bytes⟩ | ⟨es⟩
  · exact iff_of_true ⟨[], by rw [findFiles, hnode]; rfl⟩ fun es h => by cases hnode.symm.trans h
  · exact iff_of_true ⟨[], by rw [findFiles, hnode]; rfl⟩ fun es h => by cases hnode.symm.trans h
  · have hreaches : files.Reaches dir extension ↔ (Node.directory es).InReach files.depth dir extension := by
      refine ⟨fun h => h es hnode, fun h fs hfs => ?_⟩
      cases hnode.symm.trans hfs
      exact h
    rw [hreaches, Node.inReach_iff (hf.of_probe hnode), ← forM_eq_ok_iff, findFiles_of_directory hnode]
    cases (Node.searchSteps (hasExtension extension) (.directory es)).forM (files.searchStep dir) with
    | ok => exact iff_of_true ⟨_, rfl⟩ rfl
    | error e => exact iff_of_false not_exists_error_eq_ok (by simp)

/-- A failure of a search that meets something out of reach. -/
inductive IsSearchFailure : Failure → Prop
  | deep : IsSearchFailure .searchTooDeep
  | long (path : String) (h : maxPathLength < Text.utf8Length path) : IsSearchFailure (.file (.nameTooLong path))

/-- A search that does not get everywhere fails as a whole. -/
theorem findFiles_out_of_reach {files : Files} (hf : files.Proper) {dir : Path} {node : Option Node}
    (hnode : files.probe dir = .ok node) {extension : String} (h : ¬ files.Reaches dir extension) :
    ∃ e, findFiles files dir extension = .error e ∧ IsSearchFailure e := by
  rw [← findFiles_isOk_iff hf hnode] at h
  cases hfound : findFiles files dir extension with
  | ok found => exact absurd ⟨found, hfound⟩ h
  | error e =>
    refine ⟨e, rfl, ?_⟩
    rw [findFiles, hnode, asFailure, ok_bind] at hfound
    rcases node with _ | ⟨bytes⟩ | ⟨es⟩
    · cases hfound
    · cases hfound
    obtain hsteps | ⟨-, -, hfound⟩ := bind_eq_error.mp hfound
    · obtain ⟨s, -, hs⟩ := exists_of_forM_eq_error hsteps
      have hlength : ∀ {p : Path}, Files.checkLength p = .error e → IsSearchFailure e := fun h => by
        rw [Files.checkLength] at h
        split at h
        · rename_i hlong
          cases h
          exact .long _ hlong
        · cases h
      cases s with
      | ask names => exact hlength hs
      | list names =>
        rw [Files.searchStep] at hs
        split at hs
        · cases hs
          exact .deep
        · exact hlength hs
    · cases hfound

/-! ## A long way to a directory -/

/-- A root with a header and a workspace. -/
def rootHeader : Files :=
  ⟨.directory [("a.h", .file (Text.encodeUtf8 "#define A 1\n".toList)), ("ws", .directory [])], ⟨.root, []⟩,
    900⟩

theorem proper_rootHeader : rootHeader.Proper where
  root := by
    refine .directory (by decide) (by decide) (List.forall_mem_cons.mpr
      ⟨.file _, List.forall_mem_singleton.mpr ?_⟩)
    exact .directory (List.forall_mem_nil _) .nil (List.forall_mem_nil _)
  cwd := nofun

section

variable {count : Nat}

/-- A way from the root that leads back there, again and again. -/
def roundabout (count : Nat) : Path := ⟨.root, List.replicate (count + 1) ".."⟩

theorem named_roundabout (count : Nat) : (roundabout count).Named := fun s hs => by
  rw [List.eq_of_mem_replicate hs]
  decide

theorem resolve_roundabout (cwd : Path) (count : Nat) : Path.resolve cwd (roundabout count) = ⟨.root, []⟩ := by
  have hback : ∀ n, Path.collapseFrom [] (List.replicate n "..") = [] := fun n => by
    induction n with
    | zero => rfl
    | succ n ih => rwa [List.replicate_succ, Path.collapseFrom, if_pos rfl]
  rw [Path.resolve, Path.join, if_pos (Path.isAbsolute_of_root rfl)]
  exact congrArg _ (hback (count + 1))

/-- Each piece of the way takes three bytes. -/
theorem utf8Length_roundabout (count : Nat) (names : List String) :
    Text.utf8Length ((roundabout count).join ⟨.relative, names⟩).text =
      3 * count + Text.utf8Length ("/" ++ "/".intercalate (".." :: names)) := by
  have hpieces : ∀ n, ("/".intercalate (List.replicate (n + 1) ".." ++ names)).utf8ByteSize =
      3 * n + ("/".intercalate (".." :: names)).utf8ByteSize := fun n => by
    induction n with
    | zero => rw [List.replicate_one, List.singleton_append, Nat.mul_zero, Nat.zero_add]
    | succ n ih =>
      have hne : List.replicate (n + 1) ".." ++ names ≠ [] := by
        rw [List.replicate_succ]
        exact List.cons_ne_nil _ _
      have hsize : "..".utf8ByteSize + "/".utf8ByteSize = 3 := by decide
      rw [List.replicate_succ, List.cons_append, String.intercalate_cons_of_ne_nil hne,
        String.utf8ByteSize_append, String.utf8ByteSize_append, ih]
      omega
  rw [Path.join_of_relative rfl, roundabout, Text.utf8Length, Text.utf8Length, Path.text,
    String.utf8ByteSize_append, String.utf8ByteSize_append, hpieces]
  exact Nat.add_left_comm ..

/-- Double dots stay at the root. -/
theorem walk_dots (path : String) (es : List (String × Node)) (count : Nat) :
    Files.walk path [.directory es] (List.replicate count "..") = .ok [.directory es] := by
  induction count with
  | zero => rfl
  | succ count ih =>
    rw [List.replicate_succ, Files.walk, if_neg (by decide), if_pos rfl]
    exact ih

/-- A way that is short enough leads back to the root. -/
theorem probe_roundabout (h : 3 * count + 3 ≤ maxPathLength) :
    rootHeader.probe (roundabout count) = .ok (some rootHeader.root) := by
  have hanchor : (roundabout count).anchor = .root := rfl
  have hne : (roundabout count).parts ≠ [] := by
    rw [roundabout, List.replicate_succ]
    exact List.cons_ne_nil _ _
  have hnul : '\x00' ∉ (roundabout count).text.toList := by
    rw [Path.mem_text (by decide) (by decide)]
    rintro ⟨s, hs, hc⟩
    rw [List.eq_of_mem_replicate hs] at hc
    exact absurd hc (by decide)
  have hempty : (roundabout count).text ≠ "" := fun h => by
    have hslash := congrArg String.toList h
    rw [Path.text_eq _ (.inr hne), hanchor] at hslash
    cases hslash
  have hlength : Text.utf8Length (roundabout count).text ≤ maxPathLength := by
    have hpieces := utf8Length_roundabout count []
    rw [Path.join_of_relative rfl, List.append_nil] at hpieces
    exact Nat.le_trans (Nat.le_of_eq hpieces) h
  have hfound : rootHeader.lookup (roundabout count).text = .ok rootHeader.root := by
    refine Files.lookup_eq_ok_iff.mpr ⟨hnul, hempty, hlength, [rootHeader.root], [], ?_, ?_⟩
    · rw [Path.ofString_text (named_roundabout count), if_pos (Path.isAbsolute_of_root rfl)]
    · have hslash : List.replicate (roundabout count).anchor.text.length "" = [""] := by
        rw [hanchor]
        decide
      rw [Files.pieces_text (named_roundabout count) hne, hslash, List.singleton_append, rootHeader, Files.walk,
        if_pos (by decide)]
      exact walk_dots _ _ (count + 1)
  rw [Files.probe, Files.stat, hfound]

/-- Behind a way that is long enough the header is out of reach. -/
theorem not_reaches_roundabout (h : 3 * count + 3 ≤ maxPathLength) (hlong : maxPathLength < 3 * count + 7) :
    ¬ rootHeader.Reaches (roundabout count) "h" := by
  intro hreaches
  have hshort := (hreaches _ (probe_roundabout h)).entries ["a.h"] _ rfl (by decide +kernel)
  have hpieces := utf8Length_roundabout count ["a.h"]
  have hname : Text.utf8Length ("/" ++ "/".intercalate ["..", "a.h"]) = 7 := by decide
  rw [Files.IsShort, hpieces, hname] at hshort
  exact absurd hshort (Nat.not_le.mpr hlong)

end

end ScriptService
