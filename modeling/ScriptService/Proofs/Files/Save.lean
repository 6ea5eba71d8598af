import ScriptService.Proofs.Files.Walk

/-!
# Files that are saved

What is put at the end of a way of names stands there (`Node.below?_put`), and all
directories stay unless one stood there itself (`Node.keeps_put`). So walks to
directories get to directories again (`Files.OnWay.walk_of_keeps`), and what is put in a
vacant place is found at its path (`Files.Vacant.stat_put`), double dots on the way
included.

A file is saved in a directory that stands or is made (`Files.stat_makeDirectories`), so
it can be read back at its path (`Files.isFile_save`, `Files.read_save`). That it is saved
at all takes no more than that directories stand on the way or are missing
(`Files.CanSave.exists_save`).
-/

namespace ScriptService

/-! ## Trees -/

namespace Node

theorem lookup_setEntry (name : String) (n : Node) (es : List (String × Node)) (k : String) :
    (setEntry name n es).lookup k = if k = name then some n else es.lookup k := by
  induction es with
  | nil =>
    rw [setEntry, List.lookup_cons]
    by_cases hk : k = name
    · rw [if_pos hk, hk, beq_self_eq_true]
    · rw [if_neg hk, beq_false_of_ne hk]
  | cons e es ih =>
    obtain ⟨k', m⟩ := e
    rw [setEntry]
    split
    · rename_i hname
      subst hname
      rw [List.lookup_cons, List.lookup_cons]
      by_cases hk : k = k'
      · rw [if_pos hk, hk, beq_self_eq_true]
      · rw [if_neg hk, beq_false_of_ne hk]
    · rename_i hname
      rw [List.lookup_cons, List.lookup_cons, ih]
      by_cases hk : k = k'
      · subst hk
        rw [beq_self_eq_true]
        exact (if_neg hname).symm
      · rw [beq_false_of_ne hk]

/-- What is put at the end of a way stands there. -/
theorem below?_put (n : Node) (names : List String) (root : Node) :
    (put n names root).below? names = some n := by
  induction names generalizing root with
  | nil => rfl
  | cons name names ih =>
    cases root with
    | file bytes =>
      rw [put, below?, child?, List.lookup_cons, beq_self_eq_true]
      exact ih _
    | directory es =>
      rw [put, below?, child?, lookup_setEntry, if_pos rfl]
      exact ih _

/-- All directories of a tree are directories in another. -/
def Keeps (old new : Node) : Prop :=
  ∀ ⦃names es⦄, old.below? names = some (.directory es) → ∃ es', new.below? names = some (.directory es')

/-- Directories stay where something is put, unless it takes the place of one. -/
theorem keeps_put (n : Node) {way : List String} {root : Node}
    (h : ∀ es, root.below? way ≠ some (.directory es)) : Keeps root (put n way root) := by
  induction way generalizing root with
  | nil =>
    intro names es hes
    cases root with
    | file bytes => cases names <;> cases hes
    | directory fs => exact absurd rfl (h fs)
  | cons name way ih =>
    intro names es hes
    cases names with
    | nil => cases root <;> exact ⟨_, rfl⟩
    | cons k names =>
      cases root with
      | file bytes => cases hes
      | directory fs =>
        rw [below?, child?, Option.bind_eq_some_iff] at hes
        obtain ⟨m, hm, hes⟩ := hes
        rw [put, below?, child?, lookup_setEntry]
        split
        · rename_i hk
          subst hk
          rw [hm, Option.getD_some]
          refine ih (fun es' hes' => h es' ?_) hes
          rw [below?, child?, hm, Option.bind_some, hes']
        · exact ⟨es, by rw [hm, Option.bind_some, hes]⟩

end Node

namespace Files

/-! ## Walks -/

theorem OnWay.exists_cons {root : Node} {names : List String} {stack : List Node} (h : OnWay root names stack) :
    ∃ n above, stack = n :: above := by
  cases h with
  | root => exact ⟨_, _, rfl⟩
  | child => exact ⟨_, _, rfl⟩

/-- Above a node on the way there is nothing, or a directory first. -/
theorem OnWay.above {root n : Node} {names : List String} {above : List Node} (h : OnWay root names (n :: above)) :
    above = [] ∨ ∃ es above', above = .directory es :: above' := by
  cases h with
  | root => exact .inl rfl
  | child => exact .inr ⟨_, _, rfl⟩

/-- Where a directory stands on the way of some names, one stands there in a tree that keeps it. -/
theorem OnWay.directory_of_keeps {old new : Node} (hkeeps : old.Keeps new) {acc : List String}
    {es : List (String × Node)} {above stack' : List Node} (h : OnWay old acc (.directory es :: above))
    (h' : OnWay new acc stack') : ∃ es' above', stack' = .directory es' :: above' := by
  obtain ⟨n, above', rfl⟩ := h'.exists_cons
  obtain ⟨es', hes'⟩ := hkeeps h.below?
  obtain rfl := Option.some.inj (h'.below?.symm.trans hes')
  exact ⟨es', above', rfl⟩

/-- A walk to a directory gets to one again in a tree that keeps all directories. -/
theorem OnWay.walk_of_keeps {old new : Node} (hkeeps : old.Keeps new) {path : String} {acc names : List String}
    {stack stack' above : List Node} {es : List (String × Node)} (hstack : OnWay old acc stack)
    (hstack' : OnWay new acc stack') (hnames : ∀ s ∈ names, moves s = true)
    (h : walk path stack names = .ok (.directory es :: above)) :
    ∃ es' above', walk path stack' names = .ok (.directory es' :: above') := by
  fun_induction walk path stack names generalizing acc stack' with
  | case1 =>
    obtain rfl := Except.ok.inj h
    obtain ⟨es', above', rfl⟩ := hstack.directory_of_keeps hkeeps hstack'
    exact ⟨es', above', by rw [walk]⟩
  | case2 | case3 | case6 | case7 => cases h
  | case4 fs above' name names hname ih => exact absurd hname (moves_iff.mp (hnames name List.mem_cons_self))
  | case5 fs above' names hname ih =>
    obtain ⟨fs', above'', rfl⟩ := hstack.directory_of_keeps hkeeps hstack'
    rw [walk, if_neg hname, if_pos rfl]
    have hrest : ∀ s ∈ names, moves s = true := fun s hs => hnames s (List.mem_cons_of_mem _ hs)
    cases hstack with
    | root =>
      cases hstack' with
      | root => exact ih .root .root hrest h
    | child hway _ =>
      cases hstack' with
      | child hway' _ => exact ih hway hway' hrest h
  | case8 fs above' name names hname hdots hlength n hn ih =>
    obtain ⟨fs', above'', rfl⟩ := hstack.directory_of_keeps hkeeps hstack'
    obtain ⟨ms, rest, hm⟩ := directory_of_walk h (.inr ⟨es, above, rfl⟩)
    obtain ⟨rfl, -⟩ := List.cons.inj hm
    have hchild := hstack.child hn
    -- the directory below is kept, so it stands in the entries of the one above
    obtain ⟨ms', hms'⟩ := hkeeps hchild.below?
    rw [List.reverse_cons, Node.below?_append, hstack'.below?, Option.bind_some, Node.below?, Node.child?,
      Option.bind_eq_some_iff] at hms'
    obtain ⟨m, hm', hms'⟩ := hms'
    obtain rfl := Option.some.inj hms'
    rw [walk_child hname hdots hlength hm']
    exact ih hchild (hstack'.child hm') (fun s hs => hnames s (List.mem_cons_of_mem _ hs)) h

/-! ## Paths -/

/-- A text that can be looked up as a path. -/
structure CanLookUp (path : String) : Prop where
  nul : '\x00' ∉ path.toList
  ne_empty : path ≠ ""
  length : Text.utf8Length path ≤ maxPathLength

/-- The names on the way from the root that a path's text stands for. -/
def wayNames (f : Files) (path : String) : List String :=
  (if (Path.ofString path).isAbsolute then [] else f.cwd.parts) ++
    (Path.piecesFrom [] path.toList).map String.ofList

theorem lookup_eq_walk (f : Files) {path : String} (h : CanLookUp path) :
    f.lookup path =
      walk path [f.root] (f.wayNames path) >>= fun out => out.head?.elim (.error .missing) .ok := by
  rw [lookup_eq, if_neg (by simpa using h.nul), if_neg (by simpa using h.ne_empty),
    if_neg (Nat.not_lt.mpr h.length), startsWith_slash, wayNames]
  split
  · rfl
  · rw [walk_append]
    cases walk path [f.root] f.cwd.parts <;> rfl

theorem text_ne_empty {p : Path} (hp : p.Named) (hne : p.parts ≠ []) : p.text ≠ "" := by
  intro hempty
  refine hne ?_
  rw [← Path.ofString_text hp, hempty]
  rfl

/-- What is found at a text, or not found there, is looked up. -/
theorem canLookUp_of_lookup {f : Files} {path : String} (hne : path ≠ "")
    (h : f.lookup path = .error .missing ∨ ∃ n, f.lookup path = .ok n) : CanLookUp path := by
  have hother : ∀ e : FileError, e ≠ .missing → f.lookup path ≠ .error e := fun e he heq => by
    rcases h with h | ⟨n, h⟩
    · exact he (Except.error.inj (heq.symm.trans h))
    · cases heq.symm.trans h
  refine ⟨fun hnul => hother .nulInPath nofun ?_, hne, Nat.not_lt.mp fun hlength =>
    hother (.nameTooLong path) nofun ?_⟩
  · rw [lookup_eq, if_pos (by simpa using hnul)]
  · by_cases hnul : '\x00' ∈ path.toList
    · exact absurd (by rw [lookup_eq, if_pos (by simpa using hnul)]) (hother .nulInPath nofun)
    · rw [lookup_eq, if_neg (by simpa using hnul), if_neg (by simpa using hne), if_pos hlength]

/-- A text leads to a node just if the walk along its names does. -/
theorem lookup_eq_ok_iff_walk {f : Files} {path : String} (h : CanLookUp path) {n : Node} :
    f.lookup path = .ok n ↔ ∃ above, walk path [f.root] (f.wayNames path) = .ok (n :: above) := by
  rw [f.lookup_eq_walk h, bind_eq_ok]
  constructor
  · rintro ⟨out, hout, h⟩
    cases out with
    | nil => cases h
    | cons m above =>
      obtain rfl := Except.ok.inj h
      exact ⟨above, hout⟩
  · rintro ⟨above, hout⟩
    exact ⟨_, hout, rfl⟩

/-- The names on the way that move a walk. -/
theorem filter_moves_wayNames {f : Files} (hcwd : f.cwd.Named) (path : String) :
    (f.wayNames path).filter moves = (f.cwd.join (Path.ofString path)).parts := by
  have hparts : f.cwd.parts.filter moves = f.cwd.parts :=
    List.filter_eq_self.mpr fun s hs => moves_of_isName (hcwd s hs)
  rw [wayNames, List.filter_append, filter_moves_pieces, Path.join]
  split
  · rfl
  · rw [hparts]

/-- Where a directory is, one is in files that keep all directories. -/
theorem stat_of_keeps {f g : Files} (hsame : g.cwd = f.cwd) (hkeeps : f.root.Keeps g.root)
    {p : Path} {es : List (String × Node)} (h : f.stat p = .ok (.directory es)) :
    ∃ es', g.stat p = .ok (.directory es') := by
  obtain ⟨hnul, hempty, hlength, -⟩ := lookup_eq_ok_iff.mp h
  have hlook : CanLookUp p.text := ⟨hnul, hempty, hlength⟩
  have hnames : g.wayNames p.text = f.wayNames p.text := by rw [wayNames, wayNames, hsame]
  obtain ⟨above, hwalk⟩ := (lookup_eq_ok_iff_walk hlook).mp h
  obtain ⟨es', above', hwalk'⟩ := OnWay.root.walk_of_keeps hkeeps .root
    (fun s hs => (List.mem_filter.mp hs).2) (walk_filter hwalk)
  exact ⟨es', (lookup_eq_ok_iff_walk hlook).mpr ⟨above', hnames ▸ walk_of_filter hwalk'⟩⟩

/-- What is at a path whose directory exists is looked up there by its last name. -/
theorem stat_eq_walk {f : Files} (hcwd : f.cwd.Named) {p : Path} (hp : p.Named) {name : String}
    (hparts : p.parts = p.parent.parts ++ [name]) (hlook : CanLookUp p.text) {es : List (String × Node)}
    (hdir : f.stat p.parent = .ok (.directory es)) :
    ∃ above, OnWay f.root (Path.resolve f.cwd p.parent).parts.reverse (.directory es :: above) ∧
      f.stat p = walk p.text (.directory es :: above) [name] >>= fun out =>
        out.head?.elim (.error .missing) .ok := by
  have hparent : p.parent.Named := fun s hs => hp s (List.mem_of_mem_dropLast hs)
  obtain ⟨hnul, hempty, hlength, -⟩ := lookup_eq_ok_iff.mp hdir
  obtain ⟨above, hwalk⟩ := (lookup_eq_ok_iff_walk ⟨hnul, hempty, hlength⟩).mp hdir
  have hdirectory := walk_filter hwalk
  rw [filter_moves_wayNames hcwd, Path.ofString_text hparent] at hdirectory
  have hjoin : ∀ s ∈ (f.cwd.join p.parent).parts, moves s = true := by
    rw [← Path.ofString_text hparent, ← filter_moves_wayNames hcwd]
    exact fun s hs => (List.mem_filter.mp hs).2
  refine ⟨above, OnWay.root.of_walk hjoin hdirectory, ?_⟩
  have hway : f.wayNames p.text = ((if p.isAbsolute then [] else f.cwd.parts) ++
      (List.replicate p.anchor.text.length "" ++ p.parent.parts)) ++ [name] := by
    rw [wayNames, Path.ofString_text hp, pieces_text hp (by rw [hparts]; simp), hparts]
    simp only [List.append_assoc]
  -- the blanks in front of the names do not move the walk
  have hfront : ((if p.isAbsolute then [] else f.cwd.parts) ++
      (List.replicate p.anchor.text.length "" ++ p.parent.parts)).filter moves =
        (f.cwd.join p.parent).parts := by
    rw [List.filter_append, List.filter_append, List.filter_replicate_of_neg (by decide), List.nil_append,
      List.filter_eq_self.mpr fun s hs => moves_of_isName (hparent s hs), Path.join]
    have habsolute : p.parent.isAbsolute = p.isAbsolute := rfl
    rw [habsolute]
    split
    · rfl
    · rw [List.filter_eq_self.mpr fun s hs => moves_of_isName (hcwd s hs)]
  have hdirectory' := walk_path p.text hdirectory
  rw [← hfront] at hdirectory'
  rw [stat, f.lookup_eq_walk hlook, hway, walk_append, walk_of_filter hdirectory']
  rfl

/-- A place where something can be put: in a directory that exists, where nothing or a file stands. -/
structure Vacant (f : Files) (p : Path) : Prop where
  free : f.stat p = .error .missing ∨ ∃ bytes, f.stat p = .ok (.file bytes)
  directory : ∃ es, f.stat p.parent = .ok (.directory es)

variable {f : Files} {p : Path}

theorem Vacant.not_directory (hv : f.Vacant p) {es : List (String × Node)} (h : f.stat p = .ok (.directory es)) :
    False := by
  rcases hv.free with hmissing | ⟨bytes, hfile⟩
  · cases hmissing.symm.trans h
  · cases hfile.symm.trans h

theorem Vacant.parts_ne_nil (hv : f.Vacant p) : p.parts ≠ [] := by
  intro hnil
  obtain ⟨es, hes⟩ := hv.directory
  have hsame : p.parent = p := by
    obtain ⟨anchor, parts⟩ := p
    obtain rfl : parts = [] := hnil
    rfl
  exact hv.not_directory (hsame ▸ hes)

theorem parts_eq (h : p.parts ≠ []) : p.parts = p.parent.parts ++ [p.name] := by
  rw [Path.parent, Path.name, List.getLast?_eq_some_getLast h, Option.getD_some, List.dropLast_append_getLast h]

theorem Vacant.canLookUp (hv : f.Vacant p) (hp : p.Named) : CanLookUp p.text :=
  canLookUp_of_lookup (text_ne_empty hp hv.parts_ne_nil) (hv.free.imp id fun ⟨_, h⟩ => ⟨_, h⟩)

/-- What is said of a vacant place is said of one name in its directory: the name does not lead back, and
no directory stands at it. -/
theorem Vacant.exists_name (hv : f.Vacant p) (hcwd : f.cwd.Named) (hp : p.Named) :
    ∃ name, p.parts = p.parent.parts ++ [name] ∧ name ≠ ".." ∧ Text.utf8Length name ≤ maxNameLength ∧
      ∀ es, f.root.below? ((Path.resolve f.cwd p.parent).parts ++ [name]) ≠ some (.directory es) := by
  obtain ⟨es, hes⟩ := hv.directory
  have hparts := parts_eq hv.parts_ne_nil
  generalize p.name = name at hparts
  obtain ⟨above, hway, hstat⟩ := stat_eq_walk hcwd hp hparts (hv.canLookUp hp) hes
  have hmoves := moves_iff.mp (moves_of_isName (hp name (by rw [hparts]; simp)))
  have hdots : name ≠ ".." := by
    rintro rfl
    rw [walk, if_neg hmoves, if_pos rfl, walk] at hstat
    obtain rfl | ⟨es', above', rfl⟩ := hway.above
    · exact hv.not_directory hstat
    · exact hv.not_directory hstat
  rw [walk, if_neg hmoves, if_neg hdots] at hstat
  have hlength : ¬ Text.utf8Length name > maxNameLength := fun hlong => by
    rw [if_pos hlong] at hstat
    rcases hv.free with hmissing | ⟨bytes, hfile⟩
    · cases hmissing.symm.trans hstat
    · cases hfile.symm.trans hstat
  rw [if_neg hlength] at hstat
  refine ⟨name, hparts, hdots, Nat.not_lt.mp hlength, fun fs hfs => ?_⟩
  have hbelow := hway.below?
  rw [List.reverse_reverse] at hbelow
  rw [Node.below?_append, hbelow, Option.bind_some, Node.below?, Node.child?, Option.bind_eq_some_iff] at hfs
  obtain ⟨m, hm, hfs⟩ := hfs
  obtain rfl := Option.some.inj hfs
  rw [hm] at hstat
  exact hv.not_directory hstat

theorem resolve_parts_eq {cwd : Path} {name : String} (hparts : p.parts = p.parent.parts ++ [name])
    (hdots : name ≠ "..") :
    (Path.resolve cwd p).parts = (Path.resolve cwd p.parent).parts ++ [name] := by
  have hjoin : (cwd.join p).parts = (cwd.join p.parent).parts ++ [name] := by
    have habsolute : p.parent.isAbsolute = p.isAbsolute := rfl
    rw [Path.join, Path.join, habsolute]
    split
    · exact hparts
    · rw [hparts, List.append_assoc]
  rw [Path.resolve, Path.resolve, hjoin]
  exact Path.collapseFrom_append (by simpa using Ne.symm hdots) [] _

/-- All directories stay where something is put in a vacant place. -/
theorem Vacant.keeps (hv : f.Vacant p) (hcwd : f.cwd.Named) (hp : p.Named) (n : Node) :
    f.root.Keeps (f.put p n).root := by
  obtain ⟨name, hparts, hdots, -, hfree⟩ := hv.exists_name hcwd hp
  exact Node.keeps_put n (by rwa [resolve_parts_eq hparts hdots])

/-- What is put in a vacant place is found there. -/
theorem Vacant.stat_put (hv : f.Vacant p) (hcwd : f.cwd.Named) (hp : p.Named) (n : Node) :
    (f.put p n).stat p = .ok n := by
  obtain ⟨name, hparts, hdots, hlength, -⟩ := hv.exists_name hcwd hp
  obtain ⟨es, hes⟩ := hv.directory
  obtain ⟨es', hes'⟩ := stat_of_keeps (f := f) (g := f.put p n) rfl (hv.keeps hcwd hp n) hes
  obtain ⟨above, hway, hstat⟩ := stat_eq_walk (f := f.put p n) hcwd hp hparts (hv.canLookUp hp) hes'
  have hput : (f.put p n).root.below? (Path.resolve f.cwd p).parts = some n := Node.below?_put n _ f.root
  have hbelow := hway.below?
  rw [List.reverse_reverse] at hbelow
  have hcwd' : (f.put p n).cwd = f.cwd := rfl
  rw [hcwd'] at hbelow
  rw [resolve_parts_eq hparts hdots, Node.below?_append, hbelow, Option.bind_some, Node.below?, Node.child?,
    Option.bind_eq_some_iff] at hput
  obtain ⟨m, hm, hn⟩ := hput
  obtain rfl := Option.some.inj hn
  have hmoves := moves_iff.mp (moves_of_isName (hp name (by rw [hparts]; simp)))
  rw [hstat, walk_child hmoves hdots (Nat.not_lt.mpr hlength) hm, walk]
  rfl

/-! ## Saving -/

theorem makeDirectory_eq_ok {g : Files} (h : f.makeDirectory p = .ok g) :
    f.Vacant p ∧ g = f.put p (.directory []) := by
  rw [makeDirectory] at h
  split at h
  · cases h
  · rename_i hmissing
    rw [bind_eq_ok] at h
    obtain ⟨n, hn, h⟩ := h
    cases n with
    | file bytes => cases h
    | directory es =>
      obtain rfl := Except.ok.inj h
      exact ⟨⟨.inl hmissing, es, hn⟩, rfl⟩
  · cases h

/-- A directory is made where nothing stands in one, and then stands there. -/
theorem makeDirectory_of_missing (hcwd : f.cwd.Named) (hp : p.Named) (hmissing : f.stat p = .error .missing)
    {es : List (String × Node)} (hes : f.stat p.parent = .ok (.directory es)) :
    f.makeDirectory p = .ok (f.put p (.directory [])) ∧
      (f.put p (.directory [])).stat p = .ok (.directory []) := by
  have hv : f.Vacant p := ⟨.inl hmissing, es, hes⟩
  refine ⟨?_, hv.stat_put hcwd hp _⟩
  rw [makeDirectory, hmissing]
  dsimp only
  rw [hes]
  rfl

theorem orDirectory_eq_ok {g : Files} {e : FileError} (h : f.orDirectory p e = .ok g) :
    g = f ∧ ∃ es, f.stat p = .ok (.directory es) := by
  rw [orDirectory, bind_eq_ok] at h
  obtain ⟨b, hb, h⟩ := h
  cases b with
  | false => cases h
  | true =>
    obtain rfl := Except.ok.inj h
    refine ⟨rfl, ?_⟩
    rw [isDirectory, probe] at hb
    cases hstat : f.stat p with
    | ok n =>
      rw [hstat] at hb
      cases n with
      | file bytes => cases hb
      | directory es => exact ⟨es, rfl⟩
    | error e =>
      rw [hstat] at hb
      cases e <;> cases hb

theorem cwd_makeDirectory {g : Files} (h : f.makeDirectory p = .ok g) : g.cwd = f.cwd := by
  obtain ⟨-, rfl⟩ := makeDirectory_eq_ok h
  rfl

theorem cwd_makeDirectories {g : Files} {depth : Nat} (h : f.makeDirectories depth p = .ok g) :
    g.cwd = f.cwd := by
  fun_induction makeDirectories f depth p generalizing g with
  | case1 depth p f' hmade =>
    obtain rfl := Except.ok.inj h
    exact cwd_makeDirectory hmade
  | case2 p depth hmissing ih =>
    obtain ⟨f', habove, h⟩ := bind_eq_ok.mp h
    rw [← ih habove]
    split at h
    · obtain rfl := Except.ok.inj h
      exact cwd_makeDirectory ‹_›
    · cases h
    · rw [(orDirectory_eq_ok h).1]
  | case3 => cases h
  | case4 => rw [(orDirectory_eq_ok h).1]

/-- Where a directory is made with those that lead to it, one is. -/
theorem stat_makeDirectories {g : Files} (hcwd : f.cwd.Named) (hp : p.Named) {depth : Nat}
    (h : f.makeDirectories depth p = .ok g) : ∃ es, g.stat p = .ok (.directory es) := by
  have hmade : ∀ {f g : Files}, f.cwd.Named → f.makeDirectory p = .ok g →
      ∃ es, g.stat p = .ok (.directory es) := fun hcwd h => by
    obtain ⟨hv, rfl⟩ := makeDirectory_eq_ok h
    exact ⟨[], hv.stat_put hcwd hp _⟩
  have hstands : ∀ {f g : Files} {e : FileError}, f.orDirectory p e = .ok g →
      ∃ es, g.stat p = .ok (.directory es) := fun h => by
    obtain ⟨rfl, hes⟩ := orDirectory_eq_ok h
    exact hes
  unfold makeDirectories at h
  split at h
  · obtain rfl := Except.ok.inj h
    exact hmade hcwd ‹_›
  · obtain ⟨f', habove, h⟩ := bind_eq_ok.mp h
    split at h
    · obtain rfl := Except.ok.inj h
      exact hmade (by rwa [cwd_makeDirectories habove]) ‹_›
    · cases h
    · exact hstands h
  · cases h
  · exact hstands h

/-- A file is saved where nothing or a file stands, once its directory is made. -/
theorem save_eq_ok_iff {g : Files} {bytes : List UInt8} :
    f.save p bytes = .ok g ↔ ∃ f', f.makeDirectories p.parts.length p.parent = .ok f' ∧
      (f'.stat p = .error .missing ∨ ∃ old, f'.stat p = .ok (.file old)) ∧ f'.put p (.file bytes) = g := by
  rw [save, bind_eq_ok]
  refine exists_congr fun f' => and_congr_right fun _ => ?_
  cases hstat : f'.stat p with
  | ok n =>
    cases n with
    | file old => simp
    | directory es => simp
  | error e => cases e <;> simp

/-- What is saved at a path is found there. -/
theorem stat_save {g : Files} (hcwd : f.cwd.Named) (hp : p.Named) {bytes : List UInt8}
    (h : f.save p bytes = .ok g) : g.cwd = f.cwd ∧ g.stat p = .ok (.file bytes) := by
  have hparent : p.parent.Named := fun s hs => hp s (List.mem_of_mem_dropLast hs)
  obtain ⟨f', hmade, hfree, rfl⟩ := save_eq_ok_iff.mp h
  have hsame := cwd_makeDirectories hmade
  have hv : f'.Vacant p := ⟨hfree, stat_makeDirectories hcwd hparent hmade⟩
  exact ⟨hsame, hv.stat_put (by rwa [hsame]) hp _⟩

/-- A path at which a file was saved is that of a file. -/
theorem isFile_save {g : Files} (hcwd : f.cwd.Named) (hp : p.Named) {bytes : List UInt8}
    (h : f.save p bytes = .ok g) : g.isFile p = .ok true := by
  rw [isFile, probe, (stat_save hcwd hp h).2]
  rfl

/-- What was saved at a path is read there. -/
theorem read_save {g : Files} (hcwd : f.cwd.Named) (hp : p.Named) {bytes : List UInt8}
    (h : f.save p bytes = .ok g) : g.read p = .ok bytes :=
  read_eq_ok_iff.mpr (stat_save hcwd hp h).2

/-! ## When files can be saved -/

/-- A directory stands at a path, or it can be made there, `depth` of those that lead to it included:
nothing stands there yet, and the name does not lead back and is short enough. -/
inductive CanMake (f : Files) : Nat → Path → Prop
  | stands {depth : Nat} {p : Path} {es : List (String × Node)} (h : f.stat p = .ok (.directory es)) :
      CanMake f depth p
  | made {depth : Nat} {p : Path} {name : String} (missing : f.stat p = .error .missing)
      (parts : p.parts = p.parent.parts ++ [name]) (dots : name ≠ "..")
      (length : Text.utf8Length name ≤ maxNameLength) (parent : CanMake f depth p.parent) :
      CanMake f (depth + 1) p

/-- Nothing stands in an empty directory. -/
theorem stat_of_empty (hcwd : f.cwd.Named) (hp : p.Named) {name : String}
    (hparts : p.parts = p.parent.parts ++ [name]) (hdots : name ≠ "..")
    (hlength : Text.utf8Length name ≤ maxNameLength) (hlook : CanLookUp p.text)
    (hdir : f.stat p.parent = .ok (.directory [])) : f.stat p = .error .missing := by
  obtain ⟨above, -, hstat⟩ := stat_eq_walk hcwd hp hparts hlook hdir
  have hmoves := moves_iff.mp (moves_of_isName (hp name (by rw [hparts]; simp)))
  rw [hstat, walk, if_neg hmoves, if_neg hdots, if_neg (Nat.not_lt.mpr hlength)]
  rfl

/-- Directories that can be made are made: nothing changes where one stands, and an empty one stands where
none did. -/
theorem CanMake.exists_makeDirectories {depth : Nat} (h : f.CanMake depth p) (hcwd : f.cwd.Named)
    (hp : p.Named) : ∃ g, f.makeDirectories depth p = .ok g ∧
      ((g = f ∧ ∃ es, f.stat p = .ok (.directory es)) ∨ g.stat p = .ok (.directory [])) := by
  induction h with
  | @stands depth p es hes =>
    have hexists : f.makeDirectory p = .error .exists := by rw [makeDirectory, hes]
    refine ⟨f, ?_, .inl ⟨rfl, es, hes⟩⟩
    unfold makeDirectories
    rw [hexists]
    dsimp only
    rw [orDirectory, isDirectory, probe, hes]
    rfl
  | @made depth p name hmissing hparts hdots hlength habove ih =>
    have hparent : p.parent.Named := fun s hs => hp s (List.mem_of_mem_dropLast hs)
    have hlook : CanLookUp p.text :=
      canLookUp_of_lookup (text_ne_empty hp (by rw [hparts]; simp)) (.inl hmissing)
    cases habove with
    | stands hes =>
      obtain ⟨hmake, hstat⟩ := makeDirectory_of_missing hcwd hp hmissing hes
      refine ⟨_, ?_, .inr hstat⟩
      unfold makeDirectories
      rw [hmake]
    | made hnone =>
      have habsent : f.makeDirectory p = .error .missing := by
        rw [makeDirectory, hmissing]
        dsimp only
        rw [hnone]
        rfl
      obtain ⟨f', hmade, ⟨-, es, hes⟩ | hempty⟩ := ih hparent
      · cases hnone.symm.trans hes
      have hcwd' : f'.cwd.Named := by rwa [cwd_makeDirectories hmade]
      have hmissing' := stat_of_empty hcwd' hp hparts hdots hlength hlook hempty
      obtain ⟨hmake, hstat⟩ := makeDirectory_of_missing hcwd' hp hmissing' hempty
      refine ⟨_, ?_, .inr hstat⟩
      unfold makeDirectories
      rw [habsent]
      dsimp only
      rw [hmade, ok_bind, hmake]

/-- A file can be saved at a path: nothing or a file stands there, the last name is short enough, and the
directory stands or can be made. -/
structure CanSave (f : Files) (p : Path) : Prop where
  free : f.stat p = .error .missing ∨ ∃ old, f.stat p = .ok (.file old)
  length : Text.utf8Length p.name ≤ maxNameLength
  directory : f.CanMake p.parts.length p.parent

theorem CanSave.exists_save (h : f.CanSave p) (hcwd : f.cwd.Named) (hp : p.Named) (hne : p.parts ≠ [])
    (hdots : p.name ≠ "..") (bytes : List UInt8) : ∃ g, f.save p bytes = .ok g := by
  have hparent : p.parent.Named := fun s hs => hp s (List.mem_of_mem_dropLast hs)
  have hlook : CanLookUp p.text :=
    canLookUp_of_lookup (text_ne_empty hp hne) (h.free.imp id fun ⟨_, h⟩ => ⟨_, h⟩)
  obtain ⟨f', hmade, ⟨rfl, -⟩ | hempty⟩ := h.directory.exists_makeDirectories hcwd hparent
  · exact ⟨_, save_eq_ok_iff.mpr ⟨f', hmade, h.free, rfl⟩⟩
  · have hcwd' : f'.cwd.Named := by rwa [cwd_makeDirectories hmade]
    have hmissing := stat_of_empty hcwd' hp (parts_eq hne) hdots h.length hlook hempty
    exact ⟨_, save_eq_ok_iff.mpr ⟨f', hmade, .inl hmissing, rfl⟩⟩

end Files

end ScriptService
