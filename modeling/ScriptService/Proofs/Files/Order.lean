import Mathlib.Data.List.Sort
import ScriptService.Proofs.Files.Reach

/-!
# The order of entries does not matter

Two trees are the same if the same files with the same bytes and the same directories
stand in them (`Node.Same`). To list the entries of directories in another order
changes nothing of that (`Node.Reordered.same`). Walks in trees that are the same stay
together (`Files.walk_agree`), so all that is read of files agrees: what stands at a
path, the bytes there and the files that a search finds below it
(`Files.Alike.stat`, `Files.Alike.read`, `Files.Alike.findFiles`).
-/

namespace ScriptService

/-! ## Trees -/

namespace Node

/-- The bytes of a file. -/
def bytes? : Node → Option (List UInt8)
  | .file bytes => some bytes
  | .directory _ => none

/-- The same files with the same bytes and the same directories stand in two trees. -/
def Same (m n : Node) : Prop := ∀ names, (m.below? names).map bytes? = (n.below? names).map bytes?

/-- Entries of directories, at any depth, are listed in another order. -/
inductive Reordered : Node → Node → Prop
  | refl (n : Node) : Reordered n n
  | entries {es fs : List (String × Node)} (h : es.Perm fs) : Reordered (.directory es) (.directory fs)
  | entry {m n : Node} (before : List (String × Node)) (name : String) (after : List (String × Node))
      (h : Reordered m n) :
      Reordered (.directory (before ++ (name, m) :: after)) (.directory (before ++ (name, n) :: after))
  | trans {m n k : Node} (h : Reordered m n) (h' : Reordered n k) : Reordered m k

theorem Same.refl (n : Node) : n.Same n := fun _ => rfl

theorem Same.symm {m n : Node} (h : m.Same n) : n.Same m := fun names => (h names).symm

theorem Same.trans {m n k : Node} (h : m.Same n) (h' : n.Same k) : m.Same k :=
  fun names => (h names).trans (h' names)

theorem Same.file {bytes : List UInt8} {n : Node} (h : Same (.file bytes) n) : n = .file bytes := by
  cases n with
  | file bytes' =>
    obtain rfl := Option.some.inj (Option.some.inj (h []))
    rfl
  | directory es => cases h []

/-- The entries of directories that are the same are the same, name by name. -/
theorem Same.directory {es : List (String × Node)} {n : Node} (h : Same (.directory es) n) :
    ∃ fs, n = .directory fs ∧ ∀ name, Option.Rel Same (es.lookup name) (fs.lookup name) := by
  cases n with
  | file bytes => cases h []
  | directory fs =>
    refine ⟨fs, rfl, fun name => ?_⟩
    have hchild : ∀ names, ((es.lookup name).bind (below? · names)).map bytes? =
        ((fs.lookup name).bind (below? · names)).map bytes? := fun names => h (name :: names)
    cases hes : es.lookup name with
    | none =>
      cases hfs : fs.lookup name with
      | none => exact .none
      | some n =>
        rw [hes, hfs] at hchild
        cases hchild []
    | some m =>
      cases hfs : fs.lookup name with
      | none =>
        rw [hes, hfs] at hchild
        cases hchild []
      | some n =>
        rw [hes, hfs] at hchild
        exact .some fun names => hchild names

theorem same_of_lookup {es fs : List (String × Node)}
    (h : ∀ name, Option.Rel Same (es.lookup name) (fs.lookup name)) : Same (.directory es) (.directory fs)
  | [] => rfl
  | name :: names => by
    have hname := h name
    rw [below?, below?, child?, child?]
    generalize es.lookup name = m, fs.lookup name = n at hname
    cases hname with
    | none => rfl
    | some hsame => exact hsame names

theorem Same.isDirectory {m n : Node} (h : m.Same n) : m.isDirectory = n.isDirectory := by
  cases m with
  | file bytes => rw [h.file]
  | directory es =>
    obtain ⟨fs, rfl, -⟩ := h.directory
    rfl

/-- The same files stand at each way. -/
theorem Same.below?_file {m n : Node} (h : m.Same n) {names : List String} {bytes : List UInt8}
    (hm : m.below? names = some (.file bytes)) : n.below? names = some (.file bytes) := by
  have hnames := h names
  rw [hm] at hnames
  cases hn : n.below? names with
  | none =>
    rw [hn] at hnames
    cases hnames
  | some k =>
    rw [hn] at hnames
    cases k with
    | file bytes' =>
      obtain rfl := Option.some.inj (Option.some.inj hnames)
      rfl
    | directory es => cases hnames

/-- The same directories stand at each way. -/
theorem Same.below?_directory {m n : Node} (h : m.Same n) {names : List String} {es : List (String × Node)}
    (hm : m.below? names = some (.directory es)) : ∃ fs, n.below? names = some (.directory fs) := by
  have hnames := h names
  rw [hm] at hnames
  cases hn : n.below? names with
  | none =>
    rw [hn] at hnames
    cases hnames
  | some k =>
    rw [hn] at hnames
    cases k with
    | file bytes => cases hnames
    | directory fs => exact ⟨fs, rfl⟩

theorem Same.inReach {m n : Node} (h : m.Same n) {depth : Nat} {dir : Path} {extension : String}
    (hm : m.InReach depth dir extension) : n.InReach depth dir extension := by
  refine ⟨fun names es hes => ?_, fun names es hes => ?_, fun names k hk => ?_⟩
  · obtain ⟨fs, hfs⟩ := h.symm.below?_directory hes
    exact hm.shallow names fs hfs
  · obtain ⟨fs, hfs⟩ := h.symm.below?_directory hes
    exact hm.directories names fs hfs
  · cases k with
    | file bytes => exact hm.entries names _ (h.symm.below?_file hk)
    | directory es =>
      obtain ⟨fs, hfs⟩ := h.symm.below?_directory hk
      exact hm.entries names _ hfs

theorem Same.lists_iff {m n : Node} (h : m.Same n) {extension path : String} :
    m.Lists extension path ↔ n.Lists extension path := by
  have himp : ∀ {m n : Node}, m.Same n → m.Lists extension path → n.Lists extension path :=
    fun h ⟨names, bytes, hne, hbelow, hrest⟩ => ⟨names, bytes, hne, h.below?_file hbelow, hrest⟩
  exact ⟨himp h, himp h.symm⟩

theorem lookup_perm {es fs : List (String × Node)} (h : es.Perm fs) (hes : (es.map Prod.fst).Nodup)
    (name : String) : es.lookup name = fs.lookup name := by
  have hfs : (fs.map Prod.fst).Nodup := (h.map Prod.fst).nodup_iff.mp hes
  refine Option.ext fun n => ?_
  rw [lookup_eq_some_iff_mem hes, lookup_eq_some_iff_mem hfs, h.mem_iff]

theorem Reordered.proper {m n : Node} (h : Reordered m n) (hm : m.Proper) : n.Proper := by
  induction h with
  | refl n => exact hm
  | @entries es fs h =>
    cases hm with
    | directory hname hnodup hentry =>
      exact .directory (fun e he => hname e (h.mem_iff.mpr he)) ((h.map Prod.fst).nodup_iff.mp hnodup)
        fun e he => hentry e (h.mem_iff.mpr he)
  | @entry m n before name after h ih =>
    cases hm with
    | directory hname hnodup hentry =>
      rw [List.forall_mem_append, List.forall_mem_cons] at hname hentry
      refine .directory ?_ ?_ ?_
      · rw [List.forall_mem_append, List.forall_mem_cons]
        exact hname
      · rwa [List.map_append, List.map_cons] at hnodup ⊢
      · rw [List.forall_mem_append, List.forall_mem_cons]
        exact ⟨hentry.1, ih hentry.2.1, hentry.2.2⟩
  | trans _ _ ih ih' => exact ih' (ih hm)

/-- In another order of entries a tree is the same. -/
theorem Reordered.same {m n : Node} (h : Reordered m n) (hm : m.Proper) : m.Same n := by
  induction h with
  | refl n => exact .refl n
  | @entries es fs h =>
    cases hm with
    | directory _ hnodup _ =>
      refine same_of_lookup fun name => ?_
      rw [lookup_perm h hnodup]
      cases fs.lookup name with
      | none => exact .none
      | some n => exact .some (.refl n)
  | @entry m n before name after h ih =>
    cases hm with
    | directory _ _ hentry =>
      have hsame := ih (hentry (name, m) (by simp))
      refine same_of_lookup fun name' => ?_
      rw [List.lookup_append, List.lookup_append, List.lookup_cons, List.lookup_cons]
      cases before.lookup name' with
      | some n => exact .some (.refl n)
      | none =>
        cases name' == name with
        | true => exact .some hsame
        | false =>
          cases after.lookup name' with
          | none => exact .none
          | some n => exact .some (.refl n)
  | trans h h' ih ih' => exact (ih hm).trans (ih' (h.proper hm))

end Node

/-! ## Reading -/

namespace Files

/-- Two results fail alike, or agree. -/
inductive Agree {α β : Type} (r : α → β → Prop) : Except FileError α → Except FileError β → Prop
  | ok {a : α} {b : β} (h : r a b) : Agree r (.ok a) (.ok b)
  | error (e : FileError) : Agree r (.error e) (.error e)

theorem Agree.bind {α β γ δ : Type} {r : α → β → Prop} {q : γ → δ → Prop} {x : Except FileError α}
    {y : Except FileError β} {f : α → Except FileError γ} {g : β → Except FileError δ} (h : Agree r x y)
    (hf : ∀ a b, r a b → Agree q (f a) (g b)) : Agree q (x >>= f) (y >>= g) := by
  cases h with
  | ok h => exact hf _ _ h
  | error e => exact .error e

/-- Walks from nodes that are the same stay together. -/
theorem walk_agree {stack stack' : List Node} (h : List.Forall₂ Node.Same stack stack') (path : String)
    (names : List String) :
    Agree (List.Forall₂ Node.Same) (walk path stack names) (walk path stack' names) := by
  fun_induction walk path stack names generalizing stack' with
  | case1 stack =>
    rw [walk]
    exact .ok h
  | case2 =>
    cases h
    exact .error _
  | case3 =>
    obtain _ | ⟨hfile, _⟩ := h
    obtain rfl := hfile.file
    exact .error _
  | case4 es above name names hname ih =>
    obtain _ | ⟨hdir, habove⟩ := h
    obtain ⟨fs, rfl, -⟩ := hdir.directory
    rw [walk, if_pos hname]
    exact ih (.cons hdir habove)
  | case5 es above names hname ih =>
    obtain _ | ⟨hdir, habove⟩ := h
    obtain ⟨fs, rfl, -⟩ := hdir.directory
    rw [walk, if_neg hname, if_pos rfl]
    refine ih ?_
    cases habove with
    | nil => exact .cons hdir .nil
    | cons h habove => exact .cons h habove
  | case6 es above name names hname hdots hlength =>
    obtain _ | ⟨hdir, habove⟩ := h
    obtain ⟨fs, rfl, -⟩ := hdir.directory
    rw [walk, if_neg hname, if_neg hdots, if_pos hlength]
    exact .error _
  | case7 es above name names hname hdots hlength hn =>
    obtain _ | ⟨hdir, habove⟩ := h
    obtain ⟨fs, rfl, hentries⟩ := hdir.directory
    have hentry := hentries name
    rw [hn] at hentry
    rw [walk, if_neg hname, if_neg hdots, if_neg hlength]
    generalize fs.lookup name = m at hentry
    cases hentry
    exact .error _
  | case8 es above name names hname hdots hlength n hn ih =>
    obtain _ | ⟨hdir, habove⟩ := h
    obtain ⟨fs, rfl, hentries⟩ := hdir.directory
    have hentry := hentries name
    rw [hn] at hentry
    rw [walk, if_neg hname, if_neg hdots, if_neg hlength]
    generalize fs.lookup name = m at hentry
    cases hentry with
    | some hsame => exact ih (.cons hsame (.cons hdir habove))

/-- The same files, seen from the same directory, of which a search can enter as many. -/
structure Alike (f g : Files) : Prop where
  left : f.Proper
  right : g.Proper
  root : f.root.Same g.root
  cwd : f.cwd = g.cwd
  depth : f.depth = g.depth

theorem Alike.symm {f g : Files} (h : f.Alike g) : g.Alike f :=
  ⟨h.right, h.left, h.root.symm, h.cwd.symm, h.depth.symm⟩

namespace Alike

variable {f g : Files} (h : f.Alike g)
include h

theorem stat (p : Path) : Agree Node.Same (f.stat p) (g.stat p) := by
  have hroot : List.Forall₂ Node.Same [f.root] [g.root] := .cons h.root .nil
  rw [Files.stat, Files.stat, lookup_eq, lookup_eq, h.cwd]
  split
  · exact .error _
  split
  · exact .error _
  split
  · exact .error _
  refine Agree.bind (r := List.Forall₂ Node.Same) ?_ fun _ _ hstart =>
    (walk_agree hstart _ _).bind fun out out' hout => ?_
  · split
    · exact .ok hroot
    · exact walk_agree hroot _ _
  · cases hout with
    | nil => exact .error _
    | cons hn _ => exact .ok hn

theorem probe (p : Path) : Agree (Option.Rel Node.Same) (f.probe p) (g.probe p) := by
  have hstat := h.stat p
  rw [Files.probe, Files.probe]
  generalize f.stat p = x, g.stat p = y at hstat
  cases hstat with
  | ok hn => exact .ok (.some hn)
  | error e =>
    cases e with
    | nameTooLong path => exact .error _
    | _ => exact .ok .none

theorem any_probe (p : Path) {q : Node → Bool} (hq : ∀ {m n}, Node.Same m n → q m = q n) :
    (f.probe p).map (·.any q) = (g.probe p).map (·.any q) := by
  have hprobe := h.probe p
  generalize f.probe p = x, g.probe p = y at hprobe
  obtain hn | e := hprobe
  · cases hn with
    | none => rfl
    | some hn => exact congrArg Except.ok (hq hn)
  · rfl

theorem isDirectory (p : Path) : f.isDirectory p = g.isDirectory p :=
  h.any_probe p fun hn => hn.isDirectory

theorem isFile (p : Path) : f.isFile p = g.isFile p :=
  h.any_probe p fun hn => congrArg (!·) hn.isDirectory

theorem read (p : Path) : f.read p = g.read p := by
  have hstat := h.stat p
  rw [Files.read, Files.read]
  generalize f.stat p = x, g.stat p = y at hstat
  obtain @⟨m, n, hn⟩ | e := hstat
  · cases m with
    | file bytes => rw [hn.file]
    | directory es =>
      obtain ⟨fs, rfl, -⟩ := hn.directory
      rfl
  · rfl

theorem probe_of_probe {dir : Path} {n : Node} (hn : f.probe dir = .ok (some n)) :
    ∃ m, g.probe dir = .ok (some m) ∧ n.Same m := by
  have hprobe := h.probe dir
  rw [hn] at hprobe
  generalize hg : g.probe dir = y at hprobe
  obtain @⟨_, m, hm⟩ := hprobe
  obtain @⟨_, m, hm⟩ := hm
  exact ⟨m, rfl, hm⟩

/-- A search gets everywhere among the same files. -/
theorem reaches {dir : Path} {extension : String} (hf : f.Reaches dir extension) :
    g.Reaches dir extension := by
  intro es hes
  obtain ⟨n, hn, hsame⟩ := h.symm.probe_of_probe hes
  obtain ⟨fs, rfl, -⟩ := hsame.directory
  rw [← h.depth]
  exact hsame.symm.inReach (hf fs hn)

/-- The same files are found, or none in both; which of the paths that are out of reach is met first may
differ. -/
theorem findFiles (dir : Path) (extension : String) :
    (findFiles f dir extension).toOption = (findFiles g dir extension).toOption := by
  have hlists : ∀ {f g : Files}, f.Alike g → ∀ {path},
      (∃ n, f.probe dir = .ok (some n) ∧ n.Lists extension path) →
        ∃ n, g.probe dir = .ok (some n) ∧ n.Lists extension path := fun h path ⟨n, hn, hpath⟩ => by
    obtain ⟨m, hm, hsame⟩ := h.probe_of_probe hn
    exact ⟨m, hm, hsame.lists_iff.mp hpath⟩
  have hfound : ∀ {f g : Files}, f.Alike g → ∀ {found}, ScriptService.findFiles f dir extension = .ok found →
      ScriptService.findFiles g dir extension = .ok found := fun {f g} h found hf => by
    obtain ⟨node, hnode, -⟩ := findFiles_eq_ok hf
    have hreaches := (findFiles_isOk_iff h.left hnode extension).mp ⟨found, hf⟩
    obtain ⟨node', hnode'⟩ : ∃ node', g.probe dir = .ok node' := by
      have hprobe := h.probe dir
      rw [hnode] at hprobe
      generalize g.probe dir = y at hprobe
      cases hprobe
      exact ⟨_, rfl⟩
    obtain ⟨found', hg⟩ := (findFiles_isOk_iff h.right hnode' extension).mpr (h.reaches hreaches)
    obtain ⟨hlt, hmem⟩ := findFiles_exact h.left hf
    obtain ⟨hlt', hmem'⟩ := findFiles_exact h.right hg
    have hsame : ∀ path, path ∈ found ↔ path ∈ found' := fun path => by
      rw [hmem, hmem']
      exact ⟨hlists h, hlists h.symm⟩
    rw [hg, hlt.eq_of_mem_iff hlt' fun {path} => hsame path]
  cases hf : ScriptService.findFiles f dir extension with
  | ok found => rw [hfound h hf]
  | error e =>
    cases hg : ScriptService.findFiles g dir extension with
    | ok found => cases hf.symm.trans (hfound h.symm hg)
    | error e' => rfl

end Alike

end Files

end ScriptService
