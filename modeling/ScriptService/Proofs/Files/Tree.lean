import ScriptService.Files.Tree
import ScriptService.Proofs.Failure
import ScriptService.Proofs.Path.Basic

/-!
# Trees of files

The type of trees lets entries have any name. In those that a file system can hold
the names are names, and none leads back (`Node.Sound`). What a path leads to is the
end of a walk (`Files.lookup_eq_ok_iff`); in such a tree it is one again
(`Files.sound_of_walk`, `Files.Sound.of_lookup`), and the way to each of its files
is a path without double dots (`Node.Sound.normal_of_mem_files`).
-/

namespace ScriptService

namespace Node

/-- A tree that a file system can hold. -/
inductive Sound : Node → Prop
  | file (bytes : List UInt8) : Sound (.file bytes)
  | directory {es : List (String × Node)} (name : ∀ e ∈ es, Path.IsName e.1 ∧ e.1 ≠ "..")
      (entry : ∀ e ∈ es, Sound e.2) : Sound (.directory es)

theorem mem_entryFiles {names : List String} {es : List (String × Node)} :
    names ∈ entryFiles es ↔ ∃ e ∈ es, ∃ rest ∈ files e.2, names = e.1 :: rest := by
  induction es with
  | nil => simp [entryFiles]
  | cons e es ih =>
    obtain ⟨name, n⟩ := e
    rw [entryFiles, List.mem_append, ih, List.mem_map]
    simp only [List.mem_cons, exists_eq_or_imp, eq_comm (a := names)]

/-- The ways to the files of a tree are paths without double dots. -/
theorem Sound.normal_of_mem_files {n : Node} (h : n.Sound) {names : List String} (hmem : names ∈ files n) :
    Path.Normal ⟨.relative, names⟩ := by
  induction h generalizing names with
  | file bytes =>
    rw [files, List.mem_singleton] at hmem
    subst hmem
    exact ⟨nofun, nofun⟩
  | directory hname _ ih =>
    rw [files, mem_entryFiles] at hmem
    obtain ⟨e, he, rest, hrest, rfl⟩ := hmem
    obtain ⟨hnamed, hdots⟩ := ih e he hrest
    obtain ⟨hfirst, hback⟩ := hname e he
    constructor
    · intro s hs
      rcases List.mem_cons.mp hs with rfl | hs
      · exact hfirst
      · exact hnamed s hs
    · intro hs
      rcases List.mem_cons.mp hs with hs | hs
      · exact hback hs.symm
      · exact hdots hs

theorem Sound.of_lookup {es : List (String × Node)} (h : Sound (.directory es)) {name : String} {n : Node}
    (hn : es.lookup name = some n) : n.Sound := by
  cases h with
  | directory _ hentry =>
    obtain ⟨before, after, rfl, -⟩ := List.lookup_eq_some_iff.mp hn
    exact hentry (name, n) (by simp)

end Node

namespace Files

/-- Files that a file system can hold. -/
def Sound (f : Files) : Prop := f.root.Sound

/-- The nodes on the way to one are parts of the tree. -/
theorem sound_of_walk {path : String} {stack out : List Node} {names : List String}
    (hstack : ∀ n ∈ stack, n.Sound) (h : walk path stack names = .ok out) : ∀ n ∈ out, n.Sound := by
  fun_induction walk path stack names with
  | case1 stack =>
    obtain rfl := Except.ok.inj h
    exact hstack
  | case2 | case3 => cases h
  | case4 es above name names _ ih => exact ih hstack h
  | case5 es above names _ ih =>
    refine ih (fun n hn => ?_) h
    split at hn
    · rw [List.mem_singleton.mp hn]
      exact hstack _ List.mem_cons_self
    · exact hstack n (List.mem_cons_of_mem _ hn)
  | case6 => cases h
  | case7 => cases h
  | case8 es above name names _ _ _ m hm ih =>
    refine ih (fun n hn => ?_) h
    rcases List.mem_cons.mp hn with rfl | hn
    · exact (hstack _ List.mem_cons_self).of_lookup hm
    · exact hstack n hn

theorem startsWith_slash (path : String) : path.startsWith "/" = (Path.ofString path).isAbsolute := by
  rw [Bool.eq_iff_iff, String.startsWith_string_iff, Path.ofString_eq, Path.isAbsolute, decide_eq_true_eq]
  cases path.toList with
  | nil => decide
  | cons c s =>
    by_cases hc : c = '/'
    · subst hc
      rw [List.takeWhile_cons_of_pos (by decide), List.length_cons]
      refine iff_of_true (by simp) ?_
      rcases (s.takeWhile (· == '/')).length with _ | _ | n <;> simp [Path.Anchor.ofSlashes]
    · rw [List.takeWhile_cons_of_neg (by simpa using hc)]
      refine iff_of_false ?_ (fun h => h rfl)
      simpa using Ne.symm hc

/-- A lookup is a walk along a path's pieces, from the root or from the working directory. -/
theorem lookup_eq (f : Files) (path : String) :
    f.lookup path =
      if path.toList.contains '\x00' then .error .nulInPath
      else if path.isEmpty then .error .missing
      else if Text.utf8Length path > maxPathLength then .error (.nameTooLong path)
      else (if path.startsWith "/" then .ok [f.root] else walk path [f.root] f.cwd.parts) >>= fun start =>
        walk path start ((Path.piecesFrom [] path.toList).map String.ofList) >>= fun out =>
          out.head?.elim (.error .missing) .ok := by
  have hend : ∀ (x : Except FileError (List Node)) {k : List Node → Except FileError Node},
      (∀ out, k out = out.head?.elim (.error .missing) .ok) →
        x >>= k = x >>= fun out => out.head?.elim (.error .missing) .ok := fun x k h =>
    congrArg (x >>= ·) (funext h)
  rw [lookup]
  split
  · rfl
  split
  · rfl
  split
  · rfl
  dsimp only
  split
  all_goals exact congrArg _ (funext fun start => hend _ fun out => by cases out <;> rfl)

/-- What a path leads to is the end of a walk along its pieces, from the root or from the working
directory. -/
theorem lookup_eq_ok_iff {f : Files} {path : String} {n : Node} :
    f.lookup path = .ok n ↔
      '\x00' ∉ path.toList ∧ path ≠ "" ∧ Text.utf8Length path ≤ maxPathLength ∧
        ∃ start above,
          (if (Path.ofString path).isAbsolute then .ok [f.root] else walk path [f.root] f.cwd.parts) = .ok start ∧
          walk path start ((Path.piecesFrom [] path.toList).map String.ofList) = .ok (n :: above) := by
  rw [lookup_eq]
  by_cases hnul : '\x00' ∈ path.toList
  · rw [if_pos (by simpa using hnul)]
    exact iff_of_false (fun h => by cases h) fun hno => hno.1 hnul
  rw [if_neg (by simpa using hnul), and_iff_right hnul]
  by_cases hempty : path = ""
  · rw [if_pos (String.isEmpty_iff.mpr hempty)]
    exact iff_of_false (fun h => by cases h) fun hno => hno.1 hempty
  rw [if_neg (by rwa [String.isEmpty_iff]), and_iff_right hempty]
  by_cases hlength : Text.utf8Length path > maxPathLength
  · rw [if_pos hlength]
    exact iff_of_false (fun h => by cases h) fun hno => absurd hno.1 (Nat.not_le.mpr hlength)
  rw [if_neg hlength, and_iff_right (Nat.not_lt.mp hlength), startsWith_slash, bind_eq_ok]
  simp only [exists_and_left]
  refine exists_congr fun start => and_congr_right fun _ => ?_
  rw [bind_eq_ok]
  constructor
  · rintro ⟨stack, hstack, h⟩
    cases stack with
    | nil => cases h
    | cons m above =>
      obtain rfl := Except.ok.inj h
      exact ⟨above, hstack⟩
  · rintro ⟨above, h⟩
    exact ⟨_, h, rfl⟩

theorem Sound.of_lookup {f : Files} (hf : f.Sound) {path : String} {n : Node}
    (h : f.lookup path = .ok n) : n.Sound := by
  have hroot : ∀ m ∈ [f.root], m.Sound := fun m hm => List.mem_singleton.mp hm ▸ hf
  obtain ⟨-, -, -, start, above, hstart, hwalk⟩ := lookup_eq_ok_iff.mp h
  have hsound : ∀ m ∈ start, m.Sound := by
    split at hstart
    · obtain rfl := Except.ok.inj hstart
      exact hroot
    · exact sound_of_walk hroot hstart
  exact sound_of_walk hsound hwalk n List.mem_cons_self

theorem Sound.of_probe {f : Files} (hf : f.Sound) {p : Path} {n : Node}
    (h : f.probe p = .ok (some n)) : n.Sound := by
  rw [probe] at h
  split at h
  · rename_i m hm
    obtain rfl := Option.some.inj (Except.ok.inj h)
    exact hf.of_lookup hm
  · cases h
  · cases h

end Files

end ScriptService
