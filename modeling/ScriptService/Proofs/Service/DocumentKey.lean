import ScriptService.Proofs.Failure
import ScriptService.Proofs.Path.Uri
import ScriptService.Service.Basic

/-!
# Document keys

The file of a document is told by its URI, and the document's key is its path from
the workspace. A URI is written with escapes once and read with escapes resolved
twice, so what comes back is the path with the escapes in its own names resolved
(`Uri.readBack`). That is the path itself just if there are none in it:

* `Uri.readBack_of_not_hasEscape`: a path without escapes comes back;
* `Uri.size_readBack_lt`: one with an escape comes back smaller;
* `Uri.uris_keep_paths_and_keys`: which paths and which keys survive.
-/

namespace ScriptService

namespace Uri

/-- What a URI's reader makes of a path that was written. -/
def readBack (p : Path) : Path :=
  Path.ofString (String.ofList (unescape p.text.toList))

/-- Texts of paths that have a URI and come back from it. -/
structure Survives (s : List Char) : Prop where
  nul : '\x00' ∉ s
  escape : hasEscape s = false

instance (s : List Char) : Decidable (Survives s) :=
  decidable_of_iff ('\x00' ∉ s ∧ hasEscape s = false) ⟨fun h => ⟨h.1, h.2⟩, fun h => ⟨h.1, h.2⟩⟩

theorem text_root {p : Path} (h : p.anchor = .root) :
    p.text.toList = '/' :: Path.namesText p.parts := by
  rw [Path.text_eq p (.inl (by rw [h]; nofun)), h]
  rfl

theorem readBack_of_not_hasEscape {p : Path} (hp : p.Named) (h : hasEscape p.text.toList = false) :
    readBack p = p := by
  rw [readBack, unescape_of_not_hasEscape h, String.ofList_toList, Path.ofString_text hp]

theorem toList_unescaped {p : Path} (h : p.anchor = .root) :
    (String.ofList (unescape p.text.toList)).toList = '/' :: unescape (Path.namesText p.parts) := by
  rw [String.toList_ofList, text_root h, unescape_slash]

theorem isAbsolute_readBack {p : Path} (h : p.anchor = .root) : (readBack p).isAbsolute = true := by
  rw [readBack, Path.ofString_eq, toList_unescaped h, List.takeWhile_cons_of_pos (by decide), List.length_cons,
    Path.isAbsolute, decide_eq_true_eq]
  generalize (List.takeWhile (· == '/') (unescape (Path.namesText p.parts))).length = n
  rcases n with _ | _ | n <;> simp [Path.Anchor.ofSlashes]

/-- A path with an escape in it comes back smaller. -/
theorem size_readBack_lt {p : Path} (ha : p.anchor = .root) (h : hasEscape p.text.toList = true) :
    (readBack p).size < p.size := by
  have hparts : p.parts ≠ [] := fun e => by
    rw [text_root ha, e] at h
    cases h
  calc (readBack p).size ≤ (unescape p.text.toList).length := by
        have hle := Path.size_ofString_le (s := String.ofList (unescape p.text.toList))
          (by rw [toList_unescaped ha, List.head?_cons])
        rwa [String.toList_ofList] at hle
    _ < p.text.toList.length := length_unescape_lt h
    _ = p.size := (Path.size_eq_length ha hparts).symm

/-- What comes back from the URI of an absolute path without double dots. -/
theorem toPath_ofPath {p : Path} (hp : p.Normal) (ha : p.isAbsolute = true) (cwd : Path) :
    (ofPath cwd p >>= toPath) =
      if '\x00' ∈ p.text.toList then .error .nulInPath else .ok (readBack ⟨.root, p.parts⟩) := by
  have hresolve : Path.resolve cwd p = ⟨.root, p.parts⟩ := by
    rw [Path.resolve, Path.join_of_isAbsolute ha, Path.collapseFrom_of_not_mem hp.dots, List.reverse_nil,
      List.nil_append]
  have hread := toPath_ofText (s := (⟨.root, p.parts⟩ : Path).text) (by rw [text_root rfl, List.head?_cons])
  rw [ofPath_eq, hresolve]
  split
  · rw [error_bind]
  · rw [ok_bind, hread, readBack]

theorem toPath_ofPath_eq_ok_iff {p : Path} (hp : p.Normal) (ha : p.isAbsolute = true) (cwd : Path) :
    (ofPath cwd p >>= toPath) = .ok p ↔ p.anchor = .root ∧ Survives p.text.toList := by
  rw [toPath_ofPath hp ha]
  split
  · rename_i hnul
    exact ⟨nofun, fun h => absurd hnul h.2.nul⟩
  · rename_i hnul
    have hself : ∀ {q : Path}, q.anchor = .root → q = ⟨.root, q.parts⟩ := fun h => by rw [← h]
    rw [Except.ok.injEq]
    cases hescape : hasEscape (⟨.root, p.parts⟩ : Path).text.toList with
    | false =>
      rw [readBack_of_not_hasEscape (p := ⟨.root, p.parts⟩) hp.named hescape]
      constructor
      · intro e
        rw [← e] at hnul ⊢
        exact ⟨rfl, hnul, hescape⟩
      · exact fun h => (hself h.1).symm
    | true =>
      have hlt := size_readBack_lt (p := ⟨.root, p.parts⟩) rfl hescape
      constructor
      · intro e
        rw [e] at hlt
        exact absurd hlt (Nat.lt_irrefl p.size)
      · intro h
        rw [← hself h.1, h.2.escape] at hescape
        cases hescape

end Uri

/-- The key that a service gives a document whose URI was made of a path. -/
def Service.keyOf (s : Service) (cwd p : Path) : Except Failure String := do
  s.relativePath (← asFailure .uri (Uri.ofPath cwd p))

/-- The key of a document whose URI was made of an absolute path. -/
theorem Service.keyOf_eq {p : Path} (hp : p.Normal) (ha : p.anchor = .root) (s : Service) (cwd : Path) :
    s.keyOf cwd p =
      if '\x00' ∈ p.text.toList then .error (.uri .nulInPath)
      else .ok (Path.relativeTo (Path.resolve ⟨.root, []⟩ (Uri.readBack p)) s.root).text := by
  have hroot : (⟨.root, p.parts⟩ : Path) = p := by rw [← ha]
  have hread := congrArg (asFailure Failure.uri) (Uri.toPath_ofPath hp (Path.isAbsolute_of_root ha) cwd)
  rw [asFailure_bind, hroot] at hread
  unfold Service.keyOf Service.relativePath
  rw [← bind_assoc, hread]
  split
  · rfl
  · rw [asFailure, ok_bind, if_pos (Uri.isAbsolute_readBack ha)]

theorem Service.keyOf_join_eq_ok_iff {s : Service} {h : Path} (hs : s.root.Normal)
    (hroot : s.root.anchor = .root) (hh : h.Normal) (hr : h.anchor = .relative) (cwd : Path) :
    s.keyOf cwd (s.root.join h) = .ok h.text ↔ Uri.Survives (s.root.join h).text.toList := by
  have hp : (s.root.join h).Normal := hs.join hh hr
  have hparts : (s.root.join h).parts = s.root.parts ++ h.parts := by rw [Path.join_of_relative hr]
  have ha : (s.root.join h).anchor = .root := by rw [Path.join_of_relative hr]; exact hroot
  generalize s.root.join h = p at hp hparts ha ⊢
  rw [Service.keyOf_eq hp ha]
  split
  · rename_i hnul
    exact ⟨nofun, fun h => absurd hnul h.nul⟩
  · rename_i hnul
    have hsub := Path.resolve_parts_sublist (Uri.isAbsolute_readBack ha) ⟨.root, []⟩
    have hnamed : (Path.resolve ⟨.root, []⟩ (Uri.readBack p)).Named := fun name hname =>
      Path.named_ofString _ name (hsub.mem hname)
    rw [Except.ok.injEq, Path.text_inj (Path.named_relativeTo hnamed _) hh.named,
      Path.relativeTo_eq_iff hr hh, ← hparts]
    cases hescape : Uri.hasEscape p.text.toList with
    | false =>
      rw [Uri.readBack_of_not_hasEscape hp.named hescape, Path.resolve_of_normal hp ha]
      exact iff_of_true rfl ⟨hnul, hescape⟩
    | true =>
      refine iff_of_false (fun e => ?_) (fun h => ?_)
      · have hle := Path.size_le_of_sublist hsub
        have hlt := Uri.size_readBack_lt ha hescape
        rw [Path.size, e] at hle
        exact absurd hlt (Nat.not_lt.mpr hle)
      · rw [h.escape] at hescape
        cases hescape

/-- A path comes back from its URI, and a document below the workspace has its path for a key, just if
the path has no escape in it and no character that no path can have. -/
theorem Uri.uris_keep_paths_and_keys (cwd : Path) :
    (∀ p : Path, p.Normal → p.isAbsolute = true →
      ((Uri.ofPath cwd p >>= Uri.toPath) = .ok p ↔ p.anchor = .root ∧ Uri.Survives p.text.toList)) ∧
    ∀ (s : Service) (h : Path), s.root.Normal → s.root.anchor = .root → h.Normal → h.anchor = .relative →
      (s.keyOf cwd (s.root.join h) = .ok h.text ↔ Uri.Survives (s.root.join h).text.toList) :=
  ⟨fun _ hp ha => Uri.toPath_ofPath_eq_ok_iff hp ha cwd,
    fun _ _ hs hroot hh hr => Service.keyOf_join_eq_ok_iff hs hroot hh hr cwd⟩

theorem Path.normal_ofString {s : String} (h : ".." ∉ (Path.ofString s).parts) : (Path.ofString s).Normal :=
  ⟨Path.named_ofString s, h⟩

/-- Names with spaces, marks of URIs and letters outside ASCII survive. -/
theorem Uri.markedNames_survive :
    (Uri.ofPath ⟨.root, []⟩ (.ofString "/ws/Größe 100%/a?b#c;d.h") >>= Uri.toPath) =
        .ok (.ofString "/ws/Größe 100%/a?b#c;d.h") ∧
      ({ root := .ofString "/ws" } : Service).keyOf ⟨.root, []⟩
        ((Path.ofString "/ws").join (.ofString "Größe 100%/a?b#c;d.h")) =
          .ok (Path.ofString "Größe 100%/a?b#c;d.h").text :=
  ⟨((Uri.uris_keep_paths_and_keys ⟨.root, []⟩).1 _ (Path.normal_ofString (by decide)) (by decide)).mpr
      ⟨by decide, by decide⟩,
    ((Uri.uris_keep_paths_and_keys ⟨.root, []⟩).2 { root := .ofString "/ws" } _
      (Path.normal_ofString (by decide)) (by decide) (Path.normal_ofString (by decide)) (by decide)).mpr
      (by decide)⟩

/-- A name with an escape in it does not survive: `%20` comes back as a space. -/
theorem Uri.escapedName_lost :
    (Path.ofString "/ws/a%20b.ssl").Normal ∧ (Path.ofString "/ws/a%20b.ssl").anchor = .root ∧
      Uri.ofPath ⟨.root, []⟩ (.ofString "/ws/a%20b.ssl") = .ok "file:///ws/a%2520b.ssl" ∧
      Uri.toPath "file:///ws/a%2520b.ssl" = .ok (.ofString "/ws/a b.ssl") ∧
      Path.ofString "/ws/a b.ssl" ≠ .ofString "/ws/a%20b.ssl" := by
  have hwritten : Uri.ofPath ⟨.root, []⟩ (.ofString "/ws/a%20b.ssl") = .ok "file:///ws/a%2520b.ssl" := by
    rw [Uri.ofPath_eq, if_neg (by decide)]
    decide +kernel
  exact ⟨Path.normal_ofString (by decide), by decide, hwritten, by decide +kernel, by decide⟩

end ScriptService
