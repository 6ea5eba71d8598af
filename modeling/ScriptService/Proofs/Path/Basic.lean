import Mathlib.Algebra.GroupWithZero.Nat
import Mathlib.Algebra.Order.BigOperators.Group.List
import Mathlib.Algebra.Order.Group.Nat
import ScriptService.Path.Basic
import ScriptService.Proofs.Scan.Lines

/-!
# Paths and their texts

A path whose names are names (`Path.Named`) is read back from its text
(`ofString_text`), so different such paths have different texts (`text_inj`); every
path that is read is one of them (`named_ofString`). An absolute path without
double dots (`Path.Normal`) leads to itself (`resolve_of_normal`), what a path leads
to is such a path (`Named.normal_resolve`), and a file below a directory is found
again from the directory (`relativeTo_eq_iff`). What lies below a directory lies in
another one if the directory does, or if the other lies on the way
(`within_resolve_join`).

What is read from an absolute text is no larger than the text (`size_ofString_le`),
and what it leads to is no larger either (`resolve_parts_sublist`).
-/

namespace ScriptService

namespace Path

/-- A name that can stand between slashes and is kept there. -/
structure IsName (s : String) : Prop where
  ne_empty : s ≠ ""
  ne_dot : s ≠ "."
  slash : '/' ∉ s.toList

instance (s : String) : Decidable (IsName s) :=
  decidable_of_iff (s ≠ "" ∧ s ≠ "." ∧ '/' ∉ s.toList)
    ⟨fun ⟨hempty, hdot, hslash⟩ => ⟨hempty, hdot, hslash⟩,
      fun ⟨hempty, hdot, hslash⟩ => ⟨hempty, hdot, hslash⟩⟩

/-- A path of names. -/
def Named (p : Path) : Prop := ∀ s ∈ p.parts, IsName s

/-- A path of names, none of which leads back. -/
structure Normal (p : Path) : Prop where
  named : p.Named
  dots : ".." ∉ p.parts

theorem Normal.of_subset {p q : Path} (hp : p.Normal) (h : q.parts ⊆ p.parts) : q.Normal :=
  ⟨fun s hs => hp.named s (h hs), fun hs => hp.dots (h hs)⟩

/-! ## Reading -/

theorem piecesFrom_eq (cur s : List Char) :
    piecesFrom cur s = (s.splitOn '/').modifyHead (cur.reverse ++ ·) := by
  induction s generalizing cur with
  | nil => simp [piecesFrom]
  | cons c s ih =>
    rw [piecesFrom, List.splitOn_cons_eq_if_modifyHead]
    split
    · rw [ih, List.modifyHead_cons, List.append_nil, List.reverse_nil]
      cases s.splitOn '/' <;> rfl
    · rw [ih, List.modifyHead_modifyHead, List.reverse_cons]
      cases s.splitOn '/' <;> simp

theorem pieces_eq (s : List Char) : piecesFrom [] s = s.splitOn '/' := by
  rw [piecesFrom_eq]
  cases s.splitOn '/' <;> rfl

/-- The names among the pieces of a text. -/
def namesIn (s : List Char) : List String :=
  ((s.splitOn '/').filter fun p => p ≠ [] && p ≠ ['.']).map String.ofList

theorem ofString_eq (s : String) :
    ofString s = ⟨.ofSlashes (s.toList.takeWhile (· == '/')).length, namesIn s.toList⟩ := by
  rw [ofString, pieces_eq]
  rfl

theorem named_ofString (s : String) : (ofString s).Named := by
  intro name h
  rw [ofString_eq] at h
  obtain ⟨piece, hp, rfl⟩ := List.mem_map.mp h
  obtain ⟨hmem, hne⟩ := List.mem_filter.mp hp
  simp only [Bool.and_eq_true, decide_eq_true_eq] at hne
  refine ⟨fun e => hne.1 ?_, fun e => hne.2 ?_, ?_⟩
  · simpa using congrArg String.toList e
  · simpa using congrArg String.toList e
  · rw [String.toList_ofList]
    exact Scan.not_mem_of_mem_splitOn hmem

/-- The names of a path with slashes between them. -/
def namesText (names : List String) : List Char :=
  ['/'].intercalate (names.map String.toList)

theorem text_eq (p : Path) (h : p.anchor ≠ .relative ∨ p.parts ≠ []) :
    p.text.toList = p.anchor.text.toList ++ namesText p.parts := by
  have htext : p.text = p.anchor.text ++ "/".intercalate p.parts := by
    rw [text]
    split
    · rename_i ha hp
      rcases h with h | h
      · exact absurd ha h
      · exact absurd hp h
    · rfl
  rw [htext, String.toList_append, String.toList_intercalate]
  rfl

theorem namesIn_namesText {names : List String} (h : ∀ s ∈ names, IsName s) :
    namesIn (namesText names) = names := by
  cases names with
  | nil => rfl
  | cons name names =>
    have hsplit : (namesText (name :: names)).splitOn '/' = (name :: names).map String.toList := by
      refine List.splitOn_intercalate '/' (fun l hl => ?_) (by simp)
      obtain ⟨s, hs, rfl⟩ := List.mem_map.mp hl
      exact (h s hs).slash
    have hall : ∀ l ∈ (name :: names).map String.toList, (decide (l ≠ []) && decide (l ≠ ['.'])) = true := by
      intro l hl
      obtain ⟨s, hs, rfl⟩ := List.mem_map.mp hl
      rw [Bool.and_eq_true, decide_eq_true_eq, decide_eq_true_eq]
      exact ⟨fun e => (h s hs).ne_empty (String.toList_inj.mp e),
        fun e => (h s hs).ne_dot (String.toList_inj.mp e)⟩
    rw [namesIn, hsplit, List.filter_eq_self.mpr hall, List.map_map]
    exact (List.map_congr_left fun s _ => String.ofList_toList).trans (List.map_id _)

theorem namesIn_slash (s : List Char) : namesIn ('/' :: s) = namesIn s := by
  rw [namesIn, List.splitOn_cons_eq_if_modifyHead, if_pos (by decide), List.filter_cons_of_neg (by decide)]
  rfl

/-- No slash stands at the start of names. -/
theorem takeWhile_namesText {names : List String} (h : ∀ s ∈ names, IsName s) :
    (namesText names).takeWhile (· == '/') = [] := by
  cases names with
  | nil => rfl
  | cons name names =>
    obtain ⟨hempty, -, hslash⟩ := h name List.mem_cons_self
    have hne : name.toList ≠ [] := fun e => hempty (String.toList_inj.mp e)
    obtain ⟨c, cs, hc⟩ := List.exists_cons_of_ne_nil hne
    have htext : ∃ t, namesText (name :: names) = c :: t := by
      cases names with
      | nil => exact ⟨cs, by rw [namesText, List.map_cons, hc]; simp⟩
      | cons other names =>
        rw [namesText, List.map_cons, List.map_cons, List.intercalate_cons_cons, hc]
        exact ⟨_, rfl⟩
    obtain ⟨t, ht⟩ := htext
    have hstop : ¬ (c == '/') = true := fun e => hslash (by rw [hc, beq_iff_eq.mp e]; simp)
    rw [ht, List.takeWhile_cons_of_neg (p := (· == '/')) hstop]

/-- A path of names is read back from its text. -/
theorem ofString_text {p : Path} (h : p.Named) : ofString p.text = p := by
  by_cases hrel : p.anchor ≠ .relative ∨ p.parts ≠ []
  · have htext := text_eq p hrel
    have hslash := takeWhile_namesText h
    have hnames := namesIn_namesText h
    obtain ⟨anchor, parts⟩ := p
    rw [ofString_eq, htext]
    cases anchor with
    | relative =>
      simp only [Anchor.text, String.toList_empty, List.nil_append, hslash, hnames]
      rfl
    | root =>
      have ha : Anchor.root.text.toList ++ namesText parts = '/' :: namesText parts := rfl
      rw [ha, namesIn_slash, hnames, List.takeWhile_cons_of_pos (by decide), hslash]
      rfl
    | doubleRoot =>
      have ha : Anchor.doubleRoot.text.toList ++ namesText parts = '/' :: '/' :: namesText parts := rfl
      rw [ha, namesIn_slash, namesIn_slash, hnames, List.takeWhile_cons_of_pos (by decide),
        List.takeWhile_cons_of_pos (by decide), hslash]
      rfl
  · rw [not_or, not_not, not_not] at hrel
    obtain ⟨anchor, parts⟩ := p
    obtain ⟨rfl, rfl⟩ := hrel
    rfl

theorem text_inj {p q : Path} (hp : p.Named) (hq : q.Named) : p.text = q.text ↔ p = q :=
  ⟨fun h => by rw [← ofString_text hp, h, ofString_text hq], congrArg text⟩

theorem namesText_append (as bs : List String) : namesText as <+: namesText (as ++ bs) := by
  induction as with
  | nil => exact List.nil_prefix
  | cons a as ih =>
    cases as with
    | nil =>
      cases bs with
      | nil => exact List.prefix_rfl
      | cons b bs =>
        rw [namesText, List.map_singleton, List.intercalate_singleton, List.singleton_append, namesText,
          List.map_cons, List.map_cons, List.intercalate_cons_cons, List.append_assoc]
        exact List.prefix_append _ _
    | cons a' as =>
      rw [namesText, List.map_cons, List.map_cons, List.intercalate_cons_cons, List.cons_append,
        List.cons_append, namesText, List.map_cons, List.map_cons, List.intercalate_cons_cons,
        List.prefix_append_right_inj]
      exact ih

/-- The text of a path below a directory leads on from that of the directory. -/
theorem exists_text_append {dir p : Path} (hdir : dir.anchor = .root) (ha : p.anchor = .root)
    {names : List String} (hparts : p.parts = dir.parts ++ names) : ∃ t, p.text = dir.text ++ t := by
  obtain ⟨t, ht⟩ := namesText_append dir.parts names
  refine ⟨String.ofList t, String.toList_inj.mp ?_⟩
  rw [String.toList_append, String.toList_ofList, text_eq p (.inl (by rw [ha]; nofun)),
    text_eq dir (.inl (by rw [hdir]; nofun)), hdir, ha, hparts, List.append_assoc, ht]

/-! ## Characters -/

/-- A character that is neither a slash nor a dot stands in a path's text just if it stands in a
name. -/
theorem mem_text {c : Char} (hslash : c ≠ '/') (hdot : c ≠ '.') (p : Path) :
    c ∈ p.text.toList ↔ ∃ s ∈ p.parts, c ∈ s.toList := by
  by_cases hrel : p.anchor ≠ .relative ∨ p.parts ≠ []
  · have hanchor : c ∉ p.anchor.text.toList := by
      cases p.anchor <;> simp [Anchor.text, hslash]
    rw [text_eq p hrel, List.mem_append, namesText, Text.mem_intercalate hslash]
    simp only [hanchor, false_or, List.mem_map, exists_exists_and_eq_and]
  · rw [not_or, not_not, not_not] at hrel
    have htext : p.text = "." := by rw [text, hrel.1, hrel.2]
    rw [htext, hrel.2]
    simp [hdot]

theorem mem_namesIn {c : Char} (hslash : c ≠ '/') (hdot : c ≠ '.') (s : List Char) :
    (∃ n ∈ namesIn s, c ∈ n.toList) ↔ c ∈ s := by
  have hsplit := Text.mem_intercalate hslash (s.splitOn '/')
  rw [List.intercalate_splitOn] at hsplit
  rw [hsplit]
  constructor
  · rintro ⟨n, hn, hc⟩
    obtain ⟨piece, hp, rfl⟩ := List.mem_map.mp hn
    rw [String.toList_ofList] at hc
    exact ⟨piece, (List.mem_filter.mp hp).1, hc⟩
  · rintro ⟨piece, hp, hc⟩
    refine ⟨String.ofList piece, List.mem_map_of_mem (List.mem_filter.mpr ⟨hp, ?_⟩), ?_⟩
    · rw [Bool.and_eq_true, decide_eq_true_eq, decide_eq_true_eq]
      constructor
      · rintro rfl
        cases hc
      · rintro rfl
        exact hdot (List.mem_singleton.mp hc)
    · rwa [String.toList_ofList]

theorem mem_parts_ofString {c : Char} (hslash : c ≠ '/') (hdot : c ≠ '.') (s : String) :
    (∃ n ∈ (ofString s).parts, c ∈ n.toList) ↔ c ∈ s.toList := by
  rw [ofString_eq, mem_namesIn hslash hdot]

/-- What stands in a path stands in its last name or before it. -/
theorem mem_text_iff {c : Char} (hslash : c ≠ '/') (hdot : c ≠ '.') (p : Path) :
    c ∈ p.text.toList ↔ c ∈ p.name.toList ∨ c ∈ p.parent.text.toList := by
  rw [mem_text hslash hdot, mem_text hslash hdot, name, parent]
  rcases List.eq_nil_or_concat p.parts with h | ⟨names, last, h⟩
  · simp [h]
  · rw [h, List.concat_eq_append, List.getLast?_concat, List.dropLast_concat, Option.getD_some]
    simp only [List.mem_append, List.mem_singleton, or_and_right, exists_or, exists_eq_left]
    exact or_comm

theorem Named.slash_not_mem_name {p : Path} (h : p.Named) : '/' ∉ p.name.toList := by
  rw [name]
  cases hlast : p.parts.getLast? with
  | none => decide
  | some s => exact (h s (List.mem_of_getLast? hlast)).slash

/-- A text without slashes is read as a relative path. -/
theorem ofString_relative {s : String} (h : '/' ∉ s.toList) : (ofString s).anchor = .relative := by
  have hnone : s.toList.takeWhile (· == '/') = [] := by
    cases hs : s.toList with
    | nil => rfl
    | cons c t =>
      have hc : ¬ (c == '/') = true := fun e => h (by rw [hs, beq_iff_eq.mp e]; exact List.mem_cons_self)
      rw [List.takeWhile_cons_of_neg (p := (· == '/')) hc]
  rw [ofString_eq, hnone]
  rfl

/-! ## Sizes -/

/-- How long the names of a path are, each with a slash. -/
def size (p : Path) : Nat := (p.parts.map fun s => s.length + 1).sum

theorem length_intercalate (ls : List (List Char)) (h : ls ≠ []) :
    (['/'].intercalate ls).length + 1 = (ls.map fun l => l.length + 1).sum := by
  induction ls with
  | nil => exact absurd rfl h
  | cons l ls ih =>
    cases ls with
    | nil => simp
    | cons m ls =>
      have hrest := ih (by simp)
      rw [List.intercalate_cons_cons, List.map_cons, List.sum_cons, ← hrest, List.length_append,
        List.length_append, List.length_singleton]
      omega

/-- A path with names is as long as its names, and its text no longer with an anchor. -/
theorem size_eq_length {p : Path} (ha : p.anchor = .root) (h : p.parts ≠ []) :
    p.size = p.text.toList.length := by
  have hmap : (p.parts.map String.toList).map (fun l => l.length + 1) =
      p.parts.map fun s => s.length + 1 := by
    rw [List.map_map]
    exact List.map_congr_left fun s _ => congrArg (· + 1) String.length_toList
  rw [text_eq p (.inr h), ha, List.length_append, size, ← hmap, ← length_intercalate _ (by simpa using h),
    namesText]
  exact Nat.add_comm _ _

theorem size_le_of_sublist {p q : Path} (h : p.parts.Sublist q.parts) : p.size ≤ q.size :=
  (h.map fun s : String => s.length + 1).sum_le_sum fun _ _ => Nat.zero_le _

/-- The names in an absolute text are no longer than the text. -/
theorem size_ofString_le {s : String} (h : s.toList.head? = some '/') :
    (ofString s).size ≤ s.toList.length := by
  obtain ⟨t, ht⟩ : ∃ t, s.toList = '/' :: t := by
    cases hs : s.toList with
    | nil => rw [hs] at h; cases h
    | cons c t => exact ⟨t, by rw [hs, List.head?_cons, Option.some.injEq] at h; rw [h]⟩
  have hsum : ((t.splitOn '/').map fun l => l.length + 1).sum = t.length + 1 := by
    rw [← length_intercalate _ (List.splitOn_ne_nil '/' t), List.intercalate_splitOn]
  have hnames : ((namesIn t).map fun s => s.length + 1).sum ≤
      ((t.splitOn '/').map fun l => l.length + 1).sum := by
    rw [namesIn, List.map_map]
    have hmap : (fun s : String => s.length + 1) ∘ String.ofList = fun l => l.length + 1 :=
      funext fun l => by simp
    rw [hmap]
    exact (List.filter_sublist.map fun l : List Char => l.length + 1).sum_le_sum fun _ _ => Nat.zero_le _
  have hparts : (ofString s).parts = namesIn t := by rw [ofString_eq, ht, namesIn_slash]
  rw [size, hparts, ht, List.length_cons]
  omega

/-! ## Following double dots -/

theorem collapseFrom_of_not_mem {ps : List String} (h : ".." ∉ ps) (acc : List String) :
    collapseFrom acc ps = acc.reverse ++ ps := by
  induction ps generalizing acc with
  | nil => rw [collapseFrom, List.append_nil]
  | cons p ps ih =>
    rw [List.mem_cons, not_or] at h
    rw [collapseFrom, if_neg (Ne.symm h.1), ih h.2, List.reverse_cons, List.append_assoc,
      List.singleton_append]

theorem collapseFrom_append_reverse (acc as bs : List String) :
    collapseFrom acc (as ++ bs) = collapseFrom (collapseFrom acc as).reverse bs := by
  induction as generalizing acc with
  | nil => rw [List.nil_append, collapseFrom, List.reverse_reverse]
  | cons a as ih =>
    rw [List.cons_append, collapseFrom, collapseFrom]
    split
    · exact ih acc.tail
    · exact ih (a :: acc)

theorem collapseFrom_append {ns : List String} (h : ".." ∉ ns) (acc ps : List String) :
    collapseFrom acc (ps ++ ns) = collapseFrom acc ps ++ ns := by
  rw [collapseFrom_append_reverse, collapseFrom_of_not_mem h, List.reverse_reverse]

theorem collapseFrom_sublist (acc ps : List String) :
    (collapseFrom acc ps).Sublist (acc.reverse ++ ps) := by
  induction ps generalizing acc with
  | nil => rw [collapseFrom, List.append_nil]
  | cons p ps ih =>
    rw [collapseFrom]
    split
    · refine (ih acc.tail).trans (List.Sublist.append ?_ (List.sublist_cons_self p ps))
      exact (List.tail_sublist acc).reverse
    · have hcons := ih (p :: acc)
      rwa [List.reverse_cons, List.append_assoc, List.singleton_append] at hcons

theorem dots_not_mem_collapseFrom {acc : List String} (h : ".." ∉ acc) (ps : List String) :
    ".." ∉ collapseFrom acc ps := by
  induction ps generalizing acc with
  | nil => rwa [collapseFrom, List.mem_reverse]
  | cons p ps ih =>
    rw [collapseFrom]
    split
    · exact ih fun hm => h (List.mem_of_mem_tail hm)
    · rename_i hp
      exact ih fun hm => (List.mem_cons.mp hm).elim (fun e => hp e.symm) h

theorem join_of_isAbsolute {q : Path} (h : q.isAbsolute = true) (p : Path) : p.join q = q := by
  rw [join, if_pos h]

theorem join_of_relative {q : Path} (h : q.anchor = .relative) (p : Path) :
    p.join q = ⟨p.anchor, p.parts ++ q.parts⟩ := by
  rw [join, isAbsolute, h]
  rfl

theorem Normal.join {p q : Path} (hp : p.Normal) (hq : q.Normal) (h : q.anchor = .relative) :
    (p.join q).Normal := by
  rw [join_of_relative h]
  exact ⟨fun s hs => (List.mem_append.mp hs).elim (hp.named s) (hq.named s),
    fun hs => (List.mem_append.mp hs).elim hp.dots hq.dots⟩

theorem resolve_parts_sublist {q : Path} (h : q.isAbsolute = true) (cwd : Path) :
    (resolve cwd q).parts.Sublist q.parts := by
  rw [resolve, join_of_isAbsolute h]
  exact collapseFrom_sublist [] q.parts

theorem isAbsolute_of_root {p : Path} (h : p.anchor = .root) : p.isAbsolute = true := by
  rw [isAbsolute, h]
  rfl

/-- An absolute path without double dots leads to itself. -/
theorem resolve_of_normal {p : Path} (h : p.Normal) (ha : p.anchor = .root) (cwd : Path) :
    resolve cwd p = p := by
  rw [resolve, join_of_isAbsolute (isAbsolute_of_root ha), collapseFrom_of_not_mem h.dots, List.reverse_nil,
    List.nil_append, ← ha]

/-- What a path leads to from a working directory is a path without double dots. -/
theorem Named.normal_resolve {cwd p : Path} (hcwd : cwd.Named) (hp : p.Named) : (resolve cwd p).Normal := by
  refine ⟨fun s hs => ?_, dots_not_mem_collapseFrom List.not_mem_nil _⟩
  have hs := (collapseFrom_sublist [] (cwd.join p).parts).mem hs
  rw [List.reverse_nil, List.nil_append, join] at hs
  split at hs
  · exact hp s hs
  · exact (List.mem_append.mp hs).elim (hcwd s) (hp s)

/-- A path without double dots leads on from where another leads. -/
theorem resolve_join {q : Path} (ha : q.anchor = .relative) (hq : ".." ∉ q.parts) (cwd p : Path) :
    resolve cwd (p.join q) = ⟨.root, (resolve cwd p).parts ++ q.parts⟩ := by
  have hparts : (cwd.join (p.join q)).parts = (cwd.join p).parts ++ q.parts := by
    rw [join_of_relative ha p]
    cases h : p.anchor with
    | relative =>
      rw [join_of_relative rfl cwd, join_of_relative h cwd]
      exact (List.append_assoc ..).symm
    | root | doubleRoot =>
      rw [join_of_isAbsolute rfl, join_of_isAbsolute (by rw [isAbsolute, h]; rfl)]
  rw [resolve, hparts, collapseFrom_append hq, resolve]

/-! ## Inside a directory -/

theorem within_iff {p dir : Path} : p.within dir = true ↔ dir.parts <+: p.parts :=
  List.isPrefixOf_iff_prefix

/-- A way from a directory leads into another directory, which lies below the first. -/
def LeadsInto (dir way inner : Path) : Prop :=
  ∃ below, inner.parts = dir.parts ++ below ∧ below <+: way.parts

theorem LeadsInto.within {dir way inner : Path} (h : LeadsInto dir way inner) : inner.within dir = true := by
  obtain ⟨below, hinner, -⟩ := h
  rw [within_iff, hinner]
  exact List.prefix_append dir.parts below

/-- What lies below a directory lies in another one just if the directory does, or the way from it
leads there. -/
theorem within_resolve_join {q : Path} (ha : q.anchor = .relative) (hq : ".." ∉ q.parts) (cwd p root : Path) :
    (resolve cwd (p.join q)).within root = true ↔
      (resolve cwd p).within root = true ∨ LeadsInto (resolve cwd p) q root := by
  rw [within_iff, within_iff, resolve_join ha hq]
  constructor
  · intro h
    rcases List.prefix_or_prefix_of_prefix h (List.prefix_append _ q.parts) with hin | ⟨below, hroot⟩
    · exact .inl hin
    · rw [← hroot, List.prefix_append_right_inj] at h
      exact .inr ⟨below, hroot.symm, h⟩
  · rintro (hin | ⟨below, hroot, hbelow⟩)
    · exact hin.trans (List.prefix_append _ q.parts)
    · rw [hroot, List.prefix_append_right_inj]
      exact hbelow

/-! ## From a directory -/

theorem dropShared_append (as bs : List String) : dropShared as (as ++ bs) = ([], bs) := by
  induction as with
  | nil => cases bs <;> rfl
  | cons a as ih => rw [List.cons_append, dropShared, if_pos rfl, ih]

theorem eq_append_of_dropShared {as bs cs : List String} (h : dropShared as bs = ([], cs)) :
    bs = as ++ cs := by
  induction as generalizing bs with
  | nil =>
    have hnil : dropShared [] bs = ([], bs) := by cases bs <;> rfl
    rw [hnil] at h
    exact (Prod.mk.inj h).2
  | cons a as ih =>
    cases bs with
    | nil => cases h
    | cons b bs =>
      rw [dropShared] at h
      split at h
      · rename_i hab
        rw [ih h, hab, List.cons_append]
      · cases h

theorem dropShared_mem {as bs : List String} {s : String} (h : s ∈ (dropShared as bs).2) : s ∈ bs := by
  induction as generalizing bs with
  | nil =>
    have hnil : dropShared [] bs = ([], bs) := by cases bs <;> rfl
    rwa [hnil] at h
  | cons a as ih =>
    cases bs with
    | nil => exact h
    | cons b bs =>
      rw [dropShared] at h
      split at h
      · exact List.mem_cons_of_mem b (ih h)
      · exact h

theorem named_relativeTo {p : Path} (h : p.Named) (dir : Path) : (relativeTo p dir).Named := by
  intro s hs
  rw [relativeTo] at hs
  rcases List.mem_append.mp hs with hs | hs
  · obtain ⟨_, _, rfl⟩ := List.mem_map.mp hs
    exact ⟨by decide, by decide, by decide⟩
  · exact h s (dropShared_mem hs)

/-- From a directory, a path without double dots leads to the file that it is joined to. -/
theorem relativeTo_eq_iff {p dir h : Path} (hr : h.anchor = .relative) (hn : h.Normal) :
    relativeTo p dir = h ↔ p.parts = dir.parts ++ h.parts := by
  obtain ⟨anchor, parts⟩ := h
  obtain rfl : anchor = .relative := hr
  rw [relativeTo]
  constructor
  · intro e
    have hparts := congrArg Path.parts e
    dsimp only at hparts
    have hup : (dropShared dir.parts p.parts).1 = [] := by
      cases hu : (dropShared dir.parts p.parts).1 with
      | nil => rfl
      | cons a as =>
        rw [hu, List.map_cons, List.cons_append] at hparts
        exact absurd (hparts ▸ List.mem_cons_self) hn.dots
    rw [hup, List.map_nil, List.nil_append] at hparts
    exact eq_append_of_dropShared (Prod.ext hup hparts)
  · intro e
    rw [e, dropShared_append]
    rfl

end Path

end ScriptService
