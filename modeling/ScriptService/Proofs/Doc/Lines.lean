import ScriptService.Proofs.Doc.LineEnds
import ScriptService.Proofs.Doc.Written
import ScriptService.Proofs.Scan.Lexeme

/-!
# The lines of a written comment

The lines of a comment come back trimmed, with an empty line for each delimiter
(`commentLines_commentText`). A tag's lines come together again, with a space for each
line break (`tagsFrom_shown`, `tags_shown`), and what stands in front of the first tag
is the description (`description?_shown`).
-/

namespace ScriptService.Doc

open Text Scan

/-! ## The lines of a comment -/

theorem commentLine_star (l : List Char) : commentLine (" * ".toList ++ l) = trim l := by
  have hstar : isBlank '*' = false := by decide
  have htrim : trim (" * ".toList ++ l) = '*' :: trimRight (' ' :: l) :=
    (trim_blank_append (a := [' ']) (by decide) _).trans (trim_cons hstar _)
  rw [commentLine, htrim]
  exact (trim_trimRight _).trans (trim_blank_append (a := [' ']) (by decide) l)

theorem textLines_stars {ls : List (List Char)} (h : ∀ l ∈ ls, l.all (!isLineBoundary ·) = true) :
    textLines (ls.flatMap (fun l => " * ".toList ++ l ++ ['\n']) ++ [' ']) =
      ls.map (" * ".toList ++ ·) ++ [[' ']] := by
  induction ls with
  | nil => rfl
  | cons l ls ih =>
    rw [List.forall_mem_cons] at h
    have hline : (" * ".toList ++ l).all (!isLineBoundary ·) = true := by
      rw [List.all_append, h.1]
      decide
    rw [List.flatMap_cons, List.append_assoc, List.append_assoc, List.singleton_append, textLines_line hline,
      ih h.2]
    rfl

theorem commentBody_commentText (ls : List (List Char)) :
    commentBody (commentText ls) =
      '\n' :: (ls.flatMap (fun l => " * ".toList ++ l ++ ['\n']) ++ [' ']) := by
  have htext : commentText ls =
      "/**".toList ++ ('\n' :: (ls.flatMap (fun l => " * ".toList ++ l ++ ['\n']) ++ [' ']) ++ ['*', '/']) := by
    simp [commentText]
  have hlast : (commentText ls).getLast? = some '/' :=
    (List.getLast?_append_of_ne_nil _ (by decide)).trans (by decide)
  have hslash : isBlank '/' = false := by decide
  have htrim : trim (commentText ls) = commentText ls :=
    trim_eq_self (by rw [htext]; exact hslash) (by rw [hlast]; exact hslash)
  rw [commentBody_eq, htrim, htext, word?_append, Option.getD_some, beforeClose_concat]

/-- The lines of a comment come back trimmed; the delimiters leave an empty line each. -/
theorem commentLines_commentText {ls : List (List Char)} (h : ∀ l ∈ ls, l.all (!isLineBoundary ·) = true) :
    commentLines (commentText ls) = [] :: (ls.map trim ++ [[]]) := by
  have hlines : textLines (commentBody (commentText ls)) = [] :: (ls.map (" * ".toList ++ ·) ++ [[' ']]) := by
    rw [commentBody_commentText]
    exact (textLines_line (l := []) rfl _).trans (congrArg ([] :: ·) (textLines_stars h))
  have hstars : (commentLine ∘ (" * ".toList ++ ·)) = trim := funext commentLine_star
  rw [commentLines, hlines, List.map_cons, List.map_append, List.map_map, hstars]
  rfl

/-! ## The tags of a comment -/

namespace Tag

variable {t : Tag}

/-- The lines of a tag as they come back. -/
def shown (t : Tag) : List (List Char) :=
  (t.head ++ behind t.body.first) :: t.body.more

/-- A tag with its lines put together. -/
def block (t : Tag) : List Char :=
  t.head ++ behind t.body.text

theorem WellFormed.body (h : t.WellFormed) : t.body.WellFormed := by
  cases t with
  | param p => exact h.description
  | returns r => exact h.description
  | deprecated => exact ⟨isField_nil, fun _ hl => nomatch hl⟩
  | other line more => exact ⟨isField_nil, h.2⟩

theorem WellFormed.head_head (h : t.WellFormed) : t.head.head? = some '@' := by
  cases t with
  | param p => rfl
  | returns r => rfl
  | deprecated => rfl
  | other line more => exact beq_iff_eq.mp h.1.tag

theorem WellFormed.head_last (h : t.WellFormed) : t.head.getLast?.any isBlank = false := by
  cases t with
  | param p =>
    rw [head_param, List.getLast?_append_of_ne_nil _ h.name.ne_nil]
    exact h.name.last
  | returns r =>
    have hlast : (returns r).head.getLast? = some '\x7d' := List.getLast?_append_of_ne_nil _ (by decide)
    rw [hlast]
    decide
  | deprecated => decide
  | other line more => exact last_of_trim h.1.field.trimmed

theorem WellFormed.trim_line (h : t.WellFormed) : trim t.line = t.head ++ behind t.body.first := by
  have htext : trim t.line = trim (t.head ++ behind t.body.first) := by
    cases t with
    | param p => exact trim_append_space _ _
    | returns r => exact trim_append_space _ _
    | deprecated => rfl
    | other line more => exact congrArg trim (List.append_nil line).symm
  have hhead : (t.head ++ behind t.body.first).head? = some '@' := by
    rw [List.head?_append, h.head_head, Option.some_or]
  rw [htext]
  exact trim_eq_self (by rw [hhead]; decide) (last_append_behind h.head_last h.body.first.trimmed)

theorem WellFormed.isTagLine_shown (h : t.WellFormed) : isTagLine (t.head ++ behind t.body.first) = true := by
  rw [isTagLine, List.head?_append, h.head_head]
  rfl

theorem WellFormed.not_skipped (h : t.WellFormed) : ¬(!isTagLine (t.head ++ behind t.body.first)) = true := by
  rw [h.isTagLine_shown]
  exact Bool.false_ne_true

theorem WellFormed.map_trim_lines (h : t.WellFormed) : t.lines.map trim = t.shown := by
  have hmore : t.body.more.map (trim ∘ ("  ".toList ++ ·)) = t.body.more :=
    (List.map_congr_left fun l hl =>
      (trim_blank_append (by decide) l).trans (h.body.more l hl).field.trimmed).trans (List.map_id _)
  rw [lines, List.map_cons, List.map_map, h.trim_line, hmore, shown]

theorem WellFormed.oneLine (h : t.WellFormed) : ∀ l ∈ t.lines, l.all (!isLineBoundary ·) = true := by
  rintro l (_ | ⟨_, hl⟩)
  · cases t with
    | param p =>
      have hname : p.name.all (!isLineBoundary ·) = true := h.name.oneLine
      rw [line, head_param, List.all_append, List.all_append, List.all_append, List.all_append, List.all_cons,
        h.type.field.oneLine, hname, h.description.first.oneLine]
      decide
    | returns r =>
      rw [line, head_returns, List.all_append, List.all_append, List.all_append, List.all_cons, h.type.field.oneLine,
        h.description.first.oneLine]
      decide
    | deprecated => decide
    | other line more => exact h.1.field.oneLine
  · obtain ⟨m, hm, rfl⟩ := List.mem_map.mp hl
    rw [List.all_append, (h.body.more m hm).field.oneLine]
    decide

end Tag

theorem map_trim_lines {ts : List Tag} (h : ∀ t ∈ ts, t.WellFormed) :
    (ts.flatMap Tag.lines).map trim = ts.flatMap Tag.shown := by
  induction ts with
  | nil => rfl
  | cons t ts ih =>
    rw [List.forall_mem_cons] at h
    rw [List.flatMap_cons, List.map_append, h.1.map_trim_lines, ih h.2, List.flatMap_cons]

theorem tagsFrom_append {more : List (List Char)} (h : ∀ l ∈ more, IsFurther l) (cur : List Char)
    (ls : List (List Char)) : tagsFrom cur (more ++ ls) = tagsFrom (cur ++ more.flatMap (' ' :: ·)) ls := by
  induction more generalizing cur with
  | nil => rw [List.flatMap_nil, List.append_nil, List.nil_append]
  | cons l more ih =>
    rw [List.forall_mem_cons] at h
    have hne : l.isEmpty = false := List.isEmpty_eq_false_iff.mpr h.1.ne_nil
    rw [List.cons_append, tagsFrom, h.1.not_tag, if_neg Bool.false_ne_true, hne, if_neg Bool.false_ne_true,
      ih h.2, List.flatMap_cons, List.append_assoc]

theorem Tag.WellFormed.tagsFrom_more {t : Tag} (h : t.WellFormed) (ls : List (List Char)) :
    tagsFrom (t.head ++ behind t.body.first) (t.body.more ++ ls) = tagsFrom t.block ls := by
  rw [tagsFrom_append h.body.more, Tag.block, Broken.behind_text fun l hl => (h.body.more l hl).ne_nil,
    List.append_assoc]

/-- The lines of each tag come together again. -/
theorem tagsFrom_shown {ts : List Tag} (h : ∀ t ∈ ts, t.WellFormed) (cur : List Char) :
    tagsFrom cur (ts.flatMap Tag.shown ++ [[]]) = cur :: ts.map Tag.block := by
  induction ts generalizing cur with
  | nil => rfl
  | cons t ts ih =>
    rw [List.forall_mem_cons] at h
    rw [List.flatMap_cons, Tag.shown, List.cons_append, List.cons_append, tagsFrom, h.1.isTagLine_shown,
      if_pos rfl, List.append_assoc, h.1.tagsFrom_more, ih h.2, List.map_cons]

section

variable {desc : List (List Char)} (hdesc : ∀ l ∈ desc, (!isTagLine l) = true) {ts : List Tag}
  (hts : ∀ t ∈ ts, t.WellFormed)
include hdesc hts

theorem tags_shown : tags (desc ++ (ts.flatMap Tag.shown ++ [[]])) = ts.map Tag.block := by
  rw [tags, List.dropWhile_append_of_pos hdesc]
  cases ts with
  | nil => rfl
  | cons t ts =>
    rw [List.forall_mem_cons] at hts
    rw [List.flatMap_cons, Tag.shown, List.cons_append, List.cons_append,
      List.dropWhile_cons_of_neg (p := (!isTagLine ·)) hts.1.not_skipped]
    simp only
    rw [List.append_assoc, hts.1.tagsFrom_more, tagsFrom_shown hts.2, List.map_cons]

/-- In front of the first tag stands the description, and an empty line more if there is no tag. -/
theorem takeWhile_shown :
    (desc ++ (ts.flatMap Tag.shown ++ [[]])).takeWhile (!isTagLine ·) = desc ++ if ts.isEmpty then [[]] else [] := by
  rw [List.takeWhile_append_of_pos hdesc]
  cases ts with
  | nil => rfl
  | cons t ts =>
    rw [List.flatMap_cons, Tag.shown, List.cons_append, List.cons_append,
      List.takeWhile_cons_of_neg (p := (!isTagLine ·)) (hts t List.mem_cons_self).not_skipped]
    rfl

end

theorem trim_intercalate_cons_nil (ls : List (List Char)) :
    trim (['\n'].intercalate ([] :: ls)) = trim (['\n'].intercalate ls) := by
  cases ls with
  | nil => rfl
  | cons l ls =>
    rw [List.intercalate_cons_cons, List.nil_append]
    exact trim_blank_append (by decide) _

theorem trim_intercalate_concat_nil (ls : List (List Char)) :
    trim (['\n'].intercalate (ls ++ [[]])) = trim (['\n'].intercalate ls) := by
  cases ls with
  | nil => rfl
  | cons l ls =>
    rw [List.cons_append, intercalate_cons_flatMap, intercalate_cons_flatMap, List.flatMap_append,
      ← List.append_assoc]
    exact trim_append_blank (by decide) _

theorem IsDescription.skipped {desc : List (List Char)} (h : IsDescription desc) :
    ∀ l ∈ [] :: desc, (!isTagLine l) = true :=
  List.forall_mem_cons.mpr ⟨rfl, fun l hl => by rw [h.not_tag l hl]; rfl⟩

theorem description?_shown {desc : List (List Char)} (h : IsDescription desc) {ts : List Tag}
    (hts : ∀ t ∈ ts, t.WellFormed) :
    description? ([] :: (desc ++ (ts.flatMap Tag.shown ++ [[]]))) =
      if desc.isEmpty then none else some (String.ofList (['\n'].intercalate desc)) := by
  have htext : trim (['\n'].intercalate ([] :: desc ++ if ts.isEmpty then [[]] else [])) =
      ['\n'].intercalate desc := by
    have hdesc : trim (['\n'].intercalate desc) = ['\n'].intercalate desc :=
      trim_intercalate (fun l hl => (h.field l hl).trimmed) h.first h.last
    split
    · rw [trim_intercalate_concat_nil, trim_intercalate_cons_nil, hdesc]
    · rw [List.append_nil, trim_intercalate_cons_nil, hdesc]
  have hempty : (['\n'].intercalate desc).isEmpty = desc.isEmpty := by
    cases desc with
    | nil => rfl
    | cons l ls =>
      have hl : l ≠ [] := fun e => h.first (by rw [e]; rfl)
      rw [intercalate_cons_flatMap]
      exact List.isEmpty_eq_false_iff.mpr (List.append_ne_nil_of_left_ne_nil hl _)
  rw [description?, ← List.cons_append, takeWhile_shown h.skipped hts, htext]
  simp only [hempty]

end ScriptService.Doc
