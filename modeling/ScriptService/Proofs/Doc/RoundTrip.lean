import ScriptService.Proofs.Doc.Lines

/-!
# Comments read back

Each tag adds to a comment what it gives (`addTag_block`), one of another kind nothing.
So a comment says what is written in it, whichever other tags stand among its own.

Main statement: `ofComment_commentText`.
-/

namespace ScriptService.Doc

open Text Scan

/-! ## What a tag says -/

namespace Tag

/-- What a comment says once a further tag is read. -/
def addTo (d : Doc) : Tag → Doc
  | param p => { d with params := d.params ++ [p.param] }
  | returns r => { d with returns := some r.return }
  | deprecated => { d with deprecated := true }
  | other .. => d

end Tag

theorem tag?_append {name : List Char} (hne : name ≠ []) (hname : name.all isWord = true) {s : List Char}
    (hs : s.head?.any isWord = false) :
    tag? ("@".toList ++ (name ++ s)) = some (lower (String.ofList name), trim s) := by
  simp only [tag?, word?_append, run?_append hne hname hs, Option.bind_eq_bind, Option.bind_some]

theorem bracedType?_append {type : List Char} (h : IsType type) (s : List Char) :
    bracedType? ("\x7b".toList ++ (type ++ '\x7d' :: s)) = some (String.ofList type, trimLeft s) := by
  have hne : type.isEmpty = false := List.isEmpty_eq_false_iff.mpr h.ne_nil
  simp only [bracedType?, word?_append, upTo?_append h.close, Option.bind_eq_bind, Option.bind_some,
    h.field.trimmed, hne, Bool.false_eq_true, if_false]

theorem firstWord?_solid {word : List Char} (hne : word ≠ []) (hsolid : word.all (!isBlank ·) = true)
    {s : List Char} (hs : s.head?.any (!isBlank ·) = false) :
    firstWord? (word ++ s) = some (word, trimLeft s) := by
  have hleft : trimLeft (word ++ s) = word ++ s := by
    refine trimLeft_eq_self ?_
    rw [List.head?_append_of_ne_nil _ hne]
    exact any_eq_false (fun c hc => by simpa using List.all_eq_true.mp hsolid c hc) fun _ hc => List.mem_of_head? hc
  have hempty : (word ++ s).isEmpty = false :=
    List.isEmpty_eq_false_iff.mpr (List.append_ne_nil_of_left_ne_nil hne s)
  simp only [firstWord?, hleft, hempty, takeWhile_append_stop hsolid hs, dropWhile_append_stop hsolid hs,
    Bool.false_eq_true, if_false]

theorem trim_trimLeft_behind {s : List Char} (h : trim s = s) : trim (trimLeft (behind s)) = s := by
  rw [trim_trimLeft, trim_behind, h]

/-- Behind the type, the first word is the name and what follows it the description. -/
theorem param?_braced {type word s : List Char} (htype : IsType type) (hne : word ≠ [])
    (hsolid : word.all (!isBlank ·) = true) (hs : s.head?.any (!isBlank ·) = false) :
    param? ("\x7b".toList ++ (type ++ '\x7d' :: ' ' :: (word ++ s))) =
      some ⟨String.ofList (paramName word), String.ofList type,
        String.ofList ((word? "- " (trim s)).getD (trim s))⟩ := by
  have hspace : firstWord? (trimLeft (' ' :: (word ++ s))) = firstWord? (word ++ s) := by
    have hleft : trimLeft (' ' :: (word ++ s)) = trimLeft (word ++ s) := List.dropWhile_cons_of_pos (by decide)
    rw [firstWord?, firstWord?, hleft, trimLeft_trimLeft]
  simp only [param?, bracedType?_append htype, Option.getD_some, hspace, firstWord?_solid hne hsolid hs,
    Option.bind_eq_bind, Option.bind_some, trim_trimLeft]

theorem param?_written {p : ParamText} (h : p.WellFormed) :
    param? ("\x7b".toList ++ (p.type ++ '\x7d' :: ' ' :: (p.name ++ behind p.description.text))) =
      some p.param := by
  have hbare : paramName p.name = p.name := if_neg (by simpa using h.name.bare)
  rw [param?_braced h.type h.name.ne_nil h.name.solid (behind_head (by decide) _), hbare, trim_behind,
    h.description.trim_text, word?_eq_none h.dash]
  rfl

theorem return?_written {r : ReturnText} (h : r.WellFormed) :
    return? ("\x7b".toList ++ (r.type ++ '\x7d' :: behind r.description.text)) = some r.return := by
  simp only [return?, bracedType?_append h.type, trim_trimLeft_behind h.description.trim_text, ReturnText.return]

/-- Of a tag with a type in braces, the text begins with the brace. -/
theorem tag?_braced {t : Tag} (h : t.WellFormed) {name text : List Char} (hne : name ≠ [])
    (hname : name.all isWord = true)
    (hblock : t.block = "@".toList ++ (name ++ ' ' :: ("\x7b".toList ++ text))) :
    tag? t.block = some (lower (String.ofList name), "\x7b".toList ++ text) := by
  have hlast : ("\x7b".toList ++ text).getLast?.any isBlank = false := by
    have hbrace : "\x7b".toList ++ text ≠ [] := List.cons_ne_nil _ _
    have hfront : t.block = "@".toList ++ name ++ [' '] ++ ("\x7b".toList ++ text) := by
      rw [hblock, List.append_assoc, List.append_assoc, List.singleton_append]
    rw [← List.getLast?_append_of_ne_nil ("@".toList ++ name ++ [' ']) hbrace, ← hfront]
    exact last_append_behind h.head_last h.body.trim_text
  have hspace : isWord ' ' = false := by decide
  have hbrace : isBlank '\x7b' = false := by decide
  have htext : trim (' ' :: ("\x7b".toList ++ text)) = "\x7b".toList ++ text :=
    (trim_blank_append (a := [' ']) (by decide) _).trans (trim_eq_self hbrace hlast)
  rw [hblock, tag?_append hne hname (s := ' ' :: ("\x7b".toList ++ text)) hspace, htext]

theorem addTag_eq (d : Doc) {block text : List Char} {name : String} (h : tag? block = some (name, text)) :
    addTag d block =
      if name ∈ ["param", "arg", "argument"] then { d with params := d.params ++ (param? text).toList }
      else if name ∈ ["return", "returns", "ret"] then { d with returns := return? text }
      else if name = "deprecated" then { d with deprecated := true }
      else d := by
  rw [addTag, h]

/-- A tag of another kind adds nothing. -/
theorem addTag_other {line : List Char} (h : IsOtherTag line) (s : List Char) (d : Doc) :
    addTag d (line ++ behind s) = d := by
  obtain ⟨w, rfl⟩ := List.head?_eq_some_iff.mp (beq_iff_eq.mp h.tag)
  have hname : (w.takeWhile isWord).all isWord = true := List.all_takeWhile
  have hstop : (w.dropWhile isWord ++ behind s).head?.any isWord = false := by
    have hw := head?_dropWhile_any isWord w
    cases hd : w.dropWhile isWord with
    | nil => exact behind_head (by decide) s
    | cons c u => rwa [hd] at hw
  have hblock : '@' :: w ++ behind s = "@".toList ++ (w.takeWhile isWord ++ (w.dropWhile isWord ++ behind s)) := by
    rw [← List.append_assoc (w.takeWhile isWord), List.takeWhile_append_dropWhile]
    rfl
  rw [hblock]
  by_cases hne : w.takeWhile isWord = []
  · -- no tag has an empty name
    have htag : tag? ("@".toList ++ (w.dropWhile isWord ++ behind s)) = none := by
      simp only [tag?, word?_append, run?_eq_none hstop, Option.bind_eq_bind, Option.bind_some, Option.bind_none]
    rw [hne, List.nil_append, addTag, htag]
  · have hother : lower (String.ofList (w.takeWhile isWord)) ∉ knownTags := h.other
    rw [knownTags, List.mem_append, List.mem_append, List.mem_singleton, not_or, not_or] at hother
    obtain ⟨⟨hparam, hreturn⟩, hdeprecated⟩ := hother
    rw [addTag_eq d (tag?_append hne hname hstop), if_neg hparam, if_neg hreturn, if_neg hdeprecated]

/-- Each tag adds what it gives. -/
theorem addTag_block {t : Tag} (h : t.WellFormed) (d : Doc) : addTag d t.block = t.addTo d := by
  cases t with
  | param p =>
    have hblock : (Tag.param p).block = "@".toList ++ ("param".toList ++ ' ' ::
        ("\x7b".toList ++ (p.type ++ '\x7d' :: ' ' :: (p.name ++ behind p.description.text)))) := by
      rw [Tag.block, Tag.head_param, List.append_assoc, List.append_assoc, List.append_assoc]
      rfl
    have hname : lower (String.ofList "param".toList) = "param" := by decide
    rw [addTag_eq d (tag?_braced h (by decide) (by decide) hblock), hname, if_pos (by decide), param?_written h]
    rfl
  | returns r =>
    have hblock : (Tag.returns r).block = "@".toList ++ ("returns".toList ++ ' ' ::
        ("\x7b".toList ++ (r.type ++ '\x7d' :: behind r.description.text))) := by
      rw [Tag.block, Tag.head_returns, List.append_assoc, List.append_assoc]
      rfl
    have hname : lower (String.ofList "returns".toList) = "returns" := by decide
    rw [addTag_eq d (tag?_braced h (by decide) (by decide) hblock), hname, if_neg (by decide), if_pos (by decide),
      return?_written h]
    rfl
  | deprecated =>
    have htag : tag? Tag.deprecated.block = some ("deprecated", []) := by decide
    rw [addTag_eq d htag, if_neg (by decide), if_neg (by decide), if_pos rfl]
    rfl
  | other line more => exact addTag_other h.1 _ d

theorem foldl_addTag {ts : List Tag} (h : ∀ t ∈ ts, t.WellFormed) (d : Doc) :
    (ts.map Tag.block).foldl addTag d = (ts.filter Tag.isKnown).foldl Tag.addTo d := by
  induction ts generalizing d with
  | nil => rfl
  | cons t ts ih =>
    rw [List.forall_mem_cons] at h
    rw [List.map_cons, List.foldl_cons, addTag_block h.1, ih h.2]
    cases t <;> rfl

theorem foldl_addTo_params (ps : List ParamText) (d : Doc) :
    (ps.map Tag.param).foldl Tag.addTo d = { d with params := d.params ++ ps.map ParamText.param } := by
  induction ps generalizing d with
  | nil => rw [List.map_nil, List.map_nil, List.append_nil, List.foldl_nil]
  | cons p ps ih =>
    rw [List.map_cons, List.foldl_cons, ih, List.map_cons]
    simp only [Tag.addTo, List.append_assoc, List.singleton_append]

theorem Written.foldl_tags (w : Written) :
    w.tags.foldl Tag.addTo { description := w.doc.description } = w.doc := by
  obtain ⟨desc, params, returns, deprecated⟩ := w
  rw [tags, List.foldl_append, List.foldl_append, foldl_addTo_params]
  cases returns <;> cases deprecated <;> rfl

/-- A comment says what was written in it, with whichever other tags among its own. -/
theorem ofComment_commentText (w : Written) (ts : List Tag) (hdesc : IsDescription w.description)
    (hts : ∀ t ∈ ts, t.WellFormed) (hknown : ts.filter Tag.isKnown = w.tags) :
    ofComment (commentText (w.description ++ ts.flatMap Tag.lines)) = w.doc := by
  have hlines : commentLines (commentText (w.description ++ ts.flatMap Tag.lines)) =
      [] :: w.description ++ (ts.flatMap Tag.shown ++ [[]]) := by
    have htrim : w.description.map trim = w.description :=
      (List.map_congr_left fun l hl => (hdesc.field l hl).trimmed).trans (List.map_id _)
    have hone : ∀ l ∈ w.description ++ ts.flatMap Tag.lines, l.all (!isLineBoundary ·) = true := fun l hl => by
      rcases List.mem_append.mp hl with hl | hl
      · exact (hdesc.field l hl).oneLine
      · obtain ⟨t, ht, hl⟩ := List.mem_flatMap.mp hl
        exact (hts t ht).oneLine l hl
    rw [commentLines_commentText hone, List.map_append, htrim, map_trim_lines hts, List.append_assoc,
      List.cons_append]
  rw [ofComment, hlines]
  simp only [tags_shown hdesc.skipped hts]
  rw [List.cons_append, description?_shown hdesc hts, foldl_addTag hts, hknown]
  exact w.foldl_tags

/-- A comment with a blank line in its description, and with texts that go on over further lines. -/
def globalSetter : Written where
  description := ["Sets a global.".toList, [], "Use with care.".toList]
  params := [
    { type := "string".toList, name := "name".toList,
      description := { first := "global".toList, more := ["name".toList, "- not a local one".toList] } },
    { type := "int".toList, name := "value".toList }]
  returns := some { type := "bool".toList, description := { first := "true on success".toList } }
  deprecated := true

/-- Its tags, with others in front of and between them. -/
def globalSetterTags : List Tag :=
  .other "@since 1.0".toList ["or before".toList] :: globalSetter.tags.take 1 ++
    .other "@returned {int} x".toList [] :: globalSetter.tags.drop 1

theorem globalSetter_read :
    IsDescription globalSetter.description ∧ (∀ t ∈ globalSetterTags, t.WellFormed) ∧
      globalSetterTags.filter Tag.isKnown = globalSetter.tags ∧
      ofComment (commentText (globalSetter.description ++ globalSetterTags.flatMap Tag.lines)) =
        { description := some "Sets a global.\n\nUse with care."
          params := [⟨"name", "string", "global name - not a local one"⟩, ⟨"value", "int", ""⟩]
          returns := some ⟨"bool", "true on success"⟩
          deprecated := true } := by
  have hdesc : IsDescription globalSetter.description := by decide +kernel
  have hts : ∀ t ∈ globalSetterTags, t.WellFormed := by decide +kernel
  refine ⟨hdesc, hts, rfl, (ofComment_commentText globalSetter globalSetterTags hdesc hts rfl).trans ?_⟩
  decide +kernel

end ScriptService.Doc
