import ScriptService.Proofs.Doc.RoundTrip

/-!
# Optional parameters

A tag of a comment is read on its own, so a parameter is the same whatever stands around
its tag (`params_ofComment`, `tags_around`). Brackets around a name mark it as optional
(`OptionalText`). The name ends at the first blank, though, and not at the bracket that
closes: a default that holds a blank is cut there.

Main statement: `optional_parameter_iff`. An optional parameter keeps its name, type
and description if and only if its default holds no blank.
-/

namespace ScriptService.Doc

open Text Scan

/-! ## Parameters of a comment, tag by tag -/

/-- The parameter that a tag gives, if it gives one. -/
def tagParam? (block : List Char) : Option Param :=
  (tag? block).bind fun (name, text) => if name ∈ ["param", "arg", "argument"] then param? text else none

theorem tagParam?_eq {block text : List Char} {name : String} (h : tag? block = some (name, text)) :
    tagParam? block = if name ∈ ["param", "arg", "argument"] then param? text else none := by
  rw [tagParam?, h, Option.bind_some]

theorem params_addTag (d : Doc) (block : List Char) :
    (addTag d block).params = d.params ++ (tagParam? block).toList := by
  cases h : tag? block with
  | none => simp [addTag, tagParam?, h]
  | some found =>
    obtain ⟨name, text⟩ := found
    rw [addTag_eq d h, tagParam?_eq h]
    by_cases hparam : name ∈ ["param", "arg", "argument"]
    · rw [if_pos hparam, if_pos hparam]
    · rw [if_neg hparam, if_neg hparam, Option.toList_none, List.append_nil]
      split
      · rfl
      · split <;> rfl

/-- The parameters of a comment are those of its tags. -/
theorem params_ofComment (block : List Char) :
    (ofComment block).params = (tags (commentLines block)).filterMap tagParam? := by
  have hfold : ∀ (ts : List (List Char)) (d : Doc),
      (ts.foldl addTag d).params = d.params ++ ts.filterMap tagParam? := fun ts => by
    induction ts with
    | nil => exact fun d => (List.append_nil d.params).symm
    | cons t ts ih =>
      intro d
      rw [List.foldl_cons, ih, params_addTag, List.append_assoc, List.filterMap_cons]
      cases tagParam? t <;> rfl
  exact hfold _ _

theorem tags_cons_tag {l : List Char} (h : isTagLine l = true) (ls : List (List Char)) :
    tags (l :: ls) = tagsFrom l ls := by
  rw [tags, List.dropWhile_cons_of_neg (by simpa using h)]

theorem tags_cons_of_not {l : List Char} (h : ¬ isTagLine l = true) (ls : List (List Char)) :
    tags (l :: ls) = tags ls := by
  rw [tags, tags, List.dropWhile_cons_of_pos (by simpa using h)]

theorem tagsFrom_append_tag {line : List Char} (h : isTagLine line = true) (cur : List Char)
    (before after : List (List Char)) :
    tagsFrom cur (before ++ line :: after) = tagsFrom cur before ++ tagsFrom line after := by
  induction before generalizing cur with
  | nil =>
    rw [List.nil_append, tagsFrom.eq_2, if_pos h]
    rfl
  | cons l before ih =>
    rw [List.cons_append, tagsFrom, tagsFrom]
    split
    · rw [ih, List.cons_append]
    · split <;> exact ih _

theorem tags_append_tag {line : List Char} (h : isTagLine line = true) (before after : List (List Char)) :
    tags (before ++ line :: after) = tags before ++ tagsFrom line after := by
  induction before with
  | nil => exact tags_cons_tag h after
  | cons l before ih =>
    rw [List.cons_append]
    by_cases hl : isTagLine l = true
    · rw [tags_cons_tag hl, tags_cons_tag hl, tagsFrom_append_tag h]
    · rw [tags_cons_of_not hl, tags_cons_of_not hl, ih]

/-- A tag ends where the next one begins, if only empty lines stand between them. -/
theorem tagsFrom_of_empty {after : List (List Char)}
    (h : ∀ l ∈ after.takeWhile (!isTagLine ·), l = []) (cur : List Char) :
    tagsFrom cur after = cur :: tags after := by
  induction after with
  | nil => rfl
  | cons l after ih =>
    rw [tagsFrom]
    by_cases hl : isTagLine l = true
    · rw [if_pos hl, tags_cons_tag hl]
    · rw [List.takeWhile_cons_of_pos (p := (!isTagLine ·)) (by simpa using hl), List.forall_mem_cons] at h
      rw [if_neg hl, if_pos (List.isEmpty_iff.mpr h.1), ih h.2, tags_cons_of_not hl]

/-- A tag on one line is read apart from the lines around it. -/
theorem tags_around {line : List Char} (hline : isTagLine line = true) (before : List (List Char))
    {after : List (List Char)} (hafter : ∀ l ∈ after.takeWhile (!isTagLine ·), l = []) :
    tags (before ++ line :: after) = tags before ++ line :: tags after := by
  rw [tags_append_tag hline, tagsFrom_of_empty hafter]

/-! ## Optional parameters -/

/-- An optional parameter as it is written. -/
structure OptionalText where
  type : List Char
  name : List Char
  default : Option (List Char) := none
  description : List Char := []

namespace OptionalText

/-- The name in its brackets, with its default. -/
def bracketed (o : OptionalText) : List Char :=
  '[' :: (o.name ++ o.default.elim [] ('=' :: ·)) ++ [']']

/-- The line of a comment that holds the tag. -/
def line (o : OptionalText) : List Char :=
  "@param \x7b".toList ++ o.type ++ "\x7d ".toList ++ o.bracketed ++ behind o.description

/-- The parameter without its brackets and its default. -/
def param (o : OptionalText) : Param :=
  ⟨String.ofList o.name, String.ofList o.type, String.ofList o.description⟩

/-- The parts of the tag are what the places where they stand allow. -/
@[mk_iff]
structure WellFormed (o : OptionalText) : Prop where
  type : IsType o.type
  name : o.name.all isWord = true
  default : ∀ d ∈ o.default, ']' ∉ d
  description : IsField o.description
  dash : ¬"- ".toList <+: o.description

instance (o : OptionalText) : Decidable o.WellFormed := decidable_of_iff' _ o.wellFormed_iff

/-- Whether the default, if there is one, holds no blank. -/
def Solid (o : OptionalText) : Prop := ∀ d ∈ o.default, d.all (!isBlank ·) = true

instance (o : OptionalText) : Decidable o.Solid :=
  inferInstanceAs (Decidable (∀ d ∈ o.default, d.all (!isBlank ·) = true))

/-- The text of the tag. -/
def text (o : OptionalText) (rest : List Char) : List Char :=
  "\x7b".toList ++ (o.type ++ '\x7d' :: ' ' :: rest)

theorem line_eq (o : OptionalText) :
    o.line = "@".toList ++ ("param".toList ++ ' ' :: o.text (o.bracketed ++ behind o.description)) := by
  have hlead : "@param \x7b".toList = "@".toList ++ ("param".toList ++ ' ' :: "\x7b".toList) := by decide
  have hclose : "\x7d ".toList = ['\x7d', ' '] := by decide
  unfold line text
  simp only [hlead, hclose, List.append_assoc, List.cons_append, List.nil_append]

theorem isTagLine_line (o : OptionalText) : isTagLine o.line = true := by
  rw [line_eq]
  rfl

variable {o : OptionalText}

/-- The parameter of the tag is read from the text behind the tag's name. -/
theorem WellFormed.tagParam?_line (h : o.WellFormed) :
    tagParam? o.line = param? (o.text (o.bracketed ++ behind o.description)) := by
  have hlast : (o.text (o.bracketed ++ behind o.description)).getLast?.any isBlank = false := by
    have hbracket : ("\x7b".toList ++ o.type ++ ['\x7d', ' '] ++ o.bracketed).getLast?.any isBlank = false := by
      rw [bracketed, ← List.append_assoc, List.getLast?_concat]
      decide
    have htext := last_append_behind hbracket h.description.trimmed
    rwa [List.append_assoc _ o.bracketed, List.append_assoc, List.append_assoc] at htext
  have hbrace : (o.text (o.bracketed ++ behind o.description)).head?.any isBlank = false := by
    change isBlank '\x7b' = false
    decide
  have htrim : trim (' ' :: o.text (o.bracketed ++ behind o.description)) =
      o.text (o.bracketed ++ behind o.description) :=
    (trim_blank_append (a := [' ']) (by decide) _).trans (trim_eq_self hbrace hlast)
  have hname : lower (String.ofList "param".toList) = "param" := by decide
  have hspace : isWord ' ' = false := by decide
  have htag : tag? ("@".toList ++ ("param".toList ++ ' ' :: o.text (o.bracketed ++ behind o.description))) =
      some (lower (String.ofList "param".toList), trim (' ' :: o.text (o.bracketed ++ behind o.description))) :=
    tag?_append (by decide) (by decide) hspace
  rw [line_eq, tagParam?_eq htag, hname, htrim, if_pos (by decide)]

theorem WellFormed.name_solid (h : o.WellFormed) : o.name.all (!isBlank ·) = true :=
  List.all_eq_true.mpr fun c hc => by
    rw [isBlank_of_isWord (List.all_eq_true.mp h.name c hc)]
    rfl

/-- Without its brackets and its default, the name is left. -/
theorem WellFormed.paramName_bracketed (h : o.WellFormed) : paramName o.bracketed = o.name := by
  have hlast : o.bracketed.getLast? = some ']' := List.getLast?_concat
  have hinside : (o.bracketed.drop 1).dropLast = o.name ++ o.default.elim [] ('=' :: ·) := by
    rw [bracketed, List.cons_append, List.drop_one, List.tail_cons, List.dropLast_concat]
  have hname : ∀ c ∈ o.name, (c != '=') = true := fun c hc => by
    have hword := List.all_eq_true.mp h.name c hc
    rw [bne_iff_ne]
    rintro rfl
    exact absurd hword (by decide)
  rw [paramName, hlast, hinside, if_pos (by rfl), List.takeWhile_append_of_pos hname]
  cases o.default with
  | none => exact List.append_nil o.name
  | some d => exact List.append_nil o.name

/-- Without a blank in the default, the brackets end with the first word. -/
theorem WellFormed.param?_of_solid (h : o.WellFormed) (hsolid : o.Solid) :
    param? (o.text (o.bracketed ++ behind o.description)) = some o.param := by
  have hbracketed : o.bracketed.all (!isBlank ·) = true := by
    have hdefault : (o.default.elim [] ('=' :: ·)).all (!isBlank ·) = true := by
      cases hd : o.default with
      | none => rfl
      | some d => exact (List.all_cons ..).trans (by rw [hsolid d hd]; decide)
    rw [bracketed, List.all_append, List.all_cons, List.all_append, h.name_solid, hdefault]
    decide
  have hne : o.bracketed ≠ [] := List.cons_ne_nil _ _
  rw [text, param?_braced h.type hne hbracketed (behind_head (by decide) _), h.paramName_bracketed,
    trim_behind, h.description.trimmed, word?_eq_none h.dash]
  rfl

/-- A blank in the default ends the name; what follows the blank goes to the description. -/
theorem WellFormed.param?_of_blank (h : o.WellFormed) {d : List Char} (hd : o.default = some d)
    (hblank : ¬ d.all (!isBlank ·) = true) :
    let rest := trim (d.dropWhile (!isBlank ·) ++ ']' :: behind o.description)
    param? (o.text (o.bracketed ++ behind o.description)) =
      some ⟨String.ofList ('[' :: o.name ++ '=' :: d.takeWhile (!isBlank ·)), String.ofList o.type,
        String.ofList ((word? "- " rest).getD rest)⟩ := by
  intro rest
  have hname : o.bracketed ++ behind o.description =
      ('[' :: o.name ++ '=' :: d.takeWhile (!isBlank ·)) ++
        (d.dropWhile (!isBlank ·) ++ ']' :: behind o.description) := by
    rw [List.append_assoc, List.cons_append, List.cons_append, ← List.append_assoc (d.takeWhile (!isBlank ·)),
      List.takeWhile_append_dropWhile, bracketed, hd]
    simp
  have hsolid : ('[' :: o.name ++ '=' :: d.takeWhile (!isBlank ·)).all (!isBlank ·) = true := by
    rw [List.all_append, List.all_cons, List.all_cons, h.name_solid, List.all_takeWhile]
    decide
  have hcut : (d.dropWhile (!isBlank ·) ++ ']' :: behind o.description).head?.any (!isBlank ·) = false := by
    have hne : d.dropWhile (!isBlank ·) ≠ [] := fun e =>
      hblank (List.all_eq_true.mpr (List.dropWhile_eq_nil_iff.mp e))
    rw [List.head?_append_of_ne_nil _ hne]
    exact head?_dropWhile_any _ d
  -- the first word ends in front of the bracket that closes, so its brackets are no pair
  have hopen : paramName ('[' :: o.name ++ '=' :: d.takeWhile (!isBlank ·)) =
      '[' :: o.name ++ '=' :: d.takeWhile (!isBlank ·) := by
    refine if_neg fun hpair => ?_
    have hlast : ('[' :: o.name ++ '=' :: d.takeWhile (!isBlank ·)).getLast? = some ']' := by
      simpa using (Bool.and_eq_true_iff.mp hpair).2
    rw [List.getLast?_append_of_ne_nil _ (List.cons_ne_nil _ _)] at hlast
    rcases List.mem_cons.mp (List.mem_of_getLast? hlast) with heq | hmem
    · cases heq
    · exact h.default d hd (List.takeWhile_subset _ hmem)
  rw [text, hname, param?_braced h.type (by simp) hsolid hcut, hopen]

end OptionalText

/-- An optional parameter keeps its name, type and description just if its default holds no blank,
whatever stands around its tag. With a blank, what stands in front of the blank is taken for the
name. -/
theorem optional_parameter_iff {o : OptionalText} (h : o.WellFormed) {block : List Char}
    {before after : List (List Char)} (hblock : commentLines block = before ++ o.line :: after)
    (hafter : ∀ l ∈ after.takeWhile (!isTagLine ·), l = []) :
    ∃ p, (ofComment block).params =
        (tags before).filterMap tagParam? ++ p :: (tags after).filterMap tagParam? ∧
      p.type = String.ofList o.type ∧ (p = o.param ↔ o.Solid) ∧
      ∀ d ∈ o.default, ¬ d.all (!isBlank ·) = true →
        p.name = String.ofList ('[' :: o.name ++ '=' :: d.takeWhile (!isBlank ·)) := by
  have hparams : ∀ {p}, param? (o.text (o.bracketed ++ behind o.description)) = some p →
      (ofComment block).params =
        (tags before).filterMap tagParam? ++ p :: (tags after).filterMap tagParam? := fun {p} hp => by
    rw [params_ofComment, hblock, tags_around o.isTagLine_line before hafter, List.filterMap_append,
      List.filterMap_cons_some (h.tagParam?_line.trans hp)]
  by_cases hsolid : o.Solid
  · refine ⟨_, hparams (h.param?_of_solid hsolid), rfl, iff_of_true rfl hsolid, fun d hd hblank => ?_⟩
    exact absurd (hsolid d hd) hblank
  · simp only [OptionalText.Solid, not_forall] at hsolid
    obtain ⟨d, hd, hblank⟩ := hsolid
    refine ⟨_, hparams (h.param?_of_blank hd hblank), rfl, iff_of_false (fun heq => ?_) ?_, fun d' hd' _ => ?_⟩
    · -- a bracket is no word character
      have hname := String.ofList_injective (congrArg Param.name heq)
      have hbracket : '[' ∈ o.name := hname ▸ List.mem_cons_self
      exact absurd (List.all_eq_true.mp h.name _ hbracket) (by decide)
    · exact fun hall => hblank (hall d hd)
    · obtain rfl := Option.some.inj (hd.symm.trans hd')
      rfl

/-- An optional parameter with a default. -/
def limit : OptionalText where
  type := "int".toList
  name := "limit".toList
  default := some "2*(n-1)".toList
  description := "at most".toList

/-- A comment with the parameter between a description and another parameter. -/
def limitComment : List Char :=
  "/**\n * Sets a limit.\n * @param \x7bint\x7d [limit=2*(n-1)] at most\n *\n * @param \x7bstring\x7d name\n */".toList

theorem limit_read :
    limit.WellFormed ∧
      commentLines limitComment =
        [[], "Sets a limit.".toList] ++ limit.line :: [[], "@param \x7bstring\x7d name".toList, []] ∧
      (ofComment limitComment).params = [⟨"limit", "int", "at most"⟩, ⟨"name", "string", ""⟩] := by
  have hwf : limit.WellFormed := by decide +kernel
  have hlines : commentLines limitComment =
      [[], "Sets a limit.".toList] ++ limit.line :: [[], "@param \x7bstring\x7d name".toList, []] := by
    decide +kernel
  obtain ⟨p, hparams, -, hparam, -⟩ := optional_parameter_iff hwf hlines (by decide +kernel)
  obtain rfl := hparam.mpr (by decide +kernel)
  refine ⟨hwf, hlines, hparams.trans ?_⟩
  decide +kernel

/-- An optional parameter with a blank in its default. -/
def greeting : OptionalText where
  type := "string".toList
  name := "msg".toList
  default := some "hello world".toList
  description := "text".toList

theorem greeting_cut :
    let block := "/**\n * @param \x7bstring\x7d [msg=hello world] text\n */".toList
    greeting.WellFormed ∧ commentLines block = [[], greeting.line, []] ∧
      greeting.param = ⟨"msg", "string", "text"⟩ ∧
      (ofComment block).params = [⟨"[msg=hello", "string", "world] text"⟩] := by
  decide +kernel

end ScriptService.Doc
