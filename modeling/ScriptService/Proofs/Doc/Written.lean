import Mathlib.Data.List.Induction
import Mathlib.Tactic.MkIffOfInductiveProp
import ScriptService.Doc.Comment
import ScriptService.Proofs.Text.LineEnds

/-!
# Comments as they are written

A doc comment is written as the lines of a description and tags, whose texts may go on
over further lines (`Written`, `Tag`, `commentText`). What can stand in which place is
decidable (`IsField`, `Tag.WellFormed`). A text of several lines is trimmed if its
lines are (`trim_intercalate`), so the text of a tag is, too
(`Broken.WellFormed.trim_text`).
-/

namespace ScriptService.Doc

open Text Scan

/-! ## What is written -/

/-- A text that begins on the line of its tag and goes on over further lines. -/
structure Broken where
  first : List Char := []
  more : List (List Char) := []

/-- The whole text, with a space for each line break. -/
def Broken.text (b : Broken) : List Char :=
  [' '].intercalate (if b.first.isEmpty then b.more else b.first :: b.more)

/-- A parameter as it is written. -/
structure ParamText where
  type : List Char
  name : List Char
  description : Broken := {}

/-- A returned value as it is written. -/
structure ReturnText where
  type : List Char
  description : Broken := {}

/-- What a doc comment is to say. -/
structure Written where
  description : List (List Char) := []
  params : List ParamText := []
  returns : Option ReturnText := none
  deprecated : Bool := false

/-- A tag as it is written. One of another kind has a line and further ones. -/
inductive Tag
  | param (p : ParamText)
  | returns (r : ReturnText)
  | deprecated
  | other (line : List Char) (more : List (List Char))

namespace Tag

/-- What stands in front of a tag's text. -/
def head : Tag → List Char
  | param p => "@param \x7b".toList ++ p.type ++ "\x7d ".toList ++ p.name
  | returns r => "@returns \x7b".toList ++ r.type ++ "\x7d".toList
  | deprecated => "@deprecated".toList
  | other line _ => line

theorem head_param (p : ParamText) :
    (param p).head = "@param \x7b".toList ++ p.type ++ "\x7d ".toList ++ p.name := rfl

theorem head_returns (r : ReturnText) :
    (returns r).head = "@returns \x7b".toList ++ r.type ++ "\x7d".toList := rfl

/-- A tag's text. -/
def body : Tag → Broken
  | param p => p.description
  | returns r => r.description
  | deprecated => {}
  | other _ more => { more }

/-- The first line of a tag. A space stands at its end if the text begins on a further line. -/
def line : Tag → List Char
  | param p => (param p).head ++ ' ' :: p.description.first
  | returns r => (returns r).head ++ ' ' :: r.description.first
  | deprecated => deprecated.head
  | other line _ => line

/-- The lines of a tag. -/
def lines (t : Tag) : List (List Char) :=
  t.line :: t.body.more.map ("  ".toList ++ ·)

end Tag

/-- A doc comment of these lines. -/
def commentText (ls : List (List Char)) : List Char :=
  "/**\n".toList ++ ls.flatMap (fun l => " * ".toList ++ l ++ ['\n']) ++ " */".toList

def ParamText.param (p : ParamText) : Param :=
  ⟨String.ofList p.name, String.ofList p.type, String.ofList p.description.text⟩

def ReturnText.return (r : ReturnText) : Return :=
  ⟨String.ofList r.type, String.ofList r.description.text⟩

namespace Written

/-- The tags for what is written, in their order. -/
def tags (w : Written) : List Tag :=
  w.params.map .param ++ (w.returns.map .returns).toList ++ if w.deprecated then [.deprecated] else []

/-- The documentation that is written. -/
def doc (w : Written) : Doc where
  description :=
    if w.description.isEmpty then none else some (String.ofList (['\n'].intercalate w.description))
  params := w.params.map ParamText.param
  returns := w.returns.map ReturnText.return
  deprecated := w.deprecated

end Written

/-! ## What can be written -/

/-- A text on one line, with nothing blank at its ends. -/
@[mk_iff]
structure IsField (s : List Char) : Prop where
  trimmed : trim s = s
  oneLine : s.all (!isLineBoundary ·) = true

/-- A line that goes on with the tag in front of it. -/
@[mk_iff]
structure IsFurther (s : List Char) : Prop where
  field : IsField s
  ne_nil : s ≠ []
  not_tag : isTagLine s = false

@[mk_iff]
structure IsType (s : List Char) : Prop where
  field : IsField s
  ne_nil : s ≠ []
  close : '\x7d' ∉ s

/-- A name of a parameter, without brackets around it. -/
@[mk_iff]
structure IsParamName (s : List Char) : Prop where
  ne_nil : s ≠ []
  solid : s.all (!isBlank ·) = true
  bare : ¬(s.head? = some '[' ∧ s.getLast? = some ']')

@[mk_iff]
structure Broken.WellFormed (b : Broken) : Prop where
  first : IsField b.first
  more : ∀ l ∈ b.more, IsFurther l

@[mk_iff]
structure ParamText.WellFormed (p : ParamText) : Prop where
  type : IsType p.type
  name : IsParamName p.name
  description : p.description.WellFormed
  dash : ¬"- ".toList <+: p.description.text

@[mk_iff]
structure ReturnText.WellFormed (r : ReturnText) : Prop where
  type : IsType r.type
  description : r.description.WellFormed

/-- The lines of a description; blank ones stand between others. -/
@[mk_iff]
structure IsDescription (ls : List (List Char)) : Prop where
  field : ∀ l ∈ ls, IsField l
  not_tag : ∀ l ∈ ls, isTagLine l = false
  first : ls.head? ≠ some []
  last : ls.getLast? ≠ some []

/-- The tags that say something. -/
def knownTags : List String := ["param", "arg", "argument"] ++ ["return", "returns", "ret"] ++ ["deprecated"]

/-- The first line of a tag of another kind. -/
@[mk_iff]
structure IsOtherTag (line : List Char) : Prop where
  field : IsField line
  tag : isTagLine line = true
  other : lower (String.ofList ((line.drop 1).takeWhile isWord)) ∉ knownTags

instance (s : List Char) : Decidable (IsField s) := decidable_of_iff' _ (isField_iff s)

theorem isField_nil : IsField [] := by decide

instance (s : List Char) : Decidable (IsFurther s) := decidable_of_iff' _ (isFurther_iff s)

instance (s : List Char) : Decidable (IsType s) := decidable_of_iff' _ (isType_iff s)

instance (s : List Char) : Decidable (IsParamName s) := decidable_of_iff' _ (isParamName_iff s)

instance (b : Broken) : Decidable b.WellFormed := decidable_of_iff' _ b.wellFormed_iff

instance (p : ParamText) : Decidable p.WellFormed := decidable_of_iff' _ p.wellFormed_iff

instance (r : ReturnText) : Decidable r.WellFormed := decidable_of_iff' _ r.wellFormed_iff

instance (ls : List (List Char)) : Decidable (IsDescription ls) := decidable_of_iff' _ (isDescription_iff ls)

instance (line : List Char) : Decidable (IsOtherTag line) := decidable_of_iff' _ (isOtherTag_iff line)

namespace Tag

/-- The parts of a tag are what the places where they stand allow. -/
def WellFormed : Tag → Prop
  | param p => p.WellFormed
  | returns r => r.WellFormed
  | deprecated => True
  | other line more => IsOtherTag line ∧ ∀ l ∈ more, IsFurther l

instance : DecidablePred WellFormed
  | .param p => inferInstanceAs (Decidable p.WellFormed)
  | .returns r => inferInstanceAs (Decidable r.WellFormed)
  | .deprecated => inferInstanceAs (Decidable True)
  | .other line more => inferInstanceAs (Decidable (IsOtherTag line ∧ ∀ l ∈ more, IsFurther l))

/-- Whether a tag says something. -/
def isKnown : Tag → Bool
  | other .. => false
  | _ => true

end Tag

namespace IsParamName

variable {s : List Char}

theorem not_blank (h : IsParamName s) : ∀ c ∈ s, isBlank c = false := fun c hc => by
  simpa using List.all_eq_true.mp h.solid c hc

theorem last (h : IsParamName s) : s.getLast?.any isBlank = false :=
  any_eq_false h.not_blank fun _ hc => List.mem_of_getLast? hc

theorem oneLine (h : IsParamName s) : s.all (!isLineBoundary ·) = true := by
  refine List.all_eq_true.mpr fun c hc => ?_
  rw [Bool.not_eq_true', Bool.eq_false_iff]
  exact fun hb => Bool.eq_false_iff.mp (h.not_blank c hc) (isBlank_of_isLineBoundary hb)

end IsParamName

/-! ## Texts of several lines -/

theorem intercalate_cons_flatMap (sep l : List Char) (ls : List (List Char)) :
    sep.intercalate (l :: ls) = l ++ ls.flatMap (sep ++ ·) := by
  induction ls generalizing l with
  | nil => rw [List.intercalate_singleton, List.flatMap_nil, List.append_nil]
  | cons m ls ih => rw [List.intercalate_cons_cons, ih, List.flatMap_cons, List.append_assoc, List.append_assoc]

theorem exists_intercalate_concat (sep l : List Char) (ls : List (List Char)) :
    ∃ u, sep.intercalate (ls ++ [l]) = u ++ l := by
  cases ls with
  | nil => exact ⟨[], by rw [List.nil_append, List.intercalate_singleton, List.nil_append]⟩
  | cons m ls =>
    refine ⟨m ++ ls.flatMap (sep ++ ·) ++ sep, ?_⟩
    rw [List.cons_append, intercalate_cons_flatMap, List.flatMap_append, List.flatMap_singleton,
      List.append_assoc, List.append_assoc]

/-- Of several lines, only the ends of the first and the last one are trimmed. -/
theorem trim_intercalate {sep : List Char} {ls : List (List Char)} (hls : ∀ l ∈ ls, trim l = l)
    (hfirst : ls.head? ≠ some []) (hlast : ls.getLast? ≠ some []) :
    trim (sep.intercalate ls) = sep.intercalate ls := by
  refine trim_eq_self ?_ ?_
  · cases ls with
    | nil => rfl
    | cons l ls =>
      have hl : l ≠ [] := fun e => hfirst (by rw [List.head?_cons, e])
      rw [intercalate_cons_flatMap, List.head?_append_of_ne_nil _ hl]
      exact head_of_trim (hls l List.mem_cons_self)
  · induction ls using List.reverseRecOn with
    | nil => rfl
    | append_singleton ls l =>
      have hl : l ≠ [] := fun e => hlast (by rw [List.getLast?_concat, e])
      obtain ⟨u, hu⟩ := exists_intercalate_concat sep l ls
      rw [hu, List.getLast?_append_of_ne_nil _ hl]
      exact last_of_trim (hls l (List.mem_append_right ls List.mem_cons_self))

/-- A text behind another one, with a space between them if there is one. -/
def behind (s : List Char) : List Char :=
  if s.isEmpty then [] else ' ' :: s

theorem behind_of_ne_nil {s : List Char} (h : s ≠ []) : behind s = ' ' :: s :=
  if_neg (by simpa using h)

theorem behind_head {p : Char → Bool} (hp : p ' ' = false) (s : List Char) :
    (behind s).head?.any p = false := by
  rw [behind]
  split
  · rfl
  · exact hp

theorem trim_behind (s : List Char) : trim (behind s) = trim s := by
  rw [behind]
  split
  · rename_i h
    rw [List.isEmpty_iff.mp h]
  · exact trim_blank_append (a := [' ']) (by decide) s

theorem trim_append_space (u s : List Char) : trim (u ++ ' ' :: s) = trim (u ++ behind s) := by
  rw [behind]
  split
  · rename_i h
    rw [List.isEmpty_iff.mp h, List.append_nil]
    exact trim_concat_blank (by decide) u
  · rfl

/-- Behind a text that ends in no blank, a trimmed text leaves none at the end either. -/
theorem last_append_behind {s u : List Char} (hu : u.getLast?.any isBlank = false) (hs : trim s = s) :
    (u ++ behind s).getLast?.any isBlank = false := by
  rw [behind]
  split
  · rw [List.append_nil]
    exact hu
  · rename_i h
    have hne : s ≠ [] := by simpa using h
    have htext : u ++ ' ' :: s = u ++ [' '] ++ s := by simp
    rw [htext, List.getLast?_append_of_ne_nil _ hne]
    exact last_of_trim hs

namespace Broken

variable {b : Broken}

theorem behind_text (hmore : ∀ l ∈ b.more, l ≠ []) :
    behind b.text = behind b.first ++ b.more.flatMap (' ' :: ·) := by
  obtain ⟨first, more⟩ := b
  by_cases hfirst : first = []
  · subst hfirst
    cases more with
    | nil => rfl
    | cons l more =>
      have htext : text ⟨[], l :: more⟩ = l ++ more.flatMap (' ' :: ·) := intercalate_cons_flatMap _ _ _
      have hl : l ≠ [] := hmore l List.mem_cons_self
      rw [htext, behind_of_ne_nil (by simp [hl])]
      rfl
  · have htext : text ⟨first, more⟩ = first ++ more.flatMap (' ' :: ·) := by
      rw [text, if_neg (by simpa using hfirst), intercalate_cons_flatMap]
      rfl
    rw [htext, behind_of_ne_nil (by simp [hfirst]), behind_of_ne_nil hfirst]
    rfl

theorem WellFormed.trim_text (h : b.WellFormed) : trim b.text = b.text := by
  have hmore : ∀ l ∈ b.more, trim l = l ∧ l ≠ [] := fun l hl =>
    ⟨(h.more l hl).field.trimmed, (h.more l hl).ne_nil⟩
  have hlines : ∀ l ∈ if b.first.isEmpty then b.more else b.first :: b.more, trim l = l ∧ l ≠ [] := by
    split
    · exact hmore
    · rename_i hne
      rintro l (_ | ⟨_, hl⟩)
      · exact ⟨h.first.trimmed, by simpa using hne⟩
      · exact hmore l hl
  exact trim_intercalate (fun l hl => (hlines l hl).1) (fun e => (hlines _ (List.mem_of_head? e)).2 rfl)
    fun e => (hlines _ (List.mem_of_getLast? e)).2 rfl

end Broken

end ScriptService.Doc
