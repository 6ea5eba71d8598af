import ScriptService.Declaration.Pattern
import ScriptService.Proofs.Scan.Lexeme
import ScriptService.Proofs.Scan.Pieces

/-!
# Declarations led by a keyword

A declaration begins with a keyword or with a doc comment (`Led`). So a scan for
declarations passes over every text that holds neither (`Led.reads_plain`), and
over a documented declaration of another form (`Led.reads_foreign`); a declaration
on a line of its own is found with its comment (`Led.reads_declaration`).

A comment may end in `/**/`, where the opening of a comment seems to stand; no
comment begins there, as no newline follows it (`docBlock?_of_body`).
-/

namespace ScriptService.Declaration

open Text Scan

/-! ## Doc comments -/

/-- A doc comment with a text between its delimiters. -/
def comment (body : List Char) : List Char :=
  "/**".toList ++ '\n' :: body ++ "*/".toList

/-- The lines of the doc comment of a declaration, if it has one. -/
def commentLines (doc : Option (List Char)) : List Char :=
  doc.elim [] fun body => comment body ++ ['\n']

/-- What the text of a doc comment must not hold. -/
structure IsBody (body : List Char) : Prop where
  open_ : Lacks "/**" body
  close : Lacks "*/" body

theorem closeComment?_append {body : List Char} (h : Lacks "*/" body) (s : List Char) :
    closeComment? (body ++ '*' :: '/' :: s) = some (body ++ ['*', '/'], s) := by
  induction body with
  | nil => rfl
  | cons c body ih =>
    have hc : ∀ t, c = '*' → body ++ '*' :: '/' :: s = '/' :: t → False := fun t hc ht => by
      cases body with
      | nil => simp at ht
      | cons d body =>
        obtain rfl : d = '/' := (List.cons.inj ht).1
        exact h ⟨[], body, by rw [hc]; rfl⟩
    rw [List.cons_append, closeComment?.eq_3 c _ hc,
      ih (h.of_infix (List.suffix_cons c body).isInfix)]
    rfl

theorem docBlock?_comment {body : List Char} (h : Lacks "*/" body) (s : List Char) :
    docBlock? (comment body ++ '\n' :: s) = some (comment body, s) := by
  have hbody : Lacks "*/" ('\n' :: body) := Lacks.append_cons (a := []) (c := '\n') (by decide) h (by decide)
  have htext : comment body ++ '\n' :: s = "/**".toList ++ ('\n' :: body ++ '*' :: '/' :: '\n' :: s) := by
    simp [comment]
  have hblank : ((('\n' :: body) ++ '*' :: '/' :: '\n' :: s).takeWhile isBlank).contains '\n' = true := by
    rw [List.cons_append, List.takeWhile_cons_of_pos (by decide)]
    simp
  rw [htext, docBlock?, word?_append]
  simp only [Option.bind_eq_bind, Option.bind_some, hblank, if_true, closeComment?_append hbody, newline?]
  simp [comment]

/-- A doc comment opens with a blank behind its stars. -/
theorem docBlock?_eq_none {s : List Char} (h : ∀ c t, s = '/' :: '*' :: '*' :: c :: t → isBlank c = false) :
    docBlock? s = none := by
  rw [docBlock?]
  cases hw : word? "/**" s with
  | none => rfl
  | some body =>
    have hs : s = "/**".toList ++ body := (List.isPrefixOf?_eq_some_iff_append_eq.mp hw).symm
    cases body with
    | nil => rfl
    | cons c t =>
      have hc : isBlank c = false := h c t hs
      simp [hc]

theorem docBlock?_of_not_starts {s : List Char} (h : ¬ "/**".toList <+: s) : docBlock? s = none := by
  rw [docBlock?, word?_eq_none h]
  rfl

theorem docBlock?_of_body {u b : List Char} (hu : Lacks "/**" u) (hb : b <:+ u) (s : List Char) :
    docBlock? (b ++ '*' :: '/' :: s) = none := by
  refine docBlock?_eq_none fun c t h => ?_
  match b, hb, h with
  | [], _, h => simp at h
  | [x], _, h => simp at h
  | [x, y], _, h =>
    -- the stars are the comment's last one and that of its end
    simp only [List.cons_append, List.nil_append, List.cons.injEq, true_and] at h
    rw [← h.2.2.1]
    decide
  | x :: y :: z :: b, hb, h =>
    simp only [List.cons_append, List.cons.injEq] at h
    obtain ⟨rfl, rfl, rfl, -⟩ := h
    exact absurd ((List.prefix_append ['/', '*', '*'] b).isInfix.trans hb.isInfix) hu

/-! ## Patterns led by a keyword -/

/-- A pattern matches only where a keyword stands. The keyword holds no line break and no character
of a comment's delimiters. -/
structure Led (p : Pattern Declaration) (keyword : String) : Prop where
  eq_none : ∀ before s, ¬ keyword.toList <+: s → p before s = none
  newline : '\n' ∉ keyword.toList
  star : '*' ∉ keyword.toList
  slash : '/' ∉ keyword.toList
  ne_nil : keyword.toList ≠ []

theorem withDoc_eq_none {p : Pattern Declaration} {before : Option Char} {s : List Char}
    (hd : docBlock? s = none) (hp : p before s = none) : withDoc p before s = none := by
  rw [withDoc, hd, hp]
  rfl

/-- A declaration's comment and its name's place behind it. -/
def documented (doc : Option (List Char)) (name : List Char) (offset : Nat) (form : Form) : Declaration :=
  { doc := doc.map comment, name, nameOffset := (commentLines doc).length + offset, form }

namespace Led

variable {p : Pattern Declaration} {keyword : String}

theorem not_starts_cons (h : Led p keyword) {c : Char} (hc : c ∉ keyword.toList) (s : List Char) :
    ¬ keyword.toList <+: c :: s := fun hw => by
  rcases List.prefix_cons_iff.mp hw with e | ⟨t, e, -⟩
  · exact h.ne_nil e
  · exact hc (by simp [e])

/-- The ends of a comment hold no keyword. -/
theorem lacks_of_disjoint (h : Led p keyword) {u : List Char} (hu : ∀ c ∈ u, c ∉ keyword.toList) :
    Lacks keyword u := fun hw => by
  obtain ⟨c, w, hc⟩ := List.exists_cons_of_ne_nil h.ne_nil
  have hmem : c ∈ keyword.toList := by simp [hc]
  exact hu c (hw.subset hmem) hmem

theorem withDoc_newline (h : Led p keyword) (before : Option Char) (v : List Char) :
    withDoc p before ('\n' :: v) = none :=
  withDoc_eq_none (docBlock?_of_not_starts (by simp))
    (h.eq_none before _ (h.not_starts_cons h.newline v))

theorem withDoc_nil (h : Led p keyword) (before : Option Char) : withDoc p before [] = none :=
  withDoc_eq_none (docBlock?_of_not_starts (by simp))
    (h.eq_none before _ (by simpa using h.ne_nil))

/-- No declaration begins in a text without keyword and comment that ends with its line. -/
theorem withDoc_of_lacks (h : Led p keyword) {u b : List Char} (hk : Lacks keyword u)
    (hd : Lacks "/**" u) (hb : b <:+ u ++ ['\n']) (hne : b ≠ []) (before : Option Char)
    (v : List Char) : withDoc p before (b ++ v) = none := by
  rcases List.suffix_concat_iff.mp hb with rfl | ⟨t, rfl, ht⟩
  · exact absurd rfl hne
  · rw [List.append_assoc]
    exact withDoc_eq_none (docBlock?_of_not_starts (hd.not_starts (by decide) ht))
      (h.eq_none before _ (hk.not_starts h.newline ht))

theorem reads_plain (h : Led p keyword) {u : List Char} (hk : Lacks keyword u) (hd : Lacks "/**" u) :
    (withDoc p).Reads (u ++ ['\n']) [] :=
  Pattern.reads_of_none fun _ hb hne before v => h.withDoc_of_lacks hk hd hb hne before v

/-- A comment in front of a line without keyword begins no declaration. -/
theorem withDoc_comment (h : Led p keyword) {body line : List Char} (hbody : IsBody body)
    (hk : Lacks keyword line) (before : Option Char) (v : List Char) :
    withDoc p before (comment body ++ '\n' :: (line ++ '\n' :: v)) = none := by
  have hline : p (some '\n') (line ++ '\n' :: v) = none :=
    h.eq_none _ _ (hk.not_starts h.newline List.suffix_rfl)
  have hfront : p before (comment body ++ '\n' :: (line ++ '\n' :: v)) = none :=
    h.eq_none before _ (h.not_starts_cons h.slash _)
  rw [withDoc, docBlock?_comment hbody.close, hfront]
  simp only [Option.bind_eq_bind, Option.bind_some, hline]
  rfl

/-- A line without keyword and its comment are passed over. -/
theorem reads_foreign (h : Led p keyword) {doc : Option (List Char)}
    (hdoc : ∀ body ∈ doc, IsBody body ∧ Lacks keyword body) {line : List Char}
    (hk : Lacks keyword line) (hd : Lacks "/**" line) :
    (withDoc p).Reads (commentLines doc ++ line ++ ['\n']) [] := by
  cases doc with
  | none => exact h.reads_plain hk hd
  | some body =>
    obtain ⟨hbody, hkb⟩ := hdoc body rfl
    -- behind its first slash, the comment and the line lack the keyword and the opening of a comment
    have htext : commentLines (some body) ++ line ++ ['\n'] =
        '/' :: (("**".toList ++ '\n' :: body) ++ (("*/".toList ++ '\n' :: line) ++ ['\n'])) := by
      simp [commentLines, comment]
    have hopen : Lacks "/**" ("**".toList ++ '\n' :: body) :=
      Lacks.append_cons (by decide) hbody.open_ (by decide)
    have hclose : Lacks "/**" ("*/".toList ++ '\n' :: line) :=
      Lacks.append_cons (by decide) hd (by decide)
    have hkopen : Lacks keyword ("**".toList ++ '\n' :: body) :=
      Lacks.append_cons (h.lacks_of_disjoint (by simp [h.star])) hkb h.newline
    have hkclose : Lacks keyword ("*/".toList ++ '\n' :: line) :=
      Lacks.append_cons (h.lacks_of_disjoint (by simp [h.star, h.slash])) hk h.newline
    refine Pattern.reads_of_none fun b hb hne before v => ?_
    rw [htext] at hb
    rcases List.suffix_cons_iff.mp hb with rfl | hb
    · rw [← htext]
      simpa [commentLines] using h.withDoc_comment hbody hk before v
    · rcases List.suffix_or_suffix_of_suffix hb (List.suffix_append _ _) with hz | ⟨t, rfl⟩
      · exact h.withDoc_of_lacks hkclose hclose hz hne before v
      · have ht : t <:+ "**".toList ++ '\n' :: body := List.suffix_append_self_iff.mp hb
        rw [List.append_assoc, List.append_assoc]
        exact withDoc_eq_none (docBlock?_of_body hopen ht _)
          (h.eq_none before _ (hkopen.not_starts h.star ht))

/-- A declaration on a line of its own is found, with its comment. -/
theorem reads_declaration (h : Led p keyword) {doc : Option (List Char)}
    (hdoc : ∀ body ∈ doc, Lacks "*/" body) {line name : List Char} {offset : Nat} {form : Form}
    (hk : keyword.toList <+: line)
    (hp : ∀ before v, LineStart before →
      p before (line ++ '\n' :: v) = some ({ name, nameOffset := offset, form }, '\n' :: v)) :
    (withDoc p).Reads (commentLines doc ++ line ++ ['\n'])
      [⟨0, (commentLines doc ++ line).length, documented doc name offset form⟩] := by
  have hne : line ≠ [] := fun e => h.ne_nil (List.prefix_nil.mp (e ▸ hk))
  refine Pattern.reads_of_match (by simp [hne]) (fun before v hb => ?_) h.withDoc_newline
  cases doc with
  | none =>
    have hd : docBlock? (line ++ '\n' :: v) = none := by
      refine docBlock?_of_not_starts fun ⟨t, ht⟩ => ?_
      have hs := hk.trans (List.prefix_append line ('\n' :: v))
      rw [← ht] at hs
      exact h.not_starts_cons h.slash _ hs
    rw [commentLines, Option.elim_none, List.nil_append, withDoc, hd, hp before v hb]
    simp [documented, commentLines]
  | some body =>
    have hd := docBlock?_comment (hdoc body rfl) (line ++ '\n' :: v)
    have htext : commentLines (some body) ++ line ++ '\n' :: v =
        comment body ++ '\n' :: (line ++ '\n' :: v) := by
      simp [commentLines]
    have hlen : (comment body ++ '\n' :: (line ++ '\n' :: v)).length - (line ++ '\n' :: v).length =
        (commentLines (some body)).length := by
      rw [← htext, List.append_assoc, List.length_append, Nat.add_sub_cancel]
    rw [htext, withDoc, hd]
    simp only [Option.bind_eq_bind, Option.bind_some, hp (some '\n') v lineStart_newline, hlen]
    rfl

end Led

end ScriptService.Declaration
