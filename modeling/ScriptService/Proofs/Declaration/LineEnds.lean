import ScriptService.Proofs.Declaration.Keyword
import ScriptService.Proofs.Declaration.Library
import ScriptService.Proofs.Declaration.Name
import ScriptService.Proofs.Declaration.Script
import ScriptService.Proofs.Scan.LineEnds
import ScriptService.Proofs.Scan.Lines

/-!
# Declarations in a text with other line ends

Each pattern of a declaration is read piece by piece in a text with line ends `\n`
and in the same text with `\r\n`. The pieces take the same, so the declarations found
are the same but for line ends in their texts (`Agrees`): procedures
(`procedure_agrees`) and definitions (`definition_agrees`) everywhere, macros
(`define_agrees`) where a value follows their head or more than one blank
(`isBare`), since a value goes on to the `\r` (`value?_agrees`). A comment in front of
a declaration changes nothing about that (`withDoc_agrees`).
-/

namespace ScriptService

open Text Scan

namespace Declaration

/-! ## Pieces -/

theorem closeComment?_cons {c : Char} (hc : c ≠ '*') (s : List Char) :
    closeComment? (c :: s) = (closeComment? s).map fun (t, rest) => (c :: t, rest) :=
  closeComment?.eq_3 c s fun _ e _ => hc e

theorem closeComment?_crlf (s : List Char) :
    closeComment? (crlf s) = (closeComment? s).map (Prod.map crlf crlf) := by
  fun_induction closeComment? s with
  | case1 => rfl
  | case2 s => rfl
  | case3 c s hnot ih =>
    by_cases hc : c = '\n'
    · subst hc
      rw [crlf_newline, closeComment?_cons (by decide), closeComment?_cons (by decide), ih]
      cases closeComment? s <;> rfl
    · have hnot' : ∀ t, c = '*' → crlf s = '/' :: t → False := fun t hstar hs => by
        have hslash : "/".toList <+: s := prefix_of_prefix_crlf (by decide) ⟨t, hs.symm⟩
        obtain ⟨u, hu⟩ := hslash
        exact hnot u hstar hu.symm
      rw [crlf_cons hc, closeComment?.eq_3 c _ hnot', ih]
      cases closeComment? s with
      | none => rfl
      | some x => simp only [Option.map_some, Prod.map, crlf_cons hc]

theorem contains_crlf {c : Char} (hc : c ≠ '\r') (s : List Char) : (crlf s).contains c = s.contains c := by
  rw [Bool.eq_iff_iff, List.contains_iff_mem, List.contains_iff_mem, mem_crlf hc]

theorem docBlock?_crlf {s : List Char} (h : '\r' ∉ s) :
    docBlock? (crlf s) = (docBlock? s).map (Prod.map crlf crlf) := by
  rw [docBlock?, docBlock?, word?_crlf (by decide) (by decide)]
  cases hbody : word? "/**" s with
  | none => rfl
  | some body =>
    simp only [Option.map_some, Option.bind_eq_bind, Option.bind_some, takeWhile_crlf isBlank_lineEnds,
      contains_crlf (show '\n' ≠ '\r' by decide), closeComment?_crlf]
    split
    · cases hclose : closeComment? body with
      | none => rfl
      | some x =>
        obtain ⟨text, rest⟩ := x
        have hrest : '\r' ∉ rest := fun hm =>
          h ((word?_suffix hbody).subset ((closeComment?_suffix hclose).subset hm))
        simp only [Option.map_some, Prod.map, Option.bind_some, newline?_crlf hrest]
        cases newline? rest with
        | none => rfl
        | some t =>
          simp only [Option.map_some, Option.bind_some, Prod.map, crlf_append]
          rfl
    · rfl

theorem params?_crlf (s : List Char) : params? (crlf s) = (params? s).map (Prod.map crlf crlf) := by
  rw [params?, params?, word?_crlf (by decide) (by decide)]
  cases word? "(" s with
  | none => rfl
  | some t => exact upTo?_crlf (by decide) (by decide) t

theorem header?_cons_of_ne {c : Char} (hc : c ≠ 'B') (before : Option Char) (s : List Char) :
    header? before (c :: s) = (header? (some c) s).map fun (t, rest) => (c :: t, rest) := by
  have hword : word? "BEGIN" (c :: s) = none := word?_eq_none fun ⟨t, ht⟩ => hc (List.cons.inj ht).1.symm
  rw [header?, hword]
  rfl

theorem header?_crlf (before : Option Char) (s : List Char) :
    header? before (crlf s) = (header? before s).map (Prod.map crlf crlf) := by
  induction s generalizing before with
  | nil => rfl
  | cons c s ih =>
    by_cases hc : c = '\n'
    · subst hc
      rw [crlf_newline, header?_cons_of_ne (by decide), header?_cons_of_ne (by decide),
        header?_cons_of_ne (by decide), ih]
      cases header? (some '\n') s <;> rfl
    · have hword : ((word? "BEGIN" (c :: crlf s)).filter fun rest =>
            isWordEdge before (c :: crlf s) && !startsWord rest) =
          ((word? "BEGIN" (c :: s)).filter fun rest =>
            isWordEdge before (c :: s) && !startsWord rest).map crlf := by
        rw [← crlf_cons hc, word?_crlf (by decide) (by decide), isWordEdge_crlf]
        cases word? "BEGIN" (c :: s) with
        | none => rfl
        | some rest =>
          rw [Option.map_some, Option.filter_some, Option.filter_some, startsWord_crlf]
          split <;> rfl
      rw [crlf_cons hc, header?, header?, hword]
      cases (word? "BEGIN" (c :: s)).filter fun rest => isWordEdge before (c :: s) && !startsWord rest with
      | some rest => rfl
      | none =>
        dsimp only [Option.map_none]
        rw [ih]
        cases header? (some c) s with
        | none => rfl
        | some x => simp only [Option.map_some, Prod.map, crlf_cons hc]

theorem either?_crlf {β : Type} {keyword : β → String} (hn : ∀ x, '\n' ∉ (keyword x).toList)
    (hr : ∀ x, '\r' ∉ (keyword x).toList) (a b : β) (s : List Char) :
    either? keyword a b (crlf s) = (either? keyword a b s).map (Prod.map id crlf) := by
  rw [either?, either?, word?_crlf (hn a) (hr a), word?_crlf (hn b) (hr b)]
  cases word? (keyword a) s with
  | some t => rfl
  | none => cases word? (keyword b) s <;> rfl

theorem skipQuote_crlf (s : List Char) : skipQuote (crlf s) = crlf (skipQuote s) := by
  cases s with
  | nil => rfl
  | cons c s =>
    by_cases hc : c = '\n'
    · subst hc
      rfl
    · rw [crlf_cons hc, skipQuote, skipQuote]
      split
      · rfl
      · rw [crlf_cons hc]

/-- What stands in front of a header: the quotation mark behind the name, or the name's last character. -/
theorem beforeHeader_crlf (name : Option Char) (u : List Char) :
    (if (skipQuote (crlf u)).length < (crlf u).length then (crlf u).head? else name) =
      if (skipQuote u).length < u.length then u.head? else name := by
  cases u with
  | nil => rfl
  | cons c u =>
    by_cases hc : c = '\n'
    · subst hc
      exact (if_neg (Nat.lt_irrefl _)).trans (if_neg (Nat.lt_irrefl _)).symm
    · rw [crlf_cons hc, skipQuote, skipQuote]
      split
      · simp only [List.length_cons, Nat.lt_succ_self, if_true, List.head?_cons]
      · simp only [List.length_cons, Nat.lt_irrefl, if_false]

/-! ## Declarations that are the same but for line ends -/

end Declaration

/-- Two macros are the same but for line ends in their parameters and blanks behind their values. -/
inductive Form.SameMacro : Form → Form → Prop
  | define {params : Option (List Char)} {value value' : List Char} (h : trimRight value' = trimRight value) :
    SameMacro (.define params value) (.define (params.map crlf) value')

/-- Two procedures are the same but for line ends in their parameters. -/
inductive Form.SameProcedure : Form → Form → Prop
  | procedure (params : List Char) : SameProcedure (.procedure params) (.procedure (crlf params))

/-- Two definitions are the same but for line ends in their headers. -/
inductive Form.SameDefinition : Form → Form → Prop
  | definition (scope : Scope) (callable : Callable) (header : List Char) :
    SameDefinition (.definition scope callable header) (.definition scope callable (crlf header))

namespace Declaration

/-- Two declarations at the same place of a text, of which the second one has other line ends, are the
same but for these, if their forms are. -/
structure Agrees (same : Form → Form → Prop) (s : List Char) (d d' : Declaration) : Prop where
  name : d'.name = d.name
  oneLine : '\n' ∉ d.name
  doc : d'.doc = d.doc.map crlf
  docText : ∀ doc ∈ d.doc, '\r' ∉ doc
  place : ∃ u t, s = u ++ t ∧ d.nameOffset = u.length ∧ d'.nameOffset = (crlf u).length
  form : same d.form d'.form

theorem rel_bind_map {α β α' β' : Type} {R : β → β' → Prop} {x : Option α} {g : α → α'}
    {k : α → Option β} {k' : α' → Option β'} (h : ∀ a, x = some a → Option.Rel R (k a) (k' (g a))) :
    Option.Rel R (x.bind k) ((x.map g).bind k') := by
  cases x with
  | none => exact .none
  | some a => exact h a rfl

theorem rel_bind {α β α' β' : Type} {P : α → α' → Prop} {R : β → β' → Prop} {x : Option α}
    {x' : Option α'} {k : α → Option β} {k' : α' → Option β'} (hx : Option.Rel P x x')
    (h : ∀ a a', x = some a → P a a' → Option.Rel R (k a) (k' a')) : Option.Rel R (x.bind k) (x'.bind k') := by
  cases hx with
  | none => exact .none
  | some ha => exact h _ _ rfl ha

/-- A declaration whose name is where the rest of the text begins. -/
theorem agrees_of_name {same : Form → Form → Prop} {s t name : List Char} {form form' : Form}
    (ht : t <:+ s) (hline : '\n' ∉ name) (hform : same form form') :
    Agrees same s { name, nameOffset := s.length - t.length, form }
      { name, nameOffset := (crlf s).length - (crlf t).length, form := form' } := by
  obtain ⟨u, rfl⟩ := ht
  exact {
    name := rfl
    oneLine := hline
    doc := rfl
    docText := nofun
    place := ⟨u, t, rfl, by rw [List.length_append, Nat.add_sub_cancel],
      by rw [crlf_append, List.length_append, Nat.add_sub_cancel]⟩
    form := hform }

theorem not_mem_name {t name rest : List Char} (h : run? isWord t = some (name, rest)) : '\n' ∉ name :=
  (isRun_of_run? h).2.not_mem (by decide)

/-- What follows a name and its parameters, if there are any. -/
def behind (u : List Char) (params : Option (List Char × List Char)) : List Char :=
  params.elim u Prod.snd

theorem behind_crlf (u : List Char) (params : Option (List Char × List Char)) :
    behind (crlf u) (params.map (Prod.map crlf crlf)) = crlf (behind u params) := by
  cases params <;> rfl

theorem behind_suffix {u : List Char} {params : Option (List Char × List Char)}
    (h : ∀ x ∈ params, params? u = some x) : behind u params <:+ u :=
  elim_params_suffix h

theorem ne_of_keyword {w : String} (hw : w.toList ≠ []) {s t rest : List Char} (ht : word? w s = some t)
    (hrest : rest <:+ t) : rest ≠ s := fun e => by
  have hlen := congrArg List.length (eq_append_of_word? ht)
  have hle := hrest.length_le
  have hpos := List.length_pos_iff.mpr hw
  rw [List.length_append] at hlen
  rw [e] at hle
  omega

/-! ## Procedures -/

theorem procedure_agrees (before : Option Char) (s : List Char) :
    Pattern.AgreesAt procedure (Agrees Form.SameProcedure s) before s := by
  rw [Pattern.AgreesAt, procedure, procedure, word?_crlf (by decide) (by decide)]
  refine rel_bind_map fun t ht => ?_
  rw [run?_crlf isBlank_lineEnds]
  refine rel_bind_map ?_
  rintro ⟨gap, t'⟩ hgap
  dsimp only [Prod.map]
  rw [run?_crlf_of_neg (by decide) (by decide)]
  refine rel_bind_map ?_
  rintro ⟨name, u⟩ hname
  dsimp only [Prod.map, id]
  have hbehind := behind_crlf u (params? u)
  rw [behind, ← params?_crlf] at hbehind
  rw [hbehind, run?_crlf isBlank_lineEnds]
  refine rel_bind_map ?_
  rintro ⟨gap', v⟩ hgap'
  dsimp only [Prod.map]
  rw [word?_crlf (by decide) (by decide)]
  refine rel_bind_map fun rest hrest => ?_
  rw [isWordEdge_crlf, startsWord_crlf]
  split
  · have hname' : t' <:+ t := run?_suffix hgap
    have hu : rest <:+ u :=
      (word?_suffix hrest).trans ((run?_suffix hgap').trans (behind_suffix fun _ hx => hx))
    have hrest' : rest <:+ t := hu.trans ((run?_suffix hname).trans hname')
    have hform : Form.SameProcedure (.procedure ((params? u).elim [] Prod.fst))
        (.procedure ((params? (crlf u)).elim [] Prod.fst)) := by
      rw [params?_crlf]
      cases params? u <;> exact .procedure _
    exact .some ⟨agrees_of_name (hname'.trans (word?_suffix ht)) (not_mem_name hname) hform, .inl rfl,
      hrest'.trans (word?_suffix ht), ne_of_keyword (by decide) ht hrest'⟩
  · exact .none

/-! ## Definitions -/

theorem definition_agrees (before : Option Char) (s : List Char) :
    Pattern.AgreesAt definition (Agrees Form.SameDefinition s) before s := by
  rw [Pattern.AgreesAt, definition, definition, word?_crlf (by decide) (by decide)]
  refine rel_bind_map fun t ht => ?_
  rw [either?_crlf (fun x => by cases x <;> decide) (fun x => by cases x <;> decide)]
  refine rel_bind_map ?_
  rintro ⟨scope, t₁⟩ hscope
  dsimp only [Prod.map, id]
  rw [word?_crlf (by decide) (by decide)]
  refine rel_bind_map fun t₂ hmid => ?_
  rw [either?_crlf (fun x => by cases x <;> decide) (fun x => by cases x <;> decide)]
  refine rel_bind_map ?_
  rintro ⟨callable, t₃⟩ hcallable
  dsimp only [Prod.map, id]
  rw [run?_crlf isBlank_lineEnds]
  refine rel_bind_map ?_
  rintro ⟨gap, t₄⟩ hgap
  dsimp only [Prod.map]
  rw [skipQuote_crlf, run?_crlf_of_neg (by decide) (by decide)]
  refine rel_bind_map ?_
  rintro ⟨name, u⟩ hname
  dsimp only [Prod.map, id]
  change Option.Rel _ _ (Option.bind (header? (if (skipQuote (crlf u)).length < (crlf u).length then
    (crlf u).head? else name.getLast?) (skipQuote (crlf u))) _)
  rw [beforeHeader_crlf, skipQuote_crlf, header?_crlf]
  refine rel_bind_map ?_
  rintro ⟨header, rest⟩ hheader
  dsimp only [Prod.map]
  rw [isWordEdge_crlf]
  split
  · have hkeyword : t₃ <:+ t :=
      (either?_suffix hcallable).trans ((word?_suffix hmid).trans (either?_suffix hscope))
    have hname' : skipQuote t₄ <:+ t := (skipQuote_suffix t₄).trans ((run?_suffix hgap).trans hkeyword)
    have hrest : rest <:+ t := (header?_suffix hheader).trans
      ((skipQuote_suffix u).trans ((run?_suffix hname).trans hname'))
    exact .some ⟨agrees_of_name (hname'.trans (word?_suffix ht)) (not_mem_name hname)
      (.definition scope callable header), .inl rfl, hrest.trans (word?_suffix ht),
      ne_of_keyword (by decide) ht hrest⟩
  · exact .none

/-! ## Macros -/

/-- What follows the head of a macro, that is, its keyword, its name and its parameters. -/
def behindHead? (s : List Char) : Option (List Char) := do
  let t ← word? "#define" s
  let (_, t) ← run? isGap t
  let (_, u) ← run? isWord t
  some (((params? u).filter (!·.1.isEmpty)).elim u Prod.snd)

/-- Whether behind the head of a macro one blank ends the line. -/
def isBare (s : List Char) : Bool :=
  match behindHead? s with
  | some (c :: '\n' :: _) => isGap c
  | _ => false

/-- A value behind a gap, where what is left of the line and what follows it are given. -/
theorem value?_eq {s gap rest value tail : List Char} (hgap : run? isGap s = some (gap, rest))
    (hvalue : rest.takeWhile (· != '\n') = value) (htail : rest.dropWhile (· != '\n') = tail) :
    value? s = if value.isEmpty then
        if gap.length < 2 then none else some (gap.drop (gap.length - 1), rest)
      else some (value, tail) := by
  rw [value?, hgap, Option.bind_eq_bind, Option.bind_some]
  simp only [hvalue, htail]

/-- The last blank of a gap is no value. -/
theorem trimRight_gap {s gap rest : List Char} (h : run? isGap s = some (gap, rest)) :
    trimRight (gap.drop (gap.length - 1)) = [] := by
  have hrun := (isRun_of_run? h).2
  have hblank : isBlank (gap.getLast hrun.ne_nil) = true :=
    isBlank_of_isGap (List.all_eq_true.mp hrun.all _ (List.getLast_mem _))
  rw [List.drop_length_sub_one hrun.ne_nil]
  exact trimRight_concat_blank hblank []

/-- Values are the same but for blanks behind them: a `\r` behind a value belongs to it. Only where one
blank ends the line, it is a value of its own. -/
theorem value?_agrees {s : List Char} (hbare : ∀ c t, s = c :: '\n' :: t → isGap c = false) :
    Option.Rel (fun x x' => trimRight x'.1 = trimRight x.1 ∧ SameRest x.2 x'.2) (value? s)
      (value? (crlf s)) := by
  cases hgap : run? isGap s with
  | none =>
    have hgap' := run?_crlf_of_neg (p := isGap) (by decide) (by decide) s
    rw [hgap] at hgap'
    rw [value?, value?, hgap, hgap']
    exact .none
  | some x =>
    obtain ⟨gap, rest⟩ := x
    have hgap' : run? isGap (crlf s) = some (gap, crlf rest) := by
      rw [run?_crlf_of_neg (by decide) (by decide), hgap]
      rfl
    have hlf : ('\n' != '\n') = false := rfl
    by_cases hn : '\n' ∈ rest
    · obtain ⟨line, t, rfl, hline⟩ := List.eq_append_cons_of_mem hn
      have hall : line.all (· != '\n') = true :=
        List.all_eq_true.mpr fun c hc => bne_iff_ne.mpr fun e => hline (e ▸ hc)
      have hall' : (line ++ ['\r']).all (· != '\n') = true := by
        rw [List.all_append, hall]
        rfl
      have hcrlf : crlf (line ++ '\n' :: t) = (line ++ ['\r']) ++ '\n' :: crlf t := by
        rw [crlf_append, crlf_eq_self hline, crlf_newline, List.append_assoc, List.singleton_append]
      have hvalue : value? (crlf s) = some (line ++ ['\r'], '\n' :: crlf t) := by
        rw [hcrlf] at hgap'
        rw [value?_eq hgap' (takeWhile_run hall' hlf (crlf t)) (dropWhile_run hall' hlf (crlf t)),
          if_neg (by simp)]
      rw [value?_eq hgap (takeWhile_run hall hlf t) (dropWhile_run hall hlf t), hvalue]
      cases line with
      | nil =>
        rw [if_pos (List.isEmpty_nil)]
        split
        · rename_i hlen
          -- the gap would be one blank at the end of the line
          obtain ⟨hs, hrun⟩ := isRun_of_run? hgap
          have hpos := List.length_pos_iff.mpr hrun.ne_nil
          obtain ⟨c, rfl⟩ := List.length_eq_one_iff.mp (Nat.le_antisymm (Nat.le_of_lt_succ hlen) hpos)
          have hc : isGap c = true := List.all_eq_true.mp hrun.all c List.mem_cons_self
          rw [hbare c t hs] at hc
          cases hc
        · exact .some ⟨(trimRight_concat_blank isBlank_cr []).trans (trimRight_gap hgap).symm,
            .inr ⟨t, rfl, rfl⟩⟩
      | cons c line =>
        rw [if_neg (by simp)]
        exact .some ⟨trimRight_concat_blank isBlank_cr _, .inr ⟨t, rfl, rfl⟩⟩
    · rw [crlf_eq_self hn] at hgap'
      have hn' : '\n' ∉ rest.dropWhile (· != '\n') := fun h => hn ((List.dropWhile_suffix _).subset h)
      rw [value?_eq hgap rfl rfl, value?_eq hgap' rfl rfl]
      split
      · split
        · exact .none
        · exact .some ⟨rfl, .inl (crlf_eq_self hn).symm⟩
      · exact .some ⟨rfl, .inl (crlf_eq_self hn').symm⟩

theorem define_agrees (before : Option Char) {s : List Char} (hbare : isBare s = false) :
    Pattern.AgreesAt define (Agrees Form.SameMacro s) before s := by
  rw [Pattern.AgreesAt, define, define, word?_crlf (by decide) (by decide)]
  refine rel_bind_map fun t ht => ?_
  rw [run?_crlf_of_neg (by decide) (by decide)]
  refine rel_bind_map ?_
  rintro ⟨gap, t'⟩ hgap
  dsimp only [Prod.map, id]
  rw [run?_crlf_of_neg (by decide) (by decide)]
  refine rel_bind_map ?_
  rintro ⟨name, u⟩ hname
  dsimp only [Prod.map, id]
  have hparams : ((params? (crlf u)).filter fun x => !x.1.isEmpty) =
      ((params? u).filter fun x => !x.1.isEmpty).map (Prod.map crlf crlf) := by
    rw [params?_crlf]
    cases params? u with
    | none => rfl
    | some x =>
      rw [Option.map_some, Option.filter_some, Option.filter_some, Prod.map_fst, isEmpty_crlf]
      split <;> rfl
  have hsuffix : behind u ((params? u).filter fun x => !x.1.isEmpty) <:+ u :=
    behind_suffix fun x hx => (Option.filter_eq_some_iff.mp hx).1
  have hbare' : ∀ c v, behind u ((params? u).filter fun x => !x.1.isEmpty) = c :: '\n' :: v → isGap c = false :=
    fun c v hv => by
    have hhead : behindHead? s = some (c :: '\n' :: v) := by
      simp only [behindHead?, Option.bind_eq_bind, ht, Option.bind_some, hgap, hname]
      exact congrArg some hv
    rw [isBare, hhead] at hbare
    exact hbare
  rw [hparams]
  generalize (params? u).filter (fun x => !x.1.isEmpty) = params at hsuffix hbare'
  have hvalue := value?_agrees hbare'
  rw [← behind_crlf] at hvalue
  refine rel_bind hvalue ?_
  rintro ⟨value, rest⟩ ⟨value', rest'⟩ hread ⟨htrim, hrest⟩
  have hname' : t' <:+ t := run?_suffix hgap
  have hrest' : rest <:+ t :=
    (value?_suffix hread).trans (hsuffix.trans ((run?_suffix hname).trans hname'))
  have hform : Form.SameMacro (.define (params.map Prod.fst) value)
      (.define ((params.map (Prod.map crlf crlf)).map Prod.fst) value') := by
    have hfst : (params.map (Prod.map crlf crlf)).map Prod.fst = (params.map Prod.fst).map crlf := by
      cases params <;> rfl
    rw [hfst]
    exact .define htrim
  exact .some ⟨agrees_of_name (hname'.trans (word?_suffix ht)) (not_mem_name hname) hform, hrest,
    hrest'.trans (word?_suffix ht), ne_of_keyword (by decide) ht hrest'⟩

/-! ## Doc comments -/

theorem closeComment?_eq_append {s text rest : List Char} (h : closeComment? s = some (text, rest)) :
    s = text ++ rest := by
  fun_induction closeComment? s generalizing text with
  | case1 => cases h
  | case2 s =>
    obtain ⟨rfl, rfl⟩ := Prod.mk.inj (Option.some.inj h)
    rfl
  | case3 c s _ ih =>
    obtain ⟨⟨u, v⟩, hu, he⟩ := Option.map_eq_some_iff.mp h
    obtain ⟨rfl, rfl⟩ := Prod.mk.inj he
    rw [ih hu, List.cons_append]

/-- A comment stands in its text. -/
theorem docBlock?_starts {s doc rest : List Char} (h : docBlock? s = some (doc, rest)) : doc <+: s := by
  rw [docBlock?, Option.bind_eq_bind, Option.bind_eq_some_iff] at h
  obtain ⟨body, hbody, h⟩ := h
  split at h
  · simp only [Option.bind_eq_bind, Option.bind_eq_some_iff] at h
    obtain ⟨⟨text, u⟩, hclose, v, -, h⟩ := h
    obtain ⟨rfl, -⟩ := Prod.mk.inj (Option.some.inj h)
    rw [eq_append_of_word? hbody, closeComment?_eq_append hclose, ← List.append_assoc]
    exact List.prefix_append _ _
  · cases h

theorem rel_orElse {α β : Type} {R : α → β → Prop} {x y : Option α} {x' y' : Option β}
    (hx : Option.Rel R x x') (hy : Option.Rel R y y') : Option.Rel R (x <|> y) (x' <|> y') := by
  cases hx with
  | none => exact hy
  | some ha => exact .some ha

theorem withDoc_agrees {same : Form → Form → Prop} {p : Pattern Declaration} (before : Option Char)
    {s : List Char} (hr : '\r' ∉ s)
    (hp : ∀ before t, t <:+ s → Pattern.AgreesAt p (Agrees same t) before t) :
    Pattern.AgreesAt (withDoc p) (Agrees same s) before s := by
  rw [Pattern.AgreesAt, withDoc, withDoc]
  refine rel_orElse ?_ (hp before s List.suffix_rfl)
  rw [docBlock?_crlf hr]
  refine rel_bind_map ?_
  rintro ⟨doc, t⟩ hdoc
  have ht := docBlock?_suffix hdoc
  dsimp only [Prod.map]
  refine rel_bind (hp (some '\n') t ht) ?_
  rintro ⟨d, rest⟩ ⟨d', rest'⟩ - ⟨hd, hrest, hsuffix, hne⟩
  refine .some ⟨?_, hrest, hsuffix.trans ht, fun e => hne (hsuffix.eq_of_length_le ?_)⟩
  · obtain ⟨c, rfl⟩ := ht
    obtain ⟨u, v, rfl, hoffset, hoffset'⟩ := hd.place
    exact {
      name := hd.name
      oneLine := hd.oneLine
      doc := rfl
      docText := fun text htext hm => by
        obtain rfl := Option.some.inj htext
        exact hr ((docBlock?_starts hdoc).subset hm)
      place := by
        refine ⟨c ++ u, v, (List.append_assoc ..).symm, ?_, ?_⟩
        · rw [hoffset, List.length_append, Nat.add_sub_cancel, List.length_append]
        · rw [hoffset', crlf_append c, List.length_append, Nat.add_sub_cancel, crlf_append,
            List.length_append]
      form := hd.form }
  · rw [e]
    exact ht.length_le

end Declaration

end ScriptService
