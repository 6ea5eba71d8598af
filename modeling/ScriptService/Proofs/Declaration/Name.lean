import Mathlib.Data.List.TakeWhile
import ScriptService.Proofs.Declaration.Extract
import ScriptService.Proofs.Declaration.Keyword
import ScriptService.Proofs.Scan.Lines
import ScriptService.Proofs.Scan.Matches
import ScriptService.Proofs.Text.Class

/-!
# Names of declarations in their text

Each pattern takes a name from its text as a word of its own, at the place that the
declaration tells (`NameIn`, `TakesName`), and a comment in front of the declaration
moves that place (`TakesName.withDoc`). So the name of every symbol that a text
declares stands in the text, on the line of the symbol
(`exists_name_of_mem_symbols`).
-/

namespace ScriptService

open Text Scan

namespace Declaration

/-! ## What the pieces of patterns take -/

theorem eq_append_of_word? {w : String} {s rest : List Char} (h : word? w s = some rest) :
    s = w.toList ++ rest :=
  (List.isPrefixOf?_eq_some_iff_append_eq.mp h).symm

theorem isRun_of_run? {p : Char → Bool} {s t rest : List Char} (h : run? p s = some (t, rest)) :
    s = t ++ rest ∧ IsRun p [] t rest := by
  rw [run?] at h
  split at h
  · cases h
  · rename_i hne
    obtain ⟨rfl, rfl⟩ := Prod.mk.inj (Option.some.inj h)
    refine ⟨(List.takeWhile_append_dropWhile).symm, by simpa using hne, ?_, rfl, ?_⟩
    · exact List.all_eq_true.mpr fun c hc => List.mem_takeWhile_imp hc
    · exact head?_dropWhile_any p s

theorem eq_some_of_orElse {α : Type} {x y : Option α} {a : α} (h : (x <|> y) = some a) :
    x = some a ∨ y = some a := by
  cases x with
  | none => exact .inr h
  | some b => exact .inl h

theorem eq_append_of_either? {α : Type} {keyword : α → String} {a b x : α} {s rest : List Char}
    (h : either? keyword a b s = some (x, rest)) : s = (keyword x).toList ++ rest := by
  rcases eq_some_of_orElse h with h | h
  · obtain ⟨t, ht, he⟩ := Option.map_eq_some_iff.mp h
    obtain ⟨rfl, rfl⟩ := Prod.mk.inj he
    exact eq_append_of_word? ht
  · obtain ⟨t, ht, he⟩ := Option.map_eq_some_iff.mp h
    obtain ⟨rfl, rfl⟩ := Prod.mk.inj he
    exact eq_append_of_word? ht

/-- What stands in front of a name is a mark that was passed over, or nothing. -/
theorem exists_skipQuote (s : List Char) :
    ∃ q, s = q ++ skipQuote s ∧ ∀ c ∈ q, isWord c = false := by
  cases s with
  | nil => exact ⟨[], rfl, nofun⟩
  | cons c s =>
    rw [skipQuote]
    split
    · rename_i hc
      refine ⟨[c], rfl, fun d hd => ?_⟩
      obtain rfl := List.mem_singleton.mp hd
      simp only [Bool.or_eq_true, beq_iff_eq] at hc
      rcases hc with rfl | rfl <;> decide
    · exact ⟨[], rfl, nofun⟩

theorem closeComment?_suffix {s t rest : List Char} (h : closeComment? s = some (t, rest)) :
    rest <:+ s := by
  fun_induction closeComment? s generalizing t with
  | case1 => cases h
  | case2 s =>
    obtain ⟨-, rfl⟩ := Prod.mk.inj (Option.some.inj h)
    exact ⟨['*', '/'], rfl⟩
  | case3 c s _ ih =>
    obtain ⟨⟨u, v⟩, hu, he⟩ := Option.map_eq_some_iff.mp h
    obtain ⟨-, rfl⟩ := Prod.mk.inj he
    exact (ih hu).trans (List.suffix_cons c s)

theorem newline?_suffix {s rest : List Char} (h : newline? s = some rest) : rest <:+ s := by
  unfold newline? at h
  split at h
  · obtain rfl := Option.some.inj h
    exact List.suffix_cons _ _
  · obtain rfl := Option.some.inj h
    exact ⟨['\r', '\n'], rfl⟩
  · cases h

theorem docBlock?_suffix {s doc rest : List Char} (h : docBlock? s = some (doc, rest)) : rest <:+ s := by
  rw [docBlock?, Option.bind_eq_bind, Option.bind_eq_some_iff] at h
  obtain ⟨body, hbody, h⟩ := h
  split at h
  · simp only [Option.bind_eq_bind, Option.bind_eq_some_iff] at h
    obtain ⟨⟨text, u⟩, hclose, v, hnewline, h⟩ := h
    obtain ⟨-, rfl⟩ := Prod.mk.inj (Option.some.inj h)
    exact (newline?_suffix hnewline).trans
      ((closeComment?_suffix hclose).trans ⟨_, (eq_append_of_word? hbody).symm⟩)
  · cases h

theorem upTo?_suffix {stop : Char} {s t rest : List Char} (h : upTo? stop s = some (t, rest)) :
    rest <:+ s := by
  induction s generalizing t with
  | nil => cases h
  | cons c s ih =>
    rw [upTo?] at h
    split at h
    · obtain ⟨-, rfl⟩ := Prod.mk.inj (Option.some.inj h)
      exact List.suffix_cons c s
    · obtain ⟨⟨u, v⟩, hu, he⟩ := Option.map_eq_some_iff.mp h
      obtain ⟨-, rfl⟩ := Prod.mk.inj he
      exact (ih hu).trans (List.suffix_cons c s)

theorem params?_suffix {s ps rest : List Char} (h : params? s = some (ps, rest)) : rest <:+ s := by
  rw [params?, Option.bind_eq_bind, Option.bind_eq_some_iff] at h
  obtain ⟨t, ht, h⟩ := h
  exact (upTo?_suffix h).trans (word?_suffix ht)

theorem elim_params_suffix {u : List Char} {params : Option (List Char × List Char)}
    (h : ∀ x ∈ params, params? u = some x) : params.elim u Prod.snd <:+ u := by
  cases params with
  | none => exact List.suffix_rfl
  | some x => exact params?_suffix (h x rfl)

theorem value?_suffix {s value rest : List Char} (h : value? s = some (value, rest)) : rest <:+ s := by
  rw [value?, Option.bind_eq_bind, Option.bind_eq_some_iff] at h
  obtain ⟨⟨gap, t⟩, hgap, h⟩ := h
  dsimp only at h
  split at h
  · split at h
    · cases h
    · obtain ⟨-, rfl⟩ := Prod.mk.inj (Option.some.inj h)
      exact run?_suffix hgap
  · obtain ⟨-, rfl⟩ := Prod.mk.inj (Option.some.inj h)
    exact (List.dropWhile_suffix _).trans (run?_suffix hgap)

theorem either?_suffix {β : Type} {keyword : β → String} {a b x : β} {s rest : List Char}
    (h : either? keyword a b s = some (x, rest)) : rest <:+ s :=
  ⟨_, (eq_append_of_either? h).symm⟩

theorem skipQuote_suffix (s : List Char) : skipQuote s <:+ s := by
  obtain ⟨q, hq, -⟩ := exists_skipQuote s
  exact ⟨q, hq.symm⟩

theorem header?_suffix {before : Option Char} {s header rest : List Char}
    (h : header? before s = some (header, rest)) : rest <:+ s := by
  induction s generalizing before header with
  | nil => cases h
  | cons c s ih =>
    rw [header?] at h
    split at h
    · rename_i hword
      obtain ⟨-, rfl⟩ := Prod.mk.inj (Option.some.inj h)
      exact word?_suffix (Option.filter_eq_some_iff.mp hword).1
    · obtain ⟨⟨u, v⟩, hu, he⟩ := Option.map_eq_some_iff.mp h
      obtain ⟨-, rfl⟩ := Prod.mk.inj he
      exact (ih hu).trans (List.suffix_cons c s)

/-! ## Names -/

/-- The name of a declaration stands in a text as a word of its own, behind some text, at its place. -/
def NameIn (d : Declaration) (s : List Char) : Prop :=
  ∃ a b, s = a ++ (d.name ++ b) ∧ a ≠ [] ∧ a.length = d.nameOffset ∧ IsRun isWord a d.name b

/-- A pattern finds only declarations whose names stand in the text. -/
def TakesName (p : Pattern Declaration) : Prop :=
  ∀ {before : Option Char} {s : List Char} {d : Declaration} {rest : List Char},
    p before s = some (d, rest) → d.NameIn s

/-- A name that is taken behind a text that ends in no word character. -/
theorem nameIn_of_run? {lead gap t name rest : List Char} (hne : gap ≠ [])
    (hgap : ∀ c ∈ gap, isWord c = false) (hrun : run? isWord t = some (name, rest)) (doc : Option (List Char))
    (form : Form) :
    NameIn { doc, name, nameOffset := (lead ++ (gap ++ t)).length - t.length, form } (lead ++ (gap ++ t)) := by
  obtain ⟨rfl, hname⟩ := isRun_of_run? hrun
  refine ⟨lead ++ gap, rest, (List.append_assoc ..).symm, by simp [hne], ?_, hname.ne_nil, hname.all, ?_,
    hname.right⟩
  · rw [← List.append_assoc, @List.length_append _ (lead ++ gap), Nat.add_sub_cancel]
  · rw [List.getLast?_append_of_ne_nil _ hne]
    exact any_eq_false hgap fun _ hc => List.mem_of_getLast? hc

theorem takesName_define : TakesName define := fun {before s d rest} h => by
  simp only [define, Option.bind_eq_bind, Option.bind_eq_some_iff] at h
  obtain ⟨t, hword, ⟨gap, u⟩, hgap, ⟨name, v⟩, hname, ⟨value, w⟩, -, h⟩ := h
  obtain ⟨rfl, -⟩ := Prod.mk.inj (Option.some.inj h)
  obtain rfl := eq_append_of_word? hword
  obtain ⟨rfl, hrun⟩ := isRun_of_run? hgap
  exact nameIn_of_run? hrun.ne_nil
    (fun c hc => isWord_of_isBlank (isBlank_of_isGap (List.all_eq_true.mp hrun.all c hc))) hname _ _

theorem takesName_procedure : TakesName procedure := fun {before s d rest} h => by
  simp only [procedure, Option.bind_eq_bind, Option.bind_eq_some_iff] at h
  obtain ⟨t, hword, ⟨gap, u⟩, hgap, ⟨name, v⟩, hname, _, -, w, -, h⟩ := h
  split at h
  · obtain ⟨rfl, -⟩ := Prod.mk.inj (Option.some.inj h)
    obtain rfl := eq_append_of_word? hword
    obtain ⟨rfl, hrun⟩ := isRun_of_run? hgap
    exact nameIn_of_run? hrun.ne_nil
      (fun c hc => isWord_of_isBlank (List.all_eq_true.mp hrun.all c hc)) hname _ _
  · cases h

theorem takesName_definition : TakesName definition := fun {before s d rest} h => by
  simp only [definition, Option.bind_eq_bind, Option.bind_eq_some_iff] at h
  obtain ⟨t, hword, ⟨scope, u⟩, hscope, v, hmid, ⟨callable, w⟩, hcallable, ⟨gap, x⟩, hgap, ⟨name, y⟩,
    hname, _, -, h⟩ := h
  split at h
  · obtain ⟨rfl, -⟩ := Prod.mk.inj (Option.some.inj h)
    have hu : u = "_".toList ++ v := eq_append_of_word? hmid
    obtain ⟨hw, hrun⟩ : w = gap ++ x ∧ IsRun isBlank [] gap x := isRun_of_run? hgap
    obtain ⟨q, hq, hquote⟩ := exists_skipQuote x
    have hs : s = ("DEFINE_".toList ++ ((Scope.keyword scope).toList ++ ("_".toList ++
        (Callable.keyword callable).toList))) ++ ((gap ++ q) ++ skipQuote x) := by
      rw [eq_append_of_word? hword, eq_append_of_either? hscope, hu, eq_append_of_either? hcallable, hw]
      nth_rewrite 1 [hq]
      simp only [List.append_assoc]
    have hlead : ∀ c ∈ gap ++ q, isWord c = false := fun c hc =>
      (List.mem_append.mp hc).elim
        (fun hc => isWord_of_isBlank (List.all_eq_true.mp hrun.all c hc)) (hquote c)
    have hne : gap ++ q ≠ [] := by simp [hrun.ne_nil]
    rw [hs]
    exact nameIn_of_run? hne hlead hname _ _
  · cases h

/-- A comment in front of a declaration moves the place of its name. -/
theorem TakesName.withDoc {p : Pattern Declaration} (hp : TakesName p) : TakesName (withDoc p) :=
  fun {before s d rest} h => by
  rcases eq_some_of_orElse h with h | h
  · simp only [Option.bind_eq_bind, Option.bind_eq_some_iff] at h
    obtain ⟨⟨doc, t⟩, hdoc, ⟨e, u⟩, he, h⟩ := h
    obtain ⟨rfl, -⟩ := Prod.mk.inj (Option.some.inj h)
    obtain ⟨c, rfl⟩ := docBlock?_suffix hdoc
    obtain ⟨a, b, hs, hne, hoffset, hrun⟩ := hp he
    obtain rfl : t = a ++ (e.name ++ b) := hs
    refine ⟨c ++ a, b, (List.append_assoc ..).symm, by simp [hne], ?_, hrun.ne_nil, hrun.all, ?_, hrun.right⟩
    · rw [List.length_append, List.length_append, Nat.add_sub_cancel, hoffset]
    · rw [List.getLast?_append_of_ne_nil _ hne]
      exact hrun.left
  · exact hp h

/-! ## Names of symbols -/

theorem name_symbol (d : Declaration) (line : Nat) : (d.symbol line).name = String.ofList d.name := by
  rw [symbol]
  split <;> rfl

theorem line_symbol (d : Declaration) (line : Nat) : (d.symbol line).line = line := by
  rw [symbol]
  split <;> rfl

/-- The symbol of a match has its name in the text, at the place that the match tells and on its line. -/
theorem exists_name_of_mem_scan {p : Pattern Declaration} (hp : TakesName p) {text : List Char}
    {m : Match Declaration} (hm : m ∈ (withDoc p).scan text) :
    ∃ a b, text = a ++ ((symbolIn text m).name.toList ++ b) ∧ a.length = m.start + m.value.nameOffset ∧
      IsRun isWord a (symbolIn text m).name.toList b ∧ (symbolIn text m).line = lineBreaks a := by
  obtain ⟨hle, hat⟩ := Pattern.at?_of_mem_scan hm
  obtain ⟨⟨d, rest⟩, hd, he⟩ := Option.map_eq_some_iff.mp hat
  have hvalue : m.value = d := (congrArg Match.value he).symm
  obtain ⟨a, b, hs, hne, hoffset, hrun⟩ := hp.withDoc hd
  have htext : text = (text.take m.start ++ a) ++ (d.name ++ b) := by
    rw [List.append_assoc, ← hs, List.take_append_drop]
  have hname : (symbolIn text m).name.toList = d.name := by
    rw [symbolIn, name_symbol, hvalue, String.toList_ofList]
  -- the name's place is behind the text in front of the match and that of the match in front of it
  have hplace : (text.take m.start ++ a).length = m.start + m.value.nameOffset := by
    rw [hvalue, ← hoffset, List.length_append, List.length_take, Nat.min_eq_left hle]
  refine ⟨text.take m.start ++ a, b, ?_, hplace, ?_, ?_⟩
  · rw [hname]
    exact htext
  · rw [hname]
    refine ⟨hrun.ne_nil, hrun.all, ?_, hrun.right⟩
    rw [List.getLast?_append_of_ne_nil _ hne]
    exact hrun.left
  · have htake : text.take (text.take m.start ++ a).length = text.take m.start ++ a := by
      nth_rewrite 2 [htext]
      exact List.take_left
    rw [symbolIn, line_symbol, ← hplace, htake]

/-- What a rule finds has its name in the text, on its line. -/
theorem exists_name_of_mem_find {name : String} {p : Pattern Declaration} (hp : TakesName p)
    {text : List Char} {x : Symbol} (h : x ∈ (rule name p).find text) :
    ∃ a b, text = a ++ (x.name.toList ++ b) ∧ IsRun isWord a x.name.toList b ∧ x.line = lineBreaks a := by
  obtain ⟨m, hm, hx⟩ := List.mem_filterMap.mp h
  obtain rfl := Option.some.inj hx
  obtain ⟨a, b, htext, -, hrun, hline⟩ := exists_name_of_mem_scan hp hm
  exact ⟨a, b, htext, hrun, hline⟩

end Declaration

/-- The name of every symbol of a text stands in the text as a word of its own, on the symbol's line. -/
theorem Language.exists_name_of_mem_symbols {l : Language} {text path : String} {x : Symbol}
    (h : x ∈ (l.extractor text path).symbols) :
    ∃ a b, text.toList = a ++ (x.name.toList ++ b) ∧ IsRun isWord a x.name.toList b ∧
      x.line = lineBreaks a := by
  have hmap : ∀ {name : String} {p : Pattern Declaration}, Declaration.TakesName p →
      x ∈ ((Declaration.rule name p).find text.toList).map (·.withSource path) →
      ∃ a b, text.toList = a ++ (x.name.toList ++ b) ∧ IsRun isWord a x.name.toList b ∧
        x.line = lineBreaks a := fun {name p} hp hx => by
    obtain ⟨y, hy, rfl⟩ := List.mem_map.mp hx
    exact Declaration.exists_name_of_mem_find (x := y) hp hy
  rw [Extraction.mem_symbols] at h
  cases l with
  | falloutSsl => exact h.elim (hmap Declaration.takesName_define) (hmap Declaration.takesName_procedure)
  | weiduTp2 =>
    exact h.elim (fun h => hmap Declaration.takesName_definition (List.mem_filter.mp h).1)
      fun h => hmap Declaration.takesName_definition (List.mem_filter.mp h).1

end ScriptService
