import ScriptService.Proofs.Declaration.Name
import ScriptService.Proofs.Scan.Lexeme
import ScriptService.Symbol.Display

/-!
# Signatures of documented symbols

The signature line of a declaration is chosen when it is found: a constant's value,
or the signature that its documentation gives. To choose it once more from the
symbol changes nothing (`Language.displayLine_eq_detail`). So the label of a
documented symbol's signature is the one that its documentation gives, unless the
symbol is a constant, whose label is its value.

The parameters stand in the label in order, with `, ` between them. To cut the label's
arguments at each `, ` gives them back if none of them holds a `, ` of its own
(`commaPieces_intercalate`), as a type may.

Main statement: `signatureInfo?_documented`.
-/

namespace ScriptService

open Text Scan

/-! ## The signature line of an extracted symbol -/

theorem signatureLine_idem (name written : String) (doc : Option Doc) (constant : Option String) :
    signatureLine name (signatureLine name written doc constant) doc constant =
      signatureLine name written doc constant := by
  cases constant <;> cases doc <;> rfl

/-- The signature line of a macro's symbol is the one that its kind calls for. -/
theorem displayLine_defineSymbol (name : List Char) (params : Option (List Char)) (body : List Char)
    (doc : Option Doc) (line : Nat) :
    (defineSymbol name params body doc line).displayLine =
      (defineSymbol name params body doc line).detail := by
  simp only [Symbol.displayLine, defineSymbol]
  split
  · exact signatureLine_idem ..
  · exact signatureLine_idem ..

theorem Declaration.displayLine_symbol (d : Declaration) (line : Nat) :
    (d.symbol line).displayLine = (d.symbol line).detail := by
  rw [symbol]
  split
  · exact displayLine_defineSymbol ..
  · exact signatureLine_idem ..
  · rename_i scope callable header _
    cases callable <;> exact signatureLine_idem ..

/-- The signature line of an extracted symbol is the one that was chosen when it was found. -/
theorem Language.displayLine_eq_detail {l : Language} {text path : String} {x : Symbol}
    (h : x ∈ (l.extractor text path).symbols) : x.displayLine = x.detail := by
  obtain ⟨d, line, rfl⟩ := exists_declaration h
  exact d.displayLine_symbol line

theorem getLast?_append_ne {c : Char} {s t : List Char} (hs : s.getLast? ≠ some c) (ht : t.getLast? ≠ some c) :
    (s ++ t).getLast? ≠ some c := by
  rw [List.getLast?_append]
  cases hlast : t.getLast? with
  | none => exact hs
  | some d => rwa [hlast] at ht

/-- A signature line ends in no line break, if neither the declaration nor a constant's value does. -/
theorem getLast?_signatureLine (name : String) {written : String} (hwritten : written.toList.getLast? ≠ some '\r')
    (doc : Option Doc) {constant : Option String} (h : ∀ v ∈ constant, v.toList.getLast? ≠ some '\r') :
    (signatureLine name written doc constant).toList.getLast? ≠ some '\r' := by
  cases constant with
  | some v => cases doc <;> exact h v rfl
  | none =>
    cases doc with
    | none => exact hwritten
    | some d =>
      rw [signatureLine, Doc.signature, String.toList_append, List.getLast?_append_of_ne_nil _ (by decide)]
      decide

theorem getLast?_trimRight (s : List Char) : (trimRight s).getLast? ≠ some '\r' := by
  have hstop := head?_dropWhile_any isBlank s.reverse
  rw [trimRight, List.getLast?_reverse]
  intro hr
  rw [hr] at hstop
  revert hstop
  decide

/-- The signature line of a declaration ends in no line break if its name does not. -/
theorem Declaration.getLast?_detail_symbol {d : Declaration} (hname : d.name.getLast? ≠ some '\r') (line : Nat) :
    (d.symbol line).detail.toList.getLast? ≠ some '\r' := by
  rw [symbol]
  split
  · rename_i params body _
    refine getLast?_signatureLine _ ?_ _ fun v hv => ?_
    · rw [String.toList_ofList]
      refine getLast?_append_ne hname ?_
      cases params with
      | none => exact (Option.some_ne_none _).symm
      | some ps =>
        rw [Option.elim_some, List.getLast?_concat]
        decide
    · split at hv
      · obtain rfl := Option.some.inj hv
        rw [String.toList_ofList]
        exact getLast?_trimRight body
      · cases hv
  · refine getLast?_signatureLine _ ?_ _ (by simp)
    rw [String.toList_append, List.getLast?_append_of_ne_nil _ (by decide)]
    decide
  · rename_i scope callable header _
    refine getLast?_signatureLine _ ?_ _ (by simp)
    simp only [String.toList_append, String.toList_ofList]
    refine getLast?_append_ne (getLast?_append_ne ?_ hname) ?_
    · cases scope <;> cases callable <;> decide
    · split
      · exact (Option.some_ne_none _).symm
      · have hheader := not_mem_collapse (c := '\r') (by decide) (by decide) header
        exact fun h => (List.mem_cons.mp (List.mem_of_getLast? h)).elim (by decide) hheader

theorem Language.getLast?_detail {l : Language} {text path : String} {x : Symbol}
    (h : x ∈ (l.extractor text path).symbols) : x.detail.toList.getLast? ≠ some '\r' := by
  obtain ⟨a, b, -, hrun, -⟩ := exists_name_of_mem_symbols h
  obtain ⟨d, line, rfl⟩ := exists_declaration h
  have hname : ((d.symbol line).withSource path).name = String.ofList d.name := d.name_symbol line
  rw [hname, String.toList_ofList] at hrun
  refine d.getLast?_detail_symbol (fun hr => ?_) line
  exact absurd (List.all_eq_true.mp hrun.all _ (List.mem_of_getLast? hr)) (by decide)

/-! ## Arguments -/

/-- The pieces of a text, cut at each comma with a space behind it. -/
def Text.commaPieces : List Char → List (List Char)
  | [] => [[]]
  | ',' :: ' ' :: s => [] :: commaPieces s
  | c :: s => (commaPieces s).modifyHead (c :: ·)

/-- The arguments that are listed between the parentheses of a signature. -/
def Text.argumentsOf (s : List Char) : List (List Char) :=
  if s.isEmpty then [] else commaPieces s

theorem Text.commaPieces_cons {c : Char} {s : List Char} (h : ¬ ", ".toList <+: c :: s) :
    commaPieces (c :: s) = (commaPieces s).modifyHead (c :: ·) :=
  commaPieces.eq_3 c s fun t hc hs => h ⟨t, by rw [hc, hs]; rfl⟩

theorem Text.commaPieces_append {u : List Char} (h : Lacks ", " u) (s : List Char) :
    commaPieces (u ++ (", ".toList ++ s)) = u :: commaPieces s := by
  induction u with
  | nil => rfl
  | cons c u ih =>
    have hu : Lacks ", " u := h.of_infix (List.suffix_cons c u).isInfix
    -- no comma and space begin in the piece and end behind it
    have hstart : ¬ ", ".toList <+: c :: (u ++ (", ".toList ++ s)) := by
      rintro ⟨t, ht⟩
      change ',' :: ' ' :: t = c :: (u ++ ',' :: ' ' :: s) at ht
      obtain ⟨rfl, hrest⟩ := List.cons.inj ht
      cases u with
      | nil => exact absurd (List.cons.inj hrest).1 (by decide)
      | cons d u =>
        obtain ⟨rfl, -⟩ := List.cons.inj hrest
        exact h ⟨[], u, rfl⟩
    rw [List.cons_append, commaPieces_cons hstart, ih hu, List.modifyHead_cons]

theorem Text.commaPieces_of_lacks {u : List Char} (h : Lacks ", " u) : commaPieces u = [u] := by
  induction u with
  | nil => rfl
  | cons c u ih =>
    have hu : Lacks ", " u := h.of_infix (List.suffix_cons c u).isInfix
    rw [commaPieces_cons fun hp => h hp.isInfix, ih hu, List.modifyHead_cons]

/-- Pieces that hold no comma and space come back. -/
theorem Text.commaPieces_intercalate {ps : List (List Char)} (hne : ps ≠ [])
    (h : ∀ p ∈ ps, Lacks ", " p) : commaPieces (", ".toList.intercalate ps) = ps := by
  induction ps with
  | nil => exact absurd rfl hne
  | cons p ps ih =>
    have hp := h p List.mem_cons_self
    cases ps with
    | nil => rw [List.intercalate_singleton, commaPieces_of_lacks hp]
    | cons q ps =>
      rw [List.intercalate_cons_cons, List.append_assoc, commaPieces_append hp,
        ih (List.cons_ne_nil q ps) fun r hr => h r (List.mem_cons_of_mem p hr)]

/-- No piece holds a comma and a space. -/
theorem Text.lacks_of_mem_commaPieces {s p : List Char} (h : p ∈ commaPieces s) : Lacks ", " p := by
  -- the first piece also begins the text
  have hpieces : ∀ s, ∃ first rest, commaPieces s = first :: rest ∧ first <+: s ∧
      ∀ q ∈ first :: rest, Lacks ", " q := fun s => by
    fun_induction commaPieces s with
    | case1 => exact ⟨[], [], rfl, List.prefix_rfl, by decide⟩
    | case2 s ih =>
      obtain ⟨first, rest, hs, -, hlacks⟩ := ih
      exact ⟨[], _, rfl, List.nil_prefix, List.forall_mem_cons.mpr ⟨by decide, hs ▸ hlacks⟩⟩
    | case3 c s hc ih =>
      obtain ⟨first, rest, hs, ⟨t, rfl⟩, hlacks⟩ := ih
      obtain ⟨hfirst, hrest⟩ := List.forall_mem_cons.mp hlacks
      refine ⟨c :: first, rest, by rw [hs, List.modifyHead_cons], ⟨t, rfl⟩,
        List.forall_mem_cons.mpr ⟨fun hw => ?_, hrest⟩⟩
      rcases List.infix_cons_iff.mp hw with ⟨u, hu⟩ | hw
      · change ',' :: ' ' :: u = c :: first at hu
        obtain ⟨rfl, rfl⟩ := List.cons.inj hu
        exact hc _ rfl rfl
      · exact hfirst hw
  obtain ⟨first, rest, hs, -, hlacks⟩ := hpieces s
  exact hlacks p (hs ▸ h)

/-- Arguments come back from their list exactly if none of them holds a comma and a space. -/
theorem Text.argumentsOf_intercalate_iff {ps : List (List Char)} (hne : ∀ p ∈ ps, p ≠ []) :
    argumentsOf (", ".toList.intercalate ps) = ps ↔ ∀ p ∈ ps, Lacks ", " p := by
  cases ps with
  | nil => exact iff_of_true rfl nofun
  | cons p ps =>
    have hlist : (", ".toList.intercalate (p :: ps)).isEmpty = false := by
      obtain ⟨c, t, rfl⟩ := List.exists_cons_of_ne_nil (hne p List.mem_cons_self)
      cases ps <;> rfl
    rw [argumentsOf, if_neg (Bool.eq_false_iff.mp hlist)]
    constructor
    · intro hcut q hq
      exact lacks_of_mem_commaPieces (hcut.symm ▸ hq)
    · exact commaPieces_intercalate (List.cons_ne_nil p ps)

/-! ## Signatures -/

theorem Doc.Param.toList_label_ne_nil (p : Doc.Param) : p.label.toList ≠ [] := by
  rw [label, String.toList_append, String.toList_append]
  simp

/-- The parts of a list stand in it. -/
theorem infix_intercalate {sep p : List Char} {ps : List (List Char)} (h : p ∈ ps) :
    p <:+: sep.intercalate ps := by
  induction ps with
  | nil => cases h
  | cons q ps ih =>
    cases ps with
    | nil =>
      rw [List.intercalate_singleton, List.mem_singleton.mp h]
    | cons r ps =>
      rw [List.intercalate_cons_cons]
      rcases List.mem_cons.mp h with rfl | h
      · exact ⟨[], _, (List.append_assoc ..).symm⟩
      · exact (ih h).trans (List.suffix_append _ _).isInfix

/-- A documented symbol has a signature with the parameters of its documentation. The signature of a
constant is labelled with its value, any other as its documentation says: there, the parameters are
listed in order, and each of them is found in the label. They are what the list is cut into at its
commas, unless one of them holds a comma and a space itself. -/
theorem signatureInfo?_documented {language text path : String} {x : Symbol}
    (hx : x ∈ (extract language text path).symbols) {d : Doc} (hd : x.doc = some d) :
    ∃ info, x.signatureInfo? = some info ∧ info.parameters = d.params.map Doc.Param.label ∧
      (x.kind = .constant → info.label = x.value) ∧
      (x.kind ≠ .constant → info.label = d.signature x.name ∧
        ∃ args : String,
          info.label = d.returns.elim "void" Doc.Return.type ++ " " ++ x.name ++ "(" ++ args ++ ")" ∧
          args = ", ".intercalate info.parameters ∧
          (argumentsOf args.toList = info.parameters.map String.toList ↔
            ∀ p ∈ info.parameters, Lacks ", " p.toList) ∧
          ∀ p ∈ info.parameters, p.toList <:+: info.label.toList) := by
  obtain ⟨l, -, hl⟩ := serving?_of_mem_extract hx
  rw [hl] at hx
  have hline : x.displayLine = x.detail := Language.displayLine_eq_detail hx
  refine ⟨⟨x.detail, d.params.map Doc.Param.label, d.description⟩, ?_, rfl, fun hk => ?_, fun hk => ?_⟩
  · rw [Symbol.signatureInfo?, hd, Option.map_some]
  · rw [← hline, Symbol.displayLine, if_pos hk]
    rfl
  · have hlabel : x.detail = d.signature x.name := by
      rw [← hline, Symbol.displayLine, if_neg hk, hd]
      rfl
    refine ⟨hlabel, ", ".intercalate (d.params.map Doc.Param.label), hlabel, rfl, ?_, fun p hp => ?_⟩
    · rw [String.toList_intercalate, argumentsOf_intercalate_iff, List.forall_mem_map]
      exact List.forall_mem_map.mpr fun p hp => by
        obtain ⟨q, -, rfl⟩ := List.mem_map.mp hp
        exact q.toList_label_ne_nil
    · have hlist : p.toList <:+: (", ".intercalate (d.params.map Doc.Param.label)).toList := by
        rw [String.toList_intercalate]
        exact infix_intercalate (List.mem_map_of_mem hp)
      dsimp only
      rw [hlabel, Doc.signature, String.toList_append, String.toList_append]
      exact hlist.trans ⟨_, ")".toList, rfl⟩

/-- A script with a documented procedure. -/
def giveScript : String :=
  "/**\n * @param {ObjectPtr} who\n * @param {int} pid - what\n */\nprocedure give(variable a, variable b) begin"

/-- The symbol of the procedure. -/
def giveSymbol : Symbol where
  name := "give"
  kind := .procedure
  detail := "void give(ObjectPtr who, int pid)"
  source := "a.ssl"
  doc := some { params := [⟨"who", "ObjectPtr", ""⟩, ⟨"pid", "int", "what"⟩] }
  line := 4

theorem giveSymbol_listed :
    giveSymbol ∈ (extract "fallout-ssl" giveScript "a.ssl").symbols ∧
      ∃ info, giveSymbol.signatureInfo? = some info ∧ info.label = "void give(ObjectPtr who, int pid)" ∧
        info.parameters = ["ObjectPtr who", "int pid"] ∧
        argumentsOf "ObjectPtr who, int pid".toList = info.parameters.map String.toList := by
  have hx : giveSymbol ∈ (extract "fallout-ssl" giveScript "a.ssl").symbols := by decide +kernel
  obtain ⟨info, hinfo, hparams, -, hlabel⟩ := signatureInfo?_documented hx rfl
  obtain ⟨hlabel, args, -, hargs, hcut, -⟩ := hlabel (by decide)
  have hparams : info.parameters = ["ObjectPtr who", "int pid"] := hparams.trans (by decide +kernel)
  have hargs : args = "ObjectPtr who, int pid" := by
    rw [hargs, hparams]
    decide +kernel
  refine ⟨hx, info, hinfo, hlabel.trans (by decide +kernel), hparams, ?_⟩
  rw [← hargs]
  refine hcut.mpr ?_
  rw [hparams]
  decide +kernel

/-- The label of a documented constant is its value, which lists no parameter; and a type that holds a
comma and a space is cut into two pieces. -/
theorem documentedConstant_unlisted :
    (¬ ∀ x ∈ (extract "fallout-ssl" "/**\n * @param {int} x\n */\n#define ADD_ONE(x) x+1\n" "").symbols,
      ∀ d ∈ x.doc, ∀ info ∈ x.signatureInfo?, info.label = d.signature x.name ∧
        ∀ p ∈ info.parameters, p.toList <:+: info.label.toList) ∧
    ¬ ∀ x ∈ (extract "fallout-ssl" "/**\n * @param {int, list} x\n */\nprocedure f(variable x) begin" "").symbols,
      ∀ info ∈ x.signatureInfo?,
        argumentsOf (", ".intercalate info.parameters).toList = info.parameters.map String.toList := by
  decide +kernel

end ScriptService
