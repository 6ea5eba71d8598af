import ScriptService.Proofs.Command.Run

/-!
# Printed command lines are read back

A word is written so that cutting a command line gives it back, whatever its
characters:

* `splitFrom_plain`: plain characters are taken into the word at hand;
* `splitFrom_quoteChar`: so is a character between single marks, where such a mark
  itself steps out of them and in again;
* `splitFrom_quote`: a written word has been read once it ends, so what follows it
  decides where the word does;
* `split_line`: words with blanks between them are cut into themselves.

So a setting may hold the line that a command is printed as: the commands made of it
begin with the words of that command, one for one.

Main statement: `printed_line_configures`.
-/

namespace ScriptService

namespace Words

/-! ## One word -/

/-- Plain characters neither end a word nor change how it is read. -/
theorem not_special_of_isPlain {c : Char} (h : isPlain c = true) :
    isSeparator c = false ∧ (c == '\\') = false ∧ isMark c = false := by
  refine ⟨?_, ?_, ?_⟩ <;> rw [Bool.eq_false_iff] <;> intro hc
  · simp only [isSeparator, Bool.or_eq_true, beq_iff_eq] at hc
    obtain ((rfl | rfl) | rfl) | rfl := hc <;> revert h <;> decide
  · obtain rfl := beq_iff_eq.mp hc
    revert h
    decide
  · simp only [isMark, Bool.or_eq_true, beq_iff_eq] at hc
    obtain rfl | rfl := hc <;> revert h <;> decide

theorem splitFrom_plain {u : List Char} (h : u.all isPlain = true) (cur s : List Char) :
    splitFrom .word cur (u ++ s) = splitFrom .word (u.reverse ++ cur) s := by
  induction u generalizing cur with
  | nil => rfl
  | cons c u ih =>
    rw [List.all_cons, Bool.and_eq_true] at h
    obtain ⟨hseparator, hescape, hmark⟩ := not_special_of_isPlain h.1
    rw [List.cons_append, splitFrom, hseparator, hescape, hmark, if_neg Bool.false_ne_true,
      if_neg Bool.false_ne_true, if_neg Bool.false_ne_true, ih h.2, List.reverse_cons, List.append_assoc,
      List.singleton_append]

theorem splitFrom_quoteChar (c : Char) (cur s : List Char) :
    splitFrom (.quoted '\'') cur (quoteChar c ++ s) = splitFrom (.quoted '\'') (c :: cur) s := by
  by_cases hc : c = '\''
  · subst hc
    simp [quoteChar, splitFrom, isSeparator, isMark]
  · simp [quoteChar, splitFrom, hc]

theorem splitFrom_flatMap_quoteChar (cs cur s : List Char) :
    splitFrom (.quoted '\'') cur (cs.flatMap quoteChar ++ s) =
      splitFrom (.quoted '\'') (cs.reverse ++ cur) s := by
  induction cs generalizing cur with
  | nil => rfl
  | cons c cs ih =>
    rw [List.flatMap_cons, List.append_assoc, splitFrom_quoteChar, ih, List.reverse_cons, List.append_assoc,
      List.singleton_append]

/-- A written word is read up to its end. -/
theorem splitFrom_quote (w : String) (s : List Char) :
    splitFrom .between [] ((quote w).toList ++ s) = splitFrom .word w.toList.reverse s := by
  rw [quote]
  split
  · rename_i hempty
    rw [List.isEmpty_iff.mp hempty]
    rfl
  split
  · rename_i hne hplain
    obtain ⟨c, cs, hw⟩ := List.exists_cons_of_ne_nil (fun e => hne (List.isEmpty_iff.mpr e))
    rw [hw, List.all_cons, Bool.and_eq_true] at hplain
    obtain ⟨hseparator, hescape, hmark⟩ := not_special_of_isPlain hplain.1
    rw [hw, List.cons_append, splitFrom, hseparator, hescape, hmark, if_neg Bool.false_ne_true,
      if_neg Bool.false_ne_true, if_neg Bool.false_ne_true, splitFrom_plain hplain.2, List.reverse_cons]
  · -- between the marks, `splitFrom_flatMap_quoteChar` takes in the whole word
    have hopen : ∀ t, splitFrom .between [] ('\'' :: t) = splitFrom (.quoted '\'') [] t := fun _ => rfl
    have hclose : ∀ cur t, splitFrom (.quoted '\'') cur ('\'' :: t) = splitFrom .word cur t := fun _ _ => rfl
    rw [String.toList_ofList, List.cons_append, List.cons_append, List.append_assoc, hopen,
      splitFrom_flatMap_quoteChar, List.append_nil, List.singleton_append, hclose]

/-! ## Lines -/

/-- Words that are written with blanks between them are the words of the line. -/
theorem split_line (ws : List String) : split (" ".intercalate (ws.map quote)) = .ok ws := by
  have hread : ∀ ws : List String,
      splitFrom .between [] ([' '].intercalate (ws.map fun w => (quote w).toList)) =
        .ok (ws.map String.toList) := fun ws => by
    induction ws with
    | nil => rfl
    | cons w ws ih =>
      rw [List.map_cons, List.map_cons]
      cases ws with
      | nil =>
        have hend := splitFrom_quote w []
        rw [List.append_nil] at hend
        rw [List.map_nil, List.intercalate_singleton, hend, splitFrom, List.reverse_reverse]
        rfl
      | cons v ws =>
        have hseparator : isSeparator ' ' = true := rfl
        rw [List.map_cons, List.intercalate_cons_cons, List.append_assoc, splitFrom_quote,
          List.singleton_append, splitFrom, if_pos hseparator, List.reverse_reverse]
        rw [List.map_cons] at ih
        rw [ih]
        rfl
  have hline : (" ".intercalate (ws.map quote)).toList =
      [' '].intercalate (ws.map fun w => (quote w).toList) := by
    rw [String.toList_intercalate, List.map_map]
    rfl
  rw [split, hline, hread, Except.map, List.map_map]
  exact congrArg Except.ok ((List.map_congr_left fun _ _ => String.ofList_toList).trans (List.map_id ws))

end Words

namespace Command

/-- A command of texts is printed as its words, each as it is written in a command line. -/
theorem line_texts (ws : List String) (cwd : Path) :
    line ⟨ws.map .text, cwd⟩ = .ok (" ".intercalate (ws.map Words.quote)) := by
  rw [line, texts_eq_ok_iff.mpr rfl, ok_bind]

/-- The line that a command of any words is printed as may be set as the compiler's: the command for a
script then has these words, those of the options, and the script's name as one word; the command that
has WeiDU check a file begins with them. -/
theorem printed_line_configures (ws : List String) (cwd : Path) (input : List UInt8) :
    ∃ printed, line ⟨ws.map .text, cwd⟩ = .ok printed ∧
      (∀ (source options output : String) (os : List String) (s : FalloutSettings),
        Words.split options = .ok os →
          let file := Path.ofString source
          let destination := (Path.ofString output).join (Path.ofString (file.stem ++ ".int"))
          fallout input file
              { s with
                compilePath := .text printed
                compileOptions := .text options
                outputDirectory := .text output } =
            .ok ⟨(ws ++ os ++ [file.name, "-o", destination.text]).map .text, file.parent⟩) ∧
      ∀ (source : String) (kind : ParseKind) (s : WeiduSettings),
        let file := Path.ofString source
        ParseKind.of? file = some kind →
          ∃ rest, weidu input file { s with path := .text printed } =
            .ok (some ⟨ws.map .text ++ (rest ++ [.text file.name]), file.parent⟩) := by
  refine ⟨_, line_texts ws cwd, fun source options output os s hos => ?_, fun source kind s hkind => ?_⟩
  · exact fallout_eq_ok rfl (.line (Words.split_line ws)) (.line hos)
  · have hwords := @words_eq_ok_iff input _ _ |>.mpr ⟨ws, .line (Words.split_line ws), rfl⟩
    let game := if s.gamePath.isGiven then [.text "--game", s.gamePath] else []
    refine ⟨[.text "--no-exit-pause", .text "--noautoupdate", .text "--debug-assign"] ++ game ++
      [.text "--parse-check", .text kind.text], ?_⟩
    unfold weidu
    rw [hkind]
    dsimp only
    rw [hwords, ok_bind]
    simp only [List.append_assoc]
    rfl

/-- Words of all kinds: with a blank, with both marks, empty, with a line break, plain. -/
def awkwardWords : List String := ["C:\\my compiler", "it's \"it\"", "", "a\nb", "-x"]

/-- The line that they are printed as. -/
def awkwardLine : String := "'C:\\my compiler' 'it'\"'\"'s \"it\"' '' 'a\nb' -x"

theorem awkwardWords_configured :
    line ⟨awkwardWords.map .text, ⟨.root, []⟩⟩ = .ok awkwardLine ∧
      Words.split "-q '-O 2'" = .ok ["-q", "-O 2"] ∧
      fallout [] (Path.ofString "src/my script.ssl")
          { compilePath := .text awkwardLine
            compileOptions := .text "-q '-O 2'"
            outputDirectory := .text "out" } =
        .ok ⟨(awkwardWords ++ ["-q", "-O 2"] ++ ["my script.ssl", "-o", "out/my script.int"]).map .text,
          ⟨.relative, ["src"]⟩⟩ ∧
      ParseKind.of? (Path.ofString "setup mod.tp2") = some .tp2 ∧
      ∃ rest, weidu [] (Path.ofString "setup mod.tp2") { path := .text awkwardLine } =
        .ok (some ⟨awkwardWords.map .text ++ (rest ++ [.text "setup mod.tp2"]), ⟨.relative, []⟩⟩) := by
  have hline : line ⟨awkwardWords.map .text, ⟨.root, []⟩⟩ = .ok awkwardLine :=
    (line_texts awkwardWords _).trans (congrArg Except.ok (by decide +kernel))
  have hoptions : Words.split "-q '-O 2'" = .ok ["-q", "-O 2"] := by
    decide +kernel
  have hkind : ParseKind.of? (Path.ofString "setup mod.tp2") = some .tp2 := by decide +kernel
  have hscript : (Path.ofString "src/my script.ssl").name = "my script.ssl" ∧
      (Path.ofString "src/my script.ssl").parent = ⟨.relative, ["src"]⟩ ∧
      ((Path.ofString "out").join
        (Path.ofString ((Path.ofString "src/my script.ssl").stem ++ ".int"))).text = "out/my script.int" := by
    decide +kernel
  have hmod : (Path.ofString "setup mod.tp2").name = "setup mod.tp2" ∧
      (Path.ofString "setup mod.tp2").parent = ⟨.relative, []⟩ := by
    decide +kernel
  obtain ⟨printed, hprinted, hfallout, hweidu⟩ := printed_line_configures awkwardWords ⟨.root, []⟩ []
  obtain rfl := Except.ok.inj (hline.symm.trans hprinted)
  have hcompile := hfallout "src/my script.ssl" "-q '-O 2'" "out" _ {} hoptions
  have hcheck := hweidu "setup mod.tp2" .tp2 {} hkind
  dsimp only at hcompile hcheck
  rw [hscript.1, hscript.2.1, hscript.2.2] at hcompile
  rw [hmod.1, hmod.2] at hcheck
  exact ⟨hline, hoptions, hcompile, hkind, hcheck⟩

end Command

end ScriptService
