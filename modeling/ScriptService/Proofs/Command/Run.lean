import ScriptService.Command.Run
import ScriptService.Proofs.Failure
import ScriptService.Proofs.Path.Basic

/-!
# Commands that can be run

A command can be run if all its words are texts without a character that no
process takes (`Command.Runnable`). Whatever starts programs, a run of such a command
has an output or says that the compiler is not there (`run_of_runnable`); any other
command fails before a program is started (`run_of_not_runnable`). Whether the command
for a file is one of them depends on the settings that it is made of
(`exists_fallout_iff`, `exists_weidu_iff`).
-/

namespace ScriptService

/-- No character in a text is the one that ends texts for the system. -/
def IsClean (s : String) : Prop := '\x00' ∉ s.toList

instance (s : String) : Decidable (IsClean s) := inferInstanceAs (Decidable (_ ∉ _))

namespace Command

/-- A setting holds a command line of some words; for one that is not given they stand in what is left of
the standard input. -/
inductive HoldsWords (input : List UInt8) : Value → List String → Prop
  | line {s : String} {ws : List String} (h : Words.split s = .ok ws) : HoldsWords input (.text s) ws
  | input {s : String} {ws : List String} (text : decodeText? input = some s) (h : Words.split s = .ok ws) :
      HoldsWords input .null ws

/-- The words that name a game whose path a setting holds; there are none if it is not given. -/
inductive HoldsGame : Value → List String → Prop
  | none {v : Value} (h : v.isGiven = false) : HoldsGame v []
  | path {g : String} (h : (Value.text g).isGiven = true) : HoldsGame (.text g) ["--game", g]

theorem asFailure_split_eq_ok_iff {s : String} {xs : List Value} :
    asFailure .words ((Words.split s).map (·.map Value.text)) = .ok xs ↔
      ∃ ws, Words.split s = .ok ws ∧ xs = ws.map .text := by
  rw [asFailure_eq_ok]
  cases Words.split s with
  | error e => exact iff_of_false nofun fun ⟨_, h, _⟩ => nomatch h
  | ok ws => simp [Except.map, eq_comm]

theorem words_eq_ok_iff {input : List UInt8} {v : Value} {xs : List Value} :
    words input v = .ok xs ↔ ∃ ws, HoldsWords input v ws ∧ xs = ws.map .text := by
  constructor
  · intro h
    cases v with
    | null =>
      rw [words] at h
      cases htext : decodeText? input with
      | none => rw [htext] at h; cases h
      | some s =>
        rw [htext] at h
        obtain ⟨ws, hws, rfl⟩ := asFailure_split_eq_ok_iff.mp h
        exact ⟨ws, .input htext hws, rfl⟩
    | text s =>
      obtain ⟨ws, hws, rfl⟩ := asFailure_split_eq_ok_iff.mp h
      exact ⟨ws, .line hws, rfl⟩
    | _ => cases h
  · rintro ⟨ws, h, rfl⟩
    cases h with
    | line h => exact asFailure_split_eq_ok_iff.mpr ⟨ws, h, rfl⟩
    | input htext h =>
      rw [words, htext]
      exact asFailure_split_eq_ok_iff.mpr ⟨ws, h, rfl⟩

theorem path_eq_ok_iff {v : Value} {p : Path} : path v = .ok p ↔ ∃ d, v = .text d ∧ p = Path.ofString d := by
  constructor
  · intro h
    cases v with
    | text d => exact ⟨d, rfl, (Except.ok.inj h).symm⟩
    | _ => cases h
  · rintro ⟨d, rfl, rfl⟩
    rfl

theorem texts_eq_ok_iff {c : Command} {ws : List String} : c.texts = .ok ws ↔ c.args = ws.map .text := by
  obtain ⟨args, cwd⟩ := c
  rw [texts]
  dsimp only
  induction args generalizing ws with
  | nil =>
    rw [List.mapM_nil]
    cases ws with
    | nil => exact ⟨fun _ => rfl, fun _ => rfl⟩
    | cons w ws => exact ⟨nofun, nofun⟩
  | cons a args ih =>
    rw [List.mapM_cons]
    simp only [bind_eq_ok, ih]
    constructor
    · rintro ⟨w, hw, rest, rfl, h⟩
      obtain rfl := Except.ok.inj h
      cases a with
      | text s => rw [List.map_cons, Except.ok.inj hw]
      | _ => cases hw
    · intro h
      cases ws with
      | nil => cases h
      | cons w rest =>
        obtain ⟨rfl, rfl⟩ := List.cons.inj h
        exact ⟨w, rfl, rest, rfl, rfl⟩

/-- All words are texts that a process takes. -/
def Runnable (c : Command) : Prop :=
  ∃ ws, c.args = ws.map .text ∧ ws ≠ [] ∧ ∀ w ∈ c.cwd.text :: ws, IsClean w

theorem runnable_texts_iff {ws : List String} {cwd : Path} :
    Runnable ⟨ws.map .text, cwd⟩ ↔ ws ≠ [] ∧ ∀ w ∈ cwd.text :: ws, IsClean w := by
  constructor
  · rintro ⟨vs, hargs, h⟩
    obtain rfl : ws = vs := List.map_injective_iff.mpr (fun _ _ => Value.text.inj) hargs
    exact h
  · exact fun h => ⟨ws, rfl, h⟩

theorem any_contains_nul {ws : List String} : ws.any (·.toList.contains '\x00') = false ↔ ∀ w ∈ ws, IsClean w := by
  simp only [List.any_eq_false, List.contains_eq_mem, decide_eq_true_eq, IsClean]

/-- The program and its arguments are the words of a command that a process takes. -/
theorem processWords_eq_ok_iff {c : Command} {program : String} {args : List String} :
    c.processWords = .ok (program, args) ↔
      c.args = (program :: args).map .text ∧ ∀ w ∈ c.cwd.text :: program :: args, IsClean w := by
  rw [processWords, bind_eq_ok]
  simp only [texts_eq_ok_iff]
  constructor
  · rintro ⟨ws, hargs, h⟩
    cases ws with
    | nil => cases h
    | cons first rest =>
      dsimp only at h
      split at h
      · cases h
      · rename_i hany
        cases h
        exact ⟨hargs, any_contains_nul.mp (Bool.eq_false_iff.mpr hany)⟩
  · rintro ⟨hargs, hclean⟩
    refine ⟨_, hargs, ?_⟩
    dsimp only
    rw [any_contains_nul.mpr hclean, if_neg Bool.false_ne_true]

theorem runnable_iff {c : Command} : c.Runnable ↔ ∃ program args, c.processWords = .ok (program, args) := by
  simp only [processWords_eq_ok_iff]
  constructor
  · rintro ⟨ws, hargs, hne, hclean⟩
    obtain ⟨program, args, rfl⟩ := List.exists_cons_of_ne_nil hne
    exact ⟨program, args, hargs, hclean⟩
  · rintro ⟨program, args, hargs, hclean⟩
    exact ⟨_, hargs, List.cons_ne_nil _ _, hclean⟩

/-- A command that can be run has an output, or its compiler is not there. -/
theorem run_of_runnable {c : Command} (h : c.Runnable) (env : Environment) (timeout : Option Float) :
    (∃ r, c.run env timeout = .ok r) ∨ ∃ program, c.run env timeout = .error (.noCompiler program) := by
  obtain ⟨program, args, hwords⟩ := runnable_iff.mp h
  rw [run, hwords, ok_bind]
  dsimp only
  cases env.launch env.files c.cwd program args timeout with
  | some e => exact .inl ⟨_, rfl⟩
  | none => exact .inr ⟨program, rfl⟩

/-- A command whose program cannot be started says so. -/
theorem run_of_no_program {c : Command} {env : Environment} {timeout : Option Float} {program : String}
    {args : List String} (hwords : c.processWords = .ok (program, args))
    (hnone : env.launch env.files c.cwd program args timeout = none) :
    c.run env timeout = .error (.noCompiler program) := by
  rw [run, hwords, ok_bind]
  dsimp only
  rw [hnone]

/-- Any other command fails in a way of its own. -/
theorem run_of_not_runnable {c : Command} (h : ¬ c.Runnable) (env : Environment) (timeout : Option Float) :
    ∃ e, c.run env timeout = .error e ∧ ∀ program, e ≠ .noCompiler program := by
  cases hwords : c.processWords with
  | ok p => exact absurd (runnable_iff.mpr ⟨p.1, p.2, hwords⟩) h
  | error e =>
    refine ⟨e, by rw [run, hwords, error_bind], ?_⟩
    rintro program rfl
    rw [processWords, bind_eq_error] at hwords
    obtain htexts | ⟨ws, -, hws⟩ := hwords
    · obtain ⟨a, -, ha⟩ := exists_of_mapM_eq_error htexts
      cases a <;> cases ha
    · cases ws with
      | nil => cases hws
      | cons first rest =>
        dsimp only at hws
        split at hws <;> cases hws

end Command

/-! ## Settings -/

/-- A setting holds a command line whose words a process takes. -/
def IsCommandLine (input : List UInt8) (v : Value) : Prop :=
  ∃ ws, Command.HoldsWords input v ws ∧ ∀ w ∈ ws, IsClean w

/-- Settings that a command for a file can be made of. -/
structure FalloutSettings.Usable (s : FalloutSettings) (input : List UInt8) (file : Path) : Prop where
  program : IsCommandLine input s.compilePath
  options : IsCommandLine (Command.inputAfter input s.compilePath) s.compileOptions
  output : ∃ d, s.outputDirectory = .text d ∧ IsClean d
  file : IsClean file.text

@[inherit_doc FalloutSettings.Usable]
structure WeiduSettings.Usable (s : WeiduSettings) (input : List UInt8) (file : Path) : Prop where
  program : IsCommandLine input s.path
  game : ∃ gs, Command.HoldsGame s.gamePath gs ∧ ∀ w ∈ gs, IsClean w
  file : IsClean file.text

/-- A path is clean just if its last name and what leads to it are. -/
theorem isClean_text_iff (p : Path) : IsClean p.text ↔ IsClean p.name ∧ IsClean p.parent.text := by
  rw [IsClean, Path.mem_text_iff (by decide) (by decide), not_or]
  rfl

theorem mem_stem {p : Path} {c : Char} (h : c ∈ p.stem.toList) : c ∈ p.name.toList := by
  rw [Path.stem, String.toList_ofList] at h
  exact List.mem_of_mem_take h

/-- Where the compiled script goes is clean just if the output directory and the script's name are. -/
theorem isClean_destination {file : Path} (hfile : file.Named) (d : String) :
    IsClean ((Path.ofString d).join (Path.ofString (file.stem ++ ".int"))).text ↔
      IsClean d ∧ IsClean file.stem := by
  have hslash : '/' ∉ (file.stem ++ ".int").toList := by
    rw [String.toList_append, List.mem_append, not_or]
    exact ⟨fun h => hfile.slash_not_mem_name (mem_stem h), by decide⟩
  have hsuffix : '\x00' ∉ ".int".toList := by decide
  rw [Path.join_of_relative (Path.ofString_relative hslash), IsClean, Path.mem_text (by decide) (by decide)]
  simp only [List.mem_append, or_and_right, exists_or]
  rw [Path.mem_parts_ofString (by decide) (by decide), Path.mem_parts_ofString (by decide) (by decide),
    String.toList_append, List.mem_append, not_or, not_or, and_iff_left hsuffix]
  rfl

namespace Command

theorem isClean_flags : IsClean "-o" ∧ IsClean "--no-exit-pause" ∧ IsClean "--noautoupdate" ∧
    IsClean "--debug-assign" ∧ IsClean "--parse-check" := by
  decide

theorem isClean_kind (kind : ParseKind) : IsClean kind.text := by
  cases kind <;> decide

/-- The words of the command that compiles a script. -/
def falloutWords (file : Path) (program options : List String) (output : String) : List String :=
  program ++ options ++
    [file.name, "-o", ((Path.ofString output).join (Path.ofString (file.stem ++ ".int"))).text]

theorem fallout_eq_ok {input : List UInt8} {file : Path} {s : FalloutSettings} {d : String}
    {ws os : List String} (hd : s.outputDirectory = .text d) (hws : HoldsWords input s.compilePath ws)
    (hos : HoldsWords (inputAfter input s.compilePath) s.compileOptions os) :
    fallout input file s = .ok ⟨(falloutWords file ws os d).map Value.text, file.parent⟩ := by
  rw [fallout, path_eq_ok_iff.mpr ⟨d, hd, rfl⟩, ok_bind, words_eq_ok_iff.mpr ⟨ws, hws, rfl⟩, ok_bind,
    words_eq_ok_iff.mpr ⟨os, hos, rfl⟩, ok_bind, falloutWords, List.map_append, List.map_append]
  rfl

theorem isClean_falloutWords {file : Path} (hfile : file.Named) (ws os : List String) (d : String) :
    (∀ w ∈ file.parent.text :: falloutWords file ws os d, IsClean w) ↔
      (∀ w ∈ ws, IsClean w) ∧ (∀ w ∈ os, IsClean w) ∧ IsClean d ∧ IsClean file.text := by
  have hstem : IsClean file.name → IsClean file.stem := fun h hc => h (mem_stem hc)
  rw [isClean_text_iff file]
  simp only [falloutWords, List.forall_mem_append, List.forall_mem_cons, isClean_destination hfile,
    isClean_flags]
  constructor
  · rintro ⟨hparent, ⟨hws, hos⟩, hname, -, ⟨hd, -⟩, -⟩
    exact ⟨hws, hos, hd, hname, hparent⟩
  · rintro ⟨hws, hos, hd, hname, hparent⟩
    exact ⟨hparent, ⟨hws, hos⟩, hname, trivial, ⟨hd, hstem hname⟩, nofun⟩

/-- The command for a script can be run just if the settings serve. -/
theorem exists_fallout_iff {file : Path} (hfile : file.Named) (input : List UInt8) (s : FalloutSettings) :
    (∃ c, fallout input file s = .ok c ∧ c.Runnable) ↔ s.Usable input file := by
  constructor
  · rintro ⟨c, hc, hrun⟩
    have hsteps := hc
    simp only [fallout, bind_eq_ok, path_eq_ok_iff, words_eq_ok_iff] at hsteps
    obtain ⟨-, ⟨d, hd, -⟩, -, ⟨ws, hws, -⟩, -, ⟨os, hos, -⟩, -⟩ := hsteps
    obtain rfl := Except.ok.inj ((fallout_eq_ok hd hws hos).symm.trans hc)
    obtain ⟨hwsc, hosc, hdc, hfilec⟩ :=
      (isClean_falloutWords hfile ws os d).mp (runnable_texts_iff.mp hrun).2
    exact ⟨⟨ws, hws, hwsc⟩, ⟨os, hos, hosc⟩, ⟨d, hd, hdc⟩, hfilec⟩
  · rintro ⟨⟨ws, hws, hwsc⟩, ⟨os, hos, hosc⟩, ⟨d, hd, hdc⟩, hfilec⟩
    have hclean := (isClean_falloutWords hfile ws os d).mpr ⟨hwsc, hosc, hdc, hfilec⟩
    exact ⟨_, fallout_eq_ok hd hws hos, runnable_texts_iff.mpr
      ⟨List.append_ne_nil_of_right_ne_nil _ (List.cons_ne_nil _ _), hclean⟩⟩

/-- The words of the command that checks a file. -/
def weiduWords (file : Path) (kind : ParseKind) (program game : List String) : List String :=
  program ++ ["--no-exit-pause", "--noautoupdate", "--debug-assign"] ++ game ++
    ["--parse-check", kind.text, file.name]

theorem weidu_eq_ok {input : List UInt8} {file : Path} {kind : ParseKind} {s : WeiduSettings}
    {ws gs : List String} (hkind : ParseKind.of? file = some kind) (hws : HoldsWords input s.path ws)
    (hgs : HoldsGame s.gamePath gs) :
    weidu input file s = .ok (some ⟨(weiduWords file kind ws gs).map Value.text, file.parent⟩) := by
  have hgame : (if s.gamePath.isGiven = true then [Value.text "--game", s.gamePath] else []) =
      gs.map Value.text := by
    generalize s.gamePath = v at hgs ⊢
    cases hgs with
    | none h => rw [h, if_neg Bool.false_ne_true, List.map_nil]
    | path h => rw [h, if_pos rfl, List.map_cons, List.map_cons, List.map_nil]
  unfold weidu
  rw [hkind]
  dsimp only
  rw [words_eq_ok_iff.mpr ⟨ws, hws, rfl⟩, ok_bind, hgame, weiduWords, List.map_append, List.map_append,
    List.map_append]
  rfl

theorem isClean_weiduWords (file : Path) (kind : ParseKind) (ws gs : List String) :
    (∀ w ∈ file.parent.text :: weiduWords file kind ws gs, IsClean w) ↔
      (∀ w ∈ ws, IsClean w) ∧ (∀ w ∈ gs, IsClean w) ∧ IsClean file.text := by
  rw [isClean_text_iff file]
  simp only [weiduWords, List.forall_mem_append, List.forall_mem_cons, isClean_flags, isClean_kind]
  constructor
  · rintro ⟨hparent, ⟨⟨hws, -⟩, hgs⟩, -, -, hname, -⟩
    exact ⟨hws, hgs, hname, hparent⟩
  · rintro ⟨hws, hgs, hname, hparent⟩
    exact ⟨hparent, ⟨⟨hws, trivial, trivial, trivial, nofun⟩, hgs⟩, trivial, trivial, hname, nofun⟩

/-- A command that can be run names the game by a text, if it is given. -/
theorem exists_holdsGame {input : List UInt8} {file : Path} {kind : ParseKind} {s : WeiduSettings} {c : Command}
    (hkind : ParseKind.of? file = some kind) (hc : weidu input file s = .ok (some c)) (hrun : c.Runnable) :
    ∃ gs, HoldsGame s.gamePath gs := by
  cases hgiven : s.gamePath.isGiven with
  | false => exact ⟨[], .none hgiven⟩
  | true =>
    unfold weidu at hc
    simp only [hkind, bind_eq_ok, hgiven] at hc
    obtain ⟨program, -, hc⟩ := hc
    obtain rfl := Option.some.inj (Except.ok.inj hc)
    obtain ⟨vs, hargs, -⟩ := hrun
    have hmem : s.gamePath ∈ vs.map Value.text := by
      rw [← hargs]
      exact List.mem_append_left _ (List.mem_append_right _ (.tail _ (.head _)))
    obtain ⟨g, -, hg⟩ := List.mem_map.mp hmem
    rw [← hg] at hgiven ⊢
    exact ⟨_, .path hgiven⟩

/-- The command that checks a file can be run just if the settings serve. -/
theorem exists_weidu_iff {file : Path} {kind : ParseKind} (hkind : ParseKind.of? file = some kind)
    (input : List UInt8) (s : WeiduSettings) :
    (∃ c, weidu input file s = .ok (some c) ∧ c.Runnable) ↔ s.Usable input file := by
  constructor
  · rintro ⟨c, hc, hrun⟩
    obtain ⟨gs, hgs⟩ := exists_holdsGame hkind hc hrun
    have hsteps := hc
    unfold weidu at hsteps
    simp only [hkind, bind_eq_ok, words_eq_ok_iff] at hsteps
    obtain ⟨-, ⟨ws, hws, -⟩, -⟩ := hsteps
    obtain rfl := Option.some.inj (Except.ok.inj ((weidu_eq_ok hkind hws hgs).symm.trans hc))
    obtain ⟨hwsc, hgsc, hfilec⟩ :=
      (isClean_weiduWords file kind ws gs).mp (runnable_texts_iff.mp hrun).2
    exact ⟨⟨ws, hws, hwsc⟩, ⟨gs, hgs, hgsc⟩, hfilec⟩
  · rintro ⟨⟨ws, hws, hwsc⟩, ⟨gs, hgs, hgsc⟩, hfilec⟩
    have hclean := (isClean_weiduWords file kind ws gs).mpr ⟨hwsc, hgsc, hfilec⟩
    exact ⟨_, weidu_eq_ok hkind hws hgs, runnable_texts_iff.mpr
      ⟨List.append_ne_nil_of_right_ne_nil _ (List.cons_ne_nil _ _), hclean⟩⟩

end Command

end ScriptService
