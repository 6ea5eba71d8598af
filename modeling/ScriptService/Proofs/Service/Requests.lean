import ScriptService.Proofs.Command.Run
import ScriptService.Proofs.Path.Uri
import ScriptService.Proofs.Service.CompileRuns
import ScriptService.Proofs.Service.Locality
import ScriptService.Proofs.Service.Lookup
import ScriptService.Yaml.Format

/-!
# Requests that are answered

A request of the editor is answered or fails (`Service.respond`). Which requests
are answered is told by what they read: the URI of a document, the cursor, the
settings that a command line or a path is made of, and the configuration file
(`Service.CanAnswer`). Settings are taken as they stand, of whatever type, so a
configuration that is accepted can make requests fail. How programs are started is
left open: whatever compilers there are, the same requests are answered.

* `startCompile_finishes_iff`, `startSave_finishes_iff`: when what was started comes to
  its end;
* `requests_answered_iff`: when a request is answered, and that a compiler that
  is not there is no failure.
-/

namespace ScriptService

/-- A request of the editor. -/
inductive Request where
  | completions (language path : String)
  | hover (language path word : String)
  | definition (language path word : String)
  | hoverAt (language path text : String) (line character : Int)
  | signatureHelp (language path text : String) (line character : Int)
  | reloadFile (path language text : String)
  | onOpen (uri language text : String)
  | onClose (uri : String)
  | compile (r : CompileRequest)
  | save (uri language text : String)

/-- The answer to a request. -/
inductive Answer where
  | done
  | completions (items : List Completion)
  | hover (info : Option Hover)
  | location (l : Option Location)
  | signature (help : Option SignatureHelp)
  | diagnostics (ds : Option (List Diagnostic))

namespace Service

/-- What the editor is told of a request that led to a service or failed. -/
def changed (s : Service) : Except Failure Service → Reply Answer
  | .ok t => { service := t, result := .ok .done }
  | .error e => { service := s, result := .error e }

/-- What comes of a compile that was started: it waits for its compiler, while other requests make
`meanwhile t` of a service `t`. A compiler that is not there ends it; other failures of the run are
those of the request. -/
def await (env : Environment) (timeout : Option Float) (meanwhile : Service → Service)
    (started : Reply Progress) : Reply Answer :=
  match started.result with
  | .error e => { started with result := .error e }
  | .ok (.done ds) => { started with result := .ok (.diagnostics ds) }
  | .ok (.waiting p) =>
    let s := meanwhile started.service
    let finish := fun (e : CompilerEnd) =>
      let (events, ds) := s.finishCompile p e
      { service := s, events := started.events ++ events, result := .ok (.diagnostics ds) }
    match p.command.run env timeout with
    | .ok (output, _) => finish (.ran output)
    | .error (.noCompiler _) => finish .notStarted
    | .error e => { service := s, events := started.events, result := .error e }

/-- What comes of a request. -/
def respond (s : Service) (env : Environment) (timeout : Option Float) (meanwhile : Service → Service) :
    Request → Reply Answer
  | .completions language path => { service := s, result := .ok (.completions (s.completions language path)) }
  | .hover language path word => { service := s, result := .ok (.hover (s.hover language path word)) }
  | .definition language path word =>
    { service := s, result := (s.definition env.files.cwd language path word).map .location }
  | .hoverAt language path text line character =>
    { service := s, result := (s.hoverAt language path text line character).map .hover }
  | .signatureHelp language path text line character =>
    { service := s, result := .ok (.signature (s.signatureHelp language path text line character)) }
  | .reloadFile path language text => s.changed (.ok (s.reloadFile path language text))
  | .onOpen uri language text => s.changed (s.onOpen uri language text)
  | .onClose uri => s.changed (s.onClose uri)
  | .compile r => await env timeout meanwhile (s.startCompile env.input r)
  | .save uri language text => await env timeout meanwhile (s.startSave env uri language text)

/-! ## What requests depend on -/

/-- The settings serve to compile a file, where there is a compiler for it. -/
structure CanCompile (s : Service) (input : List UInt8) (file : Path) (language : String) : Prop where
  weidu : (DataLanguage.serving language).isWeidu = true → (ParseKind.of? file).isSome →
    s.config.weidu.Usable input file
  fallout : DataLanguage.serving language = .falloutSsl → file.lowerSuffix = ".ssl" →
    s.config.fallout.Usable input file

/-- The configuration file can be read, or is faulty in a way that is told. -/
def CanReload (s : Service) (env : Environment) : Prop :=
  ∀ e, Config.loadWorkspace env s.root = .error e → ∃ fault, e = .config fault

/-- What has to be the case for a request to be answered. -/
def CanAnswer (s : Service) (env : Environment) : Request → Prop
  | .completions _ _ | .hover _ _ _ | .signatureHelp _ _ _ _ _ | .reloadFile _ _ _ => True
  | .hoverAt language path text line character =>
    s.index.hasData (dataId language) path = true → ∃ word, symbolAt? text line character = .ok word
  | .definition language path word =>
    ∀ tier symbol, s.index.locate? (dataId language) path word = some (tier, symbol) →
      ∃ file, s.declaringFile path tier symbol = .ok file ∧ IsClean file.text
  | .onOpen uri _ _ | .onClose uri => ∃ file, Uri.toPath uri = .ok file
  | .compile r => ∃ file, Uri.toPath r.uri = .ok file ∧ s.CanCompile env.input file r.language
  | .save uri language _ =>
    ∃ file path, Uri.toPath uri = .ok file ∧ s.relativePath uri = .ok path ∧
      if path = Config.fileName then s.CanReload env
      else s.config.validateOnSave || s.config.validateOnChange → s.CanCompile env.input file language

/-! ## Compiles -/

/-- A compile that was started comes to an end: it is over at once, or its command can be run. -/
def Finishes (result : Except Failure Progress) : Prop :=
  (∃ ds, result = .ok (.done ds)) ∨ ∃ p, result = .ok (.waiting p) ∧ p.command.Runnable

theorem await_isOk_iff (env : Environment) (timeout : Option Float) (meanwhile : Service → Service)
    (started : Reply Progress) :
    (∃ a, (await env timeout meanwhile started).result = .ok a) ↔ Finishes started.result := by
  unfold await
  split
  · rename_i e h
    rw [h]
    exact ⟨nofun, fun hf => hf.elim nofun nofun⟩
  · rename_i ds h
    rw [h]
    exact ⟨fun _ => .inl ⟨ds, rfl⟩, fun _ => ⟨_, rfl⟩⟩
  · rename_i p h
    rw [h]
    have hfinishes : Finishes (.ok (.waiting p)) ↔ p.command.Runnable := by
      constructor
      · rintro (⟨ds, hds⟩ | ⟨q, hq, hrun⟩)
        · cases hds
        · cases hq
          exact hrun
      · exact fun hrun => .inr ⟨p, rfl, hrun⟩
    rw [hfinishes]
    by_cases hrun : p.command.Runnable
    · rcases Command.run_of_runnable hrun env timeout with ⟨r, hr⟩ | ⟨program, hr⟩
      · rw [hr]
        exact iff_of_true ⟨_, rfl⟩ hrun
      · rw [hr]
        exact iff_of_true ⟨_, rfl⟩ hrun
    · obtain ⟨e, he, hne⟩ := Command.run_of_not_runnable hrun env timeout
      rw [he]
      refine iff_of_false (fun ⟨a, ha⟩ => ?_) hrun
      cases e with
      | noCompiler program => exact hne program rfl
      | _ => cases ha

theorem weidu_eq_none_iff {input : List UInt8} {file : Path} {s : WeiduSettings} :
    Command.weidu input file s = .ok none ↔ ParseKind.of? file = none := by
  unfold Command.weidu
  split
  · rename_i h
    exact iff_of_true rfl h
  · rename_i kind h
    rw [h, bind_eq_ok]
    refine iff_of_false (fun ⟨_, _, hc⟩ => ?_) nofun
    cases Except.ok.inj hc

/-- A command for a file can be run, or there is none, just if the settings serve. -/
theorem compileCommand_runnable_iff {s : Service} (input : List UInt8) {file : Path} (hfile : file.Named)
    (language : String) (interactive : Bool) :
    ((s.compileCommand input file language interactive).1 = .ok none ∨
      ∃ c, (s.compileCommand input file language interactive).1 = .ok (some c) ∧ c.Runnable) ↔
      s.CanCompile input file language := by
  unfold compileCommand
  dsimp only
  split
  · rename_i hweidu
    have hother : DataLanguage.serving language ≠ .falloutSsl := fun e => by
      rw [e] at hweidu
      cases hweidu
    rw [weidu_eq_none_iff]
    cases hkind : ParseKind.of? file with
    | none =>
      refine iff_of_true (.inl rfl) ⟨fun _ h => ?_, fun e => absurd e hother⟩
      rw [hkind] at h
      cases h
    | some kind =>
      rw [Command.exists_weidu_iff hkind input]
      constructor
      · rintro (h | h)
        · cases h
        · exact ⟨fun _ _ => h, fun e => absurd e hother⟩
      · exact fun h => .inr (h.weidu hweidu (by rw [hkind]; rfl))
  · rename_i hweidu
    split
    · rename_i hfallout
      split
      · rename_i hsuffix
        exact iff_of_true (.inl rfl) ⟨fun h => absurd h hweidu, fun _ h => absurd h hsuffix⟩
      · rename_i hsuffix
        rw [not_not] at hsuffix
        have hmap : ∀ c, (Command.fallout input file s.config.fallout).map some = .ok c ↔
            ∃ d, Command.fallout input file s.config.fallout = .ok d ∧ c = some d := fun c => by
          cases Command.fallout input file s.config.fallout with
          | ok d => simp [Except.map, eq_comm]
          | error e => simp [Except.map]
        simp only [hmap]
        constructor
        · rintro (⟨d, -, hd⟩ | ⟨c, ⟨d, hd, hc⟩, hrun⟩)
          · cases hd
          · obtain rfl := Option.some.inj hc
            exact ⟨fun h => absurd h hweidu,
              fun _ _ => (Command.exists_fallout_iff hfile input s.config.fallout).mp ⟨c, hd, hrun⟩⟩
        · intro h
          obtain ⟨c, hc, hrun⟩ := (Command.exists_fallout_iff hfile input s.config.fallout).mpr
            (h.fallout hfallout hsuffix)
          exact .inr ⟨c, ⟨c, hc, rfl⟩, hrun⟩
    · rename_i hfallout
      exact iff_of_true (.inl rfl) ⟨fun h => absurd h hweidu, fun h => absurd h hfallout⟩

theorem startCompile_finishes_iff (s : Service) (input : List UInt8) (r : CompileRequest) :
    Finishes (s.startCompile input r).result ↔
      ∃ file, Uri.toPath r.uri = .ok file ∧ s.CanCompile input file r.language := by
  unfold startCompile
  split
  · rename_i e h
    rw [h]
    exact iff_of_false (fun hf => hf.elim nofun nofun) nofun
  · rename_i file h
    have hiff := compileCommand_runnable_iff (s := s) input (Uri.named_of_toPath h) r.language r.interactive
    have hfile : (∃ f, Uri.toPath r.uri = .ok f ∧ s.CanCompile input f r.language) ↔
        s.CanCompile input file r.language := by
      rw [h]
      exact ⟨fun ⟨f, hf, hc⟩ => Except.ok.inj hf ▸ hc, fun hc => ⟨file, rfl, hc⟩⟩
    rw [hfile, ← hiff]
    split
    · rename_i e events hcommand
      rw [hcommand]
      exact iff_of_false (fun hf => hf.elim nofun nofun) fun hf => hf.elim nofun nofun
    · rename_i events hcommand
      rw [hcommand]
      exact iff_of_true (.inl ⟨none, rfl⟩) (.inl rfl)
    · rename_i command events hcommand
      rw [hcommand]
      constructor
      · rintro (⟨ds, hds⟩ | ⟨p, hp, hrun⟩)
        · cases hds
        · cases hp
          exact .inr ⟨command, rfl, hrun⟩
      · rintro (hnone | ⟨c, hc, hrun⟩)
        · cases hnone
        · cases hc
          exact .inr ⟨_, rfl, hrun⟩

theorem canCompile_congr {s t : Service} (h : t.config = s.config) (input : List UInt8) (file : Path)
    (language : String) : t.CanCompile input file language ↔ s.CanCompile input file language := by
  constructor
  · rintro ⟨hweidu, hfallout⟩
    exact ⟨h ▸ hweidu, h ▸ hfallout⟩
  · rintro ⟨hweidu, hfallout⟩
    exact ⟨h ▸ hweidu, h ▸ hfallout⟩

theorem relativePath_isOk_iff (s : Service) (uri : String) :
    (∃ path, s.relativePath uri = .ok path) ↔ ∃ file, Uri.toPath uri = .ok file := by
  rw [relativePath]
  cases Uri.toPath uri with
  | error e => exact iff_of_false nofun nofun
  | ok file =>
    refine iff_of_true ?_ ⟨file, rfl⟩
    rw [asFailure, ok_bind]
    split <;> exact ⟨_, rfl⟩

theorem reloadConfig_isOk_iff (s : Service) (env : Environment) :
    (∃ t, s.reloadConfig env = .ok t) ↔ s.CanReload env := by
  rw [reloadConfig, CanReload]
  split
  · rename_i c h
    rw [h]
    exact iff_of_true ⟨_, rfl⟩ fun e he => by cases he
  · rename_i fault h
    rw [h]
    exact iff_of_true ⟨_, rfl⟩ fun e he => ⟨fault, (Except.error.inj he).symm⟩
  · rename_i e hfault h
    rw [h]
    refine iff_of_false (by rintro ⟨t, ht⟩; cases ht) fun hall => ?_
    obtain ⟨fault, rfl⟩ := hall e rfl
    exact hfault fault rfl

theorem startSave_finishes_iff (s : Service) (env : Environment) (uri language text : String) :
    Finishes (s.startSave env uri language text).result ↔ s.CanAnswer env (.save uri language text) := by
  unfold startSave
  split
  · rename_i e h
    refine iff_of_false (fun hf => hf.elim nofun nofun) ?_
    rintro ⟨file, path, -, hpath, -⟩
    cases h.symm.trans hpath
  · rename_i path h
    obtain ⟨file, hfile⟩ := (s.relativePath_isOk_iff uri).mp ⟨path, h⟩
    have hanswer : s.CanAnswer env (.save uri language text) ↔
        if path = Config.fileName then s.CanReload env
        else s.config.validateOnSave || s.config.validateOnChange →
          s.CanCompile env.input file language := by
      constructor
      · rintro ⟨f, p, hf, hp, hcan⟩
        obtain rfl := Except.ok.inj (hfile.symm.trans hf)
        obtain rfl := Except.ok.inj (h.symm.trans hp)
        exact hcan
      · exact fun hcan => ⟨file, path, hfile, h, hcan⟩
    have hframe := reloadFile_frame s path language text
    have hroot : (s.reloadFile path language text).root = s.root := by rw [hframe]
    have hconfig : (s.reloadFile path language text).config = s.config := by rw [hframe]
    rw [hanswer]
    dsimp only
    generalize s.reloadFile path language text = t at hroot hconfig ⊢
    by_cases hname : path = Config.fileName
    · have hreload : s.CanReload env ↔ t.CanReload env := by rw [CanReload, CanReload, hroot]
      rw [if_pos hname, if_pos hname, hreload, ← reloadConfig_isOk_iff]
      cases t.reloadConfig env with
      | ok u => exact iff_of_true (.inl ⟨none, rfl⟩) ⟨u, rfl⟩
      | error e => exact iff_of_false (fun hf => hf.elim nofun nofun) nofun
    · rw [if_neg hname, if_neg hname, hconfig]
      split
      · rename_i hvalidate
        rw [startCompile_finishes_iff]
        constructor
        · rintro ⟨f, hf, hcan⟩ -
          obtain rfl := Except.ok.inj (hfile.symm.trans hf)
          exact (canCompile_congr hconfig env.input file language).mp hcan
        · exact fun hcan => ⟨file, hfile, (canCompile_congr hconfig env.input file language).mpr (hcan hvalidate)⟩
      · rename_i hvalidate
        exact iff_of_true (.inl ⟨none, rfl⟩) fun h => absurd h hvalidate

/-! ## All requests -/

theorem definition_isOk_iff (s : Service) (env : Environment) (language path word : String) :
    (∃ l, s.definition env.files.cwd language path word = .ok l) ↔
      s.CanAnswer env (.definition language path word) := by
  rw [definition, CanAnswer]
  cases hfound : s.index.locate? (dataId language) path word with
  | none => exact iff_of_true ⟨none, rfl⟩ fun _ _ h => by cases h
  | some found =>
    obtain ⟨tier, symbol⟩ := found
    simp only [bind_eq_ok, asFailure_eq_ok, Uri.ofPath_eq_ok_iff]
    constructor
    · rintro ⟨l, file, hfile, uri, ⟨hclean, -⟩, -⟩ tier' symbol' e
      cases e
      exact ⟨file, hfile, hclean⟩
    · intro h
      obtain ⟨file, hfile, hclean⟩ := h tier symbol rfl
      exact ⟨_, file, hfile, _, ⟨hclean, rfl⟩, rfl⟩

/-- A hover is answered where there is no data, and where the word at the cursor can be searched for. -/
theorem hoverAt_isOk_iff (s : Service) (language path text : String) (line character : Int) :
    (∃ info, s.hoverAt language path text line character = .ok info) ↔
      (s.index.hasData (dataId language) path = true → ∃ word, symbolAt? text line character = .ok word) := by
  cases hword : symbolAt? text line character with
  | ok word => exact iff_of_true ⟨_, hoverAt_of_ok s language path hword⟩ fun _ => ⟨word, rfl⟩
  | error e =>
    rw [hoverAt_of_error s language path hword]
    cases s.index.hasData (dataId language) path with
    | true => exact iff_of_false nofun fun h => by obtain ⟨word, hw⟩ := h rfl; cases hw
    | false => exact iff_of_true ⟨none, rfl⟩ nofun

theorem changed_isOk_iff (s : Service) (x : Except Failure Service) :
    (∃ a, (s.changed x).result = .ok a) ↔ ∃ t, x = .ok t := by
  cases x with
  | ok t => exact iff_of_true ⟨_, rfl⟩ ⟨t, rfl⟩
  | error e => exact iff_of_false nofun nofun

theorem respond_isOk_iff (s : Service) (env : Environment) (timeout : Option Float)
    (meanwhile : Service → Service) (r : Request) :
    (∃ a, (s.respond env timeout meanwhile r).result = .ok a) ↔ s.CanAnswer env r := by
  cases r with
  | completions language path => exact iff_of_true ⟨_, rfl⟩ trivial
  | hover language path word => exact iff_of_true ⟨_, rfl⟩ trivial
  | signatureHelp language path text line character => exact iff_of_true ⟨_, rfl⟩ trivial
  | reloadFile path language text => exact iff_of_true ⟨_, rfl⟩ trivial
  | hoverAt language path text line character =>
    rw [CanAnswer, ← hoverAt_isOk_iff, respond]
    cases s.hoverAt language path text line character with
    | ok info => exact iff_of_true ⟨_, rfl⟩ ⟨info, rfl⟩
    | error e => exact iff_of_false (by rintro ⟨a, ha⟩; cases ha) (by rintro ⟨info, hinfo⟩; cases hinfo)
  | definition language path word =>
    rw [← definition_isOk_iff, respond]
    cases s.definition env.files.cwd language path word with
    | ok l => exact iff_of_true ⟨_, rfl⟩ ⟨l, rfl⟩
    | error e => exact iff_of_false (by rintro ⟨a, ha⟩; cases ha) (by rintro ⟨l, hl⟩; cases hl)
  | onOpen uri language text =>
    rw [respond, changed_isOk_iff, CanAnswer, ← relativePath_isOk_iff s, onOpen]
    simp only [bind_eq_ok]
    constructor
    · rintro ⟨_, path, h, _⟩
      exact ⟨path, h⟩
    · rintro ⟨path, h⟩
      exact ⟨_, path, h, rfl⟩
  | onClose uri =>
    rw [respond, changed_isOk_iff, CanAnswer, ← relativePath_isOk_iff s, onClose]
    simp only [bind_eq_ok]
    constructor
    · rintro ⟨_, path, h, _⟩
      exact ⟨path, h⟩
    · rintro ⟨path, h⟩
      exact ⟨_, path, h, rfl⟩
  | compile r => exact (await_isOk_iff env timeout meanwhile _).trans (s.startCompile_finishes_iff env.input r)
  | save uri language text =>
    exact (await_isOk_iff env timeout meanwhile _).trans (s.startSave_finishes_iff env uri language text)

/-- A compiler that cannot be started leaves a compile without diagnostics, and a person who asked for
it is told. -/
theorem respond_of_not_started {s : Service} {env : Environment} {timeout : Option Float} {r : CompileRequest}
    {p : Pending} {program : String} {args : List String}
    (hp : (s.startCompile env.input r).result = .ok (.waiting p))
    (hwords : p.command.processWords = .ok (program, args))
    (hnone : env.launch env.files p.command.cwd program args timeout = none) (meanwhile : Service → Service) :
    (s.respond env timeout meanwhile (.compile r)).result = .ok (.diagnostics none) ∧
      (s.respond env timeout meanwhile (.compile r)).events =
        .publish r.uri [] ::
          if r.interactive then [.error ("Failed to compile " ++ p.file.name ++ "!")] else [] := by
  rcases startCompile_cases s env.input r with ⟨q, hq, -, hstart⟩ | ⟨events, result, hstart, -, hno⟩
  · obtain rfl : q = p := by
      rw [hstart] at hp
      exact Progress.waiting.inj (Except.ok.inj hp)
    rw [respond, await, hp]
    dsimp only
    rw [Command.run_of_no_program hwords hnone, hstart]
    dsimp only [finishCompile, verdict]
    rw [hq]
    cases r.interactive <;> exact ⟨rfl, rfl⟩
  · rw [hstart] at hp
    exact absurd hp (hno p)

/-- Files with an empty workspace, and no programs. -/
def emptyWorkspace : Environment where
  files := ⟨.directory [("ws", .directory [])], ⟨.root, []⟩, 900⟩
  home := ⟨.root, []⟩
  configFile := ""
  yaml := Yaml.format
  room := 900

/-- A person asks for a compile of a script in the workspace. -/
def scriptRequest : CompileRequest :=
  { uri := "file:///ws/a.ssl", language := "fallout-ssl", interactive := true }

/-- The compile that waits for the default compiler. -/
def scriptPending : Pending where
  request := scriptRequest
  file := ⟨.root, ["ws", "a.ssl"]⟩
  command :=
    ⟨["compile", "-q", "-p", "-l", "-O2", "-XXXXX", "a.ssl", "-o", "a.int"].map .text, ⟨.root, ["ws"]⟩⟩
  stamp := 1

theorem toPath_script : Uri.toPath scriptRequest.uri = .ok scriptPending.file := by
  decide +kernel

/-- The command for the script is made of the settings of its compiler. -/
theorem compileCommand_script (s : Service) :
    s.compileCommand [] scriptPending.file scriptRequest.language scriptRequest.interactive =
      ((Command.fallout [] scriptPending.file s.config.fallout).map some, []) := by
  have hsuffix : scriptPending.file.lowerSuffix = ".ssl" := by decide +kernel
  have hfallout : DataLanguage.serving scriptRequest.language = .falloutSsl := by decide +kernel
  unfold compileCommand
  dsimp only
  rw [hfallout, if_neg (by decide), if_pos rfl, if_neg (not_not.mpr hsuffix)]

theorem scriptRequest_waits :
    (startCompile { root := ⟨.root, ["ws"]⟩ } [] scriptRequest).result = .ok (.waiting scriptPending) := by
  have hdestination : ((Path.ofString "").join (Path.ofString (scriptPending.file.stem ++ ".int"))).text =
      "a.int" := by decide +kernel
  have hprogram : Words.split "compile" = .ok ["compile"] := by decide +kernel
  have hoptions : Words.split "-q -p -l -O2 -XXXXX" = .ok ["-q", "-p", "-l", "-O2", "-XXXXX"] := by
    decide +kernel
  have hcommand : Command.fallout [] scriptPending.file {} = .ok scriptPending.command := by
    rw [Command.fallout_eq_ok rfl (.line hprogram) (.line hoptions), Command.falloutWords, hdestination]
    rfl
  have hstarted := (compileCommand_script { root := ⟨.root, ["ws"]⟩ }).trans
    (congrArg (fun c => (Except.map some c, [])) hcommand)
  unfold startCompile
  rw [toPath_script]
  dsimp only
  rw [hstarted]
  rfl

theorem processWords_script :
    scriptPending.command.processWords =
      .ok ("compile", ["-q", "-p", "-l", "-O2", "-XXXXX", "a.ssl", "-o", "a.int"]) :=
  Command.processWords_eq_ok_iff.mpr ⟨rfl, by decide +kernel⟩

/-- A configuration with a quotation mark that is not closed, as it is described. -/
def unclosedValue : Value :=
  .mapping [(.text "fallout", .mapping [(.text "compile_path", .text "\"compile")])]

end Service

end ScriptService
