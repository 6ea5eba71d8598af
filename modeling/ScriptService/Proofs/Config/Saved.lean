import ScriptService.Config.Load
import ScriptService.Proofs.Config.Checks
import ScriptService.Proofs.Files.Save
import ScriptService.Yaml.Format

/-!
# Configurations that are saved

Two values are the same if they hold the same things of the same types, the entries of
mappings in any order (`Value.same`). What is the same as the value that describes a
configuration is read as the same configuration (`Config.exists_ofValue_of_same`). So
where the text of a configuration's file reads back (`Config.ReadsBack`), the
configuration is loaded again from the file it was saved to, whatever other files could
hold one (`Config.exists_load_save`).

Main statement: `Config.checked_and_kept`.
-/

namespace ScriptService

namespace Value

mutual
/-- Whether two values are of the same type and hold the same things: lists in the same order, mappings
and sets in any. -/
def same : Value → Value → Bool
  | .null, .null => true
  | .bool a, .bool b => a == b
  | .int m, .int n => m == n
  | .float x, .float y => x == y
  | .text s, .text t => s == t
  | .codes s, .codes t => s == t
  | .day d, .day e => d = e
  | .moment m, .moment n => m = n
  | .bytes s, .bytes t => s == t
  | .list xs, .list ys => sameItems xs ys
  | .pair a b, .pair c d => a.same c && b.same d
  | .set xs, .set ys => xs.length == ys.length && ys.all fun y => xs.any fun x => x.sameKey y
  | .mapping es, .mapping fs => es.length == fs.length && hasEntries es fs
  | .loop a, .loop b => a == b
  | _, _ => false

/-- Whether two lists hold the same values in the same order. -/
def sameItems : List Value → List Value → Bool
  | [], [] => true
  | v :: vs, w :: ws => v.same w && sameItems vs ws
  | _, _ => false

/-- Whether some entries have the same value at each key of others. -/
def hasEntries (es : List (Value × Value)) : List (Value × Value) → Bool
  | [] => true
  | (k, w) :: fs =>
    (match es.find? fun e => e.1.sameKey k with
      | some e => e.2.same w
      | none => false) && hasEntries es fs
end

theorem sameKey_text {v : Value} {key : String} : v.sameKey (.text key) = true ↔ v = .text key := by
  cases v <;> simp [sameKey, asNumber?]

/-- The value at a text key is that of the first entry with the key. -/
theorem lookup?_eq_find? (key : String) (es : List (Value × Value)) :
    lookup? key es = (es.find? fun e => e.1.sameKey (.text key)).map Prod.snd := by
  induction es with
  | nil => rfl
  | cons e es ih =>
    obtain ⟨k, v⟩ := e
    by_cases hk : k = .text key
    · rw [List.find?_cons, sameKey_text.mpr hk, hk, lookup?, if_pos rfl]
      rfl
    · rw [List.find?_cons, Bool.eq_false_iff.mpr fun h => hk (sameKey_text.mp h), ← ih]
      cases k with
      | text s => rw [lookup?, if_neg fun hs => hk (congrArg _ hs)]
      | _ => rfl

theorem hasEntries_iff {es fs : List (Value × Value)} :
    hasEntries es fs = true ↔
      ∀ f ∈ fs, ∃ e, (es.find? fun e => e.1.sameKey f.1) = some e ∧ e.2.same f.2 = true := by
  induction fs with
  | nil => simp [hasEntries]
  | cons f fs ih =>
    obtain ⟨k, w⟩ := f
    rw [hasEntries, Bool.and_eq_true, ih, List.forall_mem_cons]
    refine and_congr_left fun _ => ?_
    cases es.find? fun e => e.1.sameKey k <;> simp

/-- What is the same as a mapping with text keys is a mapping with the same at each of them. -/
theorem mapping_of_same {v : Value} {entries : List (String × Value)}
    (h : v.same (Config.textMapping entries) = true) :
    ∃ es, v = .mapping es ∧ es.length = entries.length ∧
      ∀ e ∈ entries, ∃ x, lookup? e.1 es = some x ∧ x.same e.2 = true := by
  cases v with
  | mapping es =>
    rw [Config.textMapping, same, Bool.and_eq_true, beq_iff_eq, List.length_map, hasEntries_iff] at h
    refine ⟨es, rfl, h.1, fun e he => ?_⟩
    obtain ⟨x, hx, hsame⟩ := h.2 _ (List.mem_map_of_mem he)
    exact ⟨x.2, by rw [lookup?_eq_find?, hx, Option.map_some], hsame⟩
  | _ => cases h

theorem bool_of_same {v : Value} {b : Bool} (h : v.same (.bool b) = true) : v = .bool b := by
  cases v with
  | bool a => rw [eq_of_beq h]
  | _ => cases h

end Value

namespace Config

/-- What is the same as the value that describes a configuration is read as the same configuration. -/
theorem exists_ofValue_of_same (room : Nat) {v : Value} {c : Config} (h : v.same c.toValue = true) :
    ∃ c', ofValue room v = .ok c' ∧ c'.toValue.same c.toValue = true := by
  obtain ⟨es, rfl, -, hes⟩ := Value.mapping_of_same h
  simp only [List.forall_mem_cons, List.not_mem_nil, false_imp_iff, implies_true, and_true] at hes
  obtain ⟨⟨fallout, hfallout, hfs⟩, ⟨weidu, hweidu, hws⟩, ⟨onSave, hsave, hsaves⟩, onChange, hchange,
    hchanges⟩ := hes
  obtain rfl := Value.bool_of_same hsaves
  obtain rfl := Value.bool_of_same hchanges
  obtain ⟨fs, rfl, -, hfs⟩ := Value.mapping_of_same hfs
  obtain ⟨ws, rfl, -, hws⟩ := Value.mapping_of_same hws
  simp only [List.forall_mem_cons, List.not_mem_nil, false_imp_iff, implies_true, and_true] at hfs hws
  obtain ⟨⟨compiler, hc, hcs⟩, ⟨options, ho, hos⟩, ⟨output, hout, houts⟩, headers, hh, hhs⟩ := hfs
  obtain ⟨⟨path, hp, hps⟩, game, hg, hgs⟩ := hws
  refine ⟨{ fallout := ⟨compiler, options, output, headers⟩, weidu := ⟨path, game⟩,
            validateOnSave := c.validateOnSave, validateOnChange := c.validateOnChange }, ?_, ?_⟩
  · simp [ofValue, section?, flag?, hfallout, hweidu, hsave, hchange, hc, ho, hout, hh, hp, hg, bind,
      Except.bind]
  · simp [toValue, textMapping, Value.same, Value.hasEntries, Value.sameKey, List.find?, hcs, hos, houts, hhs,
      hps, hgs]

/-! ## Files -/

/-- The bytes of a YAML file stand for what is the same as a value. -/
def ReadsAs (yaml : ValueFormat) (bytes : List UInt8) (w : Value) : Prop :=
  ∃ v, yaml.read bytes = .ok v ∧ v.same w = true

instance (yaml : ValueFormat) (bytes : List UInt8) (w : Value) : Decidable (ReadsAs yaml bytes w) :=
  match h : yaml.read bytes with
  | .ok v => decidable_of_iff (v.same w = true)
      ⟨fun hv => ⟨v, h, hv⟩, fun ⟨_, hw, hsame⟩ => Except.ok.inj (h.symm.trans hw) ▸ hsame⟩
  | .error _ => isFalse fun ⟨_, hw, _⟩ => nomatch h.symm.trans hw

/-- What a configuration's file says reads back. Settings without a form of their own in YAML, such as
pairs, do not. -/
def ReadsBack (yaml : ValueFormat) (c : Config) : Prop :=
  ReadsAs yaml (Text.encodeUtf8 (c.fileText yaml).toList) c.toValue

theorem suffix_ne_empty {p : Path} (h : isYaml p = true) : p.suffix ≠ "" := by
  intro he
  rw [isYaml, he] at h
  cases h

theorem parts_ne_nil_of_isYaml {p : Path} (h : isYaml p = true) : p.parts ≠ [] := by
  intro hnil
  refine suffix_ne_empty h ?_
  rw [Path.suffix, Path.name, hnil]
  rfl

/-- The name of a YAML file does not lead back. -/
theorem name_ne_dots_of_isYaml {p : Path} (h : isYaml p = true) : p.name ≠ ".." := by
  intro hdots
  refine suffix_ne_empty h ?_
  rw [Path.suffix, hdots]
  rfl

/-- A configuration file that is asked for is read, whatever other candidates there are. -/
theorem load_of_isFile {env : Environment} {s : String} (hne : s ≠ "")
    (h : env.files.isFile (Path.ofString s) = .ok true) (search : List Path) :
    load env (some s) search = readFile env (Path.ofString s) := by
  have hfirst : firstFile env.files (candidates env (some s) search) = .ok (some (Path.ofString s)) := by
    rw [candidates, Option.elim_some, if_neg (by simpa using hne), List.append_assoc, List.append_assoc,
      List.singleton_append, firstFile, h]
    rfl
  rw [load, hfirst]
  rfl

/-- The configuration in a file that holds what is the same as a configuration's value is the same. -/
theorem exists_readFile {env : Environment} {p : Path} (hyaml : isYaml p = true) {bytes : List UInt8}
    (hbytes : env.files.read p = .ok bytes) {v : Value} (hv : env.yaml.read bytes = .ok v) {c : Config}
    (hsame : v.same c.toValue = true) :
    ∃ c', readFile env p = .ok c' ∧ c'.toValue.same c.toValue = true := by
  obtain ⟨c', hc, hsame'⟩ := exists_ofValue_of_same env.room hsame
  obtain ⟨es, rfl, hlength, -⟩ := Value.mapping_of_same hsame
  have hgiven : (Value.mapping es).isGiven = true := by
    cases es with
    | nil => cases hlength
    | cons => rfl
  refine ⟨c', ?_, hsame'⟩
  rw [readFile, hbytes, asFailure, ok_bind, readValue, if_pos hyaml, hv]
  exact (congrArg (fun w => asFailure .ofConfigError (ofValue env.room w)) (if_pos hgiven)).trans (by rw [hc]; rfl)

/-- A configuration that was saved is loaded from its file, whatever other candidates there are. -/
theorem exists_load_save {env : Environment} (hcwd : env.files.cwd.Named) {c : Config} (hread : c.ReadsBack env.yaml)
    {s : String} (hyaml : isYaml (Path.ofString s) = true) {files : Files}
    (hsave : c.save env (Path.ofString s) = .ok files) (search : List Path) :
    ∃ c', load { env with files } (some s) search = .ok c' ∧ c'.toValue.same c.toValue = true := by
  obtain ⟨v, hv, hsame⟩ := hread
  have hp := Path.named_ofString s
  have hne : s ≠ "" := by
    rintro rfl
    exact parts_ne_nil_of_isYaml hyaml rfl
  have hfile : ({ env with files } : Environment).files.isFile (Path.ofString s) = .ok true :=
    Files.isFile_save hcwd hp hsave
  have hbytes : ({ env with files } : Environment).files.read (Path.ofString s) =
      .ok (Text.encodeUtf8 (c.fileText env.yaml).toList) := Files.read_save hcwd hp hsave
  rw [load_of_isFile hne hfile]
  exact exists_readFile hyaml hbytes hv hsame

/-- A value is read as a configuration just if no check refuses anything in it; else the failure is that
of the first check that does, which says what is wrong unless that cannot be told in a message, as it has
room for so many values inside one another only. A configuration that was read is read again from the
value that describes it, whatever its settings are. Where its file reads back, it is loaded again from
where it was saved, whatever other files there are, and it is saved wherever no more than directories is
missing. -/
theorem checked_and_kept (room : Nat) (d : Value) :
    ((∃ c, ofValue room d = .ok c) ↔ ∀ check ∈ checks, ∀ v, ¬ Check.Refuses d check v) ∧
    (∀ failure, asFailure .ofConfigError (ofValue room d) = .error failure ↔
      ∃ check v, Check.First d checks check v ∧ failure = check.failure room v) ∧
    (∀ check v, Check.First d checks check v →
      (asFailure .ofConfigError (ofValue room d) = .error (.config (check.fault v)) ↔
        check.cannotTell room v = false)) ∧
    ∀ c, ofValue room d = .ok c → ofValue room c.toValue = .ok c ∧
      ∀ (env : Environment) (s : String) (search : List Path),
        env.files.cwd.Named → c.ReadsBack env.yaml → isYaml (Path.ofString s) = true →
          (∀ files, c.save env (Path.ofString s) = .ok files →
            ∃ c', load { env with files } (some s) search = .ok c' ∧ c'.toValue.same c.toValue = true) ∧
          (env.files.CanSave (Path.ofString s) →
            ∃ files, c.save env (Path.ofString s) = .ok files) := by
  refine ⟨exists_ofValue_eq_ok_iff room d, asFailure_ofValue_eq_error_iff room d,
    fun check v hfirst => asFailure_ofValue_eq_config_iff room hfirst,
    fun c _ => ⟨ofValue_toValue room c, ?_⟩⟩
  intro env s search hcwd hread hyaml
  constructor
  · intro files hsave
    exact exists_load_save hcwd hread hyaml hsave search
  · intro hcan
    exact hcan.exists_save hcwd (Path.named_ofString s) (parts_ne_nil_of_isYaml hyaml)
      (name_ne_dots_of_isYaml hyaml) _

/-- A configuration with settings that are no texts. -/
def nestedSettings : Config where
  fallout :=
    { compilePath := .null
      compileOptions := .list [.int 2, .null]
      outputDirectory := .mapping [(.text "b", .bool true), (.text "a", .int (-1))] }
  validateOnSave := false

/-- A place with a configuration file of its own and one that the environment names. -/
def furnishedPlace : Environment where
  files := ⟨.directory [(".bgforge.yml", .file []), ("named.yml", .file [])], ⟨.root, []⟩, 900⟩
  home := ⟨.root, []⟩
  configFile := "named.yml"
  yaml := Yaml.format
  room := 900

theorem nested_saved :
    ofValue 900 nestedSettings.toValue = .ok nestedSettings ∧
      (∃ files c', nestedSettings.save furnishedPlace (Path.ofString "made/a.yml") = .ok files ∧
        load { furnishedPlace with files } (some "made/a.yml") [] = .ok c' ∧
        c'.toValue.same nestedSettings.toValue = true) ∧
      asFailure .ofConfigError (ofValue 900 (.mapping [(.text "validate_on_save", .text "false")])) =
        .error (.config (.flagNotTruthValue "validate_on_save" (Value.text "false").literal)) := by
  have hread : nestedSettings.ReadsBack furnishedPlace.yaml := by
    have htext : nestedSettings.fileText furnishedPlace.yaml = Yaml.write nestedSettings.toValue := rfl
    rw [ReadsBack, htext, Yaml.write, String.toList_ofList]
    decide +kernel
  have hsave : furnishedPlace.files.CanSave (Path.ofString "made/a.yml") := by
    have hstat : ∀ {p : Path} {r}, Files.CanLookUp p.text →
        (Files.walk p.text [furnishedPlace.files.root] (furnishedPlace.files.wayNames p.text) >>= fun out =>
          out.head?.elim (.error .missing) .ok) = r → furnishedPlace.files.stat p = r := fun hlook hr => by
      rw [Files.stat, Files.lookup_eq_walk _ hlook, hr]
    have hfile := hstat (p := Path.ofString "made/a.yml") ⟨by decide, by decide, by decide⟩ rfl
    have hmade := hstat (p := Path.ofString "made") ⟨by decide, by decide, by decide⟩ rfl
    have hroot := hstat (p := Path.ofString ".") ⟨by decide, by decide, by decide⟩ rfl
    exact ⟨.inl hfile, by decide, .made hmade rfl (by decide) (by decide) (.stands hroot)⟩
  obtain ⟨-, -, -, hkept⟩ := checked_and_kept 900 nestedSettings.toValue
  obtain ⟨hagain, hfiles⟩ := hkept nestedSettings (ofValue_toValue 900 nestedSettings)
  obtain ⟨hload, hsaved⟩ := hfiles furnishedPlace "made/a.yml" [] (List.forall_mem_nil _) hread (by decide)
  obtain ⟨files, hfiles⟩ := hsaved hsave
  obtain ⟨c', hc, hsame⟩ := hload files hfiles
  obtain ⟨-, -, hfirst, -⟩ := checked_and_kept 900 (.mapping [(.text "validate_on_save", .text "false")])
  exact ⟨hagain, ⟨files, c', hfiles, hc, hsame⟩, (hfirst _ _ (first_flag (by simp) rfl)).mpr rfl⟩

theorem long_flag_unreported :
    (∃ check v, Check.First (.mapping [(.text "validate_on_save", .int (16 ^ 3600 - 1))]) checks check v) ∧
      ∀ e, asFailure .ofConfigError
        (ofValue 900 (.mapping [(.text "validate_on_save", .int (16 ^ 3600 - 1))])) ≠ .error (.config e) := by
  have hlong : (Value.int (16 ^ 3600 - 1)).fault? 900 = some .longInt :=
    if_pos ((Value.hasLongInt_int_iff _).mpr (by decide +kernel))
  have hfirst := first_flag (v := .int (16 ^ 3600 - 1)) (fun h => by cases h) rfl
  refine ⟨⟨_, _, hfirst⟩, fun e he => ?_⟩
  have hfailure := (asFailure_ofValue_eq_error_iff 900 _ _).mpr ⟨_, _, hfirst, rfl⟩
  rw [Check.failure, Check.untold?, hlong] at hfailure
  cases hfailure.symm.trans he

end Config

end ScriptService
